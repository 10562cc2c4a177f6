import Mathlib.Logic.Relation
import MessageMarkup.Proofs.Entity.Covered
import MessageMarkup.Proofs.Format.Confined

/-!
# What is verbatim is left alone

The reader passes code, preformatted text and the label of a link when it finds them, so it is
behind each such entity from then on (`Scan.Reachable.stop_le_position`). Nothing behind the reader
changes, so no later step changes the entity or the text that it covers
(`Scan.Later.getElem?_entities`), and what is found later starts behind it. `Format.parse_verbatim`
says so of the runs of a format and of the messages that it reads.
-/

namespace MessageMarkup

namespace Scan

variable {table : Delimiters} {p : LinkPattern} {markup : String} {s t : Scan} {e : Entity}

/-! ## Behind the reader -/

/-- The reader has passed what is verbatim. -/
theorem Reachable.stop_le_position (h : s.Reachable table p markup) (he : e ∈ s.entities)
    (hv : e.kind.isVerbatim = true) : e.stop ≤ s.position := by
  obtain ⟨trace, htrace⟩ := h.exists_traces
  rw [← htrace.of.entities_eq] at he
  obtain ⟨x, hx, rfl⟩ := List.mem_map.mp he
  rw [← htrace.of.position_eq]
  exact ((htrace.fits x hx).verbatim hv).2

/-- An entity behind the reader stays as it is in a step. -/
theorem Grows.getElem?_entities {shrink : Entity → Entity} {found : Option Entity}
    (h : s.Grows t shrink found) {k : Nat} (hk : s.entities[k]? = some e)
    (hstop : e.stop ≤ s.position) : t.entities[k]? = some e := by
  have hlt : k < (s.entities.map shrink).length := by
    rw [List.length_map]
    exact (List.getElem?_eq_some_iff.mp hk).1
  rw [h.entities_eq, List.getElem?_append_left hlt, List.getElem?_map, hk, Option.map_some,
    h.eq_of_le e hstop]

/-- So does what it covers. -/
theorem Grows.covered {shrink : Entity → Entity} {found : Option Entity}
    (h : s.Grows t shrink found) (hstop : e.stop ≤ s.position) :
    e.covered t.units = e.covered s.units := by
  obtain ⟨passed, hpast⟩ := h.past
  have hpassed : e.stop ≤ s.past.reverse.length := by
    rw [List.length_reverse]
    exact hstop
  rw [units, units, ← hpast, List.reverse_append, List.append_assoc,
    Entity.covered_append hpassed, Entity.covered_append hpassed]

/-! ## Later in a run -/

/-- One scan comes after another in a run, or is the same. -/
def Later (table : Delimiters) (p : LinkPattern) : Scan → Scan → Prop :=
  Relation.ReflTransGen fun s t => s.rest ≠ [] ∧ t = s.step table p

/-- What is verbatim stays as it is from then on: the entity, and what it covers. -/
theorem Later.getElem?_entities (h : Later table p s t) (hs : s.Reachable table p markup) {k : Nat}
    (hk : s.entities[k]? = some e) (hv : e.kind.isVerbatim = true) :
    t.Reachable table p markup ∧ t.entities[k]? = some e ∧
      e.covered t.units = e.covered s.units := by
  induction h with
  | refl => exact ⟨hs, hk, rfl⟩
  | tail _ hstep ih =>
    obtain ⟨hne, rfl⟩ := hstep
    obtain ⟨hreachable, hk', hcovered⟩ := ih
    have hstop := hreachable.stop_le_position (List.mem_of_getElem? hk') hv
    obtain ⟨shrink, found, hgrows⟩ := exists_grows table p hne
    exact ⟨hreachable.step hne, hgrows.getElem?_entities hk' hstop,
      (hgrows.covered hstop).trans hcovered⟩

/-- What is found later starts behind it. -/
theorem Reachable.pairwise_stop_le (h : s.Reachable table p markup) :
    s.entities.Pairwise fun e e' => e.kind.isVerbatim = true → e.stop ≤ e'.offset := by
  induction h with
  | start => exact List.Pairwise.nil
  | @step s hs hne ih =>
    obtain ⟨shrink, found, hgrows⟩ := exists_grows table p hne
    -- What is verbatim is behind the reader, and so the same as before.
    have hsame {e : Entity} (he : e ∈ s.entities) (hv : (shrink e).kind.isVerbatim = true) :
        shrink e = e ∧ e.stop ≤ s.position := by
      rw [hgrows.kind_eq] at hv
      have hstop := hs.stop_le_position he hv
      exact ⟨hgrows.eq_of_le e hstop, hstop⟩
    rw [hgrows.entities_eq, List.pairwise_append, List.pairwise_map]
    refine ⟨?_, Option.pairwise_toList, fun e₁ he₁ e₂ he₂ hv => ?_⟩
    · refine ih.imp_of_mem fun {e e'} he _ hle hv => ?_
      have heq := (hsame he hv).1
      rw [heq] at hv ⊢
      rw [hgrows.offset_eq]
      exact hle hv
    · obtain ⟨e, he, rfl⟩ := List.mem_map.mp he₁
      obtain ⟨heq, hstop⟩ := hsame he hv
      rw [hgrows.offset_found e₂ (Option.mem_toList.mp he₂), heq]
      exact hstop

end Scan

/-! ## Messages -/

/-- Code, preformatted text and links are left alone once they have been found. In a run with any
table and any pattern of links, an entity that is verbatim is in each later scan what it was, at its
number, and covers the same units. So in the message that is read every later entity starts where
it stops or behind that. -/
theorem Format.parse_verbatim {f : Format} (h : f.table.isEmpty = false) (markup : String) :
    (∀ s t : Scan, s.Reachable f.table f.links markup → Scan.Later f.table f.links s t →
      ∀ (k : Nat) (e : Entity), s.entities[k]? = some e → e.kind.isVerbatim = true →
        t.entities[k]? = some e ∧ e.covered t.units = e.covered s.units) ∧
    (f.parse markup).entities.Pairwise fun e e' =>
      e.kind.isVerbatim = true → e.stop ≤ e'.offset := by
  refine ⟨fun s t hs ht k e hk hv => (ht.getElem?_entities hs hk hv).2, ?_⟩
  have hentities := congrArg Message.entities (Format.parse_eq_trim h markup)
  rw [hentities]
  show List.Pairwise _ (List.filterMap _ _)
  rw [List.pairwise_filterMap]
  refine (Scan.reachable_run f.table f.links markup).pairwise_stop_le.imp ?_
  intro e e' hle c hc c' hc' hv
  obtain ⟨hkind, -, -, hstop⟩ := Entity.of_clip?_eq_some hc
  obtain ⟨-, -, hoffset, -⟩ := Entity.of_clip?_eq_some hc'
  rw [hkind] at hv
  have := hle hv
  omega

/-- Code that looks like markup, before a marker that it has in it: the next step takes out a pair
behind the code, which stays what it is. -/
theorem Format.parse_verbatim_code :
    let f : Format := {}
    let markup := "`__`__a__"
    let s := Scan.step f.table f.links { rest := Utf16.ofText markup }
    let t := s.step f.table f.links
    f.table.isEmpty = false ∧ Scan.Reachable f.table f.links markup s ∧
      Scan.Later f.table f.links s t ∧ s.entities[0]? = some ⟨0, 2, .code⟩ ∧
      t.entities = [⟨0, 2, .code⟩, ⟨2, 1, .italic⟩] ∧
      Entity.covered ⟨0, 2, .code⟩ t.units = Entity.covered ⟨0, 2, .code⟩ s.units ∧
      (f.parse markup).entities.Pairwise fun e e' =>
        e.kind.isVerbatim = true → e.stop ≤ e'.offset := by
  intro f markup s t
  have hs : Scan.Reachable f.table f.links markup s := .step .start (by decide)
  have ht : Scan.Later f.table f.links s t := .single ⟨by decide +kernel, rfl⟩
  have hcode : s.entities[0]? = some ⟨0, 2, .code⟩ := by decide +kernel
  obtain ⟨hkept, hpairwise⟩ := Format.parse_verbatim (f := f) rfl markup
  obtain ⟨-, hcovered⟩ := hkept s t hs ht 0 _ hcode rfl
  exact ⟨rfl, hs, ht, hcode, by decide +kernel, hcovered, hpairwise⟩

end MessageMarkup
