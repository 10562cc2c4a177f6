import MessageMarkup.Format
import MessageMarkup.Proofs.Entity.Shorten
import MessageMarkup.Proofs.Entity.Trim
import MessageMarkup.Proofs.Format.Reachable

/-!
# The shape of what is read

Two things hold of every message that is read with some table, whatever the table and however links
are written. Its text has only characters of the markup, in their order, because whole characters
are taken out and none are put in: the units are well-formed at every step
(`Format.parse_sublist`). And the text has no blanks around it, no entity is empty or reaches behind
the end, and the entities start in their order (`Format.parse_shape`). The order comes from the
reader, which never goes back (`Scan.Sorted`), and all else from trimming, which fits the entities
to what is left of the text however long they had become.
-/

namespace MessageMarkup

open Utf16 (encode)

/-! ## Messages -/

/-- A message that is read with some table is what the run ends with, trimmed. -/
theorem Format.parse_eq_trim {f : Format} (h : f.table.isEmpty = false) (markup : String) :
    f.parse markup =
      let s := Scan.run f.table f.links { rest := Utf16.ofText markup }
      { text := Utf16.toText (trim s.units s.entities).1
        entities := (trim s.units s.entities).2 } := by
  unfold Format.parse Format.parseNoting parseWith
  rw [h, Bool.or_false]
  split
  · -- The run of an empty text ends where it starts.
    rename_i hempty
    rw [String.isEmpty_iff] at hempty
    rw [hempty, Scan.run]
    rfl
  · rfl

/-- A run that ends with the units of a text leaves a message of that text to be trimmed. -/
theorem Format.parse_eq_of_run {f : Format} (h : f.table.isEmpty = false) {markup : String}
    {text : List Char}
    (hunits : (Scan.run f.table f.links { rest := Utf16.ofText markup }).units = encode text) :
    f.parse markup = Message.trim
      { text := String.ofList text
        entities := (Scan.run f.table f.links { rest := Utf16.ofText markup }).entities } := by
  rw [Format.parse_eq_trim h]
  unfold Message.trim Utf16.ofText
  rw [String.toList_ofList, ← hunits]
  rfl

/-- Its text is that of the units that are left: none of them is lost. -/
theorem Format.ofText_parse {f : Format} (h : f.table.isEmpty = false) (markup : String) :
    Utf16.ofText (f.parse markup).text =
      trimUnits (Scan.run f.table f.links { rest := Utf16.ofText markup }).units := by
  obtain ⟨text, hshows, -⟩ := (Scan.reachable_run f.table f.links markup).shows
  rw [Format.parse_eq_trim h]
  show encode (Utf16.toText (trimUnits _)).toList = _
  rw [hshows.units_eq, trimUnits_encode, Utf16.toText, Utf16.decode_encode, String.toList_ofList]

/-- Nothing is put into a message by reading it. Whatever the markers are and however links are
written, at every step of a run the units are well-formed and their characters are some of those of
the markup, in their order; so no unit is lost when they become a text, and the text has some of the
characters of the markup, in their order. -/
theorem Format.parse_sublist {f : Format} (h : f.table.isEmpty = false) (markup : String) :
    (∀ s, Scan.Reachable f.table f.links markup s →
      Utf16.WellFormed s.units ∧ (Utf16.decode s.units).Sublist markup.toList) ∧
    Utf16.ofText (f.parse markup).text =
      trimUnits (Scan.run f.table f.links { rest := Utf16.ofText markup }).units ∧
    (f.parse markup).text.toList.Sublist markup.toList := by
  refine ⟨fun s hs => ?_, Format.ofText_parse h markup, ?_⟩
  · obtain ⟨text, hshows, hsub⟩ := hs.shows
    rw [hshows.units_eq, Utf16.decode_encode]
    exact ⟨Utf16.wellFormed_encode text, hsub⟩
  · obtain ⟨text, hshows, hsub⟩ := (Scan.reachable_run f.table f.links markup).shows
    obtain ⟨before, after, htext, -⟩ := exists_trimChars text
    have hunits : encode (f.parse markup).text.toList = encode (trimChars text) := by
      rw [← trimUnits_encode, ← hshows.units_eq]
      exact Format.ofText_parse h markup
    have hpiece : (trimChars text).Sublist (before ++ (trimChars text ++ after)) :=
      (List.sublist_append_left _ after).trans (List.sublist_append_right before _)
    rw [← htext] at hpiece
    rw [Utf16.encode_injective hunits]
    exact hpiece.trans hsub

/-- A marker beyond the Basic Multilingual Plane is taken out as a whole, also next to a character
that has a unit in common with it. -/
theorem Format.parse_sublist_emoji :
    let f := ({} : Format).withDelimiters ⟨[⟨"😀", .bold⟩]⟩
    let markup := " 😀a[😁](u)😀😁"
    f.parse markup = { text := "a😁😁", entities := [⟨0, 3, .bold⟩, ⟨1, 2, .textUrl "u"⟩] } ∧
      f.table.isEmpty = false ∧
      (∀ s, Scan.Reachable f.table f.links markup s →
        Utf16.WellFormed s.units ∧ (Utf16.decode s.units).Sublist markup.toList) ∧
      Utf16.ofText (f.parse markup).text =
        trimUnits (Scan.run f.table f.links { rest := Utf16.ofText markup }).units ∧
      (f.parse markup).text.toList.Sublist markup.toList :=
  ⟨by decide +kernel, rfl, Format.parse_sublist rfl _⟩

/-! ## Order -/

namespace Scan

variable {table : Delimiters} {p : LinkPattern} {s t : Scan}

/-- The entities that have been found start in their order, and none behind the reader. -/
structure Sorted (s : Scan) : Prop where
  /-- An entity starts before the reader or at it. -/
  offset_le : ∀ e ∈ s.entities, e.offset ≤ s.position
  /-- A later entity does not start before an earlier one. -/
  sorted : s.entities.Pairwise fun e e' => e.offset ≤ e'.offset

/-- Before a run nothing has been found. -/
theorem sorted_start (markup : String) : Sorted { rest := Utf16.ofText markup } :=
  ⟨fun _ h => absurd h List.not_mem_nil, List.Pairwise.nil⟩

/-- What a step makes of a scan. What the reader has passed stays as it is. The entities found so
far keep their kind and their start, and those that stop before the reader stay as they are. At most
one more is found, where the reader was. -/
structure Grows (s t : Scan) (shrink : Entity → Entity) (found : Option Entity) : Prop where
  /-- The reader never goes back, and nothing behind it changes. -/
  past : s.past <:+ t.past
  /-- The entities found so far are there, as they have become, and then the new one. -/
  entities_eq : t.entities = s.entities.map shrink ++ found.toList
  /-- They start where they did. -/
  offset_eq : ∀ e, (shrink e).offset = e.offset
  /-- They are of the same kind. -/
  kind_eq : ∀ e, (shrink e).kind = e.kind
  /-- Those behind the reader are the same. -/
  eq_of_le : ∀ e, e.stop ≤ s.position → shrink e = e
  /-- The new one starts where the reader was. -/
  offset_found : ∀ e ∈ found, e.offset = s.position

/-- Every step does no more than that. -/
theorem exists_grows (table : Delimiters) (p : LinkPattern) (hne : s.rest ≠ []) :
    ∃ shrink found, s.Grows (s.step table p) shrink found := by
  obtain hv | ⟨d, n, hm, ho⟩ | ⟨l, hm, hl⟩ := cases_step table p s
  · obtain ⟨unit, rest, hrest⟩ := List.exists_cons_of_ne_nil hne
    obtain ⟨hpast, -, hentities, -⟩ := step_of_vacant hv hrest
    refine ⟨id, none, ?_, ?_, fun _ => rfl, fun _ => rfl, fun _ _ => rfl, fun _ h => nomatch h⟩
    · rw [hpast]
      exact List.suffix_cons unit s.past
    · simpa using hentities
  · rw [step_of_pair hm ho]
    refine ⟨Entity.withoutPair s.position (s.position + d.width + n) d.width,
      some ⟨s.position, n, d.style.kind⟩, ?_, ?_, fun _ => Entity.offset_withoutPair,
      fun _ => Entity.kind_withoutPair, fun _ => Entity.withoutPair_of_le, ?_⟩
    · unfold takePair
      split
      · exact List.suffix_append _ _
      · exact List.suffix_refl _
    · unfold takePair
      split <;> rfl
    · intro e he
      rw [← Option.some.inj he]
  · rw [step_of_link hm hl]
    refine ⟨Entity.withoutLink s.position (l.length - l.label.length),
      some ⟨s.position, l.label.length, .textUrl l.url⟩, List.suffix_append _ _, rfl,
      fun _ => Entity.offset_withoutLink, fun _ => Entity.kind_withoutLink,
      fun _ => Entity.withoutLink_of_le, ?_⟩
    intro e he
    rw [← Option.some.inj he]

/-- A step leaves the entities in their order. -/
theorem Sorted.step (h : s.Sorted) (hne : s.rest ≠ []) : (s.step table p).Sorted := by
  obtain ⟨shrink, found, hgrows⟩ := exists_grows table p hne
  have hposition : s.position ≤ (s.step table p).position := hgrows.past.length_le
  have hold : ∀ e ∈ s.entities.map shrink, e.offset ≤ s.position := by
    intro e' he'
    obtain ⟨e, he, rfl⟩ := List.mem_map.mp he'
    rw [hgrows.offset_eq]
    exact h.offset_le e he
  constructor
  · intro e he
    rw [hgrows.entities_eq] at he
    rcases List.mem_append.mp he with he | he
    · exact (hold e he).trans hposition
    · rw [hgrows.offset_found e (Option.mem_toList.mp he)]
      exact hposition
  · rw [hgrows.entities_eq, List.pairwise_append, List.pairwise_map]
    refine ⟨?_, Option.pairwise_toList, fun e he e' he' => ?_⟩
    · simp only [hgrows.offset_eq]
      exact h.sorted
    · rw [hgrows.offset_found e' (Option.mem_toList.mp he')]
      exact hold e he

/-- So they are in their order at every step. -/
theorem Reachable.sorted {markup : String} (h : Reachable table p markup s) : s.Sorted := by
  induction h with
  | start => exact sorted_start markup
  | step _ hne ih => exact ih.step hne

end Scan

/-- Every message that is read with some table has its shape: the text neither starts nor ends with
a blank, every entity covers something and nothing behind the end of the text, and the entities are
in the order in which they start. -/
theorem Format.parse_shape {f : Format} (h : f.table.isEmpty = false) (markup : String) :
    (∀ u ∈ (Utf16.ofText (f.parse markup).text).head?, isBlankUnit u = false) ∧
    (∀ u ∈ (Utf16.ofText (f.parse markup).text).getLast?, isBlankUnit u = false) ∧
    (∀ e ∈ (f.parse markup).entities,
      0 < e.length ∧ e.offset + e.length ≤ (Utf16.ofText (f.parse markup).text).length) ∧
    (f.parse markup).entities.Pairwise fun e e' => e.offset ≤ e'.offset := by
  have hsorted := (Scan.reachable_run f.table f.links markup).sorted
  have hentities := congrArg Message.entities (Format.parse_eq_trim h markup)
  rw [Format.ofText_parse h, hentities]
  refine ⟨fun u hu => isBlankUnit_head_trimUnits hu, fun u hu => isBlankUnit_last_trimUnits hu,
    fun e' he' => ?_, Entity.pairwise_clip? hsorted.sorted⟩
  obtain ⟨e, -, hclip⟩ := List.mem_filterMap.mp he'
  obtain ⟨-, hpos, -, hstop⟩ := Entity.of_clip?_eq_some hclip
  refine ⟨hpos, ?_⟩
  have hle : e'.stop ≤ (trimUnits (Scan.run f.table f.links
      { rest := Utf16.ofText markup }).units).length := by
    rw [hstop]
    exact Nat.min_le_right _ _
  exact hle

/-- A style that loses all it had to one that crosses it, and blanks in and around entities. -/
theorem Format.parse_shape_crossing :
    let m := ({} : Format).parse " **_**_x__ `👋 `"
    m = { text := "x 👋", entities := [⟨0, 1, .italic⟩, ⟨2, 2, .code⟩] } ∧
      ({} : Format).table.isEmpty = false ∧
      (∀ u ∈ (Utf16.ofText m.text).head?, isBlankUnit u = false) ∧
      (∀ u ∈ (Utf16.ofText m.text).getLast?, isBlankUnit u = false) ∧
      (∀ e ∈ m.entities, 0 < e.length ∧ e.offset + e.length ≤ (Utf16.ofText m.text).length) ∧
      m.entities.Pairwise fun e e' => e.offset ≤ e'.offset :=
  ⟨by decide +kernel, rfl, Format.parse_shape rfl _⟩

end MessageMarkup
