import MessageMarkup.Proofs.Format.Confined

/-!
# Entities and characters

Markup starts and stops between characters, so an entity starts between characters, and it stops
there too until something is taken out around its end (`Tracked.straddles`): then it is shortened by
the units of all that is taken out, not by those that it covered of it, and may stop anywhere. With
every table and every pattern of links each entity that is read starts at a character boundary, and
stops at one unless it straddles (`Format.parse_boundaries`). That it may not is seen with each of
the three ways to straddle (`Format.parse_boundaries_split`).
-/

namespace MessageMarkup

open Utf16 (encode length IsCut)

/-! ## Taking out markup -/

/-- A cut of a text that is not inside what is taken out before and behind a piece of it. -/
theorem Utf16.IsCut.unwrap {xs before ys after zs : List Char} {i : Nat}
    (h : IsCut (xs ++ (before ++ (ys ++ (after ++ zs)))) i)
    (hbefore : ¬ (length xs < i ∧ i < length xs + length before))
    (hafter : ¬ (length xs + length before + length ys < i ∧
      i < length xs + length before + length ys + length after)) :
    IsCut (xs ++ (ys ++ zs))
      (if length xs < i then
        if length xs + length before + length ys < i then i - (length before + length after)
        else i - length before
      else i) := by
  have hcut : IsCut ((xs ++ (before ++ ys)) ++ (after ++ zs)) i := by simpa using h
  have hlen : length (xs ++ (before ++ ys)) = length xs + length before + length ys := by
    rw [length_append, length_append, Nat.add_assoc]
  -- What is behind the piece goes first, and then what is before it.
  by_cases hbehind : length xs + length before + length ys < i
  · have hinner := hcut.erase_of_ge (by omega)
    simp only [List.append_assoc] at hinner
    have houter := hinner.erase_of_ge (by omega)
    rw [Nat.sub_sub, Nat.add_comm] at houter
    rwa [if_pos (by omega), if_pos hbehind]
  · have hinner := hcut.erase_of_le (by omega)
    simp only [List.append_assoc] at hinner
    rw [if_neg hbehind]
    split
    · exact hinner.erase_of_ge (by omega)
    · exact hinner.erase_of_le (by omega)

namespace Tracked

variable {x : Tracked} {text passed before content after ahead : List Char}

/-- An entity starts at a character boundary, and stops at one unless something has been taken out
around its end. -/
structure Bounded (x : Tracked) (text : List Char) : Prop where
  /-- It starts at a boundary. -/
  offset : IsCut text x.entity.offset
  /-- It stops at one. -/
  stop : x.straddles = [] → IsCut text x.entity.stop

/-- A pair is taken out behind the start of an entity. -/
theorem Bounded.withoutPair {marker : List Char}
    (h : x.Bounded (passed ++ (marker ++ (content ++ (marker ++ ahead)))))
    (hoffset : x.entity.offset ≤ length passed) :
    (x.withoutPair (length passed) (length passed + length marker + length content)
      (length marker)).Bounded (passed ++ (content ++ ahead)) := by
  constructor
  · have hcut := h.offset.unwrap (by omega) (by omega)
    rw [if_neg (by omega)] at hcut
    show IsCut _ (x.entity.withoutPair _ _ _).offset
    rwa [Entity.offset_withoutPair]
  · intro hnil
    obtain ⟨hold, hnew⟩ := List.append_eq_nil_iff.mp hnil
    unfold Entity.straddlesPair at hnew
    split_ifs at hnew with hopening hclosing
    have hcut := (h.stop hold).unwrap hopening hclosing
    show IsCut _ (x.entity.withoutPair _ _ _).stop
    rw [Entity.stop_withoutPair]
    convert hcut using 1
    split_ifs <;> omega

/-- A link behind the start of an entity is replaced by its label. -/
theorem Bounded.withoutLink
    (h : x.Bounded (passed ++ (before ++ (content ++ (after ++ ahead)))))
    (hoffset : x.entity.offset ≤ length passed) :
    (x.withoutLink (length passed) (length before + (length content + length after))
      (length before + length after)).Bounded (passed ++ (content ++ ahead)) := by
  constructor
  · have hcut := h.offset.unwrap (by omega) (by omega)
    rw [if_neg (by omega)] at hcut
    show IsCut _ (x.entity.withoutLink _ _).offset
    rwa [Entity.offset_withoutLink]
  · intro hnil
    obtain ⟨hold, hnew⟩ := List.append_eq_nil_iff.mp hnil
    unfold Entity.straddlesLink at hnew
    split_ifs at hnew with hlink
    have hcut := (h.stop hold).unwrap (by omega) (by omega)
    show IsCut _ (x.entity.withoutLink _ _).stop
    rw [Entity.stop_withoutLink]
    convert hcut using 1
    split_ifs <;> omega

/-- The entity that is found over what stays of the markup. -/
theorem bounded_of_found {kind : Kind} {opening inner closing : List Nat} :
    Bounded
      { entity := { offset := length passed, length := length content, kind }
        opening, content := inner, closing } (passed ++ (content ++ ahead)) where
  offset := ⟨passed, content ++ ahead, rfl, rfl⟩
  stop _ := ⟨passed ++ content, ahead, (List.append_assoc _ _ _).symm, Utf16.length_append _ _⟩

end Tracked

/-! ## Runs -/

namespace Traces

variable {table : Delimiters} {p : LinkPattern} {markup : String} {s : Scan} {t : Trace}

/-- At every step of a run the entities are bounded by characters of the text as it is then. -/
theorem bounded (h : Traces table p markup s t) :
    ∃ text, s.Shows text ∧ ∀ x ∈ t.found, x.Bounded text := by
  induction h with
  | start => exact ⟨_, Scan.shows_start markup, fun _ hx => absurd hx List.not_mem_nil⟩
  | @pass s t _ hne hv ih =>
    obtain ⟨text, hshows, hbounded⟩ := ih
    refine ⟨text, hshows.vacant hv hne, ?_⟩
    rw [t.found_advance]
    exact hbounded
  | @pair s t d n h hne hm ho ih =>
    obtain ⟨text, hshows, hbounded⟩ := ih
    obtain ⟨passed, content, ahead, rfl, hpast, hn, hshows'⟩ := hshows.pair (p := p) hm ho
    obtain ⟨_, _, _, _, -, hcontent, -, htakes⟩ := h.of.takes_takePair hm ho
    have hposition := h.of.position_eq_length hpast
    refine ⟨_, hshows', htakes.forall_found (fun x hx => ?_) ?_⟩
    · have hoffset := (h.fits x hx).offset_le
      rw [hposition] at hoffset ⊢
      rw [d.width_eq, ← hn]
      exact (hbounded x hx).withoutPair hoffset
    · rw [hcontent, ← hn, hposition]
      exact Tracked.bounded_of_found
  | @link s t l _ h hne hm hl hlabel hle ih =>
    obtain ⟨text, hshows, hbounded⟩ := ih
    obtain ⟨passed, before, content, after, ahead, rfl, hpast, hcovered, hlength, hshows'⟩ :=
      hshows.link hm hl
    obtain ⟨_, _, _, _, -, hcontent, htakes⟩ := h.takes_takeLink hm hl hlabel hle
    have hposition := h.of.position_eq_length hpast
    have hvisible : l.label.length = length content := by rw [hcovered, Utf16.length_encode]
    have hremoved : l.length - l.label.length = length before + length after := by omega
    refine ⟨_, hshows', htakes.forall_found (fun x hx => ?_) ?_⟩
    · have hoffset := (h.fits x hx).offset_le
      rw [hposition] at hoffset ⊢
      rw [hremoved, hlength]
      exact (hbounded x hx).withoutLink hoffset
    · rw [hcontent, hvisible, hposition]
      exact Tracked.bounded_of_found

end Traces

/-! ## Messages -/

/-- Trimming keeps the boundaries of entities in the text that is left. -/
theorem Tracked.Bounded.clip {x : Tracked} {text : List Char} (h : x.Bounded text) {e : Entity}
    (hclip : x.entity.clip? (leadingBlanks text) (length (trimChars text)) = some e) :
    Tracked.Bounded { x with entity := e } (trimChars text) := by
  obtain ⟨before, after, htext, hbefore⟩ := exists_trimChars text
  obtain ⟨-, -, hoffset, hstop⟩ := Entity.of_clip?_eq_some hclip
  have hinside {i : Nat} (hi : IsCut text i) :
      IsCut (trimChars text) (min (i - leadingBlanks text) (length (trimChars text))) := by
    rw [htext] at hi
    rw [← hbefore]
    exact hi.inside
  constructor
  · show IsCut _ e.offset
    rw [hoffset]
    exact hinside h.offset
  · intro hnil
    show IsCut _ e.stop
    rw [hstop]
    exact hinside (h.stop hnil)

/-- At the end of a run the entities that are kept are bounded by characters of the message. -/
theorem Traces.bounded_kept {f : Format} (hf : f.table.isEmpty = false) {markup : String}
    {s : Scan} {t : Trace} (h : Traces f.table f.links markup s t) (hend : s.rest = []) :
    ∀ x ∈ t.kept, x.Bounded (f.parse markup).text.toList := by
  obtain ⟨text, hshows, hbounded⟩ := h.bounded
  have htext : (f.parse markup).text.toList = trimChars text := by
    refine Utf16.encode_injective ?_
    calc encode (f.parse markup).text.toList
        = trimUnits (Scan.run f.table f.links { rest := Utf16.ofText markup }).units :=
          Format.ofText_parse hf markup
      _ = trimUnits (encode text) := by rw [h.reachable.run_eq hend, hshows.units_eq]
      _ = encode (trimChars text) := trimUnits_encode text
  have hkept : t.trimmed.length = length (trimChars text) := by
    rw [← List.length_map Prod.fst, h.of.trimmed_eq, hshows.units_eq, trimUnits_encode,
      Utf16.length_encode]
  have hleading : t.leading = leadingBlanks text := by
    rw [h.of.leading_eq, hshows.units_eq, takeWhile_encode, Utf16.length_encode, leadingBlanks]
  intro x hx
  obtain ⟨y, hy, hclip, hxy⟩ := Trace.exists_of_mem_kept hx
  rw [hleading, hkept] at hclip
  rw [hxy, htext]
  exact (hbounded y hy).clip hclip

/-- Entities start at character boundaries, whatever the markers are and however links are written,
and stop at them unless something has been taken out around their end, which never happens to what
is verbatim or a link. -/
theorem Format.parse_boundaries {f : Format} (h : f.table.isEmpty = false) (markup : String) :
    (∀ e ∈ (f.parse markup).entities, IsCut (f.parse markup).text.toList e.offset) ∧
      (∃ s t, Traces f.table f.links markup s t ∧ s.rest = []) ∧
      ∀ s t, Traces f.table f.links markup s t → s.rest = [] →
        (f.parse markup).entities = t.kept.map Tracked.entity ∧
        ∀ x ∈ t.kept,
          (x.straddles = [] → IsCut (f.parse markup).text.toList x.entity.stop) ∧
          (x.entity.kind.isVerbatim = true → x.straddles = []) := by
  obtain ⟨s, t, ht, hend⟩ := Traces.exists_end f.table f.links markup
  refine ⟨fun e he => ?_, ⟨s, t, ht, hend⟩, fun s t ht hend => ?_⟩
  · rw [(ht.parse_eq h hend).2] at he
    obtain ⟨x, hx, rfl⟩ := List.mem_map.mp he
    exact (ht.bounded_kept h hend x hx).offset
  · refine ⟨(ht.parse_eq h hend).2, fun x hx => ⟨(ht.bounded_kept h hend x hx).stop, ?_⟩⟩
    exact ht.straddles_kept x hx

/-- A style that strays, and verbatim text with a character of two units. -/
theorem Format.parse_boundaries_crossing :
    let f : Format := {}
    let markup := "**👋__a_**_b`👋`"
    f.parse markup = { text := "👋ab👋", entities :=
        [⟨0, 4, .bold⟩, ⟨2, 1, .italic⟩, ⟨4, 2, .code⟩] } ∧
      f.table.isEmpty = false ∧
      (∀ e ∈ (f.parse markup).entities, IsCut (f.parse markup).text.toList e.offset) ∧
      (∃ s t, Traces f.table f.links markup s t ∧ s.rest = []) ∧
      ∀ s t, Traces f.table f.links markup s t → s.rest = [] →
        (f.parse markup).entities = t.kept.map Tracked.entity ∧
        ∀ x ∈ t.kept,
          (x.straddles = [] → IsCut (f.parse markup).text.toList x.entity.stop) ∧
          (x.entity.kind.isVerbatim = true → x.straddles = []) :=
  ⟨by decide +kernel, rfl, Format.parse_boundaries rfl _⟩

/-- Bold text may stop inside a character when something has been taken out around its end: the
first marker of a pair, the second one, or a link. -/
theorem Format.parse_boundaries_split :
    (∃ e ∈ (({} : Format).parse "**👋_**_b__").entities,
      ¬ IsCut (({} : Format).parse "**👋_**_b__").text.toList e.stop) ∧
    (∃ e ∈ (({} : Format).parse "**a__b_**_👋").entities,
      ¬ IsCut (({} : Format).parse "**a__b_**_👋").text.toList e.stop) ∧
    ∃ e ∈ (({} : Format).parse "**👋abc[**](u)").entities,
      ¬ IsCut (({} : Format).parse "**👋abc[**](u)").text.toList e.stop := by
  refine ⟨⟨⟨0, 1, .bold⟩, by decide +kernel, ?_⟩, ⟨⟨0, 3, .bold⟩, by decide +kernel, ?_⟩,
    ⟨⟨0, 1, .bold⟩, by decide +kernel, ?_⟩⟩
  all_goals exact Utf16.not_isCut_of_splitsPair (by decide +kernel)

end MessageMarkup
