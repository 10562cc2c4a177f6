import Mathlib.Data.List.Basic
import Mathlib.Data.List.Pairwise
import MessageMarkup.Delimiters
import MessageMarkup.Proofs.Utf16

/-!
# What a table finds

However a table was made (`Delimiters.ordered_of_ofList`), its markers are not empty and different
from one another, and the longer ones come first. So the delimiter that it finds is the one with the
longest marker that the text starts with (`Ordered.match?_eq_some_iff`).
-/

namespace MessageMarkup

namespace Delimiter

/-- The units of the marker are those of its characters. -/
theorem units_eq (d : Delimiter) : d.units = Utf16.encode d.marker.toList :=
  d.encoded.units_eq

/-- A delimiter is known by its marker and its style. -/
theorem eq_of {d e : Delimiter} (hmarker : d.marker = e.marker) (hstyle : d.style = e.style) :
    d = e := by
  obtain @⟨marker, style, ⟨units, hunits⟩⟩ := d
  obtain @⟨marker', style', ⟨units', hunits'⟩⟩ := e
  obtain rfl : marker = marker' := hmarker
  obtain rfl : style = style' := hstyle
  obtain rfl : units = units' := hunits.trans hunits'.symm
  rfl

/-- The width of a delimiter counts the units of its characters. -/
theorem width_eq (d : Delimiter) : d.width = Utf16.length d.marker.toList := by
  rw [width, units_eq, Utf16.length_encode]

/-- A marker that is not empty has characters. -/
theorem toList_ne_nil {d : Delimiter} (h : d.marker ≠ "") : d.marker.toList ≠ [] := by
  intro hnil
  rw [String.toList_eq_nil_iff] at hnil
  exact h hnil

/-- A marker that is not empty has a width. -/
theorem width_pos {d : Delimiter} (h : d.marker ≠ "") : 0 < d.width := by
  rw [width_eq]
  exact Utf16.length_pos (toList_ne_nil h)

end Delimiter

namespace Delimiters

/-! ## Tables -/

/-- A table without a delimiter is empty. -/
theorem isEmpty_iff {t : Delimiters} : t.isEmpty = true ↔ t.entries = [] :=
  List.isEmpty_iff

/-- A table with a delimiter is not. -/
theorem isEmpty_eq_false {t : Delimiters} (h : t.entries ≠ []) : t.isEmpty = false :=
  List.isEmpty_eq_false_iff.mpr h

/-- A table as it should be. -/
structure Ordered (t : Delimiters) : Prop where
  /-- No marker is empty. -/
  marker_ne : ∀ d ∈ t.entries, d.marker ≠ ""
  /-- Longer markers come first. -/
  longest_first : t.entries.Pairwise fun d e => e.width ≤ d.width
  /-- No marker comes twice. -/
  distinct : t.entries.Pairwise fun d e => d.marker ≠ e.marker

/-- What is in a list into which a delimiter was placed. -/
theorem mem_place {d e : Delimiter} {ds : List Delimiter} : e ∈ place d ds ↔ e = d ∨ e ∈ ds := by
  induction ds with
  | nil => simp [place]
  | cons f fs ih =>
    unfold place
    split
    · rw [List.mem_cons, ih, List.mem_cons]
      exact or_left_comm
    · rw [List.mem_cons]

/-- Placing a delimiter keeps the longer ones first. -/
theorem pairwise_width_place {d : Delimiter} {ds : List Delimiter}
    (h : ds.Pairwise fun d e => e.width ≤ d.width) :
    (place d ds).Pairwise fun d e => e.width ≤ d.width := by
  induction ds with
  | nil => exact List.pairwise_singleton _ _
  | cons f fs ih =>
    obtain ⟨hf, hfs⟩ := List.pairwise_cons.mp h
    unfold place
    split
    · -- It goes behind the first, which is no shorter.
      rename_i hle
      rw [List.pairwise_cons]
      refine ⟨fun e he => ?_, ih hfs⟩
      rcases mem_place.mp he with rfl | he
      · exact hle
      · exact hf e he
    · -- It goes in front of the first, and so of all that are no longer than that.
      rename_i hlt
      rw [List.pairwise_cons]
      refine ⟨fun e he => ?_, h⟩
      rcases List.mem_cons.mp he with rfl | he
      · omega
      · have := hf e he
        omega

/-- Placing a delimiter with a new marker keeps the markers different. -/
theorem pairwise_marker_place {d : Delimiter} {ds : List Delimiter}
    (hd : ∀ e ∈ ds, e.marker ≠ d.marker) (h : ds.Pairwise fun d e => d.marker ≠ e.marker) :
    (place d ds).Pairwise fun d e => d.marker ≠ e.marker := by
  induction ds with
  | nil => exact List.pairwise_singleton _ _
  | cons f fs ih =>
    obtain ⟨hf, hfs⟩ := List.pairwise_cons.mp h
    unfold place
    split
    · rw [List.pairwise_cons]
      refine ⟨fun e he => ?_, ih (fun e he => hd e (List.mem_cons_of_mem f he)) hfs⟩
      rcases mem_place.mp he with rfl | he
      · exact hd f List.mem_cons_self
      · exact hf e he
    · rw [List.pairwise_cons]
      exact ⟨fun e he => (hd e he).symm, h⟩

/-- The empty table is as it should be. -/
theorem ordered_empty : Ordered {} :=
  ⟨fun _ h => absurd h List.not_mem_nil, List.Pairwise.nil, List.Pairwise.nil⟩

/-- A delimiter whose marker is not empty leaves the table as it should be. -/
theorem Ordered.set {t : Delimiters} (h : t.Ordered) {d : Delimiter} (hd : d.marker ≠ "") :
    (t.set d).Ordered := by
  unfold Delimiters.set
  split
  · -- The marker is there already: only styles change.
    have hmarker (e : Delimiter) :
        (if e.marker == d.marker then { e with style := d.style } else e).marker = e.marker := by
      split <;> rfl
    have hwidth (e : Delimiter) :
        (if e.marker == d.marker then { e with style := d.style } else e).width = e.width := by
      split <;> rfl
    refine ⟨?_, ?_, ?_⟩
    · intro e he
      obtain ⟨f, hf, rfl⟩ := List.mem_map.mp he
      rw [hmarker]
      exact h.marker_ne f hf
    · rw [List.pairwise_map]
      simp only [hwidth]
      exact h.longest_first
    · rw [List.pairwise_map]
      simp only [hmarker]
      exact h.distinct
  · -- The marker is new: the delimiter is placed.
    rename_i hnew
    have hne : ∀ e ∈ t.entries, e.marker ≠ d.marker := by
      intro e he heq
      exact hnew (List.any_eq_true.mpr ⟨e, he, beq_iff_eq.mpr heq⟩)
    refine ⟨?_, pairwise_width_place h.longest_first, pairwise_marker_place hne h.distinct⟩
    intro e he
    rcases mem_place.mp he with rfl | he
    · exact hd
    · exact h.marker_ne e he

/-- Every delimiter that a table takes leaves it as it should be. -/
theorem Ordered.foldlM_insert {ds : List Delimiter} {s t : Delimiters} (hs : s.Ordered)
    (h : ds.foldlM insert s = .ok t) : t.Ordered := by
  induction ds generalizing s with
  | nil =>
    cases h
    exact hs
  | cons d ds ih =>
    rw [List.foldlM_cons] at h
    -- An empty marker is refused, and then there is no table.
    by_cases hd : d.marker = ""
    · have hinsert : s.insert d = .error .emptyMarker := by
        unfold insert
        rw [hd]
        rfl
      rw [hinsert] at h
      cases h
    · have hinsert : s.insert d = .ok (s.set d) := by
        unfold insert
        rw [if_neg (by rwa [String.isEmpty_iff])]
      rw [hinsert] at h
      exact ih (hs.set hd) h

/-- The table of some delimiters is as it should be. -/
theorem ordered_of_ofList {ds : List Delimiter} {t : Delimiters} (h : ofList ds = .ok t) :
    t.Ordered :=
  ordered_empty.foldlM_insert h

/-- The entries of the standard table. -/
theorem standard_entries : standard.entries =
    [⟨"```", .pre⟩, ⟨"**", .bold⟩, ⟨"__", .italic⟩, ⟨"~~", .strikethrough⟩, ⟨"`", .code⟩] := by
  decide

/-- The standard table is not empty. -/
theorem standard_entries_ne_nil : standard.entries ≠ [] := by
  rw [standard_entries]
  exact List.cons_ne_nil _ _

/-- The delimiters of the standard table. -/
theorem mem_standard {d : Delimiter} (hd : d ∈ standard.entries) :
    d = ⟨"```", .pre⟩ ∨ d = ⟨"**", .bold⟩ ∨ d = ⟨"__", .italic⟩ ∨ d = ⟨"~~", .strikethrough⟩ ∨
      d = ⟨"`", .code⟩ := by
  rw [standard_entries] at hd
  simpa using hd

/-- The standard table can be made delimiter by delimiter. -/
theorem ofList_standard : ofList standard.entries = .ok standard := by
  decide

/-- The standard table is as it should be. -/
theorem ordered_standard : standard.Ordered :=
  ordered_of_ofList ofList_standard

/-! ## Finding a marker -/

variable {t : Delimiters}

/-- What is found is in the table, and the units start with it. -/
theorem prefix_of_match?_eq_some {us : List UInt16} {d : Delimiter} (h : t.match? us = some d) :
    d ∈ t.entries ∧ d.units <+: us := by
  unfold match? at h
  have hstarts := List.find?_some h
  exact ⟨List.mem_of_find?_eq_some h, List.isPrefixOf_iff_prefix.mp hstarts⟩

/-- A text starts with the markers that its characters start with. -/
theorem match?_encode (t : Delimiters) (cs : List Char) :
    t.match? (Utf16.encode cs) = t.entries.find? fun d => d.marker.toList.isPrefixOf cs := by
  unfold match?
  congr 1
  funext d
  rw [Delimiter.units_eq, Utf16.isPrefixOf_encode]

/-- What starts with no marker has none. -/
theorem match?_eq_none {cs : List Char} (h : ∀ d ∈ t.entries, ¬ d.marker.toList <+: cs) :
    t.match? (Utf16.encode cs) = none := by
  rw [match?_encode, List.find?_eq_none]
  intro d hd
  rw [List.isPrefixOf_iff_prefix]
  exact h d hd

/-- What is found is in the table, and the text starts with its marker. -/
theorem of_match?_eq_some {cs : List Char} {d : Delimiter}
    (h : t.match? (Utf16.encode cs) = some d) : d ∈ t.entries ∧ d.marker.toList <+: cs := by
  rw [match?_encode] at h
  have hstarts := List.find?_some h
  rw [List.isPrefixOf_iff_prefix] at hstarts
  exact ⟨List.mem_of_find?_eq_some h, hstarts⟩

/-- Between the halves of a surrogate pair there is no marker. -/
theorem match?_low (h : ∀ d ∈ t.entries, d.marker ≠ "") {low : UInt16}
    (hl : Utf16.isLow low = true) (us : List UInt16) : t.match? (low :: us) = none := by
  unfold match?
  rw [List.find?_eq_none]
  intro d hd
  rw [Delimiter.units_eq,
    Utf16.isPrefixOf_encode_low (Delimiter.toList_ne_nil (h d hd)) hl us]
  exact Bool.false_ne_true

variable {units : List UInt16} {d e : Delimiter}

/-- A delimiter of a table has the longest marker that some units start with. -/
def IsLongest (t : Delimiters) (units : List UInt16) (d : Delimiter) : Prop :=
  d ∈ t.entries ∧ d.units <+: units ∧
    ∀ e ∈ t.entries, e.units <+: units → e ≠ d → e.width < d.width

/-- Two markers of one length that some units start with are the same. -/
theorem marker_eq_of_starts (hd : d.units <+: units) (he : e.units <+: units)
    (hwidth : d.width = e.width) : d.marker = e.marker := by
  have hunits : d.units = e.units := by
    obtain ⟨as, has⟩ := hd
    obtain ⟨bs, hbs⟩ := he
    exact (List.append_inj (has.trans hbs.symm) hwidth).1
  rw [d.units_eq, e.units_eq] at hunits
  exact String.toList_inj.mp (Utf16.encode_injective hunits)

/-- A delimiter of a table is known by its marker. -/
theorem Ordered.eq_of_marker (h : t.Ordered) (hd : d ∈ t.entries) (he : e ∈ t.entries)
    (hmarker : d.marker = e.marker) : d = e := by
  by_contra hne
  have : Std.Symm fun d e : Delimiter => d.marker ≠ e.marker := ⟨fun _ _ => Ne.symm⟩
  exact h.distinct.forall hd he hne hmarker

/-- What a table finds is the delimiter with the longest marker. -/
theorem Ordered.match?_eq_some_iff (h : t.Ordered) :
    t.match? units = some d ↔ t.IsLongest units d := by
  unfold match?
  rw [List.find?_eq_some_iff_append]
  simp only [List.isPrefixOf_iff_prefix]
  constructor
  · rintro ⟨hstarts, before, behind, hentries, hbefore⟩
    refine ⟨hentries ▸ List.mem_append_right _ List.mem_cons_self, hstarts, fun e he heu hne => ?_⟩
    -- Another one is not before it, and those behind it are not longer.
    have hle : e.width ≤ d.width := by
      rw [hentries, List.mem_append, List.mem_cons] at he
      have hsorted := h.longest_first
      rw [hentries, List.pairwise_append, List.pairwise_cons] at hsorted
      rcases he with he | rfl | he
      · have hnot := hbefore e he
        rw [Bool.not_eq_true', ← Bool.not_eq_true, List.isPrefixOf_iff_prefix] at hnot
        exact absurd heu hnot
      · exact absurd rfl hne
      · exact hsorted.2.1.1 e he
    refine Nat.lt_of_le_of_ne hle fun hwidth => hne ?_
    have hd : d ∈ t.entries := hentries ▸ List.mem_append_right _ List.mem_cons_self
    exact h.eq_of_marker he hd (marker_eq_of_starts heu hstarts hwidth)
  · rintro ⟨hd, hstarts, hlongest⟩
    obtain ⟨before, behind, hentries⟩ := List.append_of_mem hd
    refine ⟨hstarts, before, behind, hentries, fun e he => ?_⟩
    -- Those before it are no shorter, so they do not fit.
    have hsorted := h.longest_first
    have hdistinct := h.distinct
    rw [hentries, List.pairwise_append] at hsorted hdistinct
    have hle : d.width ≤ e.width := hsorted.2.2 e he d List.mem_cons_self
    have hne : e ≠ d := fun heq =>
      hdistinct.2.2 e he d List.mem_cons_self (congrArg Delimiter.marker heq)
    have hmem : e ∈ t.entries := hentries ▸ List.mem_append_left _ he
    rw [Bool.not_eq_true', ← Bool.not_eq_true, List.isPrefixOf_iff_prefix]
    intro heu
    have hlt := hlongest e hmem heu hne
    omega

/-- A table finds nothing where no marker fits. -/
theorem match?_eq_none_iff : t.match? units = none ↔ ∀ d ∈ t.entries, ¬ d.units <+: units := by
  unfold match?
  rw [List.find?_eq_none]
  simp only [List.isPrefixOf_iff_prefix]

/-- The longest marker with which the text starts is found. -/
theorem Ordered.match?_eq_some (h : t.Ordered) {cs : List Char} {d : Delimiter}
    (hd : d ∈ t.entries) (hstarts : d.marker.toList <+: cs)
    (hlongest : ∀ e ∈ t.entries, e.marker.toList <+: cs → e.width ≤ d.width) :
    t.match? (Utf16.encode cs) = some d := by
  have hiff (e : Delimiter) : e.units <+: Utf16.encode cs ↔ e.marker.toList <+: cs := by
    rw [e.units_eq, Utf16.encode_prefix_iff]
  have hdu := (hiff d).mpr hstarts
  refine h.match?_eq_some_iff.mpr ⟨hd, hdu, fun e he heu hne => ?_⟩
  refine Nat.lt_of_le_of_ne (hlongest e he ((hiff e).mp heu)) fun hwidth => hne ?_
  exact h.eq_of_marker he hd (marker_eq_of_starts heu hdu hwidth)

end Delimiters

end MessageMarkup
