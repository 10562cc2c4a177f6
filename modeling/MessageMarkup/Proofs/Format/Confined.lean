import MessageMarkup.Proofs.Format.Shape
import MessageMarkup.Proofs.Format.Trace

/-!
# Where the units that an entity covers come from

When markup is taken out, the entities found before are not found again but shortened, by as many
units as are taken out, wherever their ends are. This never makes an entity too long unless its end
is strictly inside a closing marker that is taken out: then it keeps the place of the units of the
marker that it covered, and covers as many units behind its end (`Straddle.strays`). So every unit
that an entity covers comes from behind its opening marker, and all but the last
`Tracked.strays` of them come from between its markers (`Format.parse_confined`). Styles that cross
on a doubled marker are a case where the last one does not (`Format.parse_confined_stray`).
-/

namespace MessageMarkup

/-! ## Units that stay -/

/-- Where the unit `k` of a text was before `n` units at `start` were taken out. -/
def placeBefore (start n k : Nat) : Nat :=
  if k < start then k else k + n

/-- It was there. -/
theorem getElem?_placeBefore {α : Type} (as xs bs : List α) (k : Nat) :
    (as ++ (xs ++ bs))[placeBefore as.length xs.length k]? = (as ++ bs)[k]? := by
  unfold placeBefore
  split
  · rename_i hk
    rw [List.getElem?_append_left hk, List.getElem?_append_left hk]
  · rename_i hk
    rw [Nat.not_lt] at hk
    obtain ⟨i, rfl⟩ := Nat.exists_eq_add_of_le hk
    rw [Nat.add_assoc, List.getElem?_append_right (Nat.le_add_right _ _), Nat.add_sub_cancel_left,
      List.getElem?_append_right (Nat.le_add_left _ _), Nat.add_sub_cancel,
      List.getElem?_append_right hk, Nat.add_sub_cancel_left]

/-- It was not before its place. -/
theorem le_placeBefore (start n k : Nat) : k ≤ placeBefore start n k := by
  unfold placeBefore
  split <;> omega

/-- Where the unit `k` of a text was before markup was taken out around the `inner` units from
`start` on: `opening` units before them and `closing` units behind. -/
def placeInMarkup (start opening inner closing k : Nat) : Nat :=
  placeBefore (start + (opening + inner)) closing (placeBefore start opening k)

/-- It was there. -/
theorem getElem?_placeInMarkup {α : Type} (as xs ys zs bs : List α) (k : Nat) :
    (as ++ (xs ++ (ys ++ (zs ++ bs))))[placeInMarkup as.length xs.length ys.length zs.length k]? =
      (as ++ (ys ++ bs))[k]? := by
  calc (as ++ (xs ++ (ys ++ (zs ++ bs))))[placeInMarkup as.length xs.length ys.length zs.length k]?
      = (as ++ (xs ++ (ys ++ bs)))[placeBefore as.length xs.length k]? := by
        simpa [placeInMarkup] using getElem?_placeBefore (as ++ (xs ++ ys)) zs bs _
    _ = (as ++ (ys ++ bs))[k]? := getElem?_placeBefore as xs (ys ++ bs) k

/-! ## Entities that shrink -/

namespace Tracked

variable {start stop width opening inner closing length removed : Nat} {x y : Tracked}

/-- An entity that has its end in the second marker of a pair strays by what it covered of it. -/
theorem strays_withoutPair (h : start + width ≤ stop) :
    (x.withoutPair start stop width).strays =
      x.strays + if stop < x.entity.stop ∧ x.entity.stop < stop + width then x.entity.stop - stop
        else 0 := by
  unfold strays withoutPair Entity.straddlesPair
  rw [List.map_append, List.sum_append]
  congr 1
  split
  · rw [if_neg (by omega)]
    rfl
  · split
    · exact Nat.add_zero _
    · rfl

/-- No entity strays because of a link. -/
theorem strays_withoutLink : (x.withoutLink start length removed).strays = x.strays := by
  unfold strays withoutLink Entity.straddlesLink
  rw [List.map_append, List.sum_append]
  split <;> rfl

/-- What an entity becomes when markup is taken out around the `inner` units from `start` on: it
remembers the same, and the units that it then covers without straying are units that it covered. -/
structure Shrinks (x y : Tracked) (start opening inner closing : Nat) : Prop where
  /-- Its opening marker is the same. -/
  opening_eq : y.opening = x.opening
  /-- Its content is the same. -/
  content_eq : y.content = x.content
  /-- Its closing marker is the same. -/
  closing_eq : y.closing = x.closing
  /-- It is of the same kind. -/
  kind_eq : y.entity.kind = x.entity.kind
  /-- It starts at the same position. -/
  offset_eq : y.entity.offset = x.entity.offset
  /-- It covers nothing new without straying. -/
  lt_stop : ∀ k, x.entity.offset ≤ k → k + y.strays < y.entity.stop →
    placeInMarkup start opening inner closing k + x.strays < x.entity.stop
  /-- What stops before the markup stays as it is. -/
  eq_of_le : x.entity.stop ≤ start → y = x

/-- An entity shrinks when a pair is taken out behind its start. -/
theorem shrinks_withoutPair (h : x.entity.offset ≤ start) :
    x.Shrinks (x.withoutPair start (start + width + inner) width) start width inner width where
  opening_eq := rfl
  content_eq := rfl
  closing_eq := rfl
  kind_eq := Entity.kind_withoutPair
  offset_eq := Entity.offset_withoutPair
  lt_stop k hk hstop := by
    rw [strays_withoutPair (Nat.le_add_right _ _)] at hstop
    change _ < (x.entity.withoutPair _ _ _).stop at hstop
    rw [Entity.stop_withoutPair] at hstop
    unfold placeInMarkup placeBefore
    -- It stops before the pair, behind it, in its second marker or before that.
    split at hstop <;> split at hstop <;> split_ifs at * <;> omega
  eq_of_le hstop := by
    unfold withoutPair Entity.straddlesPair
    rw [Entity.withoutPair_of_le hstop, if_neg (by omega), if_neg (by omega), List.append_nil]

/-- An entity shrinks when a link behind its start is replaced by its label. -/
theorem shrinks_withoutLink (h : x.entity.offset ≤ start) :
    x.Shrinks (x.withoutLink start (opening + (inner + closing)) (opening + closing))
      start opening inner closing where
  opening_eq := rfl
  content_eq := rfl
  closing_eq := rfl
  kind_eq := Entity.kind_withoutLink
  offset_eq := Entity.offset_withoutLink
  lt_stop k hk hstop := by
    rw [strays_withoutLink] at hstop
    change _ < (x.entity.withoutLink _ _).stop at hstop
    rw [Entity.stop_withoutLink] at hstop
    unfold placeInMarkup placeBefore
    split_ifs at * <;> omega
  eq_of_le hstop := by
    unfold withoutLink Entity.straddlesLink
    rw [Entity.withoutLink_of_le hstop, if_neg (by omega), List.append_nil]

/-! ## Entities in the course of a run -/

/-- An entity fits the text as it is now: what it covers without straying comes from between its
markers, and nothing from its start on comes from before them. -/
structure Fits (x : Tracked) (t : Trace) : Prop where
  /-- It does not start behind the reader. -/
  offset_le : x.entity.offset ≤ t.position
  /-- The units from its start on come from behind its opening marker. -/
  behind : ∀ k u, t.text[k]? = some u → x.entity.offset ≤ k → ∀ a ∈ x.opening, a < u.2
  /-- The units that it covers without straying come from its content. -/
  inside : ∀ k u, t.text[k]? = some u → x.entity.offset ≤ k → k + x.strays < x.entity.stop →
    u.2 ∈ x.content
  /-- Its content comes from before its closing marker. -/
  content_lt : ∀ a ∈ x.content, ∀ b ∈ x.closing, a < b
  /-- The reader has passed it if it is verbatim. -/
  verbatim : x.entity.kind.isVerbatim = true → x.straddles = [] ∧ x.entity.stop ≤ t.position

variable {t t' : Trace} {kind : Kind} {shrink : Tracked → Tracked}
  {before content after ahead : List (UInt16 × Nat)}

/-- The reader passes a unit. -/
theorem Fits.advance (h : x.Fits t) : x.Fits t.advance where
  offset_le := h.offset_le.trans t.position_le_advance
  behind := by
    rw [t.text_advance]
    exact h.behind
  inside := by
    rw [t.text_advance]
    exact h.inside
  content_lt := h.content_lt
  verbatim hv := ⟨(h.verbatim hv).1, (h.verbatim hv).2.trans t.position_le_advance⟩

/-- Markup is taken out behind the start of an entity, and the entity shrinks. -/
theorem Fits.takes (h : x.Fits t) (htakes : t.Takes t' kind shrink before content after ahead)
    (hshrinks : x.Shrinks y t.position before.length content.length after.length) : y.Fits t' := by
  have hplace (k : Nat) (u : UInt16 × Nat) (hu : t'.text[k]? = some u) :
      t.text[placeInMarkup t.position before.length content.length after.length k]? = some u := by
    have hpast : t.position = t.past.reverse.length := List.length_reverse.symm
    rw [← hu, htakes.text_eq, htakes.text_eq_append, hpast]
    exact getElem?_placeInMarkup _ _ _ _ _ k
  have hle (k : Nat) :
      k ≤ placeInMarkup t.position before.length content.length after.length k :=
    (le_placeBefore _ _ k).trans (le_placeBefore _ _ _)
  constructor
  · rw [hshrinks.offset_eq]
    exact h.offset_le.trans htakes.position_le
  · intro k u hu hk
    rw [hshrinks.offset_eq] at hk
    rw [hshrinks.opening_eq]
    exact h.behind _ u (hplace k u hu) (hk.trans (hle k))
  · intro k u hu hk hstop
    rw [hshrinks.offset_eq] at hk
    rw [hshrinks.content_eq]
    exact h.inside _ u (hplace k u hu) (hk.trans (hle k)) (hshrinks.lt_stop k hk hstop)
  · rw [hshrinks.content_eq, hshrinks.closing_eq]
    exact h.content_lt
  · intro hv
    rw [hshrinks.kind_eq] at hv
    obtain ⟨hnil, hstop⟩ := h.verbatim hv
    rw [hshrinks.eq_of_le hstop]
    exact ⟨hnil, hstop.trans htakes.position_le⟩

/-- The entity that is found when markup is taken out fits the text that is left. -/
theorem fits_of_takes (htakes : t.Takes t' kind shrink before content after ahead)
    (hsorted : t.text.Pairwise fun u v => u.2 < v.2) :
    Fits { entity := { offset := t.position, length := content.length, kind }
           opening := before.map Prod.snd
           content := content.map Prod.snd
           closing := after.map Prod.snd } t' := by
  rw [htakes.text_eq_append, List.pairwise_append, List.pairwise_append, List.pairwise_append]
    at hsorted
  obtain ⟨-, ⟨-, ⟨-, -, hcontent⟩, hbefore⟩, -⟩ := hsorted
  -- A unit from the start of the content on is one of the content or behind the markup.
  have hunit (k : Nat) (u : UInt16 × Nat) (hu : t'.text[k]? = some u) (hk : t.position ≤ k) :
      (content ++ ahead)[k - t.position]? = some u := by
    have hpast : t.position = t.past.reverse.length := List.length_reverse.symm
    rw [hpast] at hk ⊢
    rw [← List.getElem?_append_right hk, ← htakes.text_eq, hu]
  constructor
  · exact htakes.position_le
  · intro k u hu hk a ha
    obtain ⟨v, hv, rfl⟩ := List.mem_map.mp ha
    refine hbefore v hv u ?_
    rcases List.mem_append.mp (List.mem_of_getElem? (hunit k u hu hk)) with hmem | hmem
    · exact List.mem_append_left _ hmem
    · exact List.mem_append_right _ (List.mem_append_right _ hmem)
  · intro k u hu hk hstop
    have hlt : k - t.position < content.length := by
      change k + 0 < t.position + content.length at hstop
      change t.position ≤ k at hk
      omega
    have hmem := hunit k u hu hk
    rw [List.getElem?_append_left hlt] at hmem
    exact List.mem_map_of_mem (List.mem_of_getElem? hmem)
  · intro a ha b hb
    obtain ⟨u, hu, rfl⟩ := List.mem_map.mp ha
    obtain ⟨v, hv, rfl⟩ := List.mem_map.mp hb
    exact hcontent u hu v (List.mem_append_left _ hv)
  · intro hv
    exact ⟨rfl, htakes.stop_le hv⟩

end Tracked

namespace Traces

variable {table : Delimiters} {p : LinkPattern} {markup : String} {s : Scan} {t t' : Trace}

/-- Taking out markup keeps the entities fitting the text, and the new one fits it too. -/
theorem fits_of_takes (h : Traces table p markup s t) {kind : Kind} {shrink : Tracked → Tracked}
    {before content after ahead : List (UInt16 × Nat)}
    (htakes : t.Takes t' kind shrink before content after ahead)
    (hshrink : ∀ x : Tracked, x.entity.offset ≤ t.position →
      x.Shrinks (shrink x) t.position before.length content.length after.length)
    (hfits : ∀ x ∈ t.found, x.Fits t) : ∀ x ∈ t'.found, x.Fits t' :=
  htakes.forall_found
    (fun x hx => (hfits x hx).takes htakes (hshrink x (hfits x hx).offset_le))
    (Tracked.fits_of_takes htakes h.pairwise_text)

/-- At every step of a run the entities fit the text as it is then. -/
theorem fits (h : Traces table p markup s t) : ∀ x ∈ t.found, x.Fits t := by
  induction h with
  | start => exact fun _ hx => absurd hx List.not_mem_nil
  | @pass s t _ _ _ ih =>
    intro x hx
    rw [t.found_advance] at hx
    exact (ih x hx).advance
  | pair h _ hm ho ih =>
    obtain ⟨before, content, after, ahead, hbefore, hcontent, hafter, htakes⟩ :=
      h.of.takes_takePair hm ho
    refine h.fits_of_takes htakes (fun x hx => ?_) ih
    rw [hbefore, hcontent, hafter]
    exact Tracked.shrinks_withoutPair hx
  | @link s t l _ h _ hm hl hlabel hle ih =>
    obtain ⟨before, content, after, ahead, hlength, hcontent, htakes⟩ :=
      h.takes_takeLink hm hl hlabel hle
    refine h.fits_of_takes htakes (fun x hx => ?_) ih
    have hremoved : l.length - l.label.length = before.length + after.length := by omega
    rw [hremoved, ← hlength]
    exact Tracked.shrinks_withoutLink hx

end Traces

/-! ## Messages -/

/-- What an entity covers of a text comes from behind its opening marker, and all but the last `n`
units from its content, before its closing marker. -/
def Tracked.ConfinedTo (x : Tracked) (text : List (UInt16 × Nat)) (n : Nat) : Prop :=
  ∀ k u, text[k]? = some u → x.entity.offset ≤ k → k < x.entity.stop →
    (∀ a ∈ x.opening, a < u.2) ∧
      (k + n < x.entity.stop → u.2 ∈ x.content ∧ ∀ b ∈ x.closing, u.2 < b)

/-- What trimming leaves of an entity that fits covers nothing else. -/
theorem Tracked.Fits.confinedTo {x : Tracked} {t : Trace} (h : x.Fits t) {e : Entity}
    (hclip : x.entity.clip? t.leading t.trimmed.length = some e) :
    Tracked.ConfinedTo { x with entity := e } t.trimmed x.strays := by
  obtain ⟨-, -, hoffset, hstop⟩ := Entity.of_clip?_eq_some hclip
  obtain ⟨before, after, htext, hleading⟩ := t.exists_trimmed
  intro k u hu hk hlt
  change e.offset ≤ k at hk
  change k < e.stop at hlt
  have hkept : k < t.trimmed.length := (List.getElem?_eq_some_iff.mp hu).1
  -- The unit is further on in the text with its blanks.
  have hplace : t.text[t.leading + k]? = some u := by
    rw [htext, ← hleading, List.getElem?_append_right (Nat.le_add_right _ _),
      Nat.add_sub_cancel_left, List.getElem?_append_left hkept, hu]
  refine ⟨h.behind _ u hplace (by omega), fun hinside => ?_⟩
  change k + x.strays < e.stop at hinside
  have hmem : u.2 ∈ x.content := h.inside _ u hplace (by omega) (by omega)
  exact ⟨hmem, h.content_lt u.2 hmem⟩

/-- At the end of a run nothing has been taken out around the end of what is verbatim. -/
theorem Traces.straddles_kept {table : Delimiters} {p : LinkPattern} {markup : String} {s : Scan}
    {t : Trace} (h : Traces table p markup s t) :
    ∀ x ∈ t.kept, x.entity.kind.isVerbatim = true → x.straddles = [] := by
  intro x hx hv
  obtain ⟨y, hy, hclip, hxy⟩ := Trace.exists_of_mem_kept hx
  rw [(Entity.of_clip?_eq_some hclip).1] at hv
  rw [hxy]
  exact ((h.fits y hy).verbatim hv).1

/-- Styles and links do not leak, up to what an entity strays. A run has a trace; the text that is
read with any table and any pattern of links has units of the markup, in their order, and whatever
an entity of it covers comes from behind its opening marker, and but for its last `x.strays` units
from before its closing marker, where its content was: for a link, from the label. What is verbatim
and links do not stray. -/
theorem Format.parse_confined {f : Format} (h : f.table.isEmpty = false) (markup : String) :
    (∃ s t, Traces f.table f.links markup s t ∧ s.rest = []) ∧
      ∀ s t, Traces f.table f.links markup s t → s.rest = [] →
        Utf16.ofText (f.parse markup).text = t.trimmed.map Prod.fst ∧
        t.trimmed.Sublist (Utf16.ofText markup).zipIdx ∧
        (f.parse markup).entities = t.kept.map Tracked.entity ∧
        ∀ x ∈ t.kept, x.ConfinedTo t.trimmed x.strays ∧
          (x.entity.kind.isVerbatim = true → x.straddles = []) := by
  refine ⟨Traces.exists_end f.table f.links markup, fun s t ht hend => ?_⟩
  obtain ⟨htext, hentities⟩ := ht.parse_eq h hend
  refine ⟨htext, t.trimmed_sublist.trans ht.sublist, hentities, fun x hx => ?_⟩
  obtain ⟨y, hy, hclip, hxy⟩ := Trace.exists_of_mem_kept hx
  have hconfined : x.ConfinedTo t.trimmed x.strays := by
    rw [hxy]
    exact (ht.fits y hy).confinedTo hclip
  exact ⟨hconfined, ht.straddles_kept x hx⟩

/-- Styles that cross, the second one around a link. -/
theorem Format.parse_confined_crossing :
    let f : Format := {}
    let markup := "**a__b**[c](u)__`d`"
    f.parse markup = { text := "abcd", entities :=
        [⟨0, 2, .bold⟩, ⟨1, 2, .italic⟩, ⟨2, 1, .textUrl "u"⟩, ⟨3, 1, .code⟩] } ∧
      f.table.isEmpty = false ∧
      (∃ s t, Traces f.table f.links markup s t ∧ s.rest = []) ∧
      ∀ s t, Traces f.table f.links markup s t → s.rest = [] →
        Utf16.ofText (f.parse markup).text = t.trimmed.map Prod.fst ∧
        t.trimmed.Sublist (Utf16.ofText markup).zipIdx ∧
        (f.parse markup).entities = t.kept.map Tracked.entity ∧
        ∀ x ∈ t.kept, x.ConfinedTo t.trimmed x.strays ∧
          (x.entity.kind.isVerbatim = true → x.straddles = []) :=
  ⟨by decide +kernel, rfl, Format.parse_confined rfl _⟩

/-- Where a style has its end in a doubled marker that is taken out later, it strays: of the markers
`__` and `_**_` the second has its first half inside the bold text, which then covers `c`. -/
theorem Format.parse_confined_stray :
    ({} : Format).parse "**a__b_**_c" =
        { text := "abc", entities := [⟨0, 3, .bold⟩, ⟨1, 1, .italic⟩] } ∧
      ∃ s t, Traces Delimiters.standard LinkPattern.standard "**a__b_**_c" s t ∧ s.rest = [] ∧
        t.trimmed[2]? = some (0x63, 10) ∧
        ∃ x ∈ t.kept, x.entity = ⟨0, 3, .bold⟩ ∧ x.closing = [7, 8] ∧
          ¬ x.ConfinedTo t.trimmed 0 := by
  have hstart : Traces Delimiters.standard LinkPattern.standard "**a__b_**_c" _ _ := .start
  have hbold := hstart.pair (d := ⟨"**", .bold⟩) (n := 5) (by decide +kernel) (by decide +kernel)
    (by decide +kernel)
  have ha := hbold.pass (by decide +kernel) (by decide +kernel)
  have hitalic := ha.pair (d := ⟨"__", .italic⟩) (n := 1) (by decide +kernel) (by decide +kernel)
    (by decide +kernel)
  have hb := hitalic.pass (by decide +kernel) (by decide +kernel)
  have hc := hb.pass (by decide +kernel) (by decide +kernel)
  refine ⟨by decide +kernel, _, _, hc, by decide +kernel, by decide +kernel,
    ⟨⟨0, 3, .bold⟩, [0, 1], [2, 3, 4, 5, 6], [7, 8], [.closing 1]⟩, by decide +kernel, rfl, rfl, ?_⟩
  intro h
  obtain ⟨-, hinside⟩ := h 2 (0x63, 10) (by decide +kernel) (by decide) (by decide)
  exact absurd (hinside (by decide)).1 (by decide)

end MessageMarkup
