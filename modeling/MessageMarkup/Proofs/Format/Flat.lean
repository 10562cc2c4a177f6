import MessageMarkup.Proofs.Format.Reading

/-!
# Spans that do not touch

`Flat` says of a text that no two of its spans overlap and that, outside of links, it contains
nothing of a marker. Then the markup is legible with any table whose markers contain no bracket
(`Flat.legible`). The marker of a word is found although it may be the start of a longer one or
stand right behind another, because no marker goes on with a character of a word; and the next
occurrence of the marker is the one that closes the word.
-/

namespace MessageMarkup

/-! ## Spans that do not touch -/

/-- What may stand between the marks. -/
def Mark.Holds (table : Delimiters) (ys : List Char) : Mark → Prop
  | pair d => d ∈ table.entries ∧ ∀ c ∈ ys, table.IsPlain c
  | link url => ']' ∉ ys ∧ ')' ∉ url.toList

/-- The spans of a text from the position `p` on do not overlap, and nothing but their marks looks
like a mark. -/
structure Flat (table : Delimiters) (p : Nat) (text : List Char) (ss : List Span) : Prop where
  /-- A span covers some characters that its marks may hold. -/
  covers : ∀ s ∈ ss, ∃ xs ys zs, text = xs ++ (ys ++ zs) ∧ ys ≠ [] ∧
    p + Utf16.length xs = s.offset ∧ Utf16.length ys = s.length ∧ s.mark.Holds table ys
  /-- A later span starts behind an earlier one. -/
  apart : ss.Pairwise fun s t => s.stop ≤ t.offset
  /-- What no span covers is plain. -/
  outside : ∀ xs c ys, text = xs ++ c :: ys →
    (∀ s ∈ ss, p + Utf16.length xs < s.offset ∨ s.stop ≤ p + Utf16.length xs) → table.IsPlain c

namespace Flat

variable {table : Delimiters} {p : Nat} {text xs : List Char} {ss : List Span}

/-- Without a text there are no spans. -/
theorem nil (table : Delimiters) (p : Nat) : Flat table p [] [] :=
  ⟨fun _ h => absurd h List.not_mem_nil, List.Pairwise.nil,
    fun _ c ys h => absurd h.symm (List.append_ne_nil_of_right_ne_nil _ (List.cons_ne_nil c ys))⟩

/-- The spans are not before the text, and not empty. -/
theorem bounds (h : Flat table p text ss) {s : Span} (hs : s ∈ ss) :
    p ≤ s.offset ∧ s.offset < s.stop := by
  obtain ⟨xs, ys, zs, -, hys, hoffset, hlen, -⟩ := h.covers s hs
  have hpos := Utf16.length_pos hys
  unfold Span.stop
  omega

/-- The text of the spans with something before it. -/
theorem covers_append (h : Flat table (p + Utf16.length xs) text ss) {s : Span} (hs : s ∈ ss) :
    ∃ as ys zs, xs ++ text = as ++ (ys ++ zs) ∧ ys ≠ [] ∧ p + Utf16.length as = s.offset ∧
      Utf16.length ys = s.length ∧ s.mark.Holds table ys := by
  obtain ⟨as, ys, zs, rfl, hys, hoffset, hlen, hholds⟩ := h.covers s hs
  refine ⟨xs ++ as, ys, zs, (List.append_assoc _ _ _).symm, hys, ?_, hlen, hholds⟩
  rw [Utf16.length_append]
  omega

/-- A character that no span covers is in the plain text before the spans, or plain anyway. -/
theorem outside_append (h : Flat table (p + Utf16.length xs) text ss) {as bs : List Char}
    {c : Char} (htext : xs ++ text = as ++ c :: bs)
    (hout : ∀ s ∈ ss, p + Utf16.length as < s.offset ∨ s.stop ≤ p + Utf16.length as) :
    table.IsPlain c ∨ c ∈ xs ∧ Utf16.length as < Utf16.length xs := by
  -- The character is behind the plain text, or in it.
  rcases List.append_eq_append_iff.mp htext with ⟨mid, rfl, hmid⟩ | ⟨mid, rfl, hmid⟩
  · left
    refine h.outside mid c bs hmid fun s hs => ?_
    have := hout s hs
    rw [Utf16.length_append] at this
    omega
  · cases mid with
    | nil =>
      left
      refine h.outside [] c bs hmid.symm fun s hs => ?_
      have := hout s hs
      rw [List.append_nil, Utf16.length_nil]
      exact this
    | cons d mid =>
      obtain ⟨rfl, -⟩ := List.cons.inj hmid
      have hpos := Utf16.width_pos c
      right
      refine ⟨List.mem_append_right as List.mem_cons_self, ?_⟩
      rw [Utf16.length_append, Utf16.length_cons]
      omega

/-- Plain text before the spans. -/
theorem plain (h : Flat table (p + Utf16.length xs) text ss) (hxs : ∀ c ∈ xs, table.IsPlain c) :
    Flat table p (xs ++ text) ss := by
  refine ⟨fun s hs => h.covers_append hs, h.apart, fun as c bs htext hout => ?_⟩
  rcases h.outside_append htext hout with hc | ⟨hc, -⟩
  · exact hc
  · exact hxs c hc

/-- A span before the others. -/
theorem cons (h : Flat table (p + Utf16.length xs) text ss) (hxs : xs ≠ []) {mark : Mark}
    (hholds : mark.Holds table xs) :
    Flat table p (xs ++ text) (⟨p, Utf16.length xs, mark⟩ :: ss) := by
  refine ⟨fun s hs => ?_, ?_, fun as c bs htext hout => ?_⟩
  · rcases List.mem_cons.mp hs with rfl | hs
    · exact ⟨[], xs, text, rfl, hxs, rfl, rfl, hholds⟩
    · exact h.covers_append hs
  · rw [List.pairwise_cons]
    exact ⟨fun s hs => (h.bounds hs).1, h.apart⟩
  · rcases h.outside_append htext fun s hs => hout s (List.mem_cons_of_mem _ hs) with hc | ⟨-, hlt⟩
    · exact hc
    · -- The span covers the character.
      have hcovers := hout _ List.mem_cons_self
      unfold Span.stop at hcovers
      simp only at hcovers
      omega

/-! ## Flat markup is legible -/

/-- Spans that do not touch lie as they may. -/
theorem layout (h : Flat table 0 text ss) : Layout text ss := by
  refine ⟨?_, ?_, ?_, ?_⟩
  · intro s hs
    obtain ⟨xs, ys, zs, htext, hys, hoffset, hlen, -⟩ := h.covers s hs
    exact ⟨xs, ys, zs, htext, hys, hoffset, hlen⟩
  · refine h.apart.imp_of_mem fun hs _ hle => ?_
    have := h.bounds hs
    omega
  · refine h.apart.imp fun hle => ?_
    exact fun _ => hle
  · refine h.apart.imp fun hle => ?_
    exact fun _ hlt => absurd hlt (Nat.not_lt.mpr hle)

/-- What a span covers is what its marks may hold. -/
theorem holds (h : Flat table 0 text ss) {s : Span} (hs : s ∈ ss) {xs ys zs : List Char}
    (htext : text = xs ++ (ys ++ zs)) (hoffset : Utf16.length xs = s.offset)
    (hlen : Utf16.length ys = s.length) : s.mark.Holds table ys ∧ ys ≠ [] := by
  obtain ⟨as, bs, cs, htext', hbs, hoffset', hlen', hholds⟩ := h.covers s hs
  obtain ⟨-, hrest⟩ := Utf16.append_inj_of_length (htext'.symm.trans htext) (by omega)
  obtain ⟨rfl, -⟩ := Utf16.append_inj_of_length hrest (by omega)
  exact ⟨hholds, hbs⟩

/-- The markup of spans that do not touch is legible. -/
theorem legible (ht : table.Ordered) (hbracket : ∀ d ∈ table.entries, '[' ∉ d.marker.toList)
    (h : Flat table 0 text ss) : Legible table text ss := by
  refine { toLayout := h.layout, literal := ?_, pair := ?_, link := ?_ }
  · intro passed c cs htext hout
    -- The character is plain text, or one of a word.
    have hc : table.IsPlain c := by
      by_cases hin : ∃ s ∈ ss, s.offset ≤ Utf16.length passed ∧ Utf16.length passed < s.stop
      · obtain ⟨s, hs, hle, hlt⟩ := hin
        obtain ⟨xs, ys, zs, htext', -, hoffset, hlen, hholds⟩ := h.covers s hs
        have hmem : c ∈ ys := by
          apply Utf16.mem_of_inside (htext'.symm.trans htext)
          · omega
          · unfold Span.stop at hlt
            omega
        cases hmark : s.mark with
        | pair d =>
          rw [hmark] at hholds
          exact hholds.2 c hmem
        | link url =>
          have := hout s hs (by rw [hmark]; rfl)
          omega
      · refine h.outside passed c cs htext fun s hs => ?_
        rw [Nat.zero_add]
        by_contra hcon
        exact hin ⟨s, hs, by omega, by omega⟩
    exact (ht.apart hbracket).passes_markup hc ss _ cs
  · intro earlier s later d hss hmark xs ys zs htext hoffset hlen
    have hs : s ∈ ss := hss ▸ List.mem_append_right earlier List.mem_cons_self
    obtain ⟨hholds, hys⟩ := h.holds hs htext hoffset hlen
    rw [hmark] at hholds
    -- The later spans start behind this one.
    have hplain : markup later s.offset ys = ys := by
      apply markup_of_apart
      intro t ht
      have hpair := h.apart
      rw [hss, List.pairwise_append] at hpair
      have hle := (List.pairwise_cons.mp hpair.2.1).1 t ht
      have hlt := h.bounds (hss ▸ List.mem_append_right earlier (List.mem_cons_of_mem s ht))
      unfold Span.stop at hle hlt ⊢
      omega
    have hmarkup : markup (s :: later) s.offset (ys ++ zs) =
        d.marker.toList ++
          (ys ++ (s.mark.after ++ markup later (s.offset + Utf16.length ys) zs)) := by
      rw [markup_cons_append hlen.symm hys, hplain, hmark]
      rfl
    constructor
    · rw [hmarkup]
      obtain ⟨y, ys, rfl⟩ := List.exists_cons_of_ne_nil hys
      exact ht.match?_of_plain hholds.1 (hholds.2 y List.mem_cons_self) _
    · rw [hplain]
      obtain ⟨m, ms, hm⟩ := List.exists_cons_of_ne_nil
        (Delimiter.toList_ne_nil (ht.marker_ne d hholds.1))
      rw [hm]
      -- The word has no first character of a marker, and so no marker.
      refine Closes.of_head_not_mem hys fun hmem => ?_
      exact (hholds.2 m hmem).2 d hholds.1 (hm ▸ List.mem_cons_self)
  · intro s hs url hmark
    obtain ⟨xs, ys, zs, htext, -, hoffset, hlen, hholds⟩ := h.covers s hs
    rw [hmark] at hholds
    refine ⟨hholds.2, fun xs' ys' zs' htext' hoffset' hlen' => ?_⟩
    have hholds' := (h.holds hs htext' hoffset' hlen').1
    rw [hmark] at hholds'
    exact hholds'.1

end Flat

end MessageMarkup
