import MessageMarkup.Proofs.Format.Layout
import MessageMarkup.Proofs.Format.Step

/-!
# Markup that can be read in one way

`Unambiguous` says of the markup of some spans that the reader finds each mark where it stands, and
nothing elsewhere; `Legible` adds that the spans lie as they may, and that labels and urls end where
they should. For one text both can be decided.

A character that is in no marker is passed whatever follows it (`Delimiters.Apart.passes`), and in
front of one a marker is found whatever longer ones there are
(`Delimiters.Ordered.match?_of_plain`).
-/

namespace MessageMarkup

open Utf16 (encode length)
open LinkPattern (linkAhead?)

/-! ## Legible markup -/

/-- In the markup of some spans, marks are found where they stand, and nothing elsewhere. This is more
than it takes to read the spans back: of two pairs of one marker around the same content, as in
`****a****`, the reader closes each by the mark that was written for the other, and still finds the
two. -/
structure Unambiguous (table : Delimiters) (text : List Char) (ss : List Span) : Prop where
  /-- The reader passes a character that is read, with the marks of the spans behind it. -/
  literal : ∀ passed c cs, text = passed ++ c :: cs →
    (∀ s ∈ ss, s.mark.isVerbatim = true → length passed < s.offset ∨ s.stop ≤ length passed) →
    table.Passes (markup (ss.filter (length passed < ·.offset)) (length passed) (c :: cs))
  /-- Where a pair starts, with the marks of earlier spans taken out, its marker is found, and what
  it marks reaches to the second one. So its content does not start with another pair of the same
  marker. -/
  pair : ∀ earlier s later d, ss = earlier ++ s :: later → s.mark = .pair d →
    ∀ xs ys zs, text = xs ++ (ys ++ zs) → length xs = s.offset → length ys = s.length →
      table.match? (encode (markup (s :: later) s.offset (ys ++ zs))) = some d ∧
        Closes d.marker.toList (markup later s.offset ys)

instance (table : Delimiters) (cs : List Char) : Decidable (table.Passes cs) :=
  match h : table.match? (encode cs) with
  | some d => decidable_of_iff (occurrenceFrom? ((encode cs).drop d.width) d.units 1 = none)
    (by rw [Delimiters.Passes, h])
  | none => decidable_of_iff (linkAhead? cs = none) (by rw [Delimiters.Passes, h])

instance (table : Delimiters) (text : List Char) (ss : List Span) :
    Decidable (Unambiguous table text ss) :=
  decidable_of_iff
    ((∀ c ∈ cuts text, c.2 ≠ [] →
        (∀ s ∈ ss, s.mark.isVerbatim = true → length c.1 < s.offset ∨ s.stop ≤ length c.1) →
        table.Passes (markup (ss.filter (length c.1 < ·.offset)) (length c.1) c.2)) ∧
      ∀ c ∈ cuts ss, ∀ s ∈ c.2.head?, ∀ d ∈ s.mark.delimiter?,
        ∀ before ∈ cuts text, length before.1 = s.offset →
          ∀ behind ∈ cuts before.2, length behind.1 = s.length →
            table.match? (encode (markup c.2 s.offset before.2)) = some d ∧
              Closes d.marker.toList (markup c.2.tail s.offset behind.1)) <| by
    constructor
    · rintro ⟨hliteral, hpair⟩
      refine ⟨fun passed c cs htext hout => ?_, ?_⟩
      · exact hliteral (passed, c :: cs) (mem_cuts.mpr htext) (List.cons_ne_nil c cs) hout
      · intro earlier s later d hss hmark xs ys zs htext hoffset hlen
        exact hpair (earlier, s :: later) (mem_cuts.mpr hss) s rfl d
          (congrArg Mark.delimiter? hmark) (xs, ys ++ zs) (mem_cuts.mpr htext) hoffset (ys, zs)
          (mem_cuts.mpr rfl) hlen
    · intro h
      constructor
      · rintro ⟨passed, rest⟩ hcut hne hout
        obtain ⟨c, cs, rfl⟩ := List.exists_cons_of_ne_nil hne
        exact h.literal passed c cs (mem_cuts.mp hcut) hout
      · rintro ⟨earlier, rest⟩ hcut s hs d hd ⟨xs, more⟩ htext hoffset ⟨ys, zs⟩ hmore hlen
        obtain ⟨later, rfl⟩ : ∃ later, rest = s :: later := List.head?_eq_some_iff.mp hs
        have hmark := Mark.eq_pair_of_delimiter? hd
        obtain rfl : more = ys ++ zs := mem_cuts.mp hmore
        exact h.pair earlier s later d (mem_cuts.mp hcut) hmark xs ys zs (mem_cuts.mp htext)
          hoffset hlen

/-- The markup of some spans is taken for what it is. -/
structure Legible (table : Delimiters) (text : List Char) (ss : List Span) : Prop
    extends Layout text ss, Unambiguous table text ss where
  /-- The label of a link goes up to the first closing bracket, and its url to the first closing
  parenthesis. -/
  link : ∀ s ∈ ss, ∀ url, s.mark = .link url → ')' ∉ url.toList ∧
    ∀ xs ys zs, text = xs ++ (ys ++ zs) → length xs = s.offset → length ys = s.length → ']' ∉ ys

/-- What the reader needs of a table to find links: no marker is empty or starts like a link. -/
structure Delimiters.Apart (table : Delimiters) : Prop where
  /-- No marker is empty. -/
  marker_ne : ∀ d ∈ table.entries, d.marker ≠ ""
  /-- No marker starts like a link. -/
  bracket : ∀ d ∈ table.entries, d.marker.toList.head? ≠ some '['

/-- Where a link starts there is no marker. -/
theorem Delimiters.Apart.match?_bracket {table : Delimiters} (h : table.Apart) (cs : List Char) :
    table.match? (encode ('[' :: cs)) = none := by
  apply Delimiters.match?_eq_none
  intro d hd hstarts
  have hhead := h.bracket d hd
  obtain ⟨m, ms, hm⟩ := List.exists_cons_of_ne_nil (Delimiter.toList_ne_nil (h.marker_ne d hd))
  rw [hm] at hstarts hhead
  rw [List.cons_prefix_cons] at hstarts
  exact hhead (congrArg some hstarts.1)

/-- A character that is in no marker and starts no link. -/
def Delimiters.IsPlain (table : Delimiters) (c : Char) : Prop :=
  c ≠ '[' ∧ ∀ d ∈ table.entries, c ∉ d.marker.toList

instance (table : Delimiters) (c : Char) : Decidable (table.IsPlain c) :=
  inferInstanceAs (Decidable (_ ∧ _))

/-- The reader passes a plain character, whatever follows. -/
theorem Delimiters.Apart.passes {table : Delimiters} (h : table.Apart) {c : Char}
    (hc : table.IsPlain c) (cs : List Char) : table.Passes (c :: cs) := by
  have hnone : table.match? (encode (c :: cs)) = none := by
    apply Delimiters.match?_eq_none
    intro d hd hstarts
    obtain ⟨m, ms, hm⟩ := List.exists_cons_of_ne_nil (Delimiter.toList_ne_nil (h.marker_ne d hd))
    have hmem := hc.2 d hd
    rw [hm] at hstarts hmem
    rw [List.cons_prefix_cons] at hstarts
    exact hmem (hstarts.1 ▸ List.mem_cons_self)
  -- A link would start with a bracket.
  have hlink : linkAhead? (c :: cs) = none := by
    apply LinkPattern.linkAhead?_of_head_ne
    rw [List.head?_cons, Ne, Option.some.injEq]
    exact hc.1
  unfold Delimiters.Passes
  rw [hnone]
  exact hlink

/-- The reader passes a plain character of a text with the marks of the spans behind it. -/
theorem Delimiters.Apart.passes_markup {table : Delimiters} (h : table.Apart) {c : Char}
    (hc : table.IsPlain c) (ss : List Span) (p : Nat) (cs : List Char) :
    table.Passes (markup (ss.filter (p < ·.offset)) p (c :: cs)) := by
  have hnone : openings (ss.filter (p < ·.offset)) p = [] := by
    apply openings_eq_nil
    intro s hs
    have := of_decide_eq_true (List.mem_filter.mp hs).2
    omega
  rw [markup, hnone]
  exact h.passes hc _

/-- A marker in front of a plain character is found, although longer ones may start with it: they
would go on with the plain character. -/
theorem Delimiters.Ordered.match?_of_plain {table : Delimiters} (h : table.Ordered) {d : Delimiter}
    (hd : d ∈ table.entries) {c : Char} (hc : table.IsPlain c) (cs : List Char) :
    table.match? (encode (d.marker.toList ++ c :: cs)) = some d := by
  refine h.match?_eq_some hd (List.prefix_append _ _) fun e he hstarts => ?_
  -- A longer marker would go on with the plain character, which is in none.
  by_contra hlonger
  obtain ⟨rest, hrest⟩ := hstarts
  rw [Delimiter.width_eq, Delimiter.width_eq] at hlonger
  obtain ⟨mid, hmid, hmore⟩ := Utf16.exists_append_of_length_le hrest.symm (by omega)
  cases mid with
  | nil =>
    rw [List.append_nil] at hmid
    rw [hmid] at hlonger
    exact hlonger (Nat.le_refl _)
  | cons m mid =>
    rw [List.cons_append, List.cons.injEq] at hmore
    have hmem := hc.2 e he
    rw [hmid, hmore.1] at hmem
    exact hmem (List.mem_append_right _ List.mem_cons_self)

/-- No marker of a table as it should be starts like a link if none contains a bracket. -/
theorem Delimiters.Ordered.apart {table : Delimiters} (h : table.Ordered)
    (hbracket : ∀ d ∈ table.entries, '[' ∉ d.marker.toList) : table.Apart :=
  ⟨h.marker_ne, fun d hd heq => hbracket d hd (List.mem_of_mem_head? heq)⟩

/-- No standard marker contains a bracket. -/
theorem Delimiters.apart_standard : standard.Apart := by
  apply ordered_standard.apart
  intro d hd
  rcases mem_standard hd with rfl | rfl | rfl | rfl | rfl <;> decide

end MessageMarkup
