import MessageMarkup.Format.Scan
import MessageMarkup.Proofs.Delimiters
import MessageMarkup.Proofs.Span

/-!
# How spans lie in a text that is read

`Layout` says how spans may lie in a text: those that the reader finds later start later, none
starts in one that is left unread, and a link that starts in a span stops in it.

While the text is read, the spans found so far still contain the marks of the spans to come. So the
entity of a span has, until the reader is behind it, the length of the markup that is left of it
(`Span.recorded`), and each step takes out of all of them what it takes out of the text
(`Span.withoutPair_recorded`, `Span.withoutLink_recorded`).
-/

namespace MessageMarkup

open Utf16 (length takeUnits width)

/-! ## Layouts -/

/-- How spans may lie in a text. -/
structure Layout (text : List Char) (ss : List Span) : Prop where
  /-- A span covers some characters of the text. -/
  covers : ∀ s ∈ ss, s.Covers 0 text
  /-- A later span does not start before an earlier one. -/
  sorted : ss.Pairwise fun s t => s.offset ≤ t.offset
  /-- A later span does not start in an earlier one that is left unread. -/
  verbatim : ss.Pairwise fun s t => s.mark.isVerbatim = true → s.stop ≤ t.offset
  /-- A link that starts in an earlier span stops in it. -/
  uncrossed : ss.Pairwise fun s t => t.mark.isLink = true → t.offset < s.stop → t.stop ≤ s.stop

namespace Layout

variable {text passed cs : List Char} {ss : List Span} {s : Span}

/-- A span stops behind its start. -/
theorem offset_lt_stop (h : Layout text ss) (hs : s ∈ ss) : s.offset < s.stop :=
  (h.covers s hs).bounds.2.1

/-- A span that starts behind what has been passed lies in what has not. -/
theorem covers_ahead (h : Layout text ss) (hs : s ∈ ss) (htext : text = passed ++ cs)
    (hle : length passed ≤ s.offset) : s.Covers (length passed) cs := by
  have hcovers := h.covers s hs
  rw [htext] at hcovers
  have hahead := hcovers.ahead (by omega)
  rw [Nat.zero_add] at hahead
  exact hahead

/-- A span that starts behind what has been passed, and not at it, starts behind the next
character. -/
theorem width_le_offset {c : Char} (h : Layout text ss) (hs : s ∈ ss)
    (htext : text = passed ++ c :: cs) (hlt : length passed < s.offset) :
    length passed + width c ≤ s.offset := by
  obtain ⟨xs, ys, zs, hcs, -, hoffset, -⟩ := h.covers_ahead hs htext (Nat.le_of_lt hlt)
  cases xs with
  | nil =>
    rw [Utf16.length_nil] at hoffset
    omega
  | cons x xs =>
    rw [List.cons_append, List.cons.injEq] at hcs
    rw [Utf16.length_cons, ← hcs.1] at hoffset
    omega

/-- A span that stops behind what has been passed stops in what has not. -/
theorem stop_ahead (h : Layout text ss) (hs : s ∈ ss) (htext : text = passed ++ cs)
    (hlt : length passed < s.stop) :
    ∃ xs ys, cs = xs ++ ys ∧ xs ≠ [] ∧ length passed + length xs = s.stop := by
  obtain ⟨xs, ys, zs, hcut, -, hoffset, hlen⟩ := h.covers s hs
  have hstop : s.stop = length (xs ++ ys) := by
    rw [Utf16.length_append, hlen, ← Nat.zero_add (length xs), hoffset]
    rfl
  rw [← List.append_assoc] at hcut
  obtain ⟨mid, hmid, hcs⟩ := Utf16.exists_append_of_length_le (htext.symm.trans hcut) (by omega)
  rw [hstop, hmid, Utf16.length_append] at hlt ⊢
  refine ⟨mid, zs, hcs, ?_, rfl⟩
  rintro rfl
  rw [Utf16.length_nil] at hlt
  omega

end Layout

/-! ## Entities of spans that are being read -/

/-- Markup is no shorter than what it marks. -/
theorem length_le_length_markup (ss : List Span) (p : Nat) (xs : List Char) :
    length xs ≤ length (markup ss p xs) := by
  induction xs generalizing p with
  | nil => exact Nat.le_refl _
  | cons x xs ih =>
    have := ih (p + width x)
    rw [markup]
    simp only [Utf16.length_append, Utf16.length_cons]
    omega

namespace Span

/-- The entity of a span, found already, with the reader at `p` and `cs` left. As far as the reader
has not come, it contains the marks of the spans to come. -/
def recorded (ss : List Span) (p : Nat) (cs : List Char) (s : Span) : Entity :=
  ⟨s.offset, if s.stop ≤ p then s.length
    else p - s.offset + Utf16.length (markup ss p (takeUnits (s.stop - p) cs)), s.mark.kind⟩

variable {ss : List Span} {p : Nat} {s t : Span} {xs ys zs cs : List Char}

/-- Behind the span it is the entity that it should be. -/
theorem recorded_of_le (h : s.stop ≤ p) : s.recorded ss p cs = s.entity := by
  unfold recorded
  rw [if_pos h]
  rfl

/-- Before the stop of the span it contains marks. -/
theorem recorded_of_append (hxs : xs ≠ []) (h : p + Utf16.length xs = s.stop) :
    s.recorded ss p (xs ++ ys) =
      ⟨s.offset, p - s.offset + Utf16.length (markup ss p xs), s.mark.kind⟩ := by
  have hpos := Utf16.length_pos hxs
  have hsub : s.stop - p = Utf16.length xs := by omega
  unfold recorded
  rw [if_neg (by omega), hsub, Utf16.takeUnits_length]

/-- When it is found it has the length of the markup in the span. -/
theorem recorded_start (hs : s.offset = p) (hxs : xs ≠ []) (h : s.stop = p + Utf16.length xs) :
    s.recorded ss p (xs ++ ys) = ⟨p, Utf16.length (markup ss p xs), s.mark.kind⟩ := by
  rw [recorded_of_append hxs h.symm, hs, Nat.sub_self, Nat.zero_add]

/-- Passing what has no marks changes nothing. -/
theorem recorded_append (hss : ∀ t ∈ ss, p + Utf16.length xs ≤ t.offset ∧ t.offset < t.stop)
    (hs : s.offset ≤ p)
    (hstop : p < s.stop → ∃ as bs, xs ++ cs = as ++ bs ∧ as ≠ [] ∧ p + Utf16.length as = s.stop) :
    s.recorded ss p (xs ++ cs) = s.recorded ss (p + Utf16.length xs) cs := by
  have hplain {ys : List Char} (hys : Utf16.length ys ≤ Utf16.length xs) : markup ss p ys = ys := by
    apply markup_of_apart
    intro t ht
    have := hss t ht
    omega
  by_cases hle : s.stop ≤ p
  · rw [recorded_of_le hle, recorded_of_le (by omega)]
  obtain ⟨as, bs, hcut, has, hlen⟩ := hstop (by omega)
  by_cases hin : s.stop ≤ p + Utf16.length xs
  · -- The span stops in what is passed.
    have heq : p - s.offset + Utf16.length as = s.length := by
      unfold Span.stop at hlen
      omega
    rw [hcut, recorded_of_append has hlen, recorded_of_le hin, hplain (by omega), heq]
    rfl
  · obtain ⟨mid, rfl, rfl⟩ := Utf16.exists_append_of_length_le hcut (by omega)
    rw [Utf16.length_append] at hlen
    have hmid : mid ≠ [] := by
      rintro rfl
      rw [Utf16.length_nil] at hlen
      omega
    -- What is passed counts as text now and counted as markup before, which is the same.
    rw [← List.append_assoc, recorded_of_append has (by rw [Utf16.length_append]; omega),
      recorded_of_append hmid (by omega), markup_append, hplain (Nat.le_refl _),
      Utf16.length_append]
    congr 1
    omega

/-- Taking out the markers of the next span takes out of the others what they contain of them. -/
theorem withoutPair_recorded {d : Delimiter} (ht : t.offset = p) (hmark : t.mark = .pair d)
    (hys : ys ≠ []) (hlen : Utf16.length ys = t.length) (hs : s.offset ≤ p)
    (hstop : p < s.stop → ∃ as bs, ys ++ zs = as ++ bs ∧ as ≠ [] ∧ p + Utf16.length as = s.stop) :
    (s.recorded (t :: ss) p (ys ++ zs)).withoutPair p
        (p + d.width + Utf16.length (markup ss p ys)) d.width =
      s.recorded ss p (ys ++ zs) := by
  have hbefore : Utf16.length t.mark.before = d.width := by
    rw [hmark, d.width_eq]
    rfl
  have hafter : Utf16.length t.mark.after = d.width := by
    rw [hmark, d.width_eq]
    rfl
  by_cases hle : s.stop ≤ p
  · -- The span is behind the reader.
    have hout : ¬ p < s.entity.stop := Nat.not_lt.mpr hle
    rw [recorded_of_le hle, recorded_of_le hle, Entity.withoutPair, if_neg hout]
  obtain ⟨as, bs, hcut, has, hstop⟩ := hstop (by omega)
  have hmore := length_le_length_markup ss p as
  have hpos := Utf16.length_pos has
  have htstop : t.stop = p + Utf16.length ys := by
    unfold Span.stop
    rw [ht, hlen]
  rw [hcut, recorded_of_append has hstop, recorded_of_append has hstop]
  unfold Entity.withoutPair Entity.shorten Entity.stop
  simp only
  by_cases hin : Utf16.length ys ≤ Utf16.length as
  · -- It lies around both markers.
    obtain ⟨mid, rfl, -⟩ := Utf16.exists_append_of_length_le hcut hin
    have hmarkup : Utf16.length (markup (t :: ss) p (ys ++ mid)) =
        Utf16.length (markup ss p (ys ++ mid)) + d.width * 2 := by
      rw [← ht, markup_cons_append hlen.symm hys, markup_append]
      simp only [Utf16.length_append, hbefore, hafter]
      omega
    have hsum : Utf16.length (markup ss p (ys ++ mid)) =
        Utf16.length (markup ss p ys) + Utf16.length (markup ss (p + Utf16.length ys) mid) := by
      rw [markup_append, Utf16.length_append]
    -- It loses both markers.
    rw [if_pos (by omega), if_pos (by omega)]
    congr 1
    omega
  · -- It stops between the markers.
    obtain ⟨mid, rfl, -⟩ := Utf16.exists_append_of_length_le hcut.symm (by omega)
    rw [Utf16.length_append] at hin htstop
    have hne : t.stop ≠ p + Utf16.length as := by omega
    have hmarkup : Utf16.length (markup (t :: ss) p as) =
        d.width + Utf16.length (markup ss p as) := by
      rw [markup_cons ht (by omega) has, if_neg hne, List.append_nil, Utf16.length_append, hbefore]
    have hsum : Utf16.length (markup ss p (as ++ mid)) =
        Utf16.length (markup ss p as) + Utf16.length (markup ss (p + Utf16.length as) mid) := by
      rw [markup_append, Utf16.length_append]
    have hmid := length_le_length_markup ss (p + Utf16.length as) mid
    -- It loses the first marker alone.
    rw [if_pos (by omega), if_neg (by omega)]
    congr 1
    omega

/-- Taking out the marks of a link takes them out of the others, which contain all of them or
none. -/
theorem withoutLink_recorded (ht : t.offset = p)
    (hys : ys ≠ []) (hlen : Utf16.length ys = t.length) (hs : s.offset ≤ p)
    (huncrossed : p < s.stop → t.stop ≤ s.stop)
    (hstop : p < s.stop → ∃ as bs, ys ++ zs = as ++ bs ∧ as ≠ [] ∧ p + Utf16.length as = s.stop) :
    (s.recorded (t :: ss) p (ys ++ zs)).withoutLink p
        (Utf16.length t.mark.before + Utf16.length t.mark.after) =
      s.recorded ss p (ys ++ zs) := by
  by_cases hle : s.stop ≤ p
  · -- The span is behind the reader.
    have hout : ¬ p < s.entity.stop := Nat.not_lt.mpr hle
    rw [recorded_of_le hle, recorded_of_le hle, Entity.withoutLink, if_neg hout]
  have hlt : p < s.stop := by omega
  obtain ⟨as, bs, hcut, has, hstop⟩ := hstop hlt
  have hmore := length_le_length_markup (t :: ss) p as
  have hpos := Utf16.length_pos has
  have htstop : t.stop = p + Utf16.length ys := by
    unfold Span.stop
    rw [ht, hlen]
  -- It reaches behind the whole label.
  have hin : Utf16.length ys ≤ Utf16.length as := by
    have := huncrossed hlt
    omega
  rw [hcut, recorded_of_append has hstop, recorded_of_append has hstop]
  unfold Entity.withoutLink Entity.shorten Entity.stop
  simp only
  obtain ⟨mid, rfl, -⟩ := Utf16.exists_append_of_length_le hcut hin
  have hmarkup : Utf16.length (markup (t :: ss) p (ys ++ mid)) =
      Utf16.length (markup ss p (ys ++ mid)) +
        (Utf16.length t.mark.before + Utf16.length t.mark.after) := by
    rw [← ht, markup_cons_append hlen.symm hys, markup_append]
    simp only [Utf16.length_append]
    omega
  rw [if_pos (by omega)]
  congr 1
  omega

end Span
end MessageMarkup
