import MessageMarkup.Delimiters
import MessageMarkup.Proofs.Link.Standard
import MessageMarkup.Proofs.Utf16

/-!
# Spans and the markup that they are written in

A `Span` is an entity with what is written before and after it. `markup` writes a text with the
marks of some spans: at every position the marks that close come before those that open, a later
span closes before an earlier one, and an earlier one opens before a later one.

The marks of the first span of a list can be taken out of the markup (`markup_cons`), whatever the
others do, and the markup of two pieces of a text is that of the first before that of the second
(`markup_append`). With these two the markup is never unfolded character by character again.
-/

namespace MessageMarkup

open Utf16 (width length takeUnits)

/-! ## Marks -/

/-- How a span is marked. -/
inductive Mark where
  /-- By a marker on either side. -/
  | pair (d : Delimiter)
  /-- As a link. -/
  | link (url : String)
  deriving DecidableEq, Repr, Inhabited

namespace Mark

/-- What is written before the span. -/
def before : Mark → List Char
  | pair d => d.marker.toList
  | link _ => ['[']

/-- What is written after the span. -/
def after : Mark → List Char
  | pair d => d.marker.toList
  | link url => ']' :: '(' :: (url.toList ++ [')'])

/-- What the mark makes of the span. -/
def kind : Mark → Kind
  | pair d => d.style.kind
  | link url => .textUrl url

/-- Whether the text between is left unread. -/
def isVerbatim : Mark → Bool
  | pair d => d.style.isVerbatim
  | link _ => true

/-- Whether the mark is that of a link. -/
def isLink : Mark → Bool
  | pair _ => false
  | link _ => true

/-- The delimiter of a mark that is one. -/
def delimiter? : Mark → Option Delimiter
  | pair d => some d
  | link _ => none

/-- Only a pair has a delimiter. -/
theorem eq_pair_of_delimiter? {mark : Mark} {d : Delimiter} (h : d ∈ mark.delimiter?) :
    mark = .pair d := by
  cases mark with
  | pair e => exact congrArg pair (Option.some.inj h)
  | link url => exact absurd h (Option.not_mem_none d)

end Mark

/-- Whether the text of an entity of a kind is left unread where the entity is found. -/
def Kind.isVerbatim (kind : Kind) : Bool :=
  kind.style?.all Style.isVerbatim

/-- Whether a kind is that of a link, which has no style. -/
def Kind.isLink (kind : Kind) : Bool :=
  kind.style?.isNone

/-- A style is the style of the kind that it makes. -/
theorem Style.style?_kind (style : Style) : style.kind.style? = some style := by
  cases style <;> rfl

/-- Different styles make different kinds. -/
theorem Style.kind_injective : Function.Injective Style.kind := by
  intro style other h
  have hstyle := congrArg Kind.style? h
  rw [style.style?_kind, other.style?_kind, Option.some.injEq] at hstyle
  exact hstyle

/-- The text of a kind is left unread if that of the style is. -/
@[simp] theorem Style.isVerbatim_kind (style : Style) :
    style.kind.isVerbatim = style.isVerbatim := by
  unfold Kind.isVerbatim
  rw [style.style?_kind, Option.all_some]

/-- The text between marks is left unread if that of their kind is. -/
@[simp] theorem Mark.isVerbatim_kind (mark : Mark) : mark.kind.isVerbatim = mark.isVerbatim := by
  cases mark with
  | pair d => exact d.style.isVerbatim_kind
  | link url => rfl

/-- The mark of a link makes a link. -/
@[simp] theorem Mark.isLink_kind (mark : Mark) : mark.kind.isLink = mark.isLink := by
  cases mark with
  | pair d =>
    unfold Kind.isLink Mark.kind
    rw [d.style.style?_kind]
    rfl
  | link url => rfl

/-! ## Spans -/

/-- A marked stretch of a text, measured in units. -/
structure Span where
  /-- The position at which it starts. -/
  offset : Nat
  /-- The number of its units. -/
  length : Nat
  /-- How it is marked. -/
  mark : Mark
  deriving DecidableEq, Repr, Inhabited

namespace Span

/-- The position at which it stops. -/
def stop (s : Span) : Nat :=
  s.offset + s.length

/-- The entity that stands for the span. -/
def entity (s : Span) : Entity :=
  ⟨s.offset, s.length, s.mark.kind⟩

/-- The span covers some characters of a text that starts at the position `p`. -/
def Covers (s : Span) (p : Nat) (text : List Char) : Prop :=
  ∃ xs ys zs, text = xs ++ (ys ++ zs) ∧ ys ≠ [] ∧ p + Utf16.length xs = s.offset ∧
    Utf16.length ys = s.length

variable {s : Span} {p : Nat} {text : List Char}

/-- A span between two cuts of a text covers what is between them. -/
theorem covers_of_isCut (hstart : Utf16.IsCut text s.offset) (hstop : Utf16.IsCut text s.stop)
    (hpos : 0 < s.length) : s.Covers 0 text := by
  have hsum : s.stop = s.offset + s.length := rfl
  obtain ⟨xs, ys, zs, htext, hys, hoffset, hlen⟩ := hstart.exists_piece hstop (by omega)
  exact ⟨xs, ys, zs, htext, hys, by omega, by omega⟩

/-- A span that covers some of a text is not empty, and in it. -/
theorem Covers.bounds (h : s.Covers p text) :
    p ≤ s.offset ∧ s.offset < s.stop ∧ s.stop ≤ p + Utf16.length text := by
  obtain ⟨xs, ys, zs, rfl, hys, hoffset, hlen⟩ := h
  have hpos := Utf16.length_pos hys
  have hsum : s.stop = s.offset + s.length := rfl
  rw [Utf16.length_append, Utf16.length_append]
  omega

/-- A span covers the same with more behind it. -/
theorem Covers.append (h : s.Covers p text) (more : List Char) : s.Covers p (text ++ more) := by
  obtain ⟨xs, ys, zs, rfl, hys, hoffset, hlen⟩ := h
  exact ⟨xs, ys, zs ++ more, by simp only [List.append_assoc], hys, hoffset, hlen⟩

/-- A span covers the same with more before it. -/
theorem Covers.prepend {passed : List Char} (h : s.Covers (p + Utf16.length passed) text) :
    s.Covers p (passed ++ text) := by
  obtain ⟨xs, ys, zs, rfl, hys, hoffset, hlen⟩ := h
  refine ⟨passed ++ xs, ys, zs, by simp only [List.append_assoc], hys, ?_, hlen⟩
  rw [Utf16.length_append, ← Nat.add_assoc]
  exact hoffset

/-- A span that starts behind what has been passed covers some of what has not. -/
theorem Covers.ahead {passed : List Char} (h : s.Covers p (passed ++ text))
    (hle : p + Utf16.length passed ≤ s.offset) : s.Covers (p + Utf16.length passed) text := by
  obtain ⟨xs, ys, zs, hcut, hys, hoffset, hlen⟩ := h
  obtain ⟨mid, rfl, hrest⟩ := Utf16.exists_append_of_length_le hcut (by omega)
  rw [Utf16.length_append, ← Nat.add_assoc] at hoffset
  exact ⟨mid, ys, zs, hrest, hys, hoffset, hlen⟩

/-- A span covers nothing of an empty text. -/
theorem not_covers_nil : ¬ s.Covers p [] := by
  rintro ⟨xs, ys, zs, hnil, hys, -⟩
  exact hys (List.append_eq_nil_iff.mp (List.append_eq_nil_iff.mp hnil.symm).2).1

end Span

/-- The marks that open at a position, that of an earlier span first. -/
def openings (ss : List Span) (p : Nat) : List Char :=
  (ss.filter (·.offset == p)).flatMap (·.mark.before)

/-- The marks that close at a position, that of a later span first. -/
def closings (ss : List Span) (p : Nat) : List Char :=
  (ss.filter (·.stop == p)).reverse.flatMap (·.mark.after)

/-- A piece of a text, from the position `p` on, with the marks of some spans. Marks that close at
its start or open at its end are not part of it. -/
def markup (ss : List Span) : Nat → List Char → List Char
  | _, [] => []
  | p, c :: cs =>
    openings ss p ++ c :: (closings ss (p + width c) ++ markup ss (p + width c) cs)

/-! ## Marks at a position -/

/-- Where no span starts, nothing opens. -/
theorem openings_eq_nil {ss : List Span} {p : Nat} (h : ∀ s ∈ ss, s.offset ≠ p) :
    openings ss p = [] := by
  have hnone : ss.filter (·.offset == p) = [] := by
    rw [List.filter_eq_nil_iff]
    intro s hs
    rw [beq_iff_eq]
    exact h s hs
  unfold openings
  rw [hnone]
  rfl

/-- Where no span stops, nothing closes. -/
theorem closings_eq_nil {ss : List Span} {p : Nat} (h : ∀ s ∈ ss, s.stop ≠ p) :
    closings ss p = [] := by
  have hnone : ss.filter (·.stop == p) = [] := by
    rw [List.filter_eq_nil_iff]
    intro s hs
    rw [beq_iff_eq]
    exact h s hs
  unfold closings
  rw [hnone]
  rfl

/-- The first span opens before the others. -/
theorem openings_cons (s : Span) (ss : List Span) (p : Nat) :
    openings (s :: ss) p = (if s.offset = p then s.mark.before else []) ++ openings ss p := by
  unfold openings
  rw [List.filter_cons]
  by_cases h : s.offset = p
  · simp [h]
  · simp [h]

/-- The first span closes after the others. -/
theorem closings_cons (s : Span) (ss : List Span) (p : Nat) :
    closings (s :: ss) p = closings ss p ++ (if s.stop = p then s.mark.after else []) := by
  unfold closings
  rw [List.filter_cons]
  by_cases h : s.stop = p
  · simp [h]
  · simp [h]

/-- The marks that open are those of some spans before those of the others. -/
theorem openings_append (ss ts : List Span) (p : Nat) :
    openings (ss ++ ts) p = openings ss p ++ openings ts p := by
  unfold openings
  rw [List.filter_append, List.flatMap_append]

/-- The marks that close are those of some spans after those of the others. -/
theorem closings_append (ss ts : List Span) (p : Nat) :
    closings (ss ++ ts) p = closings ts p ++ closings ss p := by
  unfold closings
  rw [List.filter_append, List.reverse_append, List.flatMap_append]

/-! ## The markup of a piece -/

@[simp] theorem markup_nil (ss : List Span) (p : Nat) : markup ss p [] = [] := rfl

/-- The markup of two pieces. -/
theorem markup_append (ss : List Span) (p : Nat) (xs ys : List Char) :
    markup ss p (xs ++ ys) = markup ss p xs ++ markup ss (p + length xs) ys := by
  induction xs generalizing p with
  | nil => rfl
  | cons x xs ih =>
    rw [List.cons_append, markup, markup, ih, Utf16.length_cons, ← Nat.add_assoc]
    simp only [List.append_assoc, List.cons_append]

/-- The markup of a piece depends only on which spans start and stop in it. -/
theorem markup_congr {ss ts : List Span} {p : Nat} {xs : List Char}
    (hopen : ∀ q, p ≤ q → q < p + length xs → openings ss q = openings ts q)
    (hclose : ∀ q, p < q → q ≤ p + length xs → closings ss q = closings ts q) :
    markup ss p xs = markup ts p xs := by
  induction xs generalizing p with
  | nil => rfl
  | cons x xs ih =>
    have hpos := Utf16.width_pos x
    rw [Utf16.length_cons] at hopen hclose
    have hrest : markup ss (p + width x) xs = markup ts (p + width x) xs := by
      apply ih
      · intro q hp hq
        exact hopen q (by omega) (by omega)
      · intro q hp hq
        exact hclose q (by omega) (by omega)
    rw [markup, markup, hopen p (Nat.le_refl p) (by omega), hclose _ (by omega) (by omega), hrest]

/-- A piece in which no span starts or stops is its own markup. -/
theorem markup_of_apart {ss : List Span} {p : Nat} {xs : List Char}
    (h : ∀ s ∈ ss, (s.offset < p ∨ p + length xs ≤ s.offset) ∧
      (s.stop ≤ p ∨ p + length xs < s.stop)) : markup ss p xs = xs := by
  have hplain : ∀ (q : Nat) (ys : List Char), markup [] q ys = ys := by
    intro q ys
    induction ys generalizing q with
    | nil => rfl
    | cons y ys ih =>
      rw [markup, ih]
      rfl
  have hnone : markup ss p xs = markup [] p xs := by
    apply markup_congr
    · intro q hp hq
      exact openings_eq_nil fun s hs => by have := (h s hs).1; omega
    · intro q hp hq
      exact closings_eq_nil fun s hs => by have := (h s hs).2; omega
  rw [hnone, hplain]

/-- The markup of a piece behind the start of the first span and not behind its stop. -/
theorem markup_cons_inside {s : Span} {ss : List Span} {p : Nat} {xs : List Char}
    (hs : s.offset < p) (h : p + length xs ≤ s.stop) (hxs : xs ≠ []) :
    markup (s :: ss) p xs =
      markup ss p xs ++ (if s.stop = p + length xs then s.mark.after else []) := by
  induction xs generalizing p with
  | nil => exact absurd rfl hxs
  | cons x xs ih =>
    have hpos := Utf16.width_pos x
    rw [Utf16.length_cons] at h ⊢
    rw [markup, markup, openings_cons, closings_cons, if_neg (Nat.ne_of_lt hs)]
    -- The span can stop only behind the last character.
    cases xs with
    | nil => simp
    | cons y ys =>
      have hpos' := Utf16.width_pos y
      rw [Utf16.length_cons] at h
      have hstop : s.stop ≠ p + width x := by omega
      rw [ih (by omega) (by rw [Utf16.length_cons]; omega) (List.cons_ne_nil _ _), if_neg hstop,
        Nat.add_assoc]
      simp

/-- The markup of a piece at the start of the first span and not behind its stop. -/
theorem markup_cons {s : Span} {ss : List Span} {p : Nat} {xs : List Char}
    (hs : s.offset = p) (h : p + length xs ≤ s.stop) (hxs : xs ≠ []) :
    markup (s :: ss) p xs =
      s.mark.before ++
        (markup ss p xs ++ (if s.stop = p + length xs then s.mark.after else [])) := by
  cases xs with
  | nil => exact absurd rfl hxs
  | cons x xs =>
    have hpos := Utf16.width_pos x
    rw [Utf16.length_cons] at h ⊢
    rw [markup, markup, openings_cons, closings_cons, if_pos hs]
    -- Behind the first character the piece lies inside the span.
    cases xs with
    | nil => simp
    | cons y ys =>
      have hpos' := Utf16.width_pos y
      rw [Utf16.length_cons] at h
      have hstop : s.stop ≠ p + width x := by omega
      rw [markup_cons_inside (by omega) (by rw [Utf16.length_cons]; omega) (List.cons_ne_nil _ _),
        if_neg hstop, Nat.add_assoc]
      simp

/-- The markup of a piece behind the stop of the first span. -/
theorem markup_cons_behind {s : Span} {ss : List Span} {p : Nat} {xs : List Char}
    (hs : s.offset < p) (h : s.stop ≤ p) : markup (s :: ss) p xs = markup ss p xs := by
  apply markup_congr
  · intro q hp hq
    rw [openings_cons, if_neg (by omega), List.nil_append]
  · intro q hp hq
    rw [closings_cons, if_neg (by omega), List.append_nil]

/-- The first span is marked where it lies, and behind it the markup is that of the others. -/
theorem markup_cons_append {s : Span} {ss : List Span} {xs : List Char}
    (hs : s.length = length xs) (hxs : xs ≠ []) (ys : List Char) :
    markup (s :: ss) s.offset (xs ++ ys) =
      s.mark.before ++ (markup ss s.offset xs ++
        (s.mark.after ++ markup ss (s.offset + length xs) ys)) := by
  have hstop : s.stop = s.offset + length xs := by
    unfold Span.stop
    rw [hs]
  have hpos := Utf16.length_pos hxs
  rw [markup_append, markup_cons rfl (by omega) hxs, if_pos hstop,
    markup_cons_behind (by omega) (by omega)]
  simp only [List.append_assoc]

end MessageMarkup
