import Mathlib.Data.List.Basic
import MessageMarkup.Text.Occurrence
import MessageMarkup.Text.Utf16

/-!
# The units of a text

`decode_encode` says that the units of a text give the text back. Units can be cut anywhere, so the
other statements say which cuts are seen in the characters: one text is the start of another if and
only if its units are (`encode_prefix_iff`), and a text that is not empty occurs inside another
exactly where its units occur (`occurrence?_encode`). Both rest on one fact, that the first unit of
a character is never the second half of a surrogate pair.

`splitsPair` is false at the end of every piece of a text, and a position at which it is false is
the end of a piece (`isCut_of_not_splitsPair`).
-/

namespace MessageMarkup.Utf16

/-! ## The characters of a text -/

/-- What is said of the characters of a text is decided by them, not by all that there are. -/
instance decidableForallMemText {p : Char → Prop} [DecidablePred p] (cs : List Char) :
    Decidable (∀ c ∈ cs, p c) :=
  List.decidableBAll p cs

/-- The same for a single character. -/
instance decidableForallMemFound {p : Char → Prop} [DecidablePred p] (found : Option Char) :
    Decidable (∀ c ∈ found, p c) :=
  Option.decidableForallMem found

/-! ## The units of a character -/

/-- A code point is in range and no surrogate. -/
theorem char_bounds (c : Char) :
    c.toNat < 0xD800 ∨ (0xDFFF < c.toNat ∧ c.toNat < 0x110000) := c.valid

/-- A character of the Basic Multilingual Plane is one unit with the same number. -/
theorem ofChar_of_lt {c : Char} (h : c.toNat < 0x10000) : ofChar c = [UInt16.ofNat c.toNat] := by
  unfold ofChar
  rw [if_pos h]

/-- Any other character is a high surrogate and a low one. -/
theorem ofChar_of_ge {c : Char} (h : ¬ c.toNat < 0x10000) :
    ofChar c = [UInt16.ofNat (0xD800 + (c.toNat - 0x10000) / 0x400),
      UInt16.ofNat (0xDC00 + (c.toNat - 0x10000) % 0x400)] := by
  unfold ofChar
  rw [if_neg h]

/-- A character has at least one unit. -/
theorem width_pos (c : Char) : 0 < width c := by
  unfold width
  split <;> omega

/-- A character has as many units as its width says. -/
@[simp] theorem length_ofChar (c : Char) : (ofChar c).length = width c := by
  unfold ofChar width
  split <;> rfl

/-- The number of a unit below `2^16` is that unit's. -/
theorem toNat_ofNat_of_lt {n : Nat} (h : n < 0x10000) : (UInt16.ofNat n).toNat = n := by
  rw [UInt16.toNat_ofNat']
  exact Nat.mod_eq_of_lt h

/-- Being a second half, in numbers. -/
theorem isLow_iff {u : UInt16} : isLow u = true ↔ 0xDC00 ≤ u.toNat ∧ u.toNat ≤ 0xDFFF := by
  simp [isLow, UInt16.le_iff_toNat_le]

/-- Being a first half, in numbers. -/
theorem isHigh_iff {u : UInt16} : isHigh u = true ↔ 0xD800 ≤ u.toNat ∧ u.toNat ≤ 0xDBFF := by
  simp [isHigh, UInt16.le_iff_toNat_le]

/-- Being either half, in numbers. -/
theorem isSurrogate_iff {u : UInt16} :
    isSurrogate u = true ↔ 0xD800 ≤ u.toNat ∧ u.toNat ≤ 0xDFFF := by
  simp [isSurrogate, UInt16.le_iff_toNat_le]

/-- The units of a character are one unit that is no surrogate, or a high surrogate and a low one
that join to the character. -/
theorem ofChar_cases (c : Char) :
    (∃ u, ofChar c = [u] ∧ isSurrogate u = false ∧ single u = c ∧ width c = 1) ∨
      ∃ high low, ofChar c = [high, low] ∧ isHigh high = true ∧ isLow low = true ∧
        joined high low = c ∧ width c = 2 := by
  have hc := char_bounds c
  by_cases h : c.toNat < 0x10000
  · left
    have hu : (UInt16.ofNat c.toNat).toNat = c.toNat := toNat_ofNat_of_lt h
    have hs : isSurrogate (UInt16.ofNat c.toNat) = false := by
      rw [← Bool.not_eq_true, isSurrogate_iff, hu]
      omega
    refine ⟨_, ofChar_of_lt h, hs, ?_, by simp [width, h]⟩
    rw [single, hs, hu]
    exact Char.ofNat_toNat c
  · right
    have hq : (c.toNat - 0x10000) / 0x400 < 0x400 := by omega
    have hr : (c.toNat - 0x10000) % 0x400 < 0x400 := Nat.mod_lt _ (by omega)
    have hhigh := toNat_ofNat_of_lt (n := 0xD800 + (c.toNat - 0x10000) / 0x400) (by omega)
    have hlow := toNat_ofNat_of_lt (n := 0xDC00 + (c.toNat - 0x10000) % 0x400) (by omega)
    refine ⟨_, _, ofChar_of_ge h, ?_, ?_, ?_, by simp [width, h]⟩
    · rw [isHigh_iff, hhigh]
      omega
    · rw [isLow_iff, hlow]
      omega
    · have hn : 0x10000 + (0xD800 + (c.toNat - 0x10000) / 0x400 - 0xD800) * 0x400 +
          (0xDC00 + (c.toNat - 0x10000) % 0x400 - 0xDC00) = c.toNat := by omega
      rw [joined, hhigh, hlow, hn]
      exact Char.ofNat_toNat c

/-- A second half is no first half. -/
theorem isHigh_of_isLow {u : UInt16} (h : isLow u = true) : isHigh u = false := by
  rw [isLow_iff] at h
  rw [← Bool.not_eq_true, isHigh_iff]
  omega

/-- A second half is a surrogate. -/
theorem isSurrogate_of_isLow {u : UInt16} (h : isLow u = true) : isSurrogate u = true := by
  rw [isLow_iff] at h
  rw [isSurrogate_iff]
  omega

/-- A first half is a surrogate. -/
theorem isSurrogate_of_isHigh {u : UInt16} (h : isHigh u = true) : isSurrogate u = true := by
  rw [isHigh_iff] at h
  rw [isSurrogate_iff]
  omega

/-! ## The units of a text -/

@[simp] theorem encode_nil : encode [] = [] := rfl

@[simp] theorem encode_cons (c : Char) (cs : List Char) :
    encode (c :: cs) = ofChar c ++ encode cs :=
  List.flatMap_cons

@[simp] theorem encode_append (xs ys : List Char) : encode (xs ++ ys) = encode xs ++ encode ys :=
  List.flatMap_append

@[simp] theorem length_nil : length [] = 0 := rfl

@[simp] theorem length_cons (c : Char) (cs : List Char) : length (c :: cs) = width c + length cs :=
  rfl

/-- A text has as many units as its length says. -/
@[simp] theorem length_encode (cs : List Char) : (encode cs).length = length cs := by
  induction cs with
  | nil => rfl
  | cons c cs ih => rw [encode_cons, List.length_append, length_ofChar, ih, length_cons]

@[simp] theorem length_append (xs ys : List Char) : length (xs ++ ys) = length xs + length ys := by
  rw [← length_encode, encode_append, List.length_append, length_encode, length_encode]

/-- Only the empty text has no units. -/
theorem length_eq_zero_iff {cs : List Char} : length cs = 0 ↔ cs = [] := by
  cases cs with
  | nil => simp
  | cons c cs =>
    have := width_pos c
    simp only [length_cons, List.cons_ne_nil, iff_false]
    omega

/-- A text that is not empty has units. -/
theorem length_pos {cs : List Char} (h : cs ≠ []) : 0 < length cs :=
  Nat.pos_of_ne_zero fun hz => h (length_eq_zero_iff.mp hz)

/-- Some of the characters of a text have no more units than all of them. -/
theorem length_le_of_sublist {xs ys : List Char} (h : xs.Sublist ys) : length xs ≤ length ys := by
  induction h with
  | slnil => exact Nat.le_refl _
  | cons c _ ih =>
    rw [length_cons]
    omega
  | cons_cons c _ ih =>
    rw [length_cons, length_cons]
    omega

/-- Only the empty text has no units. -/
theorem encode_eq_nil_iff {cs : List Char} : encode cs = [] ↔ cs = [] := by
  rw [← List.length_eq_zero_iff, length_encode, length_eq_zero_iff]

/-- A unit that is no surrogate is read as the character that it is, whatever follows. -/
theorem decode_cons_of_not_isSurrogate {u : UInt16} (h : isSurrogate u = false)
    (us : List UInt16) : decode (u :: us) = single u :: decode us := by
  have hu : isHigh u = false := by
    rw [← Bool.not_eq_true]
    intro hh
    rw [isSurrogate_of_isHigh hh] at h
    exact Bool.noConfusion h
  cases us with
  | nil => rfl
  | cons v vs => rw [decode, hu, Bool.false_and, if_neg Bool.false_ne_true]

/-- The units of a text give the text back. -/
@[simp] theorem decode_encode (cs : List Char) : decode (encode cs) = cs := by
  induction cs with
  | nil => rfl
  | cons c cs ih =>
    rw [encode_cons]
    rcases ofChar_cases c with ⟨u, hu, hs, hc, -⟩ | ⟨high, low, hu, hh, hl, hc, -⟩
    · rw [hu, List.singleton_append, decode_cons_of_not_isSurrogate hs, hc, ih]
    · rw [hu, List.cons_append, List.cons_append, List.nil_append, decode, hh, hl, Bool.and_self,
        if_pos rfl, hc, ih]

@[simp] theorem toText_ofText (text : String) : toText (ofText text) = text := by
  rw [toText, ofText, decode_encode, String.ofList_toList]

/-- Texts with the same units are the same. -/
theorem encode_injective {xs ys : List Char} (h : encode xs = encode ys) : xs = ys := by
  rw [← decode_encode xs, h, decode_encode]

/-! ## Cutting a text -/

/-- The first unit of a text is no second half. -/
theorem isLow_head_encode {cs : List Char} {u : UInt16} {us : List UInt16}
    (h : encode cs = u :: us) : isLow u = false := by
  cases cs with
  | nil => exact absurd h (by simp)
  | cons c cs =>
    rw [encode_cons] at h
    -- The first unit is no surrogate, or a first half.
    rcases ofChar_cases c with ⟨v, hv, hs, -, -⟩ | ⟨high, low, hv, hh, -, -, -⟩
    · rw [hv, List.singleton_append] at h
      obtain ⟨rfl, -⟩ := List.cons.inj h
      rw [← Bool.not_eq_true]
      intro hl
      rw [isSurrogate_of_isLow hl] at hs
      exact Bool.noConfusion hs
    · rw [hv, List.cons_append] at h
      obtain ⟨rfl, -⟩ := List.cons.inj h
      rw [← Bool.not_eq_true]
      intro hl
      rw [isHigh_of_isLow hl] at hh
      exact Bool.noConfusion hh

/-- The last unit of a text is no first half. -/
theorem isHigh_last_encode {cs : List Char} {us : List UInt16} {u : UInt16}
    (h : encode cs = us ++ [u]) : isHigh u = false := by
  rcases cs.eq_nil_or_concat with rfl | ⟨ds, c, rfl⟩
  · exact absurd h.symm (List.append_ne_nil_of_right_ne_nil _ (List.cons_ne_nil _ _))
  rw [List.concat_eq_append, encode_append, encode_cons, encode_nil, List.append_nil] at h
  -- The last unit is no surrogate, or a second half.
  rcases ofChar_cases c with ⟨v, hv, hs, -, -⟩ | ⟨high, low, hv, -, hl, -, -⟩
  · rw [hv] at h
    obtain ⟨-, hu⟩ := List.append_inj' h rfl
    obtain ⟨rfl, -⟩ := List.cons.inj hu
    rw [← Bool.not_eq_true]
    intro hh
    rw [isSurrogate_of_isHigh hh] at hs
    exact Bool.noConfusion hs
  · rw [hv, List.append_cons] at h
    obtain ⟨-, hu⟩ := List.append_inj' h rfl
    obtain ⟨rfl, -⟩ := List.cons.inj hu
    exact isHigh_of_isLow hl

/-- Characters of which one's units start with the other's are the same. -/
theorem ofChar_append_inj {c d : Char} {us vs : List UInt16}
    (h : ofChar c ++ us = ofChar d ++ vs) : c = d ∧ us = vs := by
  rcases ofChar_cases c with ⟨u, hu, hs, hc, -⟩ | ⟨high, low, hu, hh, hl, hc, -⟩ <;>
    rcases ofChar_cases d with ⟨v, hv, ht, hd, -⟩ | ⟨high', low', hv, hh', hl', hd, -⟩ <;>
    rw [hu, hv] at h
  · obtain ⟨rfl, rfl⟩ := List.cons.inj h
    exact ⟨hc.symm.trans hd, rfl⟩
  · -- One unit against two: the same first unit would and would not be a surrogate.
    obtain ⟨rfl, -⟩ := List.cons.inj h
    rw [isSurrogate_of_isHigh hh'] at hs
    exact Bool.noConfusion hs
  · obtain ⟨rfl, -⟩ := List.cons.inj h
    rw [isSurrogate_of_isHigh hh] at ht
    exact Bool.noConfusion ht
  · simp only [List.cons_append, List.nil_append, List.cons.injEq] at h
    obtain ⟨h1, h2, hrest⟩ := h
    rw [h1, h2] at hc
    exact ⟨hc.symm.trans hd, hrest⟩

/-- A text is the start of another if and only if its units are the start of the other's. -/
theorem encode_prefix_iff {xs ys : List Char} : encode xs <+: encode ys ↔ xs <+: ys := by
  constructor
  · intro h
    induction xs generalizing ys with
    | nil => exact List.nil_prefix
    | cons x xs ih =>
      obtain ⟨us, hus⟩ := h
      cases ys with
      | nil =>
        rw [encode_nil, List.append_eq_nil_iff, encode_eq_nil_iff] at hus
        exact absurd hus.1 (List.cons_ne_nil _ _)
      | cons y ys =>
        rw [encode_cons, encode_cons, List.append_assoc] at hus
        obtain ⟨rfl, hrest⟩ := ofChar_append_inj hus
        exact (List.prefix_cons_inj x).mpr (ih ⟨us, hrest⟩)
  · rintro ⟨zs, rfl⟩
    rw [encode_append]
    exact List.prefix_append _ _

/-- The same, for the test that decides it. -/
theorem isPrefixOf_encode (xs ys : List Char) :
    (encode xs).isPrefixOf (encode ys) = xs.isPrefixOf ys := by
  rw [Bool.eq_iff_iff, List.isPrefixOf_iff_prefix, List.isPrefixOf_iff_prefix, encode_prefix_iff]

/-- Between the halves of a surrogate pair no text starts. -/
theorem isPrefixOf_encode_low {xs : List Char} (hx : xs ≠ []) {low : UInt16}
    (hl : isLow low = true) (us : List UInt16) : (encode xs).isPrefixOf (low :: us) = false := by
  cases h : encode xs with
  | nil => exact absurd (encode_eq_nil_iff.mp h) hx
  | cons u vs =>
    rw [List.isPrefixOf_cons_cons, Bool.and_eq_false_iff]
    left
    rw [beq_eq_false_iff_ne]
    rintro rfl
    rw [isLow_head_encode h] at hl
    exact Bool.noConfusion hl

/-- A text that is not empty occurs in the units of another where it occurs in the other. -/
theorem occurrence?_encode {xs : List Char} (hx : xs ≠ []) (ys : List Char) :
    occurrence? (encode xs) (encode ys) =
      (occurrence? xs ys).map fun n => length (ys.take n) := by
  have hxs : (encode xs).isEmpty = false := by
    rw [List.isEmpty_eq_false_iff]
    exact mt encode_eq_nil_iff.mp hx
  induction ys with
  | nil =>
    rw [encode_nil, occurrence?, occurrence?, hxs, List.isEmpty_eq_false_iff.mpr hx]
    rfl
  | cons y ys ih =>
    -- A search that goes on behind the first character finds what it finds there, so many units
    -- further on.
    have hmap : ((occurrence? xs ys).map (· + 1)).map (fun n => length ((y :: ys).take n)) =
        (occurrence? (encode xs) (encode ys)).map (width y + ·) := by
      rw [ih, Option.map_map, Option.map_map]
      rfl
    have hfirst := isPrefixOf_encode xs (y :: ys)
    rw [encode_cons] at hfirst ⊢
    rw [occurrence?]
    rcases ofChar_cases y with ⟨u, hu, -, -, hw⟩ | ⟨high, low, hu, -, hl, -, hw⟩
    · rw [hu, List.singleton_append] at hfirst ⊢
      rw [occurrence?, hfirst]
      split
      · rfl
      · rw [hmap, hw]
        exact Option.map_congr fun n _ => Nat.add_comm n 1
    · -- Two steps of the search, of which the second starts at the second half.
      rw [hu, List.cons_append, List.cons_append, List.nil_append] at hfirst ⊢
      rw [occurrence?, hfirst, occurrence?, isPrefixOf_encode_low hx hl, if_neg Bool.false_ne_true]
      split
      · rfl
      · rw [hmap, hw, Option.map_map]
        exact Option.map_congr fun n _ => Nat.add_comm n 2

/-- The same, for a search that starts one unit after the start: it finds nothing that starts with
the first character. -/
theorem occurrenceFrom?_encode_one {xs : List Char} (hx : xs ≠ []) (y : Char) (ys : List Char) :
    occurrenceFrom? (encode (y :: ys)) (encode xs) 1 =
      (occurrence? xs ys).map fun n => width y + length (ys.take n) := by
  have hxs : (encode xs).isEmpty = false := by
    rw [List.isEmpty_eq_false_iff]
    exact mt encode_eq_nil_iff.mp hx
  have hlen : ¬ (encode (y :: ys)).length < 1 := by
    have := width_pos y
    rw [length_encode, length_cons]
    omega
  rw [occurrenceFrom?, hxs, decide_eq_false hlen, Bool.or_false, if_neg Bool.false_ne_true,
    encode_cons]
  rcases ofChar_cases y with ⟨u, hu, -, -, hw⟩ | ⟨high, low, hu, -, hl, -, hw⟩
  · rw [hu, List.singleton_append, List.drop_one, List.tail_cons, occurrence?_encode hx,
      Option.map_map, hw]
    exact Option.map_congr fun n _ => Nat.add_comm _ 1
  · -- The search starts at the second half, where the text does not occur.
    rw [hu, List.cons_append, List.cons_append, List.nil_append, List.drop_one, List.tail_cons,
      occurrence?, isPrefixOf_encode_low hx hl, if_neg Bool.false_ne_true,
      occurrence?_encode hx, Option.map_map, Option.map_map, hw]
    exact Option.map_congr fun n _ => Nat.add_comm _ 2

/-! ## Positions -/

/-- One unit less before a position behind the second. -/
theorem splitsPair_cons_succ (u : UInt16) (us : List UInt16) (i : Nat) :
    splitsPair (u :: us) (i + 2) = splitsPair us (i + 1) := by
  cases us <;> rfl

/-- A pair is split at the position after a first half that a surrogate follows. -/
theorem splitsPair_append_cons (us : List UInt16) (u v : UInt16) (vs : List UInt16) :
    splitsPair (us ++ u :: v :: vs) (us.length + 1) = (isHigh u && isSurrogate v) := by
  induction us with
  | nil => rfl
  | cons w us ih => rw [List.cons_append, List.length_cons, splitsPair_cons_succ, ih]

/-- No pair is split at the start. -/
theorem splitsPair_zero (us : List UInt16) : splitsPair us 0 = false := by
  cases us with
  | nil => rfl
  | cons u us => cases us <;> rfl

/-- No pair is split at the end. -/
theorem splitsPair_length (us : List UInt16) : splitsPair us us.length = false := by
  induction us with
  | nil => rfl
  | cons u us ih =>
    cases us with
    | nil => rfl
    | cons v vs =>
      rw [List.length_cons, List.length_cons, splitsPair_cons_succ, ← List.length_cons, ih]

/-- No pair is split where a text ends, whatever follows. -/
theorem splitsPair_encode_append (cs : List Char) (vs : List UInt16) :
    splitsPair (encode cs ++ vs) (length cs) = false := by
  rw [← length_encode]
  cases vs with
  | nil => rw [List.append_nil, splitsPair_length]
  | cons v vs =>
    rcases (encode cs).eq_nil_or_concat with hnil | ⟨us, u, hu⟩
    · rw [hnil, List.length_nil, splitsPair_zero]
    · rw [List.concat_eq_append] at hu
      rw [hu, List.append_assoc, List.singleton_append, List.length_append, List.length_singleton,
        splitsPair_append_cons, isHigh_last_encode hu, Bool.false_and]

/-- A position at which a text can be cut in two. -/
def IsCut (cs : List Char) (i : Nat) : Prop :=
  ∃ xs ys, cs = xs ++ ys ∧ length xs = i

/-- A text can be cut where no pair is split. -/
theorem isCut_of_not_splitsPair {cs : List Char} {i : Nat}
    (h : splitsPair (encode cs) i = false) (hi : i ≤ length cs) : IsCut cs i := by
  induction cs generalizing i with
  | nil => exact ⟨[], [], rfl, (Nat.le_zero.mp hi).symm⟩
  | cons c cs ih =>
    rw [length_cons] at hi
    by_cases hi0 : i = 0
    · exact ⟨[], c :: cs, rfl, hi0.symm⟩
    -- The position is behind the first character, and splits no pair of the rest.
    have hrest : splitsPair (encode cs) (i - width c) = false ∧ width c ≤ i := by
      rw [encode_cons] at h
      rcases ofChar_cases c with ⟨u, hu, -, -, hw⟩ | ⟨high, low, hu, hh, hl, -, hw⟩
      · obtain ⟨k, rfl⟩ : ∃ k, i = k + 1 := ⟨i - 1, by omega⟩
        rw [hu, List.singleton_append] at h
        rw [hw, Nat.add_sub_cancel]
        cases k with
        | zero => exact ⟨splitsPair_zero _, by omega⟩
        | succ k => exact ⟨by rwa [splitsPair_cons_succ] at h, by omega⟩
      · rw [hu, List.cons_append, List.cons_append, List.nil_append] at h
        match i, hi0 with
        | 1, _ =>
          -- Between the halves of the first character a pair would be split.
          rw [splitsPair, hh, isSurrogate_of_isLow hl] at h
          exact Bool.noConfusion h
        | 2, _ =>
          rw [hw]
          exact ⟨splitsPair_zero _, Nat.le_refl _⟩
        | k + 3, _ =>
          rw [splitsPair_cons_succ, splitsPair_cons_succ] at h
          rw [hw]
          exact ⟨h, by omega⟩
    obtain ⟨xs, ys, rfl, hxs⟩ := ih hrest.1 (by omega)
    exact ⟨c :: xs, ys, rfl, by rw [length_cons, hxs]; omega⟩

/-- Of two cuts of one text the one at the lower position comes first. -/
theorem exists_append_of_length_le {as bs cs ds : List Char} (h : as ++ bs = cs ++ ds)
    (hl : length as ≤ length cs) : ∃ mid, cs = as ++ mid ∧ bs = mid ++ ds := by
  rcases List.append_eq_append_iff.mp h with ⟨mid, hcs, hbs⟩ | ⟨mid, has, hds⟩
  · exact ⟨mid, hcs, hbs⟩
  · rw [has, length_append] at hl
    -- If it were the other way round they would be the same cut.
    have hmid : mid = [] := length_eq_zero_iff.mp (by omega)
    rw [hmid, List.append_nil] at has
    rw [hmid, List.nil_append] at hds
    exact ⟨[], by rw [has, List.append_nil], hds.symm⟩

/-- A cut is in the text. -/
theorem IsCut.le {cs : List Char} {i : Nat} (h : IsCut cs i) : i ≤ length cs := by
  obtain ⟨xs, ys, rfl, rfl⟩ := h
  rw [length_append]
  exact Nat.le_add_right _ _

/-- A cut is one of the text with more behind it. -/
theorem IsCut.append {cs : List Char} {i : Nat} (h : IsCut cs i) (more : List Char) :
    IsCut (cs ++ more) i := by
  obtain ⟨xs, ys, rfl, rfl⟩ := h
  exact ⟨xs, ys ++ more, List.append_assoc xs ys more, rfl⟩

/-- A cut of a text, moved into a piece of it, is a cut of the piece. -/
theorem IsCut.inside {before cs after : List Char} {i : Nat}
    (h : IsCut (before ++ (cs ++ after)) i) : IsCut cs (min (i - length before) (length cs)) := by
  obtain ⟨xs, ys, hcut, rfl⟩ := h
  by_cases hbefore : length xs ≤ length before
  · refine ⟨[], cs, rfl, ?_⟩
    rw [Nat.sub_eq_zero_of_le hbefore, Nat.zero_min]
    rfl
  obtain ⟨mid, rfl, hmid⟩ := exists_append_of_length_le hcut (by omega)
  rw [length_append, Nat.add_sub_cancel_left]
  by_cases hafter : length cs ≤ length mid
  · refine ⟨cs, [], (List.append_nil cs).symm, ?_⟩
    rw [Nat.min_eq_right hafter]
  · obtain ⟨rest, rfl, -⟩ := exists_append_of_length_le hmid.symm (by omega)
    refine ⟨mid, rest, rfl, ?_⟩
    rw [Nat.min_eq_left (by omega)]

/-- A cut before a piece that is taken out stays where it is. -/
theorem IsCut.erase_of_le {xs ys zs : List Char} {i : Nat} (h : IsCut (xs ++ (ys ++ zs)) i)
    (hle : i ≤ length xs) : IsCut (xs ++ zs) i := by
  obtain ⟨as, bs, hcut, rfl⟩ := h
  obtain ⟨mid, rfl, -⟩ := exists_append_of_length_le hcut.symm hle
  exact ⟨as, mid ++ zs, List.append_assoc as mid zs, rfl⟩

/-- A cut behind the piece moves with the text. -/
theorem IsCut.erase_of_ge {xs ys zs : List Char} {i : Nat} (h : IsCut (xs ++ (ys ++ zs)) i)
    (hge : length xs + length ys ≤ i) : IsCut (xs ++ zs) (i - length ys) := by
  obtain ⟨as, bs, hcut, rfl⟩ := h
  rw [← List.append_assoc] at hcut
  obtain ⟨mid, rfl, rfl⟩ := exists_append_of_length_le hcut (by rw [length_append]; exact hge)
  refine ⟨xs ++ mid, bs, (List.append_assoc xs mid bs).symm, ?_⟩
  simp only [length_append]
  omega

/-- A position of a text is at no character boundary if a pair is split there. -/
theorem not_isCut_of_splitsPair {cs : List Char} {i : Nat}
    (h : splitsPair (encode cs) i = true) : ¬ IsCut cs i := by
  rintro ⟨xs, ys, rfl, rfl⟩
  rw [encode_append, splitsPair_encode_append] at h
  exact Bool.false_ne_true h

/-- Between two cuts lies a piece of the text. -/
theorem IsCut.exists_piece {cs : List Char} {i j : Nat} (hi : IsCut cs i) (hj : IsCut cs j)
    (hlt : i < j) :
    ∃ xs ys zs, cs = xs ++ (ys ++ zs) ∧ ys ≠ [] ∧ length xs = i ∧ i + length ys = j := by
  obtain ⟨xs, rest, hcs, rfl⟩ := hi
  obtain ⟨upto, zs, hcs', rfl⟩ := hj
  obtain ⟨ys, rfl, rfl⟩ := exists_append_of_length_le (hcs.symm.trans hcs') (by omega)
  rw [length_append] at hlt ⊢
  refine ⟨xs, ys, zs, hcs, ?_, rfl, rfl⟩
  rintro rfl
  rw [length_nil] at hlt
  omega

/-- A character that starts inside a piece of a text is one of it. -/
theorem mem_of_inside {xs ys zs as bs : List Char} {c : Char}
    (h : xs ++ (ys ++ zs) = as ++ c :: bs) (hle : length xs ≤ length as)
    (hlt : length as < length xs + length ys) : c ∈ ys := by
  obtain ⟨mid, rfl, hmid⟩ := exists_append_of_length_le h hle
  rw [length_append] at hlt
  obtain ⟨more, rfl, hmore⟩ := exists_append_of_length_le hmid.symm (by omega)
  cases more with
  | nil =>
    rw [List.append_nil] at hlt
    omega
  | cons d more =>
    obtain ⟨rfl, -⟩ := List.cons.inj hmore
    exact List.mem_append_right mid List.mem_cons_self

/-- Cuts of one text at the same position are the same cut. -/
theorem append_inj_of_length {as bs cs ds : List Char} (h : as ++ bs = cs ++ ds)
    (hl : length as = length cs) : as = cs ∧ bs = ds := by
  have henc : encode as ++ encode bs = encode cs ++ encode ds := by
    rw [← encode_append, h, encode_append]
  -- As units they are cuts at one place of one list.
  obtain ⟨h1, h2⟩ := List.append_inj henc (by rw [length_encode, length_encode, hl])
  exact ⟨encode_injective h1, encode_injective h2⟩

/-- The characters of a text that end at a position or before it. -/
def takeUnits : Nat → List Char → List Char
  | _, [] => []
  | n, c :: cs => if width c ≤ n then c :: takeUnits (n - width c) cs else []

@[simp] theorem takeUnits_zero (cs : List Char) : takeUnits 0 cs = [] := by
  cases cs with
  | nil => rfl
  | cons c cs => rw [takeUnits, if_neg (Nat.not_le.mpr (width_pos c))]

/-- Behind a piece of the text the characters of the rest are taken. -/
theorem takeUnits_append {n : Nat} {xs : List Char} (h : length xs ≤ n) (ys : List Char) :
    takeUnits n (xs ++ ys) = xs ++ takeUnits (n - length xs) ys := by
  induction xs generalizing n with
  | nil => rfl
  | cons x xs ih =>
    rw [length_cons] at h
    rw [List.cons_append, takeUnits, if_pos (by omega), ih (by omega), length_cons,
      List.cons_append, Nat.sub_add_eq]

/-- The characters before the end of a piece of the text are that piece. -/
@[simp] theorem takeUnits_length (xs ys : List Char) : takeUnits (length xs) (xs ++ ys) = xs := by
  rw [takeUnits_append (Nat.le_refl _), Nat.sub_self, takeUnits_zero, List.append_nil]

/-! ## Units of any kind -/

/-- The number of the character of a valid code point is that code point. -/
theorem toNat_ofNat_of_isValidChar {n : Nat} (h : n.isValidChar) : (Char.ofNat n).toNat = n := by
  rw [Char.ofNat, dif_pos h]
  rfl

/-- A unit that is no surrogate gives a character of which it is the unit. -/
theorem ofChar_single {u : UInt16} (h : isSurrogate u = false) : ofChar (single u) = [u] := by
  have hn : u.toNat < 0xD800 ∨ 0xDFFF < u.toNat := by
    rw [← Bool.not_eq_true, isSurrogate_iff] at h
    omega
  have hu := u.toNat_lt
  have hvalid : u.toNat.isValidChar := by
    unfold Nat.isValidChar
    omega
  have hc := toNat_ofNat_of_isValidChar hvalid
  rw [single, h, if_neg Bool.false_ne_true, ofChar_of_lt (by rw [hc]; exact hu), hc,
    UInt16.ofNat_toNat]

/-- A surrogate pair gives a character of which it is the units. -/
theorem ofChar_joined {high low : UInt16} (hh : isHigh high = true) (hl : isLow low = true) :
    ofChar (joined high low) = [high, low] := by
  rw [isHigh_iff] at hh
  rw [isLow_iff] at hl
  have hvalid : (0x10000 + (high.toNat - 0xD800) * 0x400 + (low.toNat - 0xDC00)).isValidChar := by
    unfold Nat.isValidChar
    omega
  have hc : (joined high low).toNat =
      0x10000 + (high.toNat - 0xD800) * 0x400 + (low.toNat - 0xDC00) := by
    rw [joined, toNat_ofNat_of_isValidChar hvalid]
  have hhigh : 0xD800 + ((joined high low).toNat - 0x10000) / 0x400 = high.toNat := by omega
  have hlow : 0xDC00 + ((joined high low).toNat - 0x10000) % 0x400 = low.toNat := by omega
  rw [ofChar_of_ge (by omega), hhigh, hlow, UInt16.ofNat_toNat, UInt16.ofNat_toNat]

end MessageMarkup.Utf16
