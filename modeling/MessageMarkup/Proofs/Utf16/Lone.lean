import MessageMarkup.Proofs.Utf16.WellFormed

/-!
# Surrogates without their partners

Any units can be read as a text, and the text can be written as units again. `encode_decode` says
what comes of that: the same units, but for each surrogate without its partner, which has become
U+FFFD. So reading moves nothing, whatever the units are, and `toText_in_place` puts this together
with what holds of the units of a text.

A pair is seen by two units next to each other (`Between`). High and low surrogates are different
units, so a unit is in one pair at most, and whether it is in one does not depend on where reading
began.
-/

namespace MessageMarkup.Utf16

/-! ## Positions between two units -/

/-- A unit of one sort is right before a position, and one of another sort right behind it. -/
def Between (before after : UInt16 → Bool) (us : List UInt16) (i : Nat) : Prop :=
  0 < i ∧ us[i - 1]?.any before = true ∧ us[i]?.any after = true

instance (before after : UInt16 → Bool) (us : List UInt16) (i : Nat) :
    Decidable (Between before after us i) :=
  inferInstanceAs (Decidable (_ ∧ _ ∧ _))

/-- A position between the halves of a pair. -/
def InsidePair : List UInt16 → Nat → Prop :=
  Between isHigh isLow

instance (us : List UInt16) (i : Nat) : Decidable (InsidePair us i) :=
  inferInstanceAs (Decidable (Between _ _ us i))

section

variable {before after : UInt16 → Bool} {u v : UInt16} {us : List UInt16} {i : Nat}

/-- No unit is before the start. -/
theorem not_between_zero : ¬ Between before after us 0 :=
  fun h => Nat.lt_irrefl 0 h.1

/-- Behind the first unit, the first two are next to the position. -/
theorem between_cons_cons_one :
    Between before after (u :: v :: us) 1 ↔ before u = true ∧ after v = true := by
  simp [Between]

/-- Nothing is behind the end. -/
theorem not_between_singleton_one : ¬ Between before after [u] 1 := by
  simp [Between]

/-- One unit less before a position behind the second. -/
theorem between_cons_add_two :
    Between before after (u :: us) (i + 2) ↔ Between before after us (i + 1) := by
  simp [Between]

/-- A position between two units is not behind the last one. -/
theorem Between.lt_length (h : Between before after us i) : i < us.length := by
  obtain ⟨v, hv, -⟩ := (Option.any_eq_true _ _).mp h.2.2
  exact (List.getElem?_eq_some_iff.mp hv).1

/-- A unit that is no first half has no pair's second half behind it. -/
theorem not_insidePair_cons_one (hu : isHigh u = false) : ¬ InsidePair (u :: us) 1 := by
  rintro ⟨-, hhigh, -⟩
  exact Bool.false_ne_true (hu.symm.trans hhigh)

end

/-! ## Halves without the other half -/

/-- The unit at a position is a surrogate, and the other half of a pair is not next to it. -/
def Lone (us : List UInt16) (i : Nat) : Prop :=
  us[i]?.any isSurrogate = true ∧ ¬ InsidePair us i ∧ ¬ InsidePair us (i + 1)

instance (us : List UInt16) (i : Nat) : Decidable (Lone us i) :=
  inferInstanceAs (Decidable (_ ∧ _ ∧ _))

/-- Units with U+FFFD in place of each surrogate without its other half. -/
def mended (us : List UInt16) : List UInt16 :=
  us.mapIdx fun i u => if Lone us i then 0xFFFD else u

section

variable {u v high low : UInt16} {us : List UInt16} {i : Nat}

/-- The unit at a position is mended by itself. -/
theorem getElem?_mended (us : List UInt16) (i : Nat) :
    (mended us)[i]? = us[i]?.map fun u => if Lone us i then 0xFFFD else u :=
  List.getElem?_mapIdx

/-- A mended unit is of a sort that U+FFFD is not of just if it was before and was not replaced. -/
theorem any_mended {p : UInt16 → Bool} (hp : p 0xFFFD = false) :
    (mended us)[i]?.any p = true ↔ us[i]?.any p = true ∧ ¬ Lone us i := by
  rw [getElem?_mended, Option.any_map]
  by_cases h : Lone us i
  · simp [h, hp]
  · simp [h]

/-- A surrogate at the start is without its other half if that is not right behind it. -/
theorem lone_cons_zero :
    Lone (u :: us) 0 ↔ isSurrogate u = true ∧ ¬ InsidePair (u :: us) 1 := by
  unfold Lone
  rw [List.getElem?_cons_zero, Option.any_some]
  exact and_congr_right fun _ => and_iff_right not_between_zero

/-- Any other is so just if it is in the rest, unless it ends a pair at the start. -/
theorem lone_cons_succ (h : i = 0 → ¬ InsidePair (u :: us) 1) :
    Lone (u :: us) (i + 1) ↔ Lone us i := by
  have hleft : InsidePair (u :: us) (i + 1) ↔ InsidePair us i := by
    cases i with
    | zero => exact iff_of_false (h rfl) not_between_zero
    | succ i => exact between_cons_add_two
  have hright : InsidePair (u :: us) (i + 2) ↔ InsidePair us (i + 1) := between_cons_add_two
  unfold Lone
  rw [List.getElem?_cons_succ, hleft, hright]

/-- Behind a unit that starts no pair, the rest is mended as it would be by itself. -/
theorem mended_cons (h : ¬ InsidePair (u :: us) 1) :
    mended (u :: us) = (if isSurrogate u then 0xFFFD else u) :: mended us := by
  have hrest (i : Nat) : Lone (u :: us) (i + 1) ↔ Lone us i := lone_cons_succ fun _ => h
  have hfirst : Lone (u :: us) 0 ↔ isSurrogate u = true := lone_cons_zero.trans (and_iff_left h)
  unfold mended
  rw [List.mapIdx_cons]
  simp only [hrest, hfirst]

/-- A pair stays, and the rest is mended as it would be by itself. -/
theorem mended_pair (hh : isHigh high = true) (hl : isLow low = true) (us : List UInt16) :
    mended (high :: low :: us) = high :: low :: mended us := by
  have hpair : InsidePair (high :: low :: us) 1 := between_cons_cons_one.mpr ⟨hh, hl⟩
  have hfirst : ¬ Lone (high :: low :: us) 0 := fun h => (lone_cons_zero.mp h).2 hpair
  have hsecond : ¬ Lone (high :: low :: us) 1 := fun h => h.2.1 hpair
  -- A second half starts no other pair.
  have hrest (i : Nat) : Lone (high :: low :: us) (i + 1 + 1) ↔ Lone us i :=
    (lone_cons_succ fun h => absurd h (Nat.succ_ne_zero i)).trans
      (lone_cons_succ fun _ => not_insidePair_cons_one (isHigh_of_isLow hl))
  unfold mended
  rw [List.mapIdx_cons, List.mapIdx_cons, if_neg hfirst, if_neg hsecond]
  simp only [hrest]

/-! ## Reading and writing -/

/-- A unit that is read by itself is written as it was, or as U+FFFD if it is a surrogate. -/
theorem ofChar_single_eq (u : UInt16) :
    ofChar (single u) = [if isSurrogate u then 0xFFFD else u] := by
  cases hs : isSurrogate u with
  | false => exact ofChar_single hs
  | true =>
    rw [single, hs, if_pos rfl]
    rfl

/-- Units that have been read are written as they were, with U+FFFD in place of each surrogate
without its other half. -/
theorem encode_decode (us : List UInt16) : encode (decode us) = mended us := by
  fun_induction decode us with
  | case1 => rfl
  | case2 u =>
    rw [mended_cons not_between_singleton_one, encode_cons, ofChar_single_eq]
    rfl
  | case3 high low rest h ih =>
    rw [Bool.and_eq_true] at h
    rw [mended_pair h.1 h.2, encode_cons, ofChar_joined h.1 h.2, ih]
    rfl
  | case4 high low rest h ih =>
    rw [Bool.and_eq_true] at h
    have hfirst : ¬ InsidePair (high :: low :: rest) 1 := mt between_cons_cons_one.mp h
    rw [mended_cons hfirst, encode_cons, ofChar_single_eq, ih, List.singleton_append]

/-- Reading moves nothing: the characters are as long as the units were. -/
theorem length_decode (us : List UInt16) : length (decode us) = us.length := by
  rw [← length_encode, encode_decode, mended, List.length_mapIdx]

/-- Units are well-formed if and only if no surrogate in them is without its other half. -/
theorem wellFormed_iff_forall_not_lone : WellFormed us ↔ ∀ i, ¬ Lone us i := by
  rw [wellFormed_iff, encode_decode]
  constructor
  · intro h i hlone
    -- The unit in its place is no surrogate, so it is another one than before.
    obtain ⟨u, hu, hsurrogate⟩ := (Option.any_eq_true _ _).mp hlone.1
    have hunit := getElem?_mended us i
    rw [h, hu, Option.map_some, if_pos hlone, Option.some_inj] at hunit
    rw [hunit] at hsurrogate
    exact absurd hsurrogate (by decide)
  · intro h
    unfold mended
    simp only [h, if_false]
    exact List.mapIdx_eq_iff.mpr fun i => Option.map_id'.symm

end

/-- The units of a text give it back, and there are as many as its length says. Any units give a
text of as many units, and this is written with the same units, but for each surrogate without its
other half, which has become U+FFFD. So nothing is lost just if the units are well-formed, and
nothing more is lost a second time. -/
theorem toText_in_place :
    (∀ text : String,
      toText (ofText text) = text ∧ length text.toList = (ofText text).length) ∧
    ∀ us : List UInt16,
      length (toText us).toList = us.length ∧
        ofText (toText us) = us.mapIdx (fun i u => if Lone us i then 0xFFFD else u) ∧
        (ofText (toText us) = us ↔ WellFormed us) ∧
        toText (ofText (toText us)) = toText us := by
  refine ⟨fun text => ⟨toText_ofText text, (length_encode _).symm⟩, fun us => ?_⟩
  have hwritten : ofText (toText us) = encode (decode us) := by
    rw [ofText, toText, String.toList_ofList]
  refine ⟨?_, ?_, ?_, toText_ofText _⟩
  · rw [toText, String.toList_ofList, length_decode]
  · exact hwritten.trans (encode_decode us)
  · rw [hwritten, wellFormed_iff]

/-- A high surrogate before a pair, two low ones behind it, and a high one at the end. -/
example :
    let us : List UInt16 := [0xD83D, 0xD83D, 0xDC4B, 0xDC4B, 0xDFFF, 0x61, 0xDBFF]
    ofText (toText us) = [0xFFFD, 0xD83D, 0xDC4B, 0xFFFD, 0xFFFD, 0x61, 0xFFFD] := by
  decide

end MessageMarkup.Utf16
