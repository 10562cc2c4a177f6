import MessageMarkup.Proofs.Link.Tables
import MessageMarkup.Proofs.Utf16.Lone

/-!
# Where characters start

There are two ways to ask whether a position of some units is between characters. A reader of links
reads the units as a text and takes the positions at which a character starts (`offsets`); a writer
of markup looks at the two units next to the position (`splitsPair`). `splitsPair_iff_starts`
compares them for any units. Inside the units, no character starts just between the halves of a
pair, and there `splitsPair` is true. It is also true between two high surrogates, where a character
does start, because the first one has no other half. The units of a text have no such place, so for
them both come to the same.
-/

namespace MessageMarkup.Utf16

variable {us : List UInt16} {cs : List Char} {i : Nat}

/-- A character starts where a text can be cut, but not at the end. -/
theorem mem_offsets_width_iff_isCut : i ∈ offsets width 0 cs ↔ IsCut cs i ∧ i < length cs := by
  rw [mem_offsets_width_iff]
  constructor
  · rintro ⟨as, bs, rfl, hbs, rfl⟩
    have hpos := length_pos hbs
    refine ⟨⟨as, bs, rfl, rfl⟩, ?_⟩
    rw [length_append]
    omega
  · rintro ⟨⟨as, bs, rfl, rfl⟩, hlt⟩
    refine ⟨as, bs, rfl, ?_, rfl⟩
    rintro rfl
    rw [List.append_nil] at hlt
    exact Nat.lt_irrefl _ hlt

/-! ## Positions at which a pair is split -/

/-- A surrogate is a high one or a low one. -/
theorem isSurrogate_iff_isLow_or_isHigh {u : UInt16} :
    isSurrogate u = true ↔ isLow u = true ∨ isHigh u = true := by
  rw [isSurrogate_iff, isHigh_iff, isLow_iff]
  omega

/-- A pair is split where a high surrogate is before the position and any surrogate behind it. -/
theorem splitsPair_iff_between : splitsPair us i = true ↔ Between isHigh isSurrogate us i := by
  induction us generalizing i with
  | nil => simp [splitsPair, Between]
  | cons u us ih =>
    rcases i with _ | _ | i
    · rw [splitsPair_zero]
      exact iff_of_false Bool.false_ne_true not_between_zero
    · -- The position is behind the first unit, so it depends on whether there is a second.
      cases us with
      | nil => exact iff_of_false Bool.false_ne_true not_between_singleton_one
      | cons v us => rw [splitsPair, Bool.and_eq_true, between_cons_cons_one]
    · rw [splitsPair_cons_succ, ih, between_cons_add_two]

/-- The second surrogate is low, and there is a pair, or it is high. -/
theorem between_isSurrogate_iff :
    Between isHigh isSurrogate us i ↔ InsidePair us i ∨ Between isHigh isHigh us i := by
  have hsurrogate : us[i]?.any isSurrogate = true ↔
      us[i]?.any isLow = true ∨ us[i]?.any isHigh = true := by
    cases us[i]? with
    | none => simp
    | some u => exact isSurrogate_iff_isLow_or_isHigh
  unfold InsidePair Between
  rw [hsurrogate, and_or_left, and_or_left]

/-- A unit is not both low and high. -/
theorem not_isLow_of_isHigh {unit? : Option UInt16} (h : unit?.any isHigh = true) :
    ¬ unit?.any isLow = true := by
  cases unit? with
  | none => exact absurd h Bool.false_ne_true
  | some u => exact fun hlow => Bool.false_ne_true ((isHigh_of_isLow hlow).symm.trans h)

/-- Before a position that is inside no pair, a high surrogate is without its other half. -/
theorem lone_of_isHigh (h : us[i]?.any isHigh = true) (hpair : ¬ InsidePair us (i + 1)) :
    Lone us i := by
  obtain ⟨u, hu, hhigh⟩ := (Option.any_eq_true _ _).mp h
  refine ⟨?_, fun hinside => not_isLow_of_isHigh h hinside.2.2, hpair⟩
  rw [hu]
  exact isSurrogate_of_isHigh hhigh

/-- Between two high surrogates no pair has its halves. -/
theorem Between.not_insidePair (h : Between isHigh isHigh us i) : ¬ InsidePair us i :=
  fun hinside => not_isLow_of_isHigh h.2.2 hinside.2.2

/-- Once units have been read and written, pairs are split just inside the pairs they had. -/
theorem splitsPair_encode_decode :
    splitsPair (encode (decode us)) i = true ↔ InsidePair us i := by
  rw [encode_decode, splitsPair_iff_between, Between, any_mended (by decide),
    any_mended (by decide)]
  constructor
  · rintro ⟨hpos, ⟨hhigh, hlone⟩, -⟩
    by_contra hpair
    refine hlone (lone_of_isHigh hhigh ?_)
    rwa [Nat.sub_add_cancel hpos]
  · intro hpair
    have hpos := hpair.1
    -- Both halves have the other half next to them, so neither was replaced.
    refine ⟨hpos, ⟨hpair.2.1, fun hlone => hlone.2.2 ?_⟩, ?_, fun hlone => hlone.2.1 hpair⟩
    · rwa [Nat.sub_add_cancel hpos]
    · exact (between_isSurrogate_iff.mpr (.inl hpair)).2.2

/-- A character of what was read starts at each unit but the second halves of pairs. -/
theorem mem_offsets_decode_iff :
    i ∈ offsets width 0 (decode us) ↔ i < us.length ∧ ¬ InsidePair us i := by
  rw [mem_offsets_width_iff_isCut, length_decode, and_comm, ← splitsPair_encode_decode]
  refine and_congr_right fun hlt => ⟨fun hcut hsplit => not_isCut_of_splitsPair hsplit hcut,
    fun hsplit => isCut_of_not_splitsPair (Bool.eq_false_iff.mpr hsplit) ?_⟩
  rw [length_decode]
  exact hlt.le

/-- In the units of a text no two high surrogates follow each other. -/
theorem not_between_isHigh_encode (cs : List Char) : ¬ Between isHigh isHigh (encode cs) i := by
  intro h
  refine wellFormed_iff_forall_not_lone.mp (wellFormed_encode cs) (i - 1)
    (lone_of_isHigh h.2.1 ?_)
  rw [Nat.sub_add_cancel h.1]
  exact h.not_insidePair

/-- A position is inside a pair just if it is between two units and no character starts there. -/
theorem insidePair_iff :
    InsidePair us i ↔ 0 < i ∧ i < us.length ∧ i ∉ offsets width 0 (decode us) := by
  rw [mem_offsets_decode_iff]
  constructor
  · exact fun h => ⟨h.1, Between.lt_length h, fun hstart => hstart.2 h⟩
  · rintro ⟨-, hlt, hstart⟩
    by_contra hpair
    exact hstart ⟨hlt, hpair⟩

/-- A pair counts as split inside a pair and between two high surrogates. -/
theorem splitsPair_iff :
    splitsPair us i = true ↔ InsidePair us i ∨ Between isHigh isHigh us i :=
  splitsPair_iff_between.trans between_isSurrogate_iff

/-- In any units a position is inside a pair just if it is one between units at which no character
starts when they are read; links are looked for at those at which one does. A pair counts as split
just inside a pair, unless the position is between two high surrogates. In the units of a text it
never is, so there a pair counts as split just where no character starts. -/
theorem splitsPair_iff_starts (us : List UInt16) (i : Nat) :
    (InsidePair us i ↔ 0 < i ∧ i < us.length ∧ i ∉ offsets width 0 (decode us)) ∧
    (i ∈ offsets width 0 (decode us) ↔
      (LinkPattern.placeAt? none (decode us) i).isSome = true) ∧
    ((splitsPair us i = true ↔ InsidePair us i) ↔ ¬ Between isHigh isHigh us i) ∧
    ∀ text : String, splitsPair (ofText text) i = true ↔
      0 < i ∧ i < (ofText text).length ∧ i ∉ offsets width 0 text.toList := by
  refine ⟨insidePair_iff, LinkPattern.isSome_placeAt?_iff.symm, ?_, fun text => ?_⟩
  · rw [splitsPair_iff, or_iff_left_iff_imp]
    exact ⟨fun h hhigh => hhigh.not_insidePair (h hhigh), fun h hhigh => absurd hhigh h⟩
  · have hread : decode (ofText text) = text.toList := decode_encode _
    have hhigh : ¬ Between isHigh isHigh (ofText text) i := not_between_isHigh_encode _
    rw [splitsPair_iff, or_iff_left hhigh, insidePair_iff, hread]

/-- Between two high surrogates a pair counts as split, but there is none, and the second is read as
a character of its own. -/
theorem splitsPair_starts_ne :
    let us : List UInt16 := [0xD800, 0xD800]
    splitsPair us 1 = true ∧ ¬ InsidePair us 1 ∧ decode us = [replacement, replacement] ∧
      ¬ (0 < 1 ∧ 1 < us.length ∧ 1 ∉ offsets width 0 (decode us)) := by
  decide

end MessageMarkup.Utf16
