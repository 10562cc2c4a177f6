import Mathlib.Data.List.TakeDrop
import Mathlib.Data.List.TakeWhile
import Mathlib.Tactic.SplitIfs
import MessageMarkup.Json.Printer
import MessageMarkup.Json.Reader

/-!
# What is written is read

The smallest parts of a document are read as what they were written for: a string, whatever its
characters are (`readString_stringText`), and an integer of 64 bits, if what stands behind it does
not go on with the number (`readNumber_integerText`). In front of each there may be white space.
-/

namespace MessageMarkup.Json

/-- What has been read is read on. -/
@[simp] theorem ok_bind {α β : Type} (a : α) (f : α → Except Fault β) :
    (Except.ok a >>= f) = f a := rfl

/-! ## White space -/

/-- White space and nothing else. -/
def IsGap (ws : List Char) : Prop :=
  afterBlanks ws = []

instance (ws : List Char) : Decidable (IsGap ws) :=
  inferInstanceAs (Decidable (afterBlanks ws = []))

/-- No white space is white space and nothing else. -/
theorem isGap_nil : IsGap [] := rfl

/-- White space is passed over. -/
theorem afterBlanks_append {ws : List Char} (h : IsGap ws) (cs : List Char) :
    afterBlanks (ws ++ cs) = afterBlanks cs := by
  unfold IsGap afterBlanks at h
  unfold afterBlanks
  rw [List.dropWhile_append, h]
  rfl

/-- What is not white space is not passed over. -/
theorem afterBlanks_cons {c : Char} (h : ¬ IsGap [c]) (cs : List Char) :
    afterBlanks (c :: cs) = c :: cs := by
  unfold IsGap afterBlanks at h
  unfold afterBlanks
  rw [List.dropWhile_cons] at h ⊢
  split at h
  · exact absurd rfl h
  · rename_i hc
    rw [if_neg hc]

/-- White space is passed over up to the first character that is none. -/
theorem afterBlanks_append_cons {ws : List Char} (h : IsGap ws) {c : Char} (hc : ¬ IsGap [c])
    (cs : List Char) : afterBlanks (ws ++ c :: cs) = c :: cs := by
  rw [afterBlanks_append h, afterBlanks_cons hc]

/-- The characters that are white space. -/
theorem isGap_singleton {c : Char} :
    IsGap [c] ↔ c = ' ' ∨ c = '\n' ∨ c = '\t' ∨ c = '\r' := by
  unfold IsGap afterBlanks
  rw [List.dropWhile_eq_nil_iff]
  simp [or_assoc]

/-- White space starts with white space. -/
theorem IsGap.head {c : Char} {ws : List Char} (h : IsGap (c :: ws)) : IsGap [c] := by
  by_contra hc
  unfold IsGap at h
  rw [afterBlanks_cons hc] at h
  exact List.cons_ne_nil c ws h

/-- A line break and spaces are white space. -/
theorem isGap_newline (level : Nat) : IsGap (newline level) := by
  unfold IsGap afterBlanks newline
  rw [List.dropWhile_eq_nil_iff]
  intro c hc
  rcases List.mem_cons.mp hc with rfl | hc
  · rfl
  · rw [List.eq_of_mem_replicate hc]
    rfl

/-! ## Strings -/

/-- The number of a control character is read as that character. -/
theorem hexUnit?_hexDigit : ∀ n < 0x20,
    hexUnit? '0' '0' (hexDigit (n / 16)) (hexDigit (n % 16)) = some (UInt16.ofNat n) ∧
      Utf16.isHigh (UInt16.ofNat n) = false ∧ Utf16.isLow (UInt16.ofNat n) = false ∧
      Utf16.single (UInt16.ofNat n) = Char.ofNat n := by
  decide

variable {strict : Bool}

/-- A character behind a backslash is read as what it stands for. -/
theorem readString_escaped {x y : Char} (hx : x ≠ 'u') (hy : escaped? x = some y)
    (cs : List Char) :
    readString strict ('\\' :: x :: cs) = prepend y (readString strict cs) := by
  rw [readString]
  · rw [hy]
  all_goals simp [hx]

/-- Any other character is read as itself. -/
theorem readString_plain {c : Char} (hquote : c ≠ '"') (hback : c ≠ '\\')
    (hcontrol : ¬ c.toNat < 0x20) (cs : List Char) :
    readString strict (c :: cs) = prepend c (readString strict cs) := by
  rw [readString]
  · rw [if_neg hcontrol]
  all_goals simp [hquote, hback]

/-- A character of a string is read as itself, escaped or not. -/
theorem readString_stringChar (c : Char) (cs : List Char) :
    readString strict (stringChar c ++ cs) = prepend c (readString strict cs) := by
  unfold stringChar
  split_ifs with hquote hback hb ht hn hf hr hcontrol
  · rw [hquote]
    exact readString_escaped (by decide) rfl cs
  · rw [hback]
    exact readString_escaped (by decide) rfl cs
  · rw [hb]
    exact readString_escaped (by decide) rfl cs
  · rw [ht]
    exact readString_escaped (by decide) rfl cs
  · rw [hn]
    exact readString_escaped (by decide) rfl cs
  · rw [hf]
    exact readString_escaped (by decide) rfl cs
  · rw [hr]
    exact readString_escaped (by decide) rfl cs
  · -- Other control characters are written by their numbers.
    obtain ⟨hunit, hhigh, hlow, hsingle⟩ := hexUnit?_hexDigit c.toNat hcontrol
    simp only [List.cons_append, List.nil_append]
    rw [readString, hunit]
    simp only [hhigh, hlow, Bool.and_false, Bool.false_eq_true, if_false, hsingle, Char.ofNat_toNat]
  · exact readString_plain hquote hback hcontrol cs

/-- A string is read as itself, up to its closing quote. -/
theorem readString_flatMap (s rest : List Char) :
    readString strict (s.flatMap stringChar ++ '"' :: rest) = .ok (s, rest) := by
  induction s with
  | nil => rfl
  | cons c s ih =>
    rw [List.flatMap_cons, List.append_assoc, readString_stringChar, ih]
    rfl

/-- Whatever is made of a string is made of the string that was written. -/
theorem map_readString {α : Type} (f : String → α) (s : String) (rest : List Char) :
    ((readString strict (s.toList.flatMap stringChar ++ '"' :: rest)).map fun (cs, rest) =>
      (f (String.ofList cs), rest)) = .ok (f s, rest) := by
  rw [readString_flatMap]
  show Except.ok (f (String.ofList s.toList), rest) = .ok (f s, rest)
  rw [String.ofList_toList]

/-- A string with its quotes starts with a quote, whatever is around it. -/
theorem afterBlanks_stringText {ws : List Char} (h : IsGap ws) (s : String) (rest : List Char) :
    afterBlanks (ws ++ (stringText s ++ rest)) =
      '"' :: (s.toList.flatMap stringChar ++ '"' :: rest) := by
  have htext : stringText s ++ rest = '"' :: (s.toList.flatMap stringChar ++ '"' :: rest) := by
    simp [stringText]
  rw [htext, afterBlanks_append_cons h (by decide)]

/-- A key is read as it was written. -/
theorem readKey_stringText (strict : Bool) {ws : List Char} (h : IsGap ws) (key : String)
    (rest : List Char) :
    readKey strict (ws ++ (stringText key ++ rest)) = .ok (key, rest) := by
  unfold readKey
  rw [afterBlanks_stringText h]
  exact map_readString id key rest

/-- A string that is wanted is read as it was written. -/
theorem readText_stringText {ws : List Char} (h : IsGap ws) (s : String) (rest : List Char) :
    readText (ws ++ (stringText s ++ rest)) = .ok (s, rest) := by
  unfold readText
  rw [afterBlanks_stringText h]
  exact map_readString id s rest

/-- So is a string where any value may be. -/
theorem readValue_stringText {ws : List Char} (h : IsGap ws) (room : Nat) (s : String)
    (rest : List Char) :
    readValue room (ws ++ (stringText s ++ rest)) = .ok (.string s, rest) := by
  unfold readValue
  rw [afterBlanks_stringText h]
  exact map_readString Json.string s rest

/-! ## Numbers -/

/-- What stands behind a number does not go on with it. -/
def EndsNumber (rest : List Char) : Prop :=
  ∀ c ∈ rest.head?, c.isDigit = false ∧ c ≠ '.' ∧ c ≠ 'e' ∧ c ≠ 'E'

/-- A character does not go on with a number, whatever follows. -/
theorem endsNumber_cons {c : Char} (h : c.isDigit = false ∧ c ≠ '.' ∧ c ≠ 'e' ∧ c ≠ 'E')
    (rest : List Char) : EndsNumber (c :: rest) := by
  intro c' hc'
  rw [← Option.some.inj hc']
  exact h

/-- White space does not go on with a number, nor does what stands behind it, if it does not. -/
theorem IsGap.endsNumber {ws rest : List Char} (h : IsGap ws) (hrest : EndsNumber rest) :
    EndsNumber (ws ++ rest) := by
  cases ws with
  | nil => exact hrest
  | cons c ws =>
    refine endsNumber_cons ?_ (ws ++ rest)
    rcases isGap_singleton.mp h.head with rfl | rfl | rfl | rfl <;> decide

/-- The digits of a number are read up to what is none. -/
theorem readDigits_append (strict : Bool) {digits rest : List Char} (hne : digits ≠ [])
    (hdigits : ∀ c ∈ digits, c.isDigit = true) (hrest : ∀ c ∈ rest.head?, c.isDigit = false) :
    readDigits strict (digits ++ rest) = .ok (digits, rest) := by
  have hnone : rest.takeWhile Char.isDigit = [] := by
    cases rest with
    | nil => rfl
    | cons c rest => rw [List.takeWhile_cons, hrest c rfl, if_neg Bool.false_ne_true]
  have hspan : (digits ++ rest).span Char.isDigit = (digits, rest) := by
    have hall := List.takeWhile_append_dropWhile (p := Char.isDigit) (l := rest)
    rw [hnone, List.nil_append] at hall
    rw [List.span_eq_takeWhile_dropWhile, List.takeWhile_append_of_pos hdigits,
      List.dropWhile_append_of_pos hdigits, hnone, List.append_nil, hall]
  unfold readDigits
  rw [hspan]
  obtain ⟨d, ds, rfl⟩ := List.exists_cons_of_ne_nil hne
  rfl

/-- The digits of a number that is not zero do not start with a zero. -/
theorem head_toDigits_ne {n : Nat} (h : n ≠ 0) : (Nat.toDigits 10 n).head? ≠ some '0' := by
  induction n using Nat.strongRecOn with
  | ind n ih =>
    rw [Nat.toDigits_eq_if (by decide)]
    split
    · rw [List.head?_cons, Ne, Option.some.injEq, Nat.digitChar_eq_zero]
      exact h
    · -- The first digit is that of the number without its last digit.
      rename_i hge
      rw [List.head?_append, Option.or_of_isSome (List.isSome_head?.mpr Nat.toDigits_ne_nil)]
      exact ih (n / 10) (by omega) (by omega)

/-- The digits of a number have no leading zero. -/
theorem toDigits_ne_zero_cons (n : Nat) (c : Char) (cs : List Char) :
    Nat.toDigits 10 n ≠ '0' :: c :: cs := by
  intro h
  by_cases hn : n = 0
  · rw [hn, Nat.toDigits_zero] at h
    exact absurd h (by simp)
  · exact head_toDigits_ne hn (by rw [h, List.head?_cons])

/-- The digits of a number are digits. -/
theorem isDigit_toDigits {n : Nat} {c : Char} (h : c ∈ Nat.toDigits 10 n) : c.isDigit = true :=
  Nat.isDigit_of_mem_toDigits (by decide) (by decide) h

/-- A number has a digit. -/
theorem exists_toDigits (n : Nat) : ∃ d ds, Nat.toDigits 10 n = d :: ds ∧ d.isDigit = true := by
  cases h : Nat.toDigits 10 n with
  | nil => exact absurd h Nat.toDigits_ne_nil
  | cons d ds => exact ⟨d, ds, rfl, isDigit_toDigits (h ▸ List.mem_cons_self)⟩

/-- The digits of a natural number write it. -/
theorem digitsValue_toDigits (n : Nat) : digitsValue (Nat.toDigits 10 n) = n :=
  Nat.ofDigitChars_ten_toDigits

/-- What does not go on with a number has no fraction in front. -/
theorem EndsNumber.readFraction? {rest : List Char} (h : EndsNumber rest) :
    readFraction? strict rest = .ok (none, rest) := by
  cases rest with
  | nil => rfl
  | cons c rest =>
    rw [Json.readFraction?]
    rintro _ ⟨⟩
    exact (h '.' rfl).2.1 rfl

/-- Nor an exponent. -/
theorem EndsNumber.readExponent? {rest : List Char} (h : EndsNumber rest) :
    readExponent? strict rest = .ok (none, rest) := by
  cases rest with
  | nil => rfl
  | cons c rest =>
    rw [Json.readExponent?]
    · rintro _ ⟨⟩
      exact (h 'e' rfl).2.2.1 rfl
    · rintro _ ⟨⟩
      exact (h 'E' rfl).2.2.2 rfl

/-- The parts of an integer. -/
def Numeral.ofInt (n : Int) : Numeral :=
  ⟨decide (n < 0), Nat.toDigits 10 n.natAbs, none, none⟩

/-- A negative integer starts with a minus sign. -/
theorem integerText_of_neg {n : Int} (h : n < 0) :
    integerText n = '-' :: Nat.toDigits 10 n.natAbs := by
  cases n with
  | ofNat n => exact absurd h (Int.not_lt.mpr (Int.natCast_nonneg n))
  | negSucc n => rw [integerText, Int.natAbs_negSucc]

/-- Any other integer has digits only. -/
theorem integerText_of_nonneg {n : Int} (h : ¬ n < 0) :
    integerText n = Nat.toDigits 10 n.natAbs := by
  cases n with
  | ofNat n => rfl
  | negSucc n => exact absurd (Int.negSucc_lt_zero n) h

/-- The sign of an integer is told from its digits. -/
theorem sign_integerText (n : Int) (rest : List Char) :
    (match integerText n ++ rest with
      | '-' :: cs => (true, cs)
      | cs => (false, cs)) = (decide (n < 0), Nat.toDigits 10 n.natAbs ++ rest) := by
  by_cases hn : n < 0
  · rw [integerText_of_neg hn, decide_eq_true hn]
    rfl
  · -- A digit is no sign.
    obtain ⟨d, ds, hds, hd⟩ := exists_toDigits n.natAbs
    rw [integerText_of_nonneg hn, decide_eq_false hn, hds, List.cons_append]
    split
    · rename_i heq
      rw [(List.cons.inj heq).1] at hd
      exact absurd hd (by decide)
    · rfl

/-- An integer is read as its parts. -/
theorem readNumeral_integerText (n : Int) {rest : List Char} (h : EndsNumber rest) :
    readNumeral strict (integerText n ++ rest) = .ok (.ofInt n, rest) := by
  have hdigits := readDigits_append strict Nat.toDigits_ne_nil
    (fun _ => isDigit_toDigits (n := n.natAbs)) fun c hc => (h c hc).1
  unfold readNumeral Numeral.ofInt
  split
  rename_i negative cs hsign
  obtain ⟨rfl, rfl⟩ := Prod.mk.inj ((sign_integerText n rest).symm.trans hsign)
  simp only [hdigits, ok_bind]
  split
  · exact absurd ‹_› (toDigits_ne_zero_cons _ _ _)
  · rw [h.readFraction?, ok_bind, h.readExponent?]
    rfl

/-- An integer of 64 bits is the value of its parts. -/
theorem Numeral.integer?_ofInt {n : Int} (hmin : -(Integer64.minMagnitude : Int) ≤ n)
    (hmax : n ≤ Integer64.maxUnsigned) : (Numeral.ofInt n).integer? = some n := by
  unfold Numeral.ofInt Numeral.integer?
  simp only [digitsValue_toDigits, Option.isSome_none, Bool.or_self, Bool.false_eq_true, if_false,
    decide_eq_true_eq]
  by_cases hn : n < 0
  · have hzero : n.natAbs ≠ 0 := by omega
    have hmagnitude : n.natAbs ≤ Integer64.minMagnitude := by omega
    have hvalue : -(n.natAbs : Int) = n := by omega
    rw [if_pos hn, if_neg hzero, Integer64.signed?, if_pos rfl, if_pos hmagnitude, hvalue]
  · have hmagnitude : n.natAbs ≤ Integer64.maxUnsigned := by omega
    have hvalue : (n.natAbs : Int) = n := by omega
    rw [if_neg hn, if_pos hmagnitude, hvalue]

/-- An integer of 64 bits is read as itself. -/
theorem readNumber_integerText {n : Int} (hmin : -(Integer64.minMagnitude : Int) ≤ n)
    (hmax : n ≤ Integer64.maxUnsigned) {rest : List Char} (h : EndsNumber rest) :
    readNumber (integerText n ++ rest) = .ok (.integer n, rest) := by
  unfold readNumber Numeral.toJson
  rw [readNumeral_integerText n h, ok_bind]
  simp only [Numeral.integer?_ofInt hmin hmax]
  rfl

/-- An integer starts with a minus sign or a digit. -/
theorem exists_integerText (n : Int) :
    ∃ c cs, integerText n = c :: cs ∧ (c == '-' || c.isDigit) = true := by
  by_cases hn : n < 0
  · exact ⟨'-', _, integerText_of_neg hn, rfl⟩
  · obtain ⟨d, ds, hds, hd⟩ := exists_toDigits n.natAbs
    exact ⟨d, ds, by rw [integerText_of_nonneg hn, hds], by rw [hd, Bool.or_true]⟩

/-- A sign or a digit is no white space. -/
theorem not_isGap_of_number {c : Char} (h : (c == '-' || c.isDigit) = true) : ¬ IsGap [c] := by
  intro hc
  rcases isGap_singleton.mp hc with rfl | rfl | rfl | rfl <;> exact absurd h (by decide)

/-- An unsigned integer of 64 bits that is wanted is read as itself. -/
theorem readNatural_integerText {ws : List Char} (hws : IsGap ws) {n : Nat}
    (hmax : n ≤ Integer64.maxUnsigned) {rest : List Char} (h : EndsNumber rest) :
    readNatural (ws ++ (integerText n ++ rest)) = .ok (n, rest) := by
  have hnumber := readNumber_integerText (n := n) (by omega) (by omega) h
  obtain ⟨c, cs, hcs, hc⟩ := exists_integerText n
  rw [hcs, List.cons_append] at hnumber
  unfold readNatural
  rw [hcs, List.cons_append, afterBlanks_append_cons hws (not_isGap_of_number hc)]
  simp only [hc, if_true, hnumber, ok_bind]
  rfl

/-- So is an integer where any value may be. -/
theorem readValue_integerText {ws : List Char} (hws : IsGap ws) (room : Nat) {n : Int}
    (hmin : -(Integer64.minMagnitude : Int) ≤ n) (hmax : n ≤ Integer64.maxUnsigned)
    {rest : List Char} (h : EndsNumber rest) :
    readValue room (ws ++ (integerText n ++ rest)) = .ok (.integer n, rest) := by
  have hnumber := readNumber_integerText hmin hmax h
  obtain ⟨c, cs, hcs, hc⟩ := exists_integerText n
  have hother {x : Char} (hx : (x == '-' || x.isDigit) = false) : c ≠ x := by
    rintro rfl
    exact absurd (hc.symm.trans hx) (by decide)
  rw [hcs, List.cons_append] at hnumber
  rw [readValue.eq_def, hcs, List.cons_append,
    afterBlanks_append_cons hws (not_isGap_of_number hc)]
  split
  case h_1 heq => exact absurd heq (List.cons_ne_nil _ _)
  case h_8 heq =>
    obtain ⟨rfl, rfl⟩ := List.cons.inj heq
    rw [if_pos hc, hnumber]
  -- All other values start with some other character.
  all_goals exact absurd (List.cons.inj ‹_›).1 (hother (by decide))

end MessageMarkup.Json
