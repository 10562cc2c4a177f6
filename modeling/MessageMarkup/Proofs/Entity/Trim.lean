import Mathlib.Data.List.DropRight
import MessageMarkup.Entity.Trim
import MessageMarkup.Proofs.Utf16

/-!
# What trimming leaves

Blanks are trimmed unit by unit, which comes to the same as character by character
(`trimUnits_encode`), since no half of a surrogate pair is a blank. An entity in the text that is
left is moved with it (`Entity.clip?_of_inside`), and a message without blanks around it and with
entities in range stays as it is (`Message.trim_eq_self`).
-/

namespace MessageMarkup

open Utf16 (encode length)

/-! ## Blanks -/

/-- The characters of a text without the blanks around it. -/
def trimChars (cs : List Char) : List Char :=
  (cs.dropWhile isBlank).rdropWhile isBlank

/-- The number of units of the blanks at the start of a text. -/
def leadingBlanks (cs : List Char) : Nat :=
  length (cs.takeWhile isBlank)

/-- A surrogate is no blank. -/
theorem isBlankUnit_of_isSurrogate {u : UInt16} (h : Utf16.isSurrogate u = true) :
    isBlankUnit u = false := by
  unfold isBlankUnit Utf16.single
  rw [if_pos h]
  decide

/-- A character beyond the Basic Multilingual Plane is no blank. -/
theorem isBlank_of_width {c : Char} (h : Utf16.width c = 2) : isBlank c = false := by
  have hge : ¬ c.toNat < 0x10000 := by
    intro hlt
    unfold Utf16.width at h
    rw [if_pos hlt] at h
    exact absurd h (by decide)
  unfold isBlank isWhiteSpace
  simp only [Bool.or_eq_false_iff, Bool.and_eq_false_iff, decide_eq_false_iff_not,
    beq_eq_false_iff_ne]
  omega

/-- The units of a character are one unit that is a blank if the character is, or two that are
none. -/
theorem ofChar_blank_cases (c : Char) :
    (∃ u, Utf16.ofChar c = [u] ∧ isBlankUnit u = isBlank c) ∨
      ∃ u v, Utf16.ofChar c = [u, v] ∧ isBlankUnit u = false ∧ isBlankUnit v = false ∧
        isBlank c = false := by
  rcases Utf16.ofChar_cases c with ⟨u, hu, -, hc, -⟩ | ⟨high, low, hu, hh, hl, -, hw⟩
  · left
    refine ⟨u, hu, ?_⟩
    unfold isBlankUnit
    rw [hc]
  · right
    exact ⟨high, low, hu, isBlankUnit_of_isSurrogate (Utf16.isSurrogate_of_isHigh hh),
      isBlankUnit_of_isSurrogate (Utf16.isSurrogate_of_isLow hl), isBlank_of_width hw⟩

/-- The units of the blanks at the start are the blank units there. -/
theorem takeWhile_encode (cs : List Char) :
    (encode cs).takeWhile isBlankUnit = encode (cs.takeWhile isBlank) := by
  induction cs with
  | nil => rfl
  | cons c cs ih =>
    rw [Utf16.encode_cons, List.takeWhile_cons]
    rcases ofChar_blank_cases c with ⟨u, hu, hblank⟩ | ⟨u, v, hu, hblank, -, hc⟩
    · rw [hu, List.singleton_append, List.takeWhile_cons, hblank, ih]
      split
      · rw [Utf16.encode_cons, hu]
        rfl
      · rfl
    · rw [hu, List.cons_append, List.takeWhile_cons, hblank, hc]
      rfl

/-- Blanks are dropped from the start unit by unit. -/
theorem dropWhile_encode (cs : List Char) :
    (encode cs).dropWhile isBlankUnit = encode (cs.dropWhile isBlank) := by
  have hunits := (encode cs).takeWhile_append_dropWhile (p := isBlankUnit)
  have hchars := congrArg encode (cs.takeWhile_append_dropWhile (p := isBlank))
  rw [Utf16.encode_append] at hchars
  rw [takeWhile_encode] at hunits
  exact List.append_cancel_left (hunits.trans hchars.symm)

/-- Blanks are dropped from the end unit by unit. -/
theorem rdropWhile_encode (cs : List Char) :
    (encode cs).rdropWhile isBlankUnit = encode (cs.rdropWhile isBlank) := by
  induction cs using List.reverseRecOn with
  | nil => rfl
  | append_singleton cs c ih =>
    rw [Utf16.encode_append, Utf16.encode_cons, Utf16.encode_nil, List.append_nil,
      List.rdropWhile_concat]
    -- A blank is one unit, and no half of a surrogate pair is blank.
    rcases ofChar_blank_cases c with ⟨u, hu, hblank⟩ | ⟨u, v, hu, -, hblank, hc⟩
    · rw [hu, List.rdropWhile_concat, hblank, ih]
      split
      · rfl
      · rw [Utf16.encode_append, Utf16.encode_cons, hu]
        rfl
    · rw [hu, List.append_cons, List.rdropWhile_concat, hblank, hc, if_neg Bool.false_ne_true,
        if_neg Bool.false_ne_true, Utf16.encode_append, Utf16.encode_cons, hu]
      simp

/-- A text is trimmed unit by unit. -/
theorem trimUnits_encode (cs : List Char) : trimUnits (encode cs) = encode (trimChars cs) := by
  unfold trimUnits trimChars
  rw [dropWhile_encode]
  exact rdropWhile_encode _

/-- Dropping from the end of two texts, one after the other. -/
theorem rdropWhile_append {α : Type} {p : α → Bool} (xs ys : List α) :
    (xs ++ ys).rdropWhile p =
      if ys.rdropWhile p = [] then xs.rdropWhile p else xs ++ ys.rdropWhile p := by
  unfold List.rdropWhile
  rw [List.reverse_append, List.dropWhile_append]
  simp only [List.isEmpty_iff, List.reverse_eq_nil_iff]
  split
  · rfl
  · rw [List.reverse_append, List.reverse_reverse]

/-- What is dropped from both ends of a list is not what the rest starts with. -/
theorem head_rdropWhile_dropWhile {α : Type} {p : α → Bool} {xs : List α} {x : α}
    (h : ((xs.dropWhile p).rdropWhile p).head? = some x) : p x = false := by
  have hhead : (xs.dropWhile p).head? = some x := by
    obtain ⟨rest, hrest⟩ := List.rdropWhile_prefix p (xs.dropWhile p)
    rw [← hrest, List.head?_append, h]
    rfl
  have hnot := List.head?_dropWhile_not p xs
  rw [hhead] at hnot
  exact hnot

/-- Nor is it what the rest ends with. -/
theorem last_rdropWhile_dropWhile {α : Type} {p : α → Bool} {xs : List α} {x : α}
    (h : ((xs.dropWhile p).rdropWhile p).getLast? = some x) : p x = false := by
  have hne : (xs.dropWhile p).rdropWhile p ≠ [] := by
    intro hnil
    rw [hnil] at h
    exact absurd h (by simp)
  have hnot := List.rdropWhile_last_not p (xs.dropWhile p) hne
  rw [Bool.not_eq_true] at hnot
  rw [List.getLast?_eq_some_getLast hne] at h
  rw [← Option.some.inj h]
  exact hnot

/-- What is trimmed does not start with a blank. -/
theorem isBlank_head_trimChars {cs : List Char} {c : Char} (h : (trimChars cs).head? = some c) :
    isBlank c = false :=
  head_rdropWhile_dropWhile h

/-- What is trimmed does not end with a blank. -/
theorem isBlank_last_trimChars {cs : List Char} {c : Char}
    (h : (trimChars cs).getLast? = some c) : isBlank c = false :=
  last_rdropWhile_dropWhile h

/-- The same for units. -/
theorem isBlankUnit_head_trimUnits {us : List UInt16} {u : UInt16}
    (h : (trimUnits us).head? = some u) : isBlankUnit u = false :=
  head_rdropWhile_dropWhile h

/-- The same for the last unit. -/
theorem isBlankUnit_last_trimUnits {us : List UInt16} {u : UInt16}
    (h : (trimUnits us).getLast? = some u) : isBlankUnit u = false :=
  last_rdropWhile_dropWhile h

/-- From a list that neither starts nor ends with what is dropped nothing is. -/
theorem rdropWhile_dropWhile_eq_self {α : Type} {p : α → Bool} {xs : List α}
    (hhead : ∀ x, xs.head? = some x → p x = false)
    (hlast : ∀ x, xs.getLast? = some x → p x = false) :
    (xs.dropWhile p).rdropWhile p = xs := by
  have hdrop : xs.dropWhile p = xs := by
    cases xs with
    | nil => rfl
    | cons x xs => rw [List.dropWhile_cons, hhead x rfl, if_neg Bool.false_ne_true]
  rw [hdrop, List.rdropWhile_eq_self_iff]
  intro hne
  rw [hlast _ (List.getLast?_eq_some_getLast hne)]
  exact Bool.false_ne_true

/-- A text that neither starts nor ends with a blank stays as it is. -/
theorem trimChars_eq_self {cs : List Char} (hhead : ∀ c, cs.head? = some c → isBlank c = false)
    (hlast : ∀ c, cs.getLast? = some c → isBlank c = false) : trimChars cs = cs :=
  rdropWhile_dropWhile_eq_self hhead hlast

/-- A text that does not start with a blank has none at its start. -/
theorem leadingBlanks_eq_zero {cs : List Char}
    (hhead : ∀ c, cs.head? = some c → isBlank c = false) : leadingBlanks cs = 0 := by
  unfold leadingBlanks
  cases cs with
  | nil => rfl
  | cons c cs => rw [List.takeWhile_cons, hhead c rfl, if_neg Bool.false_ne_true, Utf16.length_nil]

/-- The blanks at the start of a text, and what is behind them, make up the text. -/
theorem leadingBlanks_add_length (cs : List Char) :
    leadingBlanks cs + length (cs.dropWhile isBlank) = length cs := by
  unfold leadingBlanks
  rw [← Utf16.length_append, List.takeWhile_append_dropWhile]

/-- Behind a text of blanks alone there may be more of them. -/
theorem leadingBlanks_append_of_forall {xs : List Char} (h : ∀ c ∈ xs, isBlank c = true)
    (ys : List Char) : leadingBlanks (xs ++ ys) = length xs + leadingBlanks ys := by
  unfold leadingBlanks
  rw [List.takeWhile_append_of_pos h, Utf16.length_append]

/-- Behind any other text they are no longer at the start. -/
theorem leadingBlanks_append_of_ne {xs : List Char} (h : xs.dropWhile isBlank ≠ [])
    (ys : List Char) : leadingBlanks (xs ++ ys) = leadingBlanks xs := by
  have htake : (xs.takeWhile isBlank).length ≠ xs.length := by
    intro heq
    have hlen := congrArg List.length (xs.takeWhile_append_dropWhile (p := isBlank))
    rw [List.length_append] at hlen
    exact h (List.length_eq_zero_iff.mp (by omega))
  unfold leadingBlanks
  rw [List.takeWhile_append, if_neg htake]

/-- Trimming leaves a piece of the text, which starts behind its leading blanks. -/
theorem exists_trimChars (cs : List Char) :
    ∃ before after, cs = before ++ (trimChars cs ++ after) ∧ length before = leadingBlanks cs := by
  obtain ⟨after, hafter⟩ := List.rdropWhile_prefix isBlank (cs.dropWhile isBlank)
  refine ⟨cs.takeWhile isBlank, after, ?_, rfl⟩
  calc cs = cs.takeWhile isBlank ++ cs.dropWhile isBlank :=
        (List.takeWhile_append_dropWhile (p := isBlank)).symm
    _ = cs.takeWhile isBlank ++ (trimChars cs ++ after) := congrArg _ hafter.symm

/-! ## Entities -/

/-- What is left of an entity is of its kind and not empty, and starts and stops where the entity
does, as far as that is in what is left. -/
theorem Entity.of_clip?_eq_some {leading kept : Nat} {e e' : Entity}
    (h : e.clip? leading kept = some e') :
    e'.kind = e.kind ∧ 0 < e'.length ∧ e'.offset = min (e.offset - leading) kept ∧
      e'.stop = min (e.stop - leading) kept := by
  -- The entity is moved first, and then cut off at the end.
  have hcut (moved : Entity) (hkind : moved.kind = e.kind) (hpos : 0 < moved.length)
      (hoffset : moved.offset = e.offset - leading) (hstop : moved.stop = e.stop - leading)
      (hkept : (if moved.stop ≤ kept then some moved
        else if kept ≤ moved.offset then none
        else some { moved with length := kept - moved.offset }) = some e') :
      e'.kind = e.kind ∧ 0 < e'.length ∧ e'.offset = min (e.offset - leading) kept ∧
        e'.stop = min (e.stop - leading) kept := by
    unfold Entity.stop at hstop hkept ⊢
    split at hkept
    · obtain rfl := Option.some.inj hkept
      exact ⟨hkind, hpos, by omega, by omega⟩
    split at hkept
    · exact absurd hkept.symm (Option.some_ne_none e')
    · obtain rfl := Option.some.inj hkept
      simp only
      exact ⟨hkind, by omega, by omega, by omega⟩
  unfold Entity.clip? at h
  split at h
  · exact absurd h.symm (Option.some_ne_none e')
  rename_i hcovers
  rw [not_or, Nat.not_le] at hcovers
  have hsum : e.stop = e.offset + e.length := rfl
  -- What starts in the blanks loses what it has of them.
  by_cases hstart : leading ≤ e.offset
  · rw [if_pos hstart] at h
    refine hcut { e with offset := e.offset - leading } rfl ?_ rfl ?_ h
    · exact Nat.pos_of_ne_zero hcovers.1
    · show e.offset - leading + e.length = e.stop - leading
      omega
  · rw [if_neg hstart] at h
    refine hcut { e with offset := 0, length := e.stop - leading } rfl ?_ ?_ ?_ h
    · exact Nat.sub_pos_of_lt hcovers.2
    · show 0 = e.offset - leading
      omega
    · show 0 + (e.stop - leading) = e.stop - leading
      exact Nat.zero_add _

/-- What is left of entities starts in the order in which they do. -/
theorem Entity.pairwise_clip? {leading kept : Nat} {es : List Entity}
    (h : es.Pairwise fun e e' => e.offset ≤ e'.offset) :
    (es.filterMap (Entity.clip? leading kept)).Pairwise fun e e' => e.offset ≤ e'.offset := by
  rw [List.pairwise_filterMap]
  refine h.imp fun hle e₁ h₁ e₂ h₂ => ?_
  obtain ⟨-, -, hoffset₁, -⟩ := Entity.of_clip?_eq_some h₁
  obtain ⟨-, -, hoffset₂, -⟩ := Entity.of_clip?_eq_some h₂
  omega

/-- An entity inside what is left keeps its length. -/
theorem Entity.clip?_of_inside {leading kept : Nat} {e : Entity} (hpos : 0 < e.length)
    (hstart : leading ≤ e.offset) (hstop : e.stop ≤ leading + kept) :
    e.clip? leading kept = some { e with offset := e.offset - leading } := by
  unfold Entity.stop at hstop
  have hmoved : (e.offset - leading) + e.length ≤ kept := by omega
  unfold Entity.clip? Entity.stop
  rw [if_neg (by omega), if_pos hstart]
  exact if_pos hmoved

/-- What trimming makes of a message whose text is given by its characters. -/
theorem Message.trim_ofList (cs : List Char) (es : List Entity) :
    Message.trim { text := String.ofList cs, entities := es } =
      { text := String.ofList (trimChars cs)
        entities := es.filterMap (Entity.clip? (leadingBlanks cs) (length (trimChars cs))) } := by
  unfold Message.trim MessageMarkup.trim Utf16.ofText Utf16.toText leadingBlanks
  simp only [String.toList_ofList, trimUnits_encode, takeWhile_encode, Utf16.decode_encode,
    Utf16.length_encode]

/-- A message without blanks around it, with entities that cover something in range, stays as it
is. -/
theorem Message.trim_eq_self {cs : List Char} {es : List Entity}
    (hhead : ∀ c, cs.head? = some c → isBlank c = false)
    (hlast : ∀ c, cs.getLast? = some c → isBlank c = false)
    (hes : ∀ e ∈ es, 0 < e.length ∧ e.stop ≤ length cs) :
    Message.trim { text := String.ofList cs, entities := es } =
      { text := String.ofList cs, entities := es } := by
  have hkept : es.filterMap (Entity.clip? 0 (length cs)) = es := by
    have hall : ∀ e ∈ es, Entity.clip? 0 (length cs) e = some e := by
      intro e he
      rw [Entity.clip?_of_inside (hes e he).1 (Nat.zero_le _) (by have := (hes e he).2; omega)]
      rfl
    rw [List.filterMap_congr hall, List.filterMap_some]
  rw [Message.trim_ofList, trimChars_eq_self hhead hlast, leadingBlanks_eq_zero hhead, hkept]

end MessageMarkup
