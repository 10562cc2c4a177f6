import MessageMarkup.Proofs.Json.Decoding
import MessageMarkup.Proofs.Json.Lexeme

/-!
# What can be read can be passed over

A value that is not wanted is passed over leniently, and however deep it is nested. So there are
texts that are passed over and stand for no value, but whatever is read as a value is passed over up
to the same place (`skipValue_of_readValue`). There is enough room for that because a reader leaves
less than it is given: `Passes` says both of a reader and of a lenient one, for texts up to some
length.
-/

namespace MessageMarkup.Json

variable {α β γ : Type} {cs rest : List Char}

/-- White space makes no text longer. -/
theorem length_afterBlanks_le (cs : List Char) : (afterBlanks cs).length ≤ cs.length :=
  (List.dropWhile_sublist _).length_le

/-! ## Words, strings and numbers -/

/-- A word leaves no more than it is given. -/
theorem length_of_readWord {word : List Char} (h : readWord word cs = .ok rest) :
    rest.length ≤ cs.length := by
  induction word generalizing cs with
  | nil => exact Nat.le_of_eq (congrArg List.length (Except.ok.inj h)).symm
  | cons w word ih =>
    cases cs with
    | nil => exact absurd h nofun
    | cons c cs =>
      unfold readWord at h
      split at h
      · exact Nat.le_succ_of_le (ih h)
      · exact absurd h nofun

/-- A character is added in front of what is read. -/
theorem prepend_eq_ok_iff {c : Char} {r : Except Fault (List Char × List Char)} {s : List Char} :
    prepend c r = .ok (s, rest) ↔ ∃ s', r = .ok (s', rest) ∧ c :: s' = s :=
  map_eq_ok_iff

/-- Leniently, four hexadecimal digits are read as a character of their own. -/
theorem readString_unit {a b c d : Char} {unit : UInt16} (h : hexUnit? a b c d = some unit)
    (cs : List Char) :
    readString false ('\\' :: 'u' :: a :: b :: c :: d :: cs) =
      prepend (Utf16.single unit) (readString false cs) := by
  rw [readString, h]
  rfl

/-- A character in front of what is passed over is passed over, however it is read leniently. -/
theorem lenient_prepend {c c' : Char} {text s : List Char}
    (h : prepend c (readString true cs) = .ok (s, rest)) (hlength : cs.length ≤ text.length)
    (htext : readString false text = prepend c' (readString false cs))
    (ih : ∀ {s}, readString true cs = .ok (s, rest) →
      rest.length ≤ cs.length ∧ ∃ s', readString false cs = .ok (s', rest)) :
    rest.length ≤ text.length ∧ ∃ s', readString false text = .ok (s', rest) := by
  obtain ⟨s', hs', -⟩ := prepend_eq_ok_iff.mp h
  obtain ⟨hrest, t, ht⟩ := ih hs'
  exact ⟨hrest.trans hlength, c' :: t, by rw [htext, ht]; rfl⟩

/-- A string is passed over, though perhaps not as what it is read as. -/
theorem lenient_readString {s : List Char} (h : readString true cs = .ok (s, rest)) :
    rest.length ≤ cs.length ∧ ∃ s', readString false cs = .ok (s', rest) := by
  fun_induction readString true cs generalizing s with
  | case2 cs =>
    obtain ⟨-, rfl⟩ := Prod.mk.inj (Except.ok.inj h)
    exact ⟨Nat.le_succ _, [], rfl⟩
  | case5 a b c d high hhigh _ e f g h' cs low hlow _ ih =>
    -- The halves of a pair are two characters.
    obtain ⟨s', hs', -⟩ := prepend_eq_ok_iff.mp h
    obtain ⟨hrest, t, ht⟩ := ih hs'
    refine ⟨?_, Utf16.single high :: Utf16.single low :: t, ?_⟩
    · simp only [List.length_cons]
      omega
    · rw [readString_unit hhigh, readString_unit hlow, ht]
      rfl
  | case9 a b c d cs unit hunit _ _ ih =>
    refine lenient_prepend h ?_ (readString_unit hunit cs) ih
    simp only [List.length_cons]
    omega
  | case12 x cs _ hu y hy ih =>
    refine lenient_prepend h ?_ (readString_escaped hu hy cs) ih
    simp only [List.length_cons]
    omega
  | case15 c cs hquote _ _ hend hescape hcontrol ih =>
    have hback : c ≠ '\\' := by
      intro hc
      cases cs with
      | nil => exact hend hc rfl
      | cons x cs => exact hescape x cs hc rfl
    exact lenient_prepend h (Nat.le_succ _) (readString_plain hquote hback hcontrol cs) ih
  | _ => exact absurd h nofun

/-- Digits leave no more than they are given, and are read in the same way leniently. -/
theorem lenient_readDigits {digits : List Char} (h : readDigits true cs = .ok (digits, rest)) :
    rest.length ≤ cs.length ∧ readDigits false cs = .ok (digits, rest) := by
  have hrest : (cs.span Char.isDigit).2.length ≤ cs.length := by
    rw [List.span_eq_takeWhile_dropWhile]
    exact (List.dropWhile_sublist _).length_le
  unfold readDigits at h ⊢
  generalize cs.span Char.isDigit = digits' at h hrest ⊢
  split at h
  · exact absurd h nofun
  · exact absurd h nofun
  · obtain ⟨rfl, rfl⟩ := Prod.mk.inj (Except.ok.inj h)
    exact ⟨hrest, rfl⟩

/-- So is what is made of them. -/
theorem lenient_map_readDigits {g : List Char → γ} {c : γ}
    (h : ((readDigits true cs).map fun (digits, cs) => (g digits, cs)) = .ok (c, rest)) :
    rest.length ≤ cs.length ∧
      ((readDigits false cs).map fun (digits, cs) => (g digits, cs)) = .ok (c, rest) := by
  obtain ⟨digits, hdigits, rfl⟩ := map_eq_ok_iff.mp h
  obtain ⟨hlength, hlenient⟩ := lenient_readDigits hdigits
  exact ⟨hlength, map_eq_ok_iff.mpr ⟨digits, hlenient, rfl⟩⟩

/-- So is a fraction, if there is one. -/
theorem lenient_readFraction? {fraction? : Option (List Char)}
    (h : readFraction? true cs = .ok (fraction?, rest)) :
    rest.length ≤ cs.length ∧ readFraction? false cs = .ok (fraction?, rest) := by
  unfold readFraction? at h ⊢
  split at h
  · exact (lenient_map_readDigits h).imp_left Nat.le_succ_of_le
  · obtain ⟨rfl, rfl⟩ := Prod.mk.inj (Except.ok.inj h)
    exact ⟨Nat.le_refl _, rfl⟩

/-- So is an exponent. -/
theorem lenient_readExponent? {exponent? : Option (Bool × List Char)}
    (h : readExponent? true cs = .ok (exponent?, rest)) :
    rest.length ≤ cs.length ∧ readExponent? false cs = .ok (exponent?, rest) := by
  -- The letter may be small or great, and then there may be a sign.
  have hmarked {cs : List Char} (h : readExponent? true ('e' :: cs) = .ok (exponent?, rest)) :
      rest.length ≤ cs.length ∧ readExponent? false ('e' :: cs) = .ok (exponent?, rest) := by
    obtain ⟨hrest, hlenient⟩ := lenient_map_readDigits (g := fun digits => some (_, digits)) h
    refine ⟨hrest.trans ?_, hlenient⟩
    split <;> simp
  unfold readExponent? at h
  split at h
  · exact (hmarked h).imp_left Nat.le_succ_of_le
  · exact (hmarked h).imp_left Nat.le_succ_of_le
  · rename_i hsmall hgreat
    obtain ⟨rfl, rfl⟩ := Prod.mk.inj (Except.ok.inj h)
    refine ⟨Nat.le_refl _, ?_⟩
    rw [readExponent?]
    · exact hsmall
    · exact hgreat

/-- So is a number. -/
theorem lenient_readNumeral {n : Numeral} (h : readNumeral true cs = .ok (n, rest)) :
    rest.length ≤ cs.length ∧ readNumeral false cs = .ok (n, rest) := by
  unfold readNumeral at h ⊢
  split at h
  rename_i negative digits hsign
  have hlength : digits.length ≤ cs.length := by
    split at hsign
    · rw [← (Prod.mk.inj hsign).2]
      exact Nat.le_succ _
    · rw [← (Prod.mk.inj hsign).2]
  obtain ⟨⟨whole, behind⟩, hwhole, h⟩ := bind_eq_ok_iff.mp h
  obtain ⟨hbehind, hwhole'⟩ := lenient_readDigits hwhole
  simp only [hwhole', ok_bind] at h ⊢
  split at h
  · exact absurd h nofun
  · obtain ⟨⟨fraction?, behind'⟩, hfraction, h⟩ := bind_eq_ok_iff.mp h
    obtain ⟨⟨exponent?, behind''⟩, hexponent, h⟩ := bind_eq_ok_iff.mp h
    obtain ⟨hbehind', hfraction'⟩ := lenient_readFraction? hfraction
    obtain ⟨hbehind'', hexponent'⟩ := lenient_readExponent? hexponent
    simp only [hfraction', hexponent', ok_bind]
    obtain ⟨rfl, rfl⟩ := Prod.mk.inj (pure_eq_ok_iff.mp h)
    exact ⟨hbehind''.trans (hbehind'.trans (hbehind.trans hlength)), rfl⟩

/-- A key is passed over. -/
theorem lenient_readKey {key : String} (h : readKey true cs = .ok (key, rest)) :
    rest.length ≤ cs.length ∧ ∃ key', readKey false cs = .ok (key', rest) := by
  unfold readKey at h ⊢
  split at h
  · exact absurd h nofun
  · rename_i behind hquote
    obtain ⟨s, hs, rfl⟩ := map_eq_ok_iff.mp h
    obtain ⟨hrest, s', hs'⟩ := lenient_readString hs
    have hlength := length_afterBlanks_le cs
    rw [hquote, List.length_cons] at hlength
    exact ⟨by omega, String.ofList s', map_eq_ok_iff.mpr ⟨s', hs', rfl⟩⟩
  · exact absurd h nofun

/-! ## Arrays and objects -/

/-- What `value` reads, of a text that is not too long, is passed over by `skip`, up to the same
rest, and that is not longer than the text. -/
def Passes (limit : Nat) (value : List Char → Except Fault (α × List Char))
    (skip : List Char → Except Fault (β × List Char)) : Prop :=
  ∀ cs x rest, cs.length ≤ limit → value cs = .ok (x, rest) →
    rest.length ≤ cs.length ∧ ∃ y, skip cs = .ok (y, rest)

variable {limit : Nat} {value : List Char → Except Fault (α × List Char)}
  {skip : List Char → Except Fault (β × List Char)}

/-- Behind a mark there is less than there was before the white space in front of it. -/
theorem length_of_afterBlanks {c : Char} {behind : List Char} (h : afterBlanks cs = c :: behind) :
    behind.length < cs.length := by
  have hlength := length_afterBlanks_le cs
  rwa [h, List.length_cons] at hlength

/-- Items are passed over if each of them is. -/
theorem Passes.readItems (h : Passes limit value skip) (steps : Nat) :
    Passes limit (Json.readItems value steps) (Json.readItems skip steps) := by
  induction steps with
  | zero => exact fun cs xs rest _ hread => absurd hread nofun
  | succ steps ih =>
    intro cs xs rest hlimit hread
    obtain ⟨x, mid, hx, hend⟩ := readItems_eq_ok_iff.mp hread
    obtain ⟨hmid, y, hy⟩ := h cs x mid hlimit hx
    rcases hend with ⟨hclose, -⟩ | ⟨behind, hcomma, hhead, xs', hxs, -⟩
    · have hrest := length_of_afterBlanks hclose
      exact ⟨by omega, [y], readItems_eq_ok_iff.mpr ⟨y, mid, hy, .inl ⟨hclose, rfl⟩⟩⟩
    · have hbehind := length_of_afterBlanks hcomma
      obtain ⟨hrest, ys, hys⟩ := ih behind xs' rest (by omega) hxs
      exact ⟨by omega, y :: ys, readItems_eq_ok_iff.mpr ⟨y, mid, hy, .inr ⟨behind, hcomma, hhead,
        ys, hys, rfl⟩⟩⟩

/-- So is an array. -/
theorem Passes.readArray (h : Passes limit value skip) :
    Passes limit (Json.readArray value) (Json.readArray skip) := by
  intro cs xs rest hlimit hread
  unfold Json.readArray at hread ⊢
  split at hread
  · exact absurd hread nofun
  · rename_i behind hclose
    obtain ⟨-, rfl⟩ := Prod.mk.inj (Except.ok.inj hread)
    exact ⟨(length_of_afterBlanks hclose).le, [], rfl⟩
  · exact h.readItems cs.length cs xs rest hlimit hread

/-- Behind a colon there is less than there was in front of it. -/
theorem length_of_afterColon (h : afterColon cs = .ok rest) : rest.length < cs.length := by
  unfold afterColon at h
  split at h
  · exact absurd h nofun
  · rename_i behind hcolon
    rw [← Except.ok.inj h]
    exact length_of_afterBlanks hcolon
  · exact absurd h nofun

/-- Members are passed over if each of their values is. -/
theorem Passes.readMembers (h : Passes limit value skip) {steps : Nat}
    {before ms : List (String × α)} (hlimit : cs.length ≤ limit)
    (hread : Json.readMembers true (collect value) steps before cs = .ok (ms, rest)) (y : β) :
    rest.length ≤ cs.length ∧ ∃ y',
      Json.readMembers false (fun _ _ cs => do skip (← afterColon cs)) steps y cs =
        .ok (y', rest) := by
  induction steps generalizing cs before y with
  | zero => exact absurd hread nofun
  | succ steps ih =>
    obtain ⟨key, mid, hkey, t, mid', hm, hend⟩ := readMembers_eq_ok_iff.mp hread
    obtain ⟨hmid, key', hkey'⟩ := lenient_readKey hkey
    obtain ⟨x, hx, -⟩ := (decodesMember_collect value _ _ _ _ _).mp hm
    obtain ⟨behind, hcolon, hx⟩ := bind_eq_ok_iff.mp hx
    have hbehind := length_of_afterColon hcolon
    obtain ⟨hmid', y₁, hy₁⟩ := h behind x mid' (by omega) hx
    have hskip : (do skip (← afterColon mid) : Except Fault (β × List Char)) = .ok (y₁, mid') :=
      bind_eq_ok_iff.mpr ⟨behind, hcolon, hy₁⟩
    rcases hend with ⟨hclose, -⟩ | ⟨further, hcomma, hrest⟩
    · have := length_of_afterBlanks hclose
      exact ⟨by omega, y₁, readMembers_eq_ok_iff.mpr ⟨key', mid, hkey', y₁, mid', hskip,
        .inl ⟨hclose, rfl⟩⟩⟩
    · have := length_of_afterBlanks hcomma
      obtain ⟨hlength, y', hy'⟩ := ih (by omega) hrest y₁
      exact ⟨by omega, y', readMembers_eq_ok_iff.mpr ⟨key', mid, hkey', y₁, mid', hskip,
        .inr ⟨further, hcomma, hy'⟩⟩⟩

/-- So is an object. -/
theorem Passes.readObject (h : Passes limit value skip) {ms : List (String × α)}
    (hlimit : cs.length ≤ limit)
    (hread : Json.readObject true (collect value) [] cs = .ok (ms, rest)) (y : β) :
    rest.length ≤ cs.length ∧ ∃ y',
      Json.readObject false (fun _ _ cs => do skip (← afterColon cs)) y cs = .ok (y', rest) := by
  unfold Json.readObject at hread ⊢
  split at hread
  · exact absurd hread nofun
  · rename_i behind hclose
    obtain ⟨-, rfl⟩ := Prod.mk.inj (Except.ok.inj hread)
    exact ⟨(length_of_afterBlanks hclose).le, y, rfl⟩
  · exact h.readMembers hlimit hread y

/-! ## Values -/

/-- Where a number is ahead, its parts are passed over. -/
theorem skipNested_number (room : Nat) {c : Char} {behind : List Char}
    (hc : (c == '-' || c.isDigit) = true) (hcs : afterBlanks cs = c :: behind) :
    skipNested room cs = (readNumeral false (c :: behind)).map fun (_, cs) => ((), cs) := by
  have hother {x : Char} (hx : (x == '-' || x.isDigit) = false) : c ≠ x := by
    rintro rfl
    exact absurd (hc.symm.trans hx) (by decide)
  rw [skipNested.eq_def, hcs]
  split
  case h_1 heq => exact absurd heq nofun
  case h_8 heq =>
    obtain ⟨rfl, rfl⟩ := List.cons.inj heq
    rw [if_pos hc]
  -- All other values start with some other character.
  all_goals exact absurd (List.cons.inj ‹_›).1 (hother (by decide))

/-- A value is passed over if there is room for as many arrays and objects as the text has
characters. -/
theorem passes_skipNested (room limit : Nat) :
    Passes limit (readValue room) (skipNested limit) := by
  induction room using Nat.strongRecOn generalizing limit with
  | ind room ih =>
    intro cs j rest hlimit hread
    have hahead := readValue_eq_ok_iff.mp hread
    have hlength := length_afterBlanks_le cs
    generalize hcs : afterBlanks cs = bs at hahead hlength
    have hword {word behind : List Char} (h : readWord word behind = .ok rest)
        (hlt : behind.length < cs.length)
        (hskip : skipNested limit cs = (readWord word behind).map ((), ·)) :
        rest.length ≤ cs.length ∧ ∃ y, skipNested limit cs = .ok (y, rest) := by
      have := length_of_readWord h
      exact ⟨by omega, (), by rw [hskip, h]; rfl⟩
    cases hahead with
    | null h => exact hword h hlength (by rw [skipNested.eq_def, hcs]; rfl)
    | yes h => exact hword h hlength (by rw [skipNested.eq_def, hcs]; rfl)
    | no h => exact hword h hlength (by rw [skipNested.eq_def, hcs]; rfl)
    | string h =>
      rw [List.length_cons] at hlength
      obtain ⟨hrest, s', hs'⟩ := lenient_readString h
      refine ⟨by omega, (), ?_⟩
      rw [skipNested.eq_def, hcs]
      simp only [hs']
      rfl
    | @array room behind _ js h =>
      rw [List.length_cons] at hlength
      obtain ⟨limit, rfl⟩ := Nat.exists_eq_add_one.mpr (show 0 < limit by omega)
      obtain ⟨hrest, ys, hys⟩ :=
        (ih room (Nat.lt_succ_self room) limit).readArray behind js rest (by omega) h
      refine ⟨by omega, (), ?_⟩
      rw [skipNested.eq_def, hcs]
      simp only [hys]
      rfl
    | @object room behind _ ms h =>
      rw [List.length_cons] at hlength
      obtain ⟨limit, rfl⟩ := Nat.exists_eq_add_one.mpr (show 0 < limit by omega)
      obtain ⟨hrest, y, hy⟩ :=
        (ih room (Nat.lt_succ_self room) limit).readObject (by omega) h ()
      refine ⟨by omega, y, ?_⟩
      rw [skipNested.eq_def, hcs]
      exact hy
    | number hc h =>
      obtain ⟨⟨n, behind⟩, hn, h⟩ := bind_eq_ok_iff.mp h
      obtain ⟨j', -, h⟩ := bind_eq_ok_iff.mp h
      obtain ⟨-, rfl⟩ := Prod.mk.inj (pure_eq_ok_iff.mp h)
      obtain ⟨hrest, hlenient⟩ := lenient_readNumeral hn
      exact ⟨hrest.trans hlength, (), by rw [skipNested_number limit hc hcs, hlenient]; rfl⟩

/-- Whatever is read as a value is passed over. -/
theorem skipValue_of_readValue {room : Nat} {j : Json} (h : readValue room cs = .ok (j, rest)) :
    skipValue cs = .ok rest := by
  obtain ⟨-, y, hy⟩ := passes_skipNested room cs.length cs j rest (Nat.le_refl _) h
  rw [skipValue, hy]
  rfl

end MessageMarkup.Json
