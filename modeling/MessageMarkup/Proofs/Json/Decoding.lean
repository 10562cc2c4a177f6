import MessageMarkup.Json.Reader
import MessageMarkup.Proofs.Except

/-!
# Readers of a known form

A reader of a known form checks a document while it reads it. It could as well read any value first
and then see what can be made of that: `Decodes` says so of a reader, as far as it goes well. It
carries over from the items of an array to the array (`Decodes.readArray`), and from the members of
an object to the object (`DecodesMember.readObject`), whose members are collected in their order.
What any value starts with, and how it goes on, is told by `Ahead` (`readValue_eq_ok_iff`).
-/

namespace MessageMarkup.Json

variable {α β σ : Type}

/-- A reader makes of what `value` reads what `f` makes of it, and leaves the same text. -/
def Decodes (value : List Char → Except Fault (α × List Char)) (f : α → Except Fault β)
    (reader : List Char → Except Fault (β × List Char)) : Prop :=
  ∀ cs y rest, reader cs = .ok (y, rest) ↔ ∃ x, value cs = .ok (x, rest) ∧ f x = .ok y

variable {value : List Char → Except Fault (α × List Char)} {f : α → Except Fault β}
  {reader : List Char → Except Fault (β × List Char)}

/-- A reader makes nothing else of what it reads. -/
theorem decodes_self (value : List Char → Except Fault (α × List Char)) :
    Decodes value .ok value := by
  intro cs x rest
  constructor
  · intro h
    exact ⟨x, h, rfl⟩
  · rintro ⟨x', h, hx⟩
    exact Except.ok.inj hx ▸ h

/-- What is read with a reader and made into something else. -/
theorem map_eq_ok_iff {γ : Type} {x : Except Fault (α × List Char)} {g : α → γ} {c : γ}
    {rest : List Char} :
    (x.map fun (a, cs) => (g a, cs)) = .ok (c, rest) ↔ ∃ a, x = .ok (a, rest) ∧ g a = c := by
  cases x with
  | error fault => exact ⟨nofun, nofun⟩
  | ok a =>
    obtain ⟨a, cs⟩ := a
    constructor
    · intro h
      obtain ⟨rfl, rfl⟩ := Prod.mk.inj (Except.ok.inj h)
      exact ⟨a, rfl, rfl⟩
    · rintro ⟨a', ha, rfl⟩
      obtain ⟨rfl, rfl⟩ := Prod.mk.inj (Except.ok.inj ha)
      rfl

/-- What is passed over and stands for something. -/
theorem map_mk_eq_ok_iff {x : Except Fault (List Char)} {a a' : α} {rest : List Char} :
    x.map (a, ·) = .ok (a', rest) ↔ x = .ok rest ∧ a = a' := by
  cases x with
  | error fault => exact ⟨nofun, nofun⟩
  | ok cs =>
    constructor
    · intro h
      obtain ⟨rfl, rfl⟩ := Prod.mk.inj (Except.ok.inj h)
      exact ⟨rfl, rfl⟩
    · rintro ⟨h, rfl⟩
      obtain rfl := Except.ok.inj h
      rfl

/-- What is read with a reader and has to pass another check. -/
theorem finish_eq_ok_iff {x : Except Fault (α × List Char)} {b : β} {rest : List Char} :
    (do
      let (a, cs) ← x
      return (← f a, cs) : Except Fault (β × List Char)) = .ok (b, rest) ↔
      ∃ a, x = .ok (a, rest) ∧ f a = .ok b := by
  simp only [bind_eq_ok_iff, pure_eq_ok_iff, Prod.exists, Prod.mk.injEq]
  constructor
  · rintro ⟨a, rest, hx, b, hb, rfl, rfl⟩
    exact ⟨a, hx, hb⟩
  · rintro ⟨a, hx, hb⟩
    exact ⟨a, rest, hx, b, hb, rfl, rfl⟩

/-! ## Arrays -/

/-- Items go well if the first does, and there is the bracket behind it, or a comma and behind that
further items. -/
theorem readItems_eq_ok_iff {steps : Nat} {cs rest : List Char} {ys : List β} :
    readItems reader (steps + 1) cs = .ok (ys, rest) ↔
      ∃ y mid, reader cs = .ok (y, mid) ∧
        (afterBlanks mid = ']' :: rest ∧ [y] = ys ∨
          ∃ behind, afterBlanks mid = ',' :: behind ∧ (afterBlanks behind).head? ≠ some ']' ∧
            ∃ ys', readItems reader steps behind = .ok (ys', rest) ∧ y :: ys' = ys) := by
  rw [readItems, bind_eq_ok_iff, Prod.exists]
  refine exists_congr fun y => exists_congr fun mid => and_congr_right fun _ => ?_
  dsimp only
  cases hmid : afterBlanks mid with
  | nil => simp
  | cons c behind =>
    by_cases hclose : c = ']'
    · simp [hclose, pure_eq_ok_iff, and_comm]
    · by_cases hcomma : c = ','
      · obtain rfl := hcomma
        by_cases hhead : (afterBlanks behind).head? = some ']'
        · obtain ⟨more, hbehind⟩ := List.head?_eq_some_iff.mp hhead
          simp [hbehind]
        · simp only [List.cons.injEq]
          split
          · exact absurd (congrArg List.head? ‹_›) hhead
          · simp [hhead, bind_eq_ok_iff, pure_eq_ok_iff, -bind_pure_comp]
      · simp [hclose, hcomma]

/-- Something is made of each of some items if it is made of the first and of the others. -/
theorem mapM_cons_eq_ok_iff {x : α} {xs : List α} {ys : List β} :
    (x :: xs).mapM f = .ok ys ↔
      ∃ y, f x = .ok y ∧ ∃ ys', xs.mapM f = .ok ys' ∧ y :: ys' = ys := by
  simp only [List.mapM_cons, bind_eq_ok_iff, pure_eq_ok_iff]

/-- Items are decoded one by one. -/
theorem Decodes.readItems (h : Decodes value f reader) (steps : Nat) :
    Decodes (Json.readItems value steps) (List.mapM f) (Json.readItems reader steps) := by
  induction steps with
  | zero => exact fun cs ys rest => ⟨nofun, nofun⟩
  | succ steps ih =>
    intro cs ys rest
    constructor
    · intro hread
      obtain ⟨y, mid, hy, hend⟩ := readItems_eq_ok_iff.mp hread
      obtain ⟨x, hx, hfx⟩ := (h _ _ _).mp hy
      rcases hend with ⟨hclose, rfl⟩ | ⟨behind, hcomma, hhead, ys', hys, rfl⟩
      · exact ⟨[x], readItems_eq_ok_iff.mpr ⟨x, mid, hx, .inl ⟨hclose, rfl⟩⟩,
          mapM_cons_eq_ok_iff.mpr ⟨y, hfx, [], rfl, rfl⟩⟩
      · obtain ⟨xs, hxs, hfxs⟩ := (ih _ _ _).mp hys
        exact ⟨x :: xs, readItems_eq_ok_iff.mpr ⟨x, mid, hx, .inr ⟨behind, hcomma, hhead, xs, hxs,
          rfl⟩⟩, mapM_cons_eq_ok_iff.mpr ⟨y, hfx, ys', hfxs, rfl⟩⟩
    · rintro ⟨xs, hread, hfxs⟩
      obtain ⟨x, mid, hx, hend⟩ := readItems_eq_ok_iff.mp hread
      rcases hend with ⟨hclose, rfl⟩ | ⟨behind, hcomma, hhead, xs', hxs, rfl⟩
      · obtain ⟨y, hfx, ys', hnil, rfl⟩ := mapM_cons_eq_ok_iff.mp hfxs
        obtain rfl := Except.ok.inj hnil
        exact readItems_eq_ok_iff.mpr ⟨y, mid, (h _ _ _).mpr ⟨x, hx, hfx⟩, .inl ⟨hclose, rfl⟩⟩
      · obtain ⟨y, hfx, ys', hfxs', rfl⟩ := mapM_cons_eq_ok_iff.mp hfxs
        exact readItems_eq_ok_iff.mpr ⟨y, mid, (h _ _ _).mpr ⟨x, hx, hfx⟩, .inr ⟨behind, hcomma,
          hhead, ys', (ih _ _ _).mpr ⟨xs', hxs, hfxs'⟩, rfl⟩⟩

/-- An array is decoded by its items. -/
theorem Decodes.readArray (h : Decodes value f reader) :
    Decodes (Json.readArray value) (List.mapM f) (Json.readArray reader) := by
  intro cs ys rest
  unfold Json.readArray
  split
  · exact ⟨nofun, nofun⟩
  · constructor
    · intro hread
      obtain ⟨rfl, rfl⟩ := Prod.mk.inj (Except.ok.inj hread)
      exact ⟨[], rfl, rfl⟩
    · rintro ⟨xs, hread, hfxs⟩
      obtain ⟨rfl, rfl⟩ := Prod.mk.inj (Except.ok.inj hread)
      obtain rfl := Except.ok.inj hfxs
      rfl
  · exact h.readItems cs.length cs ys rest

/-! ## Objects -/

/-- The members of an object in their order, with what `value` reads for each of them. -/
def collect (value : List Char → Except Fault (α × List Char)) (ms : List (String × α))
    (key : String) (cs : List Char) : Except Fault (List (String × α) × List Char) := do
  let (x, cs) ← value (← afterColon cs)
  return (ms ++ [(key, x)], cs)

/-- The reader of a member adds to what it is given what `step` adds of the member. -/
def DecodesMember (value : List Char → Except Fault (α × List Char))
    (step : σ → String × α → Except Fault σ)
    (member : σ → String → List Char → Except Fault (σ × List Char)) : Prop :=
  ∀ s key cs s' rest, member s key cs = .ok (s', rest) ↔
    ∃ x, (afterColon cs >>= value) = .ok (x, rest) ∧ step s (key, x) = .ok s'

/-- A member is decoded if its value is, and takes its place in what is given. -/
theorem Decodes.field (h : Decodes value f reader) (g : β → σ) {cs rest : List Char} {s' : σ} :
    (do
      let (y, cs) ← reader (← afterColon cs)
      return (g y, cs) : Except Fault (σ × List Char)) = .ok (s', rest) ↔
      ∃ x, (afterColon cs >>= value) = .ok (x, rest) ∧ (do return g (← f x)) = .ok s' := by
  simp only [bind_eq_ok_iff, pure_eq_ok_iff, Prod.exists, Prod.mk.injEq]
  constructor
  · rintro ⟨behind, hcolon, y, rest, hy, rfl, rfl⟩
    obtain ⟨x, hx, hfx⟩ := (h _ _ _).mp hy
    exact ⟨x, ⟨behind, hcolon, hx⟩, y, hfx, rfl⟩
  · rintro ⟨x, ⟨behind, hcolon, hx⟩, y, hfx, rfl⟩
    exact ⟨behind, hcolon, y, rest, (h _ _ _).mpr ⟨x, hx, hfx⟩, rfl, rfl⟩

variable {step : σ → String × α → Except Fault σ}
  {member : σ → String → List Char → Except Fault (σ × List Char)} {strict : Bool}

/-- A member is collected by adding it to those before it. -/
theorem decodesMember_collect (value : List Char → Except Fault (α × List Char)) :
    DecodesMember value (fun ms m => .ok (ms ++ [m])) (collect value) := by
  intro ms key cs ms' rest
  exact (decodes_self value).field fun x => ms ++ [(key, x)]

/-- Members go well if the first does, and there is the brace behind it, or a comma and behind that
further members. -/
theorem readMembers_eq_ok_iff {steps : Nat} {s s' : σ} {cs rest : List Char} :
    readMembers strict member (steps + 1) s cs = .ok (s', rest) ↔
      ∃ key mid, readKey strict cs = .ok (key, mid) ∧ ∃ t mid', member s key mid = .ok (t, mid') ∧
        (afterBlanks mid' = '}' :: rest ∧ t = s' ∨
          ∃ behind, afterBlanks mid' = ',' :: behind ∧
            readMembers strict member steps t behind = .ok (s', rest)) := by
  rw [readMembers, bind_eq_ok_iff, Prod.exists]
  refine exists_congr fun key => exists_congr fun mid => and_congr_right fun _ => ?_
  dsimp only
  rw [bind_eq_ok_iff, Prod.exists]
  refine exists_congr fun t => exists_congr fun mid' => and_congr_right fun _ => ?_
  dsimp only
  cases hmid : afterBlanks mid' with
  | nil => simp
  | cons c behind =>
    by_cases hclose : c = '}'
    · simp [hclose, pure_eq_ok_iff, and_comm]
    · by_cases hcomma : c = ','
      · simp [hcomma]
      · simp [hclose, hcomma]

/-- What has been collected stays in front. -/
theorem exists_append_of_collect {steps : Nat} {before ms : List (String × α)}
    {cs rest : List Char}
    (h : readMembers strict (collect value) steps before cs = .ok (ms, rest)) :
    ∃ added, ms = before ++ added := by
  induction steps generalizing before cs with
  | zero => exact absurd h nofun
  | succ steps ih =>
    obtain ⟨key, mid, -, t, mid', hm, hend⟩ := readMembers_eq_ok_iff.mp h
    obtain ⟨x, -, ht⟩ := (decodesMember_collect value _ _ _ _ _).mp hm
    obtain rfl := Except.ok.inj ht
    rcases hend with ⟨-, rfl⟩ | ⟨behind, -, hrest⟩
    · exact ⟨_, rfl⟩
    · obtain ⟨added, rfl⟩ := ih hrest
      exact ⟨(key, x) :: added, List.append_assoc before [(key, x)] added⟩

/-- Steps go well if the first does and the others do from there. -/
theorem foldlM_cons_eq_ok_iff {m : String × α} {ms : List (String × α)} {s s' : σ} :
    (m :: ms).foldlM step s = .ok s' ↔ ∃ t, step s m = .ok t ∧ ms.foldlM step t = .ok s' := by
  rw [List.foldlM_cons, bind_eq_ok_iff]

/-- Members are decoded one by one, behind any that have been collected. -/
theorem DecodesMember.readMembers_iff (h : DecodesMember value step member) {steps : Nat}
    {s s' : σ} {cs rest : List Char} (before : List (String × α)) :
    readMembers strict member steps s cs = .ok (s', rest) ↔
      ∃ ms, readMembers strict (collect value) steps before cs = .ok (before ++ ms, rest) ∧
        ms.foldlM step s = .ok s' := by
  induction steps generalizing s cs before with
  | zero => exact ⟨nofun, nofun⟩
  | succ steps ih =>
    have hassoc (m : String × α) (ms : List (String × α)) :
        before ++ [m] ++ ms = before ++ m :: ms := List.append_assoc before [m] ms
    constructor
    · intro hread
      obtain ⟨key, mid, hkey, t, mid', hm, hend⟩ := readMembers_eq_ok_iff.mp hread
      obtain ⟨x, hx, hstep⟩ := (h _ _ _ _ _).mp hm
      have hcollect := (decodesMember_collect value before key mid _ mid').mpr ⟨x, hx, rfl⟩
      rcases hend with ⟨hclose, rfl⟩ | ⟨behind, hcomma, hrest⟩
      · exact ⟨[(key, x)], readMembers_eq_ok_iff.mpr ⟨key, mid, hkey, _, mid', hcollect,
          .inl ⟨hclose, rfl⟩⟩, foldlM_cons_eq_ok_iff.mpr ⟨t, hstep, rfl⟩⟩
      · obtain ⟨ms, hms, hfold⟩ := (ih (before ++ [(key, x)])).mp hrest
        rw [hassoc] at hms
        exact ⟨(key, x) :: ms, readMembers_eq_ok_iff.mpr ⟨key, mid, hkey, _, mid', hcollect,
          .inr ⟨behind, hcomma, hms⟩⟩, foldlM_cons_eq_ok_iff.mpr ⟨t, hstep, hfold⟩⟩
    · rintro ⟨ms, hread, hfold⟩
      obtain ⟨key, mid, hkey, t, mid', hm, hend⟩ := readMembers_eq_ok_iff.mp hread
      obtain ⟨x, hx, ht⟩ := (decodesMember_collect value _ _ _ _ _).mp hm
      obtain rfl := Except.ok.inj ht
      -- What has been collected behind the first member are the other members.
      obtain ⟨ms', rfl⟩ : ∃ ms', ms = (key, x) :: ms' := by
        rcases hend with ⟨-, heq⟩ | ⟨behind, -, hrest⟩
        · exact ⟨[], List.append_cancel_left heq.symm⟩
        · obtain ⟨ms', heq⟩ := exists_append_of_collect hrest
          rw [hassoc] at heq
          exact ⟨ms', List.append_cancel_left heq⟩
      obtain ⟨s₁, hstep, hfold'⟩ := foldlM_cons_eq_ok_iff.mp hfold
      refine readMembers_eq_ok_iff.mpr ⟨key, mid, hkey, s₁, mid', (h _ _ _ _ _).mpr ⟨x, hx, hstep⟩,
        ?_⟩
      rcases hend with ⟨hclose, heq⟩ | ⟨behind, hcomma, hrest⟩
      · obtain rfl : ms' = [] := (List.cons.inj (List.append_cancel_left heq.symm)).2
        exact .inl ⟨hclose, Except.ok.inj hfold'⟩
      · rw [← hassoc (key, x) ms'] at hrest
        exact .inr ⟨behind, hcomma, (ih (before ++ [(key, x)])).mpr ⟨ms', hrest, hfold'⟩⟩

/-- An object is decoded by its members. -/
theorem DecodesMember.readObject (strict : Bool) (h : DecodesMember value step member) (s : σ) :
    Decodes (Json.readObject strict (collect value) []) (fun ms => ms.foldlM step s)
      (Json.readObject strict member s) := by
  intro cs s' rest
  unfold Json.readObject
  split
  · exact ⟨nofun, nofun⟩
  · constructor
    · intro hread
      obtain ⟨rfl, rfl⟩ := Prod.mk.inj (Except.ok.inj hread)
      exact ⟨[], rfl, rfl⟩
    · rintro ⟨ms, hread, hfold⟩
      obtain ⟨rfl, rfl⟩ := Prod.mk.inj (Except.ok.inj hread)
      obtain rfl := Except.ok.inj hfold
      rfl
  · exact h.readMembers_iff []

/-! ## Values -/

/-- A value that a text without blanks before it starts with, and the text behind it. -/
inductive Ahead : Nat → List Char → Json → List Char → Prop
  | null {room : Nat} {cs rest : List Char} (h : readWord ['u', 'l', 'l'] cs = .ok rest) :
    Ahead room ('n' :: cs) .null rest
  | yes {room : Nat} {cs rest : List Char} (h : readWord ['r', 'u', 'e'] cs = .ok rest) :
    Ahead room ('t' :: cs) (.bool true) rest
  | no {room : Nat} {cs rest : List Char} (h : readWord ['a', 'l', 's', 'e'] cs = .ok rest) :
    Ahead room ('f' :: cs) (.bool false) rest
  | string {room : Nat} {cs s rest : List Char} (h : readString true cs = .ok (s, rest)) :
    Ahead room ('"' :: cs) (.string (String.ofList s)) rest
  | array {room : Nat} {cs rest : List Char} {js : List Json}
    (h : readArray (readValue room) cs = .ok (js, rest)) :
    Ahead (room + 1) ('[' :: cs) (.array js) rest
  | object {room : Nat} {cs rest : List Char} {ms : List (String × Json)}
    (h : readObject true (collect (readValue room)) [] cs = .ok (ms, rest)) :
    Ahead (room + 1) ('{' :: cs) (.object ms) rest
  | number {room : Nat} {c : Char} {cs rest : List Char} {j : Json}
    (hc : (c == '-' || c.isDigit) = true) (h : readNumber (c :: cs) = .ok (j, rest)) :
    Ahead room (c :: cs) j rest

/-- Reading any value goes well where one is ahead. -/
theorem readValue_eq_ok_iff {room : Nat} {cs rest : List Char} {j : Json} :
    readValue room cs = .ok (j, rest) ↔ Ahead room (afterBlanks cs) j rest := by
  rw [readValue.eq_def]
  generalize afterBlanks cs = bs
  constructor
  · intro h
    split at h
    · exact absurd h nofun
    · obtain ⟨hword, rfl⟩ := map_mk_eq_ok_iff.mp h
      exact .null hword
    · obtain ⟨hword, rfl⟩ := map_mk_eq_ok_iff.mp h
      exact .yes hword
    · obtain ⟨hword, rfl⟩ := map_mk_eq_ok_iff.mp h
      exact .no hword
    · obtain ⟨s, hs, rfl⟩ := (map_eq_ok_iff (g := fun s => string (String.ofList s))).mp h
      exact .string hs
    · split at h
      · exact absurd h nofun
      · obtain ⟨js, hjs, rfl⟩ := map_eq_ok_iff.mp h
        exact .array hjs
    · split at h
      · exact absurd h nofun
      · obtain ⟨ms, hms, rfl⟩ := map_eq_ok_iff.mp h
        exact .object hms
    · split at h
      · exact .number ‹_› h
      · exact absurd h nofun
  · intro h
    cases h with
    | null h => simp only [h]; rfl
    | yes h => simp only [h]; rfl
    | no h => simp only [h]; rfl
    | string h => simp only [h]; rfl
    | array h => simp only [h]; rfl
    | @object room cs _ _ h =>
      have hmembers : readObject true (readMember (readValue room)) [] cs = _ := h
      simp only [hmembers]
      rfl
    | @number _ c cs _ _ hc h =>
      have hother {x : Char} (hx : (x == '-' || x.isDigit) = false) : c ≠ x := by
        rintro rfl
        exact absurd (hc.symm.trans hx) (by decide)
      split
      case h_8 heq =>
        obtain ⟨rfl, rfl⟩ := List.cons.inj heq
        rw [if_pos hc, h]
      case h_1 heq => exact absurd heq nofun
      -- All other values start with some other character.
      all_goals exact absurd (List.cons.inj ‹_›).1 (hother (by decide))

/-- A number is an integer of 64 bits or any other number. -/
theorem cases_readNumber {cs rest : List Char} {j : Json} (h : readNumber cs = .ok (j, rest)) :
    (∃ n, j = .integer n) ∨ ∃ literal, j = .real literal := by
  obtain ⟨⟨n, behind⟩, -, h⟩ := bind_eq_ok_iff.mp h
  obtain ⟨j', hj, h⟩ := bind_eq_ok_iff.mp h
  obtain ⟨rfl, -⟩ := Prod.mk.inj (pure_eq_ok_iff.mp h)
  unfold Numeral.toJson at hj
  split at hj
  · exact .inl ⟨_, (Except.ok.inj hj).symm⟩
  · split at hj
    · exact absurd hj nofun
    · exact .inr ⟨_, (Except.ok.inj hj).symm⟩

variable {room : Nat} {cs rest : List Char}

/-- A string is ahead behind a quote. -/
theorem ahead_string_iff {s : String} :
    Ahead room cs (.string s) rest ↔
      ∃ behind t, cs = '"' :: behind ∧ readString true behind = .ok (t, rest) ∧
        String.ofList t = s := by
  constructor
  · intro h
    cases h with
    | string h => exact ⟨_, _, rfl, h, rfl⟩
    | number _ h => rcases cases_readNumber h with ⟨n, hj⟩ | ⟨literal, hj⟩ <;> exact absurd hj nofun
  · rintro ⟨behind, t, rfl, h, rfl⟩
    exact .string h

/-- An integer is ahead where a number is read as one. -/
theorem ahead_integer_iff {n : Int} :
    Ahead room cs (.integer n) rest ↔
      ∃ c behind, cs = c :: behind ∧ (c == '-' || c.isDigit) = true ∧
        readNumber (c :: behind) = .ok (.integer n, rest) := by
  constructor
  · intro h
    cases h with
    | number hc h => exact ⟨_, _, rfl, hc, h⟩
  · rintro ⟨c, behind, rfl, hc, h⟩
    exact .number hc h

/-- An array is ahead behind a bracket, if there is room. -/
theorem ahead_array_iff {js : List Json} :
    Ahead (room + 1) cs (.array js) rest ↔
      ∃ behind, cs = '[' :: behind ∧ readArray (readValue room) behind = .ok (js, rest) := by
  constructor
  · intro h
    cases h with
    | array h => exact ⟨_, rfl, h⟩
    | number _ h => rcases cases_readNumber h with ⟨n, hj⟩ | ⟨literal, hj⟩ <;> exact absurd hj nofun
  · rintro ⟨behind, rfl, h⟩
    exact .array h

/-- An object is ahead behind a brace, if there is room. -/
theorem ahead_object_iff {ms : List (String × Json)} :
    Ahead (room + 1) cs (.object ms) rest ↔
      ∃ behind, cs = '{' :: behind ∧
        readObject true (collect (readValue room)) [] behind = .ok (ms, rest) := by
  constructor
  · intro h
    cases h with
    | object h => exact ⟨_, rfl, h⟩
    | number _ h => rcases cases_readNumber h with ⟨n, hj⟩ | ⟨literal, hj⟩ <;> exact absurd hj nofun
  · rintro ⟨behind, rfl, h⟩
    exact .object h

end MessageMarkup.Json
