import MessageMarkup.Link
import MessageMarkup.Proofs.Pattern.Search
import MessageMarkup.Proofs.Utf16

/-!
# Links in the standard way

The standard link pattern reads a label in brackets and a url in parentheses, both as short as
possible. `linkAhead?_eq_some_iff` says which texts these are: the label reaches to the first
closing bracket, an opening parenthesis follows, and the url reaches to the first closing
parenthesis.

The program of the pattern goes through a text without coming back to where it was, so what comes of
its threads can be written down, one equation for each of its instructions (`standardOutcome`), and
`Program.Outcome` says that this is what a search finds.
-/

namespace MessageMarkup

namespace Cursor

/-- The place after the next character, if that is `x`. -/
def after? (x : Char) (c : Cursor) : Option Cursor :=
  match c.next? with
  | some (y, d) => if y = x then some d else none
  | none => none

/-- The place before the first `x`, if there is one; what is left is given apart from the place. -/
def seekIn? (x : Char) : Option Char → List Char → Nat → Option Cursor
  | _, [], _ => none
  | before, c :: cs, index =>
    if c = x then some ⟨before, c :: cs, index⟩ else seekIn? x (some c) cs (index + 1)

/-- The place before the first `x` from a place on, if there is one. -/
def seek? (x : Char) (c : Cursor) : Option Cursor :=
  seekIn? x c.before c.rest c.index

end Cursor

namespace LinkPattern

/-- The instructions of the standard link pattern. -/
def standardCode : Code :=
  #[.accept, .consume (.only ')') 0, .leave 2 1, .fork 2 4, .consume .anything 3, .enter 3,
    .consume (.only '(') 5, .consume (.only ']') 6, .leave 1 7, .fork 8 10,
    .consume (CharSet.only ']').compl 9, .enter 9, .consume (.only '[') 11]

/-- The standard link pattern is compiled to these instructions, the last of which is the first. -/
theorem standard_program : standard.program = ⟨standardCode, 12⟩ := by decide

/-! ## What comes of a thread -/

/-- Before the closing parenthesis. -/
def ofUrlEnd (t : Thread) : Option Match :=
  (t.place.after? ')').bind fun c => some ⟨c, t.captures⟩

/-- In the url. -/
def ofUrl (t : Thread) : Option Match :=
  (t.place.seek? ')').bind fun c => ofUrlEnd ({ t with place := c }.leave 2 1)

/-- Before the opening parenthesis. -/
def ofUrlStart (t : Thread) : Option Match :=
  (t.place.after? '(').bind fun c => ofUrl ({ t with place := c }.enter 3)

/-- Before the closing bracket. -/
def ofLabelEnd (t : Thread) : Option Match :=
  (t.place.after? ']').bind fun c => ofUrlStart { t with place := c }

/-- In the label. -/
def ofLabel (t : Thread) : Option Match :=
  (t.place.seek? ']').bind fun c => ofLabelEnd ({ t with place := c }.leave 1 7)

/-- Before the opening bracket. -/
def ofLabelStart (t : Thread) : Option Match :=
  (t.place.after? '[').bind fun c => ofLabel ({ t with place := c }.enter 9)

/-- The match to which a thread of the standard link pattern leads. -/
def standardOf (t : Thread) : Option Match :=
  match t.state with
  | 0 => some ⟨t.place, t.captures⟩
  | 1 => ofUrlEnd t
  | 2 => ofUrlEnd (t.leave 2 1)
  | 3 => ofUrl t
  | 4 => t.place.next?.bind fun (_, c) => ofUrl { t with place := c }
  | 5 => ofUrl (t.enter 3)
  | 6 => ofUrlStart t
  | 7 => ofLabelEnd t
  | 8 => ofLabelEnd (t.leave 1 7)
  | 9 => ofLabel t
  | 10 => t.place.next?.bind fun (x, c) => if x = ']' then none else ofLabel { t with place := c }
  | 11 => ofLabel (t.enter 9)
  | 12 => ofLabelStart t
  | _ => none

/-- The number of steps that the instructions can take at one place, at most. -/
def standardDepth : Nat → Nat
  | 2 | 8 => 1
  | 3 | 9 => 2
  | 5 | 11 => 3
  | _ => 0

/-- A bound for the steps of a thread of the standard link pattern. -/
def standardRank (t : Thread) : Nat :=
  4 * t.place.rest.length + standardDepth t.state

/-- A character is in the set of one character if it is that one. -/
theorem contains_only (x c : Char) : (CharSet.only x).contains c = decide (c = x) := by
  have hiff : ((CharSet.only x).contains c = true) ↔ c = x := by
    simp only [CharSet.only, CharSet.range, CharSet.contains, CharSet.covers]
    split
    · simp only [Bool.false_eq_true, false_iff]
      rintro rfl
      omega
    · rw [Bool.or_false, decide_eq_true_eq, ← Char.toNat_inj]
      omega
  rw [Bool.eq_iff_iff, hiff, decide_eq_true_eq]

/-- Every character is in the set of all. -/
theorem contains_anything (c : Char) : CharSet.anything.contains c = true := by
  have hc := Utf16.char_bounds c
  simp only [CharSet.anything, CharSet.contains, CharSet.covers, Nat.not_lt_zero, if_false,
    Bool.or_false, decide_eq_true_eq]
  omega

/-- What a label may contain is anything but its end. -/
theorem contains_compl_only (c : Char) :
    (CharSet.only ']').compl.contains c = decide (c ≠ ']') := by
  have hcompl : (CharSet.only ']').compl = ⟨[(0, 0x5C), (0x5E, 0x10FFFF)]⟩ := by decide
  have hc := Utf16.char_bounds c
  have hne : c = ']' ↔ c.toNat = 0x5D := by
    rw [← Char.toNat_inj]
    rfl
  rw [hcompl, Bool.eq_iff_iff, decide_eq_true_eq, Ne, hne]
  simp only [CharSet.contains, CharSet.covers, Nat.not_lt_zero, if_false, Bool.or_false,
    Bool.or_eq_true, decide_eq_true_eq]
  split <;> simp only [Bool.false_eq_true, or_false, decide_eq_true_eq] <;> omega

/-- Where the thing sought is not the next character, it is sought behind that. -/
theorem seek?_eq (x : Char) (c : Cursor) :
    c.seek? x = c.next?.bind fun (y, d) => if y = x then some c else d.seek? x := by
  obtain ⟨before, rest, index⟩ := c
  cases rest <;> rfl

/-- Consuming one character is being before it. -/
theorem findSome?_consume_only (f : Thread → Option Match) (t : Thread) (x : Char) (next : Nat) :
    (t.after (.consume (.only x) next)).findSome? f =
      (t.place.after? x).bind fun c => f { t with state := next, place := c } := by
  unfold Thread.after Cursor.after?
  cases t.place.next? with
  | none => rfl
  | some p =>
    simp only [contains_only, decide_eq_true_eq]
    split <;> simp

/-- Leaving a group goes on with the next instruction. -/
theorem findSome?_leave (f : Thread → Option Match) (t : Thread) (group next : Nat) :
    (t.after (.leave group next)).findSome? f = f (t.leave group next) :=
  List.findSome?_singleton

/-- Entering a group goes on with the next instruction. -/
theorem findSome?_enter (f : Thread → Option Match) (t : Thread) (next : Nat) :
    (t.after (.enter next)).findSome? f = f (t.enter next) :=
  List.findSome?_singleton

/-- A fork goes on with its first way, or else with its second. -/
theorem findSome?_fork (f : Thread → Option Match) (t : Thread) (first second : Nat) :
    (t.after (.fork first second)).findSome? f =
      (f { t with state := first }).or (f { t with state := second }) := by
  unfold Thread.after
  rw [List.findSome?_cons, List.findSome?_singleton]
  cases f { t with state := first } <;> rfl

/-- Leaving a group does not move. -/
@[simp] theorem place_leave (t : Thread) (group next : Nat) :
    (t.leave group next).place = t.place := by
  unfold Thread.leave
  split <;> rfl

/-- What needs an `x` comes of the first one, which is here or further on. -/
theorem seek?_bind {x : Char} {g : Cursor → Option Match}
    (hg : ∀ c : Cursor, c.after? x = none → g c = none) (c : Cursor) :
    (c.seek? x).bind g =
      (g c).or (c.next?.bind fun (y, d) => if y = x then none else (d.seek? x).bind g) := by
  have hc := hg c
  rw [seek?_eq]
  unfold Cursor.after? at hc
  cases hn : c.next? with
  | none =>
    rw [hn] at hc
    simp [hc rfl]
  | some p =>
    obtain ⟨y, d⟩ := p
    rw [hn] at hc
    by_cases hy : y = x
    · simp [hy]
    · have hnone : g c = none := hc (if_neg hy)
      simp [hy, hnone]

/-- The label ends here, or it goes on with a character that does not end it. -/
theorem ofLabel_eq (t : Thread) : ofLabel t =
    (ofLabelEnd (t.leave 1 7)).or
      (t.place.next?.bind fun (x, c) =>
        if x = ']' then none else ofLabel { t with place := c }) := by
  refine seek?_bind (g := fun c => ofLabelEnd ({ t with place := c }.leave 1 7)) ?_ t.place
  intro c hc
  rw [ofLabelEnd, place_leave, hc, Option.bind_none]

/-- The url ends here, or it goes on. -/
theorem ofUrl_eq (t : Thread) : ofUrl t =
    (ofUrlEnd (t.leave 2 1)).or (t.place.next?.bind fun (_, c) => ofUrl { t with place := c }) := by
  have h := seek?_bind (x := ')') (g := fun c => ofUrlEnd ({ t with place := c }.leave 2 1))
    (fun c hc => by rw [ofUrlEnd, place_leave, hc, Option.bind_none]) t.place
  refine h.trans ?_
  show (ofUrlEnd (t.leave 2 1)).or _ = _
  rw [ofUrlEnd, place_leave, Cursor.after?]
  -- Where the url can end there is a match, and it does not matter that it could go on.
  cases t.place.next? with
  | none => rfl
  | some p =>
    obtain ⟨y, d⟩ := p
    by_cases hy : y = ')'
    · simp [hy]
    · simp [hy, ofUrl]

/-- Whether a match comes of the end of the url depends on the place only. -/
theorem isSome_ofUrlEnd (t : Thread) : (ofUrlEnd t).isSome = (t.place.after? ')').isSome := by
  unfold ofUrlEnd
  cases t.place.after? ')' <;> rfl

/-- The same for the url. -/
theorem isSome_ofUrl {t u : Thread} (h : t.place = u.place) :
    (ofUrl t).isSome = (ofUrl u).isSome := by
  unfold ofUrl
  rw [h]
  cases u.place.seek? ')' with
  | none => rfl
  | some c => rw [Option.bind_some, Option.bind_some, isSome_ofUrlEnd, isSome_ofUrlEnd, place_leave,
      place_leave]

/-- The same for what stands between the label and the url. -/
theorem isSome_ofUrlStart {t u : Thread} (h : t.place = u.place) :
    (ofUrlStart t).isSome = (ofUrlStart u).isSome := by
  unfold ofUrlStart
  rw [h]
  cases u.place.after? '(' with
  | none => rfl
  | some c => exact isSome_ofUrl rfl

/-- The same for the end of the label. -/
theorem isSome_ofLabelEnd {t u : Thread} (h : t.place = u.place) :
    (ofLabelEnd t).isSome = (ofLabelEnd u).isSome := by
  unfold ofLabelEnd
  rw [h]
  cases u.place.after? ']' with
  | none => rfl
  | some c => exact isSome_ofUrlStart rfl

/-- The same for the label. -/
theorem isSome_ofLabel {t u : Thread} (h : t.place = u.place) :
    (ofLabel t).isSome = (ofLabel u).isSome := by
  unfold ofLabel
  rw [h]
  cases u.place.seek? ']' with
  | none => rfl
  | some c => exact isSome_ofLabelEnd (by rw [place_leave, place_leave])

/-- A match depends on what has been captured, but whether there is one does not. -/
theorem isSome_standardOf {t u : Thread} (hstate : t.state = u.state) (hplace : t.place = u.place) :
    (standardOf t).isSome = (standardOf u).isSome := by
  unfold standardOf
  rw [hstate, hplace]
  split
  · rfl
  · rw [isSome_ofUrlEnd, isSome_ofUrlEnd, hplace]
  · rw [isSome_ofUrlEnd, isSome_ofUrlEnd, place_leave, place_leave, hplace]
  · exact isSome_ofUrl hplace
  · cases u.place.next? with
    | none => rfl
    | some p => exact isSome_ofUrl rfl
  · exact isSome_ofUrl hplace
  · exact isSome_ofUrlStart hplace
  · exact isSome_ofLabelEnd hplace
  · exact isSome_ofLabelEnd (by rw [place_leave, place_leave, hplace])
  · exact isSome_ofLabel hplace
  · cases u.place.next? with
    | none => rfl
    | some p =>
      obtain ⟨x, c⟩ := p
      simp only [Option.bind_some]
      split
      · rfl
      · exact isSome_ofLabel rfl
  · exact isSome_ofLabel hplace
  · unfold ofLabelStart
    rw [hplace]
    cases u.place.after? '[' with
    | none => rfl
    | some c => exact isSome_ofLabel rfl
  · rfl

/-- Consuming a character leaves fewer. -/
theorem length_rest_lt_of_next? {c d : Cursor} {x : Char} (h : c.next? = some (x, d)) :
    d.rest.length < c.rest.length := by
  obtain ⟨before, rest, index⟩ := c
  cases rest with
  | nil => simp [Cursor.next?_of_nil] at h
  | cons y ys =>
    cases h
    exact Nat.lt_succ_self _

/-- There are fewer steps to take at a place than the bound allows for a character. -/
theorem standardDepth_lt (n : Nat) : standardDepth n < 4 := by
  unfold standardDepth
  split <;> omega

/-- The bound falls where an instruction does not consume, since it goes on with one of less depth;
and where it does, since a character is worth more than any depth. -/
theorem standardRank_lt {t u : Thread} {i : Instruction}
    (hi : standard.program.code[t.state]? = some i) (hu : u ∈ t.after i) :
    standardRank u < standardRank t := by
  -- An instruction either consumes a character or leads to one of less depth at the same place.
  have hconsume (set : CharSet) (next : Nat) (h : u ∈ t.after (.consume set next)) :
      standardRank u < standardRank t := by
    unfold Thread.after at h
    cases hn : t.place.next? with
    | none => simp [hn] at h
    | some p =>
      have hlt := length_rest_lt_of_next? (d := p.2) (x := p.1) hn
      have hdepth := standardDepth_lt next
      have hu : u = { t with state := next, place := p.2 } := by
        simp only [hn] at h
        split at h
        · exact List.mem_singleton.mp h
        · simp at h
      rw [hu, standardRank, standardRank]
      show 4 * p.2.rest.length + standardDepth next < _
      omega
  have hstay (hplace : u.place = t.place) (h : standardDepth u.state < standardDepth t.state) :
      standardRank u < standardRank t := by
    rw [standardRank, standardRank, hplace]
    omega
  rw [standard_program] at hi
  obtain ⟨state, place, begun, captures⟩ := t
  match state, hi with
  | 0, hi =>
    cases hi
    exact absurd hu List.not_mem_nil
  | 1, hi | 4, hi | 6, hi | 7, hi | 10, hi | 12, hi =>
    cases hi
    exact hconsume _ _ hu
  | 2, hi | 8, hi =>
    cases hi
    obtain rfl := List.mem_singleton.mp hu
    exact hstay (place_leave _ _ _) (by cases begun <;> exact Nat.zero_lt_one)
  | 5, hi | 11, hi =>
    cases hi
    obtain rfl := List.mem_singleton.mp hu
    exact hstay rfl (Nat.lt_succ_self 2)
  | 3, hi | 9, hi =>
    cases hi
    rcases List.mem_pair.mp hu with rfl | rfl
    · exact hstay rfl (Nat.lt_succ_self 1)
    · exact hstay rfl Nat.zero_lt_two

/-- What comes of the threads of the standard link pattern. -/
def standardOutcome : standard.program.Outcome where
  of := standardOf
  rank := standardRank
  of_eq t := by
    rw [standard_program]
    obtain ⟨state, place, begun, captures⟩ := t
    match state with
    | 0 => rfl
    | 1 => exact (findSome?_consume_only standardOf _ ')' 0).symm
    | 2 =>
      show ofUrlEnd _ = (Thread.after _ (.leave 2 1)).findSome? standardOf
      rw [findSome?_leave]
      cases begun <;> rfl
    | 3 =>
      -- Here the url ends or goes on, and so does the label at the other fork.
      show ofUrl _ = (Thread.after _ (.fork 2 4)).findSome? standardOf
      rw [findSome?_fork, ofUrl_eq]
      rfl
    | 4 =>
      show _ = (Thread.after _ (.consume .anything 3)).findSome? standardOf
      unfold Thread.after
      cases hn : place.next? with
      | none => simp [standardOf, hn]
      | some p =>
        simp only [standardOf, hn, contains_anything, Option.bind_some, if_true,
          List.findSome?_singleton]
        cases begun <;> rfl
    | 5 => exact (findSome?_enter standardOf ⟨5, place, begun, captures⟩ 3).symm
    | 6 => exact (findSome?_consume_only standardOf _ '(' 5).symm
    | 7 => exact (findSome?_consume_only standardOf _ ']' 6).symm
    | 8 =>
      show ofLabelEnd _ = (Thread.after _ (.leave 1 7)).findSome? standardOf
      rw [findSome?_leave]
      cases begun <;> rfl
    | 9 =>
      show ofLabel _ = (Thread.after _ (.fork 8 10)).findSome? standardOf
      rw [findSome?_fork, ofLabel_eq]
      rfl
    | 10 =>
      show _ = (Thread.after _ (.consume (CharSet.only ']').compl 9)).findSome? standardOf
      unfold Thread.after
      cases hn : place.next? with
      | none => simp [standardOf, hn]
      | some p =>
        by_cases hp : p.1 = ']'
        · simp [standardOf, hn, contains_compl_only, hp]
        · simp only [standardOf, hn, contains_compl_only, hp, Option.bind_some, if_false, Ne,
            not_false_eq_true, decide_true, if_true, List.findSome?_singleton]
          cases begun <;> rfl
    | 11 => exact (findSome?_enter standardOf ⟨11, place, begun, captures⟩ 9).symm
    | 12 => exact (findSome?_consume_only standardOf _ '[' 11).symm
    | n + 13 => rfl
  rank_lt := standardRank_lt
  congr hstate hplace := by
    refine ⟨isSome_standardOf hstate hplace, ?_⟩
    rw [standardRank, standardRank, hstate, hplace]

/-! ## Which texts are links -/

/-- The text of a link. -/
def written (label url : List Char) : List Char :=
  '[' :: (label ++ ']' :: '(' :: (url ++ [')']))

/-- The place after a character that is next. -/
theorem after?_of_cons {x : Char} {xs : List Char} {c : Cursor} (h : c.rest = x :: xs) :
    ∃ d, c.after? x = some d ∧ d.rest = xs ∧ d.index = c.index + 1 := by
  refine ⟨⟨some x, xs, c.index + 1⟩, ?_, rfl, rfl⟩
  rw [Cursor.after?, Cursor.next?_of_cons h]
  exact if_pos rfl

/-- If there is a place after a character, it is the next one. -/
theorem rest_of_after? {x : Char} {c d : Cursor} (h : c.after? x = some d) :
    c.rest = x :: d.rest := by
  obtain ⟨before, rest, index⟩ := c
  unfold Cursor.after? at h
  cases rest with
  | nil => simp [Cursor.next?] at h
  | cons y ys =>
    simp only [Cursor.next?] at h
    split at h
    · rename_i hy
      rw [← Option.some.inj h, hy]
    · simp at h

/-- The place before a character that is further on for the first time. -/
theorem seek?_of_append {x : Char} {as bs : List Char} {c : Cursor} (h : c.rest = as ++ x :: bs)
    (has : x ∉ as) :
    ∃ d, c.seek? x = some d ∧ d.rest = x :: bs ∧ d.index = c.index + as.length := by
  obtain ⟨before, rest, index⟩ := c
  obtain rfl : rest = as ++ x :: bs := h
  unfold Cursor.seek?
  induction as generalizing before index with
  | nil => exact ⟨_, if_pos rfl, rfl, rfl⟩
  | cons a as ih =>
    rw [List.mem_cons, not_or] at has
    obtain ⟨d, hd, hrest, hindex⟩ := ih has.2 (some a) (index + 1)
    refine ⟨d, ?_, hrest, ?_⟩
    · exact (if_neg (Ne.symm has.1)).trans hd
    · rw [hindex, List.length_cons]
      exact Nat.add_right_comm _ _ _

/-- If a character is found, it is further on for the first time. -/
theorem rest_of_seek? {x : Char} {c d : Cursor} (h : c.seek? x = some d) :
    ∃ as, c.rest = as ++ d.rest ∧ x ∉ as := by
  obtain ⟨before, rest, index⟩ := c
  unfold Cursor.seek? at h
  induction rest generalizing before index with
  | nil => exact absurd h (by simp [Cursor.seekIn?])
  | cons y ys ih =>
    unfold Cursor.seekIn? at h
    split at h
    · rw [← Option.some.inj h]
      exact ⟨[], rfl, List.not_mem_nil⟩
    · rename_i hy
      obtain ⟨as, hys, has⟩ := ih _ _ h
      exact ⟨y :: as, congrArg (y :: ·) hys, List.not_mem_cons_of_ne_of_not_mem (Ne.symm hy) has⟩

/-- What lies between two places that a text separates is that text. -/
theorem upTo_of_append {c d : Cursor} {as bs : List Char} (h : c.rest = as ++ bs)
    (hd : d.index = c.index + as.length) : c.upTo d = as := by
  rw [Cursor.upTo, h, hd, Nat.add_sub_cancel_left, List.take_left]

/-- A match is what comes of the thread before the opening bracket. -/
theorem matchAt?_standard (place : Cursor) :
    standard.program.matchAt? place = ofLabelStart ⟨12, place, [], []⟩ := by
  have h := standardOutcome.matchAt?_eq place
  have hstart : standard.program.start = 12 := by rw [standard_program]
  rw [hstart] at h
  exact h

/-- A link is matched as a whole, and its label and url are captured. -/
theorem matchAt?_standard_of_rest {place : Cursor} {label url tail : List Char}
    (h : place.rest = written label url ++ tail) (hlabel : ']' ∉ label) (hurl : ')' ∉ url) :
    ∃ m, standard.program.matchAt? place = some m ∧ place.upTo m.last = written label url ∧
      m.captured 1 = label ∧ m.captured 2 = url := by
  -- The places before and after the label, before and after the url, and after the link.
  have hrest : place.rest = '[' :: (label ++ ']' :: ('(' :: (url ++ ')' :: tail))) := by
    rw [h]
    simp [written]
  obtain ⟨c₁, h₁, hrest₁, hindex₁⟩ := after?_of_cons hrest
  obtain ⟨c₂, h₂, hrest₂, hindex₂⟩ := seek?_of_append hrest₁ hlabel
  obtain ⟨c₃, h₃, hrest₃, hindex₃⟩ := after?_of_cons hrest₂
  obtain ⟨c₄, h₄, hrest₄, hindex₄⟩ := after?_of_cons hrest₃
  obtain ⟨c₅, h₅, hrest₅, hindex₅⟩ := seek?_of_append hrest₄ hurl
  obtain ⟨c₆, h₆, -, hindex₆⟩ := after?_of_cons hrest₅
  refine ⟨⟨c₆, [⟨2, c₄, c₅⟩, ⟨1, c₁, c₂⟩]⟩, ?_, ?_, ?_, ?_⟩
  · rw [matchAt?_standard]
    simp only [ofLabelStart, ofLabel, ofLabelEnd, ofUrlStart, ofUrl, ofUrlEnd, Thread.enter,
      Thread.leave, h₁, h₂, h₃, h₄, h₅, h₆, Option.bind_some]
  · refine upTo_of_append h ?_
    simp only [written, List.length_cons, List.length_append, List.length_nil]
    omega
  · exact upTo_of_append hrest₁ hindex₂
  · exact upTo_of_append hrest₄ hindex₅

/-- What is matched is a link. -/
theorem rest_of_matchAt?_standard {place : Cursor} {m : Match}
    (h : standard.program.matchAt? place = some m) :
    ∃ label url tail, place.rest = written label url ++ tail ∧ ']' ∉ label ∧ ')' ∉ url := by
  rw [matchAt?_standard] at h
  simp only [ofLabelStart, ofLabel, ofLabelEnd, ofUrlStart, ofUrl, ofUrlEnd, Thread.enter,
    Thread.leave, Option.bind_eq_some_iff] at h
  -- The places behind each part of the link.
  obtain ⟨c₁, h₁, c₂, h₂, c₃, h₃, c₄, h₄, c₅, h₅, c₆, h₆, -⟩ := h
  obtain ⟨label, hlabel, hmem⟩ := rest_of_seek? h₂
  obtain ⟨url, hurl, hmem'⟩ := rest_of_seek? h₅
  refine ⟨label, url, c₆.rest, ?_, hmem, hmem'⟩
  rw [rest_of_after? h₁, hlabel, rest_of_after? h₃, rest_of_after? h₄, hurl, rest_of_after? h₆]
  simp [written]

/-- The links that the standard pattern finds: a label up to the first closing bracket, and right
behind that a url up to the first closing parenthesis. -/
theorem linkFrom?_standard_eq_some_iff {place : Cursor} {l : Link} :
    standard.linkFrom? place = some l ↔
      ∃ label url tail, place.rest = written label url ++ tail ∧ ']' ∉ label ∧ ')' ∉ url ∧
        l.length = Utf16.length (written label url) ∧ l.label = Utf16.encode label ∧
        l.url = String.ofList url := by
  -- A match writes the link that has its label and url.
  have hof {label url : List Char} {m : Match} (hwhole : place.upTo m.last = written label url)
      (hlabel : m.captured 1 = label) (hurl : m.captured 2 = url) :
      linkOf? place m = some l ↔ l.length = Utf16.length (written label url) ∧
        l.label = Utf16.encode label ∧ l.url = String.ofList url := by
    have hpos : 0 < Utf16.length (written label url) := Utf16.length_pos (List.cons_ne_nil _ _)
    obtain ⟨length, label', url', h⟩ := l
    simp only [linkOf?, hwhole, hlabel, hurl, hpos, dif_pos, Option.some.injEq, Link.mk.injEq]
    exact ⟨fun ⟨h₁, h₂, h₃⟩ => ⟨h₁.symm, h₂.symm, h₃.symm⟩,
      fun ⟨h₁, h₂, h₃⟩ => ⟨h₁.symm, h₂.symm, h₃.symm⟩⟩
  rw [linkFrom?]
  constructor
  · intro h
    obtain ⟨m, hm, hl⟩ := Option.bind_eq_some_iff.mp h
    obtain ⟨label, url, tail, hrest, hlabel, hurl⟩ := rest_of_matchAt?_standard hm
    obtain ⟨m', hm', hwhole, h₁, h₂⟩ := matchAt?_standard_of_rest hrest hlabel hurl
    rw [hm, Option.some.injEq] at hm'
    rw [hm'] at hl
    exact ⟨label, url, tail, hrest, hlabel, hurl, (hof hwhole h₁ h₂).mp hl⟩
  · rintro ⟨label, url, tail, hrest, hlabel, hurl, hl⟩
    obtain ⟨m, hm, hwhole, h₁, h₂⟩ := matchAt?_standard_of_rest hrest hlabel hurl
    rw [hm, Option.bind_some]
    exact (hof hwhole h₁ h₂).mpr hl

/-- The link with which some characters start. -/
def linkAhead? (cs : List Char) : Option Link :=
  standard.linkFrom? ⟨none, cs, 0⟩

/-- What stands before a place has no part in the link there. -/
theorem linkFrom?_standard (place : Cursor) :
    standard.linkFrom? place = linkAhead? place.rest := by
  refine Option.ext fun l => ?_
  rw [linkAhead?, linkFrom?_standard_eq_some_iff, linkFrom?_standard_eq_some_iff]

/-- The links with which some characters start: a label up to the first closing bracket, and right
behind that a url up to the first closing parenthesis. -/
theorem linkAhead?_eq_some_iff {cs : List Char} {l : Link} :
    linkAhead? cs = some l ↔
      ∃ label url tail, cs = written label url ++ tail ∧ ']' ∉ label ∧ ')' ∉ url ∧
        l.length = Utf16.length (written label url) ∧ l.label = Utf16.encode label ∧
        l.url = String.ofList url :=
  linkFrom?_standard_eq_some_iff

/-- A link is found where it is written. -/
theorem linkAhead?_written {label url : List Char} (hlabel : ']' ∉ label) (hurl : ')' ∉ url)
    (tail : List Char) :
    linkAhead? (written label url ++ tail) =
      some ⟨Utf16.length (written label url), Utf16.encode label, String.ofList url,
        Utf16.length_pos (List.cons_ne_nil _ _)⟩ :=
  linkAhead?_eq_some_iff.mpr ⟨label, url, tail, rfl, hlabel, hurl, rfl, rfl, rfl⟩

/-- A link starts with a bracket. -/
theorem linkAhead?_of_head_ne {cs : List Char} (h : cs.head? ≠ some '[') :
    linkAhead? cs = none := by
  cases hl : linkAhead? cs with
  | none => rfl
  | some l =>
    obtain ⟨label, url, tail, hrest, -⟩ := linkAhead?_eq_some_iff.mp hl
    rw [hrest] at h
    exact absurd rfl h

end LinkPattern

end MessageMarkup
