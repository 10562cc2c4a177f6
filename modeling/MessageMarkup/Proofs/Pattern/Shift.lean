import MessageMarkup.Proofs.Pattern.Search

/-!
# The numbers of places

Where a search begins is given by the characters around its place. The number of the place only
serves to tell it from others: with higher numbers, all by as much, a search reaches and finds the
same (`Program.follow_shift`). So a match can be looked for at a place of the whole text or at the
same place as the first one (`Program.matchAt?_shift`).
-/

namespace MessageMarkup

/-! ## Higher numbers -/

/-- A place with a number that is higher by so many. -/
def Cursor.shift (k : Nat) (c : Cursor) : Cursor :=
  { c with index := c.index + k }

/-- A capture at places with higher numbers. -/
def Capture.shift (k : Nat) (c : Capture) : Capture :=
  { c with first := c.first.shift k, last := c.last.shift k }

/-- A match at places with higher numbers. -/
def Match.shift (k : Nat) (m : Match) : Match :=
  { last := m.last.shift k, captures := m.captures.map (Capture.shift k) }

/-- A thread at places with higher numbers. -/
def Thread.shift (k : Nat) (t : Thread) : Thread :=
  { t with
    place := t.place.shift k
    begun := t.begun.map (Cursor.shift k)
    captures := t.captures.map (Capture.shift k) }

/-- What has been reached, at places with higher numbers. -/
def Reached.shift (k : Nat) (r : Reached) : Reached :=
  ⟨Array.replicate k #[] ++ r.rows⟩

section Shift

variable (k : Nat)

namespace Cursor

/-- The next place has a higher number too. -/
theorem next?_shift (c : Cursor) :
    (c.shift k).next? = c.next?.map fun x => (x.1, x.2.shift k) := by
  obtain ⟨before, rest, index⟩ := c
  cases rest with
  | nil => rfl
  | cons x xs =>
    show some (x, (⟨some x, xs, index + k + 1⟩ : Cursor)) =
      some (x, ⟨some x, xs, index + 1 + k⟩)
    rw [Nat.add_right_comm]

/-- The characters between two places stay the same. -/
theorem upTo_shift (c d : Cursor) : (c.shift k).upTo (d.shift k) = c.upTo d := by
  show c.rest.take (d.index + k - (c.index + k)) = _
  rw [Nat.add_sub_add_right]
  rfl

end Cursor

/-- What a group captured stays the same. -/
theorem Match.captured_shift (m : Match) (group : Nat) :
    (m.shift k).captured group = m.captured group := by
  have hfind : (m.shift k).captures.find? (·.group == group) =
      (m.captures.find? (·.group == group)).map (Capture.shift k) := List.find?_map
  unfold captured
  rw [hfind]
  cases m.captures.find? (·.group == group) with
  | none => rfl
  | some c => exact Cursor.upTo_shift k c.first c.last

/-- A thread goes the same way. -/
theorem Thread.after_shift (t : Thread) (i : Instruction) :
    (t.shift k).after i = (t.after i).map (Thread.shift k) := by
  cases i with
  | accept => rfl
  | consume set next =>
    have hnext : (t.shift k).place.next? = t.place.next?.map fun x => (x.1, x.2.shift k) :=
      Cursor.next?_shift k t.place
    rw [after, after, hnext]
    cases t.place.next? with
    | none => rfl
    | some x =>
      dsimp only [Option.map_some]
      split <;> rfl
  | check condition next =>
    show (if condition.holds t.place.before t.place.rest.head? then _ else []) = _
    rw [after]
    split <;> rfl
  | enter next => rfl
  | leave group next =>
    obtain ⟨state, place, begun, captures⟩ := t
    cases begun <;> rfl
  | fork first second => rfl

namespace Reached

/-- Nothing is reached at any place. -/
theorem shift_nothing (places : Nat) : (nothing places).shift k = nothing (places + k) := by
  rw [nothing, shift, Array.replicate_append_replicate, Nat.add_comm]
  rfl

/-- A thread is where another one has been. -/
theorem contains_shift (r : Reached) (t : Thread) :
    (r.shift k).contains (t.shift k) = r.contains t := by
  have hrow : (r.shift k).rows.getD (t.place.index + k) #[] = r.rows.getD t.place.index #[] := by
    rw [shift, Array.getD_eq_getD_getElem?, Array.getElem?_append_right (by simp),
      Array.size_replicate, Nat.add_sub_cancel, ← Array.getD_eq_getD_getElem?]
  show (((r.shift k).rows.getD (t.place.index + k) #[]).getD (t.state / 32) 0).testBit _ = _
  rw [hrow]
  rfl

/-- A thread has been there. -/
theorem insert_shift (r : Reached) (t : Thread) :
    (r.shift k).insert (t.shift k) = (r.insert t).shift k := by
  have hmodify (f : Array Nat → Array Nat) :
      (Array.replicate k #[] ++ r.rows).modify (t.place.index + k) f =
        Array.replicate k #[] ++ r.rows.modify t.place.index f := by
    refine Array.ext_getElem? fun j => ?_
    rw [Array.getElem?_modify, Array.getElem?_append, Array.getElem?_append, Array.size_replicate,
      Array.getElem?_modify]
    -- A row before the first place is no row of a place.
    by_cases hj : j < k
    · rw [if_pos hj, if_pos hj, if_neg (by omega)]
    · rw [if_neg hj, if_neg hj]
      have hiff : t.place.index + k = j ↔ t.place.index = j - k := by omega
      simp only [hiff]
  exact congrArg Reached.mk (hmodify _)

end Reached

/-- A search finds the same. -/
theorem Program.follow_shift (p : Program) (steps : Nat) (r : Reached) (ts : List Thread) :
    p.follow steps (r.shift k) (ts.map (Thread.shift k)) =
      ((p.follow steps r ts).1.map (Match.shift k), (p.follow steps r ts).2.shift k) := by
  induction steps generalizing r ts with
  | zero => rfl
  | succ steps ih =>
    cases ts with
    | nil => rfl
    | cons t ts =>
      rw [List.map_cons]
      have hcontains := r.contains_shift k t
      cases hreached : r.contains t with
      | true =>
        rw [hreached] at hcontains
        rw [follow_of_contains hreached, follow_of_contains hcontains]
        exact ih r ts
      | false =>
        rw [hreached] at hcontains
        have hstate : (t.shift k).state = t.state := rfl
        cases hi : p.code[t.state]? with
        | none =>
          rw [follow_of_none hreached hi, follow_of_none hcontains (hstate ▸ hi),
            r.insert_shift k t]
          exact ih (r.insert t) ts
        | some i =>
          by_cases ha : i = .accept
          · rw [ha] at hi
            rw [follow_of_accept hreached hi, follow_of_accept hcontains (hstate ▸ hi)]
            rfl
          · rw [follow_of_some hreached hi ha, follow_of_some hcontains (hstate ▸ hi) ha,
              r.insert_shift k t, t.after_shift k i, ← List.map_append]
            exact ih (r.insert t) (t.after i ++ ts)

/-- The match that starts at a place does not depend on the number of the place. -/
theorem Program.matchAt?_shift (p : Program) (c : Cursor) :
    p.matchAt? (c.shift k) = (p.matchAt? c).map (Match.shift k) := by
  have hfollow := p.follow_shift k (p.stepsFor c.rest.length)
    (.nothing (c.index + c.rest.length + 1)) [⟨p.start, c, [], []⟩]
  have hplaces : c.index + c.rest.length + 1 + k = c.index + k + c.rest.length + 1 := by omega
  rw [Reached.shift_nothing, hplaces] at hfollow
  exact congrArg Prod.fst hfollow

end Shift

end MessageMarkup
