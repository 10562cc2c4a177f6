import Mathlib.Data.Finset.Prod
import MessageMarkup.Pattern.Search

/-!
# What a search finds

`Program.Follows` is a search without the bound for its steps. The bound is always high enough
(`Program.follows_follow`): each step takes one thread, and puts at most two in its place if it
reaches something new. So what is to be known of searches is shown of `Follows`, by induction.

A search follows every instruction at most once at each place, which is right only if nothing is
lost by it. `Program.Outcome` says of a function that it gives what comes of a thread, and of a rank
that it falls with every step, so that no thread comes back to where it has been. For such a program
a search finds what comes of the first of its threads of which anything comes
(`Outcome.eq_findSome?_of_follows`). The invariant is that of what has been reached either nothing
comes, or what comes of it is still to be found among the threads that are left, with a lower rank.
-/

namespace MessageMarkup

/-! ## Places -/

namespace Cursor

/-- At the end of the text there is no next character. -/
theorem next?_of_nil {c : Cursor} (h : c.rest = []) : c.next? = none := by
  obtain ⟨before, rest, index⟩ := c
  subst h
  rfl

/-- Elsewhere it is the first of those that are left. -/
theorem next?_of_cons {c : Cursor} {x : Char} {xs : List Char} (h : c.rest = x :: xs) :
    c.next? = some (x, ⟨some x, xs, c.index + 1⟩) := by
  obtain ⟨before, rest, index⟩ := c
  subst h
  rfl

/-- The place a number of characters further on, or the end. -/
def skip (c : Cursor) : Nat → Cursor
  | 0 => c
  | n + 1 =>
    match c.next? with
    | none => c
    | some (_, d) => d.skip n

/-- What is left after some characters. -/
theorem rest_skip (c : Cursor) (n : Nat) : (c.skip n).rest = c.rest.drop n := by
  induction n generalizing c with
  | zero => rfl
  | succ n ih =>
    obtain ⟨before, rest, index⟩ := c
    cases rest with
    | nil => rfl
    | cons c cs => rw [skip, next?]; exact ih _

/-- The number of a place counts the characters before it. -/
theorem index_skip {c : Cursor} {n : Nat} (h : n ≤ c.rest.length) :
    (c.skip n).index = c.index + n := by
  induction n generalizing c with
  | zero => rfl
  | succ n ih =>
    obtain ⟨before, rest, index⟩ := c
    cases rest with
    | nil => exact absurd h (by simp)
    | cons c cs =>
      rw [skip, next?]
      have := ih (c := ⟨some c, cs, index + 1⟩) (Nat.le_of_succ_le_succ h)
      rw [this]
      simp only
      omega

/-- The place after the next character is one character further on. -/
theorem skip_succ {c d : Cursor} {n : Nat} {x : Char} (h : (c.skip n).next? = some (x, d)) :
    c.skip (n + 1) = d := by
  induction n generalizing c with
  | zero =>
    rw [skip] at h
    rw [skip, h]
    rfl
  | succ n ih =>
    rw [skip] at h ⊢
    cases hn : c.next? with
    | none =>
      rw [hn] at h
      exact absurd (hn.symm.trans h) (by simp)
    | some p =>
      rw [hn] at h
      exact ih h

/-- A place is on the way from another to the end of the text. -/
def Reaches (c d : Cursor) : Prop :=
  ∃ n, n ≤ c.rest.length ∧ d = c.skip n

/-- Every place is on the way from itself. -/
theorem Reaches.refl (c : Cursor) : c.Reaches c := ⟨0, Nat.zero_le _, rfl⟩

/-- The place after the next character is on the way too. -/
theorem Reaches.next {c d e : Cursor} {x : Char} (h : c.Reaches d) (hd : d.next? = some (x, e)) :
    c.Reaches e := by
  obtain ⟨n, hn, rfl⟩ := h
  have hlt : n < c.rest.length := by
    by_contra hge
    have hnil : (c.skip n).rest = [] := by
      rw [rest_skip, List.drop_eq_nil_iff]
      omega
    rw [next?_of_nil hnil] at hd
    exact absurd hd (by simp)
  exact ⟨n + 1, hlt, (skip_succ hd).symm⟩

/-- The end of the text has the same number from every place on the way to it. -/
theorem Reaches.end_eq {c d : Cursor} (h : c.Reaches d) :
    d.index + d.rest.length = c.index + c.rest.length := by
  obtain ⟨n, hn, rfl⟩ := h
  rw [index_skip hn, rest_skip, List.length_drop]
  omega

/-- On the way from one place, a place is known by its number. -/
theorem Reaches.eq_of_index {c d e : Cursor} (hd : c.Reaches d) (he : c.Reaches e)
    (h : d.index = e.index) : d = e := by
  obtain ⟨n, hn, rfl⟩ := hd
  obtain ⟨m, hm, rfl⟩ := he
  rw [index_skip hn, index_skip hm] at h
  rw [Nat.add_left_cancel h]

/-- The first place before the end at which a function finds something, and what it finds. The place
from which on it looks is given by its parts. -/
def firstFrom {β : Type} (f : Cursor → Option β) :
    Option Char → List Char → Nat → Option (Cursor × β)
  | _, [], _ => none
  | before, c :: cs, index =>
    match f ⟨before, c :: cs, index⟩ with
    | some b => some (⟨before, c :: cs, index⟩, b)
    | none => firstFrom f (some c) cs (index + 1)

end Cursor

/-! ## What has been reached -/

namespace Reached

/-- Whether an instruction has been reached at the place with a number. -/
def bit (r : Reached) (index state : Nat) : Bool :=
  ((r.rows.getD index #[]).getD (state / 32) 0).testBit (state % 32)

/-- Having been reached is a bit of the instruction and the number of the place. -/
theorem contains_eq_bit (r : Reached) (t : Thread) : r.contains t = r.bit t.place.index t.state :=
  rfl

/-- Nothing has been reached at the start. -/
theorem bit_nothing (places index state : Nat) : (nothing places).bit index state = false := by
  have hrow : (nothing places).rows.getD index #[] = #[] := by
    rw [nothing, Array.getD_eq_getD_getElem?, Array.getElem?_replicate]
    split <;> rfl
  rw [bit, hrow]
  exact Nat.zero_testBit _

/-- An instruction at a place sets its own bit and no other. -/
theorem bit_insert {r : Reached} {t : Thread} (h : t.place.index < r.rows.size)
    (index state : Nat) :
    (r.insert t).bit index state =
      (decide (index = t.place.index ∧ state = t.state) || r.bit index state) := by
  by_cases hi : index = t.place.index
  -- The row of another place stays as it is.
  swap
  · have hrow : (r.insert t).rows.getD index #[] = r.rows.getD index #[] := by
      rw [insert, Array.getD_eq_getD_getElem?, Array.getElem?_modify, if_neg (Ne.symm hi),
        ← Array.getD_eq_getD_getElem?]
    rw [bit, hrow, decide_eq_false (fun h => hi h.1), Bool.false_or, bit]
  subst hi
  -- The row of the place, filled up with empty words, has the same bits as before.
  have hrow : (r.insert t).rows.getD t.place.index #[] =
      let row := r.rows.getD t.place.index #[]
      let row := if t.state / 32 < row.size then row
        else row ++ Array.replicate (t.state / 32 + 1 - row.size) 0
      row.modify (t.state / 32) (· ||| 1 <<< (t.state % 32)) := by
    rw [insert, Array.getD_eq_getD_getElem?, Array.getElem?_modify, if_pos rfl,
      Array.getD_eq_getD_getElem?, Array.getElem?_eq_getElem h]
    rfl
  rw [bit, hrow, bit]
  generalize r.rows.getD t.place.index #[] = row
  simp only [true_and]
  generalize hfull : (if t.state / 32 < row.size then row
    else row ++ Array.replicate (t.state / 32 + 1 - row.size) 0) = full
  have hsize : t.state / 32 < full.size := by
    rw [← hfull]
    split
    · assumption
    · rw [Array.size_append, Array.size_replicate]
      omega
  -- A missing word and an empty one have the same bits.
  have hword (w : Nat) : full.getD w 0 = row.getD w 0 := by
    rw [← hfull]
    split
    · rfl
    · rw [Array.getD_eq_getD_getElem?, Array.getD_eq_getD_getElem?, Array.getElem?_append]
      split
      · rfl
      · rename_i hw
        rw [Array.getElem?_eq_none (Nat.le_of_not_lt hw), Array.getElem?_replicate]
        split <;> rfl
  rw [Array.getD_eq_getD_getElem?, Array.getElem?_modify]
  by_cases hw : t.state / 32 = state / 32
  · rw [if_pos hw, ← hw, Array.getElem?_eq_getElem hsize, Option.map_some, Option.getD_some,
      Nat.testBit_or, Nat.one_shiftLeft, Nat.testBit_two_pow, Bool.or_comm,
      show full[t.state / 32] = full.getD (t.state / 32) 0 by
        rw [Array.getD_eq_getD_getElem?, Array.getElem?_eq_getElem hsize]; rfl, hword]
    congr 1
    rw [decide_eq_decide]
    omega
  · rw [if_neg hw, ← Array.getD_eq_getD_getElem?, hword,
      decide_eq_false (fun h => hw (by rw [h])), Bool.false_or]

/-- Reaching something makes no more room. -/
theorem size_rows_insert (r : Reached) (t : Thread) : (r.insert t).rows.size = r.rows.size :=
  Array.size_modify

/-- The instructions that have not been reached at places from `c` on. -/
def left (r : Reached) (states : Nat) (c : Cursor) : Finset (Nat × Nat) :=
  (Finset.range states ×ˢ Finset.range (c.rest.length + 1)).filter fun x =>
    r.bit (c.index + x.2) x.1 = false

/-- What has been reached leaves no more to reach. -/
theorem left_insert_subset {r : Reached} {t : Thread} (h : t.place.index < r.rows.size)
    (states : Nat) (c : Cursor) : (r.insert t).left states c ⊆ r.left states c := by
  intro x hx
  rw [left, Finset.mem_filter, bit_insert h, Bool.or_eq_false_iff] at hx
  rw [left, Finset.mem_filter]
  exact ⟨hx.1, hx.2.2⟩

/-- Reaching an instruction for the first time leaves one less to reach. -/
theorem card_left_insert_lt {r : Reached} {t : Thread} {states : Nat} {c : Cursor}
    (h : t.place.index < r.rows.size) (hs : t.state < states) (hc : c.Reaches t.place)
    (hr : r.contains t = false) :
    ((r.insert t).left states c).card < (r.left states c).card := by
  obtain ⟨n, hn, hplace⟩ := hc
  have hindex : c.index + n = t.place.index := by rw [hplace, Cursor.index_skip hn]
  refine Finset.card_lt_card ((Finset.ssubset_iff_of_subset (left_insert_subset h _ _)).mpr
    ⟨(t.state, n), ?_, ?_⟩)
  · rw [left, Finset.mem_filter, Finset.mem_product, Finset.mem_range, Finset.mem_range, hindex]
    exact ⟨⟨hs, Nat.lt_succ_of_le hn⟩, hr⟩
  · rw [left, Finset.mem_filter, bit_insert h, hindex, decide_eq_true ⟨rfl, rfl⟩, Bool.true_or]
    exact fun hx => Bool.noConfusion hx.2

/-- There are no more instructions to reach than there are, at each place. -/
theorem card_left_le (r : Reached) (states : Nat) (c : Cursor) :
    (r.left states c).card ≤ states * (c.rest.length + 1) := by
  refine (Finset.card_filter_le _ _).trans ?_
  rw [Finset.card_product, Finset.card_range, Finset.card_range]

end Reached

/-! ## Threads -/

namespace Thread

/-- An instruction leads to two threads at most. -/
theorem length_after_le (t : Thread) (i : Instruction) : (t.after i).length ≤ 2 := by
  cases i with
  | accept => exact Nat.zero_le _
  | consume set next =>
    rw [after]
    split
    · exact Nat.zero_le _
    · split
      · exact Nat.le_succ _
      · exact Nat.zero_le _
  | check condition next =>
    rw [after]
    split
    · exact Nat.le_succ _
    · exact Nat.zero_le _
  | enter next => exact Nat.le_succ _
  | leave group next => exact Nat.le_succ _
  | fork first second => exact Nat.le_refl _

/-- A thread moves on in the text, or stays where it is. -/
theorem reaches_after {c : Cursor} {t u : Thread} {i : Instruction} (h : c.Reaches t.place)
    (hu : u ∈ t.after i) : c.Reaches u.place := by
  cases i with
  | accept => exact absurd hu (by simp [after])
  | consume set next =>
    rw [after] at hu
    split at hu
    · exact absurd hu (by simp)
    · rename_i x place hnext
      split at hu
      · rw [List.mem_singleton.mp hu]
        exact h.next hnext
      · exact absurd hu (by simp)
  | check condition next =>
    rw [after] at hu
    split at hu
    · rw [List.mem_singleton.mp hu]
      exact h
    · exact absurd hu (by simp)
  | enter next =>
    rw [List.mem_singleton.mp hu]
    exact h
  | leave group next =>
    rw [List.mem_singleton.mp hu, leave]
    split <;> exact h
  | fork first second =>
    rw [after, List.mem_cons, List.mem_singleton] at hu
    rcases hu with rfl | rfl <;> exact h

end Thread

/-! ## Searching -/

namespace Program

section Steps

variable {p : Program} {steps : Nat} {r : Reached} {t : Thread} {ts : List Thread}

/-- With no threads left a search has found nothing. -/
theorem follow_nil : p.follow steps r [] = (none, r) := by
  cases steps <;> rfl

/-- What has been reached is not followed. -/
theorem follow_of_contains (h : r.contains t = true) :
    p.follow (steps + 1) r (t :: ts) = p.follow steps r ts := by
  rw [follow, if_pos h]

/-- An instruction that the program does not have leads nowhere. -/
theorem follow_of_none (h : r.contains t = false) (hi : p.code[t.state]? = none) :
    p.follow (steps + 1) r (t :: ts) = p.follow steps (r.insert t) ts := by
  rw [follow, h, if_neg Bool.false_ne_true, hi]

/-- A thread that accepts is a match. -/
theorem follow_of_accept (h : r.contains t = false) (hi : p.code[t.state]? = some .accept) :
    p.follow (steps + 1) r (t :: ts) = (some ⟨t.place, t.captures⟩, r) := by
  rw [follow, h, if_neg Bool.false_ne_true, hi]

/-- After any other instruction come the threads to which it leads. -/
theorem follow_of_some {i : Instruction} (h : r.contains t = false)
    (hi : p.code[t.state]? = some i) (ha : i ≠ .accept) :
    p.follow (steps + 1) r (t :: ts) = p.follow steps (r.insert t) (t.after i ++ ts) := by
  rw [follow, h, if_neg Bool.false_ne_true, hi]
  cases i <;> first | rfl | exact absurd rfl ha

end Steps

/-- A search has room for some threads: it has a row of bits for each place from `c` on, and the
threads are at such places. -/
structure Room (c : Cursor) (r : Reached) (ts : List Thread) : Prop where
  /-- There is a row for the end of the text, which has the highest number. -/
  lt_size : c.index + c.rest.length < r.rows.size
  /-- The threads are on the way to it. -/
  reaches : ∀ t ∈ ts, c.Reaches t.place

namespace Room

variable {c : Cursor} {r : Reached} {t : Thread} {ts : List Thread}

/-- The first thread is on the way. -/
theorem head (h : Room c r (t :: ts)) : c.Reaches t.place :=
  h.reaches t List.mem_cons_self

/-- The first thread has a row. -/
theorem index_lt (h : Room c r (t :: ts)) : t.place.index < r.rows.size := by
  have hend := h.head.end_eq
  have hsize := h.lt_size
  omega

/-- There is room for the other threads. -/
theorem tail (h : Room c r (t :: ts)) : Room c r ts :=
  ⟨h.lt_size, fun u hu => h.reaches u (List.mem_cons_of_mem t hu)⟩

/-- Reaching something takes no room. -/
theorem insert (h : Room c r ts) (t : Thread) : Room c (r.insert t) ts :=
  ⟨by rw [Reached.size_rows_insert]; exact h.lt_size, h.reaches⟩

/-- There is room for the threads that come after the first. -/
theorem after (h : Room c r (t :: ts)) (i : Instruction) :
    Room c (r.insert t) (t.after i ++ ts) := by
  refine ⟨(h.insert t).lt_size, fun u hu => ?_⟩
  rcases List.mem_append.mp hu with hu | hu
  · exact Thread.reaches_after h.head hu
  · exact h.tail.reaches u hu

/-- A search from a place on starts with enough room. -/
theorem new (p : Program) (c : Cursor) :
    Room c (.nothing (c.index + c.rest.length + 1)) [⟨p.start, c, [], []⟩] := by
  refine ⟨?_, fun t ht => ?_⟩
  · rw [Reached.nothing, Array.size_replicate]
    exact Nat.lt_succ_self _
  · rw [List.mem_singleton.mp ht]
    exact Cursor.Reaches.refl c

end Room

/-- A search that follows some threads to the end: what had been reached before, the threads, what
it finds and what has been reached then. This is `Program.follow` without a bound for the steps. -/
inductive Follows (p : Program) : Reached → List Thread → Option Match → Reached → Prop where
  /-- There are no threads left. -/
  | nil (r : Reached) : p.Follows r [] none r
  /-- The first thread is where another one has been. -/
  | again {r r' : Reached} {t : Thread} {ts : List Thread} {m : Option Match} :
      r.contains t = true → p.Follows r ts m r' → p.Follows r (t :: ts) m r'
  /-- The first thread has no instruction. -/
  | halt {r r' : Reached} {t : Thread} {ts : List Thread} {m : Option Match} :
      r.contains t = false → p.code[t.state]? = none → p.Follows (r.insert t) ts m r' →
        p.Follows r (t :: ts) m r'
  /-- The first thread accepts. -/
  | accept {r : Reached} {t : Thread} {ts : List Thread} :
      r.contains t = false → p.code[t.state]? = some .accept →
        p.Follows r (t :: ts) (some ⟨t.place, t.captures⟩) r
  /-- The first thread goes on. -/
  | step {r r' : Reached} {t : Thread} {ts : List Thread} {m : Option Match} {i : Instruction} :
      r.contains t = false → p.code[t.state]? = some i → i ≠ .accept →
        p.Follows (r.insert t) (t.after i ++ ts) m r' → p.Follows r (t :: ts) m r'

/-- A search has enough steps if it has two for each instruction that it can still reach, and one
for each thread. -/
theorem follows_follow {p : Program} {c : Cursor} {steps : Nat} {r : Reached} {ts : List Thread}
    (h : Room c r ts) (hsteps : ts.length + 2 * (r.left p.code.size c).card ≤ steps) :
    p.Follows r ts (p.follow steps r ts).1 (p.follow steps r ts).2 := by
  induction steps generalizing r ts with
  | zero =>
    obtain rfl : ts = [] := List.length_eq_zero_iff.mp (by omega)
    exact .nil r
  | succ steps ih =>
    cases ts with
    | nil =>
      rw [follow_nil]
      exact .nil r
    | cons t ts =>
      rw [List.length_cons] at hsteps
      cases hreached : r.contains t with
      | true =>
        rw [follow_of_contains hreached]
        exact .again hreached (ih h.tail (by omega))
      | false =>
        cases hi : p.code[t.state]? with
        | none =>
          rw [follow_of_none hreached hi]
          have hcard := Finset.card_le_card (Reached.left_insert_subset h.index_lt p.code.size c)
          exact .halt hreached hi (ih (h.tail.insert t) (by omega))
        | some i =>
          by_cases ha : i = .accept
          · rw [ha] at hi
            rw [follow_of_accept hreached hi]
            exact .accept hreached hi
          · rw [follow_of_some hreached hi ha]
            have hstate : t.state < p.code.size := (Array.getElem?_eq_some_iff.mp hi).1
            -- There is one thing less to reach and at most one thread more, which is worth two
            -- steps each.
            have hcard := Reached.card_left_insert_lt h.index_lt hstate h.head hreached
            have hafter := t.length_after_le i
            have hlen : (t.after i ++ ts).length +
                2 * ((r.insert t).left p.code.size c).card ≤ steps := by
              rw [List.length_append]
              omega
            exact .step hreached hi ha (ih (h.after i) hlen)

/-- There are enough steps for a search from a place. -/
theorem steps_le (p : Program) (r : Reached) (c : Cursor) :
    1 + 2 * (r.left p.code.size c).card ≤ p.stepsFor c.rest.length := by
  have := r.card_left_le p.code.size c
  rw [stepsFor, Nat.mul_assoc]
  omega

/-- The match that starts at a place is what a search finds there for which nothing has been reached
before. -/
theorem follows_matchAt? (p : Program) (c : Cursor) :
    ∃ r, p.Follows (.nothing (c.index + c.rest.length + 1)) [⟨p.start, c, [], []⟩]
      (p.matchAt? c) r :=
  ⟨_, follows_follow (.new p c) (steps_le p _ c)⟩

/-! ## What comes of threads -/

/-- What comes of the threads of a program in which no thread comes back to where it has been. -/
structure Outcome (p : Program) where
  /-- The match to which a thread leads, if it leads to one. -/
  of : Thread → Option Match
  /-- A bound for the steps of a thread. -/
  rank : Thread → Nat
  /-- A thread leads to what the first thread leads to that comes after it and leads to anything. -/
  of_eq : ∀ t, of t =
    match p.code[t.state]? with
    | none => none
    | some .accept => some ⟨t.place, t.captures⟩
    | some i => (t.after i).findSome? of
  /-- The bound falls with every step. -/
  rank_lt : ∀ {t u : Thread} {i : Instruction}, p.code[t.state]? = some i → u ∈ t.after i →
    rank u < rank t
  /-- Whether a thread leads to a match, and its bound, depend on its instruction and place only. -/
  congr : ∀ {t u : Thread}, t.state = u.state → t.place = u.place →
    (of t).isSome = (of u).isSome ∧ rank t = rank u

namespace Outcome

variable {p : Program} (o : p.Outcome)

/-- The first of some threads that leads to a match. -/
def first? (ts : List Thread) : Option Thread :=
  ts.find? fun t => (o.of t).isSome

/-- Of what has been reached from `c` on either nothing comes, or it is no later than the first of
the threads that lead to a match. -/
def Covers (c : Cursor) (r : Reached) (ts : List Thread) : Prop :=
  ∀ t, c.Reaches t.place → r.contains t = true →
    o.of t = none ∨ ∃ u, o.first? ts = some u ∧ o.rank u < o.rank t

/-- A thread that leads to nothing can be left out. -/
theorem first?_cons_of_none {t : Thread} (h : o.of t = none) (ts : List Thread) :
    o.first? (t :: ts) = o.first? ts := by
  rw [first?, List.find?_cons_of_neg (by rw [h]; exact Bool.false_ne_true)]
  rfl

/-- A thread that leads to a match is the first one. -/
theorem first?_cons_of_isSome {t : Thread} (h : (o.of t).isSome = true) (ts : List Thread) :
    o.first? (t :: ts) = some t :=
  List.find?_cons_of_pos h

/-- An instruction leads where the first thread after it leads. -/
theorem of_eq_findSome? {t : Thread} {i : Instruction} (hi : p.code[t.state]? = some i)
    (ha : i ≠ .accept) : o.of t = (t.after i).findSome? o.of := by
  rw [o.of_eq, hi]
  cases i <;> first | rfl | exact absurd rfl ha

/-- If a thread leads to a match, so does one that comes after it, and it has a lower rank. -/
theorem exists_first?_after {t : Thread} {i : Instruction} (hi : p.code[t.state]? = some i)
    (ha : i ≠ .accept) (h : (o.of t).isSome = true) (ts : List Thread) :
    ∃ u, o.first? (t.after i ++ ts) = some u ∧ o.rank u < o.rank t := by
  rw [o.of_eq_findSome? hi ha, List.findSome?_isSome_iff] at h
  obtain ⟨u, hu⟩ := Option.isSome_iff_exists.mp (List.find?_isSome.mpr h)
  refine ⟨u, ?_, o.rank_lt hi (List.mem_of_find?_eq_some hu)⟩
  rw [first?, List.find?_append, hu]
  rfl

/-- If a thread leads to nothing, neither does any that comes after it. -/
theorem first?_after_of_none {t : Thread} {i : Instruction} (hi : p.code[t.state]? = some i)
    (ha : i ≠ .accept) (h : o.of t = none) (ts : List Thread) :
    o.first? (t.after i ++ ts) = o.first? ts := by
  rw [o.of_eq_findSome? hi ha, List.findSome?_eq_none_iff] at h
  have hnone : (t.after i).find? (fun u => (o.of u).isSome) = none := by
    rw [List.find?_eq_none]
    intro u hu
    rw [h u hu]
    exact Bool.false_ne_true
  rw [first?, List.find?_append, hnone]
  rfl

/-- Leaving out a thread that leads to nothing, or that has been reached, loses nothing. -/
theorem Covers.of_cons_of_none {c : Cursor} {r : Reached} {t : Thread} {ts : List Thread}
    (h : o.Covers c r (t :: ts)) (ht : o.of t = none) : o.Covers c r ts := by
  intro u hu hr
  rw [← o.first?_cons_of_none ht ts]
  exact h u hu hr

/-- Replacing a thread by those that come after it loses nothing, if it counts as reached. -/
theorem Covers.insert {c : Cursor} {r : Reached} {t : Thread} {ts us : List Thread}
    (h : o.Covers c r (t :: ts)) (hsize : t.place.index < r.rows.size) (ht : c.Reaches t.place)
    (hnone : o.of t = none → o.first? us = o.first? ts)
    (hsome : (o.of t).isSome = true → ∃ u, o.first? us = some u ∧ o.rank u < o.rank t) :
    o.Covers c (r.insert t) us := by
  intro u hu hr
  rw [Reached.contains_eq_bit, Reached.bit_insert hsize, Bool.or_eq_true, decide_eq_true_eq] at hr
  rcases hr with ⟨hindex, hstate⟩ | hr
  · -- The thread itself, or another one at the same instruction and place.
    obtain ⟨hlive, hrank⟩ := o.congr hstate (hu.eq_of_index ht hindex)
    cases hd : o.of t with
    | none =>
      rw [hd] at hlive
      exact Or.inl (Option.isNone_iff_eq_none.mp (Option.isSome_eq_false_iff.mp hlive))
    | some m =>
      rw [hrank]
      exact Or.inr (hsome (by rw [hd]; rfl))
  · rcases h u hu hr with hdead | ⟨v, hv, hrank⟩
    · exact Or.inl hdead
    right
    cases hd : o.of t with
    | none =>
      rw [o.first?_cons_of_none hd] at hv
      exact ⟨v, by rw [hnone hd, hv], hrank⟩
    | some m =>
      rw [o.first?_cons_of_isSome (by rw [hd]; rfl)] at hv
      obtain ⟨w, hw, hlt⟩ := hsome (by rw [hd]; rfl)
      rw [← Option.some.inj hv] at hrank
      exact ⟨w, hw, hlt.trans hrank⟩

/-- A thread that has been reached before leads to nothing, if it is the first: what comes of it
would come of the first thread that leads to a match, which would have a lower rank than itself. -/
theorem Covers.eq_none_of_contains {c : Cursor} {r : Reached} {t : Thread} {ts : List Thread}
    (h : o.Covers c r (t :: ts)) (ht : c.Reaches t.place) (hr : r.contains t = true) :
    o.of t = none := by
  rcases h t ht hr with hdead | ⟨u, hu, hlt⟩
  · exact hdead
  · by_contra hlive
    rw [o.first?_cons_of_isSome (Option.isSome_iff_ne_none.mpr hlive)] at hu
    rw [Option.some.inj hu] at hlt
    exact absurd hlt (Nat.lt_irrefl _)

/-- A search finds what comes of the first of its threads that leads to a match. -/
theorem eq_findSome?_of_follows {c : Cursor} {r r' : Reached} {ts : List Thread} {m : Option Match}
    (h : p.Follows r ts m r') (hroom : Room c r ts) (hr : o.Covers c r ts) :
    m = ts.findSome? o.of := by
  induction h with
  | nil => rfl
  | again hreached _ ih =>
    have hdead := hr.eq_none_of_contains o hroom.head hreached
    rw [List.findSome?_cons, hdead]
    exact ih hroom.tail (hr.of_cons_of_none o hdead)
  | @halt r _ t ts _ _ hi _ ih =>
    have hof := o.of_eq t
    rw [hi] at hof
    rw [List.findSome?_cons, hof]
    exact ih (hroom.tail.insert t)
      (hr.insert o hroom.index_lt hroom.head (fun _ => rfl) (fun h => by simp [hof] at h))
  | @accept _ t _ _ hi =>
    have hof := o.of_eq t
    rw [hi] at hof
    rw [List.findSome?_cons, hof]
  | @step r _ t ts _ i _ hi ha _ ih =>
    -- The thread counts as reached, and what comes after it takes its place.
    have hcons : (t :: ts).findSome? o.of = (t.after i ++ ts).findSome? o.of := by
      rw [List.findSome?_append, ← o.of_eq_findSome? hi ha, List.findSome?_cons]
      cases o.of t <;> rfl
    rw [hcons]
    exact ih (hroom.after i)
      (hr.insert o hroom.index_lt hroom.head (fun h => o.first?_after_of_none hi ha h ts)
        (fun h => o.exists_first?_after hi ha h ts))

/-- Before a search nothing is lost. -/
theorem covers_nothing (c : Cursor) (places : Nat) (ts : List Thread) :
    o.Covers c (.nothing places) ts := by
  intro t _ hr
  rw [Reached.contains_eq_bit, Reached.bit_nothing] at hr
  exact Bool.noConfusion hr

/-- The match that starts at a place is what comes of the program there. -/
theorem matchAt?_eq (c : Cursor) : p.matchAt? c = o.of ⟨p.start, c, [], []⟩ := by
  obtain ⟨r, h⟩ := p.follows_matchAt? c
  rw [o.eq_findSome?_of_follows h (.new p c) (o.covers_nothing c _ _), List.findSome?_singleton]

end Outcome

end Program

end MessageMarkup
