import Mathlib.Data.List.Basic
import Mathlib.Order.Nat
import MessageMarkup.Text.Occurrence

/-!
# First occurrences

`occurrence?_eq_some_iff` is the specification of `occurrence?`: it finds the least number of
elements before an occurrence. `occurrenceFrom?_eq_some_iff` says so in terms of positions, of which
it finds the least one from a position on. `Closes` says of a text between two equal markers that a
search for the marker from behind the first element on ends at the second one.
-/

namespace MessageMarkup

variable {α : Type}

/-! ## What reaches from one marker to the next -/

/-- Between two of `marker` the text `xs` reaches to the second: it is not empty, and behind its
first element the marker occurs only where the second one is. -/
def Closes (marker xs : List α) : Prop :=
  xs ≠ [] ∧ ∀ as bs, xs ++ marker = as ++ (marker ++ bs) → as = [] ∨ bs = []

/-- The ways to cut a list in two. -/
def cuts : List α → List (List α × List α)
  | [] => [([], [])]
  | x :: xs => ([], x :: xs) :: (cuts xs).map fun c => (x :: c.1, c.2)

/-- The pieces of a cut are the list. -/
theorem mem_cuts {xs as bs : List α} : (as, bs) ∈ cuts xs ↔ xs = as ++ bs := by
  induction xs generalizing as with
  | nil =>
    rw [cuts, List.mem_singleton, Prod.mk.injEq]
    exact (List.append_eq_nil_iff.symm).trans eq_comm
  | cons x xs ih =>
    rw [cuts, List.mem_cons, List.mem_map]
    constructor
    · rintro (h | ⟨⟨as', bs'⟩, hmem, h⟩)
      · obtain ⟨rfl, rfl⟩ := Prod.mk.inj h
        rfl
      · obtain ⟨rfl, rfl⟩ := Prod.mk.inj h
        exact congrArg (x :: ·) (ih.mp hmem)
    · intro h
      cases as with
      | nil => exact Or.inl (congrArg (([] : List α), ·) h.symm)
      | cons a as =>
        obtain ⟨rfl, hxs⟩ := List.cons.inj h
        exact Or.inr ⟨(as, bs), ih.mpr hxs, rfl⟩

instance [DecidableEq α] (marker xs : List α) : Decidable (Closes marker xs) :=
  decidable_of_iff
    (xs ≠ [] ∧ ∀ c ∈ cuts (xs ++ marker), ∀ d ∈ cuts c.2, d.1 = marker → c.1 = [] ∨ d.2 = [])
    (and_congr_right fun _ => by
      constructor
      · intro h as bs heq
        exact h (as, marker ++ bs) (mem_cuts.mpr heq) (marker, bs) (mem_cuts.mpr rfl) rfl
      · rintro h ⟨as, rest⟩ hc ⟨_, bs⟩ hd rfl
        exact h as bs ((mem_cuts.mp hc).trans (congrArg (as ++ ·) (mem_cuts.mp hd))))

/-- What does not have the first element of a marker reaches to the second one. -/
theorem Closes.of_head_not_mem {a : α} {marker xs : List α} (hxs : xs ≠ []) (h : a ∉ xs) :
    Closes (a :: marker) xs := by
  -- The second marker ends the text, so nothing may be left behind the occurrence.
  refine ⟨hxs, fun as bs heq => Or.inr ?_⟩
  -- The occurrence cannot start inside `xs`, and so it starts behind it.
  have hlen : xs.length ≤ as.length := by
    by_contra hlt
    rw [Nat.not_le] at hlt
    have hget : (xs ++ a :: marker)[as.length]? = some a := by
      rw [heq, List.getElem?_append_right (Nat.le_refl _), Nat.sub_self]
      rfl
    rw [List.getElem?_append_left hlt] at hget
    exact h (List.mem_of_getElem? hget)
  have := congrArg List.length heq
  simp only [List.length_append, List.length_cons] at this
  exact List.length_eq_zero_iff.mp (by omega)

/-- `a` neither starts nor ends a list, and does not stand in it twice in a row. -/
structure Sparse (a : α) (xs : List α) : Prop where
  /-- It is not the first. -/
  head : xs.head? ≠ some a
  /-- It is not the last. -/
  last : xs.getLast? ≠ some a
  /-- It is not followed by itself. -/
  single : ¬ [a, a] <:+: xs

/-- An element that a list does not have is sparse in it. -/
theorem Sparse.of_not_mem {a : α} {xs : List α} (h : a ∉ xs) : Sparse a xs := by
  refine ⟨fun hhead => ?_, fun hlast => ?_, fun htwice => ?_⟩
  · exact h (List.mem_of_mem_head? hhead)
  · exact h (List.mem_of_mem_getLast? hlast)
  · exact h (htwice.subset List.mem_cons_self)

/-- What is sparse in two lists is so in one after the other. -/
theorem Sparse.append {a : α} {xs ys : List α} (hx : Sparse a xs) (hy : Sparse a ys) :
    Sparse a (xs ++ ys) := by
  refine ⟨fun hhead => ?_, fun hlast => ?_, fun htwice => ?_⟩
  · rw [List.head?_append, Option.or_eq_some_iff] at hhead
    rcases hhead with hhead | ⟨-, hhead⟩
    · exact hx.head hhead
    · exact hy.head hhead
  · rw [List.getLast?_append, Option.or_eq_some_iff] at hlast
    rcases hlast with hlast | ⟨-, hlast⟩
    · exact hy.last hlast
    · exact hx.last hlast
  · -- Two in a row would be in one of the lists, or on both sides of the seam.
    rw [List.infix_append_iff_ne_nil] at htwice
    rcases htwice with htwice | htwice | ⟨first, second, hfirst, hsecond, heq, hxs, -⟩
    · exact hx.single htwice
    · exact hy.single htwice
    · obtain ⟨b, first, rfl⟩ := List.exists_cons_of_ne_nil hfirst
      obtain ⟨rfl, heq⟩ := List.cons.inj heq
      cases first with
      | nil =>
        obtain ⟨zs, rfl⟩ := hxs
        exact hx.last List.getLast?_concat
      | cons b' first =>
        have hlen := congrArg List.length heq
        have hpos := List.length_pos_iff.mpr hsecond
        simp only [List.length_append, List.length_cons, List.length_nil] at hlen
        omega

/-- It is so in any number of lists one after the other. -/
theorem Sparse.flatMap {β : Type} {a : α} {f : β → List α} {bs : List β}
    (h : ∀ b ∈ bs, Sparse a (f b)) : Sparse a (bs.flatMap f) := by
  induction bs with
  | nil => exact Sparse.of_not_mem List.not_mem_nil
  | cons b bs ih =>
    rw [List.flatMap_cons]
    exact (h b List.mem_cons_self).append (ih fun b' hb' => h b' (List.mem_cons_of_mem b hb'))

/-- Where an element is sparse, two of it reach to the next two. -/
theorem Sparse.closes {a : α} {xs : List α} (h : Sparse a xs) (hxs : xs ≠ []) :
    Closes [a, a] xs := by
  refine ⟨hxs, fun as bs heq => Or.inr ?_⟩
  by_contra hbs
  -- An earlier occurrence would start inside the list.
  have hlen := congrArg List.length heq
  have hpos := List.length_pos_iff.mpr hbs
  simp only [List.length_append, List.length_cons, List.length_nil] at hlen
  rcases List.append_eq_append_iff.mp heq with ⟨mid, has, -⟩ | ⟨mid, rfl, hmid⟩
  · rw [has, List.length_append] at hlen
    omega
  · cases mid with
    | nil =>
      rw [List.append_nil] at hlen
      omega
    | cons b mid =>
      simp only [List.cons_append, List.nil_append, List.cons.injEq] at hmid
      obtain ⟨rfl, hmid⟩ := hmid
      cases mid with
      | nil => exact h.last List.getLast?_concat
      | cons b' mid =>
        rw [List.cons_append, List.cons.injEq] at hmid
        rw [← hmid.1] at h
        exact h.single ⟨as, mid, by simp⟩

/-! ## Searching -/

variable [BEq α] [LawfulBEq α] {needle : List α}

/-- `occurrence?` finds the least number of elements before an occurrence. -/
theorem occurrence?_eq_some_iff {xs : List α} {n : Nat} :
    occurrence? needle xs = some n ↔
      (∃ as bs, xs = as ++ (needle ++ bs) ∧ as.length = n) ∧
        ∀ as bs, xs = as ++ (needle ++ bs) → n ≤ as.length := by
  induction xs generalizing n with
  | nil =>
    have hnil (as bs : List α) : [] = as ++ (needle ++ bs) ↔ as = [] ∧ needle = [] ∧ bs = [] := by
      rw [eq_comm, List.append_eq_nil_iff, List.append_eq_nil_iff]
    rw [occurrence?]
    split
    · rename_i hn
      rw [List.isEmpty_iff] at hn
      constructor
      · rintro ⟨⟩
        exact ⟨⟨[], [], (hnil _ _).mpr ⟨rfl, hn, rfl⟩, rfl⟩, fun as bs _ => Nat.zero_le _⟩
      · rintro ⟨⟨as, bs, h, rfl⟩, -⟩
        rw [((hnil as bs).mp h).1]
        rfl
    · rename_i hn
      rw [List.isEmpty_iff] at hn
      constructor
      · rintro ⟨⟩
      · rintro ⟨⟨as, bs, h, -⟩, -⟩
        exact absurd ((hnil as bs).mp h).2.1 hn
  | cons x xs ih =>
    rw [occurrence?]
    split
    · -- An occurrence at the start is the first.
      rename_i hp
      obtain ⟨bs, hbs⟩ := List.isPrefixOf_iff_prefix.mp hp
      constructor
      · rintro ⟨⟩
        exact ⟨⟨[], bs, hbs.symm, rfl⟩, fun as bs _ => Nat.zero_le _⟩
      · rintro ⟨-, hmin⟩
        have := hmin [] bs hbs.symm
        rw [Nat.le_zero.mp this]
    · rename_i hp
      -- An occurrence is not at the start, so it is one in the rest.
      have hcons (as bs : List α) (h : x :: xs = as ++ (needle ++ bs)) :
          ∃ as', as = x :: as' ∧ xs = as' ++ (needle ++ bs) := by
        cases as with
        | nil => exact absurd (List.isPrefixOf_iff_prefix.mpr ⟨bs, h.symm⟩) hp
        | cons a as' =>
          obtain ⟨rfl, hxs⟩ := List.cons.inj h
          exact ⟨as', rfl, hxs⟩
      rw [Option.map_eq_some_iff]
      constructor
      · rintro ⟨m, hm, rfl⟩
        obtain ⟨⟨as, bs, hxs, rfl⟩, hmin⟩ := ih.mp hm
        refine ⟨⟨x :: as, bs, by rw [hxs]; rfl, rfl⟩, fun cs ds h => ?_⟩
        obtain ⟨cs', rfl, hxs'⟩ := hcons cs ds h
        exact Nat.succ_le_succ (hmin cs' ds hxs')
      · rintro ⟨⟨as, bs, h, rfl⟩, hmin⟩
        obtain ⟨as', rfl, hxs⟩ := hcons as bs h
        refine ⟨as'.length, ih.mpr ⟨⟨as', bs, hxs, rfl⟩, fun cs ds hxs' => ?_⟩, rfl⟩
        exact Nat.le_of_succ_le_succ (hmin (x :: cs) ds (by rw [hxs']; rfl))

/-- What is found from a position on is an occurrence that is not before it. -/
theorem exists_of_occurrenceFrom? {xs : List α} {start n : Nat}
    (h : occurrenceFrom? xs needle start = some n) :
    start ≤ n ∧ ∃ as bs, xs = as ++ (needle ++ bs) ∧ as.length = n := by
  rw [occurrenceFrom?] at h
  split at h
  · exact absurd h (by simp)
  rename_i hn
  rw [Bool.or_eq_true, not_or, decide_eq_true_eq, Nat.not_lt] at hn
  obtain ⟨m, hm, rfl⟩ := Option.map_eq_some_iff.mp h
  obtain ⟨⟨as, bs, hxs, rfl⟩, -⟩ := occurrence?_eq_some_iff.mp hm
  refine ⟨Nat.le_add_left _ _, xs.take start ++ as, bs, ?_, ?_⟩
  · rw [List.append_assoc, ← hxs, List.take_append_drop]
  · rw [List.length_append, List.length_take, Nat.min_eq_left hn.2, Nat.add_comm]

/-- An occurrence from a position on is not before it and ends inside the text. -/
theorem bounds_of_occurrenceFrom? {xs : List α} {start n : Nat}
    (h : occurrenceFrom? xs needle start = some n) :
    start ≤ n ∧ n + needle.length ≤ xs.length := by
  obtain ⟨hle, as, bs, rfl, rfl⟩ := exists_of_occurrenceFrom? h
  rw [List.length_append, List.length_append]
  omega

/-- A search from behind the first element of what reaches to the second marker finds that one. -/
theorem Closes.occurrence?_tail {marker xs : List α} (h : Closes marker xs) {x : α}
    {xs' : List α} (hx : xs = x :: xs') (ys : List α) :
    occurrence? marker (xs' ++ (marker ++ ys)) = some xs'.length := by
  rw [occurrence?_eq_some_iff]
  refine ⟨⟨xs', ys, rfl, rfl⟩, fun as bs has => ?_⟩
  by_contra hlt
  rw [Nat.not_le] at hlt
  -- An earlier occurrence ends inside the text and the second marker.
  have hfirst : as ++ marker <+: xs' ++ (marker ++ ys) := ⟨bs, by rw [has, List.append_assoc]⟩
  have hsecond : xs' ++ marker <+: xs' ++ (marker ++ ys) := ⟨ys, by rw [List.append_assoc]⟩
  have hpre : as ++ marker <+: xs' ++ marker := by
    refine List.prefix_of_prefix_length_le hfirst hsecond ?_
    rw [List.length_append, List.length_append]
    omega
  obtain ⟨cs, hcs⟩ := hpre
  rcases h.2 (x :: as) cs (by rw [hx, List.cons_append, ← hcs]; simp) with has' | hcs'
  · exact List.cons_ne_nil _ _ has'
  · rw [hcs', List.append_nil] at hcs
    rw [List.append_cancel_right hcs] at hlt
    exact Nat.lt_irrefl _ hlt

/-- What lies before the first occurrence of a marker reaches to it, with one more element in front
of it. -/
theorem Closes.of_occurrence? {marker xs : List α} {n : Nat} (h : occurrence? marker xs = some n)
    (x : α) : ∃ as bs, xs = as ++ (marker ++ bs) ∧ Closes marker (x :: as) := by
  obtain ⟨⟨as, bs, hxs, hlen⟩, hmin⟩ := occurrence?_eq_some_iff.mp h
  refine ⟨as, bs, hxs, List.cons_ne_nil x as, fun cs ds hcs => ?_⟩
  cases cs with
  | nil => exact Or.inl rfl
  | cons c cs =>
    -- The other occurrence is not before the first, so there is nothing behind it.
    have hrest : as ++ marker = cs ++ (marker ++ ds) := (List.cons.inj hcs).2
    have hother : xs = cs ++ (marker ++ (ds ++ bs)) := by
      calc xs = as ++ marker ++ bs := by rw [hxs, List.append_assoc]
        _ = cs ++ (marker ++ ds) ++ bs := congrArg (· ++ bs) hrest
        _ = cs ++ (marker ++ (ds ++ bs)) := by simp only [List.append_assoc]
    have hle := hmin cs (ds ++ bs) hother
    have hsum := congrArg List.length hrest
    simp only [List.length_append] at hsum
    exact Or.inr (List.length_eq_zero_iff.mp (by omega))

/-! ## Positions -/

/-- From a position on, the next elements of `haystack` are those of `needle`. -/
def OccursAt (needle haystack : List α) (n : Nat) : Prop :=
  (haystack.drop n).take needle.length = needle

instance [DecidableEq α] (needle haystack : List α) (n : Nat) :
    Decidable (OccursAt needle haystack n) :=
  inferInstanceAs (Decidable (_ = _))

omit [BEq α] [LawfulBEq α] in
/-- What is not empty occurs behind as many elements as its position says. -/
theorem occursAt_iff {xs : List α} {n : Nat} (hneedle : needle ≠ []) :
    OccursAt needle xs n ↔ ∃ as bs, xs = as ++ (needle ++ bs) ∧ as.length = n := by
  constructor
  · intro h
    rw [OccursAt] at h
    have hbehind := List.take_append_drop needle.length (xs.drop n)
    rw [h] at hbehind
    refine ⟨xs.take n, (xs.drop n).drop needle.length, ?_, List.length_take_of_le ?_⟩
    · rw [hbehind, List.take_append_drop]
    · -- Nothing is behind the end.
      by_contra hlt
      rw [List.drop_of_length_le (Nat.not_le.mp hlt).le, List.take_nil] at h
      exact hneedle h.symm
  · rintro ⟨as, bs, rfl, rfl⟩
    rw [OccursAt, List.drop_left, List.take_left]

omit [BEq α] [LawfulBEq α] in
/-- All of it is before the end. -/
theorem OccursAt.add_length_le {xs : List α} {n : Nat} (h : OccursAt needle xs n)
    (hneedle : needle ≠ []) : n + needle.length ≤ xs.length := by
  obtain ⟨as, bs, rfl, rfl⟩ := (occursAt_iff hneedle).mp h
  rw [List.length_append, List.length_append]
  omega

omit [BEq α] [LawfulBEq α] in
/-- Behind a position it occurs at positions that are counted from there. -/
theorem occursAt_drop {xs : List α} {start n : Nat} :
    OccursAt needle (xs.drop start) n ↔ OccursAt needle xs (start + n) := by
  rw [OccursAt, OccursAt, List.drop_drop]

/-- `occurrence?` finds the least position. -/
theorem occurrence?_eq_some_iff_isLeast {xs : List α} {n : Nat} (hneedle : needle ≠ []) :
    occurrence? needle xs = some n ↔ IsLeast {m | OccursAt needle xs m} n := by
  rw [occurrence?_eq_some_iff]
  refine and_congr (occursAt_iff hneedle).symm ⟨fun h m hm => ?_, fun h as bs hxs => ?_⟩
  · obtain ⟨as, bs, hxs, rfl⟩ := (occursAt_iff hneedle).mp hm
    exact h as bs hxs
  · exact h ((occursAt_iff hneedle).mpr ⟨as, bs, hxs, rfl⟩)

/-- `occurrenceFrom?` finds the least position from `start` on. -/
theorem occurrenceFrom?_eq_some_iff {xs : List α} {start n : Nat} (hneedle : needle ≠ []) :
    occurrenceFrom? xs needle start = some n ↔
      IsLeast {m | start ≤ m ∧ OccursAt needle xs m} n := by
  rw [occurrenceFrom?, List.isEmpty_eq_false_iff.mpr hneedle, Bool.false_or]
  split
  · rename_i hlt
    rw [decide_eq_true_eq] at hlt
    -- Nothing occurs from behind the end on.
    refine iff_of_false (Option.some_ne_none n).symm fun h => ?_
    have := h.1.1
    have := h.1.2.add_length_le hneedle
    omega
  · rw [Option.map_eq_some_iff]
    constructor
    · rintro ⟨k, hk, rfl⟩
      obtain ⟨hoccurs, hmin⟩ := (occurrence?_eq_some_iff_isLeast hneedle).mp hk
      have hbehind : OccursAt needle xs (start + k) := occursAt_drop.mp hoccurs
      rw [Nat.add_comm k start]
      refine ⟨⟨Nat.le_add_right _ _, hbehind⟩, fun m hm => ?_⟩
      obtain ⟨k', rfl⟩ := Nat.exists_eq_add_of_le hm.1
      have := hmin (occursAt_drop.mpr hm.2)
      omega
    · intro h
      obtain ⟨k, rfl⟩ := Nat.exists_eq_add_of_le h.1.1
      refine ⟨k, (occurrence?_eq_some_iff_isLeast hneedle).mpr ⟨occursAt_drop.mpr h.1.2,
        fun m hm => ?_⟩, Nat.add_comm _ _⟩
      have := h.2 ⟨Nat.le_add_right start m, occursAt_drop.mp hm⟩
      omega

/-- It finds none if and only if there is none. -/
theorem occurrenceFrom?_eq_none_iff {xs : List α} {start : Nat} (hneedle : needle ≠ []) :
    occurrenceFrom? xs needle start = none ↔ ¬ ∃ n, start ≤ n ∧ OccursAt needle xs n := by
  classical
  constructor
  · intro hnone hfound
    have hleast := (occurrenceFrom?_eq_some_iff hneedle).mpr (Nat.isLeast_find hfound)
    exact Option.some_ne_none _ (hleast.symm.trans hnone)
  · intro hnone
    rw [Option.eq_none_iff_forall_ne_some]
    intro n hn
    exact hnone ⟨n, ((occurrenceFrom?_eq_some_iff hneedle).mp hn).1⟩

end MessageMarkup
