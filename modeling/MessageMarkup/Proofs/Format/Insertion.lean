import Mathlib.Data.List.Basic
import MessageMarkup.Format.Insertion
import MessageMarkup.Proofs.Span

/-!
# Insertions in a text

An insertion moves what stands behind it, so insertions are made from the last to the first, and
what they make is `woven`, the text with the insertions of each position in front of its character
(`insertAll_eq_woven`).

Which of them come first at one position is left to the sorting. There the insertions are a
permutation of the marks that close and then those that open, both are sorted, and no two insertions
at one position have the same tag, because a span does not stop where it starts
(`filter_mergeSort`).
-/

namespace MessageMarkup

open Utf16 (encode width)

namespace Insertion

/-! ## Inserting -/

/-- The units inserted at a position. -/
def unitsAt (is : List Insertion) (p : Nat) : List UInt16 :=
  (is.filter (·.position == p)).flatMap (·.units)

/-- A piece of a text, from the position `p` on, with the insertions of each position in it. -/
def woven (is : List Insertion) : Nat → List Char → List UInt16
  | p, [] => unitsAt is p
  | p, c :: cs => unitsAt is p ++ (Utf16.ofChar c ++ woven is (p + width c) cs)

/-- Where nothing is inserted there are no units to insert. -/
theorem unitsAt_eq_nil {is : List Insertion} {p : Nat} (h : ∀ i ∈ is, i.position ≠ p) :
    unitsAt is p = [] := by
  have hnone : is.filter (·.position == p) = [] := by
    rw [List.filter_eq_nil_iff]
    intro i hi
    rw [beq_iff_eq]
    exact h i hi
  unfold unitsAt
  rw [hnone]
  rfl

/-- The first insertion comes before the others at its position. -/
theorem unitsAt_cons (i : Insertion) (is : List Insertion) (p : Nat) :
    unitsAt (i :: is) p = (if i.position = p then i.units else []) ++ unitsAt is p := by
  unfold unitsAt
  rw [List.filter_cons]
  by_cases h : i.position = p
  · simp [h]
  · simp [h]

/-- Without insertions a text has its units. -/
theorem woven_nil (p : Nat) (cs : List Char) : woven [] p cs = encode cs := by
  induction cs generalizing p with
  | nil => rfl
  | cons c cs ih =>
    rw [woven, ih, Utf16.encode_cons]
    rfl

/-- A piece before the insertions has its units. -/
theorem woven_append {is : List Insertion} {p : Nat} {xs : List Char}
    (h : ∀ i ∈ is, p + Utf16.length xs ≤ i.position) (ys : List Char) :
    woven is p (xs ++ ys) = encode xs ++ woven is (p + Utf16.length xs) ys := by
  induction xs generalizing p with
  | nil => rfl
  | cons x xs ih =>
    have hpos := Utf16.width_pos x
    have hnone : unitsAt is p = [] := by
      apply unitsAt_eq_nil
      intro i hi
      have := h i hi
      rw [Utf16.length_cons] at this
      omega
    have hrest : ∀ i ∈ is, p + width x + Utf16.length xs ≤ i.position := by
      intro i hi
      have := h i hi
      rw [Utf16.length_cons] at this
      omega
    rw [List.cons_append, woven, hnone, List.nil_append, ih hrest, Utf16.encode_cons,
      Utf16.length_cons, List.append_assoc, Nat.add_assoc]

/-- The first insertion at the start of a piece comes before it. -/
theorem woven_cons {i : Insertion} {is : List Insertion} {p : Nat} (h : i.position = p)
    (cs : List Char) : woven (i :: is) p cs = i.units ++ woven is p cs := by
  -- It is not met again further on.
  have hbehind (q : Nat) (hq : p < q) (cs : List Char) : woven (i :: is) q cs = woven is q cs := by
    induction cs generalizing q with
    | nil =>
      rw [woven, woven, unitsAt_cons, if_neg (by omega)]
      rfl
    | cons c cs ih =>
      rw [woven, woven, unitsAt_cons, if_neg (by omega), ih _ (by omega)]
      rfl
  cases cs with
  | nil => rw [woven, woven, unitsAt_cons, if_pos h]
  | cons c cs =>
    have hpos := Utf16.width_pos c
    rw [woven, woven, unitsAt_cons, if_pos h, hbehind _ (by omega), List.append_assoc]

/-- A position at which no pair is split is where an insertion goes. -/
theorem insertInto_append (xs : List Char) (us : List UInt16) {i : Insertion}
    (h : i.position = Utf16.length xs) :
    insertInto (encode xs ++ us) i = encode xs ++ (i.units ++ us) := by
  have hle : i.position ≤ (encode xs ++ us).length := by
    rw [List.length_append, Utf16.length_encode, h]
    exact Nat.le_add_right _ _
  -- A position that splits a pair would move back by one.
  have hsettle : settle (encode xs ++ us) i.position = i.position := by
    unfold settle
    rw [dif_neg]
    rintro ⟨hsplit, -⟩
    rw [h, Utf16.splitsPair_encode_append] at hsplit
    exact Bool.noConfusion hsplit
  unfold insertInto
  simp only
  rw [Nat.min_eq_left hle, hsettle, h, ← Utf16.length_encode, List.take_left, List.drop_left,
    List.append_assoc]

/-- Insertions in the order of their positions, each at the end of a piece of the text, are woven
into it. -/
theorem insertAll_eq_woven {text : List Char} {is : List Insertion}
    (hsorted : is.Pairwise fun i j => i.position ≤ j.position)
    (hcut : ∀ i ∈ is, Utf16.IsCut text i.position) :
    insertAll (encode text) is = woven is 0 text := by
  induction is with
  | nil => exact (woven_nil 0 text).symm
  | cons i is ih =>
    obtain ⟨hfirst, hrest⟩ := List.pairwise_cons.mp hsorted
    obtain ⟨xs, ys, rfl, hxs⟩ := hcut i List.mem_cons_self
    have hbehind : ∀ j ∈ is, 0 + Utf16.length xs ≤ j.position := by
      intro j hj
      have := hfirst j hj
      omega
    have hall : ∀ j ∈ i :: is, 0 + Utf16.length xs ≤ j.position := by
      intro j hj
      rcases List.mem_cons.mp hj with rfl | hj
      · omega
      · exact hbehind j hj
    -- What was inserted behind the position has not moved what stands before it.
    calc insertAll (encode (xs ++ ys)) (i :: is)
        = insertInto (insertAll (encode (xs ++ ys)) is) i := rfl
      _ = insertInto (encode xs ++ woven is (0 + Utf16.length xs) ys) i := by
          rw [ih hrest fun j hj => hcut j (List.mem_cons_of_mem i hj), woven_append hbehind]
      _ = encode xs ++ (i.units ++ woven is (0 + Utf16.length xs) ys) :=
          insertInto_append xs _ hxs.symm
      _ = encode xs ++ woven (i :: is) (0 + Utf16.length xs) ys := by
          rw [woven_cons (by omega)]
      _ = woven (i :: is) 0 (xs ++ ys) := (woven_append hall ys).symm

/-! ## The order at one position -/

/-- The insertion that opens a span with a number. -/
def opening (n : Span × Nat) : Insertion :=
  ⟨n.1.offset, n.2, encode n.1.mark.before⟩

/-- The insertion that closes a span with a number. -/
def closing (n : Span × Nat) : Insertion :=
  ⟨n.1.stop, -n.2, encode n.1.mark.after⟩

/-- The insertions of numbered spans at one position, as they should stand there: what closes, the
last first, and then what opens. -/
def inOrder (ns : List (Span × Nat)) (p : Nat) : List Insertion :=
  (ns.filter (·.1.stop == p)).reverse.map closing ++ (ns.filter (·.1.offset == p)).map opening

/-- Insertions are compared by their positions, and then by their tags. -/
theorem le_iff {a b : Insertion} :
    a.le b = true ↔ a.position < b.position ∨ a.position = b.position ∧ a.tag ≤ b.tag := by
  unfold le
  rw [Bool.or_eq_true, Bool.and_eq_true, decide_eq_true_eq, beq_iff_eq, decide_eq_true_eq]

/-- Insertions are compared in one direction at least. -/
theorem le_total (a b : Insertion) : (a.le b || b.le a) = true := by
  rw [Bool.or_eq_true, le_iff, le_iff]
  omega

/-- What comes behind a later insertion comes behind an earlier one. -/
theorem le_trans (a b c : Insertion) (hab : a.le b = true) (hbc : b.le c = true) :
    a.le c = true := by
  rw [le_iff] at hab hbc ⊢
  omega

/-- A sorted list of insertions. -/
theorem pairwise_mergeSort (is : List Insertion) :
    (is.mergeSort le).Pairwise fun a b => a.le b = true :=
  List.pairwise_mergeSort le_trans le_total is

/-- Insertions no two of which belong at one place are sorted in one way only. -/
theorem mergeSort_eq {is js : List Insertion} (hperm : List.Perm is js)
    (hsorted : js.Pairwise fun a b => b.le a = false) : is.mergeSort le = js := by
  -- Sorted lists of the same insertions can differ only where two are in order both ways.
  have hle : js.Pairwise fun a b => a.le b = true := by
    refine hsorted.imp fun {a b} h => ?_
    rw [← Bool.not_eq_true, le_iff] at h
    rw [le_iff]
    omega
  have hne : js.Pairwise fun a b => a.le b = false ∨ b.le a = false := hsorted.imp Or.inr
  have : Std.Symm fun a b : Insertion => a.le b = false ∨ b.le a = false := ⟨fun _ _ => Or.symm⟩
  refine List.Perm.eq_of_pairwise ?_ (pairwise_mergeSort is) hle
    ((List.mergeSort_perm is le).trans hperm)
  intro a b ha hb hab hba
  have ha' : a ∈ js := hperm.mem_iff.mp (List.mem_mergeSort.mp ha)
  by_contra hab'
  rcases hne.forall ha' hb hab' with h | h
  · rw [hab] at h
    exact Bool.noConfusion h
  · rw [hba] at h
    exact Bool.noConfusion h

variable {ns : List (Span × Nat)} {p : Nat}

/-- The insertions at a position are those that should stand there. -/
theorem inOrder_perm (hne : ∀ n ∈ ns, n.1.offset < n.1.stop) (p : Nat) :
    List.Perm (inOrder ns p)
      ((ns.flatMap fun n => [opening n, closing n]).filter (·.position == p)) := by
  induction ns with
  | nil => exact List.Perm.nil
  | cons n ns ih =>
    have hn := hne n List.mem_cons_self
    have hrest := ih fun m hm => hne m (List.mem_cons_of_mem n hm)
    have hopening : (opening n).position = n.1.offset := rfl
    have hclosing : (closing n).position = n.1.stop := rfl
    rw [List.flatMap_cons, List.filter_append]
    unfold inOrder at hrest ⊢
    by_cases hstart : n.1.offset = p
    · -- The span opens here, and does not close here.
      have hstop : n.1.stop ≠ p := by omega
      simp only [List.filter_cons, hopening, hclosing, hstart, hstop, beq_self_eq_true, if_true,
        beq_iff_eq, if_false, List.map_cons, List.filter_nil, List.singleton_append]
      exact List.perm_middle.trans (hrest.cons _)
    · -- It does not open here, but may close here.
      by_cases hstop : n.1.stop = p
      · simp only [List.filter_cons, hopening, hclosing, hstart, hstop, beq_self_eq_true, if_true,
          beq_iff_eq, if_false, List.filter_nil, List.singleton_append, List.reverse_cons,
          List.map_append, List.map_cons, List.map_nil, List.append_assoc]
        exact List.perm_middle.trans (hrest.cons _)
      · simp only [List.filter_cons, hopening, hclosing, hstart, hstop, beq_iff_eq, if_false,
          List.filter_nil, List.nil_append]
        exact hrest

/-- What is in order at a position is there, and opens or closes a span. -/
theorem of_mem_inOrder {i : Insertion} (h : i ∈ inOrder ns p) :
    i.position = p ∧ ∃ n ∈ ns, i = closing n ∨ i = opening n := by
  unfold inOrder at h
  rcases List.mem_append.mp h with h | h
  · obtain ⟨n, hn, rfl⟩ := List.mem_map.mp h
    rw [List.mem_reverse, List.mem_filter, beq_iff_eq] at hn
    exact ⟨hn.2, n, hn.1, Or.inl rfl⟩
  · obtain ⟨n, hn, rfl⟩ := List.mem_map.mp h
    rw [List.mem_filter, beq_iff_eq] at hn
    exact ⟨hn.2, n, hn.1, Or.inr rfl⟩

/-- What is in order is sorted. -/
theorem pairwise_inOrder (hns : ns.Pairwise fun n m => n.2 < m.2) (p : Nat) :
    (inOrder ns p).Pairwise fun a b => a.le b = true := by
  have htag : (inOrder ns p).Pairwise fun a b => a.tag ≤ b.tag := by
    unfold inOrder
    -- Closing tags are at most zero and descend with the numbers, opening tags are at least zero
    -- and ascend.
    rw [List.pairwise_append, List.pairwise_map, List.pairwise_map, List.pairwise_reverse]
    refine ⟨(hns.filter _).imp ?_, (hns.filter _).imp ?_, ?_⟩
    · intro n m hlt
      show (-(m.2 : Int)) ≤ -(n.2 : Int)
      omega
    · intro n m hlt
      show (n.2 : Int) ≤ (m.2 : Int)
      omega
    · intro a ha b hb
      obtain ⟨n, -, rfl⟩ := List.mem_map.mp ha
      obtain ⟨m, -, rfl⟩ := List.mem_map.mp hb
      show (-(n.2 : Int)) ≤ (m.2 : Int)
      omega
  refine htag.imp_of_mem fun {a b} ha hb hle => le_iff.mpr (Or.inr ⟨?_, hle⟩)
  rw [(of_mem_inOrder ha).1, (of_mem_inOrder hb).1]

/-- A number is that of one span. -/
theorem eq_of_number (hns : ns.Pairwise fun n m => n.2 < m.2) {n m : Span × Nat} (hn : n ∈ ns)
    (hm : m ∈ ns) (h : n.2 = m.2) : n = m := by
  have hall : ∀ ⦃n⦄, n ∈ ns → ∀ ⦃m⦄, m ∈ ns → n.2 = m.2 → n = m := by
    apply List.Pairwise.forall_of_forall_of_flip
    · exact fun _ _ _ => rfl
    · exact hns.imp fun hlt heq => absurd heq (Nat.ne_of_lt hlt)
    · exact hns.imp fun hlt heq => absurd heq.symm (Nat.ne_of_lt hlt)
  exact hall hn hm h

/-- Insertions that are in order both ways at a position are the same: their tags are the numbers of
spans, and a span that opens at a position does not close there. -/
theorem eq_of_le_of_le (hne : ∀ n ∈ ns, n.1.offset < n.1.stop)
    (hns : ns.Pairwise fun n m => n.2 < m.2) {a b : Insertion} (ha : a ∈ inOrder ns p)
    (hb : b ∈ inOrder ns p) (hab : a.le b = true) (hba : b.le a = true) : a = b := by
  obtain ⟨hpa, n, hn, ha⟩ := of_mem_inOrder ha
  obtain ⟨hpb, m, hm, hb⟩ := of_mem_inOrder hb
  have htag : a.tag = b.tag := by
    rw [le_iff] at hab hba
    omega
  rcases ha with rfl | rfl <;> rcases hb with rfl | rfl
  · have hnumber : (-(n.2 : Int)) = -(m.2 : Int) := htag
    rw [eq_of_number hns hn hm (by omega)]
  · -- The tags are both zero, so this is the first span, which would be empty.
    have hnumber : (-(n.2 : Int)) = (m.2 : Int) := htag
    have hsame := eq_of_number hns hn hm (by omega)
    have hlt := hne m hm
    rw [hsame] at hpa
    have hstop : m.1.stop = p := hpa
    have hstart : m.1.offset = p := hpb
    omega
  · have hnumber : (n.2 : Int) = -(m.2 : Int) := htag
    have hsame := eq_of_number hns hn hm (by omega)
    have hlt := hne m hm
    rw [hsame] at hpa
    have hstart : m.1.offset = p := hpa
    have hstop : m.1.stop = p := hpb
    omega
  · have hnumber : (n.2 : Int) = (m.2 : Int) := htag
    rw [eq_of_number hns hn hm (by omega)]

/-- Sorting the insertions of numbered spans puts those at a position in order. -/
theorem filter_mergeSort (hne : ∀ n ∈ ns, n.1.offset < n.1.stop)
    (hns : ns.Pairwise fun n m => n.2 < m.2) (p : Nat) :
    ((ns.flatMap fun n => [opening n, closing n]).mergeSort le).filter (·.position == p) =
      inOrder ns p := by
  have hperm : List.Perm
      (((ns.flatMap fun n => [opening n, closing n]).mergeSort le).filter (·.position == p))
      (inOrder ns p) :=
    ((List.mergeSort_perm _ _).filter _).trans (inOrder_perm hne p).symm
  have hsorted := (pairwise_mergeSort (ns.flatMap fun n => [opening n, closing n])).filter
    (·.position == p)
  refine List.Perm.eq_of_pairwise ?_ hsorted (pairwise_inOrder hns p) hperm
  intro a b ha hb hab hba
  exact eq_of_le_of_le hne hns (hperm.mem_iff.mp ha) hb hab hba

/-- What is in order at a position are the marks that close there and those that open. -/
theorem flatMap_units_inOrder (ns : List (Span × Nat)) (p : Nat) :
    (inOrder ns p).flatMap (·.units) =
      encode (closings (ns.map (·.1)) p ++ openings (ns.map (·.1)) p) := by
  have hencode (l : List (Span × Nat)) (f : Span → List Char) :
      l.flatMap (fun n => encode (f n.1)) = encode ((l.map (·.1)).flatMap f) := by
    unfold encode
    rw [List.flatMap_assoc, List.flatMap_map]
  unfold inOrder closings openings
  rw [List.flatMap_append, List.flatMap_map, List.flatMap_map, Utf16.encode_append,
    List.filter_map, List.filter_map, ← List.map_reverse, ← hencode, ← hencode]
  rfl

/-- If the insertions at every position are the marks there, the text is woven with its markup. -/
theorem woven_eq_markup {is : List Insertion} {ss : List Span}
    (h : ∀ p, unitsAt is p = encode (closings ss p ++ openings ss p)) (p : Nat) (cs : List Char) :
    woven is p cs =
      encode (closings ss p ++ (markup ss p cs ++ openings ss (p + Utf16.length cs))) := by
  induction cs generalizing p with
  | nil =>
    rw [woven, h]
    rfl
  | cons c cs ih =>
    rw [woven, h, ih, markup, Utf16.length_cons, ← Nat.add_assoc]
    simp only [Utf16.encode_append, Utf16.encode_cons, List.append_assoc]

end Insertion

end MessageMarkup
