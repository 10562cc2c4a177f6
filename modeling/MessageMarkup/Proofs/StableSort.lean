import Mathlib.Data.List.Basic

/-!
# Stable sorts

A stable sort of a list is sorted and has what compares equal in the order of the list. There is one
such list only, and sorting by merging gives it (`StableSort.eq_mergeSort`).
-/

namespace MessageMarkup

variable {α : Type} {le : α → α → Bool}

/-- Two things compare equal. -/
def tied (le : α → α → Bool) (a b : α) : Bool :=
  le a b && le b a

/-- A list with the things of another in the order of a comparison, those that compare equal as they
are in the other list. -/
structure StableSort (le : α → α → Bool) (xs ys : List α) : Prop where
  /-- It is in order. -/
  sorted : ys.Pairwise fun a b => le a b = true
  /-- Whatever one thing compares equal with is as in the other list. -/
  stable : ∀ a, ys.filter (tied le a) = xs.filter (tied le a)

namespace StableSort

/-- Comparing equal, said with two comparisons. -/
theorem tied_iff {a b : α} : tied le a b = true ↔ le a b = true ∧ le b a = true := by
  unfold tied
  rw [Bool.and_eq_true]

section

variable (trans : ∀ a b c, le a b = true → le b c = true → le a c = true)
  (total : ∀ a b, (le a b || le b a) = true)

include total in
/-- A thing compares equal with itself. -/
theorem tied_self (a : α) : tied le a a = true := by
  have h := total a a
  rw [Bool.or_self] at h
  exact tied_iff.mpr ⟨h, h⟩

include trans total in
/-- Sorting by merging leaves what is in order among the things of a list as it is. -/
theorem filter_mergeSort_of_pairwise {p : α → Bool} {xs : List α}
    (h : (xs.filter p).Pairwise fun a b => le a b = true) :
    (xs.mergeSort le).filter p = xs.filter p := by
  have hsub : (xs.filter p).Sublist (xs.mergeSort le) :=
    List.sublist_mergeSort trans total h List.filter_sublist
  have hfilter := hsub.filter p
  rw [List.filter_filter] at hfilter
  simp only [Bool.and_self] at hfilter
  exact (hfilter.eq_of_length ((List.mergeSort_perm xs le).filter p).length_eq.symm).symm

include trans total in
/-- Sorting by merging is stable. -/
theorem of_mergeSort (xs : List α) : StableSort le xs (xs.mergeSort le) := by
  refine ⟨List.pairwise_mergeSort trans total xs, fun a =>
    filter_mergeSort_of_pairwise trans total ?_⟩
  -- What compares equal is in order as it is.
  refine List.pairwise_of_forall_mem_list fun b hb c hc => ?_
  obtain ⟨-, hba⟩ := tied_iff.mp (List.mem_filter.mp hb).2
  obtain ⟨hac, -⟩ := tied_iff.mp (List.mem_filter.mp hc).2
  exact trans b a c hba hac

include total in
/-- Whatever is in a list is found among those it compares equal with. -/
theorem mem_of_filter_tied {xs ys : List α}
    (h : ∀ a, xs.filter (tied le a) = ys.filter (tied le a)) {a : α} (ha : a ∈ xs) : a ∈ ys := by
  have hmem : a ∈ xs.filter (tied le a) := List.mem_filter.mpr ⟨ha, tied_self total a⟩
  rw [h] at hmem
  exact (List.mem_filter.mp hmem).1

include total in
/-- Sorted lists are known by what compares equal in them. -/
theorem eq_of_filter_tied {xs ys : List α} (hxs : xs.Pairwise fun a b => le a b = true)
    (hys : ys.Pairwise fun a b => le a b = true)
    (h : ∀ a, xs.filter (tied le a) = ys.filter (tied le a)) : xs = ys := by
  induction xs generalizing ys with
  | nil =>
    refine (List.eq_nil_iff_forall_not_mem.mpr fun y hy => ?_).symm
    exact List.not_mem_nil (mem_of_filter_tied total (fun a => (h a).symm) hy)
  | cons x xs ih =>
    cases ys with
    | nil => exact absurd (mem_of_filter_tied total h List.mem_cons_self) List.not_mem_nil
    | cons y ys =>
      obtain ⟨hx, hxs'⟩ := List.pairwise_cons.mp hxs
      obtain ⟨hy, hys'⟩ := List.pairwise_cons.mp hys
      have hself := (tied_iff.mp (tied_self total x)).1
      -- Each list starts with something that nothing comes before, so their heads compare equal.
      have hxy : le x y = true := by
        rcases List.mem_cons.mp (mem_of_filter_tied total (fun a => (h a).symm)
          List.mem_cons_self) with rfl | hmem
        · exact hself
        · exact hx y hmem
      have hyx : le y x = true := by
        rcases List.mem_cons.mp (mem_of_filter_tied total h List.mem_cons_self) with rfl | hmem
        · exact hself
        · exact hy x hmem
      have hfirst := h x
      rw [List.filter_cons_of_pos (tied_self total x),
        List.filter_cons_of_pos (tied_iff.mpr ⟨hxy, hyx⟩)] at hfirst
      obtain ⟨rfl, -⟩ := List.cons.inj hfirst
      refine congrArg (x :: ·) (ih hxs' hys' fun a => ?_)
      have ha := h a
      rw [List.filter_cons, List.filter_cons] at ha
      split at ha
      · exact (List.cons.inj ha).2
      · exact ha

include trans total in
/-- A stable sort of a list is what sorting by merging makes of it. -/
theorem eq_mergeSort {xs ys : List α} (h : StableSort le xs ys) : ys = xs.mergeSort le :=
  eq_of_filter_tied total h.sorted (of_mergeSort trans total xs).sorted fun a =>
    (h.stable a).trans ((of_mergeSort trans total xs).stable a).symm

include trans in
/-- A sorted list is a stable sort of another if it has the same things and those that it has are in
the order of the other. -/
theorem of_perm {xs ys : List α} (hperm : List.Perm xs ys)
    (hsorted : ys.Pairwise fun a b => le a b = true)
    (hstable : ∀ a ∈ ys, ys.filter (tied le a) = xs.filter (tied le a)) : StableSort le xs ys := by
  refine ⟨hsorted, fun a => ?_⟩
  by_cases h : ∃ b ∈ ys, tied le a b = true
  · obtain ⟨b, hb, hab⟩ := h
    obtain ⟨hle, hge⟩ := tied_iff.mp hab
    -- Whatever compares equal with one of two that do compares equal with the other.
    have hsame : tied le a = tied le b := by
      funext c
      rw [Bool.eq_iff_iff, tied_iff, tied_iff]
      exact ⟨fun hc => ⟨trans b a c hge hc.1, trans c a b hc.2 hle⟩,
        fun hc => ⟨trans a b c hle hc.1, trans c b a hc.2 hge⟩⟩
    rw [hsame]
    exact hstable b hb
  · have hnone {zs : List α} (hzs : zs ⊆ ys) : zs.filter (tied le a) = [] :=
      List.filter_eq_nil_iff.mpr fun b hb hab => h ⟨b, hzs hb, hab⟩
    rw [hnone (List.Subset.refl ys), hnone hperm.subset]

include trans total in
/-- Sorting by merging what is looked for in a list is looking for it in the sorted list. -/
theorem filter_mergeSort (p : α → Bool) (xs : List α) :
    (xs.mergeSort le).filter p = (xs.filter p).mergeSort le := by
  have hsort := of_mergeSort trans total xs
  refine eq_mergeSort trans total ⟨hsort.sorted.filter p, fun a => ?_⟩
  rw [List.filter_comm, hsort.stable, List.filter_comm]

end

end StableSort

end MessageMarkup
