import MessageMarkup.Proofs.Format.Merge

/-!
# Disjoint entities in any order

The number of an entity orders its insertions among those at the same position, and does nothing
else (`Insertion.insertAll_untagged`). Where no two entities overlap and none is empty it does not
even do that: an entity opens before it closes, two positions of one entity differ, and where one
closes and another opens the closing comes first, whatever their numbers are. So the insertions
stand in the order of the entities in the text (`insertionsOf_eq_of_ordered`), and the markup does
not depend on the order in which the message lists them (`Format.unparse_of_perm`).

An entity is empty here if it stops where it starts, and with positions of 64 bits one that starts
at the greatest does. Then its number decides which of its marks comes first
(`Format.unparse_of_perm_ne`).
-/

namespace MessageMarkup

/-! ## Insertions without their tags -/

namespace Insertion

/-- An insertion without what orders it. -/
def untagged (i : Insertion) : Insertion :=
  { i with tag := 0 }

/-- Once insertions are in order their tags do nothing. -/
theorem insertAll_untagged (units : List UInt16) (is : List Insertion) :
    insertAll units (is.map untagged) = insertAll units is := by
  induction is with
  | nil => rfl
  | cons i is ih =>
    calc insertAll units ((i :: is).map untagged)
        = insertInto (insertAll units (is.map untagged)) i := rfl
      _ = insertInto (insertAll units is) i := by rw [ih]

end Insertion

namespace Entity

variable {table : Delimiters} {limit index : Nat} {e : Entity}

/-- Without their tags the insertions of an entity do not depend on its number. -/
theorem map_untagged_insertions :
    (e.insertions table limit index).map Insertion.untagged = e.insertions table limit 0 := by
  unfold insertions
  cases table.around? e.kind with
  | none => rfl
  | some around => rfl

/-- An entity that is not empty opens before it closes. -/
theorem pairwise_insertions (h : e.offset < e.stopWithin limit) :
    (e.insertions table limit index).Pairwise fun a b => b.le a = false := by
  unfold insertions
  split
  · rw [List.pairwise_pair, ← Bool.not_eq_true, Insertion.le_iff]
    dsimp only
    omega
  · exact List.Pairwise.nil

end Entity

/-! ## Entities in the order of the text -/

section

variable {table : Delimiters} {limit : Nat}

/-- If an entity stops before another starts, or where it does, its insertions come before those of
the other. -/
theorem Entity.le_eq_false_of_stopWithin_le {n m : Entity × Nat} {a b : Insertion}
    (hn : n.1.offset < n.1.stopWithin limit) (hm : m.1.offset < m.1.stopWithin limit)
    (hle : n.1.stopWithin limit ≤ m.1.offset) (hne : n.2 ≠ m.2)
    (ha : a ∈ n.1.insertions table limit n.2) (hb : b ∈ m.1.insertions table limit m.2) :
    b.le a = false := by
  rw [← Bool.not_eq_true, Insertion.le_iff]
  -- Only a closing and an opening can be at one position, and their tags are not both zero.
  rcases Entity.of_mem_insertions ha with ⟨hpa, hta⟩ | ⟨hpa, hta⟩ <;>
    rcases Entity.of_mem_insertions hb with ⟨hpb, htb⟩ | ⟨hpb, htb⟩ <;> omega

/-- Entities that are numbered in any way and taken in the order in which they stand in the text
have their insertions in that order. -/
theorem insertionsOf_eq_of_ordered {es : List Entity} {ns : List (Entity × Nat)}
    (hperm : List.Perm es.zipIdx ns) (hpos : ∀ n ∈ ns, n.1.offset < n.1.stopWithin limit)
    (hordered : ns.Pairwise fun n m => n.1.stopWithin limit ≤ m.1.offset) :
    insertionsOf table limit es = ns.flatMap fun n => n.1.insertions table limit n.2 := by
  have hnumbers : ns.Pairwise fun n m => n.2 ≠ m.2 :=
    hperm.pairwise (pairwise_zipIdx_ne es) fun h => h.symm
  refine Insertion.mergeSort_eq (hperm.flatMap_right _) (List.pairwise_flatMap.mpr ⟨?_, ?_⟩)
  · exact fun n hn => Entity.pairwise_insertions (hpos n hn)
  · refine (hordered.and hnumbers).imp_of_mem fun {n m} hn hm h a ha b hb => ?_
    exact Entity.le_eq_false_of_stopWithin_le (hpos n hn) (hpos m hm) h.1 h.2 ha hb

/-- Entities in the order in which they start. -/
def byOffset (es : List Entity) : List Entity :=
  es.mergeSort fun a b => a.offset ≤ b.offset

/-- They are the same entities. -/
theorem byOffset_perm (es : List Entity) : List.Perm (byOffset es) es :=
  List.mergeSort_perm es _

/-- In this order too they can have the numbers that they had. -/
theorem exists_numbered (es : List Entity) :
    ∃ ns, List.Perm es.zipIdx ns ∧ ns.map Prod.fst = byOffset es := by
  refine ⟨es.zipIdx.mergeSort fun n m => n.1.offset ≤ m.1.offset,
    (List.mergeSort_perm _ _).symm, ?_⟩
  rw [List.map_mergeSort (s := fun a b : Entity => decide (a.offset ≤ b.offset))
    fun _ _ _ _ => rfl, List.zipIdx_map_fst]
  rfl

/-- Disjoint entities that are not empty start one after the other, and stop before the next one
starts. -/
theorem pairwise_byOffset {es : List Entity} (hpos : ∀ e ∈ es, e.offset < e.stopWithin limit)
    (hapart : es.Pairwise fun e e' =>
      e.stopWithin limit ≤ e'.offset ∨ e'.stopWithin limit ≤ e.offset) :
    (byOffset es).Pairwise fun e e' => e.stopWithin limit ≤ e'.offset := by
  have hsorted : (byOffset es).Pairwise fun e e' => decide (e.offset ≤ e'.offset) = true := by
    refine List.pairwise_mergeSort (fun a b c hab hbc => ?_) (fun a b => ?_) es
    · rw [decide_eq_true_eq] at hab hbc ⊢
      exact Nat.le_trans hab hbc
    · rw [Bool.or_eq_true, decide_eq_true_eq, decide_eq_true_eq]
      exact Nat.le_total _ _
  have hdisjoint := (byOffset_perm es).symm.pairwise hapart fun h => h.symm
  refine (hsorted.and hdisjoint).imp_of_mem fun {e e'} he he' h => ?_
  have hpos' := hpos e' (List.mem_mergeSort.mp he')
  rw [decide_eq_true_eq] at h
  omega

/-- Disjoint entities that are not empty have one such order only. -/
theorem byOffset_eq_of_perm {es es' : List Entity}
    (hpos : ∀ e ∈ es, e.offset < e.stopWithin limit)
    (hapart : es.Pairwise fun e e' =>
      e.stopWithin limit ≤ e'.offset ∨ e'.stopWithin limit ≤ e.offset)
    (hperm : List.Perm es es') : byOffset es = byOffset es' := by
  have hpos' : ∀ e ∈ es', e.offset < e.stopWithin limit := fun e he => hpos e (hperm.mem_iff.mpr he)
  refine List.Perm.eq_of_pairwise ?_ (pairwise_byOffset hpos hapart)
    (pairwise_byOffset hpos' (hperm.pairwise hapart fun h => h.symm))
    ((byOffset_perm es).trans (hperm.trans (byOffset_perm es').symm))
  intro e e' he he' hle hge
  have := hpos e (List.mem_mergeSort.mp he)
  have := hpos' e' (List.mem_mergeSort.mp he')
  omega

/-- Disjoint entities that are not empty are written in the order in which they start. -/
theorem insertAll_insertionsOf {es : List Entity}
    (hpos : ∀ e ∈ es, e.offset < e.stopWithin limit)
    (hapart : es.Pairwise fun e e' =>
      e.stopWithin limit ≤ e'.offset ∨ e'.stopWithin limit ≤ e.offset) (units : List UInt16) :
    Insertion.insertAll units (insertionsOf table limit es) =
      Insertion.insertAll units ((byOffset es).flatMap fun e => e.insertions table limit 0) := by
  obtain ⟨ns, hperm, hns⟩ := exists_numbered es
  have hmem : ∀ n ∈ ns, n.1 ∈ es := fun n hn =>
    (byOffset_perm es).subset (hns ▸ List.mem_map_of_mem hn)
  have hordered : ns.Pairwise fun n m => n.1.stopWithin limit ≤ m.1.offset := by
    have h := pairwise_byOffset hpos hapart
    rw [← hns] at h
    exact List.pairwise_map.mp h
  have hlist : (insertionsOf table limit es).map Insertion.untagged =
      ((byOffset es).flatMap fun e => e.insertions table limit 0).map Insertion.untagged := by
    rw [insertionsOf_eq_of_ordered hperm (fun n hn => hpos _ (hmem n hn)) hordered, ← hns,
      List.flatMap_map, List.map_flatMap, List.map_flatMap]
    simp only [Entity.map_untagged_insertions]
  rw [← Insertion.insertAll_untagged, hlist, Insertion.insertAll_untagged]

end

/-! ## Messages -/

/-- The markup of a message whose entities are disjoint and not empty is the same in whatever order
they are listed. They may touch, split pairs and lie behind the end of the text. -/
theorem Format.unparse_of_perm (f : Format) (text : String) (es es' : List Entity)
    (hpos : ∀ e ∈ es, e.offset < e.stopWithin (Insertion.limit (Utf16.ofText text)))
    (hapart : es.Pairwise fun e e' =>
      e.stopWithin (Insertion.limit (Utf16.ofText text)) ≤ e'.offset ∨
        e'.stopWithin (Insertion.limit (Utf16.ofText text)) ≤ e.offset)
    (hperm : List.Perm es es') : f.unparse ⟨text, es⟩ = f.unparse ⟨text, es'⟩ := by
  have hpos' := fun e he => hpos e (hperm.mem_iff.mpr he)
  have hunits : Utf16.ofText (f.unparse ⟨text, es⟩) = Utf16.ofText (f.unparse ⟨text, es'⟩) := by
    rw [f.ofText_unparse, f.ofText_unparse, hperm.isEmpty_eq,
      insertAll_insertionsOf hpos hapart,
      insertAll_insertionsOf hpos' (hperm.pairwise hapart fun h => h.symm),
      byOffset_eq_of_perm hpos hapart hperm]
  rw [← Utf16.toText_ofText (f.unparse ⟨text, es⟩), hunits, Utf16.toText_ofText]

/-- Entities that touch, one that splits a pair and one behind the end, in two orders. -/
theorem Format.unparse_of_perm_touching :
    let f : Format := {}
    let es : List Entity :=
      [⟨9, 3, .textUrl "u"⟩, ⟨0, 2, .bold⟩, ⟨4, 1, .code⟩, ⟨2, 2, .italic⟩]
    let es' : List Entity :=
      [⟨2, 2, .italic⟩, ⟨4, 1, .code⟩, ⟨9, 3, .textUrl "u"⟩, ⟨0, 2, .bold⟩]
    (∀ e ∈ es, e.offset < e.stopWithin (Insertion.limit (Utf16.ofText "a👋bc"))) ∧
      (es.Pairwise fun e e' =>
        e.stopWithin (Insertion.limit (Utf16.ofText "a👋bc")) ≤ e'.offset ∨
          e'.stopWithin (Insertion.limit (Utf16.ofText "a👋bc")) ≤ e.offset) ∧
      List.Perm es es' ∧ f.unparse ⟨"a👋bc", es⟩ = f.unparse ⟨"a👋bc", es'⟩ := by
  intro f es es'
  have hpos : ∀ e ∈ es, e.offset < e.stopWithin (Insertion.limit (Utf16.ofText "a👋bc")) := by
    decide
  have hapart : es.Pairwise fun e e' =>
      e.stopWithin (Insertion.limit (Utf16.ofText "a👋bc")) ≤ e'.offset ∨
        e'.stopWithin (Insertion.limit (Utf16.ofText "a👋bc")) ≤ e.offset := by
    decide
  have hperm : List.Perm es es' := by decide
  exact ⟨hpos, hapart, hperm, f.unparse_of_perm "a👋bc" es es' hpos hapart hperm⟩

/-- Among positions of 64 bits an entity at the greatest stops where it starts, however long it is.
Listed behind another entity it closes before it opens, and since each of the two is inserted behind
the other they come out right; listed first it opens before it closes, and they do not. -/
theorem Format.unparse_of_perm_ne :
    let f : Format := {}
    let es : List Entity := [⟨0, 1, .bold⟩, ⟨Integer64.maxUnsigned, 1, .textUrl "u"⟩]
    (∀ e ∈ es, 0 < e.length ∧ e.offset ≤ Integer64.maxUnsigned) ∧
      (es.Pairwise fun e e' => e.stop ≤ e'.offset ∨ e'.stop ≤ e.offset) ∧
      List.Perm es es.reverse ∧
      f.unparse ⟨"ab", es⟩ = "**a**b[](u)" ∧ f.unparse ⟨"ab", es.reverse⟩ = "**a**b](u)[" := by
  intro f es
  have hsort : StableSort Insertion.le (f.listed ⟨"ab", es⟩)
      [⟨0, 0, Utf16.ofText "**"⟩, ⟨1, 0, Utf16.ofText "**"⟩,
        ⟨Integer64.maxUnsigned, -1, Utf16.ofText "](u)"⟩,
        ⟨Integer64.maxUnsigned, 1, Utf16.ofText "["⟩] :=
    StableSort.of_perm Insertion.le_trans (by decide +kernel) (by decide +kernel)
      (by decide +kernel)
  have hsort' : StableSort Insertion.le (f.listed ⟨"ab", es.reverse⟩)
      [⟨0, 1, Utf16.ofText "**"⟩, ⟨1, -1, Utf16.ofText "**"⟩,
        ⟨Integer64.maxUnsigned, 0, Utf16.ofText "["⟩,
        ⟨Integer64.maxUnsigned, 0, Utf16.ofText "](u)"⟩] :=
    StableSort.of_perm Insertion.le_trans (by decide +kernel) (by decide +kernel)
      (by decide +kernel)
  have hperm : List.Perm es es.reverse := (List.reverse_perm es).symm
  refine ⟨by decide, by decide, hperm, ?_, ?_⟩
  · rw [Format.unparse_eq_of_stableSort (by decide) hsort]
    decide +kernel
  · rw [Format.unparse_eq_of_stableSort (by decide) hsort']
    decide +kernel

end MessageMarkup
