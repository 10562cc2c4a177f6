import MessageMarkup.Proofs.Format.Merge

/-!
# Entities that reach past the end

An insertion that is meant for a position behind the end of a text goes to the end of what is there
when it is made, and by then other insertions may have been made behind the text. So what is written
behind a text is made by itself, as if into an empty text (`Insertion.insertAll_eq_append`), and
each insertion there may go before, behind or into another.

If the entities stopped at the end of the text (`Message.clamped`), these insertions would stand
there one after the other, in the order of their tags. `Format.unparse_clamped_iff` says when the
two are the same, and `Format.unparse_clamped` that they are if one entity only reaches past the end
and is the first of those that reach it.
-/

namespace MessageMarkup

open Utf16 (encode)

/-! ## Behind a text -/

namespace Utf16

/-- Whether a pair is split behind a text is decided by what stands there. -/
theorem splitsPair_encode_append_add (cs : List Char) (us : List UInt16) (i : Nat) :
    splitsPair (encode cs ++ us) (length cs + i) = splitsPair us i := by
  have hbehind (xs : List UInt16) (n : Nat) :
      splitsPair (xs ++ us) (xs.length + (n + 1)) = splitsPair us (n + 1) := by
    induction xs with
    | nil => rw [List.nil_append, List.length_nil, Nat.zero_add]
    | cons x xs ih =>
      have hindex : (x :: xs).length + (n + 1) = xs.length + n + 2 := by
        rw [List.length_cons]
        omega
      rw [List.cons_append, hindex, splitsPair_cons_succ, ← ih, Nat.add_assoc]
  cases i with
  | zero => rw [Nat.add_zero, splitsPair_encode_append, splitsPair_zero]
  | succ n => rw [← length_encode, hbehind]

end Utf16

namespace Insertion

/-- An insertion seen from the end of a text of `n` units. -/
def behind (n : Nat) (i : Insertion) : Insertion :=
  { i with position := i.position - n }

/-- A position behind a text settles there. -/
theorem settle_append (cs : List Char) (us : List UInt16) (i : Nat) :
    settle (encode cs ++ us) (Utf16.length cs + i) = Utf16.length cs + settle us i := by
  have hlength : (encode cs ++ us).length = Utf16.length cs + us.length := by
    rw [List.length_append, Utf16.length_encode]
  fun_induction settle us i with
  | case1 i h ih =>
    have hsplit : Utf16.splitsPair (encode cs ++ us) (Utf16.length cs + i) ∧
        Utf16.length cs + i < (encode cs ++ us).length := by
      rw [Utf16.splitsPair_encode_append_add, hlength]
      exact ⟨h.1, Nat.add_lt_add_left h.2 _⟩
    rw [settle, dif_pos hsplit, Nat.add_assoc, ih]
  | case2 i h =>
    have hsplit : ¬ (Utf16.splitsPair (encode cs ++ us) (Utf16.length cs + i) ∧
        Utf16.length cs + i < (encode cs ++ us).length) := by
      rw [Utf16.splitsPair_encode_append_add, hlength]
      exact fun hs => h ⟨hs.1, Nat.lt_of_add_lt_add_left hs.2⟩
    rw [settle, dif_neg hsplit]

/-- An insertion meant for the end of a text or a position behind it goes into what stands there. -/
theorem insertInto_append_of_le (cs : List Char) (us : List UInt16) {i : Insertion}
    (h : Utf16.length cs ≤ i.position) :
    insertInto (encode cs ++ us) i =
      encode cs ++ insertInto us (i.behind (Utf16.length cs)) := by
  have hposition : min i.position (encode cs ++ us).length =
      Utf16.length cs + min (i.position - Utf16.length cs) us.length := by
    rw [List.length_append, Utf16.length_encode]
    omega
  unfold insertInto behind
  dsimp only
  rw [hposition, settle_append, ← Utf16.length_encode, List.take_length_add_append,
    List.drop_length_add_append, List.append_assoc, List.append_assoc, List.append_assoc]

/-- An insertion meant for a position of a text goes into the text, whatever stands behind it. -/
theorem insertInto_append_of_ge (cs : List Char) (us : List UInt16) {i : Insertion}
    (h : i.position ≤ Utf16.length cs) :
    insertInto (encode cs ++ us) i = insertInto (encode cs) i ++ us := by
  obtain ⟨xs, ys, rfl, hreach⟩ := exists_reaches h
  rw [Utf16.encode_append, List.append_assoc, insertInto_of_reaches hreach,
    insertInto_of_reaches hreach]
  simp only [List.append_assoc]

variable {text : List Char} {is : List Insertion}

/-- Insertions behind a text are made by themselves. -/
theorem insertAll_of_le (h : ∀ i ∈ is, Utf16.length text ≤ i.position) :
    insertAll (encode text) is =
      encode text ++ insertAll [] (is.map (behind (Utf16.length text))) := by
  induction is with
  | nil => exact (List.append_nil _).symm
  | cons i is ih =>
    calc insertAll (encode text) (i :: is)
        = insertInto (insertAll (encode text) is) i := rfl
      _ = insertInto (encode text ++ insertAll [] (is.map (behind (Utf16.length text)))) i := by
          rw [ih fun j hj => h j (List.mem_cons_of_mem i hj)]
      _ = encode text ++ insertAll [] ((i :: is).map (behind (Utf16.length text))) :=
          insertInto_append_of_le text _ (h i List.mem_cons_self)

/-- Insertions of characters into a text are made whatever stands behind it. -/
theorem insertAll_append (h : ∀ i ∈ is, i.position ≤ Utf16.length text)
    (his : ∀ i ∈ is, ∃ marks, i.units = encode marks) (us : List UInt16) :
    insertAll (encode text ++ us) is = insertAll (encode text) is ++ us := by
  induction is with
  | nil => rfl
  | cons i is ih =>
    have hrest : ∀ j ∈ is, ∃ marks, j.units = encode marks := fun j hj =>
      his j (List.mem_cons_of_mem i hj)
    -- The text has only grown, so the position is still one of it.
    obtain ⟨made, hmade, hsub, -⟩ := exists_insertAll text hrest
    have hle : i.position ≤ Utf16.length made :=
      Nat.le_trans (h i List.mem_cons_self) (Utf16.length_le_of_sublist hsub)
    calc insertAll (encode text ++ us) (i :: is)
        = insertInto (insertAll (encode text ++ us) is) i := rfl
      _ = insertInto (encode made ++ us) i := by
          rw [ih (fun j hj => h j (List.mem_cons_of_mem i hj)) hrest, hmade]
      _ = insertInto (insertAll (encode text) is) i ++ us := by
          rw [insertInto_append_of_ge made us hle, hmade]

/-- Sorted insertions are those before a position and those at it or behind it. -/
theorem filter_append_filter (hsorted : is.Pairwise fun i j => i.position ≤ j.position) (n : Nat) :
    is.filter (·.position < n) ++ is.filter (n ≤ ·.position) = is := by
  induction is with
  | nil => rfl
  | cons i is ih =>
    obtain ⟨hfirst, hrest⟩ := List.pairwise_cons.mp hsorted
    rw [List.filter_cons, List.filter_cons]
    by_cases hi : i.position < n
    · rw [if_pos (decide_eq_true hi), if_neg (by simpa using hi), List.cons_append, ih hrest]
    · -- The others are not before the position either.
      have hnone : is.filter (·.position < n) = [] := by
        rw [List.filter_eq_nil_iff]
        intro j hj
        have := hfirst j hj
        rw [decide_eq_true_eq]
        omega
      have hall := ih hrest
      rw [hnone, List.nil_append] at hall
      rw [if_neg (by simpa using hi), if_pos (decide_eq_true (by omega)), hnone, List.nil_append,
        hall]

/-- Sorted insertions of characters are made in the text, as far as they are meant for positions
before its end, and the others by themselves behind it. -/
theorem insertAll_eq_append (hsorted : is.Pairwise fun i j => i.position ≤ j.position)
    (his : ∀ i ∈ is, ∃ marks, i.units = encode marks) :
    insertAll (encode text) is =
      insertAll (encode text) (is.filter (·.position < Utf16.length text)) ++
        insertAll [] ((is.filter (Utf16.length text ≤ ·.position)).map
          (behind (Utf16.length text))) := by
  have hbefore : ∀ i ∈ is.filter (·.position < Utf16.length text),
      i.position ≤ Utf16.length text ∧ ∃ marks, i.units = encode marks := by
    intro i hi
    obtain ⟨hmem, hlt⟩ := List.mem_filter.mp hi
    exact ⟨Nat.le_of_lt (decide_eq_true_eq.mp hlt), his i hmem⟩
  have hbehind : ∀ i ∈ is.filter (Utf16.length text ≤ ·.position),
      Utf16.length text ≤ i.position := fun i hi =>
    decide_eq_true_eq.mp (List.mem_filter.mp hi).2
  calc insertAll (encode text) is
      = insertAll (insertAll (encode text) (is.filter (Utf16.length text ≤ ·.position)))
          (is.filter (·.position < Utf16.length text)) := by
        unfold insertAll
        rw [← List.foldr_append, filter_append_filter hsorted]
    _ = _ := by
        rw [insertAll_of_le hbehind, insertAll_append (fun i hi => (hbefore i hi).1)
          fun i hi => (hbefore i hi).2]

/-- Insertions at the start of an empty text stand one after the other, wherever the last of them is
meant for. -/
theorem insertAll_nil (h : is.Pairwise fun i _ => i.position = 0) :
    insertAll [] is = is.flatMap (·.units) := by
  induction is with
  | nil => rfl
  | cons i is ih =>
    obtain ⟨hfirst, hrest⟩ := List.pairwise_cons.mp h
    have hzero : settle (insertAll [] is) 0 = 0 := by
      rw [settle, dif_neg]
      rw [Utf16.splitsPair_zero]
      exact fun hs => Bool.false_ne_true hs.1
    -- The last one finds nothing it could go behind.
    have hposition : min i.position (insertAll [] is).length = 0 := by
      cases is with
      | nil => exact Nat.min_zero _
      | cons j is => rw [hfirst j List.mem_cons_self, Nat.zero_min]
    calc insertAll [] (i :: is)
        = insertInto (insertAll [] is) i := rfl
      _ = i.units ++ insertAll [] is := by
          unfold insertInto
          dsimp only
          rw [hposition, hzero, List.take_zero, List.drop_zero, List.nil_append]
      _ = (i :: is).flatMap (·.units) := by rw [ih hrest, List.flatMap_cons]

end Insertion

/-! ## Stopping at the end -/

namespace Insertion

/-- An insertion that is meant for the position `n` at most. -/
def clampTo (n : Nat) (i : Insertion) : Insertion :=
  { i with position := min i.position n }

/-- What is meant for a position before it stays as it is. -/
theorem filter_lt_map_clampTo (n : Nat) (is : List Insertion) :
    (is.map (clampTo n)).filter (·.position < n) = is.filter (·.position < n) := by
  have hlt (i : Insertion) : (i.clampTo n).position < n ↔ i.position < n := by
    show min i.position n < n ↔ _
    omega
  rw [List.filter_map]
  calc ((is.filter ((fun i => decide (i.position < n)) ∘ clampTo n)).map (clampTo n))
      = (is.filter (·.position < n)).map (clampTo n) := by
        congr 2
        funext i
        exact decide_eq_decide.mpr (hlt i)
    _ = is.filter (·.position < n) := by
        refine (List.map_congr_left fun i hi => ?_).trans (List.map_id _)
        have hi := decide_eq_true_eq.mp (List.mem_filter.mp hi).2
        unfold clampTo
        rw [Nat.min_eq_left (Nat.le_of_lt hi)]
        rfl

/-- What is meant for it or a position behind it is what has been. -/
theorem filter_le_map_clampTo (n : Nat) (is : List Insertion) :
    (is.map (clampTo n)).filter (n ≤ ·.position) =
      (is.filter (n ≤ ·.position)).map (clampTo n) := by
  have hle (i : Insertion) : n ≤ (i.clampTo n).position ↔ n ≤ i.position := by
    show n ≤ min i.position n ↔ _
    omega
  rw [List.filter_map]
  congr 2
  funext i
  exact decide_eq_decide.mpr (hle i)

/-- At one position insertions are in the order of their tags. -/
theorem mergeSort_map_clampTo {n : Nat} {is : List Insertion} (h : ∀ i ∈ is, n ≤ i.position) :
    (is.map (clampTo n)).mergeSort le =
      (is.mergeSort fun a b => a.tag ≤ b.tag).map (clampTo n) := by
  refine (List.map_mergeSort fun i hi j hj => ?_).symm
  have hi := h i hi
  have hj := h j hj
  rw [Bool.eq_iff_iff, decide_eq_true_eq, le_iff]
  show _ ↔ min i.position n < min j.position n ∨
    min i.position n = min j.position n ∧ i.tag ≤ j.tag
  omega

/-- Insertions with different tags are in the order of their tags if all that are meant for a
position behind `n` have the greatest one; so that is the last of them, if there is any. -/
theorem mergeSort_eq_of_tag {n : Nat} {t : Int} {is : List Insertion}
    (hdistinct : (is.map (·.tag)).Nodup)
    (h : ∀ i ∈ is, n ≤ i.position ∧ i.tag ≤ t ∧ (i.position = n ∨ i.tag = t)) :
    is.mergeSort le = is.mergeSort (fun a b => a.tag ≤ b.tag) ∧
      (is.mergeSort le).Pairwise fun i _ => i.position = n := by
  have hperm := List.mergeSort_perm is le
  have hsorted : (is.mergeSort le).Pairwise fun i j => i.position = n ∧ i.tag ≤ j.tag := by
    have hne := hperm.symm.pairwise (List.pairwise_map.mp hdistinct) Ne.symm
    refine ((pairwise_mergeSort is).and hne).imp_of_mem fun {i j} hi hj hij => ?_
    have hi := h i (List.mem_mergeSort.mp hi)
    have hj := h j (List.mem_mergeSort.mp hj)
    obtain ⟨hle, hne⟩ := hij
    rw [le_iff] at hle
    omega
  refine ⟨?_, hsorted.imp And.left⟩
  refine List.Perm.eq_of_pairwise (fun i j hi hj hij hji => ?_)
    (hsorted.imp fun h => decide_eq_true h.2)
    (List.pairwise_mergeSort (fun a b c hab hbc => ?_) (fun a b => ?_) is)
    (hperm.trans (List.mergeSort_perm is _).symm)
  · rw [decide_eq_true_eq] at hij hji
    exact List.inj_on_of_nodup_map hdistinct (List.mem_mergeSort.mp hi) (List.mem_mergeSort.mp hj)
      (Int.le_antisymm hij hji)
  · rw [decide_eq_true_eq] at hab hbc ⊢
    exact Int.le_trans hab hbc
  · rw [Bool.or_eq_true, decide_eq_true_eq, decide_eq_true_eq]
    exact Int.le_total _ _

end Insertion

namespace Entity

variable {table : Delimiters} {limit index : Nat} {e : Entity}

variable (table limit index) in
/-- An entity that starts before a position is closed there or behind it, or has no insertion
there. -/
theorem filter_insertions_sublist {n : Nat} (h : e.offset < n) :
    ∃ units, ((e.insertions table limit index).filter (n ≤ ·.position)).Sublist
      [⟨e.stopWithin limit, -index, units⟩] := by
  unfold insertions
  split
  · rename_i before after _
    refine ⟨Utf16.ofText after, ?_⟩
    rw [List.filter_cons_of_neg (by simpa using h)]
    exact List.filter_sublist
  · exact ⟨[], List.nil_sublist _⟩

/-- An entity from and to the position `n` at most. -/
def clampTo (n : Nat) (e : Entity) : Entity :=
  { e with offset := min e.offset n, length := e.stopWithin n - min e.offset n }

/-- It stops where the entity does, or at that position. -/
theorem stop_clampTo (n : Nat) : (e.clampTo n).stop = e.stopWithin n := by
  have hle : min e.offset n ≤ e.stopWithin n := by
    unfold stopWithin stop
    omega
  exact Nat.add_sub_cancel' hle

/-- Its insertions are meant for that position at most. -/
theorem insertions_clampTo (n : Nat) :
    (e.clampTo n).insertions table limit index =
      (e.insertions table limit index).map (Insertion.clampTo n) := by
  have hstop : (e.clampTo n).stopWithin limit = min (e.stopWithin limit) n := by
    unfold stopWithin
    rw [stop_clampTo]
    exact Nat.min_right_comm ..
  have hkind : (e.clampTo n).kind = e.kind := rfl
  unfold insertions
  rw [hstop, hkind]
  cases table.around? e.kind with
  | none => rfl
  | some around => rfl

end Entity

/-- A message whose entities stop at the end of its text. -/
def Message.clamped (m : Message) : Message :=
  { m with entities := m.entities.map (Entity.clampTo (Utf16.length m.text.toList)) }

/-- The insertions of a message that are meant for the end of its text or a position behind it. -/
def Format.atEnd (f : Format) (m : Message) : List Insertion :=
  (f.listed m).filter (Utf16.length m.text.toList ≤ ·.position)

namespace Format

variable (f : Format) (m : Message)

/-- Whether a message is its own markup does not depend on where its entities stop. -/
theorem isPlain_clamped :
    (m.clamped.text.isEmpty || m.clamped.entities.isEmpty || f.table.isEmpty) =
      (m.text.isEmpty || m.entities.isEmpty || f.table.isEmpty) := by
  unfold Message.clamped
  rw [List.isEmpty_map]

/-- So stopping at the end changes nothing then. -/
theorem unparse_clamped_of_isPlain
    (h : (m.text.isEmpty || m.entities.isEmpty || f.table.isEmpty) = true) :
    f.unparse m = f.unparse m.clamped := by
  rw [← Utf16.toText_ofText (f.unparse m), ← Utf16.toText_ofText (f.unparse m.clamped),
    f.ofText_unparse, f.ofText_unparse, if_pos h, if_pos ((f.isPlain_clamped m).trans h)]
  rfl

/-- If the entities stop at the end, so do their insertions. -/
theorem listed_clamped :
    f.listed m.clamped =
      (f.listed m).map (Insertion.clampTo (Utf16.length m.text.toList)) := by
  unfold listed Message.clamped
  rw [List.zipIdx_map, List.flatMap_map, List.map_flatMap]
  exact List.flatMap_congr fun x _ => Entity.insertions_clampTo _

/-- What is written is the text with the insertions before its end made, and behind it the others by
themselves. -/
theorem ofText_unparse_eq_append
    (hmarkup : (m.text.isEmpty || m.entities.isEmpty || f.table.isEmpty) = false) :
    Utf16.ofText (f.unparse m) =
      Insertion.insertAll (Utf16.ofText m.text)
          (((f.listed m).filter (·.position < Utf16.length m.text.toList)).mergeSort
            Insertion.le) ++
        Insertion.insertAll []
          (((f.atEnd m).mergeSort Insertion.le).map
            (Insertion.behind (Utf16.length m.text.toList))) := by
  have hfilter (p : Insertion → Bool) := StableSort.filter_mergeSort Insertion.le_trans
    Insertion.le_total p (f.listed m)
  rw [f.ofText_unparse, if_neg (Bool.eq_false_iff.mp hmarkup)]
  refine (Insertion.insertAll_eq_append ?_ fun i hi => exists_units_of_mem_insertionsOf hi).trans ?_
  · refine (Insertion.pairwise_mergeSort _).imp fun {i j} hle => ?_
    rw [Insertion.le_iff] at hle
    omega
  · unfold atEnd
    rw [← hfilter, ← hfilter]
    rfl

/-- If the entities stop at the end, what is written behind the text are the same insertions one
after the other, in the order of their tags. -/
theorem ofText_unparse_clamped
    (hmarkup : (m.text.isEmpty || m.entities.isEmpty || f.table.isEmpty) = false) :
    Utf16.ofText (f.unparse m.clamped) =
      Insertion.insertAll (Utf16.ofText m.text)
          (((f.listed m).filter (·.position < Utf16.length m.text.toList)).mergeSort
            Insertion.le) ++
        ((f.atEnd m).mergeSort fun a b => a.tag ≤ b.tag).flatMap (·.units) := by
  have hclamped := (f.isPlain_clamped m).trans hmarkup
  have hbehind : ∀ i ∈ f.atEnd m, Utf16.length m.text.toList ≤ i.position := fun i hi =>
    decide_eq_true_eq.mp (List.mem_filter.mp hi).2
  have hatEnd : f.atEnd m.clamped =
      (f.atEnd m).map (Insertion.clampTo (Utf16.length m.text.toList)) := by
    unfold atEnd
    rw [f.listed_clamped]
    exact Insertion.filter_le_map_clampTo ..
  -- All of them are meant for the end, so they stand there one after the other.
  have hzero : (((f.atEnd m).mergeSort fun a b => a.tag ≤ b.tag).map fun i =>
      (i.clampTo (Utf16.length m.text.toList)).behind (Utf16.length m.text.toList)).Pairwise
        fun i _ => i.position = 0 := by
    refine List.pairwise_of_forall_mem_list fun i hi _ _ => ?_
    obtain ⟨j, -, rfl⟩ := List.mem_map.mp hi
    show min j.position _ - _ = 0
    omega
  refine (f.ofText_unparse_eq_append m.clamped hclamped).trans ?_
  rw [hatEnd, f.listed_clamped]
  show Insertion.insertAll (Utf16.ofText m.text) ((((f.listed m).map (Insertion.clampTo
      (Utf16.length m.text.toList))).filter
        (·.position < Utf16.length m.text.toList)).mergeSort Insertion.le) ++ _ = _
  rw [Insertion.filter_lt_map_clampTo, Insertion.mergeSort_map_clampTo hbehind, List.map_map]
  refine congrArg _ ((Insertion.insertAll_nil hzero).trans ?_)
  rw [List.flatMap_map]
  rfl

section

variable {f m} {k : Nat}
  (h : ∀ j e, m.entities[j]? = some e → e.offset < Utf16.length m.text.toList ∧
    (j = k ∨ e.stop < Utf16.length m.text.toList ∨ e.stop = Utf16.length m.text.toList ∧ k < j))

include h in
/-- If all entities start before the end, what is there closes one of them each. -/
theorem nodup_tag_atEnd : ((f.atEnd m).map (·.tag)).Nodup := by
  have hcloses {x : Entity × Nat} (hx : x ∈ m.entities.zipIdx) :=
    Entity.filter_insertions_sublist f.table (Insertion.limit (Utf16.ofText m.text)) x.2
      (h x.2 x.1 (List.mk_mem_zipIdx_iff_getElem?.mp hx)).1
  unfold atEnd listed
  rw [List.filter_flatMap]
  refine List.pairwise_map.mpr (List.pairwise_flatMap.mpr ⟨fun x hx => ?_, ?_⟩)
  · obtain ⟨units, hsub⟩ := hcloses hx
    exact (List.pairwise_singleton _ _).sublist hsub
  · refine (pairwise_zipIdx_ne m.entities).imp_of_mem fun {x y} hx hy hne i hi j hj => ?_
    obtain ⟨us, hus⟩ := hcloses hx
    obtain ⟨vs, hvs⟩ := hcloses hy
    obtain rfl := List.mem_singleton.mp (hus.subset hi)
    obtain rfl := List.mem_singleton.mp (hvs.subset hj)
    show -(x.2 : Int) ≠ -(y.2 : Int)
    omega

include h in
/-- If only one entity reaches past the end, and none that stops at it is listed before that one,
then what closes that one has the greatest tag there. -/
theorem tag_le_of_mem_atEnd {i : Insertion} (hi : i ∈ f.atEnd m) :
    Utf16.length m.text.toList ≤ i.position ∧ i.tag ≤ -(k : Int) ∧
      (i.position = Utf16.length m.text.toList ∨ i.tag = -(k : Int)) := by
  obtain ⟨hmem, hle⟩ := List.mem_filter.mp hi
  obtain ⟨x, hx, hi⟩ := List.mem_flatMap.mp hmem
  have hx := h x.2 x.1 (List.mk_mem_zipIdx_iff_getElem?.mp hx)
  have hle := decide_eq_true_eq.mp hle
  have hwithin : x.1.stopWithin (Insertion.limit (Utf16.ofText m.text)) ≤ x.1.stop :=
    Nat.min_le_left ..
  rcases Entity.of_mem_insertions hi with ⟨hp, ht⟩ | ⟨hp, ht⟩ <;> omega

include h in
/-- So what is there is written in the order of the tags. -/
theorem insertAll_atEnd :
    Insertion.insertAll []
        (((f.atEnd m).mergeSort Insertion.le).map
          (Insertion.behind (Utf16.length m.text.toList))) =
      ((f.atEnd m).mergeSort fun a b => a.tag ≤ b.tag).flatMap (·.units) := by
  obtain ⟨hsame, hstart⟩ := Insertion.mergeSort_eq_of_tag (nodup_tag_atEnd h) fun i hi =>
    tag_le_of_mem_atEnd h hi
  rw [← hsame, Insertion.insertAll_nil, List.flatMap_map]
  · rfl
  · refine List.pairwise_map.mpr (hstart.imp fun {i _} hi => ?_)
    show i.position - _ = 0
    omega

end

end Format

/-- What is written for a message is what is written if its entities stop at the end of its text in
two cases only: the text is its own markup, or the insertions that are meant for the end or a
position behind it, made by themselves in the order of their positions, stand there one after the
other in the order of their tags. -/
theorem Format.unparse_clamped_iff (f : Format) (m : Message) :
    f.unparse m = f.unparse m.clamped ↔
      (m.text.isEmpty || m.entities.isEmpty || f.table.isEmpty) = true ∨
        Insertion.insertAll []
            (((f.atEnd m).mergeSort Insertion.le).map
              (Insertion.behind (Utf16.length m.text.toList))) =
          ((f.atEnd m).mergeSort fun a b => a.tag ≤ b.tag).flatMap (·.units) := by
  have hinjective : Function.Injective Utf16.ofText :=
    Function.LeftInverse.injective Utf16.toText_ofText
  rcases Bool.eq_false_or_eq_true (m.text.isEmpty || m.entities.isEmpty || f.table.isEmpty) with
    hplain | hmarkup
  · exact iff_of_true (f.unparse_clamped_of_isPlain m hplain) (Or.inl hplain)
  · rw [← hinjective.eq_iff, f.ofText_unparse_eq_append m hmarkup,
      f.ofText_unparse_clamped m hmarkup, List.append_cancel_left_eq, hmarkup]
    exact ⟨Or.inr, fun h => h.resolve_left Bool.false_ne_true⟩

/-- An entity that reaches past the end is written as if it stopped there, if no other does, all
start before the end, and none that stops there is listed before that one. -/
theorem Format.unparse_clamped (f : Format) (m : Message) {k : Nat}
    (h : ∀ j e, m.entities[j]? = some e → e.offset < Utf16.length m.text.toList ∧
      (j = k ∨ e.stop < Utf16.length m.text.toList ∨
        e.stop = Utf16.length m.text.toList ∧ k < j)) :
    f.unparse m = f.unparse m.clamped := by
  rcases Bool.eq_false_or_eq_true (m.text.isEmpty || m.entities.isEmpty || f.table.isEmpty) with
    hplain | hmarkup
  · exact f.unparse_clamped_of_isPlain m hplain
  · rw [← Utf16.toText_ofText (f.unparse m), f.ofText_unparse_eq_append m hmarkup,
      insertAll_atEnd h, ← f.ofText_unparse_clamped m hmarkup, Utf16.toText_ofText]

/-- Two entities that reach past the end. The first is closed inside the marker of the second. -/
theorem Format.unparse_clamped_ne :
    let f : Format := {}
    let m : Message := ⟨"ab", [⟨0, 3, .bold⟩, ⟨0, 4, .italic⟩]⟩
    m.clamped = ⟨"ab", [⟨0, 2, .bold⟩, ⟨0, 2, .italic⟩]⟩ ∧
      f.unparse m = "**__ab_**_" ∧ f.unparse m.clamped = "**__ab__**" := by
  intro f m
  have hclamped : m.clamped = ⟨"ab", [⟨0, 2, .bold⟩, ⟨0, 2, .italic⟩]⟩ := by decide
  have hsort : StableSort Insertion.le (f.listed m)
      [⟨0, 0, Utf16.ofText "**"⟩, ⟨0, 1, Utf16.ofText "__"⟩, ⟨3, 0, Utf16.ofText "**"⟩,
        ⟨4, -1, Utf16.ofText "__"⟩] :=
    StableSort.of_perm Insertion.le_trans (by decide +kernel) (by decide +kernel)
      (by decide +kernel)
  have hsortClamped : StableSort Insertion.le (f.listed ⟨"ab", [⟨0, 2, .bold⟩, ⟨0, 2, .italic⟩]⟩)
      [⟨0, 0, Utf16.ofText "**"⟩, ⟨0, 1, Utf16.ofText "__"⟩, ⟨2, -1, Utf16.ofText "__"⟩,
        ⟨2, 0, Utf16.ofText "**"⟩] :=
    StableSort.of_perm Insertion.le_trans (by decide +kernel) (by decide +kernel)
      (by decide +kernel)
  refine ⟨hclamped, ?_, ?_⟩
  · rw [Format.unparse_eq_of_stableSort (by decide) hsort]
    decide +kernel
  · rw [hclamped, Format.unparse_eq_of_stableSort (by decide) hsortClamped]
    decide +kernel

end MessageMarkup
