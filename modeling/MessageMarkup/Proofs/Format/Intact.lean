import Mathlib.Algebra.GroupWithZero.Nat
import MessageMarkup.Format
import MessageMarkup.Proofs.Utf16.WellFormed

/-!
# Writing markup leaves the text intact

Wherever an insertion is to go, it goes between two characters: a position behind the end is the
end, and one between the halves of a surrogate pair moves behind the pair
(`Insertion.isCut_settle`). So characters inserted into a text make a text, and it does not matter
that later insertions are made into markup that earlier ones have left. `Format.unparse_intact` says
what this comes to for a message with any entities: no unit is lost, the characters of the text stay
in their order, and what is added are the units that each entity has written around it.
-/

namespace MessageMarkup

open Utf16 (encode length)

/-! ## One insertion -/

namespace Insertion

/-- A position in a text settles between two characters. -/
theorem isCut_settle {text : List Char} {units : List UInt16} (hunits : units = encode text)
    {i : Nat} (hi : i ≤ units.length) : Utf16.IsCut text (settle units i) := by
  fun_induction settle units i with
  | case1 i h ih => exact ih (Nat.succ_le_of_lt h.2)
  | case2 i h =>
    -- The end of the text splits no pair either.
    have hsplit : Utf16.splitsPair units i = false := by
      rcases Nat.lt_or_eq_of_le hi with hlt | rfl
      · exact Bool.eq_false_iff.mpr fun hs => h ⟨hs, hlt⟩
      · exact Utf16.splitsPair_length units
    rw [hunits] at hsplit hi
    rw [Utf16.length_encode] at hi
    exact Utf16.isCut_of_not_splitsPair hsplit hi

/-- Characters are inserted into a text somewhere between its characters. -/
theorem exists_insertInto (text marks : List Char) {i : Insertion} (hi : i.units = encode marks) :
    ∃ before after, text = before ++ after ∧
      insertInto (encode text) i = encode (before ++ (marks ++ after)) := by
  have hcut := isCut_settle rfl (Nat.min_le_right i.position (encode text).length)
  obtain ⟨before, after, rfl, hbefore⟩ := hcut
  refine ⟨before, after, rfl, ?_⟩
  unfold insertInto
  dsimp only
  rw [← hbefore, ← Utf16.length_encode, Utf16.encode_append, List.take_left, List.drop_left, hi,
    List.append_assoc, Utf16.encode_append, Utf16.encode_append]

/-! ## All insertions -/

/-- Insertions of characters into a text make a text that has the characters of the first, in their
order, and as many units more as are inserted. -/
theorem exists_insertAll (text : List Char) {is : List Insertion}
    (his : ∀ i ∈ is, ∃ marks, i.units = encode marks) :
    ∃ made, insertAll (encode text) is = encode made ∧ text.Sublist made ∧
      length made = length text + (is.map fun i => i.units.length).sum := by
  induction is with
  | nil => exact ⟨text, rfl, List.Sublist.refl text, rfl⟩
  | cons i is ih =>
    obtain ⟨made, hmade, hsub, hlen⟩ := ih fun j hj => his j (List.mem_cons_of_mem i hj)
    obtain ⟨marks, hmarks⟩ := his i List.mem_cons_self
    obtain ⟨before, after, rfl, hinsert⟩ := exists_insertInto made marks hmarks
    refine ⟨before ++ (marks ++ after), ?_, ?_, ?_⟩
    · calc insertAll (encode text) (i :: is)
          = insertInto (insertAll (encode text) is) i := rfl
        _ = encode (before ++ (marks ++ after)) := by rw [hmade, hinsert]
    · exact hsub.trans ((List.sublist_append_right marks after).append_left before)
    · rw [List.map_cons, List.sum_cons, hmarks, Utf16.length_encode]
      simp only [Utf16.length_append] at hlen ⊢
      omega

end Insertion

/-! ## The insertions of entities -/

/-- The number of units that are written around an entity of a kind. -/
def Delimiters.markupWidth (table : Delimiters) (kind : Kind) : Nat :=
  match table.around? kind with
  | some (before, after) => length before.toList + length after.toList
  | none => 0

namespace Entity

variable {table : Delimiters} {limit index : Nat} {e : Entity}

/-- An insertion of an entity opens it where it starts or closes it where it stops. -/
theorem of_mem_insertions {i : Insertion} (h : i ∈ e.insertions table limit index) :
    i.position = e.offset ∧ i.tag = index ∨ i.position = e.stopWithin limit ∧ i.tag = -index := by
  unfold insertions at h
  split at h
  · rcases List.mem_pair.mp h with rfl | rfl
    · exact Or.inl ⟨rfl, rfl⟩
    · exact Or.inr ⟨rfl, rfl⟩
  · exact absurd h List.not_mem_nil

/-- What an entity inserts are texts. -/
theorem exists_units_of_mem_insertions {i : Insertion} (h : i ∈ e.insertions table limit index) :
    ∃ marks, i.units = encode marks := by
  unfold insertions at h
  split at h
  · rcases List.mem_pair.mp h with rfl | rfl <;> exact ⟨_, rfl⟩
  · exact absurd h List.not_mem_nil

/-- They have the units that are written around the entity. -/
theorem sum_insertions :
    ((e.insertions table limit index).map fun i => i.units.length).sum =
      table.markupWidth e.kind := by
  unfold insertions Delimiters.markupWidth
  cases table.around? e.kind with
  | none => rfl
  | some around => simp [Utf16.ofText]

end Entity

/-- No two entities of a list have one number. -/
theorem pairwise_zipIdx_ne (es : List Entity) : es.zipIdx.Pairwise fun x y => x.2 ≠ y.2 := by
  rw [← List.pairwise_map, List.zipIdx_map_snd]
  exact List.nodup_range'

/-- What the entities of a list insert are texts. -/
theorem exists_units_of_mem_insertionsOf {table : Delimiters} {limit : Nat} {es : List Entity}
    {i : Insertion} (h : i ∈ insertionsOf table limit es) : ∃ marks, i.units = encode marks := by
  obtain ⟨⟨e, index⟩, -, hi⟩ := List.mem_flatMap.mp (List.mem_mergeSort.mp h)
  exact Entity.exists_units_of_mem_insertions hi

/-- They have the units that are written around each of them. -/
theorem sum_insertionsOf (table : Delimiters) (limit : Nat) (es : List Entity) :
    ((insertionsOf table limit es).map fun i => i.units.length).sum =
      (es.map fun e => table.markupWidth e.kind).sum := by
  -- Sorting changes nothing, nor do the numbers of the entities.
  have hunsorted (k : Nat) :
      (((es.zipIdx k).flatMap fun x => x.1.insertions table limit x.2).map
        fun i => i.units.length).sum = (es.map fun e => table.markupWidth e.kind).sum := by
    induction es generalizing k with
    | nil => rfl
    | cons e es ih =>
      rw [List.zipIdx_cons, List.flatMap_cons, List.map_append, List.sum_append, ih,
        List.map_cons, List.sum_cons, Entity.sum_insertions]
  exact ((List.mergeSort_perm _ _).map _).sum_nat.trans (hunsorted 0)

/-! ## Messages -/

/-- The units of markup are those of the text with the insertions made, unless the text is its own
markup. -/
theorem Format.ofText_unparse (f : Format) (m : Message) :
    Utf16.ofText (f.unparse m) =
      if m.text.isEmpty || m.entities.isEmpty || f.table.isEmpty then Utf16.ofText m.text
      else
        Insertion.insertAll (Utf16.ofText m.text)
          (insertionsOf f.table (Insertion.limit (Utf16.ofText m.text)) m.entities) := by
  unfold Format.unparse Format.unparseNoting unparseWith
  split
  · rfl
  · -- What the insertions make is well-formed, so reading it loses nothing.
    obtain ⟨chars, hchars, -, -⟩ :=
      Insertion.exists_insertAll m.text.toList fun i hi => exists_units_of_mem_insertionsOf hi
    unfold Utf16.ofText Utf16.toText
    dsimp only
    rw [hchars, Utf16.decode_encode, String.toList_ofList]

/-- However the entities of a message lie, writing it damages nothing. After each of the insertions,
which are made from the last to the first, the units are well-formed; so they are those of the
markup, unless the text is its own markup. The markup has the characters of the text, in their
order, and as many units more as are written around the entities. -/
theorem Format.unparse_intact (f : Format) (m : Message) :
    let units := Utf16.ofText m.text
    let insertions := insertionsOf f.table (Insertion.limit units) m.entities
    let isPlain := m.text.isEmpty || m.entities.isEmpty || f.table.isEmpty
    (∀ made, made <:+ insertions → Utf16.WellFormed (Insertion.insertAll units made)) ∧
      Utf16.ofText (f.unparse m) =
        (if isPlain then units else Insertion.insertAll units insertions) ∧
      m.text.toList.Sublist (f.unparse m).toList ∧
      length (f.unparse m).toList = length m.text.toList +
        if isPlain then 0 else (m.entities.map fun e => f.table.markupWidth e.kind).sum := by
  intro units insertions isPlain
  have hmarks : ∀ i ∈ insertions, ∃ marks, i.units = encode marks := fun i hi =>
    exists_units_of_mem_insertionsOf hi
  refine ⟨fun made hmade => ?_, f.ofText_unparse m, ?_⟩
  · obtain ⟨chars, hchars, -, -⟩ :=
      Insertion.exists_insertAll m.text.toList fun i hi => hmarks i (hmade.subset hi)
    have hunits : Insertion.insertAll units made = encode chars := hchars
    rw [hunits]
    exact Utf16.wellFormed_encode chars
  have hunits : Utf16.ofText (f.unparse m) =
      if isPlain then units else Insertion.insertAll units insertions := f.ofText_unparse m
  split at hunits <;> rename_i hplain
  · have hlist : (f.unparse m).toList = m.text.toList := Utf16.encode_injective hunits
    rw [hlist, if_pos hplain]
    exact ⟨List.Sublist.refl _, rfl⟩
  · obtain ⟨chars, hchars, hsub, hlen⟩ := Insertion.exists_insertAll m.text.toList hmarks
    have hlist : (f.unparse m).toList = chars := Utf16.encode_injective (hunits.trans hchars)
    rw [hlist, if_neg hplain]
    refine ⟨hsub, ?_⟩
    rw [hlen, sum_insertionsOf]

end MessageMarkup
