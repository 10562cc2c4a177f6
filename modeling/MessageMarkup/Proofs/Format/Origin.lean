import MessageMarkup.Proofs.Format.Merge

/-!
# Where the units of markup come from

Insertions can be made into a text each of whose units remembers its `Origin`: the text, or what an
entity with a number has written at one end. What is remembered decides nothing, so without it the
units are the markup (`Insertion.map_fst_traceAll`). If all insertions are meant for positions of
the text, what is inserted stands in the order in which the insertions were sorted
(`Insertion.filter_traceAll`).

`Format.unparse_opens_first` says what this means for the two ends of an entity. An entity that
covers something opens before it closes. An empty one has both at one position, where what closes
comes before what opens; only the entity with the number 0 has the same tag for both, and opens
first.
-/

namespace MessageMarkup

open Utf16 (encode)

/-- What a unit of markup belongs to. -/
inductive Origin where
  /-- The text. -/
  | text
  /-- What is written before the span of the entity with this number. -/
  | opening (number : Nat)
  /-- What is written behind it. -/
  | closing (number : Nat)
  deriving DecidableEq, Repr, Inhabited

namespace Origin

/-- The number of the entity that something has been written for. -/
def number? : Origin → Option Nat
  | text => none
  | opening number | closing number => some number

/-- Units of one origin. -/
def label (o : Origin) (units : List UInt16) : List (UInt16 × Origin) :=
  units.map (·, o)

variable {o : Origin}

@[simp] theorem map_fst_label (units : List UInt16) : (o.label units).map Prod.fst = units := by
  unfold label
  rw [List.map_map]
  exact List.map_id units

@[simp] theorem length_label (units : List UInt16) : (o.label units).length = units.length :=
  List.length_map ..

@[simp] theorem label_append (us vs : List UInt16) :
    o.label (us ++ vs) = o.label us ++ o.label vs :=
  List.map_append

/-- All of them are looked for or none. -/
theorem filter_label (p : Origin → Bool) (units : List UInt16) :
    (o.label units).filter (p ·.2) = if p o then o.label units else [] := by
  have hsnd : ∀ u ∈ o.label units, u.2 = o := by
    intro u hu
    obtain ⟨unit, -, rfl⟩ := List.mem_map.mp hu
    rfl
  split
  · rename_i ho
    exact List.filter_eq_self.mpr fun u hu => by rw [hsnd u hu, ho]
  · rename_i ho
    exact List.filter_eq_nil_iff.mpr fun u hu => by rw [hsnd u hu]; exact ho

end Origin

namespace Insertion

/-! ## Inserting with origins -/

/-- Units with an insertion of some origin made, as `insertInto` makes it. -/
def traceInto (units : List (UInt16 × Origin)) (i : Insertion × Origin) :
    List (UInt16 × Origin) :=
  let position := settle (units.map Prod.fst) (min i.1.position units.length)
  units.take position ++ i.2.label i.1.units ++ units.drop position

/-- Units with insertions made, as `insertAll` makes them. -/
def traceAll (units : List (UInt16 × Origin)) (insertions : List (Insertion × Origin)) :
    List (UInt16 × Origin) :=
  insertions.foldr (fun i units => traceInto units i) units

/-- Without origins an insertion is made all the same. -/
theorem map_fst_traceInto (units : List (UInt16 × Origin)) (i : Insertion × Origin) :
    (traceInto units i).map Prod.fst = insertInto (units.map Prod.fst) i.1 := by
  unfold traceInto insertInto
  simp only [List.map_append, List.map_take, List.map_drop, Origin.map_fst_label, List.length_map]

/-- So are all of them. -/
theorem map_fst_traceAll (units : List (UInt16 × Origin)) (is : List (Insertion × Origin)) :
    (traceAll units is).map Prod.fst = insertAll (units.map Prod.fst) (is.map Prod.fst) := by
  induction is with
  | nil => rfl
  | cons i is ih =>
    calc (traceAll units (i :: is)).map Prod.fst
        = insertInto ((traceAll units is).map Prod.fst) i.1 := map_fst_traceInto _ i
      _ = insertInto (insertAll (units.map Prod.fst) (is.map Prod.fst)) i.1 := by rw [ih]

/-- An insertion goes where its position is reached. -/
theorem traceInto_of_reaches {xs : List Char} {i : Insertion × Origin}
    (h : Reaches xs i.1.position) (us : List (UInt16 × Origin)) :
    traceInto (Origin.text.label (encode xs) ++ us) i =
      Origin.text.label (encode xs) ++ (i.2.label i.1.units ++ us) := by
  have hlength : (Origin.text.label (encode xs)).length = Utf16.length xs := by
    rw [Origin.length_label, Utf16.length_encode]
  have hle : i.1.position ≤ (Origin.text.label (encode xs) ++ us).length := by
    rw [List.length_append, hlength]
    exact Nat.le_trans h.1 (Nat.le_add_right _ _)
  unfold traceInto
  dsimp only
  rw [Nat.min_eq_left hle, List.map_append, Origin.map_fst_label, settle_of_reaches h, ← hlength,
    List.take_left, List.drop_left, List.append_assoc]

variable {text : List Char} {i : Insertion × Origin} {is : List (Insertion × Origin)}

/-- Before the positions of all insertions that have been made there is only text. -/
theorem exists_traceAll (hsorted : is.Pairwise fun i j => i.1.position ≤ j.1.position)
    (hle : ∀ i ∈ is, i.1.position ≤ Utf16.length text) {p : Nat} (hp : p ≤ Utf16.length text)
    (hbefore : ∀ i ∈ is, p ≤ i.1.position) :
    ∃ xs us, Reaches xs p ∧
      traceAll (Origin.text.label (encode text)) is = Origin.text.label (encode xs) ++ us := by
  induction is generalizing p with
  | nil =>
    obtain ⟨xs, ys, rfl, hreach⟩ := exists_reaches hp
    refine ⟨xs, Origin.text.label (encode ys), hreach, ?_⟩
    rw [← Origin.label_append, ← Utf16.encode_append]
    rfl
  | cons i is ih =>
    obtain ⟨hfirst, hrest⟩ := List.pairwise_cons.mp hsorted
    obtain ⟨xs, us, hreach, hmade⟩ := ih hrest (fun j hj => hle j (List.mem_cons_of_mem i hj))
      (hle i List.mem_cons_self) hfirst
    -- The insertion is made where its position is reached, which is not before `p` is.
    obtain ⟨xs', ys, rfl, hreach'⟩ :=
      exists_reaches (Nat.le_trans (hbefore i List.mem_cons_self) hreach.1)
    refine ⟨xs', Origin.text.label (encode ys) ++ (i.2.label i.1.units ++ us), hreach', ?_⟩
    calc traceAll (Origin.text.label (encode text)) (i :: is)
        = traceInto (traceAll (Origin.text.label (encode text)) is) i := rfl
      _ = Origin.text.label (encode (xs' ++ ys)) ++ (i.2.label i.1.units ++ us) := by
          rw [hmade, traceInto_of_reaches hreach]
      _ = Origin.text.label (encode xs') ++
            (Origin.text.label (encode ys) ++ (i.2.label i.1.units ++ us)) := by
          rw [Utf16.encode_append, Origin.label_append, List.append_assoc]

/-- The first insertion is made behind some of the text and before all else. -/
theorem exists_traceAll_cons
    (hsorted : (i :: is).Pairwise fun i j => i.1.position ≤ j.1.position)
    (hle : ∀ j ∈ i :: is, j.1.position ≤ Utf16.length text) :
    ∃ us vs, traceAll (Origin.text.label (encode text)) is = Origin.text.label us ++ vs ∧
      traceAll (Origin.text.label (encode text)) (i :: is) =
        Origin.text.label us ++ (i.2.label i.1.units ++ vs) := by
  obtain ⟨hfirst, hrest⟩ := List.pairwise_cons.mp hsorted
  obtain ⟨xs, us, hreach, hmade⟩ := exists_traceAll hrest
    (fun j hj => hle j (List.mem_cons_of_mem i hj)) (hle i List.mem_cons_self) hfirst
  refine ⟨encode xs, us, hmade, ?_⟩
  rw [← traceInto_of_reaches hreach, ← hmade]
  rfl

/-- Whatever is looked for, but the text, is found in the order in which the insertions are
sorted. -/
theorem filter_traceAll (hsorted : is.Pairwise fun i j => i.1.position ≤ j.1.position)
    (hle : ∀ i ∈ is, i.1.position ≤ Utf16.length text) {p : Origin → Bool} (hp : p .text = false) :
    (traceAll (Origin.text.label (encode text)) is).filter (p ·.2) =
      (is.filter (p ·.2)).flatMap fun i => i.2.label i.1.units := by
  induction is with
  | nil =>
    show (Origin.text.label (encode text)).filter (p ·.2) = []
    rw [Origin.filter_label, hp, if_neg Bool.false_ne_true]
  | cons i is ih =>
    have hrest := ih (List.pairwise_cons.mp hsorted).2 fun j hj => hle j (List.mem_cons_of_mem i hj)
    obtain ⟨us, vs, hmade, hnext⟩ := exists_traceAll_cons hsorted hle
    rw [hmade, List.filter_append, Origin.filter_label, hp, if_neg Bool.false_ne_true,
      List.nil_append] at hrest
    rw [hnext, List.filter_append, List.filter_append, Origin.filter_label, Origin.filter_label, hp,
      if_neg Bool.false_ne_true, List.nil_append, hrest, List.filter_cons]
    split <;> rfl

/-- The text is still there. -/
theorem filter_text_traceAll (hsorted : is.Pairwise fun i j => i.1.position ≤ j.1.position)
    (hle : ∀ i ∈ is, i.1.position ≤ Utf16.length text) (hmarks : ∀ i ∈ is, i.2 ≠ .text) :
    (traceAll (Origin.text.label (encode text)) is).filter (·.2 = .text) =
      Origin.text.label (encode text) := by
  induction is with
  | nil => exact (Origin.filter_label (· = .text) (encode text)).trans (if_pos rfl)
  | cons i is ih =>
    have hrest := ih (List.pairwise_cons.mp hsorted).2
      (fun j hj => hle j (List.mem_cons_of_mem i hj))
      fun j hj => hmarks j (List.mem_cons_of_mem i hj)
    obtain ⟨us, vs, hmade, hnext⟩ := exists_traceAll_cons hsorted hle
    have hown : (i.2.label i.1.units).filter (·.2 = .text) = [] :=
      (Origin.filter_label (· = .text) i.1.units).trans
        (if_neg (by simpa using hmarks i List.mem_cons_self))
    rw [hmade, List.filter_append] at hrest
    rw [hnext, List.filter_append, List.filter_append, hown, List.nil_append, hrest]

end Insertion

/-! ## The insertions of a message -/

section

variable {table : Delimiters} {limit : Nat} {es : List Entity} {e : Entity}

/-- The insertions of one entity of a list, with their origins. -/
def Entity.traced (table : Delimiters) (limit : Nat) (e : Entity) (index : Nat) :
    List (Insertion × Origin) :=
  (e.insertions table limit index).zip [.opening index, .closing index]

/-- What an entity that is written with `before` is opened with. -/
def Entity.opens (before : String) (e : Entity) (index : Nat) : Insertion × Origin :=
  (⟨e.offset, index, Utf16.ofText before⟩, .opening index)

/-- What an entity that is written with `after` is closed with. -/
def Entity.closes (limit : Nat) (after : String) (e : Entity) (index : Nat) : Insertion × Origin :=
  (⟨e.stopWithin limit, -index, Utf16.ofText after⟩, .closing index)

/-- An entity is opened and closed. -/
theorem Entity.traced_eq {before after : String} (h : table.around? e.kind = some (before, after))
    (index : Nat) :
    e.traced table limit index = [e.opens before index, e.closes limit after index] := by
  unfold traced insertions
  rw [h]
  rfl

/-- Without origins they are its insertions. -/
theorem Entity.map_fst_traced (index : Nat) :
    (e.traced table limit index).map Prod.fst = e.insertions table limit index := by
  unfold traced insertions
  cases table.around? e.kind with
  | none => rfl
  | some around => rfl

/-- Their origins have its number. -/
theorem Entity.number?_of_mem_traced {index : Nat} {i : Insertion × Origin}
    (h : i ∈ e.traced table limit index) : i.2.number? = some index := by
  have hmem : i.2 ∈ [Origin.opening index, Origin.closing index] := (List.of_mem_zip h).2
  rcases List.mem_pair.mp hmem with h | h <;> rw [h] <;> rfl

/-- All of them have the number that is looked for or none. -/
theorem Entity.filter_traced (index k : Nat) :
    (e.traced table limit index).filter (·.2.number? = some k) =
      if index = k then e.traced table limit index else [] := by
  split
  · rename_i hk
    exact List.filter_eq_self.mpr fun i hi => decide_eq_true (hk ▸ number?_of_mem_traced hi)
  · rename_i hk
    refine List.filter_eq_nil_iff.mpr fun i hi => ?_
    rw [number?_of_mem_traced hi, decide_eq_true_eq, Option.some_inj]
    exact hk

variable (table limit) in
/-- Among the insertions of entities that are numbered from `j` on, those of one of them. -/
theorem filter_flatMap_traced {k : Nat} (he : es[k]? = some e) (j : Nat) :
    ((es.zipIdx j).flatMap fun x => x.1.traced table limit x.2).filter
      (·.2.number? = some (j + k)) = e.traced table limit (j + k) := by
  induction es generalizing j k with
  | nil => exact absurd he (by simp)
  | cons e' es ih =>
    rw [List.zipIdx_cons, List.flatMap_cons, List.filter_append, Entity.filter_traced]
    cases k with
    | zero =>
      obtain rfl : e' = e := by simpa using he
      -- The others have greater numbers.
      have hrest : ((es.zipIdx (j + 1)).flatMap fun x => x.1.traced table limit x.2).filter
          (·.2.number? = some (j + 0)) = [] := by
        rw [List.filter_flatMap, List.flatMap_eq_nil_iff]
        rintro ⟨x, n⟩ hx
        have hn := (List.mem_zipIdx hx).1
        rw [Entity.filter_traced, if_neg (by dsimp only; omega)]
      rw [hrest, if_pos (Nat.add_zero j).symm, List.append_nil]
      rfl
    | succ k =>
      have hrest := ih (by simpa using he) (j + 1)
      rw [Nat.add_right_comm, Nat.add_assoc] at hrest
      rw [hrest, if_neg (by omega), List.nil_append]

/-- The insertions of a list of entities, with their origins, as they stand in the text. -/
def tracedInsertions (table : Delimiters) (limit : Nat) (es : List Entity) :
    List (Insertion × Origin) :=
  (es.zipIdx.flatMap fun x => x.1.traced table limit x.2).mergeSort fun a b => a.1.le b.1

/-- Without origins they are sorted in the same way. -/
theorem map_fst_tracedInsertions :
    (tracedInsertions table limit es).map Prod.fst = insertionsOf table limit es := by
  unfold tracedInsertions insertionsOf
  rw [List.map_mergeSort (s := Insertion.le) fun _ _ _ _ => rfl, List.map_flatMap]
  simp only [Entity.map_fst_traced]

/-- None of them is the text. -/
theorem ne_text_of_mem_tracedInsertions {i : Insertion × Origin}
    (h : i ∈ tracedInsertions table limit es) : i.2 ≠ .text := by
  obtain ⟨⟨e, k⟩, -, hi⟩ := List.mem_flatMap.mp (List.mem_mergeSort.mp h)
  intro htext
  have hnumber := Entity.number?_of_mem_traced hi
  rw [htext] at hnumber
  exact Option.some_ne_none k hnumber.symm

variable (table limit es) in
/-- They are in order. -/
theorem pairwise_tracedInsertions :
    (tracedInsertions table limit es).Pairwise fun a b => a.1.le b.1 = true :=
  List.pairwise_mergeSort (fun a b c => Insertion.le_trans a.1 b.1 c.1)
    (fun a b => Insertion.le_total a.1 b.1) _

/-- An entity is opened before it is closed, unless both are at one position and have different
tags. -/
theorem filter_tracedInsertions {k : Nat} {before after : String} (he : es[k]? = some e)
    (haround : table.around? e.kind = some (before, after)) (hle : e.offset ≤ e.stopWithin limit) :
    (tracedInsertions table limit es).filter (·.2.number? = some k) =
      if e.offset < e.stopWithin limit ∨ k = 0 then
        [e.opens before k, e.closes limit after k]
      else [e.closes limit after k, e.opens before k] := by
  have hunsorted := filter_flatMap_traced table limit he 0
  rw [Nat.zero_add, Entity.traced_eq haround] at hunsorted
  have hperm := (List.mergeSort_perm (es.zipIdx.flatMap fun x => x.1.traced table limit x.2)
    fun a b => a.1.le b.1).filter (·.2.number? = some k)
  rw [hunsorted] at hperm
  have hsorted := (pairwise_tracedInsertions table limit es).filter (·.2.number? = some k)
  have hopens : (e.opens before k).1.le (e.closes limit after k).1 = true ↔
      e.offset < e.stopWithin limit ∨ k = 0 := by
    rw [Insertion.le_iff]
    show e.offset < e.stopWithin limit ∨ e.offset = e.stopWithin limit ∧ (k : Int) ≤ -k ↔ _
    omega
  split
  · -- They are in order before they are sorted.
    rename_i hfirst
    have hpair : ((es.zipIdx.flatMap fun x => x.1.traced table limit x.2).filter
        (·.2.number? = some k)).Pairwise fun a b => a.1.le b.1 = true := by
      rw [hunsorted, List.pairwise_pair]
      exact hopens.mpr hfirst
    rw [← hunsorted]
    exact StableSort.filter_mergeSort_of_pairwise
      (fun a b c => Insertion.le_trans a.1 b.1 c.1) (fun a b => Insertion.le_total a.1 b.1) hpair
  · -- They are in one order only, which is the other.
    rename_i hlast
    have hnot : ¬ (e.opens before k).1.le (e.closes limit after k).1 = true :=
      fun h => hlast (hopens.mp h)
    have hcloses : (e.closes limit after k).1.le (e.opens before k).1 = true := by
      have htotal := Insertion.le_total (e.opens before k).1 (e.closes limit after k).1
      rw [Bool.or_eq_true] at htotal
      exact htotal.resolve_left hnot
    refine List.Perm.eq_of_pairwise (fun a b ha hb hab hba => ?_) hsorted
      (List.pairwise_pair.mpr hcloses) (hperm.trans (List.Perm.swap _ _ _))
    rcases List.mem_pair.mp (hperm.subset ha) with rfl | rfl <;>
      rcases List.mem_pair.mp hb with rfl | rfl
    · exact absurd hab hnot
    · rfl
    · rfl
    · exact absurd hba hnot

end

/-! ## Messages -/

/-- The markup of a message, each unit with its origin. -/
def Format.traced (f : Format) (m : Message) : List (UInt16 × Origin) :=
  let units := Utf16.ofText m.text
  if m.text.isEmpty || m.entities.isEmpty || f.table.isEmpty then Origin.text.label units
  else
    Insertion.traceAll (Origin.text.label units)
      (tracedInsertions f.table (Insertion.limit units) m.entities)

/-- Without origins it is the markup. -/
theorem Format.map_fst_traced (f : Format) (m : Message) :
    (f.traced m).map Prod.fst = Utf16.ofText (f.unparse m) := by
  rw [f.ofText_unparse m]
  unfold traced
  dsimp only
  split
  · rw [Origin.map_fst_label]
  · rw [Insertion.map_fst_traceAll, Origin.map_fst_label, map_fst_tracedInsertions]

section

variable {f : Format} {m : Message}

/-- A message whose entities lie within its text has its insertions made at positions of it, in
order. -/
theorem Format.inRange_tracedInsertions
    (h : ∀ e ∈ m.entities, e.stop ≤ Utf16.length m.text.toList) (limit : Nat) :
    (tracedInsertions f.table limit m.entities).Pairwise
        (fun i j => i.1.position ≤ j.1.position) ∧
      ∀ i ∈ tracedInsertions f.table limit m.entities,
        i.1.position ≤ Utf16.length m.text.toList := by
  refine ⟨(pairwise_tracedInsertions ..).imp fun {i j} hle => ?_, fun i hi => ?_⟩
  · rw [Insertion.le_iff] at hle
    omega
  · obtain ⟨⟨e, k⟩, he, hi⟩ := List.mem_flatMap.mp (List.mem_mergeSort.mp hi)
    have hstop := h e ((List.mem_zipIdx' he).2 ▸ List.getElem_mem _)
    have hmem : i.1 ∈ e.insertions f.table limit k := by
      rw [← Entity.map_fst_traced]
      exact List.mem_map_of_mem hi
    have hoffset : e.offset ≤ e.stop := Nat.le_add_right _ _
    have hwithin : e.stopWithin limit ≤ e.stop := Nat.min_le_left _ _
    rcases Entity.of_mem_insertions hmem with ⟨hp, -⟩ | ⟨hp, -⟩ <;> omega

/-- What is written for an entity in range stands before and behind its span, the opening first if
the entity covers something or has the number 0. -/
theorem Format.filter_traced
    (hmarkup : (m.text.isEmpty || m.entities.isEmpty || f.table.isEmpty) = false)
    (h : ∀ e ∈ m.entities, e.stop ≤ Utf16.length m.text.toList) {k : Nat} {e : Entity}
    {before after : String} (he : m.entities[k]? = some e)
    (haround : f.table.around? e.kind = some (before, after)) :
    (f.traced m).filter (·.2.number? = some k) =
      if 0 < e.length ∨ k = 0 then
        (Origin.opening k).label (Utf16.ofText before) ++
          (Origin.closing k).label (Utf16.ofText after)
      else
        (Origin.closing k).label (Utf16.ofText after) ++
          (Origin.opening k).label (Utf16.ofText before) := by
  have hlimit : e.stop ≤ Insertion.limit (Utf16.ofText m.text) := by
    have hstop := h e (List.mem_of_getElem? he)
    unfold Insertion.limit Utf16.ofText
    rw [Utf16.length_encode]
    omega
  have hwithin : e.stopWithin (Insertion.limit (Utf16.ofText m.text)) = e.offset + e.length :=
    Nat.min_eq_left hlimit
  have hle : e.offset ≤ e.stopWithin (Insertion.limit (Utf16.ofText m.text)) := by omega
  obtain ⟨hsorted, hrange⟩ := inRange_tracedInsertions h (Insertion.limit (Utf16.ofText m.text))
  have hcovers : e.offset < e.stopWithin (Insertion.limit (Utf16.ofText m.text)) ∨ k = 0 ↔
      0 < e.length ∨ k = 0 := by omega
  unfold traced
  rw [if_neg (Bool.eq_false_iff.mp hmarkup)]
  refine (Insertion.filter_traceAll hsorted hrange (p := (·.number? = some k)) rfl).trans ?_
  rw [filter_tracedInsertions he haround hle]
  simp only [hcovers]
  split <;> simp [Entity.opens, Entity.closes]

end

/-- The text stays where it is in the markup of a message whose entities lie within it, and what is
written for one of them stands before and behind its span. The opening comes first if the entity
covers something or has the number 0, and the closing comes first if it is empty and has another
number. -/
theorem Format.unparse_opens_first (f : Format) (m : Message) (htable : f.table.isEmpty = false)
    (htext : m.text ≠ "") (h : ∀ e ∈ m.entities, e.stop ≤ Utf16.length m.text.toList) :
    (f.traced m).map Prod.fst = Utf16.ofText (f.unparse m) ∧
      (f.traced m).filter (·.2 = .text) = Origin.text.label (Utf16.ofText m.text) ∧
      ∀ k e before after, m.entities[k]? = some e →
        f.table.around? e.kind = some (before, after) →
          (f.traced m).filter (·.2.number? = some k) =
            if 0 < e.length ∨ k = 0 then
              (Origin.opening k).label (Utf16.ofText before) ++
                (Origin.closing k).label (Utf16.ofText after)
            else
              (Origin.closing k).label (Utf16.ofText after) ++
                (Origin.opening k).label (Utf16.ofText before) := by
  refine ⟨f.map_fst_traced m, ?_, fun k e before after he haround => ?_⟩
  · obtain ⟨hsorted, hrange⟩ := inRange_tracedInsertions h (Insertion.limit (Utf16.ofText m.text))
    unfold traced
    dsimp only
    split
    · exact (Origin.filter_label (· = .text) _).trans (if_pos rfl)
    · exact Insertion.filter_text_traceAll hsorted hrange fun _ =>
        ne_text_of_mem_tracedInsertions
  · have hentities : m.entities.isEmpty = false := by
      rw [List.isEmpty_eq_false_iff]
      exact List.ne_nil_of_mem (List.mem_of_getElem? he)
    refine filter_traced ?_ h he haround
    rw [htable, hentities, Bool.or_false, Bool.or_false, Bool.eq_false_iff]
    exact fun hempty => htext (String.isEmpty_iff.mp hempty)

/-- Entities that cross, split a pair or are empty. The empty code has the number 2, so its closing
marker comes first; the empty link has the number 0, so it is written as a link. -/
theorem Format.unparse_opens_first_crossing :
    let f : Format := {}
    let m : Message :=
      ⟨"a👋b", [⟨4, 0, .textUrl "u"⟩, ⟨0, 3, .bold⟩, ⟨1, 0, .code⟩, ⟨2, 2, .italic⟩]⟩
    (f.table.isEmpty = false ∧ m.text ≠ "" ∧
      ∀ e ∈ m.entities, e.stop ≤ Utf16.length m.text.toList) ∧
      (f.traced m).filter (·.2.number? = some 0) =
        (Origin.opening 0).label (Utf16.ofText "[") ++
          (Origin.closing 0).label (Utf16.ofText "](u)") ∧
      (f.traced m).filter (·.2.number? = some 1) =
        (Origin.opening 1).label (Utf16.ofText "**") ++
          (Origin.closing 1).label (Utf16.ofText "**") ∧
      (f.traced m).filter (·.2.number? = some 2) =
        (Origin.closing 2).label (Utf16.ofText "`") ++
          (Origin.opening 2).label (Utf16.ofText "`") := by
  intro f m
  have h : f.table.isEmpty = false ∧ m.text ≠ "" ∧
      ∀ e ∈ m.entities, e.stop ≤ Utf16.length m.text.toList := by decide
  obtain ⟨-, -, hmarks⟩ := f.unparse_opens_first m h.1 h.2.1 h.2.2
  refine ⟨h, ?_, ?_, ?_⟩
  · exact (hmarks 0 ⟨4, 0, .textUrl "u"⟩ "[" "](u)" rfl (by decide)).trans (if_pos (by decide))
  · exact (hmarks 1 ⟨0, 3, .bold⟩ "**" "**" rfl (by decide)).trans (if_pos (by decide))
  · exact (hmarks 2 ⟨1, 0, .code⟩ "`" "`" rfl (by decide)).trans (if_neg (by decide))

/-- An empty link with another number than 0 is not written as a link. -/
theorem Format.unparse_opens_first_ne :
    let f : Format := {}
    let m : Message := ⟨"abc", [⟨0, 1, .bold⟩, ⟨2, 0, .textUrl "u"⟩]⟩
    (∀ e ∈ m.entities, e.stop ≤ Utf16.length m.text.toList) ∧
      (f.traced m).map Prod.fst = Utf16.ofText (f.unparse m) ∧
      (f.traced m).filter (·.2.number? = some 1) =
        (Origin.closing 1).label (Utf16.ofText "](u)") ++
          (Origin.opening 1).label (Utf16.ofText "[") ∧
      f.unparse m = "**a**b](u)[c" := by
  intro f m
  have h : ∀ e ∈ m.entities, e.stop ≤ Utf16.length m.text.toList := by decide
  have hsort : StableSort Insertion.le (f.listed m)
      [⟨0, 0, Utf16.ofText "**"⟩, ⟨1, 0, Utf16.ofText "**"⟩, ⟨2, -1, Utf16.ofText "](u)"⟩,
        ⟨2, 1, Utf16.ofText "["⟩] :=
    StableSort.of_perm Insertion.le_trans (by decide +kernel) (by decide +kernel)
      (by decide +kernel)
  refine ⟨h, f.map_fst_traced m, ?_, ?_⟩
  · have hmarks := Format.filter_traced (f := f) (m := m) (k := 1) (e := ⟨2, 0, .textUrl "u"⟩)
      (by decide) h rfl (show _ = some ("[", "](u)") by decide)
    exact hmarks.trans (if_neg (by decide))
  · rw [Format.unparse_eq_of_stableSort (by decide) hsort]
    decide +kernel

end MessageMarkup
