import MessageMarkup.Format
import MessageMarkup.Proofs.Format.Insertion
import MessageMarkup.Proofs.Format.Intact
import MessageMarkup.Proofs.StableSort

/-!
# Insertions made on the way through a text

Insertions are made from the last to the first, each into a text that has grown. A writer could also
go through the text once and write each insertion when it is due, and then the next character. If
all insertions are meant for positions of the text, the two write the same
(`Insertion.insertAll_eq_merge`): what has been inserted stands behind everything that is still to
be inserted, so up to there the text is as it was.

A position between the halves of a surrogate pair is no place for an insertion. It is due when the
writer gets past it, which is behind the pair, before what is meant for that place.
`Format.unparse_eq_merge` says so for the entities of a message, however they lie in its text.
-/

namespace MessageMarkup

open Utf16 (encode width)

namespace Insertion

/-! ## Going through a text -/

/-- What a writer writes who goes through a piece of a text, from the position `p` on, with the
insertions that are left: first those that are due, which are meant for this position or one that
has been passed, and then the next character. -/
def merge : List Insertion → Nat → List Char → List UInt16
  | is, _, [] => is.flatMap (·.units)
  | is, p, c :: cs =>
    (is.takeWhile (·.position ≤ p)).flatMap (·.units) ++
      (Utf16.ofChar c ++ merge (is.dropWhile (·.position ≤ p)) (p + width c) cs)

/-- Without insertions a text has its units. -/
theorem merge_nil (p : Nat) (cs : List Char) : merge [] p cs = encode cs := by
  induction cs generalizing p with
  | nil => rfl
  | cons c cs ih =>
    show Utf16.ofChar c ++ merge [] (p + width c) cs = encode (c :: cs)
    rw [ih, Utf16.encode_cons]

/-- An insertion that is due is written at once. -/
theorem merge_cons_of_le {i : Insertion} {p : Nat} (h : i.position ≤ p) (is : List Insertion)
    (cs : List Char) : merge (i :: is) p cs = i.units ++ merge is p cs := by
  cases cs with
  | nil => rfl
  | cons c cs => simp [merge, h]

/-- A position is reached by a piece of a text, and not before its last character. -/
def Reaches (xs : List Char) (i : Nat) : Prop :=
  i ≤ Utf16.length xs ∧ ∀ as b bs, xs = as ++ b :: bs → Utf16.length as < i

/-- Every position of a text is reached somewhere. -/
theorem exists_reaches {text : List Char} {i : Nat} (h : i ≤ Utf16.length text) :
    ∃ xs ys, text = xs ++ ys ∧ Reaches xs i := by
  induction text generalizing i with
  | nil => exact ⟨[], [], rfl, h, fun as b bs hnil => absurd hnil (by simp)⟩
  | cons c cs ih =>
    rcases Nat.eq_zero_or_pos i with rfl | hpos
    · exact ⟨[], c :: cs, rfl, Nat.zero_le _, fun as b bs hnil => absurd hnil (by simp)⟩
    · rw [Utf16.length_cons] at h
      obtain ⟨xs, ys, rfl, hle, hlt⟩ := ih (i := i - width c) (by omega)
      refine ⟨c :: xs, ys, rfl, by rw [Utf16.length_cons]; omega, fun as b bs heq => ?_⟩
      cases as with
      | nil => exact hpos
      | cons a as =>
        obtain ⟨rfl, hxs⟩ := List.cons.inj heq
        have := hlt as b bs hxs
        rw [Utf16.length_cons]
        omega

/-- A piece that does not get past the insertions before its end has its units. -/
theorem merge_append {is : List Insertion} {xs : List Char} {p : Nat}
    (h : ∀ i ∈ is, ∀ as b bs, xs = as ++ b :: bs → p + Utf16.length as < i.position)
    (ys : List Char) :
    merge is p (xs ++ ys) = encode xs ++ merge is (p + Utf16.length xs) ys := by
  induction xs generalizing p with
  | nil => rfl
  | cons x xs ih =>
    -- None is due before the first character, and so on.
    have hlater : ∀ i ∈ is, decide (i.position ≤ p) = false := by
      intro i hi
      have := h i hi [] x xs rfl
      rw [Utf16.length_nil] at this
      exact decide_eq_false (by omega)
    have htake : is.takeWhile (·.position ≤ p) = [] := by
      cases is with
      | nil => rfl
      | cons i is => rw [List.takeWhile_cons, hlater i List.mem_cons_self]; rfl
    have hdrop : is.dropWhile (·.position ≤ p) = is := by
      cases is with
      | nil => rfl
      | cons i is => rw [List.dropWhile_cons, hlater i List.mem_cons_self]; rfl
    have hrest : ∀ i ∈ is, ∀ as b bs, xs = as ++ b :: bs →
        p + width x + Utf16.length as < i.position := by
      intro i hi as b bs heq
      have := h i hi (x :: as) b bs (congrArg (x :: ·) heq)
      rw [Utf16.length_cons] at this
      omega
    rw [List.cons_append, merge, htake, hdrop, ih hrest, Utf16.encode_cons, Utf16.length_cons,
      List.append_assoc, Nat.add_assoc]
    rfl

/-! ## Making insertions -/

/-- A position settles where it is reached. -/
theorem settle_of_reaches {xs : List Char} {i : Nat} (h : Reaches xs i) (us : List UInt16) :
    settle (encode xs ++ us) i = Utf16.length xs := by
  -- At the end of the piece no pair is split.
  have hend : settle (encode xs ++ us) (Utf16.length xs) = Utf16.length xs := by
    unfold settle
    rw [dif_neg]
    rw [Utf16.splitsPair_encode_append]
    exact fun hsplit => Bool.false_ne_true hsplit.1
  obtain ⟨hle, hlt⟩ := h
  rcases Nat.eq_or_lt_of_le hle with rfl | hinside
  · exact hend
  · -- Otherwise the position is between the halves of the last character.
    rcases xs.eq_nil_or_concat with rfl | ⟨as, b, rfl⟩
    · exact absurd hinside (Nat.not_lt_zero i)
    · have hbefore := hlt as b [] (List.concat_eq_append ..)
      rw [List.concat_eq_append] at hinside hend ⊢
      have hlen : Utf16.length (as ++ [b]) = Utf16.length as + width b := by
        rw [Utf16.length_append, Utf16.length_cons, Utf16.length_nil, Nat.add_zero]
      rw [hlen] at hinside
      rcases Utf16.ofChar_cases b with ⟨u, -, -, -, hw⟩ | ⟨high, low, hb, hhigh, hlow, -, hw⟩
      · omega
      · have hi : i = (encode as).length + 1 := by
          rw [Utf16.length_encode]
          omega
        have hnext : i + 1 = Utf16.length (as ++ [b]) := by omega
        have hsplit : Utf16.splitsPair (encode (as ++ [b]) ++ us) i = true := by
          rw [Utf16.encode_append, Utf16.encode_cons, hb, Utf16.encode_nil, List.append_nil,
            List.append_assoc, hi]
          show Utf16.splitsPair (encode as ++ high :: low :: us) _ = true
          rw [Utf16.splitsPair_append_cons, hhigh, Utf16.isSurrogate_of_isLow hlow]
          rfl
        have hbound : i < (encode (as ++ [b]) ++ us).length := by
          rw [List.length_append, Utf16.length_encode]
          omega
        unfold settle
        rw [dif_pos ⟨hsplit, hbound⟩, hnext, hend]

/-- An insertion goes where its position is reached. -/
theorem insertInto_of_reaches {xs : List Char} {i : Insertion} (h : Reaches xs i.position)
    (us : List UInt16) : insertInto (encode xs ++ us) i = encode xs ++ (i.units ++ us) := by
  have hle : i.position ≤ (encode xs ++ us).length := by
    rw [List.length_append, Utf16.length_encode]
    exact Nat.le_trans h.1 (Nat.le_add_right _ _)
  unfold insertInto
  dsimp only
  rw [Nat.min_eq_left hle, settle_of_reaches h, ← Utf16.length_encode, List.take_left,
    List.drop_left, List.append_assoc]

/-- Insertions in the order of their positions, all of them positions of a text, are written on the
way through it. -/
theorem insertAll_eq_merge {text : List Char} {is : List Insertion}
    (hsorted : is.Pairwise fun i j => i.position ≤ j.position)
    (hle : ∀ i ∈ is, i.position ≤ Utf16.length text) :
    insertAll (encode text) is = merge is 0 text := by
  induction is with
  | nil => exact (merge_nil 0 text).symm
  | cons i is ih =>
    obtain ⟨hfirst, hrest⟩ := List.pairwise_cons.mp hsorted
    obtain ⟨xs, ys, rfl, hreach⟩ := exists_reaches (hle i List.mem_cons_self)
    -- None of the insertions is due before the first one is.
    have hall : ∀ j ∈ i :: is, ∀ as b bs, xs = as ++ b :: bs →
        0 + Utf16.length as < j.position := by
      intro j hj as b bs heq
      have hi := hreach.2 as b bs heq
      rcases List.mem_cons.mp hj with rfl | hj
      · omega
      · have := hfirst j hj
        omega
    have hdue : i.position ≤ 0 + Utf16.length xs := by
      have := hreach.1
      omega
    calc insertAll (encode (xs ++ ys)) (i :: is)
        = insertInto (insertAll (encode (xs ++ ys)) is) i := rfl
      _ = insertInto (encode xs ++ merge is (0 + Utf16.length xs) ys) i := by
          rw [ih hrest fun j hj => hle j (List.mem_cons_of_mem i hj),
            merge_append fun j hj => hall j (List.mem_cons_of_mem i hj)]
      _ = encode xs ++ (i.units ++ merge is (0 + Utf16.length xs) ys) :=
          insertInto_of_reaches hreach _
      _ = encode xs ++ merge (i :: is) (0 + Utf16.length xs) ys := by
          rw [merge_cons_of_le hdue]
      _ = merge (i :: is) 0 (xs ++ ys) := (merge_append hall ys).symm

end Insertion

/-! ## Messages -/

/-- The insertions of the entities of a list, one after the other: what comes before the span of
the entity with the number `i`, tagged with `i`, and what comes behind it, tagged with `-i`. -/
def Delimiters.scheduled (table : Delimiters) (es : List Entity) : List Insertion :=
  es.zipIdx.flatMap fun (e, i) =>
    match table.around? e.kind with
    | some (before, after) =>
      [⟨e.offset, i, Utf16.ofText before⟩, ⟨e.stop, -i, Utf16.ofText after⟩]
    | none => []

namespace Delimiters

variable {table : Delimiters} {es : List Entity}

/-- What is scheduled is inserted where entities start and stop. -/
theorem exists_of_mem_scheduled {i : Insertion} (h : i ∈ table.scheduled es) :
    ∃ e ∈ es, i.position = e.offset ∨ i.position = e.stop := by
  obtain ⟨⟨e, k⟩, he, hi⟩ := List.mem_flatMap.mp h
  have hmem : e ∈ es := (List.mem_zipIdx' he).2 ▸ List.getElem_mem _
  refine ⟨e, hmem, ?_⟩
  dsimp only at hi
  split at hi
  · rcases List.mem_pair.mp hi with rfl | rfl
    · exact Or.inl rfl
    · exact Or.inr rfl
  · exact absurd hi List.not_mem_nil

/-- A message is written with the insertions that are scheduled, if no entity reaches past the
limit. -/
theorem insertionsOf_eq {limit : Nat} (h : ∀ e ∈ es, e.stop ≤ limit) :
    insertionsOf table limit es = (table.scheduled es).mergeSort Insertion.le := by
  unfold insertionsOf scheduled
  congr 1
  refine List.flatMap_congr fun ⟨e, k⟩ he => ?_
  have hmem : e ∈ es := (List.mem_zipIdx' he).2 ▸ List.getElem_mem _
  have hstop : e.stopWithin limit = e.stop := Nat.min_eq_left (h e hmem)
  unfold Entity.insertions
  dsimp only
  cases table.around? e.kind with
  | none => rfl
  | some around => exact congrArg (fun stop => [_, Insertion.mk stop _ _]) hstop

end Delimiters

/-- The insertions of a message, in the order of its entities. -/
def Format.listed (f : Format) (m : Message) : List Insertion :=
  m.entities.zipIdx.flatMap fun x =>
    x.1.insertions f.table (Insertion.limit (Utf16.ofText m.text)) x.2

/-- A message is written with a stable sort of its insertions made, unless it is its own markup. -/
theorem Format.unparse_eq_of_stableSort {f : Format} {m : Message} {is : List Insertion}
    (hmarkup : (m.text.isEmpty || m.entities.isEmpty || f.table.isEmpty) = false)
    (his : StableSort Insertion.le (f.listed m) is) :
    f.unparse m = Utf16.toText (Insertion.insertAll (Utf16.ofText m.text) is) := by
  have hsorted : insertionsOf f.table (Insertion.limit (Utf16.ofText m.text)) m.entities = is :=
    (his.eq_mergeSort Insertion.le_trans Insertion.le_total).symm
  rw [← Utf16.toText_ofText (f.unparse m), f.ofText_unparse, if_neg (Bool.eq_false_iff.mp hmarkup),
    hsorted]

/-- The markup of a message whose entities lie within its text, though they may overlap, come in any
order, be empty or split pairs, is what a writer writes who goes through the text once. What is
scheduled has a stable sort by position and tag; each insertion is written in that order when it is
due, at its position, or behind the character which it would have split. -/
theorem Format.unparse_eq_merge (f : Format) (m : Message) (htable : f.table.isEmpty = false)
    (htext : m.text ≠ "") (h : ∀ e ∈ m.entities, e.stop ≤ Utf16.length m.text.toList) :
    (∃ is, StableSort Insertion.le (f.table.scheduled m.entities) is) ∧
      ∀ is, StableSort Insertion.le (f.table.scheduled m.entities) is →
        Utf16.ofText (f.unparse m) = Insertion.merge is 0 m.text.toList := by
  refine ⟨⟨_, StableSort.of_mergeSort Insertion.le_trans Insertion.le_total _⟩, fun is his => ?_⟩
  have hsorted : is.Pairwise fun i j => i.position ≤ j.position := by
    refine his.sorted.imp fun {i j} hle => ?_
    rw [Insertion.le_iff] at hle
    omega
  obtain rfl := his.eq_mergeSort Insertion.le_trans Insertion.le_total
  have hle : ∀ i ∈ (f.table.scheduled m.entities).mergeSort Insertion.le,
      i.position ≤ Utf16.length m.text.toList := by
    intro i hi
    obtain ⟨e, he, hposition⟩ := Delimiters.exists_of_mem_scheduled (List.mem_mergeSort.mp hi)
    have hstop := h e he
    have hoffset : e.offset ≤ e.stop := Nat.le_add_right _ _
    omega
  have hlimit : ∀ e ∈ m.entities, e.stop ≤ Insertion.limit (Utf16.ofText m.text) := by
    intro e he
    have := h e he
    unfold Insertion.limit Utf16.ofText
    rw [Utf16.length_encode]
    omega
  rw [f.ofText_unparse m, htable, Bool.or_false]
  split
  · -- Without entities nothing is scheduled.
    rename_i hempty
    rw [Bool.or_eq_true, List.isEmpty_iff, String.isEmpty_iff] at hempty
    have hnone : f.table.scheduled [] = [] := rfl
    rw [hempty.resolve_left htext, hnone, List.mergeSort_nil, Insertion.merge_nil]
    rfl
  · rw [Delimiters.insertionsOf_eq hlimit]
    exact Insertion.insertAll_eq_merge hsorted hle

/-- Entities that overlap, come in any order, are empty or split a pair. -/
theorem Format.unparse_eq_merge_overlapping :
    let f : Format := {}
    let m : Message :=
      ⟨"a👋b", [⟨2, 2, .italic⟩, ⟨0, 3, .bold⟩, ⟨1, 0, .code⟩, ⟨2, 1, .textUrl "u"⟩]⟩
    let is : List Insertion :=
      [⟨0, 1, Utf16.ofText "**"⟩, ⟨1, -2, Utf16.ofText "`"⟩, ⟨1, 2, Utf16.ofText "`"⟩,
        ⟨2, 0, Utf16.ofText "__"⟩, ⟨2, 3, Utf16.ofText "["⟩, ⟨3, -3, Utf16.ofText "](u)"⟩,
        ⟨3, -1, Utf16.ofText "**"⟩, ⟨4, 0, Utf16.ofText "__"⟩]
    (f.table.isEmpty = false ∧ m.text ≠ "" ∧
      ∀ e ∈ m.entities, e.stop ≤ Utf16.length m.text.toList) ∧
      StableSort Insertion.le (f.table.scheduled m.entities) is ∧
      Utf16.ofText (f.unparse m) = Insertion.merge is 0 m.text.toList ∧
      f.unparse m = "**a``👋__[](u)**b__" := by
  intro f m is
  have h : f.table.isEmpty = false ∧ m.text ≠ "" ∧
      ∀ e ∈ m.entities, e.stop ≤ Utf16.length m.text.toList := by decide
  have hsort : (f.table.scheduled m.entities).mergeSort Insertion.le = is :=
    Insertion.mergeSort_eq (by decide) (by decide)
  have his : StableSort Insertion.le (f.table.scheduled m.entities) is :=
    hsort ▸ StableSort.of_mergeSort Insertion.le_trans Insertion.le_total _
  have hmerge := (f.unparse_eq_merge m h.1 h.2.1 h.2.2).2 is his
  refine ⟨h, his, hmerge, ?_⟩
  rw [← Utf16.toText_ofText (f.unparse m), hmerge]
  decide +kernel

end MessageMarkup
