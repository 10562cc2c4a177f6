import MessageMarkup.Format
import MessageMarkup.Proofs.Format.Insertion

/-!
# Writing puts the marks where they belong

`Format.unparse_eq_markup` says that a message is written as the markup of its spans: the entities
that can be written, with their marks. The number of an entity is what orders its insertions, so the
spans are numbered as the entities are (`Delimiters.numbered`).
-/

namespace MessageMarkup

open Utf16 (encode)

/-! ## Marks of entities -/

/-- How a kind is written, if it can be. -/
def Delimiters.mark? (table : Delimiters) (kind : Kind) : Option Mark :=
  match kind.style?.bind fun style => table.entries.find? (·.style == style) with
  | some d => some (.pair d)
  | none => kind.linkUrl?.map .link

/-- The span of an entity that can be written. -/
def Delimiters.span? (table : Delimiters) (e : Entity) : Option Span :=
  (table.mark? e.kind).map fun mark => ⟨e.offset, e.length, mark⟩

/-- The spans of the entities that can be written. -/
def Delimiters.spans (table : Delimiters) (es : List Entity) : List Span :=
  es.filterMap table.span?

/-- A style is written with the first delimiter that has it. -/
theorem Delimiters.mark?_kind (table : Delimiters) (style : Style) :
    table.mark? style.kind = (table.entries.find? (·.style == style)).map .pair := by
  unfold Delimiters.mark?
  rw [Style.style?_kind, Option.bind_some]
  cases table.entries.find? (·.style == style) with
  | some d => rfl
  | none => cases style <;> rfl

/-- The style of a delimiter of the table can be written. -/
theorem Delimiters.exists_find?_of_mem {table : Delimiters} {d : Delimiter}
    (hd : d ∈ table.entries) :
    ∃ e ∈ table.entries, e.style = d.style ∧
      table.entries.find? (·.style == d.style) = some e := by
  have hsome : (table.entries.find? (·.style == d.style)).isSome = true := by
    rw [List.find?_isSome]
    exact ⟨d, hd, beq_self_eq_true d.style⟩
  obtain ⟨e, he⟩ := Option.isSome_iff_exists.mp hsome
  have hstyle := List.find?_some he
  rw [beq_iff_eq] at hstyle
  exact ⟨e, List.mem_of_find?_eq_some he, hstyle, he⟩

/-- A link is written as a link, unless it leads nowhere. -/
theorem Delimiters.mark?_textUrl (table : Delimiters) {url : String} (h : url ≠ "") :
    table.mark? (.textUrl url) = some (.link url) := by
  show (if url.isEmpty then none else some url).map Mark.link = _
  rw [if_neg (by rwa [String.isEmpty_iff])]
  rfl

/-- The span of an entity is where the entity is. -/
theorem Delimiters.of_span?_eq_some {table : Delimiters} {e : Entity} {s : Span}
    (h : table.span? e = some s) :
    s.offset = e.offset ∧ s.length = e.length ∧ s.stop = e.stop ∧
      table.mark? e.kind = some s.mark := by
  obtain ⟨mark, hmark, rfl⟩ := Option.map_eq_some_iff.mp h
  exact ⟨rfl, rfl, rfl, hmark⟩

/-- What is written around an entity are its marks. -/
theorem Delimiters.around?_eq (table : Delimiters) (kind : Kind) :
    table.around? kind =
      (table.mark? kind).map fun mark => (String.ofList mark.before, String.ofList mark.after) := by
  unfold Delimiters.around? Delimiters.mark?
  have hmarker : kind.style?.bind table.markerFor? =
      (kind.style?.bind fun style => table.entries.find? (·.style == style)).map (·.marker) := by
    rw [Option.map_bind]
    rfl
  rw [hmarker]
  -- A style that the table has goes before a url that the kind has.
  cases kind.style?.bind fun style => table.entries.find? (·.style == style) with
  | some d => simp [Mark.before, Mark.after]
  | none =>
    have hafter (url : String) :
        "](" ++ url ++ ")" = String.ofList (Mark.link url).after := by
      apply String.toList_inj.mp
      simp [Mark.after]
    rw [Option.map_none, Option.map_map]
    exact Option.map_congr fun url _ => by rw [hafter url]; rfl

/-! ## Numbered spans -/

namespace Delimiters

open Insertion

variable {table : Delimiters}

/-- The spans of some entities, with the numbers of the entities, from `k` on. -/
def numbered (table : Delimiters) (es : List Entity) (k : Nat) : List (Span × Nat) :=
  (es.zipIdx k).filterMap fun (e, i) => (table.span? e).map (·, i)

/-- The first entity has the first number, if it can be written. -/
theorem numbered_cons (e : Entity) (es : List Entity) (k : Nat) :
    table.numbered (e :: es) k =
      ((table.span? e).map (·, k)).toList ++ table.numbered es (k + 1) := by
  unfold numbered
  rw [List.zipIdx_cons, List.filterMap_cons]
  cases hs : table.span? e <;> simp [hs]

/-- Without their numbers they are the spans. -/
theorem map_numbered (es : List Entity) (k : Nat) :
    (table.numbered es k).map (·.1) = table.spans es := by
  induction es generalizing k with
  | nil => rfl
  | cons e es ih =>
    rw [numbered_cons, List.map_append, ih]
    unfold spans
    rw [List.filterMap_cons]
    cases table.span? e <;> rfl

/-- The numbers start with the first. -/
theorem le_of_mem_numbered {es : List Entity} {k : Nat} {n : Span × Nat}
    (h : n ∈ table.numbered es k) : k ≤ n.2 := by
  induction es generalizing k with
  | nil => exact absurd h List.not_mem_nil
  | cons e es ih =>
    rw [numbered_cons] at h
    rcases List.mem_append.mp h with h | h
    · rw [Option.mem_toList, Option.map_eq_some_iff] at h
      obtain ⟨s, -, rfl⟩ := h
      exact Nat.le_refl k
    · exact Nat.le_of_succ_le (ih h)

/-- The numbers ascend. -/
theorem pairwise_numbered (es : List Entity) (k : Nat) :
    (table.numbered es k).Pairwise fun n m => n.2 < m.2 := by
  induction es generalizing k with
  | nil => exact List.Pairwise.nil
  | cons e es ih =>
    rw [numbered_cons, List.pairwise_append]
    refine ⟨?_, ih (k + 1), ?_⟩
    · cases table.span? e with
      | none => exact List.Pairwise.nil
      | some s => exact List.pairwise_singleton _ _
    · intro n hn m hm
      rw [Option.mem_toList, Option.map_eq_some_iff] at hn
      obtain ⟨s, -, rfl⟩ := hn
      exact le_of_mem_numbered hm

/-- The insertions of some entities open and close their spans. -/
theorem flatMap_insertions {limit : Nat} {es : List Entity}
    (h : ∀ s ∈ table.spans es, s.stop ≤ limit) (k : Nat) :
    ((es.zipIdx k).flatMap fun (e, i) => e.insertions table limit i) =
      (table.numbered es k).flatMap fun n => [opening n, closing n] := by
  induction es generalizing k with
  | nil => rfl
  | cons e es ih =>
    have hspans : table.spans (e :: es) = (table.span? e).toList ++ table.spans es := by
      unfold spans
      rw [List.filterMap_cons]
      cases table.span? e <;> rfl
    rw [hspans] at h
    have hrest := ih (fun s hs => h s (List.mem_append_right _ hs)) (k + 1)
    rw [List.zipIdx_cons, List.flatMap_cons, hrest, numbered_cons, List.flatMap_append]
    congr 1
    show e.insertions table limit k = _
    unfold Entity.insertions
    rw [around?_eq]
    -- The span ends in the text, so writing it does not cut it off.
    have hstop := h
    unfold span? at hstop ⊢
    cases hmark : table.mark? e.kind with
    | none => rfl
    | some mark =>
      rw [hmark] at hstop
      have hle : e.offset + e.length ≤ limit := hstop ⟨e.offset, e.length, mark⟩ (by simp)
      simp [opening, closing, Entity.stopWithin, Nat.min_eq_left hle, Span.stop, Entity.stop,
        Utf16.ofText]

end Delimiters

/-! ## Messages -/

/-- The insertions of a message make the markup of its spans. -/
theorem Delimiters.insertAll_eq_markup {table : Delimiters} {text : List Char} {es : List Entity}
    {limit : Nat} (hlimit : Utf16.length text ≤ limit)
    (h : ∀ s ∈ table.spans es, s.Covers 0 text) :
    Insertion.insertAll (encode text) (insertionsOf table limit es) =
      encode (markup (table.spans es) 0 text) := by
  have hbounds : ∀ s ∈ table.spans es, s.offset < s.stop ∧ s.stop ≤ Utf16.length text := by
    intro s hs
    have := (h s hs).bounds
    omega
  have hlist : insertionsOf table limit es =
      ((table.numbered es 0).flatMap fun n =>
        [Insertion.opening n, Insertion.closing n]).mergeSort Insertion.le := by
    unfold insertionsOf
    rw [flatMap_insertions fun s hs => (hbounds s hs).2.trans hlimit]
  have hspan : ∀ n ∈ table.numbered es 0, n.1 ∈ table.spans es := by
    intro n hn
    rw [← map_numbered es 0]
    exact List.mem_map_of_mem hn
  -- Sorted by position and tag, the insertions at each position are the marks there.
  have hunits (p : Nat) : Insertion.unitsAt (insertionsOf table limit es) p =
      encode (closings (table.spans es) p ++ openings (table.spans es) p) := by
    unfold Insertion.unitsAt
    rw [hlist, Insertion.filter_mergeSort (fun n hn => (hbounds _ (hspan n hn)).1)
      (pairwise_numbered es 0) p, Insertion.flatMap_units_inOrder, map_numbered]
  have hsorted : (insertionsOf table limit es).Pairwise fun i j => i.position ≤ j.position := by
    refine (Insertion.pairwise_mergeSort _).imp fun {i j} hle => ?_
    rw [Insertion.le_iff] at hle
    omega
  -- Each of them goes to the start or the stop of a span, which are cuts of the text.
  have hcut : ∀ i ∈ insertionsOf table limit es, Utf16.IsCut text i.position := by
    intro i hi
    rw [hlist, List.mem_mergeSort, List.mem_flatMap] at hi
    obtain ⟨n, hn, hi⟩ := hi
    obtain ⟨xs, ys, zs, htext, -, hoffset, hlen⟩ := h n.1 (hspan n hn)
    rw [Nat.zero_add] at hoffset
    rcases List.mem_pair.mp hi with rfl | rfl
    · exact ⟨xs, ys ++ zs, htext, hoffset⟩
    · refine ⟨xs ++ ys, zs, by rw [htext, List.append_assoc], ?_⟩
      rw [Utf16.length_append, hoffset, hlen]
      rfl
  -- Nothing closes at the start of the text, and nothing opens at its end.
  have hstart : closings (table.spans es) 0 = [] :=
    closings_eq_nil fun s hs => by have := hbounds s hs; omega
  have hend : openings (table.spans es) (0 + Utf16.length text) = [] :=
    openings_eq_nil fun s hs => by have := hbounds s hs; omega
  rw [Insertion.insertAll_eq_woven hsorted hcut, Insertion.woven_eq_markup hunits, hstart, hend,
    List.append_nil, List.nil_append]

/-- A message is written as the markup of its spans. -/
theorem Format.unparse_eq_markup {f : Format} (hne : f.table.entries ≠ []) {m : Message}
    (h : ∀ s ∈ f.table.spans m.entities, s.Covers 0 m.text.toList) :
    f.unparse m = String.ofList (markup (f.table.spans m.entities) 0 m.text.toList) := by
  have hplain (p : Nat) (cs : List Char) : markup [] p cs = cs :=
    markup_of_apart fun s hs => absurd hs List.not_mem_nil
  unfold Format.unparse Format.unparseNoting unparseWith
  split
  · rename_i hempty
    rw [Bool.or_eq_true, Bool.or_eq_true, List.isEmpty_iff, String.isEmpty_iff] at hempty
    rcases hempty with (htext | hentities) | htable
    · rw [htext]
      rfl
    · rw [hentities]
      show m.text = String.ofList (markup [] 0 m.text.toList)
      rw [hplain, String.ofList_toList]
    · exact absurd (List.isEmpty_iff.mp htable) hne
  · have hlimit : Utf16.length m.text.toList ≤ Insertion.limit (Utf16.ofText m.text) := by
      unfold Insertion.limit Utf16.ofText
      rw [Utf16.length_encode]
      exact Nat.le_max_right _ _
    have hunits := Delimiters.insertAll_eq_markup hlimit h
    unfold Utf16.ofText at hunits ⊢
    simp only [hunits]
    unfold Utf16.toText
    rw [Utf16.decode_encode]

/-- A message is written with its insertions made, in the only order in which they can be. -/
theorem Format.unparse_eq_insertAll {f : Format} {m : Message} (is : List Insertion)
    (hne : f.table.isEmpty = false) (htext : m.text ≠ "")
    (hperm : List.Perm (m.entities.zipIdx.flatMap fun (e, index) =>
      e.insertions f.table (Insertion.limit (Utf16.ofText m.text)) index) is)
    (hsorted : is.Pairwise fun a b => b.le a = false) :
    f.unparse m = Utf16.toText (Insertion.insertAll (Utf16.ofText m.text) is) := by
  unfold Format.unparse Format.unparseNoting unparseWith
  rw [hne, Bool.or_false]
  split
  · rename_i hempty
    rw [Bool.or_eq_true, List.isEmpty_iff, String.isEmpty_iff] at hempty
    rcases hempty with hempty | hempty
    · exact absurd hempty htext
    · rw [hempty] at hperm
      have hnone : is = [] := List.nil_perm.mp hperm
      rw [hnone]
      exact (Utf16.toText_ofText m.text).symm
  · unfold insertionsOf
    simp only [Insertion.mergeSort_eq hperm hsorted]

end MessageMarkup
