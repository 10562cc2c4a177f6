import MessageMarkup.Proofs.Json.Layout
import MessageMarkup.Proofs.Json.Members

/-!
# Values are read as they were written

A value of words, strings, integers of 64 bits, arrays and objects, nested no deeper than there is
room for, is read as it was written, on one line or over several (`FitsIn.readsAs`). So the members
of an object are found in its document however it is laid out (`members?_layout`).
-/

namespace MessageMarkup.Json

/-- A value without other numbers than integers of 64 bits, that has room for its arrays and
objects. -/
inductive FitsIn : Nat → Json → Prop
  | scalar {room : Nat} {j : Json} (h : j.IsScalar) : FitsIn room j
  | array {room : Nat} {js : List Json} (h : ∀ j ∈ js, FitsIn room j) :
    FitsIn (room + 1) (.array js)
  | object {room : Nat} {ms : List (String × Json)} (h : ∀ m ∈ ms, FitsIn room m.2) :
    FitsIn (room + 1) (.object ms)

variable {α : Type} {room : Nat} {j : Json} {m : String × Json} {ms : List (String × Json)}

/-- A member is collected with what is read of its value. -/
theorem readsMember_collect {value : List Char → Except Fault (α × List Char)} {g : Json → α}
    (h : ∀ {cs ws rest}, Rendered m.2 cs → IsGap ws → EndsNumber rest →
      value (ws ++ (cs ++ rest)) = .ok (g m.2, rest)) :
    ReadsMember Rendered (collect value) (fun before m => .ok (before ++ [(m.1, g m.2)])) m := by
  intro before cs ws ws' rest hvalue hws hws' hrest
  unfold collect afterColon
  rw [afterBlanks_append_cons hws (by decide)]
  simp only [ok_bind, h hvalue hws' hrest]
  rfl

/-- All members are collected, one after the other. -/
theorem foldlM_collect (g : Json → α) (ms : List (String × Json)) (before : List (String × α)) :
    ms.foldlM (fun before m => .ok (before ++ [(m.1, g m.2)])) before =
      (.ok (before ++ ms.map fun m => (m.1, g m.2)) : Except Fault _) := by
  induction ms generalizing before with
  | nil =>
    rw [List.map_nil, List.append_nil]
    rfl
  | cons m ms ih =>
    rw [List.foldlM_cons, ok_bind, ih, List.append_assoc]
    rfl

/-- A value that fits is read as it was written. -/
theorem FitsIn.readsAs (h : FitsIn room j) : ReadsAs Rendered (readValue room) .ok j := by
  induction h with
  | @scalar room j hj =>
    refine ⟨fun hcs hws hrest => ?_, fun hcs => ?_⟩
    · rw [hcs.eq_compact hj]
      exact hj.readValue hws hrest room
    · rw [hcs.eq_compact hj]
      exact hj.exists_head
  | @array room js _ ih =>
    refine ⟨fun {cs ws rest} hcs hws hrest => ?_, fun hcs => ?_⟩
    · obtain ⟨cs, rfl, henclosed⟩ := hcs.exists_items
      have hread := henclosed.readArray ih rest
      have hitems : js.mapM (.ok : Json → Except Fault Json) = .ok js :=
        (List.mapM_pure (m := Except Fault) (f := id)).trans (congrArg Except.ok (List.map_id js))
      rw [readValue.eq_def, List.cons_append, afterBlanks_append_cons hws (by decide)]
      simp only [hread, hitems]
      rfl
    · obtain ⟨cs, rfl, -⟩ := hcs.exists_items
      exact ⟨'[', cs, rfl, by decide, by decide⟩
  | @object room ms _ ih =>
    refine ⟨fun {cs ws rest} hcs hws hrest => ?_, fun hcs => ?_⟩
    · obtain ⟨cs, rfl, henclosed⟩ := hcs.exists_members
      have hreads : ∀ m ∈ ms, ReadsMember Rendered (readMember (readValue room))
          (fun before m => .ok (before ++ [(m.1, m.2)])) m := fun m hm =>
        readsMember_collect (g := id) fun hvalue hws hrest => (ih m hm).read hvalue hws hrest
      have hread := henclosed.readObject true hreads [] rest
      rw [readValue.eq_def, List.cons_append, afterBlanks_append_cons hws (by decide)]
      simp only [hread, foldlM_collect fun j => j, Prod.mk.eta, List.map_id_fun', id_eq,
        List.nil_append]
      rfl
    · obtain ⟨cs, rfl, -⟩ := hcs.exists_members
      exact ⟨'{', cs, rfl, by decide, by decide⟩

/-- However an object is laid out whose values fit, its members are found in it. -/
theorem members?_layout (hms : ∀ m ∈ ms, FitsIn (maxDepth - 1) m.2) {ws ws' cs : List Char}
    (hws : IsGap ws) (hws' : IsGap ws') (hcs : Enclosed '}' (Member Rendered) ms cs) :
    members? (String.ofList (ws ++ '{' :: (cs ++ ws'))) = .ok (ms.map valued) := by
  have hreads : ∀ m ∈ ms, ReadsMember Rendered (collect (readAny (maxDepth - 1)))
      (fun before m => .ok (before ++ [(m.1, some m.2)])) m := fun m hm =>
    readsMember_collect (g := some) fun hvalue hws hrest =>
      readAny_some_iff.mpr ((hms m hm).readsAs.read hvalue hws hrest)
  refine readAll_eq_ok_iff.mpr ⟨ws', readFields_eq_ok_iff.mpr ⟨cs ++ ws', ?_, ?_⟩, hws'⟩
  · rw [String.toList_ofList, afterBlanks_append_cons hws (by decide)]
  · rw [hcs.readObject true hreads, foldlM_collect some]
    rfl

end MessageMarkup.Json
