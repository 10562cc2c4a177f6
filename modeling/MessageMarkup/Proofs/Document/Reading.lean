import MessageMarkup.Document
import MessageMarkup.Proofs.Json.Layout

/-!
# Documents are read as trees

The readers of entities and messages take their documents apart character by character, and check
them while they do. What they make of a document is told by its tree: the members of an object, in
their order, are added one by one to a draft (`Entity.Draft.take`, `Message.Draft.take`), and the
draft at the end is the entity or the message, or is none. `Entity.readsAs_ofJson` and
`Message.read_eq` say so for the documents of entities and messages, however they are laid out.
-/

namespace MessageMarkup

open Json (Fault IsScalar IsGap EndsNumber Rendered Enclosed Member ReadsAs ReadsMember readText
  readNatural readValue)

/-! ## Fields -/

/-- The natural number that a field must hold. -/
def Entity.naturalField : Json → Except Fault Nat
  | .integer (.ofNat n) => .ok n
  | _ => .error .mismatched

variable {ws ws' cs rest : List Char} {j : Json}

/-- Where a natural number is wanted, nothing else will do. -/
theorem readNatural_mismatch (hj : j.IsScalar) (hws : IsGap ws) (hrest : EndsNumber rest) {c : Char}
    {cs : List Char} (hcs : j.compact = c :: cs) (hgap : ¬ IsGap [c])
    (hc : (c == '-' || c.isDigit) = false) :
    readNatural (ws ++ (j.compact ++ rest)) = .error .mismatched := by
  have hmismatch := hj.mismatch Json.isGap_nil hrest
  rw [hcs, List.nil_append, List.cons_append] at hmismatch
  unfold readNatural
  rw [hcs, List.cons_append, Json.afterBlanks_append_cons hws hgap]
  simp only [hc, Bool.false_eq_true, if_false, hmismatch]

/-- Reading a natural number is asking a field for one. -/
theorem readNatural_scalar (hj : j.IsScalar) (hws : IsGap ws) (hrest : EndsNumber rest) :
    readNatural (ws ++ (j.compact ++ rest)) = (Entity.naturalField j).map (·, rest) := by
  cases hj with
  | null =>
    have hword : Json.null.compact = 'n' :: ['u', 'l', 'l'] := rfl
    exact readNatural_mismatch .null hws hrest hword (by decide) rfl
  | bool value =>
    cases value with
    | false =>
      have hword : (Json.bool false).compact = 'f' :: ['a', 'l', 's', 'e'] := rfl
      exact readNatural_mismatch (.bool false) hws hrest hword (by decide) rfl
    | true =>
      have hword : (Json.bool true).compact = 't' :: ['r', 'u', 'e'] := rfl
      exact readNatural_mismatch (.bool true) hws hrest hword (by decide) rfl
  | @integer value hmin hmax =>
    cases value with
    | ofNat n =>
      rw [Json.compact]
      exact Json.readNatural_integerText hws (Int.ofNat_le.mp hmax) hrest
    | negSucc n =>
      -- It is read as a number, and is none that is wanted.
      have hnumber := Json.readNumber_integerText hmin hmax hrest
      rw [Json.compact]
      rw [Json.integerText, List.cons_append] at hnumber ⊢
      unfold readNatural
      rw [Json.afterBlanks_append_cons hws (by decide)]
      simp only [hnumber]
      rfl
  | string s =>
    have hquote : (Json.string s).compact = '"' :: (s.toList.flatMap Json.stringChar ++ ['"']) :=
      rfl
    exact readNatural_mismatch (.string s) hws hrest hquote (by decide) rfl

/-- The text behind a colon. -/
theorem afterColon_append (hws : IsGap ws) (cs : List Char) :
    Json.afterColon (ws ++ ':' :: cs) = .ok cs := by
  unfold Json.afterColon
  rw [Json.afterBlanks_append_cons hws (by decide)]
  rfl

/-- What has been read of a document is made into what it stands for where its text ends. -/
theorem bind_finish {σ β : Type} (draft : Except Fault σ) (finish : σ → Except Fault β)
    (rest : List Char) :
    (draft.map (·, rest) >>= fun (s, cs) => do return (← finish s, cs)) =
      (draft >>= finish).map (·, rest) := by
  cases draft with
  | error fault => rfl
  | ok s =>
    show (do return (← finish s, rest)) = (finish s).map (·, rest)
    cases finish s <;> rfl

/-! ## Entities -/

namespace Entity

/-- What a member adds to what has been read of the document of an entity. -/
def Draft.take (s : Draft) (m : String × Json) : Except Fault Draft :=
  if m.1 = "offset" then
    if s.offset?.isSome then .error .mismatched
    else do return { s with offset? := some (← naturalField m.2) }
  else if m.1 = "length" then
    if s.length?.isSome then .error .mismatched
    else do return { s with length? := some (← naturalField m.2) }
  else .ok { s with others := s.others ++ [m] }

/-- The entity of a tree. -/
def ofJson : Json → Except Fault Entity
  | .object ms => do ofDraft (← ms.foldlM Draft.take {})
  | _ => .error .mismatched

/-- Reading a member with a scalar is adding it to the draft. -/
theorem readsMember_take (room : Nat) {m : String × Json} (hm : m.2.IsScalar) :
    ReadsMember Rendered (readMember room) Draft.take m := by
  intro s cs ws ws' rest hvalue hws hws' hrest
  rw [hvalue.eq_compact hm]
  have hnatural := readNatural_scalar hm hws' hrest
  unfold readMember Draft.take
  rw [afterColon_append hws]
  split
  · split
    · rfl
    · rw [Json.ok_bind, hnatural]
      cases naturalField m.2 <;> rfl
  · split
    · split
      · rfl
      · rw [Json.ok_bind, hnatural]
        cases naturalField m.2 <;> rfl
    · unfold Json.readMember
      rw [afterColon_append hws, Json.ok_bind, hm.readValue hws' hrest]
      rfl

/-- Reading an object of scalars is making an entity of its tree. -/
theorem readsAs_ofJson (room : Nat) {ms : List (String × Json)} (hms : ∀ m ∈ ms, m.2.IsScalar) :
    ReadsAs Rendered (read room) ofJson (.object ms) where
  read := by
    intro cs ws rest hcs hws hrest
    obtain ⟨cs, rfl, henclosed⟩ := hcs.exists_members
    have hread := henclosed.readObject true
      (fun m hm => readsMember_take (room - 1) (hms m hm)) {} rest
    unfold read ofJson
    rw [List.cons_append, Json.afterBlanks_append_cons hws (by decide)]
    simp only [hread]
    exact bind_finish (ms.foldlM Draft.take {}) ofDraft rest
  head := by
    intro cs hcs
    obtain ⟨cs, rfl, -⟩ := hcs.exists_members
    exact ⟨'{', cs, rfl, by decide, by decide⟩

end Entity

/-! ## Messages -/

namespace Message

/-- What a member adds to what has been read of the document of a message. -/
def Draft.take (s : Draft) (m : String × Json) : Except Fault Draft :=
  if m.1 = "text" then
    if s.text?.isSome then .error .mismatched
    else do return { s with text? := some (← Kind.stringField m.2) }
  else if m.1 = "entities" then
    if s.entities?.isSome then .error .mismatched
    else
      match m.2 with
      | .array js => do return { s with entities? := some (← js.mapM Entity.ofJson) }
      | _ => .error .mismatched
  else .ok s

/-- The message of a tree. -/
def ofJson : Json → Except Fault Message
  | .object ms => do ofDraft (← ms.foldlM Draft.take {})
  | _ => .error .mismatched

/-- A member that the document of a message has: a text, or entities that are objects of scalars. -/
inductive IsField : String × Json → Prop
  | text (text : String) : IsField ("text", .string text)
  | entities {js : List Json} (h : ∀ j ∈ js, ∃ ms, j = .object ms ∧ ∀ m ∈ ms, m.2.IsScalar) :
    IsField ("entities", .array js)

/-- Reading such a member is adding it to the draft. -/
theorem readsMember_take {m : String × Json} (hm : IsField m) :
    ReadsMember Rendered readMember Draft.take m := by
  intro s cs ws ws' rest hvalue hws hws' hrest
  cases hm with
  | text text =>
    rw [hvalue.eq_compact (.string text), Json.compact]
    unfold readMember Draft.take
    rw [if_pos rfl, if_pos rfl, afterColon_append hws]
    split
    · rfl
    · rw [Json.ok_bind, Json.readText_stringText hws']
      rfl
  | @entities js h =>
    obtain ⟨cs, rfl, henclosed⟩ := hvalue.exists_items
    have hreads : ∀ j ∈ js, ReadsAs Rendered (Entity.read (Json.maxDepth - 2)) Entity.ofJson j := by
      intro j hj
      obtain ⟨ms, rfl, hms⟩ := h j hj
      exact Entity.readsAs_ofJson _ hms
    have hread := henclosed.readArray hreads rest
    have hkey : "entities" ≠ "text" := by decide
    unfold readMember Draft.take
    rw [if_neg hkey, if_neg hkey, if_pos rfl, if_pos rfl, afterColon_append hws]
    split
    · rfl
    · rw [Json.ok_bind]
      unfold readEntities
      rw [List.cons_append, Json.afterBlanks_append_cons hws' (by decide)]
      simp only [hread]
      cases js.mapM Entity.ofJson <;> rfl

/-- Reading an object of such members is making a message of its tree. -/
theorem read_eq {ms : List (String × Json)} (hms : ∀ m ∈ ms, IsField m) (hws : IsGap ws)
    (hcs : Rendered (.object ms) cs) (rest : List Char) :
    read (ws ++ (cs ++ rest)) = (ofJson (.object ms)).map (·, rest) := by
  obtain ⟨cs, rfl, henclosed⟩ := hcs.exists_members
  have hread := henclosed.readObject true (fun m hm => readsMember_take (hms m hm)) {} rest
  unfold read ofJson
  rw [List.cons_append, Json.afterBlanks_append_cons hws (by decide)]
  simp only [hread]
  exact bind_finish (ms.foldlM Draft.take {}) ofDraft rest

end Message

end MessageMarkup
