import MessageMarkup.Proofs.Document.Reading
import MessageMarkup.Proofs.Json.Members

/-!
# Documents are values first

The readers of entities and messages check a document while they read it. Where that goes well, the
same is made of the document if its values are read first, whatever they are, and then looked at
(`Entity.decodes_read`, `Message.decodesMember_take?`). So an entity is made of the members of its
document (`Entity.ofDocument?_eq_ok_iff`), all of which must have values, and so is a message
(`Message.ofDocument?_eq_ok_iff`), of which only those must have values that are wanted.
-/

namespace MessageMarkup

open Json (Fault Decodes DecodesMember readText readNatural readValue readValue_eq_ok_iff wanted
  wanted_eq_ok_iff members? valued)

/-! ## Fields -/

/-- Only a string will do as a string. -/
theorem Kind.stringField_eq_ok_iff {j : Json} {s : String} :
    Kind.stringField j = .ok s ↔ j = .string s := by
  cases j with
  | string t =>
    rw [Kind.stringField, Except.ok.injEq, Json.string.injEq]
  | _ => exact ⟨nofun, nofun⟩

/-- Only a natural number will do as a natural number. -/
theorem Entity.naturalField_eq_ok_iff {j : Json} {n : Nat} :
    Entity.naturalField j = .ok n ↔ j = .integer n := by
  unfold Entity.naturalField
  split
  · rw [Except.ok.injEq, Json.integer.injEq, Int.ofNat_eq_natCast, Int.natCast_inj]
  · rename_i hother
    exact ⟨nofun, fun h => absurd h (hother n)⟩

/-- A string is read where the value is one. -/
theorem decodes_readText (room : Nat) : Decodes (readValue room) Kind.stringField readText := by
  intro cs s rest
  simp only [Kind.stringField_eq_ok_iff, exists_eq_right, readValue_eq_ok_iff,
    Json.ahead_string_iff]
  unfold readText
  split
  · rename_i behind hquote
    rw [Json.map_eq_ok_iff, hquote]
    constructor
    · rintro ⟨t, ht, rfl⟩
      exact ⟨behind, t, rfl, ht, rfl⟩
    · rintro ⟨behind', t, hbehind, ht, rfl⟩
      obtain rfl := (List.cons.inj hbehind).2
      exact ⟨t, ht, rfl⟩
  · rename_i hother
    refine ⟨nofun, ?_⟩
    rintro ⟨behind, t, hquote, -, -⟩
    exact absurd hquote (hother behind)

/-- A natural number is read where the value is one. -/
theorem decodes_readNatural (room : Nat) :
    Decodes (readValue room) Entity.naturalField readNatural := by
  intro cs n rest
  simp only [Entity.naturalField_eq_ok_iff, exists_eq_right, readValue_eq_ok_iff,
    Json.ahead_integer_iff]
  unfold readNatural
  split
  · rename_i hnil
    simp [hnil]
  · rename_i c behind hcons
    split
    · rename_i hc
      rw [bind_eq_ok_iff, hcons]
      constructor
      · rintro ⟨⟨j, mid⟩, hj, h⟩
        split at h
        · rename_i heq
          obtain ⟨rfl, rfl⟩ := Prod.mk.inj heq
          obtain ⟨rfl, rfl⟩ := Prod.mk.inj (pure_eq_ok_iff.mp h)
          exact ⟨c, behind, rfl, hc, hj⟩
        · exact absurd h nofun
      · rintro ⟨c', behind', hbehind, -, h⟩
        obtain ⟨rfl, rfl⟩ := List.cons.inj hbehind
        exact ⟨_, h, rfl⟩
    · rename_i hc
      refine ⟨nofun, ?_⟩
      rintro ⟨c', behind', hbehind, hc', -⟩
      obtain ⟨rfl, rfl⟩ := List.cons.inj (hcons.symm.trans hbehind)
      exact absurd hc' hc

/-! ## Entities -/

namespace Entity

/-- A member of an entity is read where its value is. -/
theorem decodesMember_take (room : Nat) :
    DecodesMember (readValue room) Draft.take (readMember room) := by
  intro s key cs s' rest
  unfold readMember Draft.take
  split
  · split
    · exact ⟨nofun, fun ⟨_, _, h⟩ => absurd h nofun⟩
    · exact (decodes_readNatural room).field fun n => { s with offset? := some n }
  · split
    · split
      · exact ⟨nofun, fun ⟨_, _, h⟩ => absurd h nofun⟩
      · exact (decodes_readNatural room).field fun n => { s with length? := some n }
    · -- Any other member is kept with its value.
      rw [bind_eq_ok_iff]
      constructor
      · rintro ⟨⟨others, mid⟩, hmember, h⟩
        obtain ⟨rfl, rfl⟩ := Prod.mk.inj (pure_eq_ok_iff.mp h)
        obtain ⟨j, hj, hothers⟩ := (Json.decodesMember_collect _ _ _ _ _ _).mp hmember
        obtain rfl := Except.ok.inj hothers
        exact ⟨j, hj, rfl⟩
      · rintro ⟨j, hj, h⟩
        obtain rfl := Except.ok.inj h
        exact ⟨(s.others ++ [(key, j)], rest),
          (Json.decodesMember_collect _ _ _ _ _ _).mpr ⟨j, hj, rfl⟩, rfl⟩

/-- An entity is the value of an object. -/
theorem ofJson_eq_ok_iff {j : Json} {e : Entity} :
    ofJson j = .ok e ↔
      ∃ ms, j = .object ms ∧ ∃ s, ms.foldlM Draft.take {} = .ok s ∧ ofDraft s = .ok e := by
  cases j with
  | object ms =>
    rw [ofJson, bind_eq_ok_iff]
    constructor
    · exact fun h => ⟨ms, rfl, h⟩
    · rintro ⟨ms', hms, h⟩
      rwa [Json.object.inj hms]
  | _ => exact ⟨nofun, nofun⟩

/-- An entity is read where its value is. -/
theorem decodes_read (room : Nat) : Decodes (readValue (room + 1)) ofJson (read (room + 1)) := by
  intro cs e rest
  have hobject := (decodesMember_take room).readObject true {}
  simp only [readValue_eq_ok_iff, ofJson_eq_ok_iff]
  unfold read
  split
  · rename_i behind hbrace
    rw [Json.finish_eq_ok_iff, hbrace]
    constructor
    · rintro ⟨s, hs, he⟩
      obtain ⟨ms, hms, hfold⟩ := (hobject _ _ _).mp hs
      exact ⟨_, .object hms, ms, rfl, s, hfold, he⟩
    · rintro ⟨j, hj, ms, rfl, s, hfold, he⟩
      obtain ⟨behind', hbehind, hms⟩ := Json.ahead_object_iff.mp hj
      obtain rfl := (List.cons.inj hbehind).2
      exact ⟨s, (hobject _ _ _).mpr ⟨ms, hms, hfold⟩, he⟩
  · rename_i hother
    refine ⟨nofun, ?_⟩
    rintro ⟨j, hj, ms, rfl, -⟩
    obtain ⟨behind, hbrace, -⟩ := Json.ahead_object_iff.mp hj
    exact absurd hbrace (hother behind)

/-- The document of an entity has values only, of which the entity is made. -/
theorem ofDocument?_eq_ok_iff {text : String} {e : Entity} :
    ofDocument? text = .ok e ↔
      ∃ ms, members? text = .ok (ms.map valued) ∧ ofJson (.object ms) = .ok e := by
  have hdecodes : Decodes (readValue Json.maxDepth) ofJson (read Json.maxDepth) :=
    decodes_read (Json.maxDepth - 1)
  simp only [Json.members?_eq_ok_map_valued_iff]
  unfold ofDocument?
  rw [hdecodes.readAll]
  constructor
  · rintro ⟨j, hj, he⟩
    obtain ⟨ms, rfl, -⟩ := ofJson_eq_ok_iff.mp he
    exact ⟨ms, hj, he⟩
  · rintro ⟨ms, hms, he⟩
    exact ⟨.object ms, hms, he⟩

end Entity

/-! ## Messages -/

namespace Message

/-- The entities that a field must hold. -/
def entitiesField : Json → Except Fault (List Entity)
  | .array js => js.mapM Entity.ofJson
  | _ => .error .mismatched

/-- Entities are read where the value is an array of them. -/
theorem decodes_readEntities :
    Decodes (readValue (Json.maxDepth - 1)) entitiesField readEntities := by
  intro cs es rest
  have hfield {j : Json} :
      entitiesField j = .ok es ↔ ∃ js, j = .array js ∧ js.mapM Entity.ofJson = .ok es := by
    cases j with
    | array js =>
      constructor
      · exact fun h => ⟨js, rfl, h⟩
      · rintro ⟨js', hjs, h⟩
        rwa [Json.array.inj hjs]
    | _ => exact ⟨nofun, nofun⟩
  have harray := (Entity.decodes_read (Json.maxDepth - 3)).readArray
  simp only [hfield, readValue_eq_ok_iff]
  unfold readEntities
  split
  · rename_i behind hbracket
    rw [hbracket]
    constructor
    · intro h
      obtain ⟨js, hjs, hes⟩ := (harray behind es rest).mp h
      exact ⟨_, .array hjs, js, rfl, hes⟩
    · rintro ⟨j, hj, js, rfl, hes⟩
      obtain ⟨behind', hbehind, hjs⟩ := Json.ahead_array_iff.mp hj
      obtain rfl := (List.cons.inj hbehind).2
      exact (harray behind es rest).mpr ⟨js, hjs, hes⟩
  · rename_i hother
    refine ⟨nofun, ?_⟩
    rintro ⟨j, hj, js, rfl, -⟩
    obtain ⟨behind, hbracket, -⟩ := Json.ahead_array_iff.mp hj
    exact absurd hbracket (hother behind)

/-- What a member adds to what has been read of the document of a message. If nothing is wanted of
it, it need not have a value. -/
def Draft.take? (s : Draft) (m : String × Option Json) : Except Fault Draft :=
  if m.1 = "text" ∨ m.1 = "entities" then wanted (fun j => s.take (m.1, j)) m.2 else .ok s

/-- A text is added once. -/
theorem Draft.take?_text (s : Draft) (o : Option Json) :
    s.take? ("text", o) =
      if s.text?.isSome then .error .mismatched
      else do return { s with text? := some (← wanted Kind.stringField o) } := by
  unfold take?
  rw [if_pos (.inl rfl)]
  cases o with
  | none => exact (ite_self (Except.error Fault.mismatched)).symm
  | some j => rfl

/-- Entities are added once. -/
theorem Draft.take?_entities (s : Draft) (o : Option Json) :
    s.take? ("entities", o) =
      if s.entities?.isSome then .error .mismatched
      else do return { s with entities? := some (← wanted entitiesField o) } := by
  unfold take?
  rw [if_pos (.inr rfl)]
  cases o with
  | none => exact (ite_self (Except.error Fault.mismatched)).symm
  | some j => cases j <;> rfl

/-- Nothing else is added. -/
theorem Draft.take?_other (s : Draft) {key : String} (htext : key ≠ "text")
    (hentities : key ≠ "entities") (o : Option Json) : s.take? (key, o) = .ok s :=
  if_neg (not_or.mpr ⟨htext, hentities⟩)

/-- A member of a message is read where its value is, if one is wanted. -/
theorem decodesMember_take? :
    DecodesMember (Json.readAny (Json.maxDepth - 1)) Draft.take? readMember := by
  intro s key cs s' rest
  unfold readMember
  split
  · rename_i hkey
    simp only [hkey, Draft.take?_text]
    split
    · exact ⟨nofun, fun ⟨_, _, h⟩ => absurd h nofun⟩
    · exact (decodes_readText _).readAny.field fun text => { s with text? := some text }
  · split
    · rename_i hkey
      simp only [hkey, Draft.take?_entities]
      split
      · exact ⟨nofun, fun ⟨_, _, h⟩ => absurd h nofun⟩
      · exact decodes_readEntities.readAny.field fun es => { s with entities? := some es }
    · -- Any other member is passed over.
      rename_i htext hentities
      simp only [Draft.take?_other s htext hentities, bind_eq_ok_iff, pure_eq_ok_iff, Prod.mk.injEq]
      constructor
      · rintro ⟨behind, hcolon, rest', hskip, rfl, rfl⟩
        obtain ⟨o, ho⟩ := Json.exists_readAny_iff.mpr hskip
        exact ⟨o, ⟨behind, hcolon, ho⟩, rfl⟩
      · rintro ⟨o, ⟨behind, hcolon, ho⟩, h⟩
        exact ⟨behind, hcolon, rest, Json.exists_readAny_iff.mp ⟨o, ho⟩, Except.ok.inj h, rfl⟩

/-- A message is made of the members of its document. -/
theorem ofDocument?_eq_ok_iff {text : String} {ms : List (String × Option Json)} {m : Message}
    (hms : members? text = .ok ms) :
    ofDocument? text = .ok m ↔ ∃ s, ms.foldlM Draft.take? {} = .ok s ∧ ofDraft s = .ok m := by
  obtain ⟨rest, hfields, hblank⟩ := Json.readAll_eq_ok_iff.mp hms
  obtain ⟨behind, hbrace, hread⟩ := Json.readFields_eq_ok_iff.mp hfields
  have hobject := decodesMember_take?.readObject true {}
  unfold ofDocument?
  rw [Json.readAll_eq_ok_iff]
  unfold read
  rw [hbrace]
  simp only [Json.finish_eq_ok_iff, hobject behind _ _]
  constructor
  · rintro ⟨rest', ⟨s, ⟨ms', hread', hfold⟩, hs⟩, -⟩
    obtain ⟨rfl, rfl⟩ := Prod.mk.inj (Except.ok.inj (hread.symm.trans hread'))
    exact ⟨s, hfold, hs⟩
  · rintro ⟨s, hfold, hs⟩
    exact ⟨rest, ⟨s, ⟨ms, hread, hfold⟩, hs⟩, hblank⟩

end Message

end MessageMarkup
