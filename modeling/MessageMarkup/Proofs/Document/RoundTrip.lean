import MessageMarkup.Conversion
import MessageMarkup.Proofs.Document.Reading
import MessageMarkup.Proofs.Format.Shape

/-!
# Documents are read as what they were written for

The tree of an entity gives the entity, with every kind and all that a kind needs
(`Entity.ofJson_toJson`), and so does the tree of a message (`Message.ofJson_toJson`). Numbers must
have 64 bits, and then they are read as they were written: every document is read as the message
that it was written for, on one line or over several, and the document of some markup is turned back
into what the message of the markup is written as (`Message.ofDocument?_rendered`).
-/

namespace MessageMarkup

open Json (Fault IsScalar IsGap Rendered)

/-! ## Kinds -/

namespace Kind

/-- A user is read as it was written. -/
theorem userField_toInt (user : Int64) : userField (.integer user.toInt) = .ok user := by
  simp only [userField, user.minValue_le_toInt, user.toInt_le, and_self, if_true,
    Int64.ofInt_toInt]

/-- The members of a kind name a tag, with which they give the kind. -/
theorem exists_tag (k : Kind) :
    ∃ tag, field k.members "type" = .ok (.string k.name) ∧ tagOfJson (.string k.name) = .ok tag ∧
      ofMembers k.members tag = .ok k := by
  cases k with
  | pre language => exact ⟨.pre, rfl, rfl, rfl⟩
  | textUrl url => exact ⟨.textUrl, rfl, rfl, rfl⟩
  | mentionName user =>
    refine ⟨.mentionName, rfl, rfl, ?_⟩
    show (userField (.integer user.toInt)).map mentionName = _
    rw [userField_toInt]
    rfl
  | _ => exact ⟨.plain _, rfl, rfl, rfl⟩

/-- The members of a kind are scalars. -/
theorem isScalar_members (k : Kind) : ∀ m ∈ k.members, m.2.IsScalar := by
  intro m hm
  rcases List.mem_cons.mp hm with rfl | hm
  · exact .string _
  cases k with
  | pre language =>
    rw [List.mem_singleton.mp hm]
    exact .string _
  | textUrl url =>
    rw [List.mem_singleton.mp hm]
    exact .string _
  | mentionName user =>
    rw [List.mem_singleton.mp hm]
    have hmin := user.minValue_le_toInt
    have hmax := user.toInt_le
    exact .integer hmin (Int.le_trans hmax (by decide))
  | _ => exact absurd hm List.not_mem_nil

/-- None of them is called like a number of an entity. -/
theorem key_members (k : Kind) : ∀ m ∈ k.members, m.1 ≠ "offset" ∧ m.1 ≠ "length" := by
  cases k <;> simp [members, fields]

end Kind

/-! ## Entities -/

namespace Entity

/-- The offset and the length have 64 bits. -/
def InRange (e : Entity) : Prop :=
  e.offset ≤ Integer64.maxUnsigned ∧ e.length ≤ Integer64.maxUnsigned

instance (e : Entity) : Decidable e.InRange :=
  inferInstanceAs (Decidable (_ ∧ _))

/-- Members that are no numbers of an entity are kept in their order. -/
theorem foldlM_take {ms : List (String × Json)} (hms : ∀ m ∈ ms, m.1 ≠ "offset" ∧ m.1 ≠ "length")
    (s : Draft) : ms.foldlM Draft.take s = .ok { s with others := s.others ++ ms } := by
  induction ms generalizing s with
  | nil =>
    rw [List.append_nil]
    rfl
  | cons m ms ih =>
    obtain ⟨hoffset, hlength⟩ := hms m List.mem_cons_self
    have htake : Draft.take s m = .ok { s with others := s.others ++ [m] } := by
      unfold Draft.take
      rw [if_neg hoffset, if_neg hlength]
    rw [List.foldlM_cons, htake, Json.ok_bind, ih fun m' hm' => hms m' (List.mem_cons_of_mem m hm')]
    simp only [List.append_assoc, List.singleton_append]

/-- The tree of an entity gives the entity. -/
theorem ofJson_toJson (e : Entity) : ofJson e.toJson = .ok e := by
  have hoffset : Draft.take {} ("offset", .integer e.offset) = .ok { offset? := some e.offset } :=
    rfl
  have hlength : Draft.take { offset? := some e.offset } ("length", .integer e.length) =
      .ok { offset? := some e.offset, length? := some e.length } := rfl
  obtain ⟨tag, hfield, htag, hkind⟩ := e.kind.exists_tag
  unfold toJson ofJson
  simp only [List.foldlM_cons, hoffset, hlength, Json.ok_bind, foldlM_take e.kind.key_members,
    List.nil_append, ofDraft, hfield, htag, hkind]
  rfl

/-- The members of an entity with numbers of 64 bits are scalars. -/
theorem exists_members {e : Entity} (h : e.InRange) :
    ∃ ms, e.toJson = .object ms ∧ ∀ m ∈ ms, m.2.IsScalar := by
  have hnatural {n : Nat} (hn : n ≤ Integer64.maxUnsigned) : IsScalar (.integer n) :=
    .integer (by omega) (Int.ofNat_le.mpr hn)
  refine ⟨_, rfl, fun m hm => ?_⟩
  rcases List.mem_cons.mp hm with rfl | hm
  · exact hnatural h.1
  rcases List.mem_cons.mp hm with rfl | hm
  · exact hnatural h.2
  · exact e.kind.isScalar_members m hm

end Entity

/-! ## Messages -/

namespace Message

/-- The trees of entities give the entities. -/
theorem mapM_ofJson (es : List Entity) : (es.map Entity.toJson).mapM Entity.ofJson = .ok es := by
  induction es with
  | nil => rfl
  | cons e es ih =>
    rw [List.map_cons, List.mapM_cons, Entity.ofJson_toJson, Json.ok_bind, ih]
    rfl

/-- The tree of a message gives the message. -/
theorem ofJson_toJson (m : Message) : ofJson m.toJson = .ok m := by
  have htext : Draft.take {} ("text", .string m.text) = .ok { text? := some m.text } := rfl
  have hentities : Draft.take { text? := some m.text }
      ("entities", .array (m.entities.map Entity.toJson)) =
      .ok { text? := some m.text, entities? := some m.entities } := by
    have hkey : "entities" ≠ "text" := by decide
    unfold Draft.take
    simp only [hkey, if_false, if_true, mapM_ofJson]
    rfl
  unfold toJson ofJson
  simp only [List.foldlM_cons, htext, hentities, Json.ok_bind]
  rfl

/-- The members of a message with numbers of 64 bits are those that its document should have. -/
theorem exists_members {m : Message} (h : ∀ e ∈ m.entities, e.InRange) :
    ∃ ms, m.toJson = .object ms ∧ ∀ field ∈ ms, IsField field := by
  refine ⟨_, rfl, fun field hfield => ?_⟩
  rcases List.mem_cons.mp hfield with rfl | hfield
  · exact .text m.text
  · rw [List.mem_singleton.mp hfield]
    refine .entities fun j hj => ?_
    obtain ⟨e, he, rfl⟩ := List.mem_map.mp hj
    exact Entity.exists_members (h e he)

/-- Every text that is written for a message with numbers of 64 bits is read as the message, and
white space may follow it. -/
theorem ofDocument?_rendered {m : Message} (h : ∀ e ∈ m.entities, e.InRange) {cs ws : List Char}
    (hcs : Rendered m.toJson cs) (hws : IsGap ws) :
    ofDocument? (String.ofList (cs ++ ws)) = .ok m := by
  obtain ⟨ms, hms, hfields⟩ := exists_members h
  have hread := read_eq hfields Json.isGap_nil (hms ▸ hcs) ws
  unfold ofDocument? Json.readAll
  rw [String.toList_ofList, ← List.nil_append (cs ++ ws), hread, ← hms, ofJson_toJson]
  exact if_pos hws

/-- So is its document. -/
theorem ofDocument?_render {m : Message} (h : ∀ e ∈ m.entities, e.InRange) (pretty : Bool) :
    ofDocument? (m.render pretty) = .ok m := by
  have hnewline : IsGap ['\n'] := rfl
  unfold render
  cases pretty with
  | false => exact ofDocument?_rendered h (.onLine _) hnewline
  | true => exact ofDocument?_rendered h (.overLines 0 _) hnewline

end Message

/-! ## Markup -/

/-- What is read from markup is what is left of a message of some of its characters when that is
trimmed, or all of it, without entities. -/
theorem Format.exists_parse_eq (f : Format) (markup : String) :
    f.parse markup = { text := markup } ∨
      ∃ text es, text.Sublist markup.toList ∧
        f.parse markup = Message.trim { text := String.ofList text, entities := es } := by
  cases h : f.table.isEmpty with
  | true =>
    left
    unfold Format.parse Format.parseNoting parseWith
    rw [h, Bool.or_true, if_pos rfl]
  | false =>
    obtain ⟨text, hshows, hsub⟩ := (Scan.reachable_run f.table f.links markup).shows
    exact Or.inr ⟨text, _, hsub, Format.parse_eq_of_run h hshows.units_eq⟩

/-- The numbers of what is read from markup have 64 bits if the number of units of the markup
has. -/
theorem Format.inRange_parse (f : Format) {markup : String}
    (h : (Utf16.ofText markup).length ≤ Integer64.maxUnsigned) :
    ∀ e ∈ (f.parse markup).entities, e.InRange := by
  obtain hparse | ⟨text, es, hsub, hparse⟩ := f.exists_parse_eq markup
  · rw [hparse]
    exact fun e he => absurd he List.not_mem_nil
  · -- An entity is in what is left of the text.
    intro e' he'
    rw [hparse, Message.trim_ofList] at he'
    obtain ⟨e, -, hclip⟩ := List.mem_filterMap.mp he'
    obtain ⟨-, -, -, hstop⟩ := Entity.of_clip?_eq_some hclip
    have hkept : e'.stop ≤ Utf16.length (trimChars text) := by
      rw [hstop]
      exact Nat.min_le_right _ _
    obtain ⟨before, after, htext, -⟩ := exists_trimChars text
    have hpiece := congrArg Utf16.length htext
    rw [Utf16.length_append, Utf16.length_append] at hpiece
    have hle := Utf16.length_le_of_sublist hsub
    rw [Utf16.ofText, Utf16.length_encode] at h
    unfold Entity.stop at hkept
    constructor <;> omega

/-- The document of a message is read as the message, on one line and over several lines, whatever
its text, its kinds and their fields are, if its numbers have 64 bits. So the document of some
markup is turned back into what is written for the message of the markup; its numbers have 64 bits
because they count units of the markup, of which no more can be stored. -/
theorem Message.ofDocument?_toJson :
    (∀ m : Message, (∀ e ∈ m.entities, e.InRange) →
      ofDocument? (String.ofList m.toJson.compact) = .ok m ∧
        ofDocument? (String.ofList m.toJson.pretty) = .ok m) ∧
    ∀ (f : Format) (pretty : Bool) (markup : String),
      (Utf16.ofText markup).length ≤ Integer64.maxUnsigned →
        (f.renderUnparsed (f.renderParsed pretty markup).1).map (·.1) =
          .ok (f.unparse (f.parse markup)) := by
  refine ⟨fun m hm => ⟨?_, ?_⟩, fun f pretty markup hmarkup => ?_⟩
  · have hread := ofDocument?_rendered hm (.onLine m.toJson) Json.isGap_nil
    rwa [List.append_nil] at hread
  · have hread := ofDocument?_rendered hm (.overLines 0 m.toJson) Json.isGap_nil
    rwa [List.append_nil] at hread
  · have hread := ofDocument?_render (f.inRange_parse hmarkup) pretty
    unfold Format.renderUnparsed
    show ((ofDocument? ((f.parse markup).render pretty)).map f.unparseNoting).map (·.1) = _
    rw [hread]
    rfl

/-- All nine kinds, the greatest and the least numbers, and every way in which a character can be
written. -/
theorem Message.ofDocument?_toJson_kinds :
    let m : Message :=
      { text := "\"\\/\x00\x08\t\n\x0c\r\x1f\x7f👋"
        entities :=
          [⟨0, 18446744073709551615, .bold⟩, ⟨18446744073709551615, 0, .italic⟩, ⟨0, 1, .underline⟩,
            ⟨0, 2, .strikethrough⟩, ⟨3, 0, .spoiler⟩, ⟨3, 1, .code⟩, ⟨4, 1, .pre ""⟩,
            ⟨4, 1, .pre "\""⟩, ⟨5, 1, .textUrl "\\"⟩, ⟨6, 1, .mentionName Int64.minValue⟩,
            ⟨6, 2, .mentionName Int64.maxValue⟩] }
    let f : Format := {}
    let markup := "**a\x01** [\"👋\"](\\)"
    (∀ e ∈ m.entities, e.InRange) ∧
      ofDocument? (String.ofList m.toJson.compact) = .ok m ∧
      ofDocument? (String.ofList m.toJson.pretty) = .ok m ∧
      (Utf16.ofText markup).length ≤ Integer64.maxUnsigned ∧
      (f.parse markup).entities = [⟨0, 2, .bold⟩, ⟨3, 4, .textUrl "\\"⟩] ∧
      (f.renderUnparsed (f.renderParsed true markup).1).map (·.1) =
        .ok (f.unparse (f.parse markup)) := by
  intro m f markup
  have hm : ∀ e ∈ m.entities, e.InRange := by decide
  have hmarkup : (Utf16.ofText markup).length ≤ Integer64.maxUnsigned := by decide
  obtain ⟨hcompact, hpretty⟩ := Message.ofDocument?_toJson.1 m hm
  exact ⟨hm, hcompact, hpretty, hmarkup, by decide +kernel,
    Message.ofDocument?_toJson.2 f true markup hmarkup⟩

end MessageMarkup
