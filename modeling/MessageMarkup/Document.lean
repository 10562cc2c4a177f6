import MessageMarkup.Entity
import MessageMarkup.Json.Printer
import MessageMarkup.Json.Reader

/-!
# Messages as JSON documents

A message is an object with a text and a list of entities, and an entity is a flat object: its
offset, its length, the name of its kind as `type`, and what that kind needs besides.

`Message.render` writes the document of a message and `Message.ofDocument?` reads one. Fields may
stand in any order; those that a document does not need are passed over, but must be JSON.
-/

namespace MessageMarkup

open Json (Fault readObject readArray readValue afterColon afterBlanks readText readNatural)

/-! ## Writing -/

/-- The name of a kind in documents. -/
def Kind.name : Kind → String
  | bold => "bold"
  | italic => "italic"
  | underline => "underline"
  | strikethrough => "strikethrough"
  | spoiler => "spoiler"
  | code => "code"
  | pre _ => "pre"
  | textUrl _ => "text_url"
  | mentionName _ => "mention_name"

/-- The field that a kind has besides its name. -/
def Kind.fields : Kind → List (String × Json)
  | pre language => [("language", .string language)]
  | textUrl url => [("url", .string url)]
  | mentionName user => [("user_id", .integer user.toInt)]
  | _ => []

/-- The fields of a kind. -/
def Kind.members (k : Kind) : List (String × Json) :=
  ("type", .string k.name) :: k.fields

/-- The document of an entity. -/
def Entity.toJson (e : Entity) : Json :=
  .object (("offset", .integer e.offset) :: ("length", .integer e.length) :: e.kind.members)

/-- The document of a message. -/
def Message.toJson (m : Message) : Json :=
  .object [("text", .string m.text), ("entities", .array (m.entities.map Entity.toJson))]

/-- The text of the document of a message, on one line or over several. -/
def Message.render (pretty : Bool) (m : Message) : String :=
  String.ofList ((if pretty then m.toJson.pretty else m.toJson.compact) ++ ['\n'])

/-! ## Kinds -/

namespace Kind

/-- What the name of a kind says, before its own field is known. -/
inductive Tag where
  /-- A kind without a field. -/
  | plain (kind : Kind)
  | pre
  | textUrl
  | mentionName
  deriving DecidableEq, Repr, Inhabited

/-- The tags with their names, in the order in which documents number them. -/
def tags : List (String × Tag) :=
  [("bold", .plain .bold), ("italic", .plain .italic), ("underline", .plain .underline),
    ("strikethrough", .plain .strikethrough), ("spoiler", .plain .spoiler),
    ("code", .plain .code), ("pre", .pre), ("text_url", .textUrl),
    ("mention_name", .mentionName)]

/-- The tag of a name. -/
def tagOfName (name : String) : Except Fault Tag :=
  match tags.find? (·.1 == name) with
  | some (_, tag) => .ok tag
  | none => .error .mismatched

/-- The tag that a value names or numbers. -/
def tagOfJson : Json → Except Fault Tag
  | .string name => tagOfName name
  | .integer (.ofNat n) =>
    match tags[n]? with
    | some (_, tag) => .ok tag
    | none => .error .mismatched
  | _ => .error .mismatched

/-- The string that a field must hold. -/
def stringField : Json → Except Fault String
  | .string s => .ok s
  | _ => .error .mismatched

/-- The user that a field must hold: a signed integer of 64 bits. -/
def userField : Json → Except Fault Int64
  | .integer n =>
    if Int64.minValue.toInt ≤ n ∧ n ≤ Int64.maxValue.toInt then .ok (Int64.ofInt n)
    else .error .mismatched
  | _ => .error .mismatched

/-- The value of a field that may be missing, but not repeated. -/
def field? (members : List (String × Json)) (name : String) : Except Fault (Option Json) :=
  match members.filter (·.1 == name) with
  | [] => .ok none
  | [(_, j)] => .ok (some j)
  | _ => .error .mismatched

/-- The value of a field that must be there. -/
def field (members : List (String × Json)) (name : String) : Except Fault Json := do
  match ← field? members name with
  | some j => return j
  | none => .error .mismatched

/-- The kind of a tag, with its field among some members. -/
def ofMembers (members : List (String × Json)) : Tag → Except Fault Kind
  | .plain kind => .ok kind
  | .pre => do
    match ← field? members "language" with
    | some j => return .pre (← stringField j)
    | none => return .pre ""
  | .textUrl => do return .textUrl (← stringField (← field members "url"))
  | .mentionName => do return .mentionName (← userField (← field members "user_id"))

/-- The kind of a tag, with its field as the only one of some items. -/
def ofItems : Tag → List Json → Except Fault Kind
  | .plain kind, [] => .ok kind
  | .pre, [] => .ok (.pre "")
  | .pre, [j] => do return .pre (← stringField j)
  | .textUrl, [j] => do return .textUrl (← stringField j)
  | .mentionName, [j] => do return .mentionName (← userField j)
  | _, _ => .error .mismatched

/-- A tag by its name. -/
def readTag (cs : List Char) : Except Fault (Tag × List Char) := do
  let (name, cs) ← readText cs
  return (← tagOfName name, cs)

/-- A member of the document of a kind. -/
def readMember (room : Nat) (s : Option Tag × List (String × Json)) (key : String)
    (cs : List Char) : Except Fault ((Option Tag × List (String × Json)) × List Char) :=
  if key = "type" then
    if s.1.isSome then .error .mismatched
    else do
      let (tag, cs) ← readTag (← afterColon cs)
      return ((some tag, s.2), cs)
  else do
    let (ms, cs) ← Json.readMember (readValue room) s.2 key cs
    return ((s.1, ms), cs)

/-- The items behind the tag of a kind that is an array. -/
def readFurther (room : Nat) (cs : List Char) : Except Fault (List Json × List Char) :=
  match afterBlanks cs with
  | [] => .error .truncated
  | ']' :: cs => .ok ([], cs)
  | ',' :: cs =>
    match afterBlanks cs with
    | ']' :: _ => .error .malformed
    | _ => Json.readItems (readValue room) cs.length cs
  | _ => .error .malformed

/-- A kind: an object, or an array of its tag and its field. -/
def read (cs : List Char) : Except Fault (Kind × List Char) :=
  match afterBlanks cs with
  | '{' :: cs => do
    let ((tag?, ms), cs) ← readObject true (readMember (Json.maxDepth - 1)) (none, []) cs
    match tag? with
    | some tag => return (← ofMembers ms tag, cs)
    | none => .error .mismatched
  | '[' :: cs =>
    match afterBlanks cs with
    | ']' :: _ => .error .mismatched
    | _ => do
      let (tag, cs) ← readTag cs
      let (js, cs) ← readFurther (Json.maxDepth - 1) cs
      return (← ofItems tag js, cs)
  | cs => .error (Json.mismatch cs)

/-- The kind of a document. -/
def ofDocument? (text : String) : Except Fault Kind :=
  Json.readAll read text

end Kind

/-! ## Entities -/

namespace Entity

/-- What has been read of the document of an entity. -/
structure Draft where
  /-- The offset. -/
  offset? : Option Nat := none
  /-- The length. -/
  length? : Option Nat := none
  /-- All other fields. -/
  others : List (String × Json) := []

/-- A member of the document of an entity. -/
def readMember (room : Nat) (s : Draft) (key : String) (cs : List Char) :
    Except Fault (Draft × List Char) :=
  if key = "offset" then
    if s.offset?.isSome then .error .mismatched
    else do
      let (n, cs) ← readNatural (← afterColon cs)
      return ({ s with offset? := some n }, cs)
  else if key = "length" then
    if s.length?.isSome then .error .mismatched
    else do
      let (n, cs) ← readNatural (← afterColon cs)
      return ({ s with length? := some n }, cs)
  else do
    let (others, cs) ← Json.readMember (readValue room) s.others key cs
    return ({ s with others }, cs)

/-- The entity of a document that has been read. -/
def ofDraft (s : Draft) : Except Fault Entity :=
  match s.offset?, s.length? with
  | some offset, some length => do
    let tag ← Kind.tagOfJson (← Kind.field s.others "type")
    return { offset, length, kind := ← Kind.ofMembers s.others tag }
  | _, _ => .error .mismatched

/-- An entity; `room` counts the arrays and objects that may be opened, its own object included. -/
def read (room : Nat) (cs : List Char) : Except Fault (Entity × List Char) :=
  match afterBlanks cs with
  | '{' :: cs => do
    let (s, cs) ← readObject true (readMember (room - 1)) {} cs
    return (← ofDraft s, cs)
  | cs => .error (Json.mismatch cs)

/-- The entity of a document. -/
def ofDocument? (text : String) : Except Fault Entity :=
  Json.readAll (read Json.maxDepth) text

end Entity

/-! ## Messages -/

namespace Message

/-- What has been read of the document of a message. -/
structure Draft where
  /-- The text. -/
  text? : Option String := none
  /-- The entities. -/
  entities? : Option (List Entity) := none

/-- A list of entities. -/
def readEntities (cs : List Char) : Except Fault (List Entity × List Char) :=
  match afterBlanks cs with
  | '[' :: cs => readArray (Entity.read (Json.maxDepth - 2)) cs
  | cs => .error (Json.mismatch cs)

/-- A member of the document of a message. -/
def readMember (s : Draft) (key : String) (cs : List Char) : Except Fault (Draft × List Char) :=
  if key = "text" then
    if s.text?.isSome then .error .mismatched
    else do
      let (text, cs) ← readText (← afterColon cs)
      return ({ s with text? := some text }, cs)
  else if key = "entities" then
    if s.entities?.isSome then .error .mismatched
    else do
      let (entities, cs) ← readEntities (← afterColon cs)
      return ({ s with entities? := some entities }, cs)
  else do return (s, ← Json.skipValue (← afterColon cs))

/-- The message of a document that has been read; there need not be entities. -/
def ofDraft (s : Draft) : Except Fault Message :=
  match s.text? with
  | some text => .ok { text, entities := s.entities?.getD [] }
  | none => .error .mismatched

/-- The closing bracket of a message that is an array. -/
def readClose (m : Message) (cs : List Char) : Except Fault (Message × List Char) :=
  match afterBlanks cs with
  | [] => .error .truncated
  | ']' :: cs => .ok (m, cs)
  | _ => .error .malformed

/-- A message that is an array of its text and its entities, which need not be there. -/
def readFields (cs : List Char) : Except Fault (Message × List Char) :=
  match afterBlanks cs with
  | ']' :: _ => .error .mismatched
  | _ => do
    let (text, cs) ← readText cs
    match afterBlanks cs with
    | ',' :: cs =>
      match afterBlanks cs with
      | ']' :: _ => .error .malformed
      | _ => do
        let (entities, cs) ← readEntities cs
        readClose { text, entities } cs
    | cs => readClose { text } cs

/-- A message: an object, or an array of its fields. -/
def read (cs : List Char) : Except Fault (Message × List Char) :=
  match afterBlanks cs with
  | '{' :: cs => do
    let (s, cs) ← readObject true readMember {} cs
    return (← ofDraft s, cs)
  | '[' :: cs => readFields cs
  | cs => .error (Json.mismatch cs)

/-- The message of a document. -/
def ofDocument? (text : String) : Except Fault Message :=
  Json.readAll read text

end Message

end MessageMarkup
