import MessageMarkup.Json.Lexeme

/-!
# Reading JSON

A document is read from left to right, and its first fault decides. `readItems` and `readMembers`
read what is between brackets and braces with a reader for the parts, so that a document of a known
form is checked against it while it is read. `readValue` reads any value and `skipValue` passes one
that is not wanted.

Values that are read may be nested in at most `maxDepth` arrays and objects; `room` says how many
more of them may be opened.
-/

namespace MessageMarkup.Json

/-- The number of arrays and objects that may be open at once. -/
def maxDepth : Nat := 127

/-! ## Arrays and objects -/

/-- Items with commas between them and the bracket that closes them; there is one at least. -/
def readItems {α : Type} (item : List Char → Except Fault (α × List Char)) :
    Nat → List Char → Except Fault (List α × List Char)
  | 0, _ => .error .truncated
  | steps + 1, cs => do
    let (x, cs) ← item cs
    match afterBlanks cs with
    | [] => .error .truncated
    | ']' :: cs => return ([x], cs)
    | ',' :: cs =>
      match afterBlanks cs with
      | ']' :: _ => .error .malformed
      | _ => do
        let (xs, cs) ← readItems item steps cs
        return (x :: xs, cs)
    | _ => .error .malformed

/-- An array, after its opening bracket. -/
def readArray {α : Type} (item : List Char → Except Fault (α × List Char)) (cs : List Char) :
    Except Fault (List α × List Char) :=
  match afterBlanks cs with
  | [] => .error .truncated
  | ']' :: cs => .ok ([], cs)
  | _ => readItems item cs.length cs

/-- The text after the colon behind a key. -/
def afterColon (cs : List Char) : Except Fault (List Char) :=
  match afterBlanks cs with
  | [] => .error .truncated
  | ':' :: cs => .ok cs
  | _ => .error .malformed

/-- A key. -/
def readKey (strict : Bool) (cs : List Char) : Except Fault (String × List Char) :=
  match afterBlanks cs with
  | [] => .error .truncated
  | '"' :: cs => (readString strict cs).map fun (key, cs) => (String.ofList key, cs)
  | _ => .error .malformed

/-- Members with commas between them and the brace that closes them; there is one at least. The
reader of a member is given its key and starts at the colon. -/
def readMembers {σ : Type} (strict : Bool)
    (member : σ → String → List Char → Except Fault (σ × List Char)) :
    Nat → σ → List Char → Except Fault (σ × List Char)
  | 0, _, _ => .error .truncated
  | steps + 1, s, cs => do
    let (key, cs) ← readKey strict cs
    let (s, cs) ← member s key cs
    match afterBlanks cs with
    | [] => .error .truncated
    | '}' :: cs => return (s, cs)
    | ',' :: cs => readMembers strict member steps s cs
    | _ => .error .malformed

/-- An object, after its opening brace. -/
def readObject {σ : Type} (strict : Bool)
    (member : σ → String → List Char → Except Fault (σ × List Char)) (s : σ) (cs : List Char) :
    Except Fault (σ × List Char) :=
  match afterBlanks cs with
  | [] => .error .truncated
  | '}' :: cs => .ok (s, cs)
  | _ => readMembers strict member cs.length s cs

/-! ## Values -/

/-- A member of an object of values, added to those before it. -/
def readMember (value : List Char → Except Fault (Json × List Char)) (ms : List (String × Json))
    (key : String) (cs : List Char) : Except Fault (List (String × Json) × List Char) := do
  let (j, cs) ← value (← afterColon cs)
  return (ms ++ [(key, j)], cs)

/-- Any value, in which so many arrays and objects may be open at once. -/
def readValue (room : Nat) (cs : List Char) : Except Fault (Json × List Char) :=
  match afterBlanks cs with
  | [] => .error .truncated
  | 'n' :: cs => (readWord ['u', 'l', 'l'] cs).map (.null, ·)
  | 't' :: cs => (readWord ['r', 'u', 'e'] cs).map (.bool true, ·)
  | 'f' :: cs => (readWord ['a', 'l', 's', 'e'] cs).map (.bool false, ·)
  | '"' :: cs => (readString true cs).map fun (s, cs) => (.string (String.ofList s), cs)
  | '[' :: cs =>
    match room with
    | 0 => .error .malformed
    | room + 1 => (readArray (readValue room) cs).map fun (js, cs) => (.array js, cs)
  | '{' :: cs =>
    match room with
    | 0 => .error .malformed
    | room + 1 =>
      (readObject true (readMember (readValue room)) [] cs).map fun (ms, cs) => (.object ms, cs)
  | c :: cs => if c == '-' || c.isDigit then readNumber (c :: cs) else .error .malformed

/-- The text after a value that is not wanted. -/
def skipNested (room : Nat) (cs : List Char) : Except Fault (Unit × List Char) :=
  match afterBlanks cs with
  | [] => .error .truncated
  | 'n' :: cs => (readWord ['u', 'l', 'l'] cs).map ((), ·)
  | 't' :: cs => (readWord ['r', 'u', 'e'] cs).map ((), ·)
  | 'f' :: cs => (readWord ['a', 'l', 's', 'e'] cs).map ((), ·)
  | '"' :: cs => (readString false cs).map fun (_, cs) => ((), cs)
  | '[' :: cs =>
    match room with
    | 0 => .error .truncated
    | room + 1 => (readArray (skipNested room) cs).map fun (_, cs) => ((), cs)
  | '{' :: cs =>
    match room with
    | 0 => .error .truncated
    | room + 1 => readObject false (fun _ _ cs => do skipNested room (← afterColon cs)) () cs
  | c :: cs =>
    if c == '-' || c.isDigit then (readNumeral false (c :: cs)).map fun (_, cs) => ((), cs)
    else .error .malformed

/-- The text after a value that is not wanted, however deep it is nested: there is room for as many
arrays and objects as the text has characters. -/
def skipValue (cs : List Char) : Except Fault (List Char) :=
  (skipNested cs.length cs).map (·.2)

/-! ## Values of a known form -/

/-- What is wrong where a value of another kind is wanted: a string, number or word that does not
end well, or else the kind. -/
def mismatch (cs : List Char) : Fault :=
  match afterBlanks cs with
  | '[' :: _ | '{' :: _ => .mismatched
  | cs =>
    match readValue 0 cs with
    | .ok _ => .mismatched
    | .error fault => fault

/-- A string. -/
def readText (cs : List Char) : Except Fault (String × List Char) :=
  match afterBlanks cs with
  | '"' :: cs => (readString true cs).map fun (s, cs) => (String.ofList s, cs)
  | cs => .error (mismatch cs)

/-- An unsigned integer of 64 bits. -/
def readNatural (cs : List Char) : Except Fault (Nat × List Char) :=
  match afterBlanks cs with
  | [] => .error .truncated
  | c :: cs =>
    if c == '-' || c.isDigit then do
      match ← readNumber (c :: cs) with
      | (.integer (.ofNat n), cs) => return (n, cs)
      | _ => .error .mismatched
    else .error (mismatch (c :: cs))

/-- What a reader makes of a text, of which it must leave no more than white space. -/
def readAll {α : Type} (reader : List Char → Except Fault (α × List Char)) (text : String) :
    Except Fault α := do
  let (a, cs) ← reader text.toList
  if afterBlanks cs = [] then return a else .error .malformed

end MessageMarkup.Json
