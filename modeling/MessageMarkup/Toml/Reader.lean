import MessageMarkup.Toml.Tree

/-!
# Reading TOML

A TOML text is read line by line: headers open tables, and keys get values in the table that the
last header has opened. Lists may extend over several lines, inline tables may not. Values may be
nested in at most `maxDepth` lists and inline tables.
-/

namespace MessageMarkup.Toml

open Settings (Value)

/-- The number of lists and inline tables that may be open at once. -/
def maxDepth : Nat := 79

/-! ## Values -/

/-- The items of a list and the bracket that closes it, in at most so many steps. A comma may follow
the last one. -/
def readItems (item : List Char → Except Fault (Value × List Char)) :
    Nat → List Char → Except Fault (List Value × List Char)
  | 0, _ => .error .badSequence
  | steps + 1, cs => do
    match ← afterFiller cs.length cs with
    | ']' :: cs => return ([], cs)
    | cs =>
      let (v, cs) ← item cs
      match ← afterFiller cs.length cs with
      | ',' :: cs => do
        let (vs, cs) ← readItems item steps cs
        return (v :: vs, cs)
      | ']' :: cs => return ([v], cs)
      | _ => .error .badSequence

/-- The keys and the value of one entry, with the blanks around them. -/
def readEntry (value : List Char → Except Fault (Value × List Char)) (cs : List Char) :
    Except Fault ((List String × Value) × List Char) := do
  let (keys, cs) ← readKeys (maxKeys - 1) cs
  match cs with
  | '=' :: cs =>
    let (v, cs) ← value (afterBlanks cs)
    return ((keys, v), afterBlanks cs)
  | _ => .error .badKey

/-- The entries of an inline table and the brace that closes it, in at most so many steps; there is
one at least. -/
def readEntries (value : List Char → Except Fault (Value × List Char)) :
    Nat → Table → List Char → Except Fault (Table × List Char)
  | 0, _, _ => .error .badSequence
  | steps + 1, t, cs => do
    let ((keys, v), cs) ← readEntry value cs
    let t ← t.addDotted keys v
    match cs with
    | ',' :: cs => readEntries value steps t cs
    | '}' :: cs => return (t, cs)
    | _ => .error .badSequence

/-- A value, in which so many lists and inline tables may be open at once. -/
def readValue (room : Nat) (cs : List Char) : Except Fault (Value × List Char) :=
  match readString? true cs with
  | some result => result.map fun (s, cs) => (.text s, cs)
  | none =>
    match cs with
    | '[' :: cs =>
      match room with
      | 0 => .error .tooDeep
      | room + 1 => (readItems (readValue room) cs.length cs).map fun (vs, cs) => (.list vs, cs)
    | '{' :: cs =>
      match room with
      | 0 => .error .tooDeep
      | room + 1 =>
        match afterBlanks cs with
        | '}' :: cs => .ok (.table [], cs)
        | _ =>
          (readEntries (readValue room) cs.length {} cs).map fun (t, cs) =>
            (.table (entryValues t.entries), cs)
    | cs =>
      let (word, cs) := readWord cs
      (wordValue word).map (·, cs)

/-! ## Lines -/

/-- What has been read of a text. -/
structure Progress where
  /-- The tree so far. -/
  root : Table := {}
  /-- The keys of the last header. -/
  header : List String := []

/-- A header, after its brackets; `list` if it opens one more table of a list. -/
def readHeader (list : Bool) (s : Progress) (cs : List Char) :
    Except Fault (Progress × List Char) := do
  let (keys, cs) ← readKeys (maxKeys - 1) cs
  let cs ← match list, cs with
    | false, ']' :: cs | true, ']' :: ']' :: cs => .ok cs
    | _, _ => .error .badKey
  return ({ root := ← s.root.openHeader list keys, header := keys }, ← afterLine cs)

/-- One line. -/
def readLine (s : Progress) (cs : List Char) : Except Fault (Progress × List Char) :=
  match cs with
  | '[' :: '[' :: cs => readHeader true s cs
  | '[' :: cs => readHeader false s cs
  | cs => do
    let ((keys, v), cs) ← readEntry (readValue maxDepth) cs
    let root ← s.root.change false (Table.addDotted keys v) s.header
    return ({ s with root }, ← afterLine cs)

/-- The tree after all lines, in at most so many steps. -/
def readLines : Nat → Progress → List Char → Except Fault Table
  | 0, s, _ => .ok s.root
  | steps + 1, s, cs =>
    match afterComment (afterBlanks cs) with
    | [] => .ok s.root
    | '\n' :: cs | '\r' :: '\n' :: cs => readLines steps s cs
    | rest =>
      if (afterBlanks cs).head? = some '#' then .error .badLine
      else do
        let (s, cs) ← readLine s rest
        readLines steps s cs

/-- The entries of the table that a text writes. A byte order mark may come before it. -/
def read (text : String) : Except Fault (List (String × Value)) := do
  let cs := match text.toList with
    | [] => []
    | c :: cs => if c.toNat = 0xFEFF then cs else c :: cs
  let root ← readLines (cs.length + 1) {} cs
  return entryValues root.entries

end MessageMarkup.Toml
