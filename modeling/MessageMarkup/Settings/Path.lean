import MessageMarkup.Integer64
import MessageMarkup.Settings.Value

/-!
# Paths to settings

A path names a place in a tree of settings: a key, then keys after dots and list indices in
brackets, as in `markdown.delimiters[0].marker`. Keys are made of letters, digits, spaces, hyphens
and low lines. An index below zero counts from the end of the list.
-/

namespace MessageMarkup.Settings

/-- One step of a path. -/
inductive Step where
  /-- To the value of a key. -/
  | key (name : String)
  /-- To an item of a list. -/
  | index (i : Int)
  deriving DecidableEq, Repr, Inhabited

/-- The way to a place in a tree of settings. -/
structure Path where
  /-- The key at the root. -/
  root : String
  /-- The steps from there on. -/
  steps : List Step
  deriving DecidableEq, Repr, Inhabited

namespace Path

/-! ## Reading -/

/-- Whether a character may stand in a key. -/
def isKeyChar (c : Char) : Bool :=
  c.isAlphanum || c == ' ' || c == '_' || c == '-'

/-- The key that a text starts with, and the rest. -/
def readKey? (cs : List Char) : Option (String × List Char) :=
  match cs.span isKeyChar with
  | ([], _) => none
  | (key, cs) => some (String.ofList key, cs)

/-- The text after the blanks at its start. -/
def afterBlanks (cs : List Char) : List Char :=
  cs.dropWhile fun c => c == ' ' || c == '\t'

/-- An index of 64 bits and the bracket that closes it. -/
def readIndex? (cs : List Char) : Option (Int × List Char) :=
  let (negative, cs) := match afterBlanks cs with
    | '-' :: cs => (true, cs)
    | cs => (false, cs)
  let (digits, cs) := cs.span Char.isDigit
  let n := digits.foldl (fun n c => 10 * n + (c.toNat - '0'.toNat)) 0
  match digits, afterBlanks cs with
  | _ :: _, ']' :: cs => (Integer64.signed? negative n).map (·, cs)
  | _, _ => none

/-- The steps that a text writes, in at most so many of them. -/
def readSteps? : Nat → List Char → Option (List Step)
  | _, [] => some []
  | 0, _ => none
  | count + 1, '.' :: cs => do
    let (key, cs) ← readKey? cs
    return .key key :: (← readSteps? count cs)
  | count + 1, '[' :: cs => do
    let (i, cs) ← readIndex? cs
    return .index i :: (← readSteps? count cs)
  | _, _ => none

/-- The path that a text writes. -/
def read? (text : String) : Option Path := do
  let (root, cs) ← readKey? text.toList
  return { root, steps := ← readSteps? cs.length cs }

end Path

/-! ## Setting -/

namespace Value

/-- A list with its item at an index changed. Items that are missing before it are unset; an index
that is below zero and before the start makes room there. -/
def changeItem (i : Int) (change : Value → Value) (items : List Value) : List Value :=
  let n : Int := if i < 0 then items.length + i else i
  let items := List.replicate (-n).toNat unset ++ items
  let n := n.toNat
  let items := items ++ List.replicate (n + 1 - items.length) unset
  items.modify n change

/-- A value with another set where some steps lead from it. What stands in the way of a step is
replaced by an empty table or list. The last step lays the value over what a key has, and replaces
what a list item was. -/
def setAt (v : Value) : List Step → Value → Value
  | [], _ => v
  | [.key name], old => mergeAt (table old.entries) name v
  | .key name :: steps, old =>
    let small := smallLetters name
    table (put small (setAt v steps ((get? small old.entries).getD unset)) old.entries)
  | .index i :: steps, old => list (changeItem i (setAt v steps) old.items)

/-- A tree of settings with a value set at a path. -/
def setPath (root : Value) (p : Path) (v : Value) : Value :=
  setAt v (.key p.root :: p.steps) root

/-- A tree of settings with the entries of a source laid over it. A key at the root of a source may
be a path. -/
def overlay (root : Value) (source : List (String × Value)) : Value :=
  source.foldl (fun root (key, v) =>
    match Path.read? key with
    | some p => root.setPath p v
    | none => root.mergeAt key v) root

end Value

end MessageMarkup.Settings
