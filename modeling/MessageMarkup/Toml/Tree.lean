import MessageMarkup.Toml.Lexeme

/-!
# The tree of a TOML text

The tables of a TOML text come about piece by piece: a header opens a table, or one more table of a
list of tables, and makes tables for the keys before its last; a key with dots makes tables too.
Which of them may be added to later depends on how they came about, so the tree remembers it until
the text has been read.

A table may be opened by one header, after headers of tables inside it if need be. A table that a
key with dots has made takes more keys with dots at the same place, and nothing else. A value that
is written as a whole, an inline table or a list, takes nothing more.
-/

namespace MessageMarkup.Toml

open Settings (Value)

/-- How a table came about. -/
inductive Origin where
  /-- A header has opened it, or it is the whole text. -/
  | header
  /-- The header of a table inside it has made it. -/
  | inner
  /-- A key with dots has made it. -/
  | dotted
  deriving DecidableEq, Repr, Inhabited

/-- A value in a tree that is still growing. -/
inductive Node where
  /-- A value written as a whole. -/
  | value (v : Value)
  /-- A table. -/
  | table (origin : Origin) (entries : List (String × Node))
  /-- A list of tables that headers have opened. -/
  | tables (tables : List (List (String × Node)))
  deriving Inhabited

/-- A table of a tree that is still growing. -/
structure Table where
  /-- How it came about. -/
  origin : Origin := .header
  /-- What is in it. -/
  entries : List (String × Node) := []
  deriving Inhabited

namespace Table

/-- What a key has. -/
def get? (t : Table) (key : String) : Option Node :=
  (t.entries.find? (·.1 == key)).map (·.2)

/-- The table in which a key has a value. -/
def put (t : Table) (key : String) (n : Node) : Table :=
  if t.entries.any (·.1 == key) then
    { t with entries := t.entries.map fun (k, m) => if k == key then (k, n) else (k, m) }
  else { t with entries := t.entries ++ [(key, n)] }

/-- The table with a change made where some keys lead from it. Tables that are missing are made, and
a list of tables leads to its last one. Keys with dots lead only through tables that no header has
opened. -/
def change (dotted : Bool) (f : Table → Except Fault Table) :
    List String → Table → Except Fault Table
  | [], t => f t
  | key :: keys, t => do
    match t.get? key with
    | none =>
      let child ← change dotted f keys { origin := if dotted then .dotted else .inner }
      return t.put key (.table child.origin child.entries)
    | some (.table origin entries) =>
      if dotted ∧ origin = .header then .error (.defined key)
      let child ← change dotted f keys { origin, entries }
      return t.put key (.table child.origin child.entries)
    | some (.tables tables) =>
      match tables.reverse with
      | [] => .error (.defined key)
      | last :: before =>
        let child ← change dotted f keys { entries := last }
        return t.put key (.tables (before.reverse ++ [child.entries]))
    | some (.value _) => .error (.defined key)

/-- The table with a new value for a key. -/
def addValue (key : String) (v : Value) (t : Table) : Except Fault Table :=
  if (t.get? key).isSome then .error (.defined key) else .ok (t.put key (.value v))

/-- The table with a new value where keys joined by dots lead from it. -/
def addDotted : List String → Value → Table → Except Fault Table
  | [], _, t => .ok t
  | [key], v, t => addValue key v t
  | keys, v, t =>
    let key := keys.getLastD ""
    t.change true (fun t =>
      if t.origin = .dotted then t.addValue key v else .error (.defined key)) keys.dropLast

/-- The table with a table opened for a key. -/
def openTable (key : String) (t : Table) : Except Fault Table :=
  match t.get? key with
  | none => .ok (t.put key (.table .header []))
  | some (.table .inner entries) => .ok (t.put key (.table .header entries))
  | some _ => .error (.defined key)

/-- The table with one more table opened in a list of tables for a key. -/
def openItem (key : String) (t : Table) : Except Fault Table :=
  match t.get? key with
  | none => .ok (t.put key (.tables [[]]))
  | some (.tables tables) => .ok (t.put key (.tables (tables ++ [[]])))
  | some _ => .error (.defined key)

/-- The tree with what a header opens. -/
def openHeader (list : Bool) (keys : List String) (root : Table) : Except Fault Table :=
  let key := keys.getLastD ""
  root.change false (if list then openItem key else openTable key) keys.dropLast

end Table

mutual

/-- The value of a node of a finished tree. -/
def Node.toValue : Node → Value
  | .value v => v
  | .table _ entries => .table (entryValues entries)
  | .tables tables => .list (tableValues tables)

/-- The values of the entries of a table. -/
def entryValues : List (String × Node) → List (String × Value)
  | [] => []
  | (key, n) :: rest => (key, n.toValue) :: entryValues rest

/-- The values of some tables. -/
def tableValues : List (List (String × Node)) → List Value
  | [] => []
  | entries :: rest => .table (entryValues entries) :: tableValues rest

end

end MessageMarkup.Toml
