import MessageMarkup.Binary64

/-!
# Setting values

What a settings file holds: scalars, lists and tables. Several sources of settings are laid over
one another with `merge`: tables are joined key by key, anything else is replaced as a whole. Keys
of tables are joined in small letters; tables inside lists are replaced with their list and keep
their keys as they are.
-/

namespace MessageMarkup.Settings

/-- A value in a settings file. -/
inductive Value where
  /-- The value of a list item that was never set. -/
  | unset
  | boolean (value : Bool)
  | integer (value : Int)
  | real (value : Binary64)
  | text (value : String)
  | list (items : List Value)
  | table (entries : List (String × Value))
  deriving Repr, Inhabited

/-- A letter in its small form. Besides the letters of ASCII only the Kelvin sign has a small form
that is such a letter, and no key or name that has a meaning here has other letters. -/
def smallLetter (c : Char) : Char :=
  if c = Char.ofNat 0x212A then 'k' else c.toLower

/-- A key or name in small letters. -/
def smallLetters (s : String) : String :=
  s.map smallLetter

/-- The value of a key among some entries. -/
def get? (key : String) (entries : List (String × Value)) : Option Value :=
  (entries.find? (·.1 == key)).map (·.2)

/-- Some entries with the value of a key replaced, or added at their end. -/
def put (key : String) (v : Value) : List (String × Value) → List (String × Value)
  | [] => [(key, v)]
  | (k, w) :: rest => if k == key then (k, v) :: rest else (k, w) :: put key v rest

namespace Value

/-- The entries of a table; anything else has none. -/
def entries : Value → List (String × Value)
  | table entries => entries
  | _ => []

/-- The items of a list; anything else has none. -/
def items : Value → List Value
  | list items => items
  | _ => []

mutual

/-- A value with another laid over it. -/
def merge (base : Value) : Value → Value
  | table entries => mergeEntries base entries
  | top => top

/-- A value with the entries of a table laid over it, one after the other. -/
def mergeEntries (base : Value) : List (String × Value) → Value
  | [] => base
  | (key, top) :: rest =>
    let small := smallLetters key
    let below := (get? small base.entries).getD (table [])
    mergeEntries (table (put small (merge below top) base.entries)) rest

end

/-- A value with another laid over what a key of it has. -/
def mergeAt (base : Value) (key : String) (top : Value) : Value :=
  base.mergeEntries [(key, top)]

end Value

end MessageMarkup.Settings
