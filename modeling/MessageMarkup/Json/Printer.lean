import MessageMarkup.Json

/-!
# Writing JSON

`Json.compact` writes a value on one line without spaces, `Json.pretty` with a member or an item to
a line and two spaces for each level. Strings escape quotes, backslashes and control characters and
nothing else.
-/

namespace MessageMarkup.Json

/-- A digit of a hexadecimal number, in small letters. -/
def hexDigit (n : Nat) : Char :=
  if n < 10 then Char.ofNat ('0'.toNat + n) else Char.ofNat ('a'.toNat + (n - 10))

/-- A character inside a string. -/
def stringChar (c : Char) : List Char :=
  if c = '"' then ['\\', '"']
  else if c = '\\' then ['\\', '\\']
  else if c = '\x08' then ['\\', 'b']
  else if c = '\x09' then ['\\', 't']
  else if c = '\x0a' then ['\\', 'n']
  else if c = '\x0c' then ['\\', 'f']
  else if c = '\x0d' then ['\\', 'r']
  else if c.toNat < 0x20 then
    ['\\', 'u', '0', '0', hexDigit (c.toNat / 16), hexDigit (c.toNat % 16)]
  else [c]

/-- A string with its quotes. -/
def stringText (s : String) : List Char :=
  '"' :: (s.toList.flatMap stringChar ++ ['"'])

/-- An integer in decimal digits. -/
def integerText : Int → List Char
  | .ofNat n => Nat.toDigits 10 n
  | .negSucc n => '-' :: Nat.toDigits 10 (n + 1)

mutual

/-- A value on one line. -/
def compact : Json → List Char
  | null => ['n', 'u', 'l', 'l']
  | bool true => ['t', 'r', 'u', 'e']
  | bool false => ['f', 'a', 'l', 's', 'e']
  | integer n => integerText n
  | real literal => literal
  | string s => stringText s
  | array items => '[' :: compactItems items
  | object members => '{' :: compactMembers members

/-- Items with commas between them, and the bracket that closes them. -/
def compactItems : List Json → List Char
  | [] => [']']
  | [j] => compact j ++ [']']
  | j :: js => compact j ++ ',' :: compactItems js

/-- Members with commas between them, and the brace that closes them. -/
def compactMembers : List (String × Json) → List Char
  | [] => ['}']
  | [(key, j)] => stringText key ++ ':' :: compact j ++ ['}']
  | (key, j) :: ms => stringText key ++ ':' :: compact j ++ ',' :: compactMembers ms

end

/-- A line break and the space before what stands at a level. -/
def newline (level : Nat) : List Char :=
  '\n' :: List.replicate (2 * level) ' '

mutual

/-- A value over several lines, at a level. -/
def prettyAt (level : Nat) : Json → List Char
  | array (j :: js) => '[' :: newline (level + 1) ++ prettyItems level (j :: js)
  | object (m :: ms) => '{' :: newline (level + 1) ++ prettyMembers level (m :: ms)
  | array [] => ['[', ']']
  | object [] => ['{', '}']
  | null => ['n', 'u', 'l', 'l']
  | bool true => ['t', 'r', 'u', 'e']
  | bool false => ['f', 'a', 'l', 's', 'e']
  | integer n => integerText n
  | real literal => literal
  | string s => stringText s

/-- Items on lines of their own, and the bracket that closes them. -/
def prettyItems (level : Nat) : List Json → List Char
  | [] => newline level ++ [']']
  | [j] => prettyAt (level + 1) j ++ newline level ++ [']']
  | j :: js => prettyAt (level + 1) j ++ ',' :: newline (level + 1) ++ prettyItems level js

/-- Members on lines of their own, and the brace that closes them. -/
def prettyMembers (level : Nat) : List (String × Json) → List Char
  | [] => newline level ++ ['}']
  | [(key, j)] => stringText key ++ ':' :: ' ' :: prettyAt (level + 1) j ++ newline level ++ ['}']
  | (key, j) :: ms =>
    stringText key ++ ':' :: ' ' :: prettyAt (level + 1) j ++
      ',' :: newline (level + 1) ++ prettyMembers level ms

end

/-- A value over several lines. -/
def pretty (j : Json) : List Char :=
  prettyAt 0 j

end MessageMarkup.Json
