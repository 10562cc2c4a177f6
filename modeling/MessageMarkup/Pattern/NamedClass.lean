import MessageMarkup.Text.Blank
import MessageMarkup.Text.Numeral
import MessageMarkup.Text.WordChar

/-!
# Classes with a name

The sets of characters that a pattern can name: white space, digits and word characters of all
scripts, and the classes of ASCII that are named inside brackets.
-/

namespace MessageMarkup.CharSet

/-- White space, as `isWhiteSpace` decides it. -/
def space : CharSet :=
  ⟨[(0x09, 0x0D), (0x20, 0x20), (0x85, 0x85), (0xA0, 0xA0), (0x1680, 0x1680), (0x2000, 0x200A),
    (0x2028, 0x2029), (0x202F, 0x202F), (0x205F, 0x205F), (0x3000, 0x3000)]⟩

/-- The capital letters of ASCII. -/
def asciiUpper : CharSet := range 'A' 'Z'

/-- The small letters of ASCII. -/
def asciiLower : CharSet := range 'a' 'z'

/-- The letters of ASCII. -/
def asciiLetter : CharSet := union asciiUpper asciiLower

/-- The digits of ASCII. -/
def asciiDigit : CharSet := range '0' '9'

/-- The set of a class that is named inside a bracketed class, as in `[[:alpha:]]`. -/
def ofClassName? : String → Option CharSet
  | "alnum" => some (union asciiLetter asciiDigit)
  | "alpha" => some asciiLetter
  | "ascii" => some (range '\x00' '\x7f')
  | "blank" => some (union (only '\t') (only ' '))
  | "cntrl" => some (union (range '\x00' '\x1f') (only '\x7f'))
  | "digit" => some asciiDigit
  | "graph" => some (range '!' '~')
  | "lower" => some asciiLower
  | "print" => some (range ' ' '~')
  | "punct" =>
    some (unions [range '!' '/', range ':' '@', range '\x5b' '\x60', range '\x7b' '\x7e'])
  | "space" => some (union (range '\t' '\r') (only ' '))
  | "upper" => some asciiUpper
  | "word" => some (unions [asciiLetter, asciiDigit, only '_'])
  | "xdigit" => some (unions [asciiDigit, range 'a' 'f', range 'A' 'F'])
  | _ => none

end MessageMarkup.CharSet
