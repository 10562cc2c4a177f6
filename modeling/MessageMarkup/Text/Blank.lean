import MessageMarkup.Text.Utf16

/-!
# Blank characters

`isWhiteSpace` is the Unicode property `White_Space`. The blanks that surround a message are those
and the information separators U+001C to U+001F. All of them have one unit, so `isBlankUnit`
decides for a unit on its own.
-/

namespace MessageMarkup

/-- The Unicode property `White_Space`. -/
def isWhiteSpace (c : Char) : Bool :=
  let n := c.toNat
  (0x09 ≤ n && n ≤ 0x0D) || n == 0x20 || n == 0x85 || n == 0xA0 || n == 0x1680 ||
    (0x2000 ≤ n && n ≤ 0x200A) || n == 0x2028 || n == 0x2029 || n == 0x202F || n == 0x205F ||
    n == 0x3000

/-- A character that is trimmed from the ends of a message. -/
def isBlank (c : Char) : Bool :=
  isWhiteSpace c || (0x1C ≤ c.toNat && c.toNat ≤ 0x1F)

/-- A unit that is trimmed from the ends of a message. -/
def isBlankUnit (unit : UInt16) : Bool :=
  isBlank (Utf16.single unit)

end MessageMarkup
