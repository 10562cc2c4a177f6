/-!
# UTF-16 units

Offsets of message entities count UTF-16 units, so markup is read and written over the units of a
text: a character of the Basic Multilingual Plane is one unit, any other a high surrogate followed
by a low one. `encode` and `decode` go between characters and units. `decode` accepts every list
of units and reads a surrogate without its partner as U+FFFD, one character for one unit, so
positions keep their meaning. `splitsPair` tells where a text may not be cut.
-/

namespace MessageMarkup.Utf16

/-! ## Surrogates -/

/-- The first half of a surrogate pair. -/
def isHigh (unit : UInt16) : Bool :=
  0xD800 ≤ unit && unit ≤ 0xDBFF

/-- The second half of a surrogate pair. -/
def isLow (unit : UInt16) : Bool :=
  0xDC00 ≤ unit && unit ≤ 0xDFFF

/-- Either half of a surrogate pair. -/
def isSurrogate (unit : UInt16) : Bool :=
  0xD800 ≤ unit && unit ≤ 0xDFFF

/-- The character that stands for a unit which encodes none. -/
def replacement : Char := Char.ofNat 0xFFFD

/-- The character of a unit on its own. -/
def single (unit : UInt16) : Char :=
  if isSurrogate unit then replacement else Char.ofNat unit.toNat

/-- The character of a surrogate pair. -/
def joined (high low : UInt16) : Char :=
  Char.ofNat (0x10000 + (high.toNat - 0xD800) * 0x400 + (low.toNat - 0xDC00))

/-! ## Characters and units -/

/-- The number of units of a character. -/
def width (c : Char) : Nat :=
  if c.toNat < 0x10000 then 1 else 2

/-- The units of a character. -/
def ofChar (c : Char) : List UInt16 :=
  if c.toNat < 0x10000 then [UInt16.ofNat c.toNat]
  else
    [UInt16.ofNat (0xD800 + (c.toNat - 0x10000) / 0x400),
      UInt16.ofNat (0xDC00 + (c.toNat - 0x10000) % 0x400)]

/-- The units of a list of characters. -/
def encode (chars : List Char) : List UInt16 :=
  chars.flatMap ofChar

/-- The characters of a list of units. A surrogate that does not belong to a pair is U+FFFD. -/
def decode : List UInt16 → List Char
  | [] => []
  | [unit] => [single unit]
  | high :: low :: rest =>
    if isHigh high && isLow low then joined high low :: decode rest
    else single high :: decode (low :: rest)

/-- The number of units of a list of characters. -/
def length : List Char → Nat
  | [] => 0
  | c :: cs => width c + length cs

/-- The units of a text. -/
def ofText (text : String) : List UInt16 :=
  encode text.toList

/-- The text of a list of units. -/
def toText (units : List UInt16) : String :=
  String.ofList (decode units)

/-! ## Positions -/

/-- Whether the position `i` of a list of units lies between a high surrogate and a surrogate that
follows it. -/
def splitsPair : List UInt16 → Nat → Bool
  | before :: after :: _, 1 => isHigh before && isSurrogate after
  | _ :: rest, i + 2 => splitsPair rest (i + 1)
  | _, _ => false

end MessageMarkup.Utf16
