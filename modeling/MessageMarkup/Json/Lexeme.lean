import MessageMarkup.Integer64
import MessageMarkup.Json
import MessageMarkup.Text.Utf16

/-!
# Strings, numbers and words of JSON

Readers of the smallest parts of a document. Each takes the text from the part on and returns what
it has read with the text behind it, or the first fault. Parts whose value is not wanted are read
leniently (`strict` is false): strings may then have surrogates without a partner, and a number
that ends too early is no different from one that goes wrong.
-/

namespace MessageMarkup.Json

/-- The text after the white space at its start. -/
def afterBlanks (cs : List Char) : List Char :=
  cs.dropWhile fun c => c == ' ' || c == '\n' || c == '\t' || c == '\r'

/-- The text after a word. -/
def readWord : List Char → List Char → Except Fault (List Char)
  | [], cs => .ok cs
  | _ :: _, [] => .error .truncated
  | w :: ws, c :: cs => if w = c then readWord ws cs else .error .malformed

/-! ## Strings -/

/-- What a letter after a backslash stands for. -/
def escaped? : Char → Option Char
  | '"' => some '"'
  | '\\' => some '\\'
  | '/' => some '/'
  | 'b' => some '\x08'
  | 'f' => some '\x0c'
  | 'n' => some '\n'
  | 'r' => some '\r'
  | 't' => some '\t'
  | _ => none

/-- The value of a hexadecimal digit. -/
def hexDigit? (c : Char) : Option Nat :=
  if '0' ≤ c ∧ c ≤ '9' then some (c.toNat - '0'.toNat)
  else if 'a' ≤ c ∧ c ≤ 'f' then some (c.toNat - 'a'.toNat + 10)
  else if 'A' ≤ c ∧ c ≤ 'F' then some (c.toNat - 'A'.toNat + 10)
  else none

/-- The unit of four hexadecimal digits. -/
def hexUnit? (a b c d : Char) : Option UInt16 := do
  return UInt16.ofNat
    ((((← hexDigit? a) * 16 + (← hexDigit? b)) * 16 + (← hexDigit? c)) * 16 + (← hexDigit? d))

/-- What is wrong with a unit of which fewer than four digits are left. A text of four bytes or more
is long enough, so it must be something else than a digit that comes. -/
def shortUnitFault (cs : List Char) : Fault :=
  if (String.ofList cs).utf8ByteSize < 4 then .truncated else .malformed

/-- What is wrong behind a high surrogate that no low one follows. -/
def loneHighFault : List Char → Fault
  | [] | ['\\'] => .truncated
  | '\\' :: 'u' :: cs => shortUnitFault cs
  | _ => .malformed

/-- A reading of a string with one more character before it. -/
def prepend (c : Char) (r : Except Fault (List Char × List Char)) :
    Except Fault (List Char × List Char) :=
  r.map fun (s, cs) => (c :: s, cs)

/-- The characters of a string, after its opening quote. -/
def readString (strict : Bool) : List Char → Except Fault (List Char × List Char)
  | [] => .error .truncated
  | '"' :: cs => .ok ([], cs)
  | '\\' :: 'u' :: a :: b :: c :: d :: cs =>
    match hexUnit? a b c d with
    | none => .error .malformed
    | some unit =>
      if strict && Utf16.isHigh unit then
        match cs with
        | '\\' :: 'u' :: e :: f :: g :: h :: cs =>
          match hexUnit? e f g h with
          | none => .error .malformed
          | some low =>
            if Utf16.isLow low then prepend (Utf16.joined unit low) (readString strict cs)
            else .error .malformed
        | cs => .error (loneHighFault cs)
      else if strict && Utf16.isLow unit then .error .malformed
      else prepend (Utf16.single unit) (readString strict cs)
  | '\\' :: 'u' :: cs => .error (shortUnitFault cs)
  | ['\\'] => .error .truncated
  | '\\' :: c :: cs =>
    match escaped? c with
    | some c => prepend c (readString strict cs)
    | none => .error .malformed
  | c :: cs => if c.toNat < 0x20 then .error .malformed else prepend c (readString strict cs)

/-! ## Numbers -/

/-- The parts of a number. -/
structure Numeral where
  /-- Whether it has a minus sign. -/
  negative : Bool
  /-- The digits before the point. -/
  whole : List Char
  /-- The digits after the point, if it has one. -/
  fraction? : Option (List Char)
  /-- The sign and the digits of the exponent, if it has one. -/
  exponent? : Option (Bool × List Char)
  deriving DecidableEq, Repr, Inhabited

/-- The digits that a text starts with, and the rest. There has to be one. -/
def readDigits (strict : Bool) (cs : List Char) : Except Fault (List Char × List Char) :=
  match cs.span Char.isDigit with
  | ([], []) => .error (if strict then .truncated else .malformed)
  | ([], _) => .error .malformed
  | (digits, cs) => .ok (digits, cs)

/-- The fraction of a number, if the text starts with one. -/
def readFraction? (strict : Bool) :
    List Char → Except Fault (Option (List Char) × List Char)
  | '.' :: cs => (readDigits strict cs).map fun (digits, cs) => (some digits, cs)
  | cs => .ok (none, cs)

/-- The exponent of a number, if the text starts with one. -/
def readExponent? (strict : Bool) :
    List Char → Except Fault (Option (Bool × List Char) × List Char)
  | 'e' :: cs | 'E' :: cs =>
    let (negative, cs) := match cs with
      | '-' :: cs => (true, cs)
      | '+' :: cs => (false, cs)
      | cs => (false, cs)
    (readDigits strict cs).map fun (digits, cs) => (some (negative, digits), cs)
  | cs => .ok (none, cs)

/-- A number. Its whole part has no leading zero. -/
def readNumeral (strict : Bool) (cs : List Char) : Except Fault (Numeral × List Char) := do
  let (negative, cs) := match cs with
    | '-' :: cs => (true, cs)
    | cs => (false, cs)
  let (whole, cs) ← readDigits strict cs
  match whole with
  | '0' :: _ :: _ => .error .malformed
  | _ =>
    let (fraction?, cs) ← readFraction? strict cs
    let (exponent?, cs) ← readExponent? strict cs
    return ({ negative, whole, fraction?, exponent? }, cs)

/-- The value of a decimal digit. -/
def digitValue (c : Char) : Nat :=
  c.toNat - '0'.toNat

/-- The number that decimal digits write. -/
def digitsValue (digits : List Char) : Nat :=
  digits.foldl (fun n c => 10 * n + digitValue c) 0

/-- A number rounded to 53 significant bits, a half to the even neighbour. -/
def round53 (n : Nat) : Nat :=
  let shift := n.log2 - 52
  let unit := 1 <<< shift
  let (q, r) := (n / unit, n % unit)
  if 2 * r < unit ∨ (2 * r = unit ∧ q % 2 = 0) then q * unit else (q + 1) * unit

namespace Numeral

/-- The significant digits that fit in 64 bits, and the power of ten to multiply them with. Further
digits count as places before the point and for nothing behind it. -/
def significand (n : Numeral) : Nat × Nat × Nat :=
  let (m, up) := n.whole.foldl (fun (m, up) c =>
    let longer := 10 * m + digitValue c
    if up = 0 ∧ longer ≤ Integer64.maxUnsigned then (longer, 0) else (m, up + 1)) (0, 0)
  let (m, down, _) := (n.fraction?.getD []).foldl (fun (m, down, full) c =>
    let longer := 10 * m + digitValue c
    if !full && longer ≤ Integer64.maxUnsigned then (longer, down + 1, false)
    else (m, down, true)) (m, 0, false)
  (m, up, down)

/-- Whether a number is too great for a float of 64 bits. The significand and the power of ten are
rounded before they are multiplied. -/
def isTooGreat (n : Numeral) : Bool :=
  let (m, up, down) := n.significand
  let exponent : Int := up - down + match n.exponent? with
    | some (true, digits) => -(digitsValue digits : Int)
    | some (false, digits) => digitsValue digits
    | none => 0
  if m = 0 ∨ exponent < 0 then false
  else if 308 < exponent then true
  else 1 <<< 1024 - 1 <<< 970 ≤ round53 m * round53 (Nat.pow 10 exponent.toNat)

/-- The integer of 64 bits that a number writes, if it writes one: without a minus sign an unsigned
one, with a minus sign a signed one other than zero. -/
def integer? (n : Numeral) : Option Int :=
  let value := digitsValue n.whole
  if n.fraction?.isSome || n.exponent?.isSome then none
  else if n.negative then if value = 0 then none else Integer64.signed? true value
  else if value ≤ Integer64.maxUnsigned then some value
  else none

/-- The value of a number that was read from some text. What is no integer of 64 bits is real; a
number too great for a float of 64 bits has no value. -/
def toJson (n : Numeral) (text : List Char) : Except Fault Json :=
  match n.integer? with
  | some value => .ok (.integer value)
  | none => if n.isTooGreat then .error .malformed else .ok (.real text)

end Numeral

/-- A number with its value. -/
def readNumber (cs : List Char) : Except Fault (Json × List Char) := do
  let (n, rest) ← readNumeral true cs
  let j ← n.toJson (cs.take (cs.length - rest.length))
  return (j, rest)

end MessageMarkup.Json
