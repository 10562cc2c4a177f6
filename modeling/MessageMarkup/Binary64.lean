/-!
# Floating-point numbers of 64 bits

A number is given exactly, by a mantissa and a power of two, so that reading and writing decimals
is arithmetic of natural numbers. `ofDecimal` rounds a decimal to the nearest number, of two to the
one whose mantissa is even. `text` writes the decimal with the fewest digits that reads back, of
several the nearest one, in positional notation.
-/

namespace MessageMarkup

/-- A floating-point number of 64 bits. -/
inductive Binary64 where
  /-- Not a number. -/
  | nan
  /-- One of the infinities. -/
  | infinite (negative : Bool)
  /-- The number `mantissa * 2 ^ exponent`, or its negative. -/
  | finite (negative : Bool) (mantissa : Nat) (exponent : Int)
  deriving DecidableEq, Repr, Inhabited

namespace Binary64

/-! ## Fractions -/

/-- A quotient rounded to the nearest natural number, of two to the even one. -/
def divNearest (a b : Nat) : Nat :=
  let (q, r) := (a / b, a % b)
  if 2 * r < b ∨ (2 * r = b ∧ q % 2 = 0) then q else q + 1

/-- The fraction `n * base ^ power`. -/
def scaled (n base : Nat) (power : Int) : Nat × Nat :=
  match power with
  | .ofNat k => (n * Nat.pow base k, 1)
  | .negSucc k => (n, Nat.pow base (k + 1))

/-- The greatest power of two that is not above a positive fraction. -/
def log2 (a b : Nat) : Int :=
  let e : Int := a.log2 - b.log2
  let (c, d) := scaled b 2 e
  if c ≤ a * d then e else e - 1

/-! ## Reading decimals -/

/-- The number nearest to a positive fraction. -/
def ofFraction (negative : Bool) (a b : Nat) : Binary64 :=
  let exponent := max (-1074) (log2 a b - 52)
  let (c, d) := scaled a 2 (-exponent)
  let mantissa := divNearest c (b * d)
  if mantissa = 1 <<< 53 then
    if exponent = 971 then infinite negative else finite negative (1 <<< 52) (exponent + 1)
  else if 971 < exponent then infinite negative
  else finite negative mantissa exponent

/-- The number nearest to `digits * 10 ^ power`. Decimals far out of range are not computed. -/
def ofDecimal (negative : Bool) (digits : Nat) (power : Int) : Binary64 :=
  if digits = 0 then finite negative 0 (-1074)
  else
    let magnitude := (digits.log2 : Int) * 3 / 10 + power
    if 400 < magnitude then infinite negative
    else if magnitude < -400 then finite negative 0 (-1074)
    else
      let (a, b) := scaled digits 10 power
      ofFraction negative a b

/-- Whether a number is not zero. What is not a number is not zero either. -/
def isNonzero : Binary64 → Bool
  | finite _ mantissa _ => mantissa != 0
  | _ => true

/-! ## Writing decimals -/

/-- The greatest power of ten that is not above a positive fraction, looked for downwards. -/
def log10From (a b : Nat) : Nat → Int → Int
  | 0, e => e
  | steps + 1, e =>
    let (c, d) := scaled b 10 e
    if c ≤ a * d then e else log10From a b steps (e - 1)

/-- The decimal of `count` digits nearest to a positive fraction among those that satisfy a
condition, with its power of ten. -/
def nearestDecimal? (a b : Nat) (magnitude : Int) (accept : Nat → Int → Bool) (count : Nat) :
    Option (Nat × Int) :=
  let power := magnitude - count + 1
  let (c, d) := scaled a 10 (-power)
  let below := c / (b * d)
  let nearest := divNearest c (b * d)
  let other := if nearest = below then below + 1 else below
  if accept nearest power then some (nearest, power)
  else if accept other power then some (other, power)
  else none

/-- The fewest digits of a decimal that reads back as the finite number `mantissa * 2 ^ exponent`,
with the power of ten to multiply them with. -/
def shortest (mantissa : Nat) (exponent : Int) : Nat × Int :=
  let (a, b) := scaled mantissa 2 exponent
  let magnitude := log10From a b 700 310
  let accept := fun digits power =>
    ofDecimal false digits power == finite false mantissa exponent
  ((List.range' 1 17).findSome? (nearestDecimal? a b magnitude accept)).getD (0, 0)

/-- Digits without the zeros at their end, of which the power of ten takes account. -/
def dropZeros : Nat → Nat → Int → Nat × Int
  | 0, n, power => (n, power)
  | steps + 1, n, power =>
    if n ≠ 0 ∧ n % 10 = 0 then dropZeros steps (n / 10) (power + 1) else (n, power)

/-- Digits with a power of ten in positional notation. -/
def positional (digits : Nat) (power : Int) : List Char :=
  let (digits, power) := dropZeros 20 digits power
  let text := Nat.toDigits 10 digits
  match power with
  | .ofNat k => text ++ List.replicate k '0'
  | .negSucc k =>
    let places := k + 1
    let padded := List.replicate (places + 1 - text.length) '0' ++ text
    padded.take (padded.length - places) ++ '.' :: padded.drop (padded.length - places)

/-- A number in decimal notation. -/
def text : Binary64 → String
  | nan => "NaN"
  | infinite negative => if negative then "-inf" else "inf"
  | finite negative mantissa exponent =>
    let digits :=
      if mantissa = 0 then ['0']
      else
        let (digits, power) := shortest mantissa exponent
        positional digits power
    String.ofList (if negative then '-' :: digits else digits)

end Binary64

end MessageMarkup
