/-!
# Occurrences

The first place at which one list occurs inside another.
-/

namespace MessageMarkup

variable {α : Type} [BEq α]

/-- The number of elements before the first occurrence of `needle`. -/
def occurrence? (needle : List α) : List α → Option Nat
  | [] => if needle.isEmpty then some 0 else none
  | x :: xs =>
    if needle.isPrefixOf (x :: xs) then some 0 else (occurrence? needle xs).map (· + 1)

/-- The first position of `haystack`, at `start` or after it, where `needle` occurs. An empty
needle occurs nowhere. -/
def occurrenceFrom? (haystack needle : List α) (start : Nat) : Option Nat :=
  if needle.isEmpty || haystack.length < start then none
  else (occurrence? needle (haystack.drop start)).map (· + start)

end MessageMarkup
