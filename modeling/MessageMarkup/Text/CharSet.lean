/-!
# Sets of characters

A set of characters is a list of ranges of code points, in ascending order and apart from one
another, so that two sets with the same characters have the same ranges. `contains` decides
membership, and the operations keep the form.
-/

namespace MessageMarkup

/-- A set of characters. -/
structure CharSet where
  /-- The first and the last code point of each range. -/
  ranges : List (Nat × Nat)
  deriving DecidableEq, Repr, Inhabited

namespace CharSet

/-- Whether one of some ascending ranges covers a code point. -/
def covers : List (Nat × Nat) → Nat → Bool
  | [], _ => false
  | (first, last) :: more, n => if n < first then false else n ≤ last || covers more n

/-- Membership. -/
def contains (s : CharSet) (c : Char) : Bool :=
  covers s.ranges c.toNat

/-- No character. -/
def nothing : CharSet := ⟨[]⟩

/-- Every character. -/
def anything : CharSet := ⟨[(0, 0x10FFFF)]⟩

/-- The characters from one to another. -/
def range (first last : Char) : CharSet := ⟨[(first.toNat, last.toNat)]⟩

/-- One character. -/
def only (c : Char) : CharSet := range c c

/-- The character of a set that has only one. -/
def single? : CharSet → Option Char
  | ⟨[(first, last)]⟩ => if first = last ∧ first.isValidChar then some (Char.ofNat first) else none
  | _ => none

/-- Some ranges and one more, which absorbs those that it overlaps or touches. -/
def insertRange (first last : Nat) : List (Nat × Nat) → List (Nat × Nat)
  | [] => [(first, last)]
  | (a, b) :: more =>
    if last + 1 < a then (first, last) :: (a, b) :: more
    else if b + 1 < first then (a, b) :: insertRange first last more
    else insertRange (min first a) (max last b) more

/-- The characters of either set. -/
def union (s t : CharSet) : CharSet :=
  ⟨t.ranges.foldr (fun (first, last) ranges => insertRange first last ranges) s.ranges⟩

/-- The characters of any of some sets. -/
def unions (sets : List CharSet) : CharSet :=
  sets.foldr (fun s all => all.union s) nothing

/-- What ascending ranges leave out, from a code point on. -/
def gaps (start : Nat) : List (Nat × Nat) → List (Nat × Nat)
  | [] => if start ≤ 0x10FFFF then [(start, 0x10FFFF)] else []
  | (first, last) :: more =>
    if start < first then (start, first - 1) :: gaps (last + 1) more else gaps (last + 1) more

/-- The characters that are not in a set. -/
def compl (s : CharSet) : CharSet := ⟨gaps 0 s.ranges⟩

/-- The characters of both sets. -/
def inter (s t : CharSet) : CharSet := (s.compl.union t.compl).compl

/-- The characters of the first set that are not in the second. -/
def minus (s t : CharSet) : CharSet := s.inter t.compl

/-- The characters of exactly one of two sets. -/
def either (s t : CharSet) : CharSet := (s.minus t).union (t.minus s)

end CharSet

end MessageMarkup
