/-!
# Integers of 64 bits

Offsets and numbers of documents and settings are unbounded here and are read from texts that may
only write 64 bits of them. These are the bounds.
-/

namespace MessageMarkup.Integer64

/-- The greatest unsigned integer of 64 bits. -/
def maxUnsigned : Nat := UInt64.size - 1

/-- The magnitude of the least signed integer of 64 bits. -/
def minMagnitude : Nat := UInt64.size / 2

/-- The signed integer of 64 bits with a sign and a magnitude, if there is one. -/
def signed? (negative : Bool) (magnitude : Nat) : Option Int :=
  if negative then if magnitude ≤ minMagnitude then some (-magnitude) else none
  else if magnitude < minMagnitude then some magnitude
  else none

end MessageMarkup.Integer64
