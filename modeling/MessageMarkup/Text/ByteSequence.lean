import MessageMarkup.Text.CharSet

/-!
# Byte sequences of sets

The UTF-8 forms of the characters of a set, as sequences of byte ranges: a sequence stands for all
the ways to take one byte of each of its ranges. A set has one list of sequences, in ascending
order.
-/

namespace MessageMarkup.Utf8

/-- Byte ranges one after another, each with its first and its last byte. -/
abbrev Sequence := List (Nat × Nat)

/-- The numbers from `first` to `last` in a byte that starts with the bits of `lead`, followed by
bytes of six bits each: `count` of them. -/
def sequencesFrom (lead : Nat) : (count : Nat) → (first last : Nat) → List Sequence
  | 0, first, last => [[(lead + first, lead + last)]]
  | count + 1, first, last =>
    let block := 1 <<< (6 * (count + 1))
    let within (top low high : Nat) : List Sequence :=
      (sequencesFrom 0x80 count low high).map ((lead + top, lead + top) :: ·)
    let (a, low) := (first / block, first % block)
    let (b, high) := (last / block, last % block)
    if a = b then within a low high
    else
      let (start, opening) := if low = 0 then (a, []) else (a + 1, within a low (block - 1))
      let (stop, closing) := if high = block - 1 then (b + 1, []) else (b, within b 0 high)
      let whole : List Sequence :=
        if start < stop then
          [(lead + start, lead + stop - 1) :: List.replicate (count + 1) (0x80, 0xBF)]
        else []
      opening ++ whole ++ closing

/-- The characters with forms of one length: the first and the last of them, the bits that the first
byte starts with, and the number of bytes after it. The surrogates have no form. -/
def forms : List (Nat × Nat × Nat × Nat) :=
  [(0, 0x7F, 0, 0), (0x80, 0x7FF, 0xC0, 1), (0x800, 0xD7FF, 0xE0, 2), (0xE000, 0xFFFF, 0xE0, 2),
    (0x10000, 0x10FFFF, 0xF0, 3)]

/-- The sequences of a range of code points. -/
def sequencesOfRange (first last : Nat) : List Sequence :=
  forms.flatMap fun (low, high, lead, count) =>
    if max first low ≤ min last high then
      sequencesFrom lead count (max first low) (min last high)
    else []

end MessageMarkup.Utf8

namespace MessageMarkup

open Utf8 in
/-- The byte sequences of a set of characters. -/
def CharSet.sequences (s : CharSet) : List Sequence :=
  s.ranges.flatMap fun (first, last) => sequencesOfRange first last

end MessageMarkup
