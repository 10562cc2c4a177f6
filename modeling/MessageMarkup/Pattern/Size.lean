import MessageMarkup.Pattern
import MessageMarkup.Text.ByteSequence

/-!
# The size of patterns

A pattern with large counts can be short to write and yet need more memory than there is. The size
of a pattern is the number of bytes of the automaton that recognises its matches byte by byte. A
pattern is too large if this automaton, or the one that goes through the text backwards and does
without groups, exceeds `sizeLimit`. Both are computed from the pattern; no automaton is built.

The automata are made of states of 32 bytes. A state that goes on in several ways without consuming
anything has 4 bytes more for each way, and a state that consumes one byte out of several ranges has
8 bytes more for each range. A choice between texts is a tree in which texts that begin alike share
states.
-/

namespace MessageMarkup

/-- The direction in which an automaton goes through a text. -/
inductive Direction where
  /-- From the first byte to the last. -/
  | forward
  /-- From the last byte to the first. -/
  | backward
  deriving DecidableEq, Repr, Inhabited

namespace Utf8

/-- The first ranges of some sequences in ascending order, each with what can follow it. -/
def branches : List Sequence → List ((Nat × Nat) × List Sequence)
  | [] => []
  | [] :: more => branches more
  | (range :: rest) :: more =>
    match branches more with
    | [] => [(range, [rest])]
    | (range', rests) :: others =>
      if range = range' then (range, rest :: rests) :: others
      else (range, [rest]) :: (range', rests) :: others

/-- What can remain of some sequences when bytes have been consumed, and something does remain. At
most `length` bytes are looked at. -/
def remainders : (length : Nat) → List Sequence → List (List Sequence)
  | 0, _ => []
  | length + 1, sequences =>
    match branches sequences with
    | [] => []
    | ways => sequences :: ways.flatMap fun (_, rests) => remainders length rests

/-- The number of different starts of some sequences, up to a length. -/
def starts : (length : Nat) → List Sequence → Nat
  | 0, _ => 0
  | length + 1, sequences =>
    (branches sequences).foldl (fun count (_, rests) => count + 1 + starts length rests) 0

end Utf8

/-- The size of a set of characters. Forwards, a state stands for what can remain of the byte
sequences of the set, and backwards for a start of them. A set of ASCII is a single byte. -/
def CharSet.size (direction : Direction) (s : CharSet) : Nat :=
  if s.ranges.all (·.2 < 0x80) then 2 * 32 + 8 * s.ranges.length
  else
    match direction with
    | .forward =>
      (Utf8.remainders 4 s.sequences).eraseDups.foldl
        (fun size r => size + 32 + 8 * (Utf8.branches r).length) 32
    | .backward => 2 * 32 + 4 * s.sequences.length + 32 * Utf8.starts 4 s.sequences

/-! ## Texts -/

namespace WordTree

/-- Some words of bytes with one more, sorted out by first bytes: each of these comes with what
follows it, in order. -/
def insert (ways : List (UInt8 × List (List UInt8))) :
    List UInt8 → List (UInt8 × List (List UInt8))
  | [] => ways
  | b :: rest =>
    if ways.any (·.1 == b) then
      ways.map fun (first, rests) => (first, if first == b then rests ++ [rest] else rests)
    else ways ++ [(b, [rest])]

/-- The size of the tree of some words, the longest of which has at most `length` bytes. Where a
word ends and others go on, those before it and those behind it have a state each, since an earlier
word is preferred. -/
def size : (length : Nat) → List (List UInt8) → Nat
  | 0, _ => 0
  | length + 1, words =>
    if words.all (·.isEmpty) then 0
    else
      let words := match words with
        | [] :: more => [] :: more.dropWhile (·.isEmpty)
        | words => words
      let runs := words.splitOn []
      let states := (runs.filter fun run => !run.isEmpty).map fun run =>
        let ways := run.foldl insert []
        let inside := ways.foldl (fun total (_, rests) => total + size length rests) 0
        4 + 32 + (if ways.length = 1 then 0 else 8 * ways.length) + inside
      states.foldl (· + ·) (32 + 4 * (runs.length - 1))

end WordTree

/-- The size of a choice between texts. -/
def Direction.sizeOfTexts (direction : Direction) (texts : List (List Char)) : Nat :=
  let words := texts.map fun chars => chars.flatMap String.utf8EncodeChar
  let words := match direction with
    | .forward => words
    | .backward => words.map List.reverse
  32 + WordTree.size (words.foldl (fun n word => max n word.length) 0) words

/-! ## Patterns -/

namespace Pattern

/-- The characters of a pattern that is a text. -/
def text? : Pattern → Option (List Char)
  | text chars => some chars
  | _ => none

/-- Whether a pattern is a choice. -/
def isChoice : Pattern → Bool
  | alt _ _ => true
  | _ => false

/-- The size of a repetition of a part, whose size is given. -/
def sizeOfTimes (part : Nat) (consumes : Bool) (least : Nat) (most : Option Nat) : Nat :=
  match most, least with
  | none, 0 => if consumes then 40 + part else 40 + 40 + 32 + part
  | none, n => n * part + 40
  | some 1, 0 => 40 + 32 + part
  | some most, least =>
    if most ≤ least then least * part
    else (if least = 0 then 32 else least * part) + 32 + (most - least) * (40 + part)

/-- The size of the part of an automaton that stands for a pattern, which is said to be the rest of
the alternatives of a choice or not. -/
def sizeAs (direction : Direction) : (rest : Bool) → Pattern → Nat
  | _, empty | _, anchor _ => 32
  | _, text chars => chars.foldl (fun size c => size + 32 * c.utf8Size) 0
  | _, char set => set.size direction
  | _, group _ inner =>
    match direction with
    | .forward => 2 * 32 + inner.sizeAs direction false
    | .backward => inner.sizeAs direction false
  | _, seq first second => first.sizeAs direction false + second.sizeAs direction false
  | rest, alt first second =>
    match if rest then none else (alt first second).options.mapM text? with
    | some texts => direction.sizeOfTexts texts
    | none =>
      (if rest then 0 else 2 * 32) + 4 + first.sizeAs direction false +
        (if second.isChoice then 0 else 4) + second.sizeAs direction second.isChoice
  | _, times inner least most _ =>
    sizeOfTimes (inner.sizeAs direction false) inner.consumes least most

/-- The size of the part of an automaton that stands for a pattern. -/
def size (direction : Direction) (p : Pattern) : Nat :=
  p.sizeAs direction false

/-- The number of bytes that an automaton may have. -/
def sizeLimit : Nat := 10 * 1024 * 1024

/-- Whether both automata of a pattern are within the limit. Each has a loop over what precedes a
match, of 112 bytes, and a last state; the forward one also has the two ends of the match. -/
def fits (p : Pattern) : Bool :=
  112 + 3 * 32 + p.size .forward ≤ sizeLimit && 112 + 32 + p.size .backward ≤ sizeLimit

end Pattern

end MessageMarkup
