import MessageMarkup.Pattern.NamedClass

/-!
# Patterns

Regular expressions with capture groups and preferences: of two ways to match, a pattern prefers
the one that its left alternative, or the greed of its repetitions, leads to first.

Patterns are built by `inOrder`, `anyOf` and `repeated`, which keep them simple: neighbouring texts
are one text, alternatives of one character each are a set, alternatives that begin with the same
parts share them, and a part that cannot consume anything is not repeated. What a pattern means is
said by the program that it is compiled to.
-/

namespace MessageMarkup

/-- A condition on a place of the text. -/
inductive Anchor where
  /-- Before the first character. -/
  | textStart
  /-- After the last character. -/
  | textEnd
  /-- Before the first character of a line. -/
  | lineStart
  /-- After the last character of a line. -/
  | lineEnd
  /-- Before the first character of a line, where lines may also end in a carriage return, alone or
  before the line feed. -/
  | returnLineStart
  /-- After the last character of a line, where lines may also end in a carriage return, alone or
  before the line feed. -/
  | returnLineEnd
  /-- Between a word character and something else. -/
  | wordEdge
  /-- Anywhere but at the edge of a word. -/
  | noWordEdge
  /-- Before the first character of a word. -/
  | wordStart
  /-- After the last character of a word. -/
  | wordEnd
  /-- Not after a word character. -/
  | noWordBefore
  /-- Not before a word character. -/
  | noWordAfter
  deriving DecidableEq, Repr, Inhabited

namespace Anchor

/-- Whether a character, if there is one, belongs to a word. -/
def inWord (c? : Option Char) : Bool :=
  c?.any CharSet.word.contains

/-- Whether a place with these neighbours meets a condition. -/
def holds (before after : Option Char) : Anchor → Bool
  | textStart => before.isNone
  | textEnd => after.isNone
  | lineStart => before.all (· == '\n')
  | lineEnd => after.all (· == '\n')
  | returnLineStart => before.all fun c => c == '\n' || (c == '\r' && after != some '\n')
  | returnLineEnd => after.all fun c => c == '\r' || (c == '\n' && before != some '\r')
  | wordEdge => inWord before != inWord after
  | noWordEdge => inWord before == inWord after
  | wordStart => !inWord before && inWord after
  | wordEnd => inWord before && !inWord after
  | noWordBefore => !inWord before
  | noWordAfter => !inWord after

end Anchor

/-- A regular expression. -/
inductive Pattern where
  /-- No character. -/
  | empty
  /-- Certain characters one after another. -/
  | text (chars : List Char)
  /-- One character of a set. -/
  | char (set : CharSet)
  /-- No character, at a place that meets a condition. -/
  | anchor (condition : Anchor)
  /-- A part whose text is captured. -/
  | group (index : Nat) (inner : Pattern)
  /-- One part after another. -/
  | seq (first second : Pattern)
  /-- One of two parts, the first if possible. -/
  | alt (first second : Pattern)
  /-- A part repeated from `least` to `most` times, as often as possible if `greedy`. -/
  | times (inner : Pattern) (least : Nat) (most : Option Nat) (greedy : Bool)
  deriving DecidableEq, Repr, Inhabited

namespace Pattern

/-- The number of the last group that can take part in a match. -/
def groupCount : Pattern → Nat
  | empty | text _ | char _ | anchor _ => 0
  | group index inner => max index inner.groupCount
  | seq first second | alt first second => max first.groupCount second.groupCount
  | times inner _ _ _ => inner.groupCount

/-! ## Lengths -/

/-- The length of the shortest texts that a pattern can match; none if a part of it matches
nothing at all. -/
def shortest? : Pattern → Option Nat
  | empty | anchor _ => some 0
  | text chars => some chars.length
  | char set => if set.ranges.isEmpty then none else some 1
  | group _ inner => inner.shortest?
  | seq first second => do return (← first.shortest?) + (← second.shortest?)
  | alt first second => do return min (← first.shortest?) (← second.shortest?)
  | times inner least _ _ => inner.shortest?.map (least * ·)

/-- The length of the longest texts that a pattern can match; none if there is no bound, or if a
part of it matches nothing at all. -/
def longest? : Pattern → Option Nat
  | empty | anchor _ => some 0
  | text chars => some chars.length
  | char set => if set.ranges.isEmpty then none else some 1
  | group _ inner => inner.longest?
  | seq first second => do return (← first.longest?) + (← second.longest?)
  | alt first second => do return max (← first.longest?) (← second.longest?)
  | times inner _ most _ => do return (← most) * (← inner.longest?)

/-- Whether every match of a pattern is known to consume a character. -/
def consumes (p : Pattern) : Bool :=
  p.shortest?.any (0 < ·)

/-! ## Building patterns -/

/-- One character of a set. -/
def ofSet (set : CharSet) : Pattern :=
  match set.single? with
  | some c => text [c]
  | none => char set

/-- The parts that follow one another in a pattern. -/
def parts : Pattern → List Pattern
  | empty => []
  | seq first second => first.parts ++ second.parts
  | p => [p]

/-- A part before others; two texts become one. -/
def before (p : Pattern) (others : List Pattern) : List Pattern :=
  match p, others with
  | text chars, text more :: others => text (chars ++ more) :: others
  | p, others => p :: others

/-- The sequence of some parts. -/
def sequence : List Pattern → Pattern
  | [] => empty
  | [p] => p
  | p :: more => seq p (sequence more)

/-- Some patterns one after another. -/
def inOrder (ps : List Pattern) : Pattern :=
  sequence ((ps.flatMap parts).foldr before [])

/-- The alternatives of a pattern. -/
def options : Pattern → List Pattern
  | alt first second => first.options ++ second.options
  | p => [p]

/-- The choice between some alternatives. -/
def choice : List Pattern → Pattern
  | [] => char .nothing
  | [p] => p
  | p :: more => alt p (choice more)

/-- The set of a pattern that is a single character. -/
def letterSet? : Pattern → Option CharSet
  | text [c] => some (.only c)
  | _ => none

/-- The set of a pattern that is a set of characters. -/
def charSet? : Pattern → Option CharSet
  | char set => some set
  | _ => none

/-- The set that some alternatives come to, if all of them are single characters or all are sets. -/
def commonSet? (ps : List Pattern) : Option CharSet :=
  (ps.mapM letterSet? <|> ps.mapM charSet?).map CharSet.unions

/-- The alternatives of some patterns, as a set of characters if they are one. -/
def chosen (ps : List Pattern) : Pattern :=
  match ps.flatMap options with
  | [p] => p
  | ps =>
    match commonSet? ps with
    | some set => ofSet set
    | none => choice ps

/-- The parts with which two sequences begin alike. -/
def sharedStart : List Pattern → List Pattern → List Pattern
  | p :: ps, q :: qs => if p = q then p :: sharedStart ps qs else []
  | _, _ => []

/-- One of some patterns, an earlier one if possible. If all of them are sequences that begin
alike, the choice is made after what they share. -/
def anyOf (ps : List Pattern) : Pattern :=
  let branches := (ps.flatMap options).map parts
  match branches with
  | first :: second :: more =>
    let shared := (second :: more).foldl sharedStart first
    if branches.all (1 < ·.length) && !shared.isEmpty then
      inOrder (shared ++ [chosen (branches.map fun b => inOrder (b.drop shared.length))])
    else chosen ps
  | _ => chosen ps

/-- A pattern from `least` to `most` times. What consumes nothing is needed once at most. -/
def repeated (inner : Pattern) (least : Nat) (most : Option Nat) (greedy : Bool) : Pattern :=
  let (least, most) :=
    if inner.longest? = some 0 then (min least 1, some (min (most.getD 1) 1)) else (least, most)
  if most = some 0 then empty
  else if least = 1 ∧ most = some 1 then inner
  else times inner least most greedy

end Pattern

end MessageMarkup
