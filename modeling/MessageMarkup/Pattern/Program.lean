import MessageMarkup.Pattern

/-!
# Programs of patterns

A pattern is compiled to a program: numbered instructions, each of which says where to go on. A
`fork` goes on in two ways, of which it prefers the first, and this is where the preferences of a
pattern are. `Pattern.program` compiles a pattern from its end to its start, so that an instruction
is added when what follows it has its number.

A part that is repeated without a bound is followed by a fork that leads back to it. A part that may
consume nothing has to be gone through before that fork is reached, so any number of turns of it is
one turn or more, or none.
-/

namespace MessageMarkup

/-- An instruction of a program. -/
inductive Instruction where
  /-- The pattern matches. -/
  | accept
  /-- One character of a set is consumed. -/
  | consume (set : CharSet) (next : Nat)
  /-- The place has to meet a condition. -/
  | check (condition : Anchor) (next : Nat)
  /-- A group begins. -/
  | enter (next : Nat)
  /-- The group that began last ends, and its text is captured. -/
  | leave (group : Nat) (next : Nat)
  /-- The program goes on in one way or in another. -/
  | fork (first second : Nat)
  deriving DecidableEq, Repr, Inhabited

/-- The instructions of a program so far; their numbers are their positions. -/
abbrev Code := Array Instruction

/-- Adds instructions that go on with an instruction; their entry. -/
abbrev Emitter := Nat → Code → Nat × Code

namespace Emitter

/-- One instruction. -/
def one (instruction : Nat → Instruction) : Emitter := fun next code =>
  (code.size, code.push (instruction next))

/-- A fork between a turn of a repetition and what follows it. -/
def turnOr (greedy : Bool) (turn next : Nat) : Instruction :=
  if greedy then .fork turn next else .fork next turn

/-- So many copies of a part. -/
def copies (part : Emitter) : Nat → Emitter
  | 0, next, code => (next, code)
  | n + 1, next, code =>
    let (entry, code) := part next code
    copies part n entry code

/-- At most so many copies of a part, after each of which the repetition can end. -/
def atMost (part : Emitter) (greedy : Bool) (next : Nat) : Nat → Emitter
  | 0, rest, code => (rest, code)
  | n + 1, rest, code =>
    let (turn, code) := part rest code
    atMost part greedy next n code.size (code.push (turnOr greedy turn next))

/-- A part and, behind it, the fork that leads back to it. The entry is that of the part. -/
def oneOrMore (part : Emitter) (greedy : Bool) : Emitter := fun next code =>
  let fork := code.size
  let (turn, code) := part fork (code.push .accept)
  (turn, code.setIfInBounds fork (turnOr greedy turn next))

/-- Any number of turns. If each of them consumes something, the fork behind the part is the entry,
otherwise another fork in front of it. -/
def zeroOrMore (part : Emitter) (consumes greedy : Bool) : Emitter := fun next code =>
  let fork := code.size
  let (turn, code) := oneOrMore part greedy next code
  if consumes then (fork, code) else (code.size, code.push (turnOr greedy turn next))

/-- From `least` to `most` turns. -/
def between (part : Emitter) (least : Nat) (most : Option Nat) (consumes greedy : Bool) :
    Emitter := fun next code =>
  match most, least with
  | none, 0 => zeroOrMore part consumes greedy next code
  | none, n + 1 =>
    let (last, code) := oneOrMore part greedy next code
    copies part n last code
  | some most, least =>
    let (rest, code) := atMost part greedy next (most - least) next code
    copies part least rest code

end Emitter

/-- The instructions of a pattern. -/
def Pattern.emit : Pattern → Emitter
  | empty, next, code => (next, code)
  | text chars, next, code =>
    chars.foldr (fun c (next, code) => Emitter.one (.consume (.only c)) next code) (next, code)
  | char set, next, code => Emitter.one (.consume set) next code
  | anchor condition, next, code => Emitter.one (.check condition) next code
  | group index inner, next, code =>
    let (leave, code) := Emitter.one (.leave index) next code
    let (entry, code) := inner.emit leave code
    Emitter.one .enter entry code
  | seq first second, next, code =>
    let (middle, code) := second.emit next code
    first.emit middle code
  | alt first second, next, code =>
    let (b, code) := second.emit next code
    let (a, code) := first.emit next code
    (code.size, code.push (.fork a b))
  | times inner least most greedy, next, code =>
    Emitter.between inner.emit least most inner.consumes greedy next code

/-- What a pattern is compiled to. -/
structure Program where
  /-- The instructions. -/
  code : Code
  /-- The number of the first instruction. -/
  start : Nat
  deriving DecidableEq, Repr, Inhabited

/-- The program of a pattern. -/
def Pattern.program (p : Pattern) : Program :=
  let (start, code) := p.emit 0 #[.accept]
  { code, start }

end MessageMarkup
