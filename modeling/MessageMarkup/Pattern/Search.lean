import MessageMarkup.Pattern.Program

/-!
# Searching with a program

A thread is an instruction at a place of a text, with what the groups have captured on the way.
`Program.search` follows the threads that a thread leads to, the preferred one to its end before the
other, until one accepts. What a thread can come to depends on its instruction and its place alone.
So an instruction that has been reached at a place before, by a thread that was preferred and has
accepted nothing, is not followed from there again, and the search ends.

For the same reason `Program.findFrom`, which looks for the first place of a text at which a match
starts, keeps what the searches at earlier places have reached.
-/

namespace MessageMarkup

/-! ## Places in a text -/

/-- A place in a text. -/
structure Cursor where
  /-- The character before the place. -/
  before : Option Char
  /-- The characters after the place. -/
  rest : List Char
  /-- The number of characters between the place at which a search begins and this one. -/
  index : Nat := 0
  deriving DecidableEq, Repr, Inhabited

namespace Cursor

/-- The next character, and the place after it. -/
def next? : Cursor → Option (Char × Cursor)
  | ⟨_, [], _⟩ => none
  | ⟨_, c :: cs, index⟩ => some (c, ⟨some c, cs, index + 1⟩)

/-- The characters between a cursor and one that was reached from it. -/
def upTo (first last : Cursor) : List Char :=
  first.rest.take (last.index - first.index)

end Cursor

/-- What a group has captured. -/
structure Capture where
  /-- The number of the group. -/
  group : Nat
  /-- Where the group began. -/
  first : Cursor
  /-- Where it ended. -/
  last : Cursor
  deriving DecidableEq, Repr, Inhabited

/-- A match: where it ends, and what the groups have captured, the latest first. -/
structure Match where
  /-- The place after the match. -/
  last : Cursor
  /-- The captures. -/
  captures : List Capture
  deriving DecidableEq, Repr, Inhabited

/-- The text of a group; empty if the group took no part. -/
def Match.captured (m : Match) (group : Nat) : List Char :=
  match m.captures.find? (·.group == group) with
  | some c => c.first.upTo c.last
  | none => []

/-! ## Threads -/

/-- A program at work. -/
structure Thread where
  /-- The number of the instruction that comes next. -/
  state : Nat
  /-- The place in the text. -/
  place : Cursor
  /-- Where the groups began that have not ended, the innermost first. -/
  begun : List Cursor := []
  /-- What has been captured so far, the latest first. -/
  captures : List Capture := []
  deriving DecidableEq, Repr, Inhabited

namespace Thread

/-- The thread after a group has begun. -/
def enter (t : Thread) (next : Nat) : Thread :=
  { t with state := next, begun := t.place :: t.begun }

/-- The thread after the group that began last has ended. -/
def leave (t : Thread) (group next : Nat) : Thread :=
  match t.begun with
  | [] => { t with state := next }
  | first :: begun =>
    { t with state := next, begun, captures := ⟨group, first, t.place⟩ :: t.captures }

/-- The threads that an instruction leads to, the preferred one first. -/
def after (t : Thread) : Instruction → List Thread
  | .accept => []
  | .consume set next =>
    match t.place.next? with
    | none => []
    | some (c, place) => if set.contains c then [{ t with state := next, place }] else []
  | .check condition next =>
    if condition.holds t.place.before t.place.rest.head? then [{ t with state := next }] else []
  | .enter next => [t.enter next]
  | .leave group next => [t.leave group next]
  | .fork first second => [{ t with state := first }, { t with state := second }]

end Thread

/-! ## What has been reached -/

/-- The instructions that have been reached at each place of a text. -/
structure Reached where
  /-- For each place a bit for each instruction, in words of 32 bits. -/
  rows : Array (Array Nat)
  deriving DecidableEq, Repr, Inhabited

namespace Reached

/-- Nothing has been reached, at any of some places. -/
def nothing (places : Nat) : Reached :=
  ⟨Array.replicate places #[]⟩

/-- Whether the instruction of a thread has been reached at its place. -/
def contains (r : Reached) (t : Thread) : Bool :=
  ((r.rows.getD t.place.index #[]).getD (t.state / 32) 0).testBit (t.state % 32)

/-- The instruction of a thread has been reached at its place. -/
def insert (r : Reached) (t : Thread) : Reached :=
  let word := t.state / 32
  ⟨r.rows.modify t.place.index fun row =>
    let row := if word < row.size then row else row ++ Array.replicate (word + 1 - row.size) 0
    row.modify word (· ||| 1 <<< (t.state % 32))⟩

end Reached

/-! ## Searching -/

namespace Program

/-- Follows some threads, the first of them to its end before the others, in at most so many steps.
If one of them accepts, this is the match; in any case the result says what has been reached. -/
def follow (p : Program) : Nat → Reached → List Thread → Option Match × Reached
  | 0, reached, _ | _ + 1, reached, [] => (none, reached)
  | steps + 1, reached, t :: others =>
    if reached.contains t then p.follow steps reached others
    else
      match p.code[t.state]? with
      | none => p.follow steps (reached.insert t) others
      | some .accept => (some ⟨t.place, t.captures⟩, reached)
      | some i => p.follow steps (reached.insert t) (t.after i ++ others)

/-- A bound for the steps from a place with so many characters after it: every instruction is
followed at most once at each place, and leads to at most two threads. -/
def stepsFor (p : Program) (length : Nat) : Nat :=
  2 * p.code.size * (length + 1) + 2

/-- The preferred match that starts at a place. -/
def matchAt? (p : Program) (place : Cursor) : Option Match :=
  let length := place.rest.length
  (p.follow (p.stepsFor length) (.nothing (place.index + length + 1)) [⟨p.start, place, [], []⟩]).1

/-- The first place at which a match starts, among the places before each of some characters, and
the match there. -/
def findFrom (p : Program) (steps : Nat) :
    Reached → Option Char → List Char → Nat → Option (Cursor × Match)
  | _, _, [], _ => none
  | reached, before, c :: cs, index =>
    let place : Cursor := ⟨before, c :: cs, index⟩
    match p.follow steps reached [⟨p.start, place, [], []⟩] with
    | (some m, _) => some (place, m)
    | (none, reached) => p.findFrom steps reached (some c) cs (index + 1)

/-- The first place from a place on at which a match starts, and the match there. The end of the
text is not looked at. -/
def find? (p : Program) (place : Cursor) : Option (Cursor × Match) :=
  let length := place.rest.length
  p.findFrom (p.stepsFor length) (.nothing (place.index + length + 1)) place.before place.rest
    place.index

end Program

end MessageMarkup
