import MessageMarkup.Text.Utf16
import MessageMarkup.Pattern.Reader
import MessageMarkup.Pattern.Search

/-!
# Links in markup

A link pattern finds links in a text: its first group is the label that stays visible, its second
the url. `LinkPattern.linkAt?` reads a link that starts at a position of the text. The pattern sees
all of the text, so its anchors mean the ends of the message and not of what is left to read.
-/

namespace MessageMarkup

/-- A link found in a text. -/
structure Link where
  /-- The number of units of the whole link. -/
  length : Nat
  /-- The units that stay visible. -/
  label : List UInt16
  /-- Where the link leads. -/
  url : String
  /-- A link covers something. -/
  length_pos : 0 < length
  deriving DecidableEq, Repr

/-- How links are written: a pattern of at least two groups, and the text it was read from. -/
structure LinkPattern where
  /-- The text of the pattern. -/
  source : String
  /-- The pattern. -/
  pattern : Pattern
  /-- What the pattern is compiled to. -/
  program : Program := pattern.program
  /-- The program is that of the pattern. -/
  program_eq : program = pattern.program := by rfl

/-- Why a text does not say how links are written. -/
inductive LinkPattern.Fault where
  /-- The text is no pattern. -/
  | unreadable (fault : Pattern.Fault)
  /-- The pattern has too few groups to have both a label and a url. -/
  | tooFewGroups (found : Nat)
  deriving DecidableEq, Repr, Inhabited

namespace LinkPattern

/-- Two link patterns are the same if they are written in the same way. -/
instance : BEq LinkPattern := ⟨fun a b => a.source == b.source⟩

/-- The link pattern that a text writes. -/
def read (source : String) : Except Fault LinkPattern :=
  match Pattern.read source with
  | .error fault => .error (.unreadable fault)
  | .ok pattern =>
    if pattern.groupCount < 2 then .error (.tooFewGroups pattern.groupCount)
    else .ok { source, pattern }

/-- The text of the standard link pattern. -/
def standardSource : String :=
  "\\[([^\\]]*?)\\]\\(([\\s\\S]*?)\\)"

/-- The standard link pattern: a label in brackets and a url in parentheses, both as short as
possible. -/
def standard : LinkPattern where
  source := standardSource
  pattern :=
    .seq (.text ['[']) <|
    .seq (.group 1 (.times (.char (CharSet.only ']').compl) 0 none false)) <|
    .seq (.text [']', '(']) <|
    .seq (.group 2 (.times (.char .anything) 0 none false)) <|
    .text [')']

/-- Where nothing is said, links are written in the standard way. -/
instance : Inhabited LinkPattern := ⟨standard⟩

/-- The link that a match from a place on writes, unless it covers nothing. -/
def linkOf? (place : Cursor) (m : Match) : Option Link :=
  let whole := Utf16.length (place.upTo m.last)
  if h : 0 < whole then
    some
      { length := whole
        label := Utf16.encode (m.captured 1)
        url := String.ofList (m.captured 2)
        length_pos := h }
  else none

/-- The place in a text at a number of units after another place. There is none at the end of the
text or between the halves of a surrogate pair. -/
def placeAt? (before : Option Char) : List Char → Nat → Option Cursor
  | [], _ => none
  | c :: cs, 0 => some { before, rest := c :: cs }
  | c :: cs, n =>
    if Utf16.width c ≤ n then placeAt? (some c) cs (n - Utf16.width c) else none

/-- The link that starts at a place. -/
def linkFrom? (p : LinkPattern) (place : Cursor) : Option Link :=
  (p.program.matchAt? place).bind (linkOf? place)

/-- The link that starts at a position of some units. -/
def linkAt? (p : LinkPattern) (units : List UInt16) (position : Nat) : Option Link :=
  (placeAt? none (Utf16.decode units) position).bind p.linkFrom?

end LinkPattern

end MessageMarkup
