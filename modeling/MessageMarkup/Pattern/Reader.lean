import MessageMarkup.Pattern.Size
import MessageMarkup.Text.Letter
import MessageMarkup.Text.LetterCase

/-!
# Reading patterns

The written form of a pattern: literals and escapes, bracketed classes with ranges, nesting and set
operations, groups with or without a number or a name, alternatives, repetitions with their lazy
forms, anchors, and flags for letter case (`i`), lines (`m`), dots (`s`), carriage returns (`R`),
greed (`U`) and layout (`x`). A repeated repetition is read as it stands. There are no back
references and no look-around. Patterns are over characters, so that the flag for them (`u`) changes
nothing; a pattern that switches it off is refused, as is one that names a class by a property of
its characters.

The reader goes through the text once, with a stack of the groups that are open. `Pattern.read`
bounds its steps by the length of the text, of which every step consumes something. A pattern must
not be nested too deeply, nor be too large.
-/

namespace MessageMarkup.Pattern

/-- Why a text is no pattern. -/
inductive Fault where
  /-- A closing parenthesis without an opening one. -/
  | unopenedGroup
  /-- An opening parenthesis without a closing one. -/
  | unclosedGroup
  /-- An opening bracket without a closing one. -/
  | unclosedClass
  /-- A repetition with nothing before it. -/
  | nothingToRepeat
  /-- A count that is not closed, is no number, or whose bounds are reversed. -/
  | badCount
  /-- A backslash at the end, or before a character that it gives no meaning. -/
  | badEscape
  /-- A character number that is missing, too short or no character. -/
  | badCharacter
  /-- A group name that is empty, not closed or has characters that no name has. -/
  | badGroupName
  /-- Two groups of one name. -/
  | repeatedGroupName (name : String)
  /-- A look ahead or behind. -/
  | lookAround
  /-- Flags that are unknown, repeated, missing or not closed. -/
  | badFlags
  /-- A range whose ends are reversed or no characters. -/
  | badRange
  /-- An anchor in a class. -/
  | anchorInClass
  /-- Parts inside parts, too many levels of them. -/
  | tooDeep
  /-- Counts that make the pattern too large. -/
  | tooLarge
  /-- A class of the characters with some property, or a part over bytes. -/
  | unsupported
  deriving DecidableEq, Repr, Inhabited

/-- How the text that follows is to be read. -/
structure Flags where
  /-- Letters stand for both their cases. -/
  anyCase : Bool := false
  /-- `^` and `$` also match at line breaks. -/
  lines : Bool := false
  /-- A dot also matches a line break. -/
  dotAll : Bool := false
  /-- A carriage return ends a line as well. -/
  returns : Bool := false
  /-- Repetitions are lazy, and greedy with a question mark. -/
  lazy : Bool := false
  /-- White space and comments mean nothing. -/
  layout : Bool := false
  deriving DecidableEq, Repr, Inhabited

/-! ## Layout -/

/-- The text after the white space and the comments at its start. -/
def afterLayout : List Char → List Char
  | [] => []
  | c :: cs =>
    if isWhiteSpace c then afterLayout cs
    else if c == '#' then inComment cs
    else c :: cs
where
  /-- The text after a comment and the layout that follows it. -/
  inComment : List Char → List Char
    | [] => []
    | c :: cs => if c == '\n' then afterLayout cs else inComment cs

namespace Flags

/-- The text after what means nothing in it. -/
def skip (flags : Flags) (cs : List Char) : List Char :=
  if flags.layout then afterLayout cs else cs

/-- What a hyphen in a class looks at to see if a range goes on behind it: the next character. Of
layout it skips white space and the sign that opens a comment. -/
def peek (flags : Flags) (cs : List Char) : Option Char :=
  if flags.layout then
    match cs.dropWhile isWhiteSpace with
    | '#' :: cs => (cs.dropWhile isWhiteSpace).head?
    | cs => cs.head?
  else cs.head?

/-- The characters of a kind at the start of a text, at most so many, and the text after them.
There may be layout between them. -/
def spaced (flags : Flags) (kind : Char → Bool) : Nat → List Char → List Char × List Char
  | 0, cs => ([], cs)
  | n + 1, cs =>
    match flags.skip cs with
    | [] => ([], [])
    | c :: cs =>
      if kind c then
        let (more, cs) := flags.spaced kind n cs
        (c :: more, cs)
      else ([], c :: cs)

/-- All characters of a kind at the start of a text, and the text after them. There may be layout
between and behind them. -/
def allSpaced (flags : Flags) (kind : Char → Bool) (cs : List Char) : List Char × List Char :=
  let (found, cs) := flags.spaced kind cs.length cs
  (found, flags.skip cs)

end Flags

/-! ## Escapes -/

/-- The value of a hexadecimal digit. -/
def hexValue? (c : Char) : Option Nat :=
  if '0' ≤ c ∧ c ≤ '9' then some (c.toNat - '0'.toNat)
  else if 'a' ≤ c ∧ c ≤ 'f' then some (c.toNat - 'a'.toNat + 10)
  else if 'A' ≤ c ∧ c ≤ 'F' then some (c.toNat - 'A'.toNat + 10)
  else none

/-- Whether a character is a hexadecimal digit. -/
def isHexDigit (c : Char) : Bool :=
  (hexValue? c).isSome

/-- The character of a number in hexadecimal digits. -/
def hexCharacter (digits : List Char) : Except Fault Char :=
  match digits.foldlM (fun n c => (hexValue? c).map (16 * n + ·)) 0 with
  | some n => if n.isValidChar ∧ digits ≠ [] then .ok (Char.ofNat n) else .error .badCharacter
  | none => .error .badCharacter

/-- A character number of `count` digits, or of any number of them in braces. -/
def readHex (flags : Flags) (count : Nat) (cs : List Char) : Except Fault (Char × List Char) :=
  match flags.skip cs with
  | '{' :: cs =>
    match flags.allSpaced isHexDigit cs with
    | (digits, '}' :: cs) => (hexCharacter digits).map (·, cs)
    | _ => .error .badCharacter
  | cs =>
    let (digits, cs) := flags.spaced isHexDigit count cs
    if digits.length = count then (hexCharacter digits).map (·, cs) else .error .badCharacter

/-- What a backslash and the characters after it stand for. -/
inductive Escaped where
  /-- A character. -/
  | literal (c : Char)
  /-- A named class. -/
  | charSet (set : CharSet)
  /-- A condition on the place. -/
  | anchor (condition : Anchor)
  deriving DecidableEq, Repr, Inhabited

/-- Whether a backslash makes a character stand for itself. -/
def isEscapable (c : Char) : Bool :=
  c.toNat < 0x80 && !c.isAlphanum && c != '<' && c != '>'

/-- The word edges that have a name. -/
def namedEdge? : String → Option Anchor
  | "start" => some .wordStart
  | "end" => some .wordEnd
  | "start-half" => some .noWordBefore
  | "end-half" => some .noWordAfter
  | _ => none

/-- A word edge, after its letter: any, or the one that is named in braces. Braces that do not begin
like a name are left for the repetition that they are. -/
def readEdge (flags : Flags) (cs : List Char) : Except Fault (Anchor × List Char) :=
  let inName (c : Char) : Bool := c.isAlpha || c == '-'
  match cs with
  | '{' :: inner =>
    match flags.skip inner with
    | [] => .error .badEscape
    | c :: _ =>
      if !inName c then .ok (.wordEdge, cs)
      else
        match flags.allSpaced inName inner with
        | (name, '}' :: cs) =>
          match namedEdge? (String.ofList name) with
          | some edge => .ok (edge, cs)
          | none => .error .badEscape
        | _ => .error .badEscape
  | cs => .ok (.wordEdge, cs)

/-- What follows a backslash. -/
def readEscape (flags : Flags) : List Char → Except Fault (Escaped × List Char)
  | [] => .error .badEscape
  | 'a' :: cs => .ok (.literal '\x07', cs)
  | 'f' :: cs => .ok (.literal '\x0c', cs)
  | 't' :: cs => .ok (.literal '\t', cs)
  | 'n' :: cs => .ok (.literal '\n', cs)
  | 'r' :: cs => .ok (.literal '\r', cs)
  | 'v' :: cs => .ok (.literal '\x0b', cs)
  | 'x' :: cs => (readHex flags 2 cs).map fun (c, cs) => (.literal c, cs)
  | 'u' :: cs => (readHex flags 4 cs).map fun (c, cs) => (.literal c, cs)
  | 'U' :: cs => (readHex flags 8 cs).map fun (c, cs) => (.literal c, cs)
  | 'd' :: cs => .ok (.charSet .digit, cs)
  | 'D' :: cs => .ok (.charSet CharSet.digit.compl, cs)
  | 's' :: cs => .ok (.charSet .space, cs)
  | 'S' :: cs => .ok (.charSet CharSet.space.compl, cs)
  | 'w' :: cs => .ok (.charSet .word, cs)
  | 'W' :: cs => .ok (.charSet CharSet.word.compl, cs)
  | 'A' :: cs => .ok (.anchor .textStart, cs)
  | 'z' :: cs => .ok (.anchor .textEnd, cs)
  | 'b' :: cs => (readEdge flags cs).map fun (edge, cs) => (.anchor edge, cs)
  | 'B' :: cs => .ok (.anchor .noWordEdge, cs)
  | '<' :: cs => .ok (.anchor .wordStart, cs)
  | '>' :: cs => .ok (.anchor .wordEnd, cs)
  | 'p' :: _ | 'P' :: _ => .error .unsupported
  | c :: cs => if isEscapable c then .ok (.literal c, cs) else .error .badEscape

/-! ## Depth

A leaf has no depth. A class, a group and a repetition are one level above what is inside, and so
are a sequence, a choice and a union of more than one item. -/

/-- The depth of some items next to one another. -/
def nesting : List Nat → Nat
  | [] => 0
  | [depth] => depth
  | depths => depths.foldl max 0 + 1

/-- The greatest depth of a pattern. -/
def nestLimit : Nat := 250

/-- A level above something, if there may be one. -/
def levelAbove (depth : Nat) : Except Fault Nat :=
  if depth < nestLimit then .ok (depth + 1) else .error .tooDeep

/-! ## Classes -/

/-- A set of characters, with the other cases of its letters if the flags say so. -/
def Flags.cases (flags : Flags) (set : CharSet) : CharSet :=
  if flags.anyCase then set.withCases else set

/-- One item of a class: a character or what an escape stands for. -/
def readClassItem (flags : Flags) : List Char → Except Fault (Escaped × List Char)
  | [] => .error .unclosedClass
  | '\\' :: cs => readEscape flags cs
  | c :: cs => .ok (.literal c, cs)

/-- The set of an item on its own. -/
def Escaped.classSet : Escaped → Except Fault CharSet
  | .literal c => .ok (.only c)
  | .charSet set => .ok set
  | .anchor _ => .error .anchorInClass

/-- An item of a class, or a range of which it is the start. -/
def readClassRange (flags : Flags) (cs : List Char) : Except Fault (CharSet × List Char) := do
  let (first, cs) ← readClassItem flags cs
  match flags.skip cs with
  | [] => .error .unclosedClass
  | '-' :: after =>
    if flags.peek after = some ']' ∨ flags.peek after = some '-' then
      return (← first.classSet, '-' :: after)
    else
      let (last, cs) ← readClassItem flags (flags.skip after)
      match first, last with
      | .literal a, .literal b => if a ≤ b then return (.range a b, cs) else .error .badRange
      | _, _ => .error .badRange
  | cs => return (← first.classSet, cs)

/-- A class that is named between colons, as in `[:alpha:]`, after its bracket. -/
def namedClass? (flags : Flags) : List Char → Option (CharSet × List Char)
  | ':' :: cs =>
    let (negated, cs) := match cs with
      | '^' :: cs => (true, cs)
      | cs => (false, cs)
    let name := cs.takeWhile (· != ':')
    match cs.drop name.length, CharSet.ofClassName? (String.ofList name) with
    | ':' :: ']' :: rest, some set =>
      some (if negated then (flags.cases set).compl else flags.cases set, rest)
    | _, _ => none
  | _ => none

/-- A set that is read in a class, with its depth. -/
structure ClassPart where
  /-- The set. -/
  set : CharSet
  /-- The depth of its written form. -/
  depth : Nat := 0

/-- A class that has been opened and not closed. -/
structure OpenClass where
  /-- Whether it stands for the characters outside. -/
  negated : Bool := false
  /-- The sets read since the last operation, the latest first. -/
  parts : List ClassPart := []
  /-- The last operation, with its first operand. -/
  operation? : Option ((CharSet → CharSet → CharSet) × ClassPart) := none

namespace OpenClass

/-- The class with one more set. -/
def add (o : OpenClass) (part : ClassPart) : OpenClass :=
  { o with parts := part :: o.parts }

/-- What the class has come to so far. -/
def operand (flags : Flags) (o : OpenClass) : ClassPart :=
  let all : ClassPart :=
    { set := .unions (o.parts.map ClassPart.set), depth := nesting (o.parts.map ClassPart.depth) }
  match o.operation? with
  | none => all
  | some (operate, left) =>
    { set := operate (flags.cases left.set) (flags.cases all.set)
      depth := max left.depth all.depth + 1 }

/-- The class with an operation whose second operand follows. -/
def apply (flags : Flags) (o : OpenClass) (operate : CharSet → CharSet → CharSet) : OpenClass :=
  { o with parts := [], operation? := some (operate, o.operand flags) }

/-- The class when it is closed. -/
def close (flags : Flags) (o : OpenClass) : ClassPart :=
  let inner := o.operand flags
  let set := flags.cases inner.set
  { set := if o.negated then set.compl else set, depth := inner.depth + 1 }

end OpenClass

/-- The start of a class: a negation, hyphens that stand for themselves, or a closing bracket that
does. -/
def openClass (flags : Flags) (cs : List Char) : OpenClass × List Char :=
  let (negated, cs) := match flags.skip cs with
    | '^' :: cs => (true, cs)
    | cs => (false, cs)
  match flags.allSpaced (· == '-') cs with
  | ([], ']' :: cs) => ({ negated, parts := [⟨.only ']', 0⟩] }, cs)
  | (hyphens, cs) => ({ negated, parts := hyphens.map fun c => ⟨.only c, 0⟩ }, cs)

/-- The rest of an open class inside others, in at most so many steps. -/
def readClass (flags : Flags) :
    Nat → OpenClass → List OpenClass → List Char → Except Fault (ClassPart × List Char)
  | 0, _, _, _ => .error .unclosedClass
  | steps + 1, o, outer, cs =>
    match flags.skip cs with
    | [] => .error .unclosedClass
    | ']' :: cs =>
      match outer with
      | [] => .ok (o.close flags, cs)
      | parent :: outer => readClass flags steps (parent.add (o.close flags)) outer cs
    | '&' :: '&' :: cs => readClass flags steps (o.apply flags .inter) outer cs
    | '-' :: '-' :: cs => readClass flags steps (o.apply flags .minus) outer cs
    | '~' :: '~' :: cs => readClass flags steps (o.apply flags .either) outer cs
    | '[' :: cs =>
      match namedClass? flags cs with
      | some (set, cs) => readClass flags steps (o.add ⟨set, 0⟩) outer cs
      | none =>
        let (inner, cs) := openClass flags cs
        readClass flags steps inner (o :: outer) cs
    | cs => do
      let (set, cs) ← readClassRange flags cs
      readClass flags steps (o.add ⟨set, 0⟩) outer cs

/-! ## Counts, flags and names -/

/-- A number in decimal digits, with the white space around it. -/
def readDecimal (flags : Flags) (cs : List Char) : Except Fault (Nat × List Char) :=
  let (digits, cs) := flags.allSpaced Char.isDigit (cs.dropWhile isWhiteSpace)
  let n := digits.foldl (fun n c => 10 * n + (c.toNat - '0'.toNat)) 0
  if digits.isEmpty || UInt32.size ≤ n then .error .badCount
  else .ok (n, cs.dropWhile isWhiteSpace)

/-- The bounds of a counted repetition, after its opening brace. -/
def readCount (flags : Flags) (cs : List Char) :
    Except Fault (Nat × Option Nat × List Char) := do
  let (least, cs) ← readDecimal flags (flags.skip cs)
  match cs with
  | '}' :: cs => return (least, some least, cs)
  | ',' :: cs =>
    match flags.skip cs with
    | '}' :: cs => return (least, none, cs)
    | cs =>
      let (most, cs) ← readDecimal flags cs
      match cs with
      | '}' :: cs => if least ≤ most then return (least, some most, cs) else .error .badCount
      | _ => .error .badCount
  | _ => .error .badCount

/-- The flags with one of them set to a value. -/
def Flags.set (flags : Flags) (value : Bool) : Char → Except Fault Flags
  | 'i' => .ok { flags with anyCase := value }
  | 'm' => .ok { flags with lines := value }
  | 's' => .ok { flags with dotAll := value }
  | 'R' => .ok { flags with returns := value }
  | 'U' => .ok { flags with lazy := value }
  | 'x' => .ok { flags with layout := value }
  | 'u' => if value then .ok flags else .error .unsupported
  | _ => .error .badFlags

/-- The letters of flags, up to the colon or parenthesis that ends them, with what they make of the
flags so far. The letters behind a hyphen are switched off. -/
def readFlags (seen : List Char) (value : Bool) (flags : Flags) :
    List Char → Except Fault (Flags × List Char)
  | [] => .error .badFlags
  | c :: cs =>
    if c == ':' || c == ')' then
      if seen.head? = some '-' then .error .badFlags else .ok (flags, c :: cs)
    else if seen.contains c then .error .badFlags
    else if c == '-' then readFlags ('-' :: seen) false flags cs
    else do readFlags (c :: seen) value (← flags.set value c) cs

/-- Whether a group name can start with a character. -/
def startsName (c : Char) : Bool :=
  c == '_' || CharSet.letter.contains c

/-- Whether a group name can go on with a character. -/
def continuesName (c : Char) : Bool :=
  startsName c || CharSet.digit.contains c || CharSet.otherNumeral.contains c ||
    c == '.' || c == '[' || c == ']'

/-- A group name, with the bracket that closes it. -/
def readGroupName (cs : List Char) : Except Fault (String × List Char) :=
  let name := cs.takeWhile (· != '>')
  match name, cs.drop name.length with
  | c :: more, _ :: rest =>
    if startsName c && more.all continuesName then .ok (String.ofList name, rest)
    else .error .badGroupName
  | _, _ => .error .badGroupName

/-! ## Groups and branches -/

/-- One item of a branch. -/
structure Item where
  /-- The part of the pattern that it is. Flags for what follows are none, and cannot be
  repeated. -/
  part? : Option Pattern
  /-- The depth of its written form. -/
  depth : Nat := 0

/-- The branches of a group that is still open. -/
structure Branches where
  /-- The finished branches with their depths, the latest first. -/
  done : List (Pattern × Nat) := []
  /-- The items of the current branch, the latest first. -/
  items : List Item := []

namespace Branches

/-- The current branch, with its depth. -/
def current (b : Branches) : Pattern × Nat :=
  (inOrder (b.items.reverse.filterMap Item.part?), nesting (b.items.map Item.depth))

/-- The branches with another one begun. -/
def next (b : Branches) : Branches :=
  { done := b.current :: b.done }

/-- The pattern of all branches, with its depth. -/
def close (b : Branches) : Pattern × Nat :=
  let all := b.next.done.reverse
  (anyOf (all.map (·.1)), nesting (all.map (·.2)))

/-- The branches with one more item. -/
def add (b : Branches) (item : Item) : Branches :=
  { b with items := item :: b.items }

end Branches

/-- A group that surrounds the place of the reader. -/
structure Outer where
  /-- The number of the group that is open inside, if it captures. -/
  index? : Option Nat
  /-- The flags to go on with after it. -/
  flags : Flags
  /-- What has been read before it. -/
  branches : Branches

/-- What has been read of a pattern. -/
structure Progress where
  /-- The flags in force. -/
  flags : Flags := {}
  /-- The number of capture groups so far. -/
  groups : Nat := 0
  /-- Their names. -/
  names : List String := []
  /-- The branches of the innermost open group. -/
  branches : Branches := {}
  /-- The groups around it, the innermost first. -/
  outer : List Outer := []

namespace Progress

/-- One more item. -/
def add (s : Progress) (item : Item) : Progress :=
  { s with branches := s.branches.add item }

/-- One more character of a set. -/
def addSet (s : Progress) (set : CharSet) : Progress :=
  s.add ⟨some (ofSet set), 0⟩

/-- One more character that stands for itself. -/
def addLiteral (s : Progress) (c : Char) : Progress :=
  s.addSet (s.flags.cases (.only c))

/-- One more condition on the place. -/
def addAnchor (s : Progress) (condition : Anchor) : Progress :=
  s.add ⟨some (anchor condition), 0⟩

/-- A group is opened. -/
def openGroup (s : Progress) (index? : Option Nat) (flags : Flags) : Progress :=
  { s with flags, branches := {}, outer := ⟨index?, s.flags, s.branches⟩ :: s.outer }

/-- A group that captures is opened. -/
def openCapture (s : Progress) : Progress :=
  { s.openGroup (some (s.groups + 1)) s.flags with groups := s.groups + 1 }

/-- A group that captures is opened under a name. -/
def openNamed (s : Progress) (name : String) : Except Fault Progress :=
  if s.names.contains name then .error (.repeatedGroupName name)
  else .ok { s.openCapture with names := name :: s.names }

/-- The innermost group is closed. -/
def closeGroup (s : Progress) : Except Fault Progress :=
  match s.outer with
  | [] => .error .unopenedGroup
  | o :: outer => do
    let (inner, depth) := s.branches.close
    let part := match o.index? with
      | some index => group index inner
      | none => inner
    return { s with
      flags := o.flags, outer, branches := o.branches.add ⟨some part, ← levelAbove depth⟩ }

/-- The last item is repeated; a question mark after the repetition changes its greed. -/
def repeatLast (s : Progress) (least : Nat) (most : Option Nat) (cs : List Char) :
    Except Fault (Progress × List Char) :=
  match s.branches.items with
  | ⟨some p, depth⟩ :: items => do
    let (marked, cs) := match cs with
      | '?' :: cs => (true, cs)
      | cs => (false, cs)
    let part := repeated p least most (marked == s.flags.lazy)
    let item : Item := ⟨some part, ← levelAbove depth⟩
    return ({ s with branches := { s.branches with items := item :: items } }, cs)
  | _ => .error .nothingToRepeat

/-- What follows an opening parenthesis and a question mark: a name, or flags for the group or for
what follows. -/
def special (s : Progress) (cs : List Char) : Except Fault (Progress × List Char) :=
  match cs with
  | '=' :: _ | '!' :: _ | '<' :: '=' :: _ | '<' :: '!' :: _ => .error .lookAround
  | 'P' :: '<' :: cs | '<' :: cs => do
    let (name, cs) ← readGroupName cs
    return (← s.openNamed name, cs)
  | _ => do
    let (flags, rest) ← readFlags [] true s.flags cs
    match cs, rest with
    | ')' :: _, _ => .error .nothingToRepeat
    | _, ')' :: rest => return ({ s.add ⟨none, 0⟩ with flags }, rest)
    | _, _ :: rest => return (s.openGroup none flags, rest)
    | _, [] => .error .badFlags

/-- One step of the reader at a character. -/
def step (s : Progress) (c : Char) (cs : List Char) : Except Fault (Progress × List Char) :=
  match c with
  | '(' =>
    match s.flags.skip cs with
    | '?' :: cs => s.special cs
    | _ => .ok (s.openCapture, cs)
  | ')' => s.closeGroup.map (·, cs)
  | '|' => .ok ({ s with branches := s.branches.next }, cs)
  | '*' => s.repeatLast 0 none cs
  | '+' => s.repeatLast 1 none cs
  | '?' => s.repeatLast 0 (some 1) cs
  | '{' =>
    match s.branches.items with
    | ⟨some _, _⟩ :: _ => do
      let (least, most, cs) ← readCount s.flags cs
      s.repeatLast least most (s.flags.skip cs)
    | _ => .error .nothingToRepeat
  | '[' => do
    let (o, cs) := openClass s.flags cs
    let (part, cs) ← readClass s.flags (cs.length + 1) o [] cs
    return (s.add ⟨some (ofSet part.set), part.depth⟩, cs)
  | '\\' => do
    let (escaped, cs) ← readEscape s.flags cs
    match escaped with
    | .literal c => return (s.addLiteral c, cs)
    | .charSet set => return (s.addSet set, cs)
    | .anchor condition => return (s.addAnchor condition, cs)
  | '.' =>
    let breaks := if s.flags.returns then ['\n', '\r'] else ['\n']
    .ok (s.addSet
      (if s.flags.dotAll then .anything else (CharSet.unions (breaks.map CharSet.only)).compl), cs)
  | '^' =>
    .ok (s.addAnchor
      (if !s.flags.lines then .textStart
        else if s.flags.returns then .returnLineStart else .lineStart), cs)
  | '$' =>
    .ok (s.addAnchor
      (if !s.flags.lines then .textEnd
        else if s.flags.returns then .returnLineEnd else .lineEnd), cs)
  | c => .ok (s.addLiteral c, cs)

/-- The pattern at the end of the text. -/
def finish (s : Progress) : Except Fault Pattern :=
  let (p, depth) := s.branches.close
  if !s.outer.isEmpty then .error .unclosedGroup
  else if nestLimit < depth then .error .tooDeep
  else if !p.fits then .error .tooLarge
  else .ok p

/-- The pattern of the rest of the text, in at most so many steps. -/
def run : Nat → Progress → List Char → Except Fault Pattern
  | 0, s, _ => s.finish
  | steps + 1, s, cs =>
    match s.flags.skip cs with
    | [] => s.finish
    | c :: cs => do
      let (s, cs) ← s.step c cs
      run steps s cs

end Progress

/-- The pattern that a text writes. -/
def read (text : String) : Except Fault Pattern :=
  Progress.run (text.toList.length + 1) {} text.toList

end MessageMarkup.Pattern
