import MessageMarkup.Link

/-!
# Looking for links position by position

A reader of markup asks at one position after another whether a link starts there. A scanner
answers from the characters of the text, which it keeps, and from its last search: having found
where the first link from some position on starts, it needs no search for the positions before it.
-/

namespace MessageMarkup

/-- The first match of a link pattern from some position on. -/
structure FirstMatch where
  /-- The position at which the match starts. -/
  start : Nat
  /-- The link there; none if the match covers nothing. -/
  link? : Option Link
  deriving DecidableEq, Repr

/-- The first match at a place or after it; `position` is that of the place. A match at the very
end of the text covers nothing and starts nowhere that a link could. -/
def LinkPattern.firstMatch? (p : LinkPattern) (position : Nat) (place : Cursor) :
    Option FirstMatch :=
  (p.program.find? place).map fun (start, m) =>
    ⟨position + Utf16.length (place.upTo start), LinkPattern.linkOf? start m⟩

/-- A search and its outcome. -/
structure Search where
  /-- The position from which on a match was looked for. -/
  start : Nat
  /-- The first match from there on. -/
  found? : Option FirstMatch
  deriving DecidableEq, Repr

/-- What a search says about the link at a position; none if it says nothing. -/
def Search.answer? (s : Search) (position : Nat) : Option (Option Link) :=
  match s.found? with
  | none => if s.start ≤ position then some none else none
  | some m =>
    if s.start ≤ position ∧ position < m.start then some none
    else if position = m.start then some m.link?
    else none

/-- A link pattern, a text to look for links in, and the last search. -/
structure LinkScanner where
  /-- How links are written. -/
  pattern : LinkPattern
  /-- The text. -/
  text : List Char
  /-- The last search, if there was one. -/
  last? : Option Search := none

namespace LinkScanner

/-- A scanner for some units. -/
def ofUnits (pattern : LinkPattern) (units : List UInt16) : LinkScanner :=
  { pattern, text := Utf16.decode units }

/-- The link at a position, and the scanner to ask next. -/
def linkAt? (s : LinkScanner) (position : Nat) : Option Link × LinkScanner :=
  match s.last?.bind (·.answer? position) with
  | some link? => (link?, s)
  | none =>
    match LinkPattern.placeAt? none s.text position with
    | none => (none, s)
    | some place =>
      let found? := s.pattern.firstMatch? position place
      let link? := found?.bind fun m => if m.start = position then m.link? else none
      (link?, { s with last? := some ⟨position, found?⟩ })

end LinkScanner

end MessageMarkup
