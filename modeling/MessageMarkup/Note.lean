import MessageMarkup.Text.Quoted

/-!
# Log records

What reading and writing markup report about themselves, as values: the functions that make notes
return them in order beside their result, and nothing depends on them.
-/

namespace MessageMarkup

/-- How much a log record matters. -/
inductive Level where
  | debug
  | trace
  deriving DecidableEq, Repr, Inhabited

/-- The name of a level. -/
def Level.name : Level → String
  | debug => "DEBUG"
  | trace => "TRACE"

/-- A log record. -/
inductive Note where
  /-- A marker with no second one after it stays in the text. -/
  | unterminated (marker : String) (position : Nat)
  /-- A link has been replaced by its label. -/
  | link (position labelLength : Nat)
  /-- Markup has been read. -/
  | parsed (units entities : Nat)
  /-- Markup has been written. -/
  | unparsed (entities : Nat)
  /-- A document has been produced from a text in a format. -/
  | produced (format : String) (entities : Nat)
  deriving DecidableEq, Repr, Inhabited

namespace Note

/-- The level of a record: single steps are traced. -/
def level : Note → Level
  | unterminated .. | link .. => .trace
  | parsed .. | unparsed .. | produced .. => .debug

/-- The text of a record. -/
def text : Note → String
  | unterminated marker position =>
    "unterminated delimiter " ++ quoted marker ++ " at " ++ toString position ++ ", kept as text"
  | link position labelLength =>
    "link at " ++ toString position ++ " with " ++ toString labelLength ++ " label units"
  | parsed units entities =>
    "parsed " ++ toString units ++ " units into " ++ toString entities ++ " entities"
  | unparsed entities => "unparsed " ++ toString entities ++ " entities"
  | produced format entities => format ++ " produced " ++ toString entities ++ " entities"

/-- A record as a line of a log. -/
def line (n : Note) : String :=
  n.level.name ++ " " ++ n.text

end Note

end MessageMarkup
