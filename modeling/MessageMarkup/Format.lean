import MessageMarkup.Format.Scan
import MessageMarkup.Format.Insertion

/-!
# The markdown format

A format says which markers and which links markup is written with. `Format.parse` reads a message
from markup and `Format.unparse` writes it back; neither can fail. A format without a table of its
own uses the standard one, and one whose table is empty takes markup for plain text.
-/

namespace MessageMarkup

/-- How messages are written as markup. -/
structure Format where
  /-- The delimiters, if not the standard ones. -/
  delimiters? : Option Delimiters := none
  /-- How links are written. -/
  links : LinkPattern := .standard
  deriving BEq, Inhabited

/-- Why a format cannot be set up. -/
inductive Format.Fault where
  /-- The delimiters make no table. -/
  | delimiter (fault : Delimiters.Fault)
  /-- Links cannot be written like that. -/
  | linkPattern (fault : LinkPattern.Fault)
  deriving DecidableEq, Repr, Inhabited

namespace Format

/-- The name of the format. -/
def name : String := "markdown"

/-- The table in use. -/
def table (f : Format) : Delimiters :=
  f.delimiters?.getD .standard

/-- The format with a table of its own. -/
def withDelimiters (f : Format) (table : Delimiters) : Format :=
  { f with delimiters? := some table }

/-- The format that takes markup for plain text. -/
def withoutDelimiters (f : Format) : Format :=
  f.withDelimiters {}

/-- The format with another way of writing links. -/
def withLinks (f : Format) (links : LinkPattern) : Format :=
  { f with links }

/-- The message of some markup, and the records of reading it. -/
def parseNoting (f : Format) (markup : String) : Message × List Note :=
  parseWith f.table f.links markup

/-- The message of some markup. -/
def parse (f : Format) (markup : String) : Message :=
  (f.parseNoting markup).1

/-- The markup of a message, and the records of writing it. -/
def unparseNoting (f : Format) (m : Message) : String × List Note :=
  unparseWith f.table m

/-- The markup of a message. -/
def unparse (f : Format) (m : Message) : String :=
  (f.unparseNoting m).1

end Format

namespace Delimiters

/-- A table for a format, or why there is none. -/
def forFormat (ds : List Delimiter) : Except Format.Fault Delimiters :=
  (ofList ds).mapError .delimiter

end Delimiters

/-- A link pattern for a format, or why there is none. -/
def LinkPattern.forFormat (source : String) : Except Format.Fault LinkPattern :=
  (read source).mapError .linkPattern

/-- What is said about a format that cannot be set up. The wording of an unreadable pattern is left
to its cause and has none here. -/
def Format.Fault.message? : Format.Fault → Option String
  | delimiter .emptyMarker => some "Invalid delimiter: marker must not be empty"
  | linkPattern (.tooFewGroups found) =>
    some ("Invalid url pattern: expected at least 2 capture groups, found " ++ toString found)
  | linkPattern (.unreadable _) => none

end MessageMarkup
