import MessageMarkup.Entity
import MessageMarkup.Text.Utf16

/-!
# Delimiter tables

A delimiter is a marker and the style of the text between two of it. A table holds delimiters with
different markers in the order in which they are tried: longer markers first, so that a marker is
never taken for a shorter one that it starts with, and of markers of one length the older first.
-/

namespace MessageMarkup

/-- The units of a marker, as they are kept with it. -/
class MarkerUnits (marker : String) where
  /-- The units. -/
  units : List UInt16
  /-- They are those of the marker. -/
  units_eq : units = Utf16.ofText marker
  deriving DecidableEq, Repr

/-- A marker without its units is encoded. -/
instance (marker : String) : MarkerUnits marker :=
  ⟨Utf16.ofText marker, rfl⟩

/-- A marker and the style it stands for. The marker is encoded when the delimiter is made; another
style leaves the units as they are. -/
structure Delimiter where
  /-- What is written around the text. -/
  marker : String
  /-- What it makes of the text. -/
  style : Style
  /-- The units of the marker. -/
  [encoded : MarkerUnits marker]
  deriving DecidableEq, Repr, Inhabited

namespace Delimiter

/-- The units of the marker. -/
def units (d : Delimiter) : List UInt16 :=
  d.encoded.units

/-- The number of units of the marker. -/
def width (d : Delimiter) : Nat :=
  d.units.length

end Delimiter

/-- Delimiters in the order in which they are tried. -/
structure Delimiters where
  /-- The delimiters, the longest first. -/
  entries : List Delimiter := []
  deriving DecidableEq, Repr, Inhabited

/-- Why a table does not take a delimiter. -/
inductive Delimiters.Fault where
  /-- An empty marker would be found everywhere. -/
  | emptyMarker
  deriving DecidableEq, Repr, Inhabited

namespace Delimiters

/-- Whether the table has no delimiter. -/
def isEmpty (t : Delimiters) : Bool :=
  t.entries.isEmpty

/-- The number of delimiters. -/
def size (t : Delimiters) : Nat :=
  t.entries.length

/-- A list of delimiters with one more, behind those that are at least as long. -/
def place (d : Delimiter) : List Delimiter → List Delimiter
  | [] => [d]
  | e :: es => if d.width ≤ e.width then e :: place d es else d :: e :: es

/-- The table in which a marker has a style: a marker that it has keeps its place. -/
def set (t : Delimiters) (d : Delimiter) : Delimiters :=
  if t.entries.any (·.marker == d.marker) then
    ⟨t.entries.map fun e => if e.marker == d.marker then { e with style := d.style } else e⟩
  else ⟨place d t.entries⟩

/-- The table in which a marker has a style, unless the marker is empty. -/
def insert (t : Delimiters) (d : Delimiter) : Except Fault Delimiters :=
  if d.marker.isEmpty then .error .emptyMarker else .ok (t.set d)

/-- The table of some delimiters, inserted in their order. -/
def ofList (ds : List Delimiter) : Except Fault Delimiters :=
  ds.foldlM insert {}

/-- The standard table. -/
def standard : Delimiters :=
  [⟨"**", .bold⟩, ⟨"__", .italic⟩, ⟨"~~", .strikethrough⟩, ⟨"`", .code⟩, ⟨"```", .pre⟩].foldl set {}

/-- The first delimiter of the table whose marker some units start with. -/
def match? (t : Delimiters) (units : List UInt16) : Option Delimiter :=
  t.entries.find? fun d => d.units.isPrefixOf units

/-- The marker with which a style is written. -/
def markerFor? (t : Delimiters) (style : Style) : Option String :=
  (t.entries.find? (·.style == style)).map (·.marker)

end Delimiters

end MessageMarkup
