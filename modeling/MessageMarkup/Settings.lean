import MessageMarkup.Format
import MessageMarkup.Settings.Path
import MessageMarkup.Toml.Reader

/-!
# Settings

The settings of the program come from several layers: the standard settings, settings files over
them, and single overrides over those. `Settings.load` lays them over one another and makes sense
of the result, and `Settings.format` sets up the format they describe.

Values are taken for what they are meant to be where that is clear: numbers and some words are
truth values, numbers and truth values are texts, a list stands for a table with its items as
fields, and names are the same in capital and small letters.
-/

namespace MessageMarkup

/-- The settings of the program. -/
structure Settings where
  /-- Whether markup is used at all. -/
  delimitersEnabled : Bool := true
  /-- How links are written. -/
  urlPattern : String := LinkPattern.standardSource
  /-- The delimiters, if not the standard ones. -/
  delimiters? : Option (List Delimiter) := none
  /-- Whether documents are written over several lines. -/
  pretty : Bool := true
  deriving DecidableEq, Repr, Inhabited

namespace Settings

/-- A source of settings: a file that is there with some text, or is not there. -/
structure Layer where
  /-- The text of the file, if there is one. -/
  text? : Option String
  /-- Whether the file may be missing. -/
  optional : Bool := false
  deriving DecidableEq, Repr, Inhabited

/-- Why there are no settings. -/
inductive Fault where
  /-- The key of an override is no path. -/
  | badPath (key : String)
  /-- A file is missing. -/
  | missingFile
  /-- A file is not TOML. -/
  | unreadableFile (fault : Toml.Fault)
  /-- A value is missing or is not what it is meant to be. -/
  | invalid
  deriving DecidableEq, Repr, Inhabited

/-! ## Making sense of values -/

namespace Value

/-- The truth value that a value is taken for. -/
def toBool? : Value → Option Bool
  | boolean b => some b
  | integer n => some (n != 0)
  | real x => some x.isNonzero
  | text s =>
    let s := smallLetters s
    if ["1", "true", "on", "yes"].contains s then some true
    else if ["0", "false", "off", "no"].contains s then some false
    else none
  | _ => none

/-- The text that a value is taken for. -/
def toText? : Value → Option String
  | text s => some s
  | boolean b => some (if b then "true" else "false")
  | integer n => some (toString n)
  | real x => some x.text
  | _ => none

/-- The style that a value names. A table with a single key is taken for that key. -/
def toStyle? : Value → Option Style
  | text s => Style.ofName? (smallLetters s)
  | table [(key, _)] => Style.ofName? (smallLetters key)
  | _ => none

/-- A field of a record: what its name has in a table, or the item at its place in a list. -/
def field? (name : String) (place : Nat) : Value → Option Value
  | table entries => get? name entries
  | list items => items[place]?
  | _ => none

/-- The delimiter that a value describes. -/
def toDelimiter? (v : Value) : Option Delimiter := do
  return {
    marker := ← (← v.field? "marker" 0).toText?
    style := ← (← v.field? "style" 1).toStyle? }

/-- The delimiters that a value lists; none if it is unset. -/
def toDelimiters? : Value → Option (Option (List Delimiter))
  | unset => some none
  | list items => (items.mapM toDelimiter?).map some
  | _ => none

/-- The settings that a tree of values describes. -/
def toSettings? (root : Value) : Option Settings := do
  let markdown ← root.field? "markdown" 0
  let output ← root.field? "output" 1
  return {
    delimitersEnabled := ← (← markdown.field? "delimiters_enabled" 0).toBool?
    urlPattern := ← (← markdown.field? "url_pattern" 1).toText?
    delimiters? := ← ((markdown.field? "delimiters" 2).getD unset).toDelimiters?
    pretty := ← (← output.field? "pretty" 0).toBool? }

/-- The tree of the standard settings. -/
def standard : Value :=
  table
    [("markdown", table
      [("delimiters_enabled", boolean true), ("url_pattern", text LinkPattern.standardSource)]),
      ("output", table [("pretty", boolean true)])]

end Value

/-! ## Layers -/

/-- A tree of settings with a layer laid onto it. -/
def Layer.onto (root : Value) (l : Layer) : Except Fault Value :=
  match l.text? with
  | none => if l.optional then .ok root else .error .missingFile
  | some text =>
    match Toml.read text with
    | .ok entries => .ok (root.overlay entries)
    | .error fault => .error (.unreadableFile fault)

/-- The path of an override. -/
def overridePath (key : String) : Except Fault Path :=
  match Path.read? key with
  | some p => .ok p
  | none => .error (.badPath key)

/-- The settings of some layers, the later over the earlier, and of overrides over all of them. -/
def load (layers : List Layer) (overrides : List (String × Value)) : Except Fault Settings := do
  let overrides ← overrides.mapM fun (key, v) => return (← overridePath key, v)
  let root ← layers.foldlM Layer.onto Value.standard
  match (overrides.foldl (fun root (p, v) => root.setPath p v) root).toSettings? with
  | some settings => return settings
  | none => .error .invalid

/-- The format that settings describe. The link pattern must be good even where delimiters are
disabled; delimiters are not looked at then. -/
def format (s : Settings) : Except Format.Fault Format := do
  let f := Format.withLinks {} (← LinkPattern.forFormat s.urlPattern)
  if s.delimitersEnabled then
    match s.delimiters? with
    | some ds => return f.withDelimiters (← Delimiters.forFormat ds)
    | none => return f
  else return f.withoutDelimiters

end Settings

end MessageMarkup
