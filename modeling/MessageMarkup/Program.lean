import MessageMarkup.CommandLine
import MessageMarkup.Conversion
import MessageMarkup.Folder
import MessageMarkup.Settings
import MessageMarkup.Text.Utf8

/-!
# A run of the program

What the program does for a command line, as a function of the files it can read and of its
standard input. `CommandLine.Invocation.output` computes all that is to be written before anything
is written, so a run that fails has changed nothing. `WorkingFolder.run` is a whole run in a folder
of a disk.
-/

namespace MessageMarkup

/-- Why a run fails. -/
inductive Failure where
  /-- There are no settings. -/
  | settings (fault : Settings.Fault)
  /-- The settings describe no format. -/
  | format (fault : Format.Fault)
  /-- A file cannot be read. -/
  | readFile (path : String)
  /-- The standard input cannot be read. -/
  | readInput
  /-- The input is not the document of a message. -/
  | document (fault : Json.Fault)
  /-- A file cannot be written. -/
  | writeFile (path : String)
  deriving DecidableEq, Repr, Inhabited

namespace Failure

/-- What has failed. -/
def head : Failure → String
  | settings _ => "Failed to load configuration"
  | format _ => "Invalid markdown configuration"
  | readFile path => "Error reading file '" ++ path ++ "'"
  | readInput => "Error reading stdin"
  | document _ => "Error reading entities document"
  | writeFile path => "Error writing file '" ++ path ++ "'"

/-- Why it has failed. -/
def reason : Failure → String
  | settings (.badPath key) => "invalid key " ++ key
  | settings .missingFile => "file not found"
  | settings (.unreadableFile _) => "invalid TOML"
  | settings .invalid => "invalid value"
  | format fault => fault.message?.getD "Invalid url pattern"
  | readFile _ | readInput => "unreadable or not UTF-8"
  | document .truncated => "unexpected end of input"
  | document .malformed => "invalid JSON"
  | document .mismatched => "not a message"
  | writeFile _ => "not writable"

/-- The line that reports a failure. -/
def message (f : Failure) : String :=
  f.head ++ ": " ++ f.reason

/-- The characters before the first colon that a space follows. -/
def beforeColon : List Char → List Char
  | [] => []
  | ':' :: ' ' :: _ => []
  | c :: cs => c :: beforeColon cs

/-- The report up to its first colon that a space follows. This is what has failed, but for a path
that has such a colon itself. -/
def opening (f : Failure) : String :=
  String.ofList (beforeColon f.message.toList)

end Failure

/-- What can be read from a folder. -/
structure Files where
  /-- The path of the folder, from the root on. -/
  here : String
  /-- The bytes of the file at a path. -/
  read? : String → Option (List UInt8)

/-- What can be read from a working folder. -/
def WorkingFolder.files (f : WorkingFolder) : Files :=
  { here := f.path, read? := f.read? }

namespace Settings

/-- The name of the settings file that is used wherever it is there. -/
def commonFile : String := "tlmd.toml"

/-- The paths at which a settings file is looked for from a folder, both from the root on: the path
as it stands, and with an ending after the last name that it leads through, which must be the name
of something in a folder. -/
def candidates (here path : String) : List String :=
  let path := if path.toList.head? = some '/' then path else here ++ "/" ++ path
  let names := ((Disk.names path).reverse.dropWhile fun n => n == "" || n == ".").reverse
  match names.getLast? with
  | none | some ".." => [path]
  | some _ => [path, String.intercalate "/" names ++ ".toml"]

/-- The layer of a settings file. A file that is not UTF-8 cannot be read, as if it were missing. -/
def fileLayer (files : Files) (path : String) (optional : Bool) : Layer :=
  { text? := ((candidates files.here path).findSome? files.read?).bind Utf8.decode?
    optional }

end Settings

namespace CommandLine.Invocation

/-- The paths that a run in a folder may read from. -/
def paths (inv : Invocation) (here : String) : List String :=
  (Settings.commonFile :: inv.config?.toList).flatMap (Settings.candidates here) ++
    inv.input?.toList

/-- The settings of a run: the common file, the file that is asked for, and the option that disables
delimiters, each over those before it. -/
def settings (inv : Invocation) (files : Files) : Except Settings.Fault Settings :=
  Settings.load
    (Settings.fileLayer files Settings.commonFile true ::
      (inv.config?.map (Settings.fileLayer files · false)).toList)
    (if inv.noDelimiters then [("markdown.delimiters_enabled", .boolean false)] else [])

/-- The text that a run starts from. -/
def source (inv : Invocation) (files : Files) (stdin : List UInt8) : Except Failure String :=
  match inv.input? with
  | some path =>
    match (files.read? path).bind Utf8.decode? with
    | some text => .ok text
    | none => .error (.readFile path)
  | none =>
    match Utf8.decode? stdin with
    | some text => .ok text
    | none => .error .readInput

/-- The text that a run writes. -/
def output (inv : Invocation) (files : Files) (stdin : List UInt8) : Except Failure String := do
  let settings ← (inv.settings files).mapError .settings
  let f ← settings.format.mapError .format
  let text ← inv.source files stdin
  match inv.action with
  | .parse compact => return (f.renderParsed (settings.pretty && !compact) text).1
  | .unparse => return (← (f.renderUnparsed text).mapError .document).1

end CommandLine.Invocation

/-! ## Runs -/

/-- What a run leaves behind. -/
structure Outcome where
  /-- The exit status. -/
  status : Nat
  /-- The standard output. -/
  stdout : String := ""
  /-- The failure reported on the standard error output. -/
  failure? : Option Failure := none
  /-- The working folder afterwards, with the disk. -/
  folder : WorkingFolder
  deriving DecidableEq, Repr, Inhabited

namespace CommandLine

/-- The version of the program. -/
def versionText : String := "tlmd 0.1.0\n"

/-- What the program says about its use. -/
def helpText : String :=
  "Usage: tlmd [--config PATH] [--no-delimiters] parse [INPUT] [-o FILE] [--compact]\n" ++
    "       tlmd [--config PATH] [--no-delimiters] unparse [INPUT] [-o FILE]\n"

end CommandLine

/-- A run with some arguments and some standard input in a folder. -/
def WorkingFolder.run (f : WorkingFolder) (args : List String) (stdin : List UInt8) : Outcome :=
  match CommandLine.read args with
  | .error .misuse => { status := 2, folder := f }
  | .error .help => { status := 0, stdout := CommandLine.helpText, folder := f }
  | .error .version => { status := 0, stdout := CommandLine.versionText, folder := f }
  | .ok inv =>
    match inv.output f.files stdin, inv.output? with
    | .error failure, _ => { status := 1, failure? := some failure, folder := f }
    | .ok text, none => { status := 0, stdout := text, folder := f }
    | .ok text, some path =>
      match f.write? path (Utf8.encode text) with
      | some folder => { status := 0, folder }
      | none => { status := 1, failure? := some (.writeFile path), folder := f }

/-- A run in a folder of its own. -/
def Folder.run (f : Folder) (args : List String) (stdin : List UInt8) : Outcome :=
  (f.onDisk ["folder"]).run args stdin

end MessageMarkup
