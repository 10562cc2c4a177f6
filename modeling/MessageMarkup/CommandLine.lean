/-!
# The command line

`CommandLine.read` says what a list of arguments asks for. There are two commands, `parse` and
`unparse`, each with an input, an output and options of its own; the options for the settings may
stand before the command or after it. An option is given once at most. Its value is the next
argument, which does not start with a hyphen unless it is only that, or stands behind an equals
sign. Behind two hyphens there are no options.
-/

namespace MessageMarkup.CommandLine

/-- What the program is asked to do with its input. -/
inductive Action where
  /-- Markup becomes a document, on one line if `compact`. -/
  | parse (compact : Bool)
  /-- A document becomes markup. -/
  | unparse
  deriving DecidableEq, Repr, Inhabited

/-- A well-formed command line. -/
structure Invocation where
  /-- What is to be done. -/
  action : Action
  /-- The file to read, if not the standard input. -/
  input? : Option String := none
  /-- The file to write, if not the standard output. -/
  output? : Option String := none
  /-- A settings file. -/
  config? : Option String := none
  /-- Whether delimiters are disabled for this run. -/
  noDelimiters : Bool := false
  deriving DecidableEq, Repr, Inhabited

/-- What is to be answered when the program is not run. -/
inductive Refusal where
  /-- The arguments make no sense. -/
  | misuse
  /-- Help is asked for. -/
  | help
  /-- The version is asked for. -/
  | version
  deriving DecidableEq, Repr, Inhabited

/-! ## Options -/

/-- Where an argument stands: before the command, or behind one. -/
inductive Level where
  | root
  | parse
  | unparse
  deriving DecidableEq, Repr, Inhabited

/-- An option that can be given. -/
inductive Switch where
  | config
  | noDelimiters
  | output
  | compact
  | help
  | version
  deriving DecidableEq, Repr, Inhabited

/-- The options that are known at a level, by their long names. -/
def longOptions : Level → List (String × Switch)
  | .root =>
    [("config", .config), ("no-delimiters", .noDelimiters), ("help", .help), ("version", .version)]
  | .parse =>
    [("config", .config), ("no-delimiters", .noDelimiters), ("help", .help), ("output", .output),
      ("compact", .compact)]
  | .unparse =>
    [("config", .config), ("no-delimiters", .noDelimiters), ("help", .help), ("output", .output)]

/-- The options that are known at a level, by their letters. -/
def shortOptions : Level → List (Char × Switch)
  | .root => [('h', .help), ('V', .version)]
  | .parse | .unparse => [('h', .help), ('o', .output)]

/-- What has been given at a level. -/
structure Given where
  /-- The settings file. -/
  config? : Option String := none
  /-- Whether delimiters are disabled. -/
  noDelimiters : Bool := false
  /-- The output. -/
  output? : Option String := none
  /-- Whether documents are to be on one line. -/
  compact : Bool := false
  /-- The input. -/
  input? : Option String := none
  deriving DecidableEq, Repr, Inhabited

namespace Given

/-- A value that may be given once. -/
def once (old : Option String) (value : String) : Except Refusal (Option String) :=
  if old.isSome then .error .misuse else .ok (some value)

/-- One more argument that belongs to no option. -/
def addInput (g : Given) (value : String) : Except Refusal Given := do
  return { g with input? := ← once g.input? value }

/-- All arguments that follow, none of which is an option. -/
def addInputs (g : Given) (values : List String) : Except Refusal Given :=
  values.foldlM addInput g

/-- An option without a value. -/
def addFlag (g : Given) : Switch → Except Refusal Given
  | .help => .error .help
  | .version => .error .version
  | .noDelimiters => if g.noDelimiters then .error .misuse else .ok { g with noDelimiters := true }
  | .compact => if g.compact then .error .misuse else .ok { g with compact := true }
  | .config | .output => .error .misuse

/-- An option with its value. -/
def addValue (g : Given) (o : Switch) (value : String) : Except Refusal Given :=
  match o with
  | .config => do return { g with config? := ← once g.config? value }
  | .output => do return { g with output? := ← once g.output? value }
  | _ => .error .misuse

end Given

/-- Whether an option has a value. -/
def Switch.takesValue : Switch → Bool
  | config | output => true
  | _ => false

/-- Whether an argument can be the value of the option before it. -/
def isValue (arg : String) : Bool :=
  arg == "-" || arg.toList.head? != some '-'

/-- The option of a long argument, after its hyphens, and the value behind its equals sign. -/
def longOption? (level : Level) (body : List Char) : Option (Switch × Option String) :=
  let (name, value) := body.span (· != '=')
  match (longOptions level).find? fun (known, _) => known.toList == name, value with
  | some (_, o), [] => some (o, none)
  | some (_, o), _ :: value => some (o, some (String.ofList value))
  | none, _ => none

/-- The option of a short argument, after its hyphen, and the value that is joined to it. -/
def shortOption? (level : Level) (body : List Char) : Option (Switch × Option String) :=
  match body with
  | [] => none
  | letter :: rest =>
    match (shortOptions level).find? (·.1 == letter) with
    | none => none
    | some (_, o) =>
      match rest with
      | [] => some (o, none)
      | '=' :: value => some (o, some (String.ofList value))
      | value => some (o, some (String.ofList value))

/-! ## Arguments -/

/-- The command that an argument names. -/
def command? : String → Option Level
  | "parse" => some .parse
  | "unparse" => some .unparse
  | _ => none

/-- Why an argument that names no command ends the reading: help is asked for, possibly about one
command, or it makes no sense. -/
def refusal (arg : String) (args : List String) : Refusal :=
  match arg, args with
  | "help", [] | "help", ["parse"] | "help", ["unparse"] | "help", ["help"] => .help
  | _, _ => .misuse

/-- What is given at a level, with the command that ends the arguments before it and the arguments
behind that. -/
def readLevel (level : Level) (g : Given) :
    List String → Except Refusal (Given × Option (Level × List String))
  | [] => .ok (g, none)
  | arg :: args =>
    let take (o : Switch) (value? : Option String) :
        Except Refusal (Given × Option (Level × List String)) :=
      match value? with
      | some value => do readLevel level (← g.addValue o value) args
      | none =>
        if o.takesValue then
          match args with
          | value :: args =>
            if isValue value then do readLevel level (← g.addValue o value) args
            else .error .misuse
          | [] => .error .misuse
        else do readLevel level (← g.addFlag o) args
    match level, command? arg with
    | .root, some command => .ok (g, some (command, args))
    | _, _ =>
      match arg.toList with
      | ['-', '-'] => if level = .root then .error .misuse else (g.addInputs args).map (·, none)
      | '-' :: '-' :: body =>
        match longOption? level body with
        | some (o, value?) => take o value?
        | none => .error .misuse
      | '-' :: c :: body =>
        match shortOption? level (c :: body) with
        | some (.help, _) => .error .help
        | some (.version, _) => .error .version
        | some (o, value?) => take o value?
        | none => .error .misuse
      | _ =>
        if level = .root then .error (refusal arg args)
        else do readLevel level (← g.addInput arg) args

/-- What a list of arguments asks for. An option that stands both before and behind the command
counts as given behind it. A hyphen for an input is the standard input. -/
def read (args : List String) : Except Refusal Invocation := do
  let (before, rest) ← readLevel .root {} args
  match rest with
  | none => .error .misuse
  | some (level, args) =>
    let (g, _) ← readLevel level {} args
    return {
      action := if level = .unparse then .unparse else .parse g.compact
      input? := g.input?.filter (· != "-")
      output? := g.output?
      config? := g.config?.or before.config?
      noDelimiters := before.noDelimiters || g.noDelimiters }

end MessageMarkup.CommandLine
