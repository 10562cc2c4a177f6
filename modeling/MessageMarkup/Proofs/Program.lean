import Mathlib.Logic.Function.Iterate
import MessageMarkup.Program
import MessageMarkup.Proofs.Disk
import MessageMarkup.Proofs.Except

/-!
# What a run leaves behind

A run is taken apart into its stages: it reads the command line, loads the settings, sets up the
format, reads its input, converts it and writes the result. Each stage looks at the folder as it is
by then. `Run.iterate_step` puts the stages together to `WorkingFolder.run`. Only the stage that
writes changes anything, and a run that has written has ended well (`Run.Untouched.step`), so
whenever a run is cut short, or fails, the disk and the standard output are as they were. When a run
ends well, and what it leaves behind then, is said by `WorkingFolder.run_leaves`.
-/

namespace MessageMarkup

open CommandLine (Invocation)

/-! ## The text that is written -/

namespace CommandLine.Invocation

/-- The text that is written for some text that has been read. -/
def convert (inv : Invocation) (pretty : Bool) (f : Format) (source : String) :
    Except Json.Fault String :=
  match inv.action with
  | .parse compact => .ok (f.renderParsed (pretty && !compact) source).1
  | .unparse => (f.renderUnparsed source).map (·.1)

/-- What a run writes takes settings, a format, an input and its conversion, in this order. -/
theorem output_eq (inv : Invocation) (files : Files) (stdin : List UInt8) :
    inv.output files stdin = (do
      let settings ← (inv.settings files).mapError .settings
      let f ← settings.format.mapError .format
      let source ← inv.source files stdin
      (inv.convert settings.pretty f source).mapError .document) := by
  unfold output convert
  cases inv.action with
  | parse compact => rfl
  | unparse =>
    have hlast : ∀ (f : Format) (source : String),
        (do return (← (f.renderUnparsed source).mapError Failure.document).1) =
          ((f.renderUnparsed source).map (·.1)).mapError Failure.document := by
      intro f source
      cases f.renderUnparsed source <;> rfl
    simp only [hlast]

/-- With settings and a format what a run writes takes an input and its conversion. -/
theorem output_of_format {inv : Invocation} {files : Files} {settings : Settings} {f : Format}
    (hsettings : inv.settings files = .ok settings) (hformat : settings.format = .ok f)
    (stdin : List UInt8) :
    inv.output files stdin = (do
      let source ← inv.source files stdin
      (inv.convert settings.pretty f source).mapError .document) := by
  rw [output_eq, hsettings]
  change (settings.format.mapError Failure.format >>= _) = _
  rw [hformat]
  rfl

/-- There is a text where none of them is missing. -/
theorem output_eq_ok_iff {inv : Invocation} {files : Files} {stdin : List UInt8} {text : String} :
    inv.output files stdin = .ok text ↔ ∃ settings, inv.settings files = .ok settings ∧
      ∃ f, settings.format = .ok f ∧ ∃ source, inv.source files stdin = .ok source ∧
        inv.convert settings.pretty f source = .ok text := by
  simp only [output_eq, bind_eq_ok_iff, mapError_eq_ok_iff]

end CommandLine.Invocation

/-- What a run leaves behind that has its text, or a reason why it has none. -/
def WorkingFolder.deliver (f : WorkingFolder) (output? : Option String) :
    Except Failure String → Outcome
  | .error failure => { status := 1, failure? := some failure, folder := f }
  | .ok text =>
    match output? with
    | none => { status := 0, stdout := text, folder := f }
    | some path =>
      match f.write? path (Utf8.encode text) with
      | some folder => { status := 0, folder }
      | none => { status := 1, failure? := some (.writeFile path), folder := f }

/-- A run for a command line that makes sense delivers the text of its invocation. -/
theorem WorkingFolder.run_eq_deliver {args : List String} {inv : Invocation}
    (h : CommandLine.read args = .ok inv) (f : WorkingFolder) (stdin : List UInt8) :
    f.run args stdin = f.deliver inv.output? (inv.output f.files stdin) := by
  unfold run
  simp only [h]
  cases inv.output f.files stdin with
  | error failure => rfl
  | ok text => cases inv.output? <;> rfl

/-! ## Stages -/

/-- What a run is about to do. -/
inductive Stage where
  /-- To read the command line. -/
  | start
  /-- To load the settings. -/
  | load (inv : Invocation)
  /-- To set up the format. -/
  | setUp (inv : Invocation) (settings : Settings)
  /-- To read the input. -/
  | fetch (inv : Invocation) (pretty : Bool) (f : Format)
  /-- To convert the input. -/
  | convert (inv : Invocation) (pretty : Bool) (f : Format) (source : String)
  /-- To write the result. -/
  | write (output? : Option String) (text : String)
  /-- Nothing more. -/
  | done (status : Nat) (failure? : Option Failure)

/-- A run on its way. -/
structure Run where
  /-- What is to be done next. -/
  stage : Stage := .start
  /-- The standard output so far. -/
  stdout : String := ""
  /-- The files as they are now. -/
  folder : WorkingFolder

namespace Run

/-- A run that fails with a report. -/
def fail (r : Run) (failure : Failure) : Run :=
  { r with stage := .done 1 (some failure) }

/-- A run that prints something and ends. -/
def print (r : Run) (text : String) : Run :=
  { r with stage := .done 0 none, stdout := r.stdout ++ text }

/-- A run that writes something to a file and ends. -/
def save (r : Run) (path text : String) : Run :=
  match r.folder.write? path (Utf8.encode text) with
  | some folder => { r with stage := .done 0 none, folder }
  | none => r.fail (.writeFile path)

/-- A run that goes on with what a stage has brought about, if it has not failed. -/
def proceed {ε α : Type} (r : Run) (result : Except ε α) (failure : ε → Failure)
    (next : α → Stage) : Run :=
  match result with
  | .error e => r.fail (failure e)
  | .ok a => { r with stage := next a }

/-- One stage of a run. -/
def step (args : List String) (stdin : List UInt8) (r : Run) : Run :=
  match r.stage with
  | .start =>
    match CommandLine.read args with
    | .error .misuse => { r with stage := .done 2 none }
    | .error .help => r.print CommandLine.helpText
    | .error .version => r.print CommandLine.versionText
    | .ok inv => { r with stage := .load inv }
  | .load inv => r.proceed (inv.settings r.folder.files) .settings (.setUp inv)
  | .setUp inv settings => r.proceed settings.format .format (.fetch inv settings.pretty)
  | .fetch inv pretty f => r.proceed (inv.source r.folder.files stdin) id (.convert inv pretty f)
  | .convert inv pretty f source =>
    r.proceed (inv.convert pretty f source) .document (.write inv.output?)
  | .write none text => r.print text
  | .write (some path) text => r.save path text
  | .done _ _ => r

/-- A run that has ended as an outcome says. -/
def ofOutcome (o : Outcome) : Run :=
  { stage := .done o.status o.failure?, stdout := o.stdout, folder := o.folder }

variable {args : List String} {stdin : List UInt8} {f : WorkingFolder}

/-- A run that has ended stays as it is. -/
theorem iterate_ofOutcome (args : List String) (stdin : List UInt8) (o : Outcome) (n : ℕ) :
    (step args stdin)^[n] (ofOutcome o) = ofOutcome o :=
  Function.iterate_fixed rfl n

/-- The last stage delivers the text. -/
theorem step_write (output? : Option String) (text : String) :
    step args stdin { stage := .write output? text, folder := f } =
      ofOutcome (f.deliver output? (.ok text)) := by
  cases output? with
  | none => exact congrArg (Run.mk _ · f) String.empty_append
  | some path =>
    change save { stage := .write (some path) text, folder := f } path text = _
    unfold save WorkingFolder.deliver
    dsimp only
    cases f.write? path (Utf8.encode text) <;> rfl

/-- A stage that brings nothing about ends the run; else the stages that follow make up the rest. -/
theorem iterate_proceed {ε α : Type} {result : Except ε α} {failure : ε → Failure}
    {stage : Stage} {next : α → Stage} {output? : Option String} {n : ℕ}
    {rest : α → Except Failure String}
    (hstep : step args stdin { stage, folder := f } =
      proceed { stage, folder := f } result failure next)
    (hrest : ∀ a, (step args stdin)^[n] { stage := next a, folder := f } =
      ofOutcome (f.deliver output? (rest a))) :
    (step args stdin)^[n + 1] { stage, folder := f } =
      ofOutcome (f.deliver output? (result.mapError failure >>= rest)) := by
  rw [Function.iterate_succ_apply, hstep]
  cases result with
  | error e => exact iterate_ofOutcome args stdin (f.deliver output? (.error (failure e))) n
  | ok a => exact hrest a

/-- The stages make up the run: after six of them it has ended, as `WorkingFolder.run` says. -/
theorem iterate_step (f : WorkingFolder) (args : List String) (stdin : List UInt8) :
    (step args stdin)^[6] { folder := f } = ofOutcome (f.run args stdin) := by
  cases hread : CommandLine.read args with
  | error refusal =>
    have hstep : step args stdin { folder := f } = ofOutcome (f.run args stdin) := by
      unfold step WorkingFolder.run
      rw [hread]
      cases refusal <;> rfl
    rw [Function.iterate_succ_apply, hstep, iterate_ofOutcome]
  | ok inv =>
    have hstep : step args stdin { folder := f } = { stage := .load inv, folder := f } := by
      unfold step
      rw [hread]
    -- Reading the input names its own failures, and writing has no stage after it.
    have hsource : inv.source f.files stdin = (inv.source f.files stdin).mapError id := by
      cases inv.source f.files stdin <;> rfl
    rw [WorkingFolder.run_eq_deliver hread, inv.output_eq, Function.iterate_succ_apply, hstep]
    refine iterate_proceed rfl fun settings => iterate_proceed rfl fun format => ?_
    rw [hsource]
    refine iterate_proceed rfl fun source => ?_
    rw [← bind_pure (Except.mapError _ _)]
    exact iterate_proceed rfl fun text => step_write inv.output? text

/-! ## Runs that are cut short -/

/-- Nothing has been written, or the run has ended well. -/
def Untouched (f : WorkingFolder) (r : Run) : Prop :=
  r.stage = .done 0 none ∨ r.stdout = "" ∧ r.folder = f

/-- A stage may bring about what it will: it writes nothing. -/
theorem Untouched.proceed {ε α : Type} {r : Run} (h : r.stdout = "" ∧ r.folder = f)
    (result : Except ε α) (failure : ε → Failure) (next : α → Stage) :
    Untouched f (r.proceed result failure next) := by
  cases result <;> exact Or.inr h

/-- What is written to a file ends the run well. -/
theorem Untouched.save {r : Run} (h : r.stdout = "" ∧ r.folder = f) (path text : String) :
    Untouched f (r.save path text) := by
  unfold Run.save
  cases r.folder.write? path (Utf8.encode text) with
  | none => exact Or.inr h
  | some folder => exact Or.inl rfl

/-- Each stage writes nothing, or ends the run well. -/
theorem Untouched.step {r : Run} (h : Untouched f r) : Untouched f (r.step args stdin) := by
  rcases h with hdone | h
  · unfold Run.step
    rw [hdone]
    exact Or.inl hdone
  · obtain ⟨stage, stdout, folder⟩ := r
    cases stage with
    | start =>
      unfold Run.step
      dsimp only
      cases CommandLine.read args with
      | error refusal =>
        cases refusal with
        | misuse => exact Or.inr h
        | help | version => exact Or.inl rfl
      | ok inv => exact Or.inr h
    | load | setUp | fetch | convert => exact Untouched.proceed h _ _ _
    | write output? text =>
      cases output? with
      | none => exact Or.inl rfl
      | some path => exact Untouched.save h path text
    | done => exact Or.inr h

/-- After any number of stages nothing has been written, or the run has ended well. -/
theorem untouched_iterate (f : WorkingFolder) (args : List String) (stdin : List UInt8) (n : ℕ) :
    Untouched f ((step args stdin)^[n] { folder := f }) := by
  induction n with
  | zero => exact Or.inr ⟨rfl, rfl⟩
  | succ n ih =>
    rw [Function.iterate_succ_apply']
    exact ih.step

end Run

/-! ## What has changed -/

/-- An outcome leaves a text on the standard output and the disk as it was, or nothing on the standard
output and the text in the file that a path leads to, with all else on the disk as it was. -/
def Outcome.Leaves (o : Outcome) (f : WorkingFolder) (text : String) : Option String → Prop
  | none => o.stdout = text ∧ o.folder = f
  | some path => o.stdout = "" ∧ ∃ place, f.resolve? path = some place ∧
      f.Rewritten o.folder place (Utf8.encode text) ∧ ∀ other, o.folder.read? other =
        if f.resolve? other = some place then some (Utf8.encode text) else f.read? other

namespace WorkingFolder

variable {f : WorkingFolder} {output? : Option String} {result : Except Failure String}

/-- A delivery goes well if there is a text, and a file for it where one is asked for. -/
theorem status_deliver_eq_zero_iff : (f.deliver output? result).status = 0 ↔
    (∃ text, result = .ok text) ∧ ∀ path ∈ output?, f.IsWritable path := by
  cases result with
  | error failure => exact ⟨fun h => absurd h Nat.one_ne_zero, nofun⟩
  | ok text =>
    simp only [Except.ok.injEq, exists_eq', true_and]
    cases output? with
    | none => exact ⟨fun _ => nofun, fun _ => rfl⟩
    | some path =>
      simp only [Option.mem_some_iff, forall_eq']
      rw [← isSome_write?_iff (Utf8.encode text)]
      unfold deliver
      dsimp only
      cases f.write? path (Utf8.encode text) with
      | none => exact ⟨fun h => absurd h Nat.one_ne_zero, nofun⟩
      | some g => exact ⟨fun _ => rfl, fun _ => rfl⟩

/-- A delivery that goes well leaves the text where it belongs. -/
theorem exists_leaves_deliver (h : (f.deliver output? result).status = 0) :
    ∃ text, result = .ok text ∧ (f.deliver output? result).Leaves f text output? := by
  obtain ⟨⟨text, rfl⟩, -⟩ := status_deliver_eq_zero_iff.mp h
  refine ⟨text, rfl, ?_⟩
  cases output? with
  | none => exact ⟨rfl, rfl⟩
  | some path =>
    unfold deliver at h ⊢
    dsimp only at h ⊢
    cases hwrite : f.write? path (Utf8.encode text) with
    | none =>
      rw [hwrite] at h
      exact absurd h Nat.one_ne_zero
    | some g =>
      obtain ⟨place, hplace, hrewritten⟩ := rewritten_of_write? hwrite
      exact ⟨rfl, place, hplace, hrewritten, hrewritten.read?_eq⟩

/-- A run that fails has written nothing. -/
theorem run_of_status_ne {f : WorkingFolder} {args : List String} {stdin : List UInt8}
    (h : (f.run args stdin).status ≠ 0) :
    (f.run args stdin).stdout = "" ∧ (f.run args stdin).folder = f := by
  -- By then it has ended, so that what holds at every moment holds of what it leaves behind.
  have huntouched := Run.untouched_iterate f args stdin 6
  rw [Run.iterate_step] at huntouched
  rcases huntouched with hdone | huntouched
  · exact absurd (Stage.done.inj hdone).1 h
  · exact huntouched

/-- A run that fails leaves the disk as it was and nothing on the standard output. A run for a
command line that makes sense ends well exactly if it finds settings, a format and an input that can
be converted, and a file for the result where one is asked for. It has converted the whole of its
input then, and leaves the result where its command line says: on the standard output, with the disk
as it was, or in one file, whichever one that is and whatever path names it, with nothing on the
standard output. -/
theorem run_leaves (f : WorkingFolder) (args : List String) (stdin : List UInt8) :
    ((f.run args stdin).status ≠ 0 →
      (f.run args stdin).stdout = "" ∧ (f.run args stdin).folder = f) ∧
    ∀ inv, CommandLine.read args = .ok inv →
      ((f.run args stdin).status = 0 ↔ (∃ text, inv.output f.files stdin = .ok text) ∧
        ∀ path ∈ inv.output?, f.IsWritable path) ∧
      ((f.run args stdin).status = 0 →
        ∃ settings, inv.settings f.files = .ok settings ∧ ∃ format, settings.format = .ok format ∧
          ∃ source, inv.source f.files stdin = .ok source ∧
            ∃ text, inv.convert settings.pretty format source = .ok text ∧
              (f.run args stdin).Leaves f text inv.output?) := by
  refine ⟨run_of_status_ne, fun inv hread => ?_⟩
  rw [run_eq_deliver hread]
  refine ⟨status_deliver_eq_zero_iff, fun hstatus => ?_⟩
  obtain ⟨text, htext, hleaves⟩ := exists_leaves_deliver hstatus
  obtain ⟨settings, hsettings, format, hformat, source, hsource, hconvert⟩ :=
    CommandLine.Invocation.output_eq_ok_iff.mp htext
  exact ⟨settings, hsettings, format, hformat, source, hsource, text, hconvert, hleaves⟩

/-- A run that cannot read its document, one that writes over its own input, which other paths and a
link lead to as well, and one that makes a file in a folder without any. -/
theorem run_leaves_over_input :
    let f : WorkingFolder :=
      { disk :=
          { entries :=
              [(["tmp"], .folder), (["tmp", "x"], .folder), (["tmp", "y"], .folder),
                (["tmp", "x", "a.md"], .file (Utf8.encode "**hi** there")),
                (["tmp", "x", "b.json"], .file (Utf8.encode "[1]")), (["latest"], .link "tmp/x")] }
        place := ["tmp", "x"] }
    let failed := f.run ["unparse", "b.json", "-o", "/tmp/x/a.md"] []
    let rewriting := f.run ["parse", "a.md", "-o", "/tmp/x/a.md", "--compact"] []
    let making := f.run ["parse", "/latest/a.md", "-o", "../y/c.json"] []
    (failed.status = 1 ∧ failed.stdout = "" ∧ failed.folder = f) ∧
      (rewriting.status = 0 ∧ rewriting.stdout = "" ∧
        (∃ text, ∀ path ∈ ["a.md", "../x/./a.md", "/latest/a.md"],
          rewriting.folder.read? path = some (Utf8.encode text)) ∧
        rewriting.folder.read? "b.json" = f.read? "b.json") ∧
      making.status = 0 ∧ (making.folder.read? "/tmp/y/c.json").isSome ∧
        making.folder.read? "a.md" = f.read? "a.md" := by
  intro f failed rewriting making
  have hfailed : failed.status = 1 := by decide +kernel
  have hrewriting : rewriting.status = 0 := by decide +kernel
  have hmaking : making.status = 0 := by decide +kernel
  have hne : failed.status ≠ 0 := by
    rw [hfailed]
    exact Nat.one_ne_zero
  refine ⟨⟨hfailed, (run_leaves f _ _).1 hne⟩, ?_, hmaking, ?_⟩
  · obtain ⟨-, hleaves⟩ :=
      (run_leaves f ["parse", "a.md", "-o", "/tmp/x/a.md", "--compact"] []).2
        { action := .parse true, input? := some "a.md", output? := some "/tmp/x/a.md" }
        (toOption_eq_some_iff.mp (by decide +kernel))
    obtain ⟨_, _, _, _, _, _, text, _, hstdout, place, hplace, _, hread⟩ := hleaves hrewriting
    have ha : f.resolve? "/tmp/x/a.md" = some ["tmp", "x", "a.md"] := by decide +kernel
    obtain rfl := Option.some.inj (ha.symm.trans hplace)
    have hpaths : ∀ path ∈ ["a.md", "../x/./a.md", "/latest/a.md"],
        f.resolve? path = some ["tmp", "x", "a.md"] := by decide +kernel
    refine ⟨hrewriting, hstdout, ⟨text, fun path hpath => ?_⟩, ?_⟩
    · rw [hread, if_pos (hpaths path hpath)]
    · rw [hread, if_neg (by decide +kernel)]
  · obtain ⟨-, hleaves⟩ :=
      (run_leaves f ["parse", "/latest/a.md", "-o", "../y/c.json"] []).2
        { action := .parse false, input? := some "/latest/a.md", output? := some "../y/c.json" }
        (toOption_eq_some_iff.mp (by decide +kernel))
    obtain ⟨_, _, _, _, _, _, text, _, _, place, hplace, _, hread⟩ := hleaves hmaking
    have hc : f.resolve? "../y/c.json" = some ["tmp", "y", "c.json"] := by decide +kernel
    obtain rfl := Option.some.inj (hc.symm.trans hplace)
    constructor
    · rw [hread, if_pos (by decide +kernel), Option.isSome_some]
    · rw [hread, if_neg (by decide +kernel)]

end WorkingFolder

end MessageMarkup
