import MessageMarkup.Proofs.CommandLine
import MessageMarkup.Proofs.Document.RoundTrip
import MessageMarkup.Proofs.Program
import MessageMarkup.Proofs.Settings

/-!
# Runs without delimiters keep texts as they are

A format with an empty table takes markup for plain text and writes a text as it is. The option that
disables delimiters brings such a format about whatever the settings files say, so a run with it
makes the document of its input, as it stands, and turns a document into its text
(`WorkingFolder.run_without_delimiters`).
-/

namespace MessageMarkup

/-! ## Formats without delimiters -/

namespace Format

variable {f : Format}

/-- Markup becomes the document of a message with the markup for its text. -/
theorem renderParsed_of_isEmpty (h : f.table.isEmpty = true) (pretty : Bool) (markup : String) :
    (f.renderParsed pretty markup).1 = Message.render pretty { text := markup } := by
  unfold renderParsed parseNoting parseWith
  rw [h, Bool.or_true, if_pos rfl]

/-- A message becomes its text. -/
theorem unparse_of_isEmpty (h : f.table.isEmpty = true) (m : Message) : f.unparse m = m.text := by
  unfold unparse unparseNoting unparseWith
  rw [h, Bool.or_true, if_pos rfl]

/-- The document of a message becomes the text of the message. -/
theorem renderUnparsed_of_isEmpty (h : f.table.isEmpty = true) (document : String) :
    (f.renderUnparsed document).map (·.1) = (Message.ofDocument? document).map (·.text) := by
  unfold renderUnparsed
  cases Message.ofDocument? document with
  | error fault => rfl
  | ok m => exact congrArg Except.ok (unparse_of_isEmpty h m)

end Format

/-! ## Runs without delimiters -/

namespace CommandLine.Invocation

/-- The option that disables delimiters is laid over all settings files. -/
theorem isEmpty_of_noDelimiters {inv : Invocation} {files : Files} {settings : Settings}
    {format : Format} (h : inv.noDelimiters = true) (hsettings : inv.settings files = .ok settings)
    (hformat : settings.format = .ok format) : format.table.isEmpty = true := by
  unfold Invocation.settings at hsettings
  rw [if_pos h] at hsettings
  exact Settings.isEmpty_of_format (Settings.delimitersEnabled_of_override hsettings) hformat

/-- The text that is written for some text that is kept as it stands: the document of a message with
that text and no entities, or the text of the message of which it is the document. -/
def keep (inv : Invocation) (pretty : Bool) (source : String) : Except Json.Fault String :=
  match inv.action with
  | .parse compact => .ok (Message.render (pretty && !compact) { text := source })
  | .unparse => (Message.ofDocument? source).map (·.text)

/-- Without delimiters the text is kept as it stands. -/
theorem convert_of_isEmpty {format : Format} (h : format.table.isEmpty = true) (inv : Invocation)
    (pretty : Bool) (source : String) :
    inv.convert pretty format source = inv.keep pretty source := by
  unfold convert keep
  cases inv.action with
  | parse compact => exact congrArg Except.ok (format.renderParsed_of_isEmpty h _ source)
  | unparse => exact format.renderUnparsed_of_isEmpty h source

end CommandLine.Invocation

/-- With the option that disables delimiters, in front of two hyphens, a run that finds settings and
a format delivers what does not depend on them but for the layout: from markup the document of a
message with the markup as it stands for its text, and without entities, as which it is read again;
from the document of a message the text of the message. Where the run ends well, that is what it
leaves on the standard output or in the one file that it writes. -/
theorem WorkingFolder.run_without_delimiters {f : WorkingFolder} {args : List String}
    {inv : CommandLine.Invocation} {settings : Settings} {format : Format}
    (hread : CommandLine.read args = .ok inv)
    (hflag : "--no-delimiters" ∈ args.takeWhile (· != "--"))
    (hsettings : inv.settings f.files = .ok settings) (hformat : settings.format = .ok format)
    (stdin : List UInt8) :
    (∀ pretty text, Message.ofDocument? (Message.render pretty { text }) = .ok { text }) ∧
    f.run args stdin = f.deliver inv.output? (do
      let source ← inv.source f.files stdin
      (inv.keep settings.pretty source).mapError .document) ∧
    ((f.run args stdin).status = 0 → ∃ source, inv.source f.files stdin = .ok source ∧
      ∃ text, inv.keep settings.pretty source = .ok text ∧
        (f.run args stdin).Leaves f text inv.output?) := by
  have hempty : format.table.isEmpty = true := by
    refine inv.isEmpty_of_noDelimiters ?_ hsettings hformat
    rw [CommandLine.noDelimiters_eq hread]
    exact List.contains_iff_mem.mpr hflag
  have hrun : f.run args stdin = f.deliver inv.output? (do
      let source ← inv.source f.files stdin
      (inv.keep settings.pretty source).mapError .document) := by
    rw [run_eq_deliver hread, inv.output_of_format hsettings hformat]
    simp only [inv.convert_of_isEmpty hempty]
  refine ⟨fun pretty text =>
    Message.ofDocument?_render (fun e he => absurd he List.not_mem_nil) pretty, hrun, ?_⟩
  rw [hrun]
  intro hstatus
  obtain ⟨text, htext, hleaves⟩ := exists_leaves_deliver hstatus
  obtain ⟨source, hsource, hkeep⟩ := bind_eq_ok_iff.mp htext
  exact ⟨source, hsource, text, mapError_eq_ok_iff.mp hkeep, hleaves⟩

/-- One settings file enables delimiters and another one, which is named from the root on, lists one
of its own. The document goes to the standard output, and the text to a file in another folder. -/
theorem WorkingFolder.run_without_delimiters_listed :
    let text := " *a* [b](c)\n"
    let document := "[\" a b\", [\x7b\"offset\": 1, \"length\": 1, \"type\": \"bold\"\x7d]]"
    let f : WorkingFolder :=
      { disk :=
          { entries :=
              [(["x"], .folder), (["y"], .folder), (["z"], .folder),
                (["x", "tlmd.toml"],
                  .file (Utf8.encode "[markdown]\ndelimiters_enabled = true\n")),
                (["y", "own.toml"],
                  .file
                    (Utf8.encode "[[markdown.delimiters]]\nmarker = \"*\"\nstyle = \"bold\"\n")),
                (["x", "d.json"], .file (Utf8.encode document))] }
        place := ["x"] }
    let settings : Settings := { delimitersEnabled := false, delimiters? := some [⟨"*", .bold⟩] }
    let args := ["--config", "/y/own.toml", "--no-delimiters", "parse", "--compact"]
    let args' := ["--config=../y/own", "unparse", "--no-delimiters", "/x/d.json", "-o", "../z/e"]
    let inv : CommandLine.Invocation :=
      { action := .parse true, config? := some "/y/own.toml", noDelimiters := true }
    let inv' : CommandLine.Invocation :=
      { action := .unparse, input? := some "/x/d.json", output? := some "../z/e",
        config? := some "../y/own", noDelimiters := true }
    (CommandLine.read args = .ok inv ∧ CommandLine.read args' = .ok inv') ∧
      ("--no-delimiters" ∈ args.takeWhile (· != "--") ∧
        "--no-delimiters" ∈ args'.takeWhile (· != "--")) ∧
      (inv.settings f.files = .ok settings ∧ inv'.settings f.files = .ok settings) ∧
      (∃ format, settings.format = .ok format) ∧
      ((f.run args (Utf8.encode text)).status = 0 ∧ (f.run args' []).status = 0) ∧
      (f.run args (Utf8.encode text)).Leaves f (Message.render false { text }) none ∧
      (f.run args' []).Leaves f " a b" (some "../z/e") := by
  intro text document f settings args args' inv inv'
  have hread : CommandLine.read args = .ok inv := toOption_eq_some_iff.mp (by decide +kernel)
  have hread' : CommandLine.read args' = .ok inv' := toOption_eq_some_iff.mp (by decide +kernel)
  have hflag : "--no-delimiters" ∈ args.takeWhile (· != "--") := by decide
  have hflag' : "--no-delimiters" ∈ args'.takeWhile (· != "--") := by decide
  have hsettings : inv.settings f.files = .ok settings :=
    toOption_eq_some_iff.mp (by decide +kernel)
  have hsettings' : inv'.settings f.files = .ok settings :=
    toOption_eq_some_iff.mp (by decide +kernel)
  have hsome : settings.format.toOption.isSome = true := by decide +kernel
  obtain ⟨format, hformat⟩ := Option.isSome_iff_exists.mp hsome
  rw [toOption_eq_some_iff] at hformat
  have hstatus : (f.run args (Utf8.encode text)).status = 0 := by decide +kernel
  have hstatus' : (f.run args' []).status = 0 := by decide +kernel
  refine ⟨⟨hread, hread'⟩, ⟨hflag, hflag'⟩, ⟨hsettings, hsettings'⟩, ⟨format, hformat⟩,
    ⟨hstatus, hstatus'⟩, ?_, ?_⟩
  · obtain ⟨-, -, hleaves⟩ :=
      run_without_delimiters hread hflag hsettings hformat (Utf8.encode text)
    obtain ⟨source, hsource, kept, hkeep, hleft⟩ := hleaves hstatus
    have htext : inv.source f.files (Utf8.encode text) = .ok text :=
      toOption_eq_some_iff.mp (by decide +kernel)
    obtain rfl := Except.ok.inj (htext.symm.trans hsource)
    exact Except.ok.inj hkeep ▸ hleft
  · obtain ⟨-, -, hleaves⟩ := run_without_delimiters hread' hflag' hsettings' hformat []
    obtain ⟨source, hsource, kept, hkeep, hleft⟩ := hleaves hstatus'
    have hdocument : inv'.source f.files [] = .ok document :=
      toOption_eq_some_iff.mp (by decide +kernel)
    obtain rfl := Except.ok.inj (hdocument.symm.trans hsource)
    have htext : inv'.keep settings.pretty document = .ok " a b" :=
      toOption_eq_some_iff.mp (by decide +kernel)
    exact Except.ok.inj (htext.symm.trans hkeep) ▸ hleft

end MessageMarkup
