import MessageMarkup.Format
import MessageMarkup.Proofs.Format.Reachable
import MessageMarkup.Proofs.Link.Current

/-!
# Reading without a scanner at hand

The reader keeps a scanner for links as long as the text stays as it is. `Scan.runAfresh` is a
reader that keeps none: wherever no marker is, it looks for a link in the text as it is then. The
two read the same (`Format.parse_afresh`), with any table and any pattern of links, because at every
step of a run the scanner at hand is one of the text as it is (`Scan.Current`). Whatever changes the
text drops the scanner, and a step that keeps it only moves the reader.
-/

namespace MessageMarkup

namespace Scan

/-! ## The reader that keeps no scanner -/

/-- One step of the reader. A link is looked for in the text as it is, and only where no marker
is. -/
def stepAfresh (table : Delimiters) (p : LinkPattern) (s : Scan) : Scan :=
  match table.match? s.rest with
  | some d =>
    match occurrenceFrom? (s.rest.drop d.width) d.units 1 with
    | some length => s.takePair d length
    | none => (s.note (.unterminated d.marker s.position)).advance
  | none =>
    match p.linkAt? s.units s.position with
    | some l => s.takeLink l
    | none => s.advance

/-- Every step leaves fewer units to read. -/
theorem length_rest_stepAfresh_lt {table : Delimiters} {p : LinkPattern} {s : Scan}
    (h : s.rest ≠ []) : (s.stepAfresh table p).rest.length < s.rest.length := by
  unfold stepAfresh
  split
  · split
    · rename_i hocc
      exact length_rest_takePair_lt (List.length_pos_iff.mpr (ne_nil_of_occurrenceFrom? hocc)) h
    · exact length_rest_advance_lt (s := note s _) h
  · split
    · exact length_rest_takeLink_lt h
    · exact length_rest_advance_lt h

/-- The scan after the last step. -/
def runAfresh (table : Delimiters) (p : LinkPattern) (s : Scan) : Scan :=
  if s.rest = [] then s else runAfresh table p (s.stepAfresh table p)
  termination_by s.rest.length
  decreasing_by exact length_rest_stepAfresh_lt ‹_›

end Scan

/-- The message that markup stands for, and the records of reading it, without a scanner. -/
def parseAfresh (table : Delimiters) (p : LinkPattern) (markup : String) : Message × List Note :=
  if markup.isEmpty || table.isEmpty then ({ text := markup }, [])
  else
    let s := Scan.runAfresh table p { rest := Utf16.ofText markup }
    let (units, entities) := trim s.units s.entities
    ({ text := Utf16.toText units, entities },
      s.notes ++ [.parsed units.length entities.length])

namespace Scan

variable {table : Delimiters} {p : LinkPattern} {s : Scan}

/-! ## The scanner at hand -/

/-- The scanner at hand, if there is one, is one of the text as it is. -/
def Current (p : LinkPattern) (s : Scan) : Prop :=
  ∀ scanner, s.links? = some scanner → scanner.Current p (Utf16.decode s.units)

/-- A scan without a scanner has none of another text. -/
theorem current_of_none (h : s.links? = none) : s.Current p :=
  fun scanner hscanner => absurd (h.symm.trans hscanner).symm (Option.some_ne_none scanner)

/-- Passing a unit changes nothing in the text. -/
theorem units_advance (s : Scan) : s.advance.units = s.units := by
  unfold advance
  split
  · rfl
  · rename_i hrest
    simp [units, hrest]

/-- It leaves the scanner at hand as it is. -/
theorem links?_advance (s : Scan) : s.advance.links? = s.links? := by
  unfold advance
  split <;> rfl

/-- Taking out a pair drops the scanner at hand. -/
theorem links?_takePair (s : Scan) (d : Delimiter) (n : Nat) : (s.takePair d n).links? = none := by
  unfold takePair
  split <;> rfl

namespace Current

/-- The scanner that is asked for a link is one of the text. -/
theorem getD (h : s.Current p) :
    (s.links?.getD (LinkScanner.ofUnits p s.units)).Current p (Utf16.decode s.units) := by
  cases hl : s.links? with
  | some scanner => exact h scanner hl
  | none => exact LinkScanner.current_ofUnits p s.units

/-- Asking for a link gives the one that is there, and leaves a scanner of the text. -/
theorem link? (h : s.Current p) :
    (s.link? p).1 = p.linkAt? s.units s.position ∧ (s.link? p).2.Current p := by
  obtain ⟨hlink, hnext⟩ := h.getD.linkAt? s.position
  exact ⟨hlink, fun scanner hscanner => Option.some.inj hscanner ▸ hnext⟩

/-- Passing a unit keeps a scanner of the text. -/
theorem advance (h : s.Current p) : s.advance.Current p := by
  unfold Current
  rw [s.links?_advance, s.units_advance]
  exact h

/-- Every step keeps a scanner of the text, or none. -/
theorem step (h : s.Current p) : (s.step table p).Current p := by
  unfold Scan.step
  split
  · split
    · exact current_of_none (s.links?_takePair _ _)
    · exact Current.advance (s := s.note _) h
  · split <;> rename_i hlink
    · exact current_of_none rfl
    · have hnext := h.link?.2
      rw [hlink] at hnext
      exact hnext.advance

end Current

/-! ## One step and another -/

/-- The scan without its scanner. -/
def withoutScanner (s : Scan) : Scan :=
  { s with links? := none }

/-- Without a scanner a unit is passed in the same way. -/
theorem withoutScanner_advance (s : Scan) :
    s.advance.withoutScanner = s.withoutScanner.advance := by
  obtain ⟨past, rest, entities, links?, notes⟩ := s
  cases rest <;> rfl

/-- A scan has no scanner after a pair has been taken out. -/
theorem withoutScanner_takePair (s : Scan) (d : Delimiter) (n : Nat) :
    (s.takePair d n).withoutScanner = s.withoutScanner.takePair d n := by
  unfold takePair
  split <;> rfl

/-- If the scanner at hand is one of the text, a step does what one does without a scanner. -/
theorem withoutScanner_step (h : s.Current p) :
    (s.step table p).withoutScanner = s.withoutScanner.stepAfresh table p := by
  have hrest : s.withoutScanner.rest = s.rest := rfl
  have hlinkAt : p.linkAt? s.withoutScanner.units s.withoutScanner.position = (s.link? p).1 :=
    h.link?.1.symm
  unfold step stepAfresh
  rw [hrest, hlinkAt]
  cases table.match? s.rest with
  | some d =>
    dsimp only
    cases occurrenceFrom? (s.rest.drop d.width) d.units 1 with
    | some n => exact s.withoutScanner_takePair d n
    | none => exact withoutScanner_advance (s.note _)
  | none =>
    dsimp only
    cases hlink : s.link? p with
    | mk found s' =>
      have hs' : s.withoutScanner = s'.withoutScanner :=
        congrArg (fun asked => asked.2.withoutScanner) hlink
      cases found with
      | some l =>
        have htake : (s'.takeLink l).withoutScanner = s'.withoutScanner.takeLink l := rfl
        exact htake.trans (congrArg (takeLink · l) hs'.symm)
      | none => exact (withoutScanner_advance s').trans (congrArg Scan.advance hs'.symm)

/-! ## Runs -/

/-- If the scanner at hand is one of the text, a run ends where one ends that keeps none. -/
theorem withoutScanner_run (h : s.Current p) :
    (s.run table p).withoutScanner = s.withoutScanner.runAfresh table p := by
  -- Both do one step after the other, and every step keeps the scanner one of the text.
  fun_induction Scan.run table p s with
  | case1 s hrest =>
    have hrest' : s.withoutScanner.rest = [] := hrest
    rw [runAfresh, if_pos hrest']
  | case2 s hrest ih =>
    have hrest' : ¬ s.withoutScanner.rest = [] := hrest
    rw [runAfresh, if_neg hrest', ← withoutScanner_step h]
    exact ih h.step

/-- At every step of a run the scanner at hand is one of the text. -/
theorem Reachable.current {markup : String} (h : Reachable table p markup s) : s.Current p := by
  induction h with
  | start => exact current_of_none rfl
  | step _ _ ih => exact ih.step

end Scan

/-! ## Messages -/

/-- The reader never uses a scanner of a text that has changed. With any table and any pattern of
links it reads the same message, with the same records, as a reader that looks for a link in the
text as it is wherever no marker is; at every step of the run the scanner at hand gives what is
found there, and so would a new one. -/
theorem Format.parse_afresh (f : Format) (markup : String) :
    f.parseNoting markup = parseAfresh f.table f.links markup ∧
      ∀ s, Scan.Reachable f.table f.links markup s →
        (s.link? f.links).1 = f.links.linkAt? s.units s.position ∧
        f.links.linkAt? s.units s.position =
          ((LinkScanner.ofUnits f.links s.units).linkAt? s.position).1 := by
  refine ⟨?_, fun s hs => ⟨hs.current.link?.1, (LinkScanner.linkAt?_ofUnits _ _ _).symm⟩⟩
  have hend : (Scan.run f.table f.links { rest := Utf16.ofText markup }).withoutScanner =
      Scan.runAfresh f.table f.links { rest := Utf16.ofText markup } :=
    Scan.withoutScanner_run (Scan.current_of_none rfl)
  -- What is read from the last scan is read from the one without a scanner.
  unfold parseNoting parseWith parseAfresh
  rw [← hend]
  rfl

/-- A pair of markers keeps a label and a url apart. Before it is taken out the scanner at hand has
found that there is no link further on; afterwards there is one where the reader is, and the reader
finds it. -/
theorem Format.parse_afresh_pair :
    let f : Format := {}
    let markup := "x**[a]**(u)"
    let s := Scan.step f.table f.links { rest := Utf16.ofText markup }
    let t := s.step f.table f.links
    f.parseNoting markup = parseAfresh f.table f.links markup ∧
      Scan.Reachable f.table f.links markup t ∧ s.position = 1 ∧ t.position = 1 ∧
      (s.link? f.links).1 = none ∧
      (t.link? f.links).1 = some ⟨6, Utf16.ofText "a", "u", by decide⟩ := by
  intro f markup s t
  have hs : Scan.Reachable f.table f.links markup s := .step .start (by decide)
  have ht : Scan.Reachable f.table f.links markup t := .step hs (by decide +kernel)
  obtain ⟨hsame, hlink⟩ := f.parse_afresh markup
  obtain ⟨hafresh, -⟩ := hlink t ht
  refine ⟨hsame, ht, by decide +kernel, by decide +kernel, by decide +kernel, ?_⟩
  rw [hafresh]
  decide +kernel

end MessageMarkup
