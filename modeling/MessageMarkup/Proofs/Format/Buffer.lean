import MessageMarkup.Proofs.Format.Afresh
import MessageMarkup.Proofs.Format.Duration
import MessageMarkup.Proofs.Link.Tables

/-!
# Reading in place

A scan is cut at the place of the reader, so its positions are inside the text by construction. A
`Buffer` is a text in one piece, with a position, and what a step takes out of it is named by
positions and widths: each of them could lie behind the end of the text, which gets shorter as it is
read, and each difference of positions could be one below zero. `Buffer.step?` fails where that is
so. It never does: on what a run comes to, a step of a buffer is one of the scan that it stands for
(`Scan.Reachable.step?_buffer`). The bounds that this comes from are `Buffer.Reachable.bounded`.
-/

namespace MessageMarkup

/-! ## Operations that may fail -/

/-- The difference of two numbers, unless it is below zero. -/
def minus? (m n : Nat) : Option Nat :=
  if n ≤ m then some (m - n) else none

section

variable {α : Type}

/-- What a list has from a position on, unless that is behind the end. -/
def from? (xs : List α) (start : Nat) : Option (List α) :=
  if start ≤ xs.length then some (xs.drop start) else none

/-- A list in which others have taken the place of so many elements from a position on, unless there
are not so many. -/
def replace? (xs : List α) (start width : Nat) (ys : List α) : Option (List α) :=
  if start + width ≤ xs.length then some (xs.take start ++ (ys ++ xs.drop (start + width)))
  else none

/-- The sublists of a width that stand in a list, in their order. -/
def windows (width : Nat) : List α → List (List α)
  | [] => []
  | x :: xs => if width ≤ (x :: xs).length then (x :: xs).take width :: windows width xs else []

/-- The same, unless the width is zero. -/
def windowsOf? (width : Nat) (xs : List α) : Option (List (List α)) :=
  if 0 < width then some (windows width xs) else none

/-- The first occurrence from a position on, sought in one window after another. -/
def search? [BEq α] (haystack needle : List α) (start : Nat) : Option (Option Nat) :=
  if needle.isEmpty || haystack.length < start then some none
  else do
    let behind ← from? haystack start
    let windows ← windowsOf? needle.length behind
    return (windows.idxOf? needle).map (· + start)

/-- A difference is there if nothing greater is taken away. -/
theorem minus?_add (m n : Nat) : minus? (m + n) n = some m := by
  rw [minus?, if_pos (Nat.le_add_left n m), Nat.add_sub_cancel]

/-- What stands between two pieces of a list can be replaced. -/
theorem replace?_append {xs ys : List α} {start width : Nat} (hstart : xs.length = start)
    (hwidth : ys.length = width) (zs ws : List α) :
    replace? (xs ++ (ys ++ zs)) start width ws = some (xs ++ (ws ++ zs)) := by
  obtain rfl := hstart
  obtain rfl := hwidth
  have hle : xs.length + ys.length ≤ (xs ++ (ys ++ zs)).length := by
    simp only [List.length_append]
    omega
  rw [replace?, if_pos hle, List.take_left, ← List.drop_drop, List.drop_left, List.drop_left]

variable [BEq α]

/-- Behind some elements an occurrence is found where it is without them, and so many further on. -/
theorem occurrenceFrom?_append (xs ys needle : List α) (start : Nat) :
    occurrenceFrom? (xs ++ ys) needle (xs.length + start) =
      (occurrenceFrom? ys needle start).map (xs.length + ·) := by
  unfold occurrenceFrom?
  have hlength : decide ((xs ++ ys).length < xs.length + start) = decide (ys.length < start) := by
    rw [List.length_append, decide_eq_decide, Nat.add_lt_add_iff_left]
  rw [hlength]
  split
  · rfl
  · rw [← List.drop_drop, List.drop_left, Option.map_map]
    refine congrArg (Option.map · _) (funext fun n => ?_)
    exact Nat.add_left_comm _ _ _

variable [LawfulBEq α]

/-- The first window with what is sought is its first occurrence. -/
theorem idxOf?_windows {needle : List α} (hne : needle ≠ []) (xs : List α) :
    (windows needle.length xs).idxOf? needle = occurrence? needle xs := by
  induction xs with
  | nil =>
    have hempty : needle.isEmpty = false := List.isEmpty_eq_false_iff.mpr hne
    rw [occurrence?, hempty]
    rfl
  | cons x xs ih =>
    rw [occurrence?, windows, ← ih]
    by_cases hle : needle.length ≤ (x :: xs).length
    · -- The first window is what is sought if the list starts with it.
      have hstarts : needle.isPrefixOf (x :: xs) = ((x :: xs).take needle.length == needle) := by
        rw [Bool.eq_iff_iff, List.isPrefixOf_iff_prefix, List.prefix_iff_eq_take, beq_iff_eq,
          eq_comm]
      rw [if_pos hle, List.idxOf?_cons, hstarts]
    · -- Where there are no more windows there is nothing to find.
      have hstarts : ¬ needle.isPrefixOf (x :: xs) := fun h =>
        hle (List.isPrefixOf_iff_prefix.mp h).length_le
      have hnone : windows needle.length xs = [] := by
        cases xs with
        | nil => rfl
        | cons y ys =>
          rw [windows, if_neg]
          exact fun h => hle (h.trans (Nat.le_succ _))
      rw [if_neg hle, if_neg hstarts, hnone]
      rfl

/-- A search in windows never fails, and finds the first occurrence. -/
theorem search?_eq (haystack needle : List α) (start : Nat) :
    search? haystack needle start = some (occurrenceFrom? haystack needle start) := by
  unfold search? occurrenceFrom?
  split
  · rfl
  · rename_i h
    rw [Bool.or_eq_true, not_or, decide_eq_true_eq, Nat.not_lt, List.isEmpty_iff] at h
    obtain ⟨hne, hle⟩ := h
    rw [from?, if_pos hle, Option.bind_eq_bind, Option.bind_some, windowsOf?,
      if_pos (List.length_pos_iff.mpr hne), ← idxOf?_windows hne]
    rfl

end

/-! ## Buffers -/

/-- A text in the course of being read, in one piece. -/
structure Buffer where
  /-- The text as it is now. -/
  units : List UInt16
  /-- The position of the reader. -/
  position : Nat := 0
  /-- The entities found so far, in order. -/
  entities : List Entity := []
  /-- A scanner for links in the text as it is now. -/
  links? : Option LinkScanner := none
  /-- The records made so far, in order. -/
  notes : List Note := []

namespace Buffer

/-- The delimiter `d`, which is at the reader and at `stop`, is taken out there, the second first.
The reader passes what lies between if that is verbatim. -/
def takePair? (b : Buffer) (d : Delimiter) (stop : Nat) : Option Buffer := do
  let units ← replace? b.units stop d.width []
  let units ← replace? units b.position d.width []
  let behind ← minus? stop b.position
  let length ← minus? behind d.width
  let position ← if d.style.isVerbatim then minus? stop d.width else some b.position
  return {
    units, position
    entities := b.entities.map (Entity.withoutPair b.position stop d.width) ++
      [{ offset := b.position, length, kind := d.style.kind }]
    links? := none
    notes := b.notes }

/-- The link at which the reader is is replaced by its label, which the reader passes. -/
def takeLink? (b : Buffer) (l : Link) : Option Buffer := do
  let removed ← minus? l.length l.label.length
  let units ← replace? b.units b.position l.length l.label
  return {
    units, position := b.position + l.label.length
    entities := b.entities.map (Entity.withoutLink b.position removed) ++
      [{ offset := b.position, length := l.label.length, kind := .textUrl l.url }]
    links? := none
    notes := b.notes ++ [.link b.position l.label.length] }

/-- Asks for a link at the reader, from the scanner at hand or a new one. -/
def link? (p : LinkPattern) (b : Buffer) : Option (Option Link × LinkScanner) :=
  (b.links?.getD (.ofUnits p b.units)).linkByTables? b.position

/-- One step of the reader. -/
def step? (table : Delimiters) (p : LinkPattern) (b : Buffer) : Option Buffer :=
  match table.match? (b.units.drop b.position) with
  | some d => do
    match ← search? b.units d.units (b.position + d.width + 1) with
    | some stop => b.takePair? d stop
    | none =>
      return { b with
        position := b.position + 1
        notes := b.notes ++ [.unterminated d.marker b.position] }
  | none => do
    match ← b.link? p with
    | (some l, _) => b.takeLink? l
    | (none, links) => return { b with position := b.position + 1, links? := some links }

/-- The buffer after so many steps, or at the end of the text, unless a step fails. -/
def run? (table : Delimiters) (p : LinkPattern) : Nat → Buffer → Option Buffer
  | 0, b => some b
  | steps + 1, b =>
    if b.position < b.units.length then (b.step? table p).bind (run? table p steps) else some b

/-- The buffers that the run of some markup comes to. -/
inductive Reachable (table : Delimiters) (p : LinkPattern) (markup : String) : Buffer → Prop where
  /-- The buffer before the first step. -/
  | start : Reachable table p markup { units := Utf16.ofText markup }
  /-- The buffer after one more step. -/
  | step {b b' : Buffer} : Reachable table p markup b → b.position < b.units.length →
      b.step? table p = some b' → Reachable table p markup b'

end Buffer

/-! ## Scans in one piece -/

namespace Scan

variable {table : Delimiters} {p : LinkPattern} {s : Scan} {markup : String}

/-- The text of a scan in one piece. -/
def buffer (s : Scan) : Buffer where
  units := s.units
  position := s.position
  entities := s.entities
  links? := s.links?
  notes := s.notes

/-- What is behind the position of the reader has not been passed. -/
theorem drop_units (s : Scan) : s.units.drop s.position = s.rest := by
  rw [units, position, ← List.length_reverse, List.drop_left]

/-- Taking out a pair does not fail. -/
theorem takePair?_buffer {d : Delimiter} {n : Nat} (hm : table.match? s.rest = some d)
    (ho : occurrenceFrom? (s.rest.drop d.width) d.units 1 = some n) :
    s.buffer.takePair? d (s.position + d.width + n) = some (s.takePair d n).buffer := by
  obtain ⟨-, -, content, ahead, hrest, rfl⟩ := exists_of_pair hm ho
  have hposition : s.past.reverse.length = s.position := List.length_reverse
  -- The second marker is taken out of the text as it is, and the first of what that leaves.
  have hsecond : replace? s.units (s.position + d.width + content.length) d.width [] =
      some (s.past.reverse ++ (d.units ++ (content ++ ahead))) := by
    have hstop : (s.past.reverse ++ (d.units ++ content)).length =
        s.position + d.width + content.length := by
      rw [List.length_append, List.length_append, hposition, ← Nat.add_assoc]
      rfl
    have hwidth : d.units.length = d.width := rfl
    have hreplace := replace?_append hstop hwidth ahead []
    simp only [List.append_assoc, List.nil_append] at hreplace
    rw [units, hrest]
    exact hreplace
  have hfirst : replace? (s.past.reverse ++ (d.units ++ (content ++ ahead))) s.position d.width
      [] = some (s.past.reverse ++ (content ++ ahead)) :=
    replace?_append hposition rfl (content ++ ahead) []
  have hbehind : minus? (s.position + d.width + content.length) s.position =
      some (content.length + d.width) := by
    rw [Nat.add_assoc, Nat.add_comm, Nat.add_comm d.width, minus?_add]
  have hpassed : minus? (s.position + d.width + content.length) d.width =
      some (content.length + s.position) := by
    rw [Nat.add_right_comm, minus?_add, Nat.add_comm]
  have hbetween : (s.rest.drop d.width).take content.length = content := by
    rw [hrest]
    exact (congrArg (List.take content.length) List.drop_left).trans List.take_left
  have hunits := units_takePair hrest
  unfold Buffer.takePair?
  simp only [buffer, hsecond, hfirst, hbehind, hpassed, minus?_add, Option.bind_eq_bind,
    Option.bind_some, Option.pure_def, hunits]
  unfold takePair
  cases d.style.isVerbatim with
  | true =>
    simp only [if_true, position, List.length_append, List.length_reverse, hbetween]
  | false => rfl

/-- A link that is found ends inside the text, and its label is not longer. -/
theorem Reachable.link_bounds (h : Reachable table p markup s) {l : Link}
    (hm : table.match? s.rest = none) (hl : (s.link? p).1 = some l) :
    l.length ≤ s.rest.length ∧ l.label.length ≤ l.length := by
  obtain ⟨text, hshows, -⟩ := h.shows
  obtain ⟨passed, before, label, after, ahead, rfl, hpast, hlabel, hlength, -⟩ := hshows.link hm hl
  have hrest := congrArg List.length (hshows.rest_eq hpast)
  have hlabel' := congrArg List.length hlabel
  simp only [Utf16.length_encode, Utf16.length_append] at hrest hlabel'
  omega

/-- Putting a label in the place of its link does not fail. -/
theorem Reachable.takeLink?_buffer (h : Reachable table p markup s) {l : Link}
    (hm : table.match? s.rest = none) (hl : (s.link? p).1 = some l) :
    s.buffer.takeLink? l = some (s.takeLink l).buffer := by
  obtain ⟨hlink, hlabel⟩ := h.link_bounds hm hl
  have hreplace : replace? s.units s.position l.length l.label =
      some (s.past.reverse ++ (l.label ++ s.rest.drop l.length)) := by
    have hsplit : s.units = s.past.reverse ++ (s.rest.take l.length ++ s.rest.drop l.length) := by
      rw [List.take_append_drop, units]
    rw [hsplit]
    exact replace?_append List.length_reverse (List.length_take_of_le hlink) _ _
  have hremoved : minus? l.length l.label.length = some (l.length - l.label.length) :=
    if_pos hlabel
  unfold Buffer.takeLink?
  simp only [buffer, hreplace, hremoved, Option.bind_eq_bind, Option.bind_some, Option.pure_def]
  unfold takeLink
  simp [units, position, Nat.add_comm]

/-- Passing a unit is going one position on. -/
theorem buffer_advance (hne : s.rest ≠ []) :
    s.advance.buffer = { s.buffer with position := s.position + 1 } := by
  obtain ⟨unit, rest, hrest⟩ := List.exists_cons_of_ne_nil hne
  have hadvance : s.advance = { s with past := unit :: s.past, rest } := by
    unfold advance
    rw [hrest]
  have hunits := s.units_advance
  rw [hadvance] at hunits ⊢
  rw [buffer, hunits]
  rfl

/-- On what a run comes to, a step in one piece is a step. -/
theorem Reachable.step?_buffer (h : Reachable table p markup s) (hne : s.rest ≠ []) :
    s.buffer.step? table p = some (s.step table p).buffer := by
  have hdrop : s.buffer.units.drop s.buffer.position = s.rest := s.drop_units
  unfold Buffer.step? Scan.step
  rw [hdrop]
  cases hm : table.match? s.rest with
  | some d =>
    -- The search begins behind the marker and one unit more.
    have hsearch : search? s.units d.units (s.position + d.width + 1) =
        some ((occurrenceFrom? (s.rest.drop d.width) d.units 1).map
          (s.position + d.width + ·)) := by
      obtain ⟨-, behind, hbehind⟩ := Delimiters.prefix_of_match?_eq_some hm
      have hunits : s.units = (s.past.reverse ++ d.units) ++ behind := by
        rw [units, ← hbehind, List.append_assoc]
      have hpassed : s.position + d.width = (s.past.reverse ++ d.units).length := by
        rw [List.length_append, List.length_reverse]
        rfl
      have hdropped : s.rest.drop d.width = behind := by
        rw [← hbehind]
        exact List.drop_left
      rw [search?_eq, hunits, hpassed, occurrenceFrom?_append, hdropped]
    simp only [hsearch, buffer, Option.bind_eq_bind, Option.bind_some]
    cases ho : occurrenceFrom? (s.rest.drop d.width) d.units 1 with
    | some n => exact takePair?_buffer hm ho
    | none => exact congrArg some (buffer_advance (s := s.note _) hne).symm
  | none =>
    have hlink : s.buffer.link? p = some ((s.link? p).1, ((s.links?.getD
        (LinkScanner.ofUnits p s.units)).linkAt? s.position).2) :=
      h.current.getD.linkByTables? s.position
    simp only [hlink, Option.bind_eq_bind, Option.bind_some]
    cases hl : (s.link? p).1 with
    | some l =>
      have hfound : s.link? p = (some l, (s.link? p).2) := Prod.ext hl rfl
      rw [hfound]
      exact h.takeLink?_buffer hm hl
    | none =>
      have hfound : s.link? p = (none, (s.link? p).2) := Prod.ext hl rfl
      rw [hfound]
      exact congrArg some (buffer_advance (s := (s.link? p).2) hne).symm

/-- In one piece, and with enough steps, a run ends where the run of a scan does. -/
theorem Reachable.run?_buffer (h : Reachable table p markup s) {steps : Nat}
    (hsteps : s.rest.length ≤ steps) :
    s.buffer.run? table p steps = some (s.run table p).buffer := by
  induction steps generalizing s with
  | zero =>
    have hend : s.rest = [] := List.length_eq_zero_iff.mp (Nat.le_zero.mp hsteps)
    rw [Scan.run, if_pos hend, Buffer.run?]
  | succ steps ih =>
    have hlt : s.buffer.position < s.buffer.units.length ↔ s.rest ≠ [] := position_lt_iff
    rw [Buffer.run?, Scan.run]
    by_cases hend : s.rest = []
    · rw [if_neg (not_imp_not.mpr hlt.mp (not_not_intro hend)), if_pos hend]
    · have hless : (s.step table p).rest.length < s.rest.length := length_rest_step_lt hend
      rw [if_pos (hlt.mpr hend), if_neg hend, h.step?_buffer hend, Option.bind_some]
      exact ih (h.step hend) (by omega)

end Scan

namespace Buffer

variable {table : Delimiters} {p : LinkPattern} {b : Buffer} {markup : String}

/-- What a run comes to in one piece is a scan that it comes to. -/
theorem Reachable.exists_scan (h : Reachable table p markup b) :
    ∃ s, Scan.Reachable table p markup s ∧ s.buffer = b := by
  induction h with
  | start => exact ⟨_, .start, rfl⟩
  | step _ hlt hstep ih =>
    obtain ⟨s, hs, rfl⟩ := ih
    have hne : s.rest ≠ [] := Scan.position_lt_iff.mp hlt
    exact ⟨_, hs.step hne, Option.some.inj ((hs.step?_buffer hne).symm.trans hstep)⟩

/-- Everything that a step names is inside the text as it is then. -/
structure Bounded (table : Delimiters) (p : LinkPattern) (b : Buffer) : Prop where
  /-- The reader is not behind the end. -/
  position_le : b.position ≤ b.units.length
  /-- The second marker of a pair ends inside the text, the first inside what is left when the
  second has been taken out, and there is something between them. -/
  pair : ∀ d stop, table.match? (b.units.drop b.position) = some d →
    search? b.units d.units (b.position + d.width + 1) = some (some stop) →
    stop + d.width ≤ b.units.length ∧ b.position + d.width ≤ b.units.length - d.width ∧
      b.position + d.width < stop
  /-- A link ends inside the text, and its label is not longer. -/
  link : ∀ l links, table.match? (b.units.drop b.position) = none →
    b.link? p = some (some l, links) →
    b.position + l.length ≤ b.units.length ∧ l.label.length ≤ l.length

/-- So it is at every step of a run. -/
theorem Reachable.bounded (h : Reachable table p markup b) : b.Bounded table p := by
  obtain ⟨s, hs, rfl⟩ := h.exists_scan
  have hlength : s.buffer.units.length = s.buffer.position + s.rest.length := s.length_units
  refine ⟨by omega, fun d stop _ hsearch => ?_, fun l links hm hl => ?_⟩
  · rw [search?_eq] at hsearch
    obtain ⟨hle, hstop⟩ := bounds_of_occurrenceFrom? (Option.some.inj hsearch)
    rw [← Delimiter.width] at hstop
    omega
  · have hlink : s.buffer.link? p = some _ := hs.current.getD.linkByTables? s.position
    rw [hlink] at hl
    have hfound : (s.link? p).1 = some l := congrArg Prod.fst (Option.some.inj hl)
    have hnone : table.match? s.rest = none := by
      rw [← s.drop_units]
      exact hm
    obtain ⟨hinside, hlabel⟩ := hs.link_bounds hnone hfound
    exact ⟨by omega, hlabel⟩

/-- Reading in place never fails. With any table and any pattern of links, at every step of a run
the position is inside the text, both markers of a pair are, the second in the text as it is and the
first in what that leaves, a link is, no difference is below zero and no lookup misses; and the run
ends with what the run of a scan ends with. -/
theorem run?_eq_some (table : Delimiters) (p : LinkPattern) (markup : String) :
    (∀ b, Reachable table p markup b → b.Bounded table p ∧
      (b.position < b.units.length → ∃ b', b.step? table p = some b')) ∧
    ∀ steps, (Utf16.ofText markup).length ≤ steps →
      run? table p steps { units := Utf16.ofText markup } =
        some (Scan.run table p { rest := Utf16.ofText markup }).buffer := by
  refine ⟨fun b h => ⟨h.bounded, fun hlt => ?_⟩, fun steps hsteps => ?_⟩
  · obtain ⟨s, hs, rfl⟩ := h.exists_scan
    exact ⟨_, hs.step?_buffer (Scan.position_lt_iff.mp hlt)⟩
  · exact Scan.Reachable.start.run?_buffer hsteps

/-- The link is replaced first. Then both markers are taken out of what is left, the second of which
ends where the text ends. -/
theorem run?_eq_some_link :
    let markup := "[x](u)**b**"
    let b : Buffer := { units := Utf16.ofText markup }
    ∃ b', b.step? .standard .standard = some b' ∧ Reachable .standard .standard markup b' ∧
      b'.Bounded .standard .standard ∧ b'.position = 1 ∧ b'.units = Utf16.ofText "x**b**" ∧
      (∃ b'', b'.step? .standard .standard = some b'') ∧
      run? .standard .standard 11 b =
        some (Scan.run .standard .standard { rest := Utf16.ofText markup }).buffer := by
  intro markup b
  obtain ⟨hall, hrun⟩ := run?_eq_some .standard .standard markup
  have hlt : b.position < b.units.length := by decide
  obtain ⟨b', hstep⟩ := (hall b .start).2 hlt
  have hb' : Reachable .standard .standard markup b' := .step .start hlt hstep
  obtain ⟨hposition, hunits⟩ : b'.position = 1 ∧ b'.units = Utf16.ofText "x**b**" := by
    have hleft : (b.step? .standard .standard).map (fun b => (b.position, b.units)) =
        some (1, Utf16.ofText "x**b**") := by decide +kernel
    rw [hstep] at hleft
    exact Prod.mk.inj (Option.some.inj hleft)
  obtain ⟨hbounded, hnext⟩ := hall b' hb'
  have hlt' : b'.position < b'.units.length := by
    rw [hposition, hunits]
    decide
  exact ⟨b', hstep, hb', hbounded, hposition, hunits, hnext hlt', hrun 11 (by decide)⟩

end Buffer

end MessageMarkup
