import MessageMarkup.Delimiters
import MessageMarkup.Entity.Trim
import MessageMarkup.Link.Scanner
import MessageMarkup.Note
import MessageMarkup.Text.Occurrence

/-!
# Reading markup

Markup is read in one pass over its units. A marker that occurs a second time further on is taken
out at both places and leaves an entity over the text between them; a link is replaced by its
label. Nothing nests: the next occurrence of the same marker closes a pair, whatever lies between.
What has been taken out later lay inside entities found earlier, which shrink accordingly.

A `Scan` is the text cut in two at the place of the reader. Each step moves units across the cut or
takes them out behind it, so `rest` gets shorter with every step (`Scan.length_rest_step_lt`), and
positions are inside the text by construction.
-/

namespace MessageMarkup

/-! ## Removing markup -/

/-- An entity after a pair of markers of `width` units at `start` and `stop` has been taken out: one
that lies around both markers loses both, any other that reaches past the first loses one. -/
def Entity.withoutPair (start stop width : Nat) (e : Entity) : Entity :=
  if start < e.stop then
    if e.offset ≤ start ∧ stop + width ≤ e.stop then e.shorten (width * 2) else e.shorten width
  else e

/-- An entity after `removed` units of a link at `start` have been taken out. -/
def Entity.withoutLink (start removed : Nat) (e : Entity) : Entity :=
  if start < e.stop then e.shorten removed else e

/-! ## The reader -/

/-- A text in the course of being read. -/
structure Scan where
  /-- The units before the reader, the nearest first. -/
  past : List UInt16 := []
  /-- The units after the reader. -/
  rest : List UInt16
  /-- The entities found so far, in order. -/
  entities : List Entity := []
  /-- A scanner for links in the text as it is now. -/
  links? : Option LinkScanner := none
  /-- The records made so far, in order. -/
  notes : List Note := []

namespace Scan

/-- The text as it is now. -/
def units (s : Scan) : List UInt16 :=
  s.past.reverse ++ s.rest

/-- The position of the reader. -/
def position (s : Scan) : Nat :=
  s.past.length

/-- The reader passes one unit. -/
def advance (s : Scan) : Scan :=
  match s.rest with
  | [] => s
  | unit :: rest => { s with past := unit :: s.past, rest }

/-- The reader makes a note. -/
def note (s : Scan) (n : Note) : Scan :=
  { s with notes := s.notes ++ [n] }

/-- The delimiter `d`, at which the reader is, is taken out there and behind the `length` units that
follow it. The reader passes what lies between if that is verbatim. -/
def takePair (s : Scan) (d : Delimiter) (length : Nat) : Scan :=
  let start := s.position
  let behind := s.rest.drop d.width
  let content := behind.take length
  let after := behind.drop (length + d.width)
  let entities :=
    s.entities.map (Entity.withoutPair start (start + d.width + length) d.width) ++
      [{ offset := start, length, kind := d.style.kind }]
  if d.style.isVerbatim then
    { s with past := content.reverse ++ s.past, rest := after, entities, links? := none }
  else { s with rest := content ++ after, entities, links? := none }

/-- The link at which the reader is is replaced by its label, which the reader passes. -/
def takeLink (s : Scan) (l : Link) : Scan :=
  let start := s.position
  { past := l.label.reverse ++ s.past
    rest := s.rest.drop l.length
    entities :=
      s.entities.map (Entity.withoutLink start (l.length - l.label.length)) ++
        [{ offset := start, length := l.label.length, kind := .textUrl l.url }]
    links? := none
    notes := s.notes ++ [.link start l.label.length] }

/-- Asks for a link at the reader, from the scanner at hand or a new one. -/
def link? (p : LinkPattern) (s : Scan) : Option Link × Scan :=
  let links := s.links?.getD (LinkScanner.ofUnits p s.units)
  let (found, links) := links.linkAt? s.position
  (found, { s with links? := some links })

/-- One step of the reader. A link is looked for only where no marker is. -/
def step (table : Delimiters) (p : LinkPattern) (s : Scan) : Scan :=
  match table.match? s.rest with
  | some d =>
    match occurrenceFrom? (s.rest.drop d.width) d.units 1 with
    | some length => s.takePair d length
    | none => (s.note (.unterminated d.marker s.position)).advance
  | none =>
    match s.link? p with
    | (some l, s) => s.takeLink l
    | (none, s) => s.advance

/-! ## Progress -/

/-- Passing a unit leaves fewer to read. -/
theorem length_rest_advance_lt {s : Scan} (h : s.rest ≠ []) :
    s.advance.rest.length < s.rest.length := by
  unfold advance
  split
  · exact absurd ‹_› h
  · simp [*]

/-- Taking out a pair leaves fewer units to read. -/
theorem length_rest_takePair_lt {s : Scan} {d : Delimiter} {length : Nat} (hd : 0 < d.width)
    (h : s.rest ≠ []) : (s.takePair d length).rest.length < s.rest.length := by
  have hpos := List.length_pos_iff.mpr h
  unfold takePair
  split <;> simp only [List.length_append, List.length_take, List.length_drop] <;> omega

/-- Taking out a link leaves fewer units to read. -/
theorem length_rest_takeLink_lt {s : Scan} {l : Link} (h : s.rest ≠ []) :
    (s.takeLink l).rest.length < s.rest.length := by
  have hpos := List.length_pos_iff.mpr h
  have := l.length_pos
  simp only [takeLink, List.length_drop]
  omega

/-- Looking for a link reads nothing. -/
@[simp] theorem rest_link? (p : LinkPattern) (s : Scan) : (s.link? p).2.rest = s.rest := rfl

/-- An occurrence has something that occurs. -/
theorem ne_nil_of_occurrenceFrom? {α : Type} [BEq α] {xs ys : List α} {n k : Nat}
    (h : occurrenceFrom? xs ys n = some k) : ys ≠ [] := by
  rintro rfl
  simp [occurrenceFrom?] at h

/-- Every step leaves fewer units to read. -/
theorem length_rest_step_lt {table : Delimiters} {p : LinkPattern} {s : Scan} (h : s.rest ≠ []) :
    (s.step table p).rest.length < s.rest.length := by
  unfold step
  split
  · split
    · rename_i hocc
      exact length_rest_takePair_lt (List.length_pos_iff.mpr (ne_nil_of_occurrenceFrom? hocc)) h
    · exact length_rest_advance_lt (s := note s _) h
  · split <;> rename_i hl
    · have hs := congrArg (fun x => x.2.rest) hl
      simp only [rest_link?] at hs
      rw [hs] at h ⊢
      exact length_rest_takeLink_lt h
    · have hs := congrArg (fun x => x.2.rest) hl
      simp only [rest_link?] at hs
      rw [hs] at h ⊢
      exact length_rest_advance_lt h

/-- The scan after the last step. -/
def run (table : Delimiters) (p : LinkPattern) (s : Scan) : Scan :=
  if s.rest = [] then s else run table p (s.step table p)
  termination_by s.rest.length
  decreasing_by exact length_rest_step_lt ‹_›

end Scan

/-! ## Messages -/

/-- The message that markup stands for, and the records of reading it. Without delimiters markup is
plain text. -/
def parseWith (table : Delimiters) (p : LinkPattern) (markup : String) : Message × List Note :=
  if markup.isEmpty || table.isEmpty then ({ text := markup }, [])
  else
    let s := Scan.run table p { rest := Utf16.ofText markup }
    let (units, entities) := trim s.units s.entities
    ({ text := Utf16.toText units, entities },
      s.notes ++ [.parsed units.length entities.length])

end MessageMarkup
