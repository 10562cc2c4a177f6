import Mathlib.Algebra.GroupWithZero.Nat
import MessageMarkup.Proofs.Entity.Shorten
import MessageMarkup.Proofs.Format.Shape
import MessageMarkup.Proofs.Span

/-!
# Where the units of a text come from

A `Trace` is a scan that remembers: it keeps with every unit its place in the markup, and with every
entity the places of its two markers and of what was between them. It also notes each time that
something is taken out around the end of an entity (`Straddle`), since the entity then shrinks by
other units than those that it loses. What a trace remembers decides nothing: without it the trace
is the scan beside it (`Traces.of`), and every scan that a run comes to has one
(`Scan.Reachable.exists_traces`). At the end of a run the trace has become the message that is read
(`Traces.parse_eq`).

A step either passes a unit or takes out markup before and behind some content; `Trace.Takes` says
what the latter is, for pairs and links alike, and the properties of traces are proved of it.
-/

namespace MessageMarkup

open Utf16 (encode length)

/-! ## Entities that remember -/

/-- What is taken out around the end of an entity. -/
inductive Straddle where
  /-- The first marker of a pair. -/
  | opening
  /-- The second marker of a pair, of which the entity covered the first `inside` units. -/
  | closing (inside : Nat)
  /-- A link. -/
  | link
  deriving DecidableEq, Repr, Inhabited

/-- The units that the entity covers behind its end from then on. -/
def Straddle.strays : Straddle → Nat
  | closing inside => inside
  | opening | link => 0

namespace Entity

/-- The marker of a pair that has the end of an entity strictly inside it. -/
def straddlesPair (start stop width : Nat) (e : Entity) : List Straddle :=
  if start < e.stop ∧ e.stop < start + width then [.opening]
  else if stop < e.stop ∧ e.stop < stop + width then [.closing (e.stop - stop)]
  else []

/-- A link that has the end of an entity strictly inside it. -/
def straddlesLink (start length : Nat) (e : Entity) : List Straddle :=
  if start < e.stop ∧ e.stop < start + length then [.link] else []

end Entity

/-- An entity, the places in the markup of its markers and of what was between them, and what has
been taken out around its end. The markers of a link are what stands before and behind its label. -/
structure Tracked where
  /-- The entity as it is now. -/
  entity : Entity
  /-- The places of the units of the opening marker. -/
  opening : List Nat
  /-- The places of the units between the markers. -/
  content : List Nat
  /-- The places of the units of the closing marker. -/
  closing : List Nat
  /-- What has been taken out around the end of the entity, in order. -/
  straddles : List Straddle := []
  deriving DecidableEq, Repr, Inhabited

namespace Tracked

/-- The units that the entity may cover behind its end. -/
def strays (x : Tracked) : Nat :=
  (x.straddles.map Straddle.strays).sum

/-- The entity after a pair of markers has been taken out. -/
def withoutPair (start stop width : Nat) (x : Tracked) : Tracked :=
  { x with
    entity := x.entity.withoutPair start stop width
    straddles := x.straddles ++ x.entity.straddlesPair start stop width }

/-- The entity after a link of `length` units has been replaced by its label. -/
def withoutLink (start length removed : Nat) (x : Tracked) : Tracked :=
  { x with
    entity := x.entity.withoutLink start removed
    straddles := x.straddles ++ x.entity.straddlesLink start length }

end Tracked

/-! ## Scans that remember -/

/-- A text in the course of being read, each unit with its place in the markup. -/
structure Trace where
  /-- The units before the reader, the nearest first. -/
  past : List (UInt16 × Nat) := []
  /-- The units after the reader. -/
  rest : List (UInt16 × Nat)
  /-- The entities found so far, in order. -/
  found : List Tracked := []

namespace Trace

/-- The text as it is now. -/
def text (t : Trace) : List (UInt16 × Nat) :=
  t.past.reverse ++ t.rest

/-- The position of the reader. -/
def position (t : Trace) : Nat :=
  t.past.length

/-- Before a run every unit is at its place. -/
def start (markup : String) : Trace :=
  { rest := (Utf16.ofText markup).zipIdx }

/-- The reader passes one unit. -/
def advance (t : Trace) : Trace :=
  match t.rest with
  | [] => t
  | x :: rest => { t with past := x :: t.past, rest }

/-- Passing a unit changes nothing in the text. -/
theorem text_advance (t : Trace) : t.advance.text = t.text := by
  unfold advance
  split
  · rfl
  · rename_i hrest
    simp [text, hrest]

/-- It leaves the entities as they are. -/
theorem found_advance (t : Trace) : t.advance.found = t.found := by
  unfold advance
  split <;> rfl

/-- The reader goes on. -/
theorem position_le_advance (t : Trace) : t.position ≤ t.advance.position := by
  unfold advance
  split
  · exact Nat.le_refl _
  · exact Nat.le_succ _

/-- A pair of markers is taken out, as `Scan.takePair` does it. -/
def takePair (t : Trace) (d : Delimiter) (length : Nat) : Trace :=
  let behind := t.rest.drop d.width
  let content := behind.take length
  let after := behind.drop (length + d.width)
  let found :=
    t.found.map (Tracked.withoutPair t.position (t.position + d.width + length) d.width) ++
      [{ entity := { offset := t.position, length, kind := d.style.kind }
         opening := (t.rest.take d.width).map Prod.snd
         content := content.map Prod.snd
         closing := ((behind.drop length).take d.width).map Prod.snd }]
  if d.style.isVerbatim then { past := content.reverse ++ t.past, rest := after, found }
  else { past := t.past, rest := content ++ after, found }

/-- A link is replaced by its label, which stands behind its first `before` units, as
`Scan.takeLink` does it. -/
def takeLink (t : Trace) (l : Link) (before : Nat) : Trace :=
  let label := (t.rest.drop before).take l.label.length
  let behind := t.rest.drop (before + l.label.length)
  { past := label.reverse ++ t.past
    rest := t.rest.drop l.length
    found :=
      t.found.map (Tracked.withoutLink t.position l.length (l.length - l.label.length)) ++
        [{ entity := { offset := t.position, length := l.label.length, kind := .textUrl l.url }
           opening := (t.rest.take before).map Prod.snd
           content := label.map Prod.snd
           closing := (behind.take (l.length - (before + l.label.length))).map Prod.snd }] }

end Trace

/-- The traces of the scans of a run. A link may have the units of its label at several places. Each
of them counts as that of the label here, the one that has been captured among them. -/
inductive Traces (table : Delimiters) (p : LinkPattern) (markup : String) :
    Scan → Trace → Prop where
  /-- Before the first step. -/
  | start : Traces table p markup { rest := Utf16.ofText markup } (Trace.start markup)
  /-- The reader passes a unit. -/
  | pass {s : Scan} {t : Trace} :
      Traces table p markup s t → s.rest ≠ [] → s.Vacant table p →
      Traces table p markup (s.step table p) t.advance
  /-- The reader takes out a pair. -/
  | pair {s : Scan} {t : Trace} {d : Delimiter} {n : Nat} :
      Traces table p markup s t → s.rest ≠ [] → table.match? s.rest = some d →
      occurrenceFrom? (s.rest.drop d.width) d.units 1 = some n →
      Traces table p markup (s.step table p) (t.takePair d n)
  /-- The reader puts the label of a link in its place. -/
  | link {s : Scan} {t : Trace} {l : Link} {before : Nat} :
      Traces table p markup s t → s.rest ≠ [] → table.match? s.rest = none →
      (s.link? p).1 = some l →
      ((t.rest.drop before).take l.label.length).map Prod.fst = l.label →
      before + l.label.length ≤ l.length →
      Traces table p markup (s.step table p) (t.takeLink l before)

/-! ## Without what is remembered -/

/-- A trace without what it remembers is the scan. -/
structure Trace.Of (t : Trace) (s : Scan) : Prop where
  /-- The units before the reader are the same. -/
  past_eq : t.past.map Prod.fst = s.past
  /-- The units after the reader are the same. -/
  rest_eq : t.rest.map Prod.fst = s.rest
  /-- The entities are the same. -/
  entities_eq : t.found.map Tracked.entity = s.entities

namespace Trace.Of

variable {table : Delimiters} {p : LinkPattern} {markup : String} {s : Scan} {t : Trace}

/-- Before a run. -/
theorem start (markup : String) : (Trace.start markup).Of { rest := Utf16.ofText markup } where
  past_eq := rfl
  rest_eq := List.zipIdx_map_fst 0 _
  entities_eq := rfl

/-- The reader is at the same position. -/
theorem position_eq (h : t.Of s) : t.position = s.position := by
  rw [Trace.position, Scan.position, ← h.past_eq, List.length_map]

/-- It has passed the units of the characters before it. -/
theorem position_eq_length (h : t.Of s) {passed : List Char}
    (hpast : s.past.reverse = encode passed) : t.position = length passed := by
  rw [h.position_eq, Scan.position, ← List.length_reverse, hpast, Utf16.length_encode]

/-- The text is the same. -/
theorem text_eq (h : t.Of s) : t.text.map Prod.fst = s.units := by
  rw [Trace.text, Scan.units, List.map_append, List.map_reverse, h.past_eq, h.rest_eq]

/-- The reader passes a unit. -/
theorem advance (h : t.Of s) (hne : s.rest ≠ []) (hv : s.Vacant table p) :
    t.advance.Of (s.step table p) := by
  obtain ⟨unit, rest, hrest⟩ := List.exists_cons_of_ne_nil hne
  obtain ⟨hpast', hrest', hentities', -⟩ := Scan.step_of_vacant hv hrest
  have htrace := h.rest_eq
  rw [hrest] at htrace
  obtain ⟨x, behind, hx, rfl, rfl⟩ := List.map_eq_cons_iff.mp htrace
  unfold Trace.advance
  rw [hx]
  exact ⟨by rw [hpast', ← h.past_eq]; rfl, hrest'.symm, by rw [hentities', ← h.entities_eq]⟩

/-- The reader takes out a pair. -/
theorem takePair (h : t.Of s) (d : Delimiter) (n : Nat) : (t.takePair d n).Of (s.takePair d n) := by
  have hfound : (t.found.map (Tracked.withoutPair s.position (s.position + d.width + n)
      d.width)).map Tracked.entity =
        s.entities.map (Entity.withoutPair s.position (s.position + d.width + n) d.width) := by
    rw [← h.entities_eq, List.map_map, List.map_map]
    rfl
  unfold Trace.takePair Scan.takePair
  cases d.style.isVerbatim
  all_goals
    constructor
    · simp [List.map_take, List.map_drop, h.past_eq, h.rest_eq]
    · simp [List.map_take, List.map_drop, h.rest_eq]
    · simp only [Bool.false_eq_true, if_true, if_false, List.map_append, h.position_eq, hfound,
        List.map_cons, List.map_nil]

/-- The reader puts a label in the place of its link. -/
theorem takeLink (h : t.Of s) (l : Link) {before : Nat}
    (hlabel : ((t.rest.drop before).take l.label.length).map Prod.fst = l.label) :
    (t.takeLink l before).Of (s.takeLink l) := by
  constructor
  · show (((t.rest.drop before).take l.label.length).reverse ++ t.past).map Prod.fst = _
    rw [List.map_append, List.map_reverse, hlabel, h.past_eq]
    rfl
  · show (t.rest.drop l.length).map Prod.fst = s.rest.drop l.length
    rw [List.map_drop, h.rest_eq]
  · unfold Trace.takeLink Scan.takeLink
    simp only [List.map_append, List.map_map, List.map_cons, List.map_nil, ← h.entities_eq,
      h.position_eq]
    rfl

end Trace.Of

namespace Traces

variable {table : Delimiters} {p : LinkPattern} {markup : String} {s : Scan} {t : Trace}

/-- A trace is one of the scan beside it. -/
theorem of (h : Traces table p markup s t) : t.Of s := by
  induction h with
  | start => exact Trace.Of.start markup
  | pass _ hne hv ih => exact ih.advance hne hv
  | pair _ _ hm ho ih =>
    rw [Scan.step_of_pair hm ho]
    exact ih.takePair _ _
  | link _ _ hm hl hlabel _ ih =>
    rw [Scan.step_of_link hm hl]
    exact ih.takeLink _ hlabel

/-- The scan beside it is one that a run comes to. -/
theorem reachable (h : Traces table p markup s t) : s.Reachable table p markup := by
  induction h with
  | start => exact .start
  | pass _ hne _ ih | pair _ hne _ _ ih | link _ hne _ _ _ _ ih => exact ih.step hne

end Traces

/-- Every scan that a run comes to has a trace. -/
theorem Scan.Reachable.exists_traces {table : Delimiters} {p : LinkPattern} {markup : String}
    {s : Scan} (h : s.Reachable table p markup) : ∃ t, Traces table p markup s t := by
  induction h with
  | start => exact ⟨_, .start⟩
  | @step s hs hne ih =>
    obtain ⟨t, ht⟩ := ih
    obtain hv | ⟨d, n, hm, ho⟩ | ⟨l, hm, hl⟩ := Scan.cases_step table p s
    · exact ⟨_, ht.pass hne hv⟩
    · exact ⟨_, ht.pair hne hm ho⟩
    · obtain ⟨text, hshows, -⟩ := hs.shows
      obtain ⟨passed, before, label, after, ahead, rfl, hpast, hlabel, hlength, -⟩ :=
        hshows.link hm hl
      have hrest := hshows.rest_eq hpast
      -- The label stands behind the units of what is before it.
      have hstands :
          ((t.rest.drop (length before)).take l.label.length).map Prod.fst = l.label := by
        rw [List.map_take, List.map_drop, ht.of.rest_eq, hrest, hlabel, Utf16.encode_append,
          Utf16.encode_append, ← Utf16.length_encode before, List.drop_left, List.take_left]
      refine ⟨_, ht.link hne hm hl hstands ?_⟩
      rw [hlength, hlabel, Utf16.length_encode]
      omega

/-- So every run has one. -/
theorem Traces.exists_end (table : Delimiters) (p : LinkPattern) (markup : String) :
    ∃ s t, Traces table p markup s t ∧ s.rest = [] := by
  obtain ⟨t, ht⟩ := (Scan.reachable_run table p markup).exists_traces
  exact ⟨_, t, ht, Scan.Reachable.start.run.2⟩

/-! ## Taking out markup -/

/-- What a pair and a link have in common: markup before and behind some content is taken out, and
an entity is found over the content. What has become of the entities found before is `shrink`. -/
structure Trace.Takes (t t' : Trace) (kind : Kind) (shrink : Tracked → Tracked)
    (opening content closing ahead : List (UInt16 × Nat)) : Prop where
  /-- The reader is at the markup. -/
  rest_eq : t.rest = opening ++ (content ++ (closing ++ ahead))
  /-- The content stays, and what is before the markup and behind it. -/
  text_eq : t'.text = t.past.reverse ++ (content ++ ahead)
  /-- The content has its entity. -/
  found_eq : t'.found = t.found.map shrink ++
    [{ entity := { offset := t.position, length := content.length, kind }
       opening := opening.map Prod.snd
       content := content.map Prod.snd
       closing := closing.map Prod.snd }]
  /-- The reader never goes back. -/
  position_le : t.position ≤ t'.position
  /-- It passes what is verbatim. -/
  stop_le : kind.isVerbatim = true → t.position + content.length ≤ t'.position

namespace Trace

variable {t t' : Trace} {kind : Kind} {shrink : Tracked → Tracked}
  {opening content closing ahead : List (UInt16 × Nat)}

/-- The text before markup is taken out. -/
theorem Takes.text_eq_append (h : t.Takes t' kind shrink opening content closing ahead) :
    t.text = t.past.reverse ++ (opening ++ (content ++ (closing ++ ahead))) := by
  rw [Trace.text, h.rest_eq]

/-- A pair is taken out. -/
theorem Of.takes_takePair {table : Delimiters} {s : Scan} (h : t.Of s) {d : Delimiter} {n : Nat}
    (hm : table.match? s.rest = some d)
    (ho : occurrenceFrom? (s.rest.drop d.width) d.units 1 = some n) :
    ∃ opening content closing ahead, opening.length = d.width ∧ content.length = n ∧
      closing.length = d.width ∧
      t.Takes (t.takePair d n) d.style.kind
        (Tracked.withoutPair t.position (t.position + d.width + n) d.width)
        opening content closing ahead := by
  obtain ⟨-, -, contentUnits, aheadUnits, hunits, rfl⟩ := Scan.exists_of_pair hm ho
  rw [← h.rest_eq] at hunits
  obtain ⟨opening, behind, hrest, hopening, hbehind⟩ := List.map_eq_append_iff.mp hunits
  obtain ⟨content, behind', rfl, rfl, hbehind'⟩ := List.map_eq_append_iff.mp hbehind
  obtain ⟨closing, ahead, rfl, hclosing, -⟩ := List.map_eq_append_iff.mp hbehind'
  replace hopening : opening.length = d.width := by
    simpa [Delimiter.width] using congrArg List.length hopening
  replace hclosing : closing.length = d.width := by
    simpa [Delimiter.width] using congrArg List.length hclosing
  refine ⟨opening, content, closing, ahead, hopening, (List.length_map _).symm, hclosing, ?_⟩
  have htake : t.rest.take d.width = opening := by rw [hrest, ← hopening, List.take_left]
  have hdrop : t.rest.drop d.width = content ++ (closing ++ ahead) := by
    rw [hrest, ← hopening, List.drop_left]
  have hahead : (content ++ (closing ++ ahead)).drop (content.length + d.width) = ahead := by
    rw [← List.drop_drop, List.drop_left, ← hclosing, List.drop_left]
  have hclose : (closing ++ ahead).take d.width = closing := by rw [← hclosing, List.take_left]
  unfold Trace.takePair
  dsimp only
  rw [htake, hdrop, List.length_map, List.take_left, List.drop_left, hahead, hclose]
  constructor
  · exact hrest
  · unfold text
    split <;> simp
  · split <;> rfl
  · unfold position
    split <;> simp
  · intro hverbatim
    rw [Style.isVerbatim_kind] at hverbatim
    rw [if_pos hverbatim]
    simp [position, Nat.add_comm]

/-- A label is put in the place of its link. -/
theorem Of.takes_takeLink {s : Scan} (h : t.Of s) {l : Link} {before : Nat}
    (hlabel : ((t.rest.drop before).take l.label.length).map Prod.fst = l.label)
    (hle : before + l.label.length ≤ l.length) (hlength : l.length ≤ s.rest.length) :
    ∃ opening content closing ahead,
      opening.length + (content.length + closing.length) = l.length ∧
      content.length = l.label.length ∧
      t.Takes (t.takeLink l before) (.textUrl l.url)
        (Tracked.withoutLink t.position l.length (l.length - l.label.length))
        opening content closing ahead := by
  have hcontent : ((t.rest.drop before).take l.label.length).length = l.label.length := by
    rw [← hlabel]
    simp
  have hrest : t.rest.length = s.rest.length := by rw [← h.rest_eq, List.length_map]
  have hclosing : l.length - (before + l.label.length) ≤
      (t.rest.drop (before + l.label.length)).length := by
    rw [List.length_drop]
    omega
  refine ⟨t.rest.take before, (t.rest.drop before).take l.label.length,
    (t.rest.drop (before + l.label.length)).take (l.length - (before + l.label.length)),
    t.rest.drop l.length, ?_, hcontent, ?_⟩
  · rw [hcontent, List.length_take, List.length_take, Nat.min_eq_left hclosing]
    omega
  have hahead : t.rest.drop l.length =
      (t.rest.drop (before + l.label.length)).drop (l.length - (before + l.label.length)) := by
    rw [List.drop_drop, Nat.add_sub_cancel' hle]
  constructor
  · rw [hahead, List.take_append_drop, ← List.drop_drop, List.take_append_drop,
      List.take_append_drop]
  · unfold Trace.takeLink text
    simp
  · unfold Trace.takeLink
    dsimp only
    rw [hcontent]
  · unfold Trace.takeLink position
    simp
  · intro _
    unfold Trace.takeLink position
    simp [Nat.add_comm]

/-- What holds of the entities found before, as they have become, and of the new one, holds of all
that are found then. -/
theorem Takes.forall_found {P : Tracked → Prop}
    (h : t.Takes t' kind shrink opening content closing ahead) (hold : ∀ x ∈ t.found, P (shrink x))
    (hnew : P
      { entity := { offset := t.position, length := content.length, kind }
        opening := opening.map Prod.snd
        content := content.map Prod.snd
        closing := closing.map Prod.snd }) : ∀ x ∈ t'.found, P x := by
  intro x hx
  rw [h.found_eq] at hx
  rcases List.mem_append.mp hx with hx | hx
  · obtain ⟨y, hy, rfl⟩ := List.mem_map.mp hx
    exact hold y hy
  · rw [List.mem_singleton.mp hx]
    exact hnew

/-- What is left of a text keeps its order. -/
theorem Takes.sublist (h : t.Takes t' kind shrink opening content closing ahead) :
    t'.text.Sublist t.text := by
  rw [h.text_eq, h.text_eq_append]
  exact (List.sublist_append_of_sublist_right
    ((List.sublist_append_right closing ahead).append_left content)).append_left _

end Trace

namespace Traces

variable {table : Delimiters} {p : LinkPattern} {markup : String} {s : Scan} {t : Trace}

/-- A link that is found is taken out. -/
theorem takes_takeLink (h : Traces table p markup s t) {l : Link} {before : Nat}
    (hm : table.match? s.rest = none) (hl : (s.link? p).1 = some l)
    (hlabel : ((t.rest.drop before).take l.label.length).map Prod.fst = l.label)
    (hle : before + l.label.length ≤ l.length) :
    ∃ opening content closing ahead,
      opening.length + (content.length + closing.length) = l.length ∧
      content.length = l.label.length ∧
      t.Takes (t.takeLink l before) (.textUrl l.url)
        (Tracked.withoutLink t.position l.length (l.length - l.label.length))
        opening content closing ahead := by
  obtain ⟨text, hshows, -⟩ := h.reachable.shows
  obtain ⟨passed, before, label, after, ahead, rfl, hpast, -, hlength, -⟩ := hshows.link hm hl
  refine h.of.takes_takeLink hlabel hle ?_
  rw [hshows.rest_eq hpast, Utf16.length_encode, hlength]
  simp only [Utf16.length_append]
  omega

/-- The units of a text are some of those of the markup, in their order. -/
theorem sublist (h : Traces table p markup s t) :
    t.text.Sublist (Utf16.ofText markup).zipIdx := by
  induction h with
  | start => exact List.Sublist.refl _
  | @pass s t _ _ _ ih =>
    rw [t.text_advance]
    exact ih
  | pair h _ hm ho ih =>
    obtain ⟨opening, content, closing, ahead, -, -, -, htakes⟩ := h.of.takes_takePair hm ho
    exact htakes.sublist.trans ih
  | link h _ hm hl hlabel hle ih =>
    obtain ⟨opening, content, closing, ahead, -, -, htakes⟩ := h.takes_takeLink hm hl hlabel hle
    exact htakes.sublist.trans ih

/-- So their places in the markup are in order. -/
theorem pairwise_text (h : Traces table p markup s t) :
    t.text.Pairwise fun u v => u.2 < v.2 := by
  refine List.Pairwise.sublist h.sublist ?_
  rw [← List.pairwise_map (f := Prod.snd) (R := (· < ·)), List.zipIdx_map_snd]
  exact List.pairwise_lt_range'

end Traces

/-! ## Messages -/

namespace Trace

/-- The text without the blanks around it. -/
def trimmed (t : Trace) : List (UInt16 × Nat) :=
  (t.text.dropWhile fun u => isBlankUnit u.1).rdropWhile fun u => isBlankUnit u.1

/-- The number of blanks at the start of the text. -/
def leading (t : Trace) : Nat :=
  (t.text.takeWhile fun u => isBlankUnit u.1).length

/-- The entities that still cover some of the text without blanks. -/
def kept (t : Trace) : List Tracked :=
  t.found.filterMap fun x =>
    (x.entity.clip? t.leading t.trimmed.length).map fun e => { x with entity := e }

/-- What is left without blanks is a piece of the text, behind the blanks at its start. -/
theorem exists_trimmed (t : Trace) :
    ∃ before after, t.text = before ++ (t.trimmed ++ after) ∧ before.length = t.leading := by
  obtain ⟨after, hafter⟩ := List.rdropWhile_prefix (fun u : UInt16 × Nat => isBlankUnit u.1)
    (t.text.dropWhile fun u => isBlankUnit u.1)
  refine ⟨t.text.takeWhile fun u => isBlankUnit u.1, after, ?_, rfl⟩
  rw [trimmed, hafter, List.takeWhile_append_dropWhile]

/-- Trimming leaves a piece of the text. -/
theorem trimmed_sublist (t : Trace) : t.trimmed.Sublist t.text := by
  obtain ⟨before, after, htext, -⟩ := t.exists_trimmed
  rw [htext]
  exact (List.sublist_append_left _ after).trans (List.sublist_append_right before _)

/-- An entity that is kept is what trimming leaves of one that was found. -/
theorem exists_of_mem_kept {t : Trace} {x : Tracked} (h : x ∈ t.kept) :
    ∃ y ∈ t.found, y.entity.clip? t.leading t.trimmed.length = some x.entity ∧
      x = { y with entity := x.entity } := by
  obtain ⟨y, hy, hclip⟩ := List.mem_filterMap.mp h
  obtain ⟨e, he, rfl⟩ := Option.map_eq_some_iff.mp hclip
  exact ⟨y, hy, he, rfl⟩

/-- A trace is trimmed as its scan is. -/
theorem Of.trimmed_eq {s : Scan} {t : Trace} (h : t.Of s) :
    t.trimmed.map Prod.fst = trimUnits s.units := by
  unfold trimUnits trimmed List.rdropWhile
  rw [← h.text_eq, List.dropWhile_map, ← List.map_reverse, List.dropWhile_map, ← List.map_reverse]
  rfl

/-- It has as many blanks at its start. -/
theorem Of.leading_eq {s : Scan} {t : Trace} (h : t.Of s) :
    t.leading = (s.units.takeWhile isBlankUnit).length := by
  rw [← h.text_eq, List.takeWhile_map, List.length_map]
  rfl

/-- Trimming a trace is trimming its scan. -/
theorem Of.trim {s : Scan} {t : Trace} (h : t.Of s) :
    MessageMarkup.trim s.units s.entities =
      (t.trimmed.map Prod.fst, t.kept.map Tracked.entity) := by
  unfold MessageMarkup.trim kept
  dsimp only
  rw [← h.leading_eq, ← h.trimmed_eq, List.length_map, ← h.entities_eq, List.filterMap_map,
    List.map_filterMap]
  simp only [Option.map_map, Function.comp_def, Option.map_id']

end Trace

/-- At the end of a run its trace has become the message that is read. -/
theorem Traces.parse_eq {f : Format} (hf : f.table.isEmpty = false) {markup : String} {s : Scan}
    {t : Trace} (h : Traces f.table f.links markup s t) (hend : s.rest = []) :
    Utf16.ofText (f.parse markup).text = t.trimmed.map Prod.fst ∧
      (f.parse markup).entities = t.kept.map Tracked.entity := by
  have hrun : Scan.run f.table f.links { rest := Utf16.ofText markup } = s :=
    h.reachable.run_eq hend
  have htrim := h.of.trim
  rw [Format.ofText_parse hf, Format.parse_eq_trim hf, hrun]
  exact ⟨congrArg Prod.fst htrim, congrArg Prod.snd htrim⟩

end MessageMarkup
