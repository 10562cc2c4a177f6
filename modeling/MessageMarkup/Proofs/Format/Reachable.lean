import MessageMarkup.Format.Scan
import MessageMarkup.Proofs.Delimiters
import MessageMarkup.Proofs.Link.Standing
import MessageMarkup.Proofs.Occurrence
import MessageMarkup.Proofs.Utf16.WellFormed

/-!
# The scans that a run comes to

A step does one of three things: it passes a unit where the reader has nothing to take out
(`Scan.Vacant`), takes out a pair of markers, or puts the label of a link in its place
(`Scan.cases_step`). `Scan.Shows` is the view of a scan as a text, with any table and any pattern of
links, also where the reader is between the halves of a surrogate pair: the units are those of the
text, and what the scanner at hand has found is there. `Shows.vacant`, `Shows.pair` and `Shows.link`
say what text a step leaves, and so every scan that a run comes to shows a text with some of the
characters of the markup, in their order (`Scan.Reachable.shows`).
-/

namespace MessageMarkup.Scan

open Utf16 (encode length)

variable {table : Delimiters} {p : LinkPattern} {s : Scan} {text : List Char}

/-! ## One step -/

/-- There is nothing to take out at the reader: a marker that occurs no second time, or no marker
and no link. -/
def Vacant (table : Delimiters) (p : LinkPattern) (s : Scan) : Prop :=
  match table.match? s.rest with
  | some d => occurrenceFrom? (s.rest.drop d.width) d.units 1 = none
  | none => (s.link? p).1 = none

instance (table : Delimiters) (p : LinkPattern) (s : Scan) : Decidable (s.Vacant table p) :=
  match hm : table.match? s.rest with
  | some d =>
    decidable_of_iff (occurrenceFrom? (s.rest.drop d.width) d.units 1 = none)
      (by unfold Vacant; rw [hm])
  | none => decidable_of_iff ((s.link? p).1 = none) (by unfold Vacant; rw [hm])

/-- A step has nothing to take out, or it finds a pair, or a link. -/
theorem cases_step (table : Delimiters) (p : LinkPattern) (s : Scan) :
    s.Vacant table p ∨
      (∃ d n, table.match? s.rest = some d ∧
        occurrenceFrom? (s.rest.drop d.width) d.units 1 = some n) ∨
      ∃ l, table.match? s.rest = none ∧ (s.link? p).1 = some l := by
  unfold Vacant
  cases hm : table.match? s.rest with
  | some d =>
    cases ho : occurrenceFrom? (s.rest.drop d.width) d.units 1 with
    | some n => exact Or.inr (Or.inl ⟨d, n, rfl, ho⟩)
    | none => exact Or.inl ho
  | none =>
    cases hl : (s.link? p).1 with
    | some l => exact Or.inr (Or.inr ⟨l, rfl, rfl⟩)
    | none => exact Or.inl rfl

/-- Where there is nothing to take out, a step passes one unit. Besides, it may make a note, and the
scanner at hand may have been asked. -/
theorem step_of_vacant (h : s.Vacant table p) {unit : UInt16} {rest : List UInt16}
    (hrest : s.rest = unit :: rest) :
    (s.step table p).past = unit :: s.past ∧ (s.step table p).rest = rest ∧
      (s.step table p).entities = s.entities ∧
      ((s.step table p).links? = s.links? ∨ (s.step table p).links? = (s.link? p).2.links?) := by
  have hadvance (t : Scan) (ht : t.rest = unit :: rest) :
      t.advance = { t with past := unit :: t.past, rest } := by
    unfold advance
    rw [ht]
  unfold Vacant at h
  unfold step
  cases hm : table.match? s.rest with
  | some d =>
    rw [hm] at h
    simp only [h]
    rw [hadvance (s.note _) hrest]
    exact ⟨rfl, rfl, rfl, Or.inl rfl⟩
  | none =>
    rw [hm] at h
    have hlink : s.link? p = (none, (s.link? p).2) := Prod.ext h rfl
    rw [hlink]
    simp only
    rw [hadvance (s.link? p).2 hrest]
    exact ⟨rfl, rfl, rfl, Or.inr rfl⟩

/-- Where a marker occurs a second time, a step takes out the pair. -/
theorem step_of_pair {d : Delimiter} {n : Nat} (hm : table.match? s.rest = some d)
    (ho : occurrenceFrom? (s.rest.drop d.width) d.units 1 = some n) :
    s.step table p = s.takePair d n := by
  unfold step
  simp only [hm, ho]

/-- Where there is a link and no marker, a step puts its label in its place. -/
theorem step_of_link {l : Link} (hm : table.match? s.rest = none)
    (hl : (s.link? p).1 = some l) : s.step table p = s.takeLink l := by
  have hlink : s.link? p = (some l, (s.link? p).2) := Prod.ext hl rfl
  unfold step
  rw [hm]
  simp only
  rw [hlink]
  rfl

/-- A pair that is found: the reader is at its first marker, and something lies between the two. -/
theorem exists_of_pair {d : Delimiter} {n : Nat} (hm : table.match? s.rest = some d)
    (ho : occurrenceFrom? (s.rest.drop d.width) d.units 1 = some n) :
    d ∈ table.entries ∧ 0 < n ∧
      ∃ content ahead, s.rest = d.units ++ (content ++ (d.units ++ ahead)) ∧
        content.length = n := by
  obtain ⟨hd, behind, hbehind⟩ := Delimiters.prefix_of_match?_eq_some hm
  have hdrop : s.rest.drop d.width = behind := by
    rw [← hbehind]
    exact List.drop_left
  rw [hdrop] at ho
  obtain ⟨hpos, content, ahead, hcontent, hlen⟩ := exists_of_occurrenceFrom? ho
  exact ⟨hd, hpos, content, ahead, by rw [← hbehind, hcontent], hlen⟩

/-- What is left of a text from which a pair has been taken out. -/
theorem units_takePair {d : Delimiter} {content ahead : List UInt16}
    (hrest : s.rest = d.units ++ (content ++ (d.units ++ ahead))) :
    (s.takePair d content.length).units = s.past.reverse ++ (content ++ ahead) := by
  have hbehind : s.rest.drop d.width = content ++ (d.units ++ ahead) := by
    rw [hrest]
    exact List.drop_left
  have hafter : (content ++ (d.units ++ ahead)).drop (content.length + d.width) = ahead := by
    rw [← List.drop_drop, List.drop_left]
    exact List.drop_left
  unfold takePair units
  dsimp only
  rw [hbehind, hafter, List.take_left]
  split
  · rw [List.reverse_append, List.reverse_reverse, List.append_assoc]
  · rfl

/-! ## The text as it is now -/

/-- A scan shows a text: its units are those of the text, and what the scanner at hand has found is
there. -/
structure Shows (s : Scan) (text : List Char) : Prop where
  /-- The units are those of the text. -/
  units_eq : s.units = encode text
  /-- The scanner at hand is one of the text. -/
  sound : ∀ scanner, s.links? = some scanner → scanner.Sound text

/-- Before a run the text is the markup. -/
theorem shows_start (markup : String) : Shows { rest := Utf16.ofText markup } markup.toList :=
  ⟨rfl, fun _ h => absurd h.symm (Option.some_ne_none _)⟩

namespace Shows

/-- What is after the reader is what the text has behind the characters before it. -/
theorem rest_eq {passed behind : List Char} (h : s.Shows (passed ++ behind))
    (hpast : s.past.reverse = encode passed) : s.rest = encode behind := by
  have hunits := h.units_eq
  rw [units, hpast, Utf16.encode_append] at hunits
  exact List.append_cancel_left hunits

/-- The scanner that is asked for a link is one of the text. -/
theorem sound_getD (h : s.Shows text) :
    (s.links?.getD (LinkScanner.ofUnits p s.units)).Sound text := by
  cases hl : s.links? with
  | some scanner => exact h.sound scanner hl
  | none =>
    have hnew := LinkScanner.sound_ofUnits p s.units
    rw [h.units_eq, Utf16.decode_encode] at hnew
    rw [Option.getD_none, h.units_eq]
    exact hnew

/-- Passing a unit changes nothing in the text. -/
theorem vacant (h : s.Shows text) (hv : s.Vacant table p) (hne : s.rest ≠ []) :
    (s.step table p).Shows text := by
  obtain ⟨unit, rest, hrest⟩ := List.exists_cons_of_ne_nil hne
  obtain ⟨hpast, hrest', -, hlinks⟩ := step_of_vacant hv hrest
  constructor
  · rw [← h.units_eq, units, units, hpast, hrest', hrest, List.reverse_cons, List.append_assoc]
    rfl
  · intro scanner hscanner
    rcases hlinks with hlinks | hlinks <;> rw [hlinks] at hscanner
    · exact h.sound scanner hscanner
    · rw [← Option.some.inj hscanner]
      exact h.sound_getD.linkAt? s.position

/-- Taking out a pair leaves what was before it, between its markers and behind it. -/
theorem pair (h : s.Shows text) {d : Delimiter} {n : Nat} (hm : table.match? s.rest = some d)
    (ho : occurrenceFrom? (s.rest.drop d.width) d.units 1 = some n) :
    ∃ passed content ahead,
      text = passed ++ (d.marker.toList ++ (content ++ (d.marker.toList ++ ahead))) ∧
        s.past.reverse = encode passed ∧ length content = n ∧
        (s.step table p).Shows (passed ++ (content ++ ahead)) := by
  obtain ⟨-, -, content, ahead, hrest, rfl⟩ := exists_of_pair hm ho
  have hmarker : d.marker.toList ≠ [] := fun hnil =>
    ne_nil_of_occurrenceFrom? ho (by rw [d.units_eq, hnil]; rfl)
  -- Both markers start and stop between characters.
  have hunits : encode text =
      s.past.reverse ++ (encode d.marker.toList ++ (content ++ (d.units ++ ahead))) := by
    rw [← h.units_eq, units, hrest, d.units_eq]
  obtain ⟨passed, behind, htext, hpast, hbehind⟩ := Utf16.exists_append_of_encode hmarker hunits
  rw [d.units_eq] at hbehind
  obtain ⟨content, ahead, rfl, rfl, rfl⟩ := Utf16.exists_append_of_encode hmarker hbehind.symm
  refine ⟨passed, content, ahead, htext, hpast, (Utf16.length_encode content).symm, ?_⟩
  rw [step_of_pair hm ho]
  constructor
  · rw [units_takePair hrest, hpast, Utf16.encode_append, Utf16.encode_append]
  · intro scanner hscanner
    unfold takePair at hscanner
    split at hscanner <;> exact absurd hscanner.symm (Option.some_ne_none scanner)

/-- Putting a label in the place of its link leaves what was before the link, the label and what was
behind the link. -/
theorem link (h : s.Shows text) {l : Link} (hm : table.match? s.rest = none)
    (hl : (s.link? p).1 = some l) :
    ∃ passed before label after ahead,
      text = passed ++ (before ++ (label ++ (after ++ ahead))) ∧
        s.past.reverse = encode passed ∧ l.label = encode label ∧
        l.length = length before + (length label + length after) ∧
        (s.step table p).Shows (passed ++ (label ++ ahead)) := by
  have hstands : l.StandsAt text s.position := LinkScanner.standsAt_of_linkAt? h.sound_getD hl
  obtain ⟨passed, before, label, after, ahead, htext, hlen, hlabel, hlength⟩ := hstands
  have hunits : encode text = s.past.reverse ++ s.rest := h.units_eq.symm
  obtain ⟨hpast, hrest⟩ :=
    Utf16.encode_eq_of_length hunits htext (by rw [hlen, List.length_reverse, position])
  refine ⟨passed, before, label, after, ahead, htext, hpast, hlabel, hlength, ?_⟩
  rw [step_of_link hm hl]
  -- The units of the link are those of what stands before, in and behind its label.
  have hdrop : s.rest.drop l.length = encode ahead := by
    have hlink : s.rest = encode (before ++ (label ++ after)) ++ encode ahead := by
      rw [hrest, ← Utf16.encode_append, List.append_assoc, List.append_assoc]
    have hwidth : l.length = (encode (before ++ (label ++ after))).length := by
      rw [hlength, Utf16.length_encode, Utf16.length_append, Utf16.length_append]
    rw [hlink, hwidth, List.drop_left]
  constructor
  · show (l.label.reverse ++ s.past).reverse ++ s.rest.drop l.length = _
    rw [hdrop, List.reverse_append, List.reverse_reverse, hpast, hlabel, List.append_assoc,
      Utf16.encode_append, Utf16.encode_append]
  · intro scanner hscanner
    exact absurd hscanner.symm (Option.some_ne_none scanner)

end Shows

/-! ## Runs -/

/-- The scans that a run comes to, from before the markup on. -/
inductive Reachable (table : Delimiters) (p : LinkPattern) (markup : String) : Scan → Prop where
  /-- The scan before the first step. -/
  | start : Reachable table p markup { rest := Utf16.ofText markup }
  /-- The scan after one more step. -/
  | step {s : Scan} :
      Reachable table p markup s → s.rest ≠ [] → Reachable table p markup (s.step table p)

/-- From each of them a run comes to its end, where nothing is left to read. -/
theorem Reachable.run {markup : String} (h : Reachable table p markup s) :
    Reachable table p markup (s.run table p) ∧ (s.run table p).rest = [] := by
  -- Every step leaves less to read.
  fun_induction Scan.run table p s with
  | case1 s hrest => exact ⟨h, hrest⟩
  | case2 s hrest ih => exact ih (h.step hrest)

/-- What the run of some markup ends with is one of them. -/
theorem reachable_run (table : Delimiters) (p : LinkPattern) (markup : String) :
    Reachable table p markup (run table p { rest := Utf16.ofText markup }) :=
  (Reachable.start.run).1

/-- Where nothing is left to read it is what the run ends with. -/
theorem Reachable.run_eq {markup : String} (h : Reachable table p markup s) (hend : s.rest = []) :
    Scan.run table p { rest := Utf16.ofText markup } = s := by
  -- From each scan that a run comes to it goes on to the same end.
  have hrun : Scan.run table p { rest := Utf16.ofText markup } = s.run table p := by
    clear hend
    induction h with
    | start => rfl
    | @step s _ hne ih =>
      rw [Scan.run.eq_1 table p s, if_neg hne] at ih
      exact ih
  rw [hrun, Scan.run, if_pos hend]

/-- Each of them shows a text with some of the characters of the markup, in their order. -/
theorem Reachable.shows {markup : String} (h : Reachable table p markup s) :
    ∃ text, s.Shows text ∧ text.Sublist markup.toList := by
  induction h with
  | start => exact ⟨_, shows_start markup, List.Sublist.refl _⟩
  | @step s _ hne ih =>
    obtain ⟨text, hshows, hsub⟩ := ih
    obtain hv | ⟨d, n, hm, ho⟩ | ⟨l, hm, hl⟩ := cases_step table p s
    · exact ⟨text, hshows.vacant hv hne, hsub⟩
    · obtain ⟨passed, content, ahead, rfl, -, -, hshows'⟩ := hshows.pair (p := p) hm ho
      refine ⟨_, hshows', List.Sublist.trans ?_ hsub⟩
      exact ((List.sublist_append_of_sublist_right
        ((List.sublist_append_right _ _).append_left content))).append_left passed
    · obtain ⟨passed, before, label, after, ahead, rfl, -, -, -, hshows'⟩ := hshows.link hm hl
      refine ⟨_, hshows', List.Sublist.trans ?_ hsub⟩
      exact (List.sublist_append_of_sublist_right
        ((List.sublist_append_right _ _).append_left label)).append_left passed

end MessageMarkup.Scan
