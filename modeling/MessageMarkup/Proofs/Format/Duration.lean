import Mathlib.Logic.Function.Iterate
import MessageMarkup.Proofs.Format.Reachable

/-!
# How many steps a run takes

What a step leaves to read is known to the unit: one less where there is nothing to take out
(`Scan.left_step_of_vacant`), both markers less where there is a pair, with what lies between if
that is verbatim (`Scan.left_step_of_pair`), and the whole link less where there is one, however
short its label is (`Scan.Shows.left_step_of_link`). A marker that occurs is not empty and a link
covers something, so each step gets on, with any table and any pattern of links, and a run takes no
more steps than the markup has units (`Scan.run_eq_iterate`).
-/

namespace MessageMarkup.Scan

variable {table : Delimiters} {p : LinkPattern} {s : Scan} {text : List Char} {markup : String}

/-- The number of units from the reader to the end of the text as it is now. -/
def left (s : Scan) : Nat :=
  s.units.length - s.position

/-- The units of the text are those that have been passed and those that have not. -/
theorem length_units (s : Scan) : s.units.length = s.position + s.rest.length := by
  rw [units, List.length_append, List.length_reverse, position]

/-- What is left are the units that have not been passed. -/
theorem left_eq (s : Scan) : s.left = s.rest.length := by
  rw [left, length_units, Nat.add_sub_cancel_left]

/-- The reader is at the end of the text where nothing is left to read. -/
theorem position_lt_iff {s : Scan} : s.position < s.units.length ↔ s.rest ≠ [] := by
  rw [length_units, Nat.lt_add_right_iff_pos, List.length_pos_iff]

/-! ## One step -/

/-- Where there is nothing to take out, a step leaves one unit less. -/
theorem left_step_of_vacant (h : s.Vacant table p) (hne : s.rest ≠ []) :
    (s.step table p).left + 1 = s.left := by
  obtain ⟨unit, rest, hrest⟩ := List.exists_cons_of_ne_nil hne
  obtain ⟨-, hrest', -, -⟩ := step_of_vacant h hrest
  rw [left_eq, left_eq, hrest', hrest, List.length_cons]

/-- Where there is a pair, it leaves both markers less, and what lies between them if that is
verbatim. -/
theorem left_step_of_pair {d : Delimiter} {n : Nat} (hm : table.match? s.rest = some d)
    (ho : occurrenceFrom? (s.rest.drop d.width) d.units 1 = some n) :
    (s.step table p).left + (2 * d.width + if d.style.isVerbatim then n else 0) = s.left := by
  obtain ⟨-, -, content, ahead, hrest, rfl⟩ := exists_of_pair hm ho
  have hlength : s.rest.length = d.width + (content.length + (d.width + ahead.length)) := by
    rw [hrest, List.length_append, List.length_append, List.length_append]
    rfl
  rw [step_of_pair hm ho, left_eq, left_eq, takePair]
  split
  · simp only [List.length_drop]
    omega
  · simp only [List.length_append, List.length_take, List.length_drop]
    omega

/-- Where there is a link, it leaves the whole link less. -/
theorem Shows.left_step_of_link (h : s.Shows text) {l : Link} (hm : table.match? s.rest = none)
    (hl : (s.link? p).1 = some l) : (s.step table p).left + l.length = s.left := by
  obtain ⟨passed, before, label, after, ahead, rfl, hpast, -, hlength, -⟩ := h.link hm hl
  have hrest := congrArg List.length (h.rest_eq hpast)
  simp only [Utf16.length_encode, Utf16.length_append] at hrest
  rw [step_of_link hm hl, left_eq, left_eq, takeLink, List.length_drop]
  omega

/-- Every step of a run leaves less. -/
theorem Reachable.left_step_lt (h : Reachable table p markup s) (hne : s.rest ≠ []) :
    (s.step table p).left < s.left := by
  obtain ⟨text, hshows, -⟩ := h.shows
  obtain hv | ⟨d, n, hm, ho⟩ | ⟨l, hm, hl⟩ := cases_step table p s
  · have hstep := left_step_of_vacant hv hne
    omega
  · have hstep := left_step_of_pair (p := p) hm ho
    have hwidth : 0 < d.width := List.length_pos_iff.mpr (ne_nil_of_occurrenceFrom? ho)
    omega
  · have hstep := hshows.left_step_of_link hm hl
    have := l.length_pos
    omega

/-! ## Runs -/

/-- A run takes steps up to the end of the text, and no more than there are units left. -/
theorem Reachable.exists_iterate (h : Reachable table p markup s) :
    ∃ n ≤ s.left, s.run table p = (Scan.step table p)^[n] s ∧
      ∀ k ≤ n, ((Scan.step table p)^[k] s).rest ≠ [] ↔ k < n := by
  fun_induction Scan.run table p s with
  | case1 s hrest =>
    refine ⟨0, Nat.zero_le _, rfl, fun k hk => ?_⟩
    obtain rfl := Nat.le_zero.mp hk
    exact iff_of_false (not_not_intro hrest) (Nat.lt_irrefl 0)
  | case2 s hrest ih =>
    obtain ⟨n, hn, hrun, hsteps⟩ := ih (h.step hrest)
    have hlt := h.left_step_lt hrest
    refine ⟨n + 1, by omega, hrun, fun k hk => ?_⟩
    -- The first step is taken here, and the others are those of the run from there.
    cases k with
    | zero => exact iff_of_true hrest (Nat.succ_pos n)
    | succ k =>
      rw [Function.iterate_succ_apply, hsteps k (Nat.le_of_succ_le_succ hk), Nat.succ_lt_succ_iff]

/-- Reading ends. With any table and any pattern of links, also one that can match nothing or
capture no label, each step leaves less between the reader and the end of the text, and the run of
some markup is a number of steps, at most that of the units of the markup, before each of which the
reader is inside the text, and after which it is at its end. -/
theorem run_eq_iterate (table : Delimiters) (p : LinkPattern) (markup : String) :
    (∀ s, Reachable table p markup s → s.position < s.units.length →
      (s.step table p).units.length - (s.step table p).position < s.units.length - s.position) ∧
    ∃ n ≤ (Utf16.ofText markup).length,
      run table p { rest := Utf16.ofText markup } =
        (step table p)^[n] { rest := Utf16.ofText markup } ∧
      ∀ k ≤ n,
        ((step table p)^[k] { rest := Utf16.ofText markup }).position <
          ((step table p)^[k] { rest := Utf16.ofText markup }).units.length ↔ k < n := by
  refine ⟨fun s h hlt => h.left_step_lt (position_lt_iff.mp hlt), ?_⟩
  obtain ⟨n, hn, hrun, hsteps⟩ := (Reachable.start : Reachable table p markup _).exists_iterate
  rw [left_eq] at hn
  exact ⟨n, hn, hrun, fun k hk => position_lt_iff.trans (hsteps k hk)⟩

/-- Links are written as some `a` and some `b` behind them, and there may be none of either. In the
three steps of this run the reader takes out a pair and stays where it is, replaces a link by its
empty label and stays where it is again, and passes a unit at which the pattern matches nothing. -/
theorem run_eq_iterate_empty :
    let table := Delimiters.standard
    let p : LinkPattern := {
      source := "(a*)(b*)"
      pattern := .seq (.group 1 (.times (.text ['a']) 0 none true))
        (.group 2 (.times (.text ['b']) 0 none true)) }
    let markup := "**bbx**"
    let s : Scan := { rest := Utf16.ofText markup }
    let t := s.step table p
    (Pattern.read p.source).toOption = some p.pattern ∧
      Reachable table p markup t ∧ t.position < t.units.length ∧
      (t.step table p).position = t.position ∧
      (t.step table p).units.length - (t.step table p).position < t.units.length - t.position ∧
      ∃ n ≤ (Utf16.ofText markup).length, s.run table p = (step table p)^[n] s ∧
        ∀ k ≤ n, ((step table p)^[k] s).position < ((step table p)^[k] s).units.length ↔ k < n := by
  intro table p markup s t
  have ht : Reachable table p markup t := .step .start (by decide)
  have hlt : t.position < t.units.length := by decide +kernel
  obtain ⟨hless, hrun⟩ := run_eq_iterate table p markup
  exact ⟨by decide +kernel, ht, hlt, by decide +kernel, hless t ht hlt, hrun⟩

end MessageMarkup.Scan
