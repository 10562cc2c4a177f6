import MessageMarkup.Format.Scan
import MessageMarkup.Proofs.Delimiters
import MessageMarkup.Proofs.Link.Scanner
import MessageMarkup.Proofs.Occurrence

/-!
# What one step of the reader does

`Scan.At` says that a scan has passed one text and has another ahead. From there it passes a
character (`run_pass`), takes out a pair of markers (`run_pair`) or replaces a link (`run_link`),
and comes to where the run can be taken up again. A character of two units takes two steps, of which
the second starts inside it, where there are no markers and no links.

The scanner for links that a scan carries is not part of what it reads: it is one of the text as it
is now (`LinkScanner.Faithful`), so it gives what a new one would.
-/

namespace MessageMarkup

open Utf16 (encode length width)
open LinkPattern (linkIn? linkAhead? written)

/-- The reader passes the first of some characters: a marker that it starts with occurs no second
time, or there is none, and no link either. -/
def Delimiters.Passes (table : Delimiters) (cs : List Char) : Prop :=
  match table.match? (encode cs) with
  | some d => occurrenceFrom? ((encode cs).drop d.width) d.units 1 = none
  | none => linkAhead? cs = none

namespace Scan

/-! ## Links -/

/-- The scanner at hand, if there is one, is one of a text. -/
def Sees (s : Scan) (text : List Char) : Prop :=
  ∀ scanner, s.links? = some scanner → scanner.Faithful text

/-- Asking for a link gives the one that is there and changes nothing but the scanner. -/
theorem link?_eq {s : Scan} (h : s.Sees (Utf16.decode s.units)) :
    ∃ scanner, scanner.Faithful (Utf16.decode s.units) ∧
      s.link? .standard =
        (linkIn? (Utf16.decode s.units) s.position, { s with links? := some scanner }) := by
  have hfaithful : (s.links?.getD (LinkScanner.ofUnits .standard s.units)).Faithful
      (Utf16.decode s.units) := by
    cases hl : s.links? with
    | none => exact LinkScanner.faithful_ofUnits s.units
    | some scanner => exact h scanner hl
  obtain ⟨hlink, hnext⟩ := LinkScanner.linkAt?_eq hfaithful s.position
  refine ⟨_, hnext, ?_⟩
  unfold link?
  rw [← hlink]

/-! ## One unit -/

/-- What there is at the reader: a marker that occurs no second time, or no marker and no link. -/
def Idle (table : Delimiters) (s : Scan) : Prop :=
  match table.match? s.rest with
  | some d => occurrenceFrom? (s.rest.drop d.width) d.units 1 = none
  | none => linkIn? (Utf16.decode s.units) s.position = none

/-- Where there is nothing to take out, a step passes one unit. -/
theorem step_of_idle {table : Delimiters} {s : Scan} {unit : UInt16} {rest : List UInt16}
    (hrest : s.rest = unit :: rest) (hsees : s.Sees (Utf16.decode s.units))
    (hidle : s.Idle table) :
    (s.step table .standard).past = unit :: s.past ∧ (s.step table .standard).rest = rest ∧
      (s.step table .standard).entities = s.entities ∧
      (s.step table .standard).Sees (Utf16.decode s.units) := by
  have hadvance (t : Scan) (ht : t.rest = unit :: rest) :
      t.advance.past = unit :: t.past ∧ t.advance.rest = rest ∧
        t.advance.entities = t.entities ∧ t.advance.links? = t.links? := by
    unfold advance
    rw [ht]
    exact ⟨rfl, rfl, rfl, rfl⟩
  unfold Idle at hidle
  unfold step
  cases hm : table.match? s.rest with
  | some d =>
    -- The marker occurs no second time: that is noted, and nothing else.
    rw [hm] at hidle
    simp only [hidle]
    obtain ⟨hpast, hrest', hentities, hlinks⟩ :=
      hadvance (s.note (.unterminated d.marker s.position)) hrest
    refine ⟨hpast, hrest', hentities, ?_⟩
    unfold Sees
    rw [hlinks]
    exact hsees
  | none =>
    -- No link was found, which changes the scanner at hand.
    rw [hm] at hidle
    obtain ⟨scanner, hfaithful, hlink⟩ := link?_eq hsees
    rw [hidle] at hlink
    simp only [hlink]
    obtain ⟨hpast, hrest', hentities, hlinks⟩ := hadvance { s with links? := some scanner } hrest
    refine ⟨hpast, hrest', hentities, ?_⟩
    unfold Sees
    rw [hlinks]
    intro scanner' heq
    rw [← Option.some.inj heq]
    exact hfaithful

/-- A run goes on with the next step. -/
theorem run_eq_run_step {table : Delimiters} {p : LinkPattern} {s : Scan} (h : s.rest ≠ []) :
    s.run table p = (s.step table p).run table p := by
  rw [run, if_neg h]

/-! ## Characters -/

/-- A scan that has passed one text and has another ahead, with the entities that it has found. -/
structure At (s : Scan) (passed ahead : List Char) (entities : List Entity) : Prop where
  /-- What has been passed. -/
  past_eq : s.past.reverse = encode passed
  /-- What is ahead. -/
  rest_eq : s.rest = encode ahead
  /-- What has been found. -/
  entities_eq : s.entities = entities
  /-- The scanner at hand is one of the text as it is now. -/
  sees : s.Sees (passed ++ ahead)

variable {table : Delimiters} {s : Scan} {passed ahead : List Char} {es : List Entity}

/-- A run starts before all of the characters. -/
theorem at_start (cs : List Char) : At { rest := encode cs } [] cs [] :=
  ⟨rfl, rfl, rfl, fun _ h => absurd h.symm (Option.some_ne_none _)⟩

/-- The units of the text as it is now. -/
theorem At.units_eq (h : s.At passed ahead es) : s.units = encode (passed ++ ahead) := by
  unfold units
  rw [h.past_eq, h.rest_eq, Utf16.encode_append]

/-- The text as it is now. -/
theorem At.decode_units (h : s.At passed ahead es) : Utf16.decode s.units = passed ++ ahead := by
  rw [h.units_eq, Utf16.decode_encode]

/-- The place of the reader. -/
theorem At.position_eq (h : s.At passed ahead es) : s.position = length passed := by
  unfold position
  rw [← List.length_reverse, h.past_eq, Utf16.length_encode]

/-- There is a step to take before a text that is not empty. -/
theorem At.rest_ne_nil (h : s.At passed ahead es) (hne : ahead ≠ []) : s.rest ≠ [] := by
  rw [h.rest_eq]
  exact mt Utf16.encode_eq_nil_iff.mp hne

/-- Between the halves of a character there is nothing to take out: no marker starts with the second
half, and no link starts where the text cannot be cut. -/
theorem idle_low (hm : ∀ d ∈ table.entries, d.marker ≠ "") {low : UInt16} {units : List UInt16}
    {c : Char} (hrest : s.rest = low :: units) (hlow : Utf16.isLow low = true)
    (hwidth : width c = 2) (htext : Utf16.decode s.units = passed ++ c :: ahead)
    (hposition : s.position = length passed + 1) : s.Idle table := by
  unfold Idle
  rw [hrest, Delimiters.match?_low hm hlow, htext, hposition]
  refine LinkPattern.linkIn?_eq_none fun as bs hcut _ hlen => ?_
  obtain ⟨mid, has, hmid⟩ := Utf16.exists_append_of_length_le hcut (by omega)
  rw [has, Utf16.length_append] at hlen
  cases mid with
  | nil => exact absurd hlen (by simp)
  | cons d mid =>
    rw [Utf16.length_cons, ← (List.cons.inj hmid).1, hwidth] at hlen
    omega

/-- The reader passes a character where there is nothing to take out. -/
theorem run_pass (hm : ∀ d ∈ table.entries, d.marker ≠ "") {c : Char}
    (h : s.At passed (c :: ahead) es) (hpass : table.Passes (c :: ahead)) :
    ∃ s' : Scan, s.run table .standard = s'.run table .standard ∧
      s'.At (passed ++ [c]) ahead es := by
  -- The place of the reader is the end of a piece of the text, and so what is there is what is
  -- ahead.
  have hne := h.rest_ne_nil (List.cons_ne_nil c ahead)
  have hsees : s.Sees (Utf16.decode s.units) := h.decode_units ▸ h.sees
  have hidle : s.Idle table := by
    unfold Idle
    rw [h.decode_units, h.position_eq, h.rest_eq, LinkPattern.linkIn?_append]
    exact hpass
  have htext : passed ++ [c] ++ ahead = passed ++ c :: ahead := by simp
  have hrest := h.rest_eq
  rw [Utf16.encode_cons] at hrest
  rcases Utf16.ofChar_cases c with ⟨unit, hunit, -⟩ | ⟨high, low, hunit, -, hlow, -, hwidth⟩
  · rw [hunit, List.singleton_append] at hrest
    obtain ⟨hpast, hrest', hentities, hsees'⟩ := step_of_idle hrest hsees hidle
    refine ⟨_, run_eq_run_step hne, ?_, hrest', hentities.trans h.entities_eq, ?_⟩
    · rw [hpast, List.reverse_cons, h.past_eq, Utf16.encode_append, Utf16.encode_cons, hunit]
      rfl
    · rw [htext, ← h.decode_units]
      exact hsees'
  · -- The second step starts between the halves of the character.
    rw [hunit, List.cons_append, List.cons_append, List.nil_append] at hrest
    obtain ⟨hpast, hrest', hentities, hsees'⟩ := step_of_idle hrest hsees hidle
    have hrun : s.run table .standard = (s.step table .standard).run table .standard :=
      run_eq_run_step hne
    generalize s.step table .standard = t at hpast hrest' hentities hsees' hrun
    have hunits : t.units = s.units := by
      unfold units
      rw [hpast, hrest', hrest, List.reverse_cons, List.append_assoc]
      rfl
    have hidle' : t.Idle table := by
      apply idle_low hm hrest' hlow hwidth
      · rw [hunits, h.decode_units]
      · rw [position, hpast, List.length_cons, ← h.position_eq]
        rfl
    have hne' : t.rest ≠ [] := by
      rw [hrest']
      exact List.cons_ne_nil _ _
    obtain ⟨hpast₂, hrest₂, hentities₂, hsees₂⟩ :=
      step_of_idle hrest' (hunits ▸ hsees') hidle'
    refine ⟨_, hrun.trans (run_eq_run_step hne'), ?_, hrest₂, ?_, ?_⟩
    · rw [hpast₂, hpast, List.reverse_cons, List.reverse_cons, h.past_eq, Utf16.encode_append,
        Utf16.encode_cons, hunit, List.append_assoc]
      rfl
    · exact hentities₂.trans (hentities.trans h.entities_eq)
    · rw [htext, ← h.decode_units, ← hunits]
      exact hsees₂

/-- Behind a marker its next occurrence is found at the end of what reaches to it. -/
theorem occurrenceFrom?_of_closes {d : Delimiter} {content : List Char} (hd : d.marker ≠ "")
    (hcloses : Closes d.marker.toList content) (rest : List Char) :
    occurrenceFrom? ((encode (d.marker.toList ++ (content ++ (d.marker.toList ++ rest)))).drop
      d.width) d.units 1 = some (length content) := by
  have hbehind : (encode (d.marker.toList ++ (content ++ (d.marker.toList ++ rest)))).drop d.width =
      encode (content ++ (d.marker.toList ++ rest)) := by
    rw [Utf16.encode_append, d.width_eq, ← Utf16.length_encode, List.drop_left]
  -- The search starts behind the first unit of the content.
  obtain ⟨x, xs, rfl⟩ := List.exists_cons_of_ne_nil hcloses.1
  have hsearch := Utf16.occurrenceFrom?_encode_one (Delimiter.toList_ne_nil hd) x
    (xs ++ (d.marker.toList ++ rest))
  rw [hcloses.occurrence?_tail rfl rest, Option.map_some, List.take_left] at hsearch
  rw [hbehind, Delimiter.units_eq, List.cons_append, hsearch, Utf16.length_cons]

/-- The reader takes out a marker and its next occurrence, and passes what lies between if that is
verbatim. -/
theorem run_pair {d : Delimiter} {content : List Char} (hd : d.marker ≠ "")
    (h : s.At passed (d.marker.toList ++ (content ++ (d.marker.toList ++ ahead))) es)
    (hmatch : table.match?
      (encode (d.marker.toList ++ (content ++ (d.marker.toList ++ ahead)))) = some d)
    (hcloses : Closes d.marker.toList content) :
    ∃ s' : Scan, s.run table .standard = s'.run table .standard ∧
      s'.At (if d.style.isVerbatim then passed ++ content else passed)
        (if d.style.isVerbatim then ahead else content ++ ahead)
        (es.map (Entity.withoutPair (length passed) (length passed + d.width + length content)
          d.width) ++ [⟨length passed, length content, d.style.kind⟩]) := by
  have hmarker := Delimiter.toList_ne_nil hd
  have hne := h.rest_ne_nil (List.append_ne_nil_of_left_ne_nil hmarker _)
  have hrest : s.rest = d.units ++ (encode content ++ (d.units ++ encode ahead)) := by
    rw [h.rest_eq, Delimiter.units_eq]
    simp only [Utf16.encode_append]
  have hbehind : s.rest.drop d.width = encode content ++ (d.units ++ encode ahead) := by
    rw [hrest]
    exact List.drop_left
  have hocc : occurrenceFrom? (s.rest.drop d.width) d.units 1 = some (length content) := by
    rw [h.rest_eq]
    exact occurrenceFrom?_of_closes hd hcloses ahead
  -- What is found is cut into the content and what is behind the second marker.
  have hcontent : (s.rest.drop d.width).take (length content) = encode content := by
    rw [hbehind, ← Utf16.length_encode]
    exact List.take_left
  have hafter : (s.rest.drop d.width).drop (length content + d.width) = encode ahead := by
    rw [hbehind, ← List.drop_drop, ← Utf16.length_encode, List.drop_left]
    exact List.drop_left
  have hstep : s.step table .standard = s.takePair d (length content) := by
    have hsome : table.match? s.rest = some d := by rw [h.rest_eq, hmatch]
    unfold step
    simp only [hsome, hocc]
  refine ⟨_, run_eq_run_step hne, ?_⟩
  rw [hstep]
  unfold takePair
  simp only [hcontent, hafter, h.position_eq, h.entities_eq]
  have hsees {t : Scan} (ht : t.links? = none) (text : List Char) : t.Sees text := by
    intro scanner heq
    rw [ht] at heq
    exact absurd heq.symm (Option.some_ne_none _)
  split
  · refine ⟨?_, rfl, rfl, hsees rfl _⟩
    rw [List.reverse_append, List.reverse_reverse, h.past_eq, Utf16.encode_append]
  · exact ⟨h.past_eq, (Utf16.encode_append content ahead).symm, rfl, hsees rfl _⟩

/-- The reader puts the label of a link in its place, and passes it. -/
theorem run_link {label url : List Char} (h : s.At passed (written label url ++ ahead) es)
    (hmatch : table.match? (encode (written label url ++ ahead)) = none)
    (hlabel : ']' ∉ label) (hurl : ')' ∉ url) :
    ∃ s' : Scan, s.run table .standard = s'.run table .standard ∧
      s'.At (passed ++ label) ahead
        (es.map (Entity.withoutLink (length passed) (length (written label url) - length label)) ++
          [⟨length passed, length label, .textUrl (String.ofList url)⟩]) := by
  have hne := h.rest_ne_nil (List.cons_ne_nil '[' _)
  have hsees : s.Sees (Utf16.decode s.units) := h.decode_units ▸ h.sees
  obtain ⟨scanner, -, hlink⟩ := link?_eq hsees
  rw [h.decode_units, h.position_eq, LinkPattern.linkIn?_append] at hlink
  -- The link that is ahead is the one that was written.
  have hahead := LinkPattern.linkAhead?_written hlabel hurl ahead
  have hstep : s.step table .standard = { s with links? := some scanner }.takeLink
      ⟨length (written label url), encode label, String.ofList url,
        Utf16.length_pos (List.cons_ne_nil _ _)⟩ := by
    have hnone : table.match? s.rest = none := by rw [h.rest_eq, hmatch]
    unfold step
    simp only [hnone, hlink, hahead]
  refine ⟨_, run_eq_run_step hne, ?_⟩
  rw [hstep]
  unfold takeLink
  refine ⟨?_, ?_, ?_, ?_⟩
  · show (List.reverse _ ++ _).reverse = _
    rw [List.reverse_append, List.reverse_reverse, h.past_eq, Utf16.encode_append]
  · show s.rest.drop (length (written label url)) = _
    rw [h.rest_eq, Utf16.encode_append, ← Utf16.length_encode, List.drop_left]
  · show List.map (Entity.withoutLink s.position _) s.entities ++ [⟨s.position, _, _⟩] = _
    rw [h.position_eq, h.entities_eq, Utf16.length_encode]
  · intro scanner' heq
    exact absurd heq.symm (Option.some_ne_none _)

/-- A run ends where nothing is ahead. -/
theorem At.run_nil (h : s.At passed [] es) :
    (s.run table .standard).units = encode passed ∧ (s.run table .standard).entities = es := by
  have hrest : s.rest = [] := h.rest_eq
  rw [run, if_pos hrest]
  refine ⟨?_, h.entities_eq⟩
  rw [h.units_eq, List.append_nil]

/-! ## Any text -/

/-- Before any text the reader passes a character, or there is a pair to take out, or a link. -/
theorem cases_ahead (hm : ∀ d ∈ table.entries, d.marker ≠ "") (ahead : List Char) :
    table.Passes ahead ∨
      (∃ d content rest, ahead = d.marker.toList ++ (content ++ (d.marker.toList ++ rest)) ∧
        table.match? (encode ahead) = some d ∧ Closes d.marker.toList content) ∨
      ∃ label url rest, ahead = written label url ++ rest ∧
        table.match? (encode ahead) = none ∧ ']' ∉ label ∧ ')' ∉ url := by
  unfold Delimiters.Passes
  cases hmatch : table.match? (encode ahead) with
  | none =>
    cases hlink : linkAhead? ahead with
    | none => exact Or.inl rfl
    | some l =>
      obtain ⟨label, url, rest, hahead, hlabel, hurl, -⟩ :=
        LinkPattern.linkAhead?_eq_some_iff.mp hlink
      exact Or.inr (Or.inr ⟨label, url, rest, hahead, rfl, hlabel, hurl⟩)
  | some d =>
    obtain ⟨hd, behind, hbehind⟩ := Delimiters.of_match?_eq_some hmatch
    have hmarker := Delimiter.toList_ne_nil (hm d hd)
    have hdrop : (encode ahead).drop d.width = encode behind := by
      rw [← hbehind, Utf16.encode_append, d.width_eq, ← Utf16.length_encode, List.drop_left]
    cases hocc : occurrenceFrom? ((encode ahead).drop d.width) d.units 1 with
    | none => exact Or.inl hocc
    | some k =>
      -- The search starts behind the first character, so there is one.
      right
      left
      rw [hdrop, d.units_eq] at hocc
      cases behind with
      | nil =>
        have := bounds_of_occurrenceFrom? hocc
        rw [Utf16.encode_nil, List.length_nil] at this
        omega
      | cons c behind =>
        rw [Utf16.occurrenceFrom?_encode_one hmarker] at hocc
        obtain ⟨n, hn, -⟩ := Option.map_eq_some_iff.mp hocc
        obtain ⟨content, rest, hcontent, hcloses⟩ := Closes.of_occurrence? hn c
        refine ⟨d, c :: content, rest, ?_, rfl, hcloses⟩
        rw [← hbehind, hcontent]
        rfl

/-- Where there is a pair to take out the reader passes nothing. -/
theorem not_passes_pair {d : Delimiter} {content rest : List Char} (hd : d.marker ≠ "")
    (hmatch : table.match?
      (encode (d.marker.toList ++ (content ++ (d.marker.toList ++ rest)))) = some d)
    (hcloses : Closes d.marker.toList content) :
    ¬ table.Passes (d.marker.toList ++ (content ++ (d.marker.toList ++ rest))) := by
  intro hpasses
  unfold Delimiters.Passes at hpasses
  rw [hmatch] at hpasses
  exact Option.some_ne_none _ ((occurrenceFrom?_of_closes hd hcloses rest).symm.trans hpasses)

/-- Where there is a link it passes nothing. -/
theorem not_passes_link {label url rest : List Char}
    (hmatch : table.match? (encode (written label url ++ rest)) = none) (hlabel : ']' ∉ label)
    (hurl : ')' ∉ url) : ¬ table.Passes (written label url ++ rest) := by
  intro hpasses
  unfold Delimiters.Passes at hpasses
  rw [hmatch] at hpasses
  have hlink := LinkPattern.linkAhead?_written hlabel hurl rest
  exact Option.some_ne_none _ (hlink.symm.trans hpasses)

/-- What holds before a run, and is kept by each thing that the reader does, holds after it. -/
theorem At.run_induction (inv : List Char → List Char → List Entity → Prop)
    (hm : ∀ d ∈ table.entries, d.marker ≠ "")
    (hpass : ∀ {passed c rest es}, table.Passes (c :: rest) →
      inv passed (c :: rest) es → inv (passed ++ [c]) rest es)
    (hpair : ∀ {passed d content rest es}, d ∈ table.entries →
      table.match? (encode (d.marker.toList ++ (content ++ (d.marker.toList ++ rest)))) = some d →
      Closes d.marker.toList content →
      inv passed (d.marker.toList ++ (content ++ (d.marker.toList ++ rest))) es →
      inv (if d.style.isVerbatim then passed ++ content else passed)
        (if d.style.isVerbatim then rest else content ++ rest)
        (es.map (Entity.withoutPair (length passed) (length passed + d.width + length content)
          d.width) ++ [⟨length passed, length content, d.style.kind⟩]))
    (hlink : ∀ {passed label url rest es},
      table.match? (encode (written label url ++ rest)) = none → ']' ∉ label → ')' ∉ url →
      inv passed (written label url ++ rest) es →
      inv (passed ++ label) rest
        (es.map (Entity.withoutLink (length passed) (length (written label url) - length label)) ++
          [⟨length passed, length label, .textUrl (String.ofList url)⟩]))
    (h : s.At passed ahead es) (hinv : inv passed ahead es) :
    ∃ text es', inv text [] es' ∧ (s.run table .standard).units = encode text ∧
      (s.run table .standard).entities = es' := by
  -- Each of the three leaves less of the text ahead.
  obtain ⟨n, hn⟩ : ∃ n, ahead.length ≤ n := ⟨_, Nat.le_refl _⟩
  induction n generalizing s passed ahead es with
  | zero =>
    obtain rfl : ahead = [] := List.length_eq_zero_iff.mp (by omega)
    exact ⟨passed, es, hinv, h.run_nil⟩
  | succ n ih =>
    cases ahead with
    | nil =>
      exact ⟨passed, es, hinv, h.run_nil⟩
    | cons c rest =>
      obtain hpasses | ⟨d, content, rest', hahead, hmatch, hcloses⟩ |
          ⟨label, url, rest', hahead, hmatch, hlabel, hurl⟩ :=
        cases_ahead hm (c :: rest)
      · obtain ⟨s', hrun, h'⟩ := run_pass hm h hpasses
        rw [hrun]
        rw [List.length_cons] at hn
        exact ih h' (hpass hpasses hinv) (by omega)
      · -- A pair leaves less by its markers, even if its content is still to be read.
        obtain ⟨hd, -⟩ := Delimiters.of_match?_eq_some hmatch
        have hmarker := List.length_pos_iff.mpr (Delimiter.toList_ne_nil (hm d hd))
        rw [hahead] at h hinv hmatch hn
        obtain ⟨s', hrun, h'⟩ := run_pair (hm d hd) h hmatch hcloses
        rw [hrun]
        refine ih h' (hpair hd hmatch hcloses hinv) ?_
        simp only [List.length_append] at hn
        split
        · omega
        · rw [List.length_append]
          omega
      · rw [hahead] at h hinv hmatch hn
        obtain ⟨s', hrun, h'⟩ := run_link h hmatch hlabel hurl
        rw [hrun]
        refine ih h' (hlink hmatch hlabel hurl hinv) ?_
        simp only [written, List.length_append, List.length_cons] at hn
        omega

end Scan

end MessageMarkup
