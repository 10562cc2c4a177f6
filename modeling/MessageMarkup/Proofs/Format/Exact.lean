import MessageMarkup.Proofs.Entity.Covered
import MessageMarkup.Proofs.Format.Confined

/-!
# Where shortening an entity is exact

An entity that has been found is not found again when markup is taken out of it; it is shortened by
the units of the markup, wherever it stops. That is exact unless it stops strictly inside the
markup: the entity then covers the units that it covered, without those that were taken out
(`Traces.covered_takePair`, `Traces.covered_takeLink`). So an entity that never stopped strictly
inside markup covers what was between its own markers when it was found, without the markup that has
been taken out since (`Traces.exact`). `Format.parse_exact` says so of the runs of a format.

Units of a text may be equal, so what becomes of each of them is said with the trace of the run, in
which every unit has its place in the markup.
-/

namespace MessageMarkup

/-! ## The places of what is taken out -/

namespace Trace

/-- The places in the markup of `n` units of the text from a position on. -/
def placesFrom (t : Trace) (start n : Nat) : List Nat :=
  ((t.text.drop start).take n).map Prod.snd

/-- The places of the two markers of a pair at the reader. -/
def placesOfPair (t : Trace) (d : Delimiter) (length : Nat) : List Nat :=
  t.placesFrom t.position d.width ++ t.placesFrom (t.position + d.width + length) d.width

/-- The places of what stands around the label of a link at the reader. -/
def placesOfLink (t : Trace) (l : Link) (before : Nat) : List Nat :=
  t.placesFrom t.position before ++
    t.placesFrom (t.position + before + l.label.length) (l.length - (before + l.label.length))

variable {t t' : Trace} {kind : Kind} {shrink : Tracked → Tracked}
  {opening content closing ahead : List (UInt16 × Nat)}

/-- The opening markup is at the reader. -/
theorem Takes.placesFrom_opening (h : t.Takes t' kind shrink opening content closing ahead) :
    t.placesFrom t.position opening.length = opening.map Prod.snd := by
  have hpast : t.position = t.past.reverse.length := List.length_reverse.symm
  rw [placesFrom, h.text_eq_append, hpast, List.drop_left, List.take_left]

/-- The closing markup is behind the content. -/
theorem Takes.placesFrom_closing (h : t.Takes t' kind shrink opening content closing ahead) :
    t.placesFrom (t.position + opening.length + content.length) closing.length =
      closing.map Prod.snd := by
  have hpast : t.position = t.past.reverse.length := List.length_reverse.symm
  rw [placesFrom, h.text_eq_append, hpast, ← List.drop_drop, ← List.drop_drop, List.drop_left,
    List.drop_left, List.drop_left, List.take_left]

/-- What stays is at other places than what is taken out. -/
theorem Takes.not_mem_places (h : t.Takes t' kind shrink opening content closing ahead)
    (hsorted : t.text.Pairwise fun u v => u.2 < v.2) {u : UInt16 × Nat}
    (hu : u ∈ t.past.reverse ++ (content ++ ahead)) :
    u.2 ∉ opening.map Prod.snd ++ closing.map Prod.snd := by
  have hnodup : (t.text.map Prod.snd).Nodup := by
    rw [List.Nodup, List.pairwise_map]
    exact hsorted.imp fun hlt => Nat.ne_of_lt hlt
  have hperm : List.Perm (t.text.map Prod.snd)
      ((t.past.reverse ++ (content ++ ahead)).map Prod.snd ++
        (opening.map Prod.snd ++ closing.map Prod.snd)) := by
    rw [h.text_eq_append, List.perm_iff_count]
    intro a
    simp only [List.map_append, List.count_append]
    omega
  have hdisjoint := (List.nodup_append.mp (hperm.nodup_iff.mp hnodup)).2.2
  exact fun hmem => hdisjoint u.2 (List.mem_map_of_mem hu) u.2 hmem rfl

/-- A pair is taken out. An entity that does not stop strictly inside a marker covers what it
covered, without the markers. -/
theorem Takes.covered_withoutPair (h : t.Takes t' kind shrink opening content closing ahead)
    (hsorted : t.text.Pairwise fun u v => u.2 < v.2) {width : Nat} (hfirst : opening.length = width)
    (hsecond : closing.length = width) {e : Entity} (hoffset : e.offset ≤ t.position)
    (hopening : ¬ (t.position < e.stop ∧ e.stop < t.position + width))
    (hclosing : ¬ (t.position + width + content.length < e.stop ∧
      e.stop < t.position + width + content.length + width)) :
    (e.withoutPair t.position (t.position + width + content.length) width).covered t'.text =
      (e.covered t.text).filter fun u => u.2 ∉ opening.map Prod.snd ++ closing.map Prod.snd := by
  have hpast : t.position = t.past.reverse.length := List.length_reverse.symm
  rw [hpast] at hopening hclosing hoffset ⊢
  rw [h.text_eq, h.text_eq_append]
  refine Entity.covered_withoutPair hfirst hsecond (fun u hu => ?_) (fun u hu => ?_) hoffset
    hopening hclosing
  · exact decide_eq_true (h.not_mem_places hsorted hu)
  · rw [← List.map_append]
    exact decide_eq_false fun hnot => hnot (List.mem_map_of_mem hu)

/-- A link is replaced by its label. An entity that does not stop strictly inside the link covers
what it covered, without what stood around the label. -/
theorem Takes.covered_withoutLink (h : t.Takes t' kind shrink opening content closing ahead)
    (hsorted : t.text.Pairwise fun u v => u.2 < v.2) {e : Entity} (hoffset : e.offset ≤ t.position)
    (hlink : ¬ (t.position < e.stop ∧
      e.stop < t.position + (opening.length + (content.length + closing.length)))) :
    (e.withoutLink t.position (opening.length + closing.length)).covered t'.text =
      (e.covered t.text).filter fun u => u.2 ∉ opening.map Prod.snd ++ closing.map Prod.snd := by
  have hpast : t.position = t.past.reverse.length := List.length_reverse.symm
  rw [hpast] at hlink hoffset ⊢
  rw [h.text_eq, h.text_eq_append]
  refine Entity.covered_withoutLink (fun u hu => ?_) (fun u hu => ?_) hoffset hlink
  · exact decide_eq_true (h.not_mem_places hsorted hu)
  · rw [← List.map_append]
    exact decide_eq_false fun hnot => hnot (List.mem_map_of_mem hu)

/-! ## Entities that remember what they cover -/

/-- An entity that has never stopped strictly inside markup that was taken out covers what was
between its markers when it was found, without the markup of all that has been found later. -/
def Exact (t : Trace) : Prop :=
  ∀ x later, x :: later <:+ t.found → x.straddles = [] →
    (x.entity.covered t.text).map Prod.snd =
      x.content.filter fun a => ∀ y ∈ later, a ∉ y.opening ∧ a ∉ y.closing

/-- Taking out markup keeps that so, if those entities lose the markup and no more. -/
theorem Takes.exact (h : t.Takes t' kind shrink opening content closing ahead) (hexact : t.Exact)
    (hsame : ∀ x, (shrink x).opening = x.opening ∧ (shrink x).content = x.content ∧
      (shrink x).closing = x.closing)
    (hcovered : ∀ x ∈ t.found, (shrink x).straddles = [] → x.straddles = [] ∧
      (shrink x).entity.covered t'.text = (x.entity.covered t.text).filter
        fun u => u.2 ∉ opening.map Prod.snd ++ closing.map Prod.snd) : t'.Exact := by
  intro x later hsuffix hnil
  rw [h.found_eq, List.suffix_concat_iff] at hsuffix
  obtain hcons | ⟨before, hlater, hbefore⟩ := hsuffix
  · exact absurd hcons (List.cons_ne_nil x later)
  cases before with
  | nil =>
    -- The new entity covers its content, and nothing has been found later.
    obtain ⟨rfl, rfl⟩ := List.cons.inj hlater
    have hpast : t.position = t.past.reverse.length := List.length_reverse.symm
    have hcontent : Entity.covered ⟨t.position, content.length, kind⟩ t'.text = content := by
      rw [h.text_eq, Entity.covered, hpast, List.drop_left, List.take_left]
    simp [hcontent]
  | cons z before =>
    obtain ⟨rfl, rfl⟩ := List.cons.inj hlater
    obtain ⟨found, hfound, hmap⟩ := List.suffix_map_iff.mp hbefore
    obtain ⟨y, ys, rfl, rfl, rfl⟩ := List.map_eq_cons_iff.mp hmap.symm
    obtain ⟨hstraddles, hshrink⟩ := hcovered y (hfound.subset List.mem_cons_self) hnil
    -- What it covered was already without the markup of the others.
    calc ((shrink y).entity.covered t'.text).map Prod.snd
        = ((y.entity.covered t.text).map Prod.snd).filter
            fun a => a ∉ opening.map Prod.snd ++ closing.map Prod.snd := by
          rw [hshrink, List.filter_map]
          rfl
      _ = y.content.filter fun a => a ∉ opening.map Prod.snd ++ closing.map Prod.snd ∧
            ∀ z ∈ ys, a ∉ z.opening ∧ a ∉ z.closing := by
          rw [hexact y ys hfound hstraddles, List.filter_filter]
          simp only [Bool.decide_and]
      _ = _ := by
          rw [(hsame y).2.1]
          refine List.filter_congr fun a _ => decide_eq_decide.mpr ?_
          rw [List.append_eq, List.forall_mem_append, List.forall_mem_map,
            List.forall_mem_singleton, List.mem_append, not_or]
          simp only [hsame]
          exact and_comm

end Trace

/-! ## Taking out markup -/

namespace Traces

variable {table : Delimiters} {p : LinkPattern} {markup : String} {s : Scan} {t : Trace}
  {x : Tracked}

/-- A pair is taken out. An entity that does not stop strictly inside a marker covers what it
covered, without the markers. -/
theorem covered_takePair (h : Traces table p markup s t) {d : Delimiter} {n : Nat}
    (hm : table.match? s.rest = some d)
    (ho : occurrenceFrom? (s.rest.drop d.width) d.units 1 = some n) (hx : x ∈ t.found)
    (hopening : ¬ (t.position < x.entity.stop ∧ x.entity.stop < t.position + d.width))
    (hclosing : ¬ (t.position + d.width + n < x.entity.stop ∧
      x.entity.stop < t.position + d.width + n + d.width)) :
    (x.entity.withoutPair t.position (t.position + d.width + n) d.width).covered
        (t.takePair d n).text =
      (x.entity.covered t.text).filter fun u => u.2 ∉ t.placesOfPair d n := by
  obtain ⟨opening, content, closing, ahead, hfirst, rfl, hsecond, htakes⟩ :=
    h.of.takes_takePair hm ho
  have hplaces : t.placesOfPair d content.length =
      opening.map Prod.snd ++ closing.map Prod.snd := by
    rw [← htakes.placesFrom_opening, ← htakes.placesFrom_closing, hfirst, hsecond]
    rfl
  rw [hplaces]
  exact htakes.covered_withoutPair h.pairwise_text hfirst hsecond (h.fits x hx).offset_le hopening
    hclosing

/-- A link is replaced by its label. An entity that does not stop strictly inside the link covers
what it covered, without what stood around the label. -/
theorem covered_takeLink (h : Traces table p markup s t) {l : Link} {before : Nat}
    (hm : table.match? s.rest = none) (hl : (s.link? p).1 = some l)
    (hlabel : ((t.rest.drop before).take l.label.length).map Prod.fst = l.label)
    (hle : before + l.label.length ≤ l.length) (hx : x ∈ t.found)
    (hlink : ¬ (t.position < x.entity.stop ∧ x.entity.stop < t.position + l.length)) :
    (x.entity.withoutLink t.position (l.length - l.label.length)).covered
        (t.takeLink l before).text =
      (x.entity.covered t.text).filter fun u => u.2 ∉ t.placesOfLink l before := by
  obtain ⟨opening, content, closing, ahead, hlength, hcontent, htakes⟩ :=
    h.takes_takeLink hm hl hlabel hle
  have hpast : t.position = t.past.reverse.length := List.length_reverse.symm
  have hplaces : t.placesOfLink l before = opening.map Prod.snd ++ closing.map Prod.snd := by
    -- The entity that is found remembers the same places.
    have hfound := congrArg List.getLast? htakes.found_eq
    rw [List.getLast?_concat] at hfound
    unfold Trace.takeLink at hfound
    rw [List.getLast?_concat, Option.some.injEq, Tracked.mk.injEq] at hfound
    obtain ⟨-, hopening, -, hclosing, -⟩ := hfound
    rw [← hopening, ← hclosing, Trace.placesOfLink, Trace.placesFrom, Trace.placesFrom, Trace.text,
      hpast, Nat.add_assoc, List.drop_left, ← List.drop_drop, List.drop_left]
  have hremoved : l.length - l.label.length = opening.length + closing.length := by omega
  rw [← hlength] at hlink
  rw [hremoved, hplaces]
  exact htakes.covered_withoutLink h.pairwise_text (h.fits x hx).offset_le hlink

/-! ## Runs -/

/-- At every step of a run the entities cover what they remember. -/
theorem exact (h : Traces table p markup s t) : t.Exact := by
  induction h with
  | start =>
    intro x later hsuffix
    exact absurd (List.suffix_nil.mp hsuffix) (List.cons_ne_nil x later)
  | @pass s t _ _ _ ih =>
    unfold Trace.Exact
    rw [t.found_advance, t.text_advance]
    exact ih
  | pair h _ hm ho ih =>
    obtain ⟨opening, content, closing, ahead, hfirst, rfl, hsecond, htakes⟩ :=
      h.of.takes_takePair hm ho
    refine htakes.exact ih (fun _ => ⟨rfl, rfl, rfl⟩) fun x hx hnil => ?_
    obtain ⟨hold, hnew⟩ := List.append_eq_nil_iff.mp hnil
    unfold Entity.straddlesPair at hnew
    split_ifs at hnew with hopening hclosing
    exact ⟨hold, htakes.covered_withoutPair h.pairwise_text hfirst hsecond (h.fits x hx).offset_le
      hopening hclosing⟩
  | @link s t l _ h _ hm hl hlabel hle ih =>
    obtain ⟨opening, content, closing, ahead, hlength, hcontent, htakes⟩ :=
      h.takes_takeLink hm hl hlabel hle
    refine htakes.exact ih (fun _ => ⟨rfl, rfl, rfl⟩) fun x hx hnil => ?_
    obtain ⟨hold, hnew⟩ := List.append_eq_nil_iff.mp hnil
    unfold Entity.straddlesLink at hnew
    split_ifs at hnew with hlink
    have hremoved : l.length - l.label.length = opening.length + closing.length := by omega
    rw [← hlength] at hlink
    refine ⟨hold, ?_⟩
    rw [hremoved]
    exact htakes.covered_withoutLink h.pairwise_text (h.fits x hx).offset_le hlink

end Traces

/-! ## Messages -/

/-- Shortening is exact but for entities that stop strictly inside what is taken out. A run with any
table and any pattern of links has a trace, at whose end is what is trimmed to the message. Whenever
a step of the run takes out a pair or a link, an entity found before that does not stop strictly
inside a marker of the pair, or inside the link, covers from then on the units that it covered, in
their order, without those that were taken out. So at every step, and at the end, each entity to
which this has applied every time covers what was between its markers, or the label of its link,
without the markup of all that has been found later. -/
theorem Format.parse_exact {f : Format} (h : f.table.isEmpty = false) (markup : String) :
    (∃ s t, Traces f.table f.links markup s t ∧ s.rest = []) ∧
    ∀ s t, Traces f.table f.links markup s t → t.Of s ∧
      (s.rest = [] → (f.parse markup).entities = (trim s.units s.entities).2) ∧
      (s.rest ≠ [] → ∀ d n, f.table.match? s.rest = some d →
        occurrenceFrom? (s.rest.drop d.width) d.units 1 = some n →
        let stop := t.position + d.width + n
        Traces f.table f.links markup (s.step f.table f.links) (t.takePair d n) ∧
        ∀ x ∈ t.found,
          ¬ (t.position < x.entity.stop ∧ x.entity.stop < t.position + d.width) →
          ¬ (stop < x.entity.stop ∧ x.entity.stop < stop + d.width) →
          (x.entity.withoutPair t.position stop d.width).covered (t.takePair d n).text =
            (x.entity.covered t.text).filter fun u => u.2 ∉ t.placesOfPair d n) ∧
      (s.rest ≠ [] → ∀ l before, f.table.match? s.rest = none → (s.link? f.links).1 = some l →
        ((t.rest.drop before).take l.label.length).map Prod.fst = l.label →
        before + l.label.length ≤ l.length →
        Traces f.table f.links markup (s.step f.table f.links) (t.takeLink l before) ∧
        ∀ x ∈ t.found,
          ¬ (t.position < x.entity.stop ∧ x.entity.stop < t.position + l.length) →
          (x.entity.withoutLink t.position (l.length - l.label.length)).covered
              (t.takeLink l before).text =
            (x.entity.covered t.text).filter fun u => u.2 ∉ t.placesOfLink l before) ∧
      ∀ x later, x :: later <:+ t.found → x.straddles = [] →
        (x.entity.covered t.text).map Prod.snd =
          x.content.filter fun a => ∀ y ∈ later, a ∉ y.opening ∧ a ∉ y.closing := by
  refine ⟨Traces.exists_end f.table f.links markup, fun s t ht => ⟨ht.of, fun hend => ?_,
    fun hne d n hm ho => ⟨ht.pair hne hm ho, fun x hx => ht.covered_takePair hm ho hx⟩,
    fun hne l before hm hl hlabel hle => ⟨ht.link hne hm hl hlabel hle, fun x hx =>
      ht.covered_takeLink hm hl hlabel hle hx⟩, ht.exact⟩⟩
  rw [Format.parse_eq_trim h, ht.reachable.run_eq hend]

/-- Styles that cross, the second one around a link: it was found with the seven units `b[c](u)`
between its markers, and at the end it covers the two that are left of them. -/
theorem Format.parse_exact_crossing :
    let f : Format := {}
    let markup := "**a__b**[c](u)__"
    f.table.isEmpty = false ∧
      ∃ s t, Traces f.table f.links markup s t ∧ s.rest = [] ∧
        (f.parse markup).entities = (trim s.units s.entities).2 ∧
        ∃ x later, x :: later <:+ t.found ∧ x.straddles = [] ∧
          x.entity = ⟨1, 2, .italic⟩ ∧ x.content = [5, 8, 9, 10, 11, 12, 13] ∧
          (x.entity.covered t.text).map Prod.snd = [5, 9] := by
  intro f markup
  have hstart : Traces f.table f.links markup _ _ := .start
  have hbold := hstart.pair (d := ⟨"**", .bold⟩) (n := 4) (by decide +kernel) (by decide +kernel)
    (by decide +kernel)
  have ha := hbold.pass (by decide +kernel) (by decide +kernel)
  have hitalic := ha.pair (d := ⟨"__", .italic⟩) (n := 7) (by decide +kernel) (by decide +kernel)
    (by decide +kernel)
  have hb := hitalic.pass (by decide +kernel) (by decide +kernel)
  let l : Link := ⟨6, Utf16.ofText "c", "u", by decide⟩
  have hlabel : 1 + l.label.length ≤ l.length := by decide
  have hlink := hb.link (by decide +kernel) (by decide +kernel) (by decide +kernel)
    (by decide +kernel) hlabel
  obtain ⟨-, hend, -, -, hexact⟩ := (Format.parse_exact (f := f) rfl markup).2 _ _ hlink
  refine ⟨rfl, _, _, hlink, by decide +kernel, hend (by decide +kernel),
    ⟨⟨1, 2, .italic⟩, [3, 4], [5, 8, 9, 10, 11, 12, 13], [14, 15], []⟩,
    [⟨⟨2, 1, .textUrl "u"⟩, [8], [9], [10, 11, 12, 13], []⟩], by decide +kernel, rfl, rfl, rfl, ?_⟩
  rw [hexact _ [⟨⟨2, 1, .textUrl "u"⟩, [8], [9], [10, 11, 12, 13], []⟩] (by decide +kernel) rfl]
  decide

end MessageMarkup
