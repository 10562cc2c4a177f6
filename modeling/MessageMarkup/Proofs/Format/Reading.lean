import MessageMarkup.Format
import MessageMarkup.Proofs.Format.Legible
import MessageMarkup.Proofs.Format.Shape

/-!
# Reading markup back

`Format.parse_markup` is the result, that legible markup is read as the text and the entities that
it was written for. `Scan.Progress` is what holds on the way: the reader is between the spans that
it has found and those to come, it has the text that it has passed behind it, without marks, and the
markup of the rest ahead. Where no span starts it passes a character (`Progress.pass`), and where
one starts it takes out its marks (`Progress.take`).
-/

namespace MessageMarkup

open Utf16 (encode length width)
open LinkPattern (written)

namespace Scan

/-! ## The run -/

/-- The reader between the spans that it has found and those to come. -/
structure Progress (text : List Char) (all : List Span) (s : Scan) (passed cs : List Char)
    (done ss : List Span) : Prop where
  /-- The text is what has been passed and what is left. -/
  text_eq : text = passed ++ cs
  /-- The spans are those found and those to come. -/
  spans_eq : all = done ++ ss
  /-- A span that was found starts before the reader or at it. -/
  offset_le : ∀ t ∈ done, t.offset ≤ length passed
  /-- One that is left unread has been passed. -/
  stop_le : ∀ t ∈ done, t.mark.isVerbatim = true → t.stop ≤ length passed
  /-- A span to come does not start before the reader. -/
  le_offset : ∀ t ∈ ss, length passed ≤ t.offset
  /-- The reader has the text that it has passed behind it, and the markup of the rest ahead. -/
  reader : s.At passed (markup ss (length passed) cs)
    (done.map (Span.recorded ss (length passed) cs))

variable {table : Delimiters} {text : List Char} {all : List Span} {s : Scan}
  {passed cs : List Char} {done ss : List Span}

/-- Where no span starts there is nothing to take out: the reader is in no span that is left unread,
since it has passed those that it has found. -/
theorem Progress.passes (h : Unambiguous table text all) {c : Char}
    (hs : s.Progress text all passed (c :: cs) done ss) (hlt : ∀ t ∈ ss, length passed < t.offset) :
    table.Passes (markup ss (length passed) (c :: cs)) := by
  have hfilter : all.filter (length passed < ·.offset) = ss := by
    rw [hs.spans_eq, List.filter_append, List.filter_eq_nil_iff.mpr, List.filter_eq_self.mpr]
    · rfl
    · intro t ht
      exact decide_eq_true (hlt t ht)
    · intro t ht
      rw [decide_eq_true_eq]
      exact Nat.not_lt.mpr (hs.offset_le t ht)
  rw [← hfilter]
  refine h.literal passed c cs hs.text_eq fun t ht hverbatim => ?_
  rw [hs.spans_eq] at ht
  rcases List.mem_append.mp ht with ht | ht
  · exact Or.inr (hs.stop_le t ht hverbatim)
  · exact Or.inl (hlt t ht)

/-- Where no span starts, the reader passes a character of the text. -/
theorem Progress.pass (ht : table.Apart) (h : Legible table text all) {c : Char}
    (hs : s.Progress text all passed (c :: cs) done ss)
    (hlt : ∀ t ∈ ss, length passed < t.offset) :
    ∃ s' : Scan, s.run table .standard = s'.run table .standard ∧
      s'.Progress text all (passed ++ [c]) cs done ss := by
  have hpass := hs.passes h.toUnambiguous hlt
  obtain ⟨htext, hall, hle, hstop, -, hreader⟩ := hs
  have hmem {t : Span} (ht : t ∈ done) : t ∈ all := hall ▸ List.mem_append_left ss ht
  have hmem' {t : Span} (ht : t ∈ ss) : t ∈ all := hall ▸ List.mem_append_right done ht
  have hlen : length (passed ++ [c]) = length passed + width c := by simp
  -- The spans to come start behind the whole character.
  have hbehind : ∀ t ∈ ss, length passed + width c ≤ t.offset :=
    fun t ht => h.width_le_offset (hmem' ht) htext (hlt t ht)
  have hapart : ∀ t ∈ ss, length passed + length [c] ≤ t.offset ∧ t.offset < t.stop :=
    fun t ht => ⟨hbehind t ht, h.offset_lt_stop (hmem' ht)⟩
  have hmarkup : markup ss (length passed) (c :: cs) =
      c :: markup ss (length passed + width c) cs := by
    have hone : markup ss (length passed) [c] = [c] :=
      markup_of_apart fun t ht => by have := hapart t ht; omega
    have happend := markup_append ss (length passed) [c] cs
    rw [hone] at happend
    exact happend
  rw [hmarkup] at hpass hreader
  obtain ⟨s', hrun, hreader'⟩ := run_pass ht.marker_ne hreader hpass
  refine ⟨s', hrun, ?_, hall, ?_, ?_, ?_, ?_⟩
  · rw [htext, List.append_assoc]
    rfl
  · intro t ht
    have := hle t ht
    omega
  · intro t ht hverbatim
    have := hstop t ht hverbatim
    omega
  · intro t ht
    have := hbehind t ht
    omega
  · -- A character without marks changes no entity.
    have hrecorded : done.map (Span.recorded ss (length passed) (c :: cs)) =
        done.map (Span.recorded ss (length (passed ++ [c])) cs) := by
      rw [hlen]
      refine List.map_congr_left fun t ht => ?_
      exact Span.recorded_append hapart (hle t ht) (h.stop_ahead (hmem ht) htext)
    rw [← hrecorded, hlen]
    exact hreader'

/-- A span to come that starts at the reader covers what is next. -/
theorem Progress.head_covers {t : Span} (h : Layout text all)
    (hs : s.Progress text all passed cs done (t :: ss)) (hoffset : t.offset = length passed) :
    ∃ ys zs, cs = ys ++ zs ∧ ys ≠ [] ∧ length ys = t.length := by
  have ht : t ∈ all := hs.spans_eq ▸ List.mem_append_right done List.mem_cons_self
  obtain ⟨xs, ys, zs, hcs, hys, hxs, hlen⟩ := h.covers_ahead ht hs.text_eq (hs.le_offset t
    List.mem_cons_self)
  have hnil : xs = [] := Utf16.length_eq_zero_iff.mp (by omega)
  rw [hnil, List.nil_append] at hcs
  exact ⟨ys, zs, hcs, hys, hlen⟩

/-- A span has been found and is to be read. -/
theorem Progress.found {t : Span} {s' : Scan} {ys zs : List Char}
    (hs : s.Progress text all passed (ys ++ zs) done (t :: ss)) (hoffset : t.offset = length passed)
    (hverbatim : t.mark.isVerbatim = false)
    (hreader : s'.At passed (markup ss (length passed) (ys ++ zs))
      ((done ++ [t]).map (Span.recorded ss (length passed) (ys ++ zs)))) :
    s'.Progress text all passed (ys ++ zs) (done ++ [t]) ss := by
  refine ⟨hs.text_eq, ?_, ?_, ?_, ?_, hreader⟩
  · rw [hs.spans_eq, List.append_assoc]
    rfl
  · intro u hu
    rcases List.mem_append.mp hu with hu | hu
    · exact hs.offset_le u hu
    · rw [List.mem_singleton.mp hu]
      exact Nat.le_of_eq hoffset
  · intro u hu hv
    rcases List.mem_append.mp hu with hu | hu
    · exact hs.stop_le u hu hv
    · rw [List.mem_singleton.mp hu, hverbatim] at hv
      exact Bool.noConfusion hv
  · exact fun u hu => hs.le_offset u (List.mem_cons_of_mem t hu)

/-- A span has been found and passed. -/
theorem Progress.skipped {t : Span} {s' : Scan} {ys zs : List Char} (h : Layout text all)
    (hs : s.Progress text all passed (ys ++ zs) done (t :: ss)) (hoffset : t.offset = length passed)
    (hlen : length ys = t.length) (hverbatim : t.mark.isVerbatim = true)
    (hreader : s'.At (passed ++ ys) (markup ss (length passed + length ys) zs)
      ((done ++ [t]).map (Span.recorded ss (length passed) (ys ++ zs)))) :
    s'.Progress text all (passed ++ ys) zs (done ++ [t]) ss := by
  have hall : all = (done ++ [t]) ++ ss := by
    rw [hs.spans_eq, List.append_assoc]
    rfl
  have hstop : t.stop = length passed + length ys := by
    unfold Span.stop
    rw [hoffset, hlen]
  have hsum : length (passed ++ ys) = length passed + length ys := Utf16.length_append _ _
  -- The spans to come start behind this one, and those found start before it or with it.
  have hbehind : ∀ u ∈ ss, t.stop ≤ u.offset := by
    intro u hu
    have hpair := h.verbatim
    rw [hall, List.pairwise_append] at hpair
    exact hpair.2.2 t (List.mem_append_right done List.mem_cons_self) u hu hverbatim
  have hle : ∀ u ∈ done ++ [t], u.offset ≤ length passed := by
    intro u hu
    rcases List.mem_append.mp hu with hu | hu
    · exact hs.offset_le u hu
    · rw [List.mem_singleton.mp hu]
      exact Nat.le_of_eq hoffset
  refine ⟨?_, hall, ?_, ?_, ?_, ?_⟩
  · rw [hs.text_eq, List.append_assoc]
  · intro u hu
    have := hle u hu
    omega
  · intro u hu hv
    rcases List.mem_append.mp hu with hu | hu
    · have := hs.stop_le u hu hv
      omega
    · rw [List.mem_singleton.mp hu]
      omega
  · intro u hu
    have := hbehind u hu
    omega
  · -- Neither does what the span covers, which has no marks either.
    have hrecorded : (done ++ [t]).map (Span.recorded ss (length passed) (ys ++ zs)) =
        (done ++ [t]).map (Span.recorded ss (length (passed ++ ys)) zs) := by
      rw [hsum]
      refine List.map_congr_left fun u hu => Span.recorded_append ?_ (hle u hu) ?_
      · intro v hv
        have hv' : v ∈ all := hall ▸ List.mem_append_right _ hv
        have := hbehind v hv
        exact ⟨by omega, h.offset_lt_stop hv'⟩
      · have hu' : u ∈ all := hall ▸ List.mem_append_left _ hu
        exact h.stop_ahead hu' hs.text_eq
    rw [← hrecorded, hsum]
    exact hreader

/-- What the next span covers has no marks in it if it is left unread. -/
theorem Progress.markup_of_verbatim {t : Span} {ys : List Char} (h : Layout text all)
    (hs : s.Progress text all passed cs done (t :: ss)) (hstop : t.stop = length passed + length ys)
    (hverbatim : t.mark.isVerbatim = true) : markup ss (length passed) ys = ys := by
  apply markup_of_apart
  intro u hu
  have hpair := h.verbatim
  rw [hs.spans_eq, List.pairwise_append] at hpair
  have hge := (List.pairwise_cons.mp hpair.2.1).1 u hu hverbatim
  have hlt := h.offset_lt_stop
    (hs.spans_eq ▸ List.mem_append_right done (List.mem_cons_of_mem t hu))
  omega

/-- Where a pair starts, the reader takes out its markers. -/
theorem Progress.take_pair (ht : table.Apart) (h : Legible table text all) {t : Span}
    {d : Delimiter} {ys zs : List Char}
    (hs : s.Progress text all passed (ys ++ zs) done (t :: ss)) (hoffset : t.offset = length passed)
    (hys : ys ≠ []) (hlen : length ys = t.length) (hmark : t.mark = .pair d) :
    ∃ (s' : Scan) (passed' cs' : List Char), s.run table .standard = s'.run table .standard ∧
      s'.Progress text all passed' cs' (done ++ [t]) ss ∧ cs'.length ≤ (ys ++ zs).length := by
  have htext := hs.text_eq
  have hmem {u : Span} (hu : u ∈ done) : u ∈ all := hs.spans_eq ▸ List.mem_append_left _ hu
  have hstop : t.stop = length passed + length ys := by
    unfold Span.stop
    rw [hoffset, hlen]
  have hmarkup : markup (t :: ss) t.offset (ys ++ zs) = _ :=
    markup_cons_append hlen.symm hys zs
  obtain ⟨hmatch, hcloses⟩ := h.pair done t ss d hs.spans_eq hmark passed ys zs htext
    hoffset.symm hlen
  have hreader := hs.reader
  rw [hoffset] at hmarkup hcloses
  rw [hoffset, hmarkup, hmark] at hmatch
  rw [hmarkup, hmark] at hreader
  have hd := ht.marker_ne d (Delimiters.of_match?_eq_some hmatch).1
  obtain ⟨s', hrun, hreader'⟩ := run_pair hd hreader hmatch hcloses
  -- The spans found before lose what they contain of the markers, and this one is found.
  have hentities : (done.map (Span.recorded (t :: ss) (length passed) (ys ++ zs))).map
        (Entity.withoutPair (length passed)
          (length passed + d.width + length (markup ss (length passed) ys)) d.width) ++
        [⟨length passed, length (markup ss (length passed) ys), d.style.kind⟩] =
      (done ++ [t]).map (Span.recorded ss (length passed) (ys ++ zs)) := by
    rw [List.map_append, List.map_map, List.map_singleton, Span.recorded_start hoffset hys hstop,
      hmark]
    congr 1
    refine List.map_congr_left fun u hu => ?_
    exact Span.withoutPair_recorded hoffset hmark hys hlen (hs.offset_le u hu)
      (h.stop_ahead (hmem hu) htext)
  rw [hentities] at hreader'
  have hverbatim : t.mark.isVerbatim = d.style.isVerbatim := by
    rw [hmark]
    rfl
  cases hv : d.style.isVerbatim with
  | false =>
    rw [hv, if_neg Bool.false_ne_true, if_neg Bool.false_ne_true, ← markup_append] at hreader'
    exact ⟨s', passed, ys ++ zs, hrun, hs.found hoffset (hverbatim.trans hv) hreader',
      Nat.le_refl _⟩
  | true =>
    rw [hv, if_pos rfl, if_pos rfl,
      hs.markup_of_verbatim h.toLayout hstop (hverbatim.trans hv)] at hreader'
    refine ⟨s', passed ++ ys, zs, hrun, ?_, ?_⟩
    · exact hs.skipped h.toLayout hoffset hlen (hverbatim.trans hv) hreader'
    · rw [List.length_append]
      omega

/-- Where a link starts, the reader puts its label in its place. -/
theorem Progress.take_link (ht : table.Apart) (h : Legible table text all) {t : Span}
    {url : String} {ys zs : List Char}
    (hs : s.Progress text all passed (ys ++ zs) done (t :: ss)) (hoffset : t.offset = length passed)
    (hys : ys ≠ []) (hlen : length ys = t.length) (hmark : t.mark = .link url) :
    ∃ s' : Scan, s.run table .standard = s'.run table .standard ∧
      s'.Progress text all (passed ++ ys) zs (done ++ [t]) ss := by
  have htext := hs.text_eq
  have hmem {u : Span} (hu : u ∈ done) : u ∈ all := hs.spans_eq ▸ List.mem_append_left _ hu
  have htmem : t ∈ all := hs.spans_eq ▸ List.mem_append_right done List.mem_cons_self
  obtain ⟨hurl, hlabel⟩ := h.link t htmem url hmark
  have hv : t.mark.isVerbatim = true := by
    rw [hmark]
    rfl
  have hstop : t.stop = length passed + length ys := by
    unfold Span.stop
    rw [hoffset, hlen]
  have hplain := hs.markup_of_verbatim h.toLayout hstop hv
  have hmarkup : markup (t :: ss) t.offset (ys ++ zs) = _ :=
    markup_cons_append hlen.symm hys zs
  have hlink : markup (t :: ss) (length passed) (ys ++ zs) =
      written ys url.toList ++ markup ss (length passed + length ys) zs := by
    rw [← hoffset, hmarkup, hoffset, hplain, hmark]
    simp [Mark.before, Mark.after, written]
  have hlengths : length (written ys url.toList) - length ys =
      length t.mark.before + length t.mark.after := by
    rw [hmark]
    simp only [written, Mark.before, Mark.after, Utf16.length_cons, Utf16.length_append,
      Utf16.length_nil]
    omega
  have hreader := hs.reader
  rw [hlink] at hreader
  obtain ⟨s', hrun, hreader'⟩ := run_link hreader (ht.match?_bracket _)
    (hlabel passed ys zs htext hoffset.symm hlen) hurl
  have hentities : (done.map (Span.recorded (t :: ss) (length passed) (ys ++ zs))).map
        (Entity.withoutLink (length passed) (length (written ys url.toList) - length ys)) ++
        [⟨length passed, length ys, .textUrl (String.ofList url.toList)⟩] =
      (done ++ [t]).map (Span.recorded ss (length passed) (ys ++ zs)) := by
    rw [List.map_append, List.map_map, List.map_singleton, Span.recorded_start hoffset hys hstop,
      hplain, hmark, hlengths, String.ofList_toList]
    congr 1
    refine List.map_congr_left fun u hu => ?_
    refine Span.withoutLink_recorded hoffset hys hlen (hs.offset_le u hu) ?_
      (h.stop_ahead (hmem hu) htext)
    -- A link that starts in a span stops in it, so the span loses all that the link loses.
    intro hlt
    have hpair := h.uncrossed
    rw [hs.spans_eq, List.pairwise_append] at hpair
    exact hpair.2.2 u hu t List.mem_cons_self (by rw [hmark]; rfl) (by omega)
  rw [hentities] at hreader'
  exact ⟨s', hrun, hs.skipped h.toLayout hoffset hlen hv hreader'⟩

/-- Where a span starts, the reader takes out its marks. -/
theorem Progress.take (ht : table.Apart) (h : Legible table text all) {t : Span}
    (hs : s.Progress text all passed cs done (t :: ss)) (hoffset : t.offset = length passed) :
    ∃ (s' : Scan) (passed' cs' : List Char), s.run table .standard = s'.run table .standard ∧
      s'.Progress text all passed' cs' (done ++ [t]) ss ∧ cs'.length ≤ cs.length := by
  obtain ⟨ys, zs, rfl, hys, hlen⟩ := hs.head_covers h.toLayout hoffset
  cases hmark : t.mark with
  | pair d => exact hs.take_pair ht h hoffset hys hlen hmark
  | link url =>
    obtain ⟨s', hrun, hs'⟩ := hs.take_link ht h hoffset hys hlen hmark
    refine ⟨s', passed ++ ys, zs, hrun, hs', ?_⟩
    rw [List.length_append]
    omega

/-- Where no span starts at the reader, the spans to come start behind it. -/
theorem Progress.lt_offset {t : Span} (h : Layout text all)
    (hs : s.Progress text all passed cs done (t :: ss)) (hoffset : t.offset ≠ length passed) :
    ∀ u ∈ t :: ss, length passed < u.offset := by
  have hsorted := h.sorted
  rw [hs.spans_eq, List.pairwise_append] at hsorted
  have hfirst := hs.le_offset t List.mem_cons_self
  intro u hu
  rcases List.mem_cons.mp hu with rfl | hu
  · omega
  · have := (List.pairwise_cons.mp hsorted.2.1).1 u hu
    omega

/-- From any place on, the reader comes to the end of the text, and has found the spans. -/
theorem Progress.run_eq (ht : table.Apart) (h : Legible table text all)
    (hs : s.Progress text all passed cs done ss) :
    (s.run table .standard).units = encode text ∧
      (s.run table .standard).entities = all.map Span.entity := by
  -- Each step leaves a character or a span less.
  obtain ⟨n, hn⟩ : ∃ n, ss.length + cs.length ≤ n := ⟨_, Nat.le_refl _⟩
  induction n generalizing s passed cs done ss with
  | zero =>
    obtain rfl : ss = [] := List.length_eq_zero_iff.mp (by omega)
    obtain rfl : cs = [] := List.length_eq_zero_iff.mp (by omega)
    have hall : all = done := hs.spans_eq.trans (List.append_nil done)
    have htext : text = passed := hs.text_eq.trans (List.append_nil passed)
    obtain ⟨hunits, hentities⟩ : (s.run table .standard).units = encode passed ∧
        (s.run table .standard).entities = _ := hs.reader.run_nil
    refine ⟨htext ▸ hunits, ?_⟩
    rw [hentities, hall]
    refine List.map_congr_left fun t ht => Span.recorded_of_le ?_
    -- A span that stopped behind the reader would have something left to cover.
    by_contra hlt
    obtain ⟨xs, ys, hnil, hxs, -⟩ := h.stop_ahead (hall ▸ ht) hs.text_eq (Nat.not_le.mp hlt)
    exact hxs (List.append_eq_nil_iff.mp hnil.symm).1
  | succ n ih =>
    -- The next span starts at the reader, or none of those to come does.
    by_cases hstart : ∃ t ts, ss = t :: ts ∧ t.offset = length passed
    · obtain ⟨t, ts, rfl, hoffset⟩ := hstart
      obtain ⟨s', passed', cs', hrun, hs', hle⟩ := hs.take ht h hoffset
      rw [hrun]
      rw [List.length_cons] at hn
      exact ih hs' (by omega)
    · have hlt : ∀ t ∈ ss, length passed < t.offset := by
        cases ss with
        | nil => exact fun t ht => absurd ht List.not_mem_nil
        | cons t ts => exact hs.lt_offset h.toLayout fun heq => hstart ⟨t, ts, rfl, heq⟩
      cases cs with
      | cons c cs =>
        obtain ⟨s', hrun, hs'⟩ := hs.pass ht h hlt
        rw [hrun]
        rw [List.length_cons] at hn
        exact ih hs' (by omega)
      | nil =>
        -- Nothing is left for a span to cover.
        cases ss with
        | nil => exact ih hs (Nat.zero_le n)
        | cons t ts =>
          have hmem : t ∈ all := hs.spans_eq ▸ List.mem_append_right done List.mem_cons_self
          have hcovers := h.covers_ahead hmem hs.text_eq (hs.le_offset t List.mem_cons_self)
          exact absurd hcovers Span.not_covers_nil

/-- Before the start of the text no span has been found. -/
theorem progress_start (text : List Char) (ss : List Span) :
    Progress text ss { rest := encode (markup ss 0 text) } [] text [] ss := by
  refine ⟨rfl, rfl, ?_, ?_, fun t _ => Nat.zero_le _, at_start (markup ss 0 text)⟩
  · exact fun t ht => absurd ht List.not_mem_nil
  · exact fun t ht => absurd ht List.not_mem_nil

end Scan

/-! ## Messages -/

/-- Legible markup is read as the message that it was written for, without the blanks around it. -/
theorem Format.parse_markup {f : Format} (hlinks : f.links = .standard) (ht : f.table.Apart)
    (hne : f.table.entries ≠ []) {text : List Char} {ss : List Span}
    (h : Legible f.table text ss) :
    f.parse (String.ofList (markup ss 0 text)) =
      Message.trim { text := String.ofList text, entities := ss.map Span.entity } := by
  obtain ⟨hunits, hentities⟩ := (Scan.progress_start text ss).run_eq ht h
  rw [Format.parse_eq_trim (Delimiters.isEmpty_eq_false hne), hlinks]
  unfold Message.trim
  simp only [Utf16.ofText, String.toList_ofList, hunits, hentities]

end MessageMarkup
