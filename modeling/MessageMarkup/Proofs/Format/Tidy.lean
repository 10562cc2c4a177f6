import MessageMarkup.Proofs.Format.Reading

/-!
# Nested spans

With the standard table, spans may lie in one another. `Tidy` says how: of two spans that are not
apart the later lies in the earlier, which is no code, preformatted text or link, and has another
kind; the text contains nothing of a marker and no bracket, and no url contains a marker. Then their
markup is legible (`Tidy.legible`).

The markers that may have something inside are a character written twice. The reader looks for the
next two of it, and inside there are never two: the text has none, the marks of another kind are
other characters, and a url may have single ones, but stands between characters that are not
(`Sparse`).
-/

namespace MessageMarkup

open Utf16 (encode)

/-! ## The standard table -/

/-- A character that is in no standard marker and no bracket. -/
def IsLiteral (c : Char) : Prop :=
  c ∉ ['*', '_', '~', '`', '[', ']']

instance (c : Char) : Decidable (IsLiteral c) :=
  inferInstanceAs (Decidable (¬ _))

/-- The marks that the standard table can read: its own markers, and links whose url contains
nothing that ends it and no marker. -/
def Mark.IsStandard : Mark → Prop
  | pair d => d ∈ Delimiters.standard.entries
  | link url => ')' ∉ url.toList ∧
    ∀ d ∈ Delimiters.standard.entries, ¬ d.marker.toList <:+: url.toList

namespace Delimiters

/-- A literal character is plain. -/
theorem isPlain_of_isLiteral {c : Char} (h : IsLiteral c) : standard.IsPlain c := by
  unfold IsLiteral at h
  simp only [List.mem_cons, List.not_mem_nil, or_false, not_or] at h
  obtain ⟨hstar, hunder, htilde, htick, hbracket, -⟩ := h
  refine ⟨hbracket, fun d hd => ?_⟩
  rcases mem_standard hd with rfl | rfl | rfl | rfl | rfl <;> simp [*]

/-- A marker that may have something inside is one character twice, and no other marker contains
it. -/
theorem double_of_not_isVerbatim {d : Delimiter} (hd : d ∈ standard.entries)
    (hv : d.style.isVerbatim = false) :
    ∃ c, d.marker.toList = [c, c] ∧ c ∈ ['*', '_', '~'] ∧
      ∀ e ∈ standard.entries, e.style ≠ d.style → c ∉ e.marker.toList := by
  rcases mem_standard hd with rfl | rfl | rfl | rfl | rfl
  · exact absurd hv (by decide)
  · exact ⟨'*', by decide, by decide, by decide⟩
  · exact ⟨'_', by decide, by decide, by decide⟩
  · exact ⟨'~', by decide, by decide, by decide⟩
  · exact absurd hv (by decide)

/-- A marker that may have something inside is found whatever follows it. -/
theorem match?_standard_of_double {d : Delimiter} (hd : d ∈ standard.entries)
    (hv : d.style.isVerbatim = false) (cs : List Char) :
    standard.match? (encode (d.marker.toList ++ cs)) = some d := by
  rw [match?_encode, standard_entries]
  rcases mem_standard hd with rfl | rfl | rfl | rfl | rfl
  · exact absurd hv (by decide)
  · simp
  · simp
  · simp
  · exact absurd hv (by decide)

/-- Any marker is found in front of a literal character. -/
theorem match?_standard_of_literal {d : Delimiter} (hd : d ∈ standard.entries) {c : Char}
    (hc : IsLiteral c) (cs : List Char) :
    standard.match? (encode (d.marker.toList ++ c :: cs)) = some d :=
  ordered_standard.match?_of_plain hd (isPlain_of_isLiteral hc) cs

end Delimiters

/-! ## Sparse markup -/

/-- A character that is sparse in the marks and not in the text is sparse in the markup. -/
theorem Sparse.markup {c : Char} {ss : List Span} {p : Nat} {xs : List Char} (hxs : c ∉ xs)
    (hbefore : ∀ t ∈ ss, p ≤ t.offset → t.offset < p + Utf16.length xs → Sparse c t.mark.before)
    (hafter : ∀ t ∈ ss, p < t.stop → t.stop ≤ p + Utf16.length xs → Sparse c t.mark.after) :
    Sparse c (markup ss p xs) := by
  induction xs generalizing p with
  | nil => exact Sparse.of_not_mem List.not_mem_nil
  | cons x xs ih =>
    have hpos := Utf16.width_pos x
    rw [Utf16.length_cons] at hbefore hafter
    rw [List.mem_cons, not_or] at hxs
    -- The marks that open, the character, the marks that close and the rest, one after the other.
    have hopen : Sparse c (openings ss p) := by
      refine Sparse.flatMap fun t ht => ?_
      rw [List.mem_filter, beq_iff_eq] at ht
      exact hbefore t ht.1 (by omega) (by omega)
    have hclose : Sparse c (closings ss (p + Utf16.width x)) := by
      refine Sparse.flatMap fun t ht => ?_
      rw [List.mem_reverse, List.mem_filter, beq_iff_eq] at ht
      exact hafter t ht.1 (by omega) (by omega)
    have hrest : Sparse c (MessageMarkup.markup ss (p + Utf16.width x) xs) := by
      apply ih hxs.2
      · intro t ht hle hlt
        exact hbefore t ht (by omega) (by omega)
      · intro t ht hlt hle
        exact hafter t ht (by omega) (by omega)
    have hx : Sparse c [x] := Sparse.of_not_mem (by simpa using hxs.1)
    rw [MessageMarkup.markup, ← List.singleton_append]
    exact hopen.append (hx.append (hclose.append hrest))

/-- The character of a marker is sparse in the marks of another kind. -/
theorem Mark.IsStandard.sparse {d : Delimiter} {c : Char} {mark : Mark}
    (hd : d ∈ Delimiters.standard.entries) (hdouble : d.marker.toList = [c, c])
    (hc : c ∈ ['*', '_', '~'])
    (hother : ∀ e ∈ Delimiters.standard.entries, e.style ≠ d.style → c ∉ e.marker.toList)
    (h : mark.IsStandard) (hkind : mark.kind ≠ d.style.kind) :
    Sparse c mark.before ∧ Sparse c mark.after := by
  cases mark with
  | pair e =>
    -- The marker of another style does not have the character at all.
    have hstyle : e.style ≠ d.style := fun heq => hkind (congrArg Style.kind heq)
    have hmem := hother e h hstyle
    exact ⟨Sparse.of_not_mem hmem, Sparse.of_not_mem hmem⟩
  | link url =>
    have hne : c ≠ '[' ∧ c ≠ ']' ∧ c ≠ '(' ∧ c ≠ ')' := by
      simp only [List.mem_cons, List.not_mem_nil, or_false] at hc
      rcases hc with rfl | rfl | rfl <;> decide
    have hurl := h.2 d hd
    rw [hdouble] at hurl
    refine ⟨Sparse.of_not_mem ?_, ?_, ?_, ?_⟩
    · simpa [Mark.before] using hne.1
    · simpa [Mark.after] using hne.2.1.symm
    · have hlast : (Mark.link url).after.getLast? = some ')' := by
        show (']' :: '(' :: (url.toList ++ [')'])).getLast? = _
        rw [← List.cons_append, ← List.cons_append, List.getLast?_concat]
      rw [hlast, Ne, Option.some.injEq]
      exact hne.2.2.2.symm
    · -- Two in a row would be in the url.
      intro htwice
      unfold Mark.after at htwice
      rw [List.infix_cons_iff, List.infix_cons_iff, List.infix_concat_iff] at htwice
      rcases htwice with htwice | htwice | htwice | htwice
      · exact hne.2.1 (List.cons_prefix_cons.mp htwice).1
      · exact hne.2.2.1 (List.cons_prefix_cons.mp htwice).1
      · obtain ⟨as, has⟩ := htwice
        have hlast := congrArg List.getLast? has
        rw [List.append_cons, List.getLast?_concat, List.getLast?_concat, Option.some.injEq]
          at hlast
        exact hne.2.2.2 hlast
      · exact hurl htwice

/-! ## Spans in one another -/

/-- The spans of a text from the position `p` on are apart or nested, and nothing but their marks
looks like a mark. -/
structure Tidy (p : Nat) (text : List Char) (ss : List Span) : Prop where
  /-- A span covers some characters. -/
  covers : ∀ s ∈ ss, s.Covers p text
  /-- A later span starts behind an earlier one, or lies in it. -/
  nested : ss.Pairwise fun s t => s.stop ≤ t.offset ∨
    s.offset ≤ t.offset ∧ t.stop ≤ s.stop ∧ s.mark.isVerbatim = false ∧ t.mark.kind ≠ s.mark.kind
  /-- The text is literal. -/
  literal : ∀ c ∈ text, IsLiteral c
  /-- The marks are those of the standard table. -/
  marks : ∀ s ∈ ss, s.mark.IsStandard

namespace Tidy

variable {p : Nat} {text : List Char} {ss : List Span}

/-- The spans are not before the text, not behind it and not empty. -/
theorem bounds (h : Tidy p text ss) {s : Span} (hs : s ∈ ss) :
    p ≤ s.offset ∧ s.offset < s.stop ∧ s.stop ≤ p + Utf16.length text :=
  (h.covers s hs).bounds

/-- Nested spans lie as they may. -/
theorem layout (h : Tidy 0 text ss) : Layout text ss := by
  refine ⟨h.covers, ?_, ?_, ?_⟩
  · refine h.nested.imp_of_mem fun hs _ hst => ?_
    have := h.bounds hs
    omega
  · refine h.nested.imp fun hst hv => ?_
    rcases hst with hst | ⟨-, -, hv', -⟩
    · exact hst
    · rw [hv] at hv'
      exact Bool.noConfusion hv'
  · refine h.nested.imp fun hst _ hlt => ?_
    omega

/-- A span that starts or stops in an earlier one lies in it, and has another kind. -/
theorem kind_ne (h : Tidy p text ss) {earlier later : List Span} {s t : Span}
    (hss : ss = earlier ++ s :: later) (ht : t ∈ later)
    (hin : t.offset < s.stop ∨ t.stop ≤ s.stop) : t.mark.kind ≠ s.mark.kind := by
  have hpair := h.nested
  rw [hss, List.pairwise_append] at hpair
  have hst := (List.pairwise_cons.mp hpair.2.1).1 t ht
  have hbounds := h.bounds (hss ▸ List.mem_append_right earlier (List.mem_cons_of_mem s ht))
  rcases hst with hapart | ⟨-, -, -, hkind⟩
  · omega
  · exact hkind

/-- A marker that may have something inside is found where it stands, and the next one closes it:
the marks of the spans in it are of other kinds, and have its character at most once in a row. -/
theorem pair_of_read (h : Tidy 0 text ss) {earlier later : List Span} {s : Span}
    (hss : ss = earlier ++ s :: later) {d : Delimiter} (hmark : s.mark = .pair d)
    (hd : d ∈ Delimiters.standard.entries) (hv : d.style.isVerbatim = false) {ys : List Char}
    (hliteral : ∀ c ∈ ys, IsLiteral c) (hys : ys ≠ [])
    (hstop : s.stop = s.offset + Utf16.length ys) (more : List Char) :
    Delimiters.standard.match?
        (encode (d.marker.toList ++ (markup later s.offset ys ++ more))) = some d ∧
      Closes d.marker.toList (markup later s.offset ys) := by
  obtain ⟨c, hdouble, hc, hother⟩ := Delimiters.double_of_not_isVerbatim hd hv
  have hsparse (t : Span) (ht : t ∈ later) (hin : t.offset < s.stop ∨ t.stop ≤ s.stop) :
      Sparse c t.mark.before ∧ Sparse c t.mark.after := by
    have hkind := h.kind_ne hss ht hin
    rw [hmark] at hkind
    have ht' : t ∈ ss := hss ▸ List.mem_append_right earlier (List.mem_cons_of_mem s ht)
    exact (h.marks t ht').sparse hd hdouble hc hother hkind
  have hnot : c ∉ ys := by
    intro hmem
    have := hliteral c hmem
    unfold IsLiteral at this
    simp only [List.mem_cons, List.not_mem_nil, or_false] at hc this
    tauto
  refine ⟨Delimiters.match?_standard_of_double hd hv _, ?_⟩
  rw [hdouble]
  apply Sparse.closes
  · refine Sparse.markup hnot (fun t ht _ hlt => ?_) (fun t ht _ hle => ?_)
    · exact (hsparse t ht (by omega)).1
    · exact (hsparse t ht (by omega)).2
  · -- The markup is no shorter than the text, so it is not empty either.
    intro hnil
    have hle := length_le_length_markup later s.offset ys
    rw [hnil, Utf16.length_nil] at hle
    have := Utf16.length_pos hys
    omega

/-- A marker of what is left unread is found where it stands, and the next one closes it: nothing
lies between them but literal text. -/
theorem pair_of_verbatim (h : Tidy 0 text ss) {earlier later : List Span} {s : Span}
    (hss : ss = earlier ++ s :: later) {d : Delimiter} (hmark : s.mark = .pair d)
    (hd : d ∈ Delimiters.standard.entries) (hv : d.style.isVerbatim = true) {ys : List Char}
    (hliteral : ∀ c ∈ ys, IsLiteral c) (hys : ys ≠ [])
    (hstop : s.stop = s.offset + Utf16.length ys) (more : List Char) :
    Delimiters.standard.match?
        (encode (d.marker.toList ++ (markup later s.offset ys ++ more))) = some d ∧
      Closes d.marker.toList (markup later s.offset ys) := by
  have hplain : markup later s.offset ys = ys := by
    apply markup_of_apart
    intro t ht
    have hpair := h.layout.verbatim
    rw [hss, List.pairwise_append] at hpair
    have hle := (List.pairwise_cons.mp hpair.2.1).1 t ht (by rw [hmark]; exact hv)
    have hbounds := h.bounds (hss ▸ List.mem_append_right earlier (List.mem_cons_of_mem s ht))
    omega
  rw [hplain]
  constructor
  · obtain ⟨y, ys, rfl⟩ := List.exists_cons_of_ne_nil hys
    exact Delimiters.match?_standard_of_literal hd (hliteral y List.mem_cons_self) _
  · obtain ⟨m, ms, hm⟩ := List.exists_cons_of_ne_nil
      (Delimiter.toList_ne_nil (Delimiters.ordered_standard.marker_ne d hd))
    rw [hm]
    refine Closes.of_head_not_mem hys fun hmem => ?_
    have hplain' := Delimiters.isPlain_of_isLiteral (hliteral m hmem)
    exact hplain'.2 d hd (hm ▸ List.mem_cons_self)

/-- The markup of nested spans is legible. -/
theorem legible (h : Tidy 0 text ss) : Legible .standard text ss := by
  refine { toLayout := h.layout, literal := ?_, pair := ?_, link := ?_ }
  · intro passed c cs htext _
    have hc : IsLiteral c := h.literal c (htext ▸ List.mem_append_right passed List.mem_cons_self)
    exact Delimiters.apart_standard.passes_markup (Delimiters.isPlain_of_isLiteral hc) ss _ cs
  · intro earlier s later d hss hmark xs ys zs htext hoffset hlen
    have hs : s ∈ ss := hss ▸ List.mem_append_right earlier List.mem_cons_self
    have hd : d ∈ Delimiters.standard.entries := by
      have := h.marks s hs
      rw [hmark] at this
      exact this
    have hliteral : ∀ c ∈ ys, IsLiteral c := fun c hc =>
      h.literal c (htext ▸ List.mem_append_right xs (List.mem_append_left zs hc))
    have hstop : s.stop = s.offset + Utf16.length ys := by
      unfold Span.stop
      rw [hlen]
    have hys : ys ≠ [] := by
      rintro rfl
      have := (h.bounds hs).2.1
      rw [Utf16.length_nil] at hstop
      omega
    have hmarkup : markup (s :: later) s.offset (ys ++ zs) =
        d.marker.toList ++ (markup later s.offset ys ++
          (s.mark.after ++ markup later (s.offset + Utf16.length ys) zs)) := by
      rw [markup_cons_append hlen.symm hys, hmark]
      rfl
    rw [hmarkup]
    cases hv : d.style.isVerbatim with
    | false => exact h.pair_of_read hss hmark hd hv hliteral hys hstop _
    | true => exact h.pair_of_verbatim hss hmark hd hv hliteral hys hstop _
  · intro s hs url hmark
    have hstandard := h.marks s hs
    rw [hmark] at hstandard
    refine ⟨hstandard.1, fun xs ys zs htext _ _ hmem => ?_⟩
    have hbracket := h.literal ']'
      (htext ▸ List.mem_append_right xs (List.mem_append_left zs hmem))
    exact hbracket (by decide)

end Tidy

end MessageMarkup
