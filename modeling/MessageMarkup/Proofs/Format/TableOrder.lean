import MessageMarkup.Format
import MessageMarkup.Proofs.Delimiters.History
import MessageMarkup.Proofs.Format.Step

/-!
# The order of a table

What a table finds depends on its markers and not on the order in which they came to it: of those
that some units start with it is the longest, and there is only one of that length
(`Delimiters.Ordered.match?_eq_some_iff`). The reader asks a table for nothing else, so two tables
with the same delimiters read the same (`Format.parse_of_perm`).
-/

namespace MessageMarkup

namespace Delimiters

variable {t u : Delimiters}

/-! ## Tables of the same delimiters -/

/-- Tables with the same delimiters find the same. -/
theorem Ordered.match?_congr (ht : t.Ordered) (hu : u.Ordered)
    (h : ∀ d, d ∈ t.entries ↔ d ∈ u.entries) (units : List UInt16) :
    t.match? units = u.match? units := by
  refine Option.ext fun d => ?_
  rw [ht.match?_eq_some_iff, hu.match?_eq_some_iff]
  unfold IsLongest
  simp only [h]

/-- If no marker is empty and none comes twice, a history leaves all its delimiters. -/
theorem lasting_eq_self {ds : List Delimiter} (hne : ∀ d ∈ ds, d.marker ≠ "")
    (hdistinct : ds.Pairwise fun d e => d.marker ≠ e.marker) : lasting ds = ds := by
  induction ds using List.reverseRecOn with
  | nil => rfl
  | append_singleton ds d ih =>
    rw [List.pairwise_append] at hdistinct
    have hds := ih (fun e he => hne e (List.mem_append_left _ he)) hdistinct.1
    have hd : d.marker ≠ "" := hne d (List.mem_append_right _ List.mem_cons_self)
    have hnew : d.marker ∉ markers ds := by
      rw [← map_marker_lasting, hds, List.mem_map]
      rintro ⟨e, he, heq⟩
      exact hdistinct.2.2 e he d List.mem_cons_self heq
    rw [lasting_concat_of_new hd hnew, hds]

/-- Such a list makes a table of all its delimiters. -/
theorem exists_ofList {ds : List Delimiter} (hne : ∀ d ∈ ds, d.marker ≠ "")
    (hdistinct : ds.Pairwise fun d e => d.marker ≠ e.marker) :
    ∃ t, ofList ds = .ok t ∧ t.entries.Perm ds := by
  have hempty : ¬ ∃ d ∈ ds, d.marker = "" := fun ⟨d, hd, heq⟩ => hne d hd heq
  refine ⟨({} : Delimiters).after ds, (foldlM_insert_eq {} ds).trans (if_neg hempty), ?_⟩
  rw [entries_after, lasting_eq_self hne hdistinct]
  exact List.mergeSort_perm _ _

end Delimiters

/-! ## Reading with another table -/

namespace Scan

variable {t u : Delimiters} {p : LinkPattern}

/-- A step asks a table for nothing but the marker at the reader. -/
theorem step_congr (h : ∀ units, t.match? units = u.match? units) (s : Scan) :
    s.step t p = s.step u p := by
  unfold step
  rw [h]

/-- So a run asks it for nothing else. -/
theorem run_congr (h : ∀ units, t.match? units = u.match? units) (s : Scan) :
    s.run t p = s.run u p := by
  fun_induction Scan.run t p s with
  | case1 s hrest => rw [run, if_pos hrest]
  | case2 s hrest ih => rw [ih, step_congr h, ← run_eq_run_step hrest]

end Scan

/-- Tables that find the same, and are both empty or both not, read the same. -/
theorem parseWith_congr {t u : Delimiters} (h : ∀ units, t.match? units = u.match? units)
    (hempty : t.isEmpty = u.isEmpty) (p : LinkPattern) (markup : String) :
    parseWith t p markup = parseWith u p markup := by
  unfold parseWith
  rw [hempty]
  simp only [Scan.run_congr h]

/-! ## Messages -/

/-- A table finds, at any position of any units, the delimiter with the longest marker that they
have there, whatever was inserted in the table, and nothing if they have none. So the order of the
delimiters that a table is made of makes no difference to what is read: with any pattern of links
the message is the same, and so are the records. -/
theorem Format.parse_of_perm :
    (∀ (history : List Delimiter),
      ∀ t ∈ [({} : Delimiters).after history, Delimiters.standard.after history],
        ∀ (units : List UInt16) (position : Nat),
          (∀ d, t.match? (units.drop position) = some d ↔
            t.IsLongest (units.drop position) d) ∧
          (t.match? (units.drop position) = none ↔
            ∀ d ∈ t.entries, ¬ d.units <+: units.drop position)) ∧
      ∀ (ds es : List Delimiter), (∀ d ∈ ds, d.marker ≠ "") →
        (ds.Pairwise fun d e => d.marker ≠ e.marker) → ds.Perm es →
          ∃ t u, Delimiters.ofList ds = .ok t ∧ Delimiters.ofList es = .ok u ∧
            ∀ (links : LinkPattern) (markup : String),
              parseNoting { delimiters? := some t, links } markup =
                parseNoting { delimiters? := some u, links } markup := by
  constructor
  · intro history t ht units position
    have hordered : t.Ordered := by
      rw [List.mem_pair] at ht
      rcases ht with rfl | rfl
      · exact Delimiters.ordered_empty.after history
      · exact Delimiters.ordered_standard.after history
    exact ⟨fun d => hordered.match?_eq_some_iff, Delimiters.match?_eq_none_iff⟩
  · intro ds es hne hdistinct hperm
    have hne' : ∀ d ∈ es, d.marker ≠ "" := fun d hd => hne d (hperm.mem_iff.mpr hd)
    have hdistinct' : es.Pairwise fun d e => d.marker ≠ e.marker :=
      hperm.pairwise hdistinct fun hde => hde.symm
    obtain ⟨t, ht, htperm⟩ := Delimiters.exists_ofList hne hdistinct
    obtain ⟨u, hu, huperm⟩ := Delimiters.exists_ofList hne' hdistinct'
    have hsame : t.entries.Perm u.entries := (htperm.trans hperm).trans huperm.symm
    refine ⟨t, u, ht, hu, fun links markup => parseWith_congr ?_ ?_ links markup⟩
    · exact (Delimiters.ordered_of_ofList ht).match?_congr (Delimiters.ordered_of_ofList hu)
        fun d => hsame.mem_iff
    · exact hsame.isEmpty_eq

/-- Two markers of two units, one of which is a single character, and one that another starts with:
in the other order they make another table, which reads the same. Behind half of a surrogate pair
the standard table finds three grave accents and not one. -/
theorem Format.parse_of_perm_overlapping :
    let ds : List Delimiter := [⟨"*", .italic⟩, ⟨"**", .bold⟩, ⟨"👋", .spoiler⟩]
    let units : List UInt16 := 0xD83D :: Utf16.ofText "````"
    (∃ t u, t ≠ u ∧ Delimiters.ofList ds = .ok t ∧ Delimiters.ofList ds.reverse = .ok u ∧
      ∀ markup, parseNoting { delimiters? := some t } markup =
        parseNoting { delimiters? := some u } markup) ∧
      (Delimiters.standard.after []).IsLongest (units.drop 1) ⟨"```", .pre⟩ := by
  intro ds units
  obtain ⟨hfinds, hreads⟩ := parse_of_perm
  obtain ⟨t, u, ht, hu, hsame⟩ := hreads ds ds.reverse (by decide) (by decide)
    (List.reverse_perm ds).symm
  refine ⟨⟨t, u, ?_, ht, hu, hsame .standard⟩, ?_⟩
  · rintro rfl
    exact absurd (ht.trans hu.symm) (by decide)
  · exact ((hfinds [] _ (by simp) units 1).1 _).mp (by decide)

end MessageMarkup
