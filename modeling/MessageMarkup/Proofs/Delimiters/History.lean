import Mathlib.Data.List.Induction
import MessageMarkup.Proofs.Delimiters
import MessageMarkup.Proofs.StableSort

/-!
# What a history of insertions leaves in a table

A table is made by inserting one delimiter after the other, and some of them are refused. Whatever
the order in which they come, it holds what sorting all of them once would give: every marker that
was inserted, with the style it was given last, the longer markers first and those of one length in
the order in which they were inserted for the first time (`Delimiters.entries_after`).

A new marker is placed in a table that is sorted already. That is what sorting does with it
(`place_mergeSort`), because a stable sort is known by the delimiters of each width, which it leaves
in their order (`StableSort`).
-/

namespace MessageMarkup.Delimiters

/-! ## Histories -/

/-- The table after an attempt to insert a delimiter. If that is refused, the table is as before. -/
def attempt (t : Delimiters) (d : Delimiter) : Delimiters :=
  match t.insert d with
  | .ok t' => t'
  | .error _ => t

/-- The table after a history of attempts. -/
def after (t : Delimiters) (ds : List Delimiter) : Delimiters :=
  ds.foldl attempt t

/-- The history of the standard table. -/
def standardHistory : List Delimiter :=
  [⟨"**", .bold⟩, ⟨"__", .italic⟩, ⟨"~~", .strikethrough⟩, ⟨"`", .code⟩, ⟨"```", .pre⟩]

/-- The markers of a history, each once, in the order in which they first come. -/
def markers (ds : List Delimiter) : List String :=
  ((ds.map (·.marker)).filter (· ≠ "")).eraseDups

/-- The style that a history gives a marker last. -/
def lastStyle? (ds : List Delimiter) (marker : String) : Option Style :=
  (ds.reverse.find? (·.marker == marker)).map (·.style)

/-- What a history leaves, in the order in which the markers first come. -/
def lasting (ds : List Delimiter) : List Delimiter :=
  (markers ds).filterMap fun marker => (lastStyle? ds marker).map fun style => ⟨marker, style⟩

/-- Longer markers come first. -/
def longest (d e : Delimiter) : Bool :=
  e.width ≤ d.width

/-- A marker is tried before another: it is longer, or as long and in the history before it. -/
def TriedBefore (ds : List Delimiter) (m n : String) : Prop :=
  (Utf16.ofText n).length < (Utf16.ofText m).length ∨
    (Utf16.ofText n).length = (Utf16.ofText m).length ∧
      (ds.map (·.marker)).idxOf m < (ds.map (·.marker)).idxOf n

variable {t : Delimiters} {ds : List Delimiter} {d : Delimiter}

/-- A delimiter is refused if its marker is empty. -/
theorem insert_eq (t : Delimiters) (d : Delimiter) :
    t.insert d = if d.marker = "" then .error .emptyMarker else .ok (t.set d) := by
  unfold insert
  simp only [String.isEmpty_iff]

/-- An attempt changes the table unless the marker is empty. -/
theorem attempt_eq (t : Delimiters) (d : Delimiter) :
    t.attempt d = if d.marker = "" then t else t.set d := by
  unfold attempt
  rw [insert_eq]
  by_cases h : d.marker = ""
  · rw [if_pos h, if_pos h]
  · rw [if_neg h, if_neg h]

/-- The last attempt of a history is made with the table that the others leave. -/
theorem after_concat (t : Delimiters) (ds : List Delimiter) (d : Delimiter) :
    t.after (ds ++ [d]) = (t.after ds).attempt d :=
  List.foldl_concat ..

/-- One history after another. -/
theorem after_append (t : Delimiters) (ds es : List Delimiter) :
    t.after (ds ++ es) = (t.after ds).after es :=
  List.foldl_append ..

/-- The standard table has its history. -/
theorem after_standardHistory : ({} : Delimiters).after standardHistory = standard := by
  decide

/-- A table that is as it should be stays so. -/
theorem Ordered.after (h : t.Ordered) (ds : List Delimiter) : (t.after ds).Ordered := by
  induction ds using List.reverseRecOn with
  | nil => exact h
  | append_singleton ds d ih =>
    rw [after_concat, attempt_eq]
    split
    · exact ih
    · rename_i hd
      exact ih.set hd

/-! ## Markers and their styles -/

/-- What comes last is not erased if it is new. -/
theorem eraseDups_concat {α : Type} [BEq α] [LawfulBEq α] [DecidableEq α] (xs : List α) (x : α) :
    (xs ++ [x]).eraseDups = if x ∈ xs then xs.eraseDups else xs.eraseDups ++ [x] := by
  rw [List.eraseDups_append, List.cons_removeAll]
  by_cases h : x ∈ xs <;> simp [h, List.removeAll, List.eraseDups_cons]

/-- An empty marker, or one that has come before, makes no difference to the markers. -/
theorem markers_concat_of_old (h : d.marker = "" ∨ d.marker ∈ markers ds) :
    markers (ds ++ [d]) = markers ds := by
  unfold markers at h ⊢
  rw [List.map_append, List.filter_append]
  by_cases hempty : d.marker = ""
  · simp [hempty]
  · have hmem := List.mem_eraseDups.mp (h.resolve_left hempty)
    have hlast : [d.marker].filter (· ≠ "") = [d.marker] := by simp [hempty]
    rw [List.map_singleton, hlast, eraseDups_concat, if_pos hmem]

/-- Any other marker comes behind those before it. -/
theorem markers_concat_of_new (hempty : d.marker ≠ "") (h : d.marker ∉ markers ds) :
    markers (ds ++ [d]) = markers ds ++ [d.marker] := by
  unfold markers at h ⊢
  have hlast : [d.marker].filter (· ≠ "") = [d.marker] := by simp [hempty]
  rw [List.map_append, List.filter_append, List.map_singleton, hlast, eraseDups_concat,
    if_neg (mt List.mem_eraseDups.mpr h)]

/-- The last style that a history gives a marker is that of the last attempt, if that is one to
insert the marker. -/
theorem lastStyle?_concat (ds : List Delimiter) (d : Delimiter) (marker : String) :
    lastStyle? (ds ++ [d]) marker =
      if d.marker = marker then some d.style else lastStyle? ds marker := by
  unfold lastStyle?
  rw [List.reverse_concat, List.find?_cons]
  by_cases h : d.marker = marker
  · rw [if_pos h, beq_iff_eq.mpr h]
    rfl
  · rw [if_neg h, beq_eq_false_iff_ne.mpr h]

/-- A marker of a history was given some style. -/
theorem exists_lastStyle? {marker : String} (h : marker ∈ markers ds) :
    ∃ style, lastStyle? ds marker = some style := by
  obtain ⟨hmem, -⟩ := List.mem_filter.mp (List.mem_eraseDups.mp h)
  obtain ⟨d, hd, rfl⟩ := List.mem_map.mp hmem
  rw [← Option.isSome_iff_exists]
  unfold lastStyle?
  rw [Option.isSome_map, List.find?_isSome]
  exact ⟨d, List.mem_reverse.mpr hd, beq_self_eq_true _⟩

/-- What a history leaves: markers of the history with the last style of each. -/
theorem mem_lasting :
    d ∈ lasting ds ↔ d.marker ∈ markers ds ∧ lastStyle? ds d.marker = some d.style := by
  unfold lasting
  simp only [List.mem_filterMap, Option.map_eq_some_iff]
  constructor
  · rintro ⟨marker, hmarker, style, hstyle, rfl⟩
    exact ⟨hmarker, hstyle⟩
  · rintro ⟨hmarker, hstyle⟩
    exact ⟨d.marker, hmarker, d.style, hstyle, Delimiter.eq_of rfl rfl⟩

/-- The delimiters that a history leaves have its markers. -/
theorem map_marker_lasting (ds : List Delimiter) : (lasting ds).map (·.marker) = markers ds := by
  unfold lasting
  rw [List.map_filterMap]
  refine (List.filterMap_congr fun marker hmarker => ?_).trans List.filterMap_some
  obtain ⟨style, hstyle⟩ := exists_lastStyle? hmarker
  rw [hstyle]
  rfl

/-- The delimiter with the style of another, if it has the same marker. -/
def restyled (d e : Delimiter) : Delimiter :=
  if e.marker == d.marker then { e with style := d.style } else e

/-- A marker that comes again gets the new style and keeps its place. -/
theorem lasting_concat_of_old (h : d.marker ∈ markers ds) :
    lasting (ds ++ [d]) = (lasting ds).map (restyled d) := by
  unfold lasting
  rw [markers_concat_of_old (Or.inr h), List.map_filterMap]
  refine List.filterMap_congr fun marker hmarker => ?_
  obtain ⟨style, hstyle⟩ := exists_lastStyle? hmarker
  rw [lastStyle?_concat, hstyle]
  unfold restyled
  by_cases heq : d.marker = marker
  · simp [heq]
  · simp [heq, Ne.symm heq]

/-- A new marker comes behind the others. -/
theorem lasting_concat_of_new (hempty : d.marker ≠ "") (h : d.marker ∉ markers ds) :
    lasting (ds ++ [d]) = lasting ds ++ [d] := by
  unfold lasting
  rw [markers_concat_of_new hempty h, List.filterMap_append]
  congr 1
  · refine List.filterMap_congr fun marker hmarker => ?_
    have hne : d.marker ≠ marker := fun heq => h (heq ▸ hmarker)
    rw [lastStyle?_concat, if_neg hne]
  · rw [List.filterMap_cons, lastStyle?_concat, if_pos rfl]
    exact congrArg ([·]) (Delimiter.eq_of rfl rfl)

/-- An empty marker leaves nothing. -/
theorem lasting_concat_of_empty (hempty : d.marker = "") : lasting (ds ++ [d]) = lasting ds := by
  unfold lasting
  rw [markers_concat_of_old (Or.inl hempty)]
  refine List.filterMap_congr fun marker hmarker => ?_
  have hne : d.marker ≠ marker := by
    obtain ⟨-, hmarker⟩ := List.mem_filter.mp (List.mem_eraseDups.mp hmarker)
    rw [hempty]
    exact Ne.symm (of_decide_eq_true hmarker)
  rw [lastStyle?_concat, if_neg hne]

/-! ## Sorting -/

/-- Lengths are compared in one direction at least. -/
theorem longest_total (d e : Delimiter) : (longest d e || longest e d) = true := by
  unfold longest
  rw [Bool.or_eq_true, decide_eq_true_eq, decide_eq_true_eq]
  exact Nat.le_total _ _

/-- What is longer than a longer one is longer. -/
theorem longest_trans (d e f : Delimiter) (hde : longest d e = true) (hef : longest e f = true) :
    longest d f = true := by
  unfold longest at hde hef ⊢
  rw [decide_eq_true_eq] at hde hef ⊢
  exact Nat.le_trans hef hde

/-- Sorted delimiters have the longer ones first. -/
theorem pairwise_sorted (ds : List Delimiter) :
    (ds.mergeSort longest).Pairwise fun d e => e.width ≤ d.width :=
  (List.pairwise_mergeSort longest_trans longest_total ds).imp of_decide_eq_true

/-- Delimiters compare equal if they have the same width. -/
theorem tied_longest (d : Delimiter) : tied longest d = (·.width == d.width) := by
  funext e
  rw [Bool.eq_iff_iff, StableSort.tied_iff, beq_iff_eq]
  unfold longest
  rw [decide_eq_true_eq, decide_eq_true_eq]
  omega

/-- Sorting leaves the delimiters of one width in their order. -/
theorem filter_mergeSort (ds : List Delimiter) (d : Delimiter) :
    (ds.mergeSort longest).filter (·.width == d.width) = ds.filter (·.width == d.width) := by
  rw [← tied_longest]
  exact (StableSort.of_mergeSort longest_trans longest_total ds).stable d

/-- A delimiter is placed behind those of its width. -/
theorem filter_place {ds : List Delimiter} (h : ds.Pairwise fun d e => e.width ≤ d.width)
    (d : Delimiter) (n : Nat) :
    (place d ds).filter (·.width == n) = (ds ++ [d]).filter (·.width == n) := by
  induction ds with
  | nil => rfl
  | cons e es ih =>
    obtain ⟨he, hes⟩ := List.pairwise_cons.mp h
    unfold place
    split
    · rw [List.cons_append, List.filter_cons, List.filter_cons, ih hes]
    · -- It is placed before all others, which are shorter.
      rename_i hlt
      by_cases hd : d.width = n
      · have hnone : (e :: es).filter (·.width == n) = [] := by
          rw [List.filter_eq_nil_iff]
          intro f hf
          rw [beq_iff_eq]
          rcases List.mem_cons.mp hf with rfl | hf
          · omega
          · have := he f hf
            omega
        rw [List.filter_append, hnone, List.filter_cons, hnone]
        simp [hd]
      · simp [List.filter_append, List.filter_cons, hd]

/-- To place a delimiter in sorted ones is to sort them with it behind them. -/
theorem place_mergeSort (ds : List Delimiter) (d : Delimiter) :
    place d (ds.mergeSort longest) = (ds ++ [d]).mergeSort longest := by
  refine StableSort.eq_mergeSort longest_trans longest_total ⟨?_, fun e => ?_⟩
  · exact (pairwise_width_place (pairwise_sorted ds)).imp decide_eq_true
  · rw [tied_longest, filter_place (pairwise_sorted ds), List.filter_append, filter_mergeSort,
      List.filter_append]

/-! ## Tables -/

/-- Another style leaves a delimiter its width. -/
theorem width_restyled (d e : Delimiter) : (restyled d e).width = e.width := by
  unfold restyled
  split <;> rfl

/-- A marker is in a table that holds what a history leaves if it is one of the history. -/
theorem any_marker_iff (h : t.entries = (lasting ds).mergeSort longest) (marker : String) :
    t.entries.any (·.marker == marker) = true ↔ marker ∈ markers ds := by
  rw [h, List.any_eq_true, ← map_marker_lasting, List.mem_map]
  simp only [List.mem_mergeSort, beq_iff_eq]

/-- The table that a history makes of the empty one holds what the history leaves, sorted. -/
theorem entries_after (ds : List Delimiter) :
    (({} : Delimiters).after ds).entries = (lasting ds).mergeSort longest := by
  induction ds using List.reverseRecOn with
  | nil => exact List.mergeSort_nil.symm
  | append_singleton ds d ih =>
    rw [after_concat, attempt_eq]
    split
    · rename_i hempty
      rw [ih, lasting_concat_of_empty hempty]
    · rename_i hempty
      unfold set
      split
      · -- The marker is there already: its style changes, and the order does not.
        rename_i hold
        rw [lasting_concat_of_old ((any_marker_iff ih _).mp hold)]
        show List.map (restyled d) _ = _
        rw [ih]
        refine List.map_mergeSort fun e _ f _ => ?_
        unfold longest
        rw [width_restyled, width_restyled]
      · rename_i hnew
        rw [lasting_concat_of_new hempty (mt (any_marker_iff ih _).mpr hnew), ← place_mergeSort]
        exact congrArg (place d) ih

/-- The markers of a history come in the order in which they were first inserted. -/
theorem pairwise_idxOf_markers (ds : List Delimiter) :
    (markers ds).Pairwise fun m n =>
      (ds.map (·.marker)).idxOf m < (ds.map (·.marker)).idxOf n := by
  induction ds using List.reverseRecOn with
  | nil => exact List.Pairwise.nil
  | append_singleton ds d ih =>
    have hmem {m : String} (h : m ∈ markers ds) : m ∈ ds.map (·.marker) :=
      (List.mem_filter.mp (List.mem_eraseDups.mp h)).1
    have hold : (markers ds).Pairwise fun m n =>
        ((ds ++ [d]).map (·.marker)).idxOf m < ((ds ++ [d]).map (·.marker)).idxOf n := by
      refine ih.imp_of_mem fun {m n} hm hn hlt => ?_
      rwa [List.map_append, List.idxOf_append_of_mem (hmem hm), List.idxOf_append_of_mem (hmem hn)]
    by_cases hd : d.marker = "" ∨ d.marker ∈ markers ds
    · rw [markers_concat_of_old hd]
      exact hold
    · rw [not_or] at hd
      rw [markers_concat_of_new hd.1 hd.2, List.pairwise_append]
      refine ⟨hold, List.pairwise_singleton _ _, fun m hm n hn => ?_⟩
      -- The new marker is found behind all of the old history.
      obtain rfl := List.mem_singleton.mp hn
      have hnew : d.marker ∉ ds.map (·.marker) := fun h =>
        hd.2 (List.mem_eraseDups.mpr (List.mem_filter.mpr ⟨h, decide_eq_true hd.1⟩))
      rw [List.map_append, List.idxOf_append_of_mem (hmem hm), List.idxOf_append_of_notMem hnew]
      exact Nat.lt_add_right _ (List.idxOf_lt_length_of_mem (hmem hm))

/-- Sorted, what a history leaves is in the order in which it is to be tried. -/
theorem pairwise_triedBefore (ds : List Delimiter) :
    ((lasting ds).mergeSort longest).Pairwise fun d e => TriedBefore ds d.marker e.marker := by
  have hfirst : (lasting ds).Pairwise fun d e =>
      (ds.map (·.marker)).idxOf d.marker < (ds.map (·.marker)).idxOf e.marker := by
    have := pairwise_idxOf_markers ds
    rwa [← map_marker_lasting, List.pairwise_map] at this
  have hmarker (c : Delimiter) : c.width = (Utf16.ofText c.marker).length :=
    congrArg List.length c.units_eq
  rw [List.pairwise_iff_forall_sublist]
  intro d e hsub
  have hle : e.width ≤ d.width := List.pairwise_iff_forall_sublist.mp (pairwise_sorted _) hsub
  unfold TriedBefore
  rw [← hmarker, ← hmarker]
  rcases Nat.lt_or_eq_of_le hle with hlt | heq
  · exact Or.inl hlt
  · -- Two of one width are in the order of the history.
    refine Or.inr ⟨heq, ?_⟩
    have hwidth := hsub.filter (·.width == d.width)
    rw [filter_mergeSort, List.filter_cons_of_pos (by rw [beq_iff_eq]),
      List.filter_cons_of_pos (by rw [beq_iff_eq]; exact heq), List.filter_nil] at hwidth
    exact List.pairwise_iff_forall_sublist.mp hfirst (hwidth.trans List.filter_sublist)

/-! ## Markers of styles -/

/-- Of two markers only one is tried before the other. -/
theorem TriedBefore.asymm {m n : String} (h : TriedBefore ds m n) : ¬ TriedBefore ds n m := by
  unfold TriedBefore at h ⊢
  omega

/-- The marker that a table writes a style with is one that has the style, and all others that have
it are tried later. -/
theorem of_markerFor?_eq_some (h : t.entries = (lasting ds).mergeSort longest) {style : Style}
    {m : String} (hm : t.markerFor? style = some m) :
    (m ∈ markers ds ∧ lastStyle? ds m = some style) ∧
      ∀ n ∈ markers ds, lastStyle? ds n = some style → n ≠ m → TriedBefore ds m n := by
  obtain ⟨d, hfind, rfl⟩ := Option.map_eq_some_iff.mp hm
  obtain ⟨hd, before, behind, hentries, hbefore⟩ := List.find?_eq_some_iff_append.mp hfind
  obtain rfl := beq_iff_eq.mp hd
  have hsorted := pairwise_triedBefore ds
  rw [← h, hentries, List.pairwise_append, List.pairwise_cons] at hsorted
  constructor
  · have hmem : d ∈ t.entries := List.mem_of_find?_eq_some hfind
    rw [h, List.mem_mergeSort] at hmem
    exact mem_lasting.mp hmem
  · intro n hn hstyle hne
    have hmem : (⟨n, d.style⟩ : Delimiter) ∈ t.entries := by
      rw [h, List.mem_mergeSort]
      exact mem_lasting.mpr ⟨hn, hstyle⟩
    rw [hentries, List.mem_append, List.mem_cons] at hmem
    -- It is not before the one that was found, since that is the first with the style.
    rcases hmem with hmem | heq | hmem
    · exact absurd (hbefore _ hmem) (by simp)
    · exact absurd (congrArg Delimiter.marker heq) hne
    · exact hsorted.2.1.1 _ hmem

/-- A table writes a style with a marker unless none has it. -/
theorem markerFor?_eq_none_iff (h : t.entries = (lasting ds).mergeSort longest) {style : Style} :
    t.markerFor? style = none ↔ ∀ m ∈ markers ds, lastStyle? ds m ≠ some style := by
  unfold markerFor?
  rw [Option.map_eq_none_iff, List.find?_eq_none, h]
  simp only [List.mem_mergeSort, beq_iff_eq]
  constructor
  · intro hnone m hm hstyle
    exact hnone ⟨m, style⟩ (mem_lasting.mpr ⟨hm, hstyle⟩) rfl
  · rintro hnone d hd rfl
    obtain ⟨hm, hstyle⟩ := mem_lasting.mp hd
    exact hnone d.marker hm hstyle

/-- The marker that a table writes a style with is the one that is tried first of those that have
the style. -/
theorem markerFor?_eq_some_iff (h : t.entries = (lasting ds).mergeSort longest) {style : Style}
    {m : String} : t.markerFor? style = some m ↔
      (m ∈ markers ds ∧ lastStyle? ds m = some style) ∧
        ∀ n ∈ markers ds, lastStyle? ds n = some style → n ≠ m → TriedBefore ds m n := by
  refine ⟨of_markerFor?_eq_some h, fun ⟨⟨hm, hstyle⟩, hfirst⟩ => ?_⟩
  cases hfound : t.markerFor? style with
  | none => exact absurd hstyle ((markerFor?_eq_none_iff h).mp hfound m hm)
  | some n =>
    -- If it were another, each of the two would be tried before the other.
    obtain ⟨⟨hn, hstyle'⟩, hfirst'⟩ := of_markerFor?_eq_some h hfound
    by_contra hne
    have hne' : n ≠ m := fun heq => hne (congrArg some heq)
    exact (hfirst n hn hstyle' hne').asymm (hfirst' m hm hstyle (Ne.symm hne'))

/-! ## What a history leaves -/

/-- A table of some delimiters is made unless a marker is empty. -/
theorem foldlM_insert_eq (t : Delimiters) (ds : List Delimiter) :
    ds.foldlM insert t =
      if ∃ d ∈ ds, d.marker = "" then .error .emptyMarker else .ok (t.after ds) := by
  induction ds generalizing t with
  | nil => simp [after]; rfl
  | cons d ds ih =>
    rw [List.foldlM_cons, insert_eq]
    by_cases hd : d.marker = ""
    · rw [if_pos hd, if_pos ⟨d, List.mem_cons_self, hd⟩]
      rfl
    · have hafter : t.after (d :: ds) = (t.set d).after ds := by
        unfold after
        rw [List.foldl_cons, attempt_eq, if_neg hd]
      rw [if_neg hd, hafter]
      simp only [List.mem_cons, exists_eq_or_imp, hd, false_or]
      exact ih (t.set d)

/-- A table is what a history leaves. -/
structure LeftBy (t : Delimiters) (ds : List Delimiter) : Prop where
  /-- No marker is empty. -/
  marker_ne : ∀ d ∈ t.entries, d.marker ≠ ""
  /-- No marker comes twice. -/
  distinct : t.entries.Pairwise fun d e => d.marker ≠ e.marker
  /-- The units that are kept with a delimiter are those of its marker. -/
  units_eq : ∀ d ∈ t.entries, d.units = Utf16.ofText d.marker
  /-- The table holds the markers of the history, each with its last style, sorted by their numbers
  of units, and those of one length as they come in the history. -/
  entries_eq : t.entries = (lasting ds).mergeSort longest
  /-- A style is written with the marker that is tried first of those that have it. -/
  markerFor?_eq_some_iff : ∀ style m, t.markerFor? style = some m ↔
    (m ∈ markers ds ∧ lastStyle? ds m = some style) ∧
      ∀ n ∈ markers ds, lastStyle? ds n = some style → n ≠ m → TriedBefore ds m n
  /-- It is not written if no marker has it. -/
  markerFor?_eq_none_iff : ∀ style, t.markerFor? style = none ↔
    ∀ m ∈ markers ds, lastStyle? ds m ≠ some style

/-- The table that a history makes of the empty one is what the history leaves. -/
theorem leftBy_after (ds : List Delimiter) : (({} : Delimiters).after ds).LeftBy ds where
  marker_ne := (ordered_empty.after ds).marker_ne
  distinct := (ordered_empty.after ds).distinct
  units_eq d _ := d.units_eq
  entries_eq := entries_after ds
  markerFor?_eq_some_iff _ _ := markerFor?_eq_some_iff (entries_after ds)
  markerFor?_eq_none_iff _ := markerFor?_eq_none_iff (entries_after ds)

/-- Whatever was tried to insert in the empty or in the standard table, and whether or not the table
took it, it is what the history leaves. A delimiter is refused if and only if its marker is empty,
which leaves the table as it is, and a list of them if that holds for one of the list; otherwise
the list makes the table that is left by its history. -/
theorem table_leftBy_history (ds : List Delimiter) :
    (({} : Delimiters).after ds).LeftBy ds ∧
      (standard.after ds).LeftBy (standardHistory ++ ds) ∧
      (∀ (t : Delimiters) (d : Delimiter),
        t.insert d = (if d.marker = "" then .error .emptyMarker else .ok (t.attempt d)) ∧
          (d.marker = "" → t.attempt d = t)) ∧
      ofList ds = if ∃ d ∈ ds, d.marker = "" then .error .emptyMarker
        else .ok (({} : Delimiters).after ds) := by
  refine ⟨leftBy_after ds, ?_, fun t d => ?_, foldlM_insert_eq {} ds⟩
  · rw [← after_standardHistory, ← after_append]
    exact leftBy_after _
  · rw [insert_eq, attempt_eq]
    refine ⟨?_, fun hd => if_pos hd⟩
    by_cases hd : d.marker = ""
    · rw [if_pos hd, if_pos hd]
    · rw [if_neg hd, if_neg hd, if_neg hd]

/-- A history in which a marker comes again with another style, one is refused, and two have two
units each although one of them is a single character. -/
theorem table_leftBy_history_again :
    let ds : List Delimiter :=
      [⟨"*", .bold⟩, ⟨"", .code⟩, ⟨"👋", .italic⟩, ⟨"||", .spoiler⟩, ⟨"*", .spoiler⟩]
    let t := ({} : Delimiters).after ds
    t.markerFor? .spoiler = some "||" ∧ t.markerFor? .bold = none ∧ t.attempt ⟨"", .code⟩ = t ∧
      ofList ds = .error .emptyMarker := by
  intro ds t
  obtain ⟨hleft, -, hinsert, hlist⟩ := table_leftBy_history ds
  refine ⟨?_, ?_, (hinsert t ⟨"", .code⟩).2 rfl, hlist.trans (if_pos (by decide))⟩
  · rw [hleft.markerFor?_eq_some_iff]
    exact ⟨by decide, by unfold TriedBefore; decide⟩
  · rw [hleft.markerFor?_eq_none_iff]
    decide

end MessageMarkup.Delimiters
