import MessageMarkup.Proofs.Entity.Trim
import MessageMarkup.Proofs.Format.Flat
import MessageMarkup.Proofs.Format.Writing

/-!
# Flat documents

A flat document is a list of segments: plain text, words between markers, and links. With any table
whose markers contain no bracket, a document whose plain text and words contain nothing of a marker
is read as what it says (`Format.parse_flat`): its text without the blanks around it, and one entity
for every word and link, at its place. What was read is written and read again without a change.

Trimming a document gives a document, because only plain text has blanks (`Segment.exists_trimmed`).
Writing it gives the document in which each style has the marker that the table has for it, which
may be another one (`Segment.canonical`).
-/

namespace MessageMarkup

/-! ## Segments -/

/-- A piece of a flat document. -/
inductive Segment where
  /-- Plain text. -/
  | plain (text : List Char)
  /-- A word between two markers. -/
  | word (d : Delimiter) (text : List Char)
  /-- A link. -/
  | link (label : List Char) (url : String)
  deriving DecidableEq, Repr, Inhabited

namespace Segment

/-- How a segment is marked, if it is. -/
def mark? : Segment → Option Mark
  | plain _ => none
  | word d _ => some (.pair d)
  | link _ url => some (.link url)

/-- The text of a segment without its marks. -/
def text : Segment → List Char
  | plain text | word _ text => text
  | link label _ => label

/-- The markup of a segment. -/
def rendered : Segment → List Char
  | plain text => text
  | word d text => d.marker.toList ++ (text ++ d.marker.toList)
  | link label url => LinkPattern.written label url.toList

/-- The segments that a flat document may have. -/
inductive Fits (table : Delimiters) : Segment → Prop where
  /-- Plain text contains nothing of a marker and no bracket that opens. -/
  | plain {text : List Char} : (∀ c ∈ text, table.IsPlain c) → Fits table (plain text)
  /-- A word is plain and has no blanks. -/
  | word {d : Delimiter} {text : List Char} : d ∈ table.entries → text ≠ [] →
    (∀ c ∈ text, table.IsPlain c) → (∀ c ∈ text, isBlank c = false) → Fits table (word d text)
  /-- A label has no blanks, and neither label nor url contains what ends it. -/
  | link {label : List Char} {url : String} : label ≠ [] → (∀ c ∈ label, isBlank c = false) →
    ']' ∉ label → url ≠ "" → ')' ∉ url.toList → Fits table (link label url)

/-- The text of a document. -/
def texts (segments : List Segment) : List Char :=
  segments.flatMap text

/-- The markup of a document. -/
def render (segments : List Segment) : List Char :=
  segments.flatMap rendered

/-- The spans of the words and links of a document, the text of which starts at `p`. -/
def spansFrom : Nat → List Segment → List Span
  | _, [] => []
  | p, s :: more =>
    (s.mark?.map fun mark => ⟨p, Utf16.length s.text, mark⟩).toList ++
      spansFrom (p + Utf16.length s.text) more

variable {table : Delimiters}

/-- What is marked may be, and is not empty. -/
theorem Fits.holds {s : Segment} (h : s.Fits table) {mark : Mark} (hmark : s.mark? = some mark) :
    mark.Holds table s.text ∧ s.text ≠ [] := by
  cases h with
  | plain _ => cases hmark
  | word hd hne hplain _ =>
    cases hmark
    exact ⟨⟨hd, hplain⟩, hne⟩
  | link hne _ hlabel _ hurl =>
    cases hmark
    exact ⟨⟨hlabel, hurl⟩, hne⟩

/-- What is not marked is its own markup. -/
theorem rendered_of_none {s : Segment} (h : s.mark? = none) : s.rendered = s.text := by
  cases s with
  | plain _ => rfl
  | word _ _ => cases h
  | link _ _ => cases h

/-- What is marked stands between its marks. -/
theorem rendered_of_some {s : Segment} {mark : Mark} (h : s.mark? = some mark) :
    s.rendered = mark.before ++ (s.text ++ mark.after) := by
  cases s with
  | plain _ => cases h
  | word _ _ =>
    cases h
    rfl
  | link _ _ =>
    cases h
    rfl

/-- The spans of a document do not touch. -/
theorem flat_spansFrom {segments : List Segment} (h : ∀ s ∈ segments, s.Fits table) (p : Nat) :
    Flat table p (texts segments) (spansFrom p segments) := by
  induction segments generalizing p with
  | nil => exact Flat.nil table p
  | cons s more ih =>
    have hs := h s List.mem_cons_self
    have hmore := ih (fun t ht => h t (List.mem_cons_of_mem s ht)) (p + Utf16.length s.text)
    unfold spansFrom
    show Flat table p (s.text ++ texts more) _
    cases hmark : s.mark? with
    | none =>
      refine hmore.plain ?_
      cases hs with
      | plain hplain => exact hplain
      | word _ _ _ _ => cases hmark
      | link _ _ _ _ _ => cases hmark
    | some mark =>
      obtain ⟨hholds, hne⟩ := hs.holds hmark
      exact hmore.cons hne hholds

/-- The markup of a document is that of its spans. -/
theorem markup_spansFrom {segments : List Segment} (h : ∀ s ∈ segments, s.Fits table) (p : Nat) :
    markup (spansFrom p segments) p (texts segments) = render segments := by
  induction segments generalizing p with
  | nil => rfl
  | cons s more ih =>
    have hs := h s List.mem_cons_self
    have hfits : ∀ t ∈ more, t.Fits table := fun t ht => h t (List.mem_cons_of_mem s ht)
    have hrest := ih hfits (p + Utf16.length s.text)
    have hflat := flat_spansFrom hfits (p + Utf16.length s.text)
    -- The other spans are behind the text of the first segment.
    have hplain : markup (spansFrom (p + Utf16.length s.text) more) p s.text = s.text := by
      apply markup_of_apart
      intro t ht
      have := hflat.bounds ht
      omega
    show markup _ p (s.text ++ texts more) = s.rendered ++ render more
    unfold spansFrom
    cases hmark : s.mark? with
    | none =>
      rw [Option.map_none, Option.toList_none, List.nil_append, markup_append, hplain, hrest,
        rendered_of_none hmark]
    | some mark =>
      have hcons : markup (⟨p, Utf16.length s.text, mark⟩ ::
          spansFrom (p + Utf16.length s.text) more) p (s.text ++ texts more) = _ :=
        markup_cons_append rfl (hs.holds hmark).2 (texts more)
      -- Its own marks stand around it.
      rw [Option.map_some, Option.toList_some, List.singleton_append, hcons]
      simp only
      rw [hplain, hrest, rendered_of_some hmark, List.append_assoc, List.append_assoc]

/-! ## Trimming a document -/

/-- The spans of a document further on in a text. -/
theorem spansFrom_add (p k : Nat) (segments : List Segment) :
    spansFrom (k + p) segments =
      (spansFrom p segments).map fun s => { s with offset := k + s.offset } := by
  induction segments generalizing p with
  | nil => rfl
  | cons s more ih =>
    unfold spansFrom
    rw [Nat.add_assoc, ih, List.map_append]
    cases s.mark? <;> rfl

/-- A document that does not start with a blank has none to drop from its start. -/
theorem dropWhile_texts_cons {s : Segment} (hne : s.text ≠ [])
    (hblank : ∀ c ∈ s.text, isBlank c = false) (more : List Segment) :
    (texts (s :: more)).dropWhile isBlank = texts (s :: more) ∧
      leadingBlanks (texts (s :: more)) = 0 := by
  obtain ⟨c, cs, hc⟩ := List.exists_cons_of_ne_nil hne
  have htext : texts (s :: more) = c :: (cs ++ texts more) := by
    show s.text ++ texts more = _
    rw [hc]
    rfl
  have hblank' := hblank c (hc ▸ List.mem_cons_self)
  rw [htext]
  constructor
  · rw [List.dropWhile_cons, hblank', if_neg Bool.false_ne_true]
  · apply leadingBlanks_eq_zero
    intro d hd
    rw [← Option.some.inj hd]
    exact hblank'

/-- A document without the blanks at its start is a document. -/
theorem exists_dropWhile {segments : List Segment} (h : ∀ s ∈ segments, s.Fits table) (p : Nat) :
    ∃ trimmed : List Segment, (∀ s ∈ trimmed, s.Fits table) ∧
      texts trimmed = (texts segments).dropWhile isBlank ∧
      spansFrom (p + leadingBlanks (texts segments)) trimmed = spansFrom p segments := by
  induction segments generalizing p with
  | nil => exact ⟨[], h, rfl, rfl⟩
  | cons s more ih =>
    have hs := h s List.mem_cons_self
    have hmore : ∀ t ∈ more, t.Fits table := fun t ht => h t (List.mem_cons_of_mem s ht)
    -- A word or a label has no blanks, and so the document stays as it is.
    have hkeep (hne : s.text ≠ []) (hblank : ∀ c ∈ s.text, isBlank c = false) :
        ∃ trimmed : List Segment, (∀ s ∈ trimmed, s.Fits table) ∧
          texts trimmed = (texts (s :: more)).dropWhile isBlank ∧
          spansFrom (p + leadingBlanks (texts (s :: more))) trimmed = spansFrom p (s :: more) := by
      obtain ⟨hdrop, hnone⟩ := dropWhile_texts_cons hne hblank more
      refine ⟨s :: more, h, hdrop.symm, ?_⟩
      rw [hnone, Nat.add_zero]
    cases hs with
    | word hd hne hplain hblank => exact hkeep hne hblank
    | link hne hblank hlabel hurl' hurl => exact hkeep hne hblank
    | @plain xs hplain =>
      have htext : texts (plain xs :: more) = xs ++ texts more := rfl
      rw [htext]
      by_cases hall : xs.dropWhile isBlank = []
      · -- The plain text goes, and so may some of what follows.
        rw [List.dropWhile_eq_nil_iff] at hall
        obtain ⟨trimmed, hfits, htexts, hspans⟩ := ih hmore (p + Utf16.length xs)
        refine ⟨trimmed, hfits, ?_, ?_⟩
        · rw [List.dropWhile_append_of_pos hall, htexts]
        · rw [leadingBlanks_append_of_forall hall, ← Nat.add_assoc, hspans]
          rfl
      · -- It keeps what follows its blanks.
        refine ⟨plain (xs.dropWhile isBlank) :: more, ?_, ?_, ?_⟩
        · intro t ht
          rcases List.mem_cons.mp ht with rfl | ht
          · exact Fits.plain fun c hc => hplain c ((List.dropWhile_suffix _).subset hc)
          · exact hmore t ht
        · rw [List.dropWhile_append, if_neg (by rwa [List.isEmpty_iff])]
          rfl
        · rw [leadingBlanks_append_of_ne hall]
          unfold spansFrom
          show spansFrom (p + _ + Utf16.length (xs.dropWhile isBlank)) more =
            spansFrom (p + Utf16.length xs) more
          rw [Nat.add_assoc, leadingBlanks_add_length]

/-- The spans of two documents, one after the other. -/
theorem spansFrom_append (p : Nat) (first second : List Segment) :
    spansFrom p (first ++ second) =
      spansFrom p first ++ spansFrom (p + Utf16.length (texts first)) second := by
  induction first generalizing p with
  | nil => rfl
  | cons s more ih =>
    have htext : texts (s :: more) = s.text ++ texts more := rfl
    rw [List.cons_append, spansFrom, ih, spansFrom, htext, Utf16.length_append, List.append_assoc,
      Nat.add_assoc]

/-- The text of two documents, one after the other. -/
theorem texts_append (first second : List Segment) :
    texts (first ++ second) = texts first ++ texts second :=
  List.flatMap_append

/-- A document without the blanks at its end is a document. -/
theorem exists_rdropWhile {segments : List Segment} (h : ∀ s ∈ segments, s.Fits table) (p : Nat) :
    ∃ trimmed : List Segment, (∀ s ∈ trimmed, s.Fits table) ∧
      texts trimmed = (texts segments).rdropWhile isBlank ∧
      spansFrom p trimmed = spansFrom p segments := by
  induction segments using List.reverseRecOn with
  | nil => exact ⟨[], h, rfl, rfl⟩
  | append_singleton more s ih =>
    have hs := h s (List.mem_append_right more List.mem_cons_self)
    have hmore : ∀ t ∈ more, t.Fits table := fun t ht => h t (List.mem_append_left [s] ht)
    have htext : texts (more ++ [s]) = texts more ++ s.text := by
      rw [texts_append]
      exact congrArg (texts more ++ ·) (List.append_nil s.text)
    -- A document that does not end with a blank stays as it is.
    have hkeep (hne : s.text ≠ []) (hblank : ∀ c ∈ s.text, isBlank c = false) :
        ∃ trimmed : List Segment, (∀ s ∈ trimmed, s.Fits table) ∧
          texts trimmed = (texts (more ++ [s])).rdropWhile isBlank ∧
          spansFrom p trimmed = spansFrom p (more ++ [s]) := by
      refine ⟨more ++ [s], h, ?_, rfl⟩
      have hlast := List.eq_nil_or_concat s.text
      rcases hlast with hnil | ⟨cs, c, hc⟩
      · exact absurd hnil hne
      · have hblank' := hblank c (by rw [hc, List.concat_eq_append]; simp)
        rw [htext, hc, List.concat_eq_append, ← List.append_assoc, List.rdropWhile_concat, hblank',
          if_neg Bool.false_ne_true]
    cases hs with
    | word hd hne hplain hblank => exact hkeep hne hblank
    | link hne hblank hlabel hurl' hurl => exact hkeep hne hblank
    | @plain xs hplain =>
      have hspans (ys : List Char) : spansFrom p (more ++ [plain ys]) = spansFrom p more := by
        rw [spansFrom_append]
        exact List.append_nil _
      rw [htext]
      show ∃ trimmed : List Segment, _ ∧ texts trimmed = (texts more ++ xs).rdropWhile isBlank ∧ _
      rw [rdropWhile_append, hspans]
      by_cases hall : xs.rdropWhile isBlank = []
      · -- The plain text goes, and so may some of what precedes it.
        obtain ⟨trimmed, hfits, htexts, hspans'⟩ := ih hmore
        rw [if_pos hall]
        exact ⟨trimmed, hfits, htexts, hspans'⟩
      · -- It keeps what precedes its blanks.
        rw [if_neg hall]
        refine ⟨more ++ [plain (xs.rdropWhile isBlank)], ?_, ?_, hspans _⟩
        · intro t ht
          rcases List.mem_append.mp ht with ht | ht
          · exact hmore t ht
          · rw [List.mem_singleton.mp ht]
            exact Fits.plain fun c hc => hplain c ((List.rdropWhile_prefix _ _).subset hc)
        · rw [texts_append]
          exact congrArg (texts more ++ ·) (List.append_nil _)

/-- A document without the blanks around it is a document: its text is trimmed, and its spans are
moved with it. -/
theorem exists_trimmed {segments : List Segment} (h : ∀ s ∈ segments, s.Fits table) :
    ∃ trimmed : List Segment, (∀ s ∈ trimmed, s.Fits table) ∧
      texts trimmed = trimChars (texts segments) ∧
      spansFrom (leadingBlanks (texts segments)) trimmed = spansFrom 0 segments := by
  obtain ⟨behind, hbehind, htexts, hspans⟩ := exists_dropWhile h 0
  obtain ⟨trimmed, htrimmed, htexts', hspans'⟩ :=
    exists_rdropWhile hbehind (0 + leadingBlanks (texts segments))
  refine ⟨trimmed, htrimmed, ?_, ?_⟩
  · rw [htexts', htexts]
    rfl
  · rw [← hspans, ← hspans', Nat.zero_add]

/-- The spans of a document are in its text. -/
theorem stop_le {segments : List Segment} (h : ∀ s ∈ segments, s.Fits table) {s : Span}
    (hs : s ∈ spansFrom 0 segments) : s.stop ≤ Utf16.length (texts segments) := by
  obtain ⟨xs, ys, zs, htext, -, hoffset, hlen, -⟩ := (flat_spansFrom h 0).covers s hs
  rw [htext, Utf16.length_append, Utf16.length_append]
  unfold Span.stop
  omega

/-- What trimming makes of the message of a document is that of the trimmed document. -/
theorem trim_eq {segments trimmed : List Segment} (h : ∀ s ∈ trimmed, s.Fits table)
    (htexts : texts trimmed = trimChars (texts segments))
    (hspans : spansFrom (leadingBlanks (texts segments)) trimmed = spansFrom 0 segments) :
    Message.trim ⟨String.ofList (texts segments), (spansFrom 0 segments).map Span.entity⟩ =
      ⟨String.ofList (texts trimmed), (spansFrom 0 trimmed).map Span.entity⟩ := by
  -- The spans of the trimmed document are those of the document, moved by the blanks before them.
  have hmoved : spansFrom 0 segments = (spansFrom 0 trimmed).map fun s =>
      { s with offset := leadingBlanks (texts segments) + s.offset } := by
    rw [← hspans, ← spansFrom_add, Nat.add_zero]
  rw [Message.trim_ofList, hmoved, ← htexts, List.map_map, List.filterMap_map,
    ← List.filterMap_eq_map]
  congr 1
  refine List.filterMap_congr fun s hs => ?_
  have hbounds := (flat_spansFrom h 0).bounds hs
  have hstop := stop_le h hs
  unfold Span.stop at hbounds hstop
  show Entity.clip? _ _ ⟨_ + s.offset, s.length, s.mark.kind⟩ = _
  rw [Entity.clip?_of_inside]
  · show some (Entity.mk _ _ _) = some (Entity.mk _ _ _)
    rw [Nat.add_sub_cancel_left]
  · show 0 < s.length
    omega
  · exact Nat.le_add_right _ _
  · show leadingBlanks (texts segments) + s.offset + s.length ≤ _
    omega

/-! ## Writing a document -/

/-- A segment with the marker with which its style is written. -/
def canonical (table : Delimiters) : Segment → Segment
  | word d text => word ((table.entries.find? (·.style == d.style)).getD d) text
  | s => s

/-- Only the marks are different. -/
@[simp] theorem text_canonical (table : Delimiters) (s : Segment) :
    (s.canonical table).text = s.text := by
  cases s <;> rfl

/-- What a segment is marked with is what its kind is written with. -/
theorem Fits.canonical {s : Segment} (h : s.Fits table) :
    (s.canonical table).Fits table ∧
      (s.canonical table).mark? = s.mark?.bind (fun mark => table.mark? mark.kind) ∧
      (s.canonical table).mark?.map Mark.kind = s.mark?.map Mark.kind := by
  cases h with
  | plain hplain => exact ⟨Fits.plain hplain, rfl, rfl⟩
  | @word d text hd hne hplain hblank =>
    -- The table has a marker for the style, since it has this one.
    obtain ⟨e, he, hstyle, hfind⟩ := Delimiters.exists_find?_of_mem hd
    have hcanonical : (Segment.word d text).canonical table = .word e text := by
      show Segment.word ((table.entries.find? (·.style == d.style)).getD d) text = _
      rw [hfind]
      rfl
    rw [hcanonical]
    refine ⟨Fits.word he hne hplain hblank, ?_, ?_⟩
    · show some (Mark.pair e) = table.mark? d.style.kind
      rw [Delimiters.mark?_kind, hfind]
      rfl
    · show some e.style.kind = some d.style.kind
      rw [hstyle]
  | link hne hblank hlabel hurl' hurl =>
    exact ⟨Fits.link hne hblank hlabel hurl' hurl, (table.mark?_textUrl hurl').symm, rfl⟩

/-- A document is written as the document with the markers with which its styles are written. -/
theorem spans_entities {segments : List Segment} (h : ∀ s ∈ segments, s.Fits table) (p : Nat) :
    table.spans ((spansFrom p segments).map Span.entity) =
        spansFrom p (segments.map (canonical table)) ∧
      (spansFrom p (segments.map (canonical table))).map Span.entity =
        (spansFrom p segments).map Span.entity := by
  induction segments generalizing p with
  | nil => exact ⟨rfl, rfl⟩
  | cons s more ih =>
    obtain ⟨-, hmark, hkind⟩ := (h s List.mem_cons_self).canonical
    obtain ⟨hspans, hentities⟩ := ih (fun t ht => h t (List.mem_cons_of_mem s ht))
      (p + Utf16.length s.text)
    unfold Delimiters.spans at hspans ⊢
    rw [List.map_cons, spansFrom, spansFrom, text_canonical, List.map_append, List.map_append,
      List.filterMap_append, hspans, hentities, hmark]
    cases hs : s.mark? with
    | none => exact ⟨rfl, rfl⟩
    | some mark =>
      rw [hmark, hs] at hkind
      rw [Option.bind_some, Option.map_some] at hkind
      -- The mark it is written with may be another one, but is of the same kind.
      obtain ⟨mark', hmark', hkind'⟩ := Option.map_eq_some_iff.mp hkind
      have hspan : table.span? ⟨p, Utf16.length s.text, mark.kind⟩ =
          some ⟨p, Utf16.length s.text, mark'⟩ := by
        unfold Delimiters.span?
        rw [hmark']
        rfl
      simp [Span.entity, hspan, hmark', hkind']

/-! ## Reading a document -/

/-- A document is read as its text and its spans, without the blanks around it. -/
theorem parse_render {f : Format} (hlinks : f.links = .standard) (ht : f.table.Ordered)
    (hne : f.table.entries ≠ []) (hbracket : ∀ d ∈ f.table.entries, '[' ∉ d.marker.toList)
    {segments : List Segment} (h : ∀ s ∈ segments, s.Fits f.table) :
    f.parse (String.ofList (render segments)) =
      Message.trim ⟨String.ofList (texts segments), (spansFrom 0 segments).map Span.entity⟩ := by
  rw [← markup_spansFrom h 0]
  exact Format.parse_markup hlinks (ht.apart hbracket) hne
    ((flat_spansFrom h 0).legible ht hbracket)

end Segment

/-- With any table whose markers contain no bracket, a document of plain text, words between markers
and links is read as its text without the blanks around it, with one entity for every word and link:
its offset is that in the whole text, less the blanks before the text that is left. What was read is
written and read again without a change. -/
theorem Format.parse_flat {f : Format} {ds : List Delimiter}
    (htable : Delimiters.ofList ds = .ok f.table) (hne : f.table.isEmpty = false)
    (hbracket : ∀ d ∈ f.table.entries, '[' ∉ d.marker.toList) (hlinks : f.links = .standard)
    {segments : List Segment} (h : ∀ s ∈ segments, s.Fits f.table) :
    let text := Segment.texts segments
    let m := f.parse (String.ofList (Segment.render segments))
    m.text = String.ofList (trimChars text) ∧
      List.Forall₂ (fun e s => e.offset + leadingBlanks text = s.offset ∧ e.length = s.length ∧
        e.kind = s.mark.kind) m.entities (Segment.spansFrom 0 segments) ∧
      f.parse (f.unparse m) = m := by
  have ht := Delimiters.ordered_of_ofList htable
  have hne' : f.table.entries ≠ [] := by
    rw [Ne, ← Delimiters.isEmpty_iff, hne]
    exact Bool.false_ne_true
  obtain ⟨trimmed, hfits, htexts, hspans⟩ := Segment.exists_trimmed h
  have hparse := Segment.parse_render hlinks ht hne' hbracket h
  rw [Segment.trim_eq hfits htexts hspans] at hparse
  intro text m
  have hm : m = _ := hparse
  refine ⟨?_, ?_, ?_⟩
  · rw [hm, htexts]
  · -- The spans of the document are those of the message, moved by the blanks before the text.
    rw [hm, ← hspans]
    have hadd := Segment.spansFrom_add 0 (leadingBlanks (Segment.texts segments)) trimmed
    rw [Nat.add_zero] at hadd
    rw [hadd, List.forall₂_map_left_iff, List.forall₂_map_right_iff, List.forall₂_same]
    intro s hs
    exact ⟨Nat.add_comm _ _, rfl, rfl⟩
  · -- The message is written as a document that is read as the message.
    have hcanonical : ∀ s ∈ trimmed.map (Segment.canonical f.table), s.Fits f.table := by
      intro s hs
      obtain ⟨t, ht, rfl⟩ := List.mem_map.mp hs
      exact (hfits t ht).canonical.1
    have htexts' : Segment.texts (trimmed.map (Segment.canonical f.table)) =
        Segment.texts trimmed := by
      unfold Segment.texts
      rw [List.flatMap_map]
      simp only [Segment.text_canonical]
    obtain ⟨hwritten, hentities⟩ := Segment.spans_entities hfits 0
    have hunparse : f.unparse m =
        String.ofList (Segment.render (trimmed.map (Segment.canonical f.table))) := by
      have hcovers : ∀ s ∈ f.table.spans ((Segment.spansFrom 0 trimmed).map Span.entity),
          s.Covers 0 (String.ofList (Segment.texts trimmed)).toList := by
        rw [hwritten, String.toList_ofList, ← htexts']
        exact (Segment.flat_spansFrom hcanonical 0).layout.covers
      rw [hm, Format.unparse_eq_markup hne' hcovers, String.toList_ofList, hwritten, ← htexts',
        Segment.markup_spansFrom hcanonical 0]
    rw [hunparse, Segment.parse_render hlinks ht hne' hbracket hcanonical, htexts', hentities, hm]
    apply Message.trim_eq_self
    · rw [htexts]
      exact fun c hc => isBlank_head_trimChars hc
    · rw [htexts]
      exact fun c hc => isBlank_last_trimChars hc
    · intro e he
      obtain ⟨s, hs, rfl⟩ := List.mem_map.mp he
      have hbounds := (Segment.flat_spansFrom hfits 0).bounds hs
      refine ⟨?_, Segment.stop_le hfits hs⟩
      unfold Span.stop at hbounds
      show 0 < s.length
      omega

/-- Two words whose markers stand side by side, and a link behind them. -/
theorem Format.parse_flat_glued :
    let segments : List Segment :=
      [.plain [' '], .word ⟨"`", .code⟩ ['a'], .word ⟨"```", .pre⟩ ['👋'], .plain ['.', ' '],
        .link ['b', '['] "(u", .plain [' ']]
    let m := ({} : Format).parse " `a````👋```. [b[]((u) "
    m.text = "a👋. b[" ∧
      List.Forall₂ (fun e s => e.offset + leadingBlanks (Segment.texts segments) = s.offset ∧
        e.length = s.length ∧ e.kind = s.mark.kind) m.entities (Segment.spansFrom 0 segments) ∧
      ({} : Format).parse (({} : Format).unparse m) = m := by
  have hfits : ∀ s ∈ ([.plain [' '], .word ⟨"`", .code⟩ ['a'], .word ⟨"```", .pre⟩ ['👋'],
      .plain ['.', ' '], .link ['b', '['] "(u", .plain [' ']] : List Segment),
      s.Fits ({} : Format).table := by
    simp only [List.forall_mem_cons]
    exact ⟨.plain (by decide), .word (by decide) (by decide) (by decide) (by decide),
      .word (by decide) (by decide) (by decide) (by decide), .plain (by decide),
      .link (by decide) (by decide) (by decide) (by decide) (by decide), .plain (by decide),
      fun s hs => absurd hs List.not_mem_nil⟩
  exact Format.parse_flat Delimiters.ofList_standard (by decide) (by decide) rfl hfits

end MessageMarkup
