import MessageMarkup.Proofs.Format.Tidy

/-!
# Nested documents

A nested document is a list of trees: plain text, text that is left unread between markers, links,
and documents between markers of a style that occurs nowhere in them. With the standard table it is
read as what it says (`Format.parse_nested`): its text, and one entity for every marked tree, an
outer one before those in it.

The reader knows no trees. What makes it find them is that the spans of a document are `Tidy`, which
is proved tree by tree: the spans of a list of trees stand side by side (`Tidy.append`), and a
marked tree is a span around those of its document (`Tidy.cons`).
-/

namespace MessageMarkup

/-! ## Putting tidy spans together -/

namespace Tidy

variable {p : Nat} {xs ys : List Char} {ss ts : List Span}

/-- Literal text has no spans. -/
theorem plain (hxs : ∀ c ∈ xs, IsLiteral c) (p : Nat) : Tidy p xs [] :=
  ⟨fun _ hs => absurd hs List.not_mem_nil, List.Pairwise.nil, hxs,
    fun _ hs => absurd hs List.not_mem_nil⟩

/-- Two texts side by side. -/
theorem append (hs : Tidy p xs ss) (ht : Tidy (p + Utf16.length xs) ys ts) :
    Tidy p (xs ++ ys) (ss ++ ts) := by
  refine ⟨?_, ?_, ?_, ?_⟩
  · intro s hmem
    rcases List.mem_append.mp hmem with hmem | hmem
    · exact (hs.covers s hmem).append ys
    · exact (ht.covers s hmem).prepend
  · rw [List.pairwise_append]
    refine ⟨hs.nested, ht.nested, fun s hmem t hmem' => Or.inl ?_⟩
    have hstop := (hs.bounds hmem).2.2
    have hstart := (ht.bounds hmem').1
    omega
  · intro c hc
    rcases List.mem_append.mp hc with hc | hc
    · exact hs.literal c hc
    · exact ht.literal c hc
  · intro s hmem
    rcases List.mem_append.mp hmem with hmem | hmem
    · exact hs.marks s hmem
    · exact ht.marks s hmem

/-- A span around a text. If there are spans in it already, it must be one that is read, and of
another kind than they. -/
theorem cons (h : Tidy p xs ss) (hxs : xs ≠ []) {mark : Mark} (hmark : mark.IsStandard)
    (hinner : ∀ s ∈ ss, mark.isVerbatim = false ∧ s.mark.kind ≠ mark.kind) :
    Tidy p xs (⟨p, Utf16.length xs, mark⟩ :: ss) := by
  refine ⟨?_, ?_, h.literal, ?_⟩
  · intro s hmem
    rcases List.mem_cons.mp hmem with rfl | hmem
    · exact ⟨[], xs, [], (List.append_nil xs).symm, hxs, rfl, rfl⟩
    · exact h.covers s hmem
  · rw [List.pairwise_cons]
    refine ⟨fun s hmem => Or.inr ?_, h.nested⟩
    obtain ⟨hstart, -, hstop⟩ := h.bounds hmem
    exact ⟨hstart, hstop, hinner s hmem⟩
  · intro s hmem
    rcases List.mem_cons.mp hmem with rfl | hmem
    · exact hmark
    · exact h.marks s hmem

/-- The markup of two texts side by side. -/
theorem markup_append (hs : Tidy p xs ss) (ht : Tidy (p + Utf16.length xs) ys ts) :
    markup (ss ++ ts) p (xs ++ ys) =
      markup ss p xs ++ markup ts (p + Utf16.length xs) ys := by
  have hfirst : markup (ss ++ ts) p xs = markup ss p xs := by
    apply markup_congr
    · -- The spans of the second text start and stop behind the first.
      intro q _ hq
      have hnone : openings ts q = [] :=
        openings_eq_nil fun t hmem => by have := ht.bounds hmem; omega
      rw [openings_append, hnone, List.append_nil]
    · intro q _ hq
      have hnone : closings ts q = [] :=
        closings_eq_nil fun t hmem => by have := ht.bounds hmem; omega
      rw [closings_append, hnone, List.nil_append]
  have hsecond : markup (ss ++ ts) (p + Utf16.length xs) ys =
      markup ts (p + Utf16.length xs) ys := by
    apply markup_congr
    · -- Those of the first start and stop before the second goes on.
      intro q hq _
      have hnone : openings ss q = [] :=
        openings_eq_nil fun s hmem => by have := hs.bounds hmem; omega
      rw [openings_append, hnone, List.nil_append]
    · intro q hq _
      have hnone : closings ss q = [] :=
        closings_eq_nil fun s hmem => by have := hs.bounds hmem; omega
      rw [closings_append, hnone, List.append_nil]
  rw [MessageMarkup.markup_append, hfirst, hsecond]

/-- The markup of a text with a span around it. -/
theorem markup_cons (hxs : xs ≠ []) (mark : Mark) :
    markup (⟨p, Utf16.length xs, mark⟩ :: ss) p xs =
      mark.before ++ (markup ss p xs ++ mark.after) := by
  have hstop : (Span.mk p (Utf16.length xs) mark).stop = p + Utf16.length xs := rfl
  rw [MessageMarkup.markup_cons rfl (Nat.le_of_eq hstop.symm) hxs, if_pos hstop]

end Tidy

/-! ## Trees -/

/-- A tree of a nested document. -/
inductive Node where
  /-- Plain text. -/
  | plain (text : List Char)
  /-- Text that is left unread between two markers. -/
  | verbatim (d : Delimiter) (text : List Char)
  /-- A document between two markers. -/
  | styled (d : Delimiter) (inner : List Node)
  /-- A link. -/
  | link (label : List Char) (url : String)
  deriving Inhabited

namespace Node

mutual

/-- The text of a tree without its marks. -/
def text : Node → List Char
  | plain text | verbatim _ text => text
  | styled _ inner => texts inner
  | link label _ => label

/-- The text of a document. -/
def texts : List Node → List Char
  | [] => []
  | n :: more => n.text ++ texts more

end

mutual

/-- The markup of a tree. -/
def rendered : Node → List Char
  | plain text => text
  | verbatim d text => d.marker.toList ++ (text ++ d.marker.toList)
  | styled d inner => d.marker.toList ++ (render inner ++ d.marker.toList)
  | link label url => LinkPattern.written label url.toList

/-- The markup of a document. -/
def render : List Node → List Char
  | [] => []
  | n :: more => n.rendered ++ render more

end

mutual

/-- The spans of the marked trees in a tree, the text of which starts at `p`. -/
def spans : Nat → Node → List Span
  | _, plain _ => []
  | p, verbatim d text => [⟨p, Utf16.length text, .pair d⟩]
  | p, styled d inner => ⟨p, Utf16.length (texts inner), .pair d⟩ :: spansFrom p inner
  | p, link label url => [⟨p, Utf16.length label, .link url⟩]

/-- The spans of the marked trees of a document, the text of which starts at `p`. -/
def spansFrom : Nat → List Node → List Span
  | _, [] => []
  | p, n :: more => spans p n ++ spansFrom (p + Utf16.length n.text) more

end

/-- The trees that a nested document may have inside markers of some styles. -/
inductive Fits : List Style → Node → Prop where
  /-- Plain text is literal. -/
  | plain {around : List Style} {text : List Char} : text ≠ [] → (∀ c ∈ text, IsLiteral c) →
    Fits around (plain text)
  /-- Code and preformatted text are literal. -/
  | verbatim {around : List Style} {d : Delimiter} {text : List Char} :
    d ∈ Delimiters.standard.entries → d.style.isVerbatim = true → text ≠ [] →
    (∀ c ∈ text, IsLiteral c) → Fits around (verbatim d text)
  /-- No style is inside itself. -/
  | styled {around : List Style} {d : Delimiter} {inner : List Node} :
    d ∈ Delimiters.standard.entries → d.style.isVerbatim = false → d.style ∉ around →
    inner ≠ [] → (∀ n ∈ inner, Fits (d.style :: around) n) → Fits around (styled d inner)
  /-- A label is literal, and a url contains nothing that ends it and no marker. -/
  | link {around : List Style} {label : List Char} {url : String} : label ≠ [] →
    (∀ c ∈ label, IsLiteral c) → ')' ∉ url.toList →
    (∀ d ∈ Delimiters.standard.entries, ¬ d.marker.toList <:+: url.toList) →
    Fits around (link label url)

variable {around : List Style} {n : Node} {doc : List Node}

/-- The text of some trees with a text is not empty. -/
theorem texts_ne_nil (h : ∀ n ∈ doc, n.text ≠ []) (hne : doc ≠ []) : texts doc ≠ [] := by
  obtain ⟨n, more, rfl⟩ := List.exists_cons_of_ne_nil hne
  unfold texts
  exact List.append_ne_nil_of_left_ne_nil (h n List.mem_cons_self) _

/-- A tree has a text. -/
theorem Fits.text_ne_nil (h : n.Fits around) : n.text ≠ [] := by
  induction h with
  | plain hne _ => exact hne
  | verbatim _ _ hne _ => exact hne
  | link hne _ _ _ => exact hne
  | styled _ _ _ hne _ ih =>
    unfold text
    exact texts_ne_nil ih hne

/-- A span of a document is one of a tree in it. -/
theorem exists_of_mem_spansFrom {p : Nat} {s : Span} (h : s ∈ spansFrom p doc) :
    ∃ n ∈ doc, ∃ q, s ∈ spans q n := by
  induction doc generalizing p with
  | nil =>
    unfold spansFrom at h
    exact absurd h List.not_mem_nil
  | cons n more ih =>
    unfold spansFrom at h
    rcases List.mem_append.mp h with h | h
    · exact ⟨n, List.mem_cons_self, p, h⟩
    · obtain ⟨m, hm, hspan⟩ := ih h
      exact ⟨m, List.mem_cons_of_mem n hm, hspan⟩

/-- No span in a tree is of the kind of a style around it. -/
theorem Fits.kind_ne (h : n.Fits around) {style : Style} (hstyle : style ∈ around)
    (hv : style.isVerbatim = false) {p : Nat} {s : Span} (hs : s ∈ spans p n) :
    s.mark.kind ≠ style.kind := by
  have hpair {d : Delimiter} (hne : d.style ≠ style) : (Mark.pair d).kind ≠ style.kind :=
    Style.kind_injective.ne hne
  induction h generalizing p with
  | plain _ _ =>
    unfold spans at hs
    exact absurd hs List.not_mem_nil
  | verbatim _ hverbatim _ _ =>
    unfold spans at hs
    rw [List.mem_singleton.mp hs]
    -- The one style is left unread, and the other is not.
    refine hpair fun heq => ?_
    rw [heq, hv] at hverbatim
    exact Bool.noConfusion hverbatim
  | styled _ _ hout _ _ ih =>
    unfold spans at hs
    rcases List.mem_cons.mp hs with rfl | hs
    · exact hpair fun heq => hout (heq ▸ hstyle)
    · obtain ⟨m, hm, q, hspan⟩ := exists_of_mem_spansFrom hs
      exact ih m hm (List.mem_cons_of_mem _ hstyle) hspan
  | link _ _ _ _ =>
    unfold spans at hs
    rw [List.mem_singleton.mp hs]
    cases style <;> exact Kind.noConfusion

/-- If the spans of some trees are tidy, so are those of the document. -/
theorem tidy_spansFrom (h : ∀ n ∈ doc, ∀ p, Tidy p n.text (spans p n)) (p : Nat) :
    Tidy p (texts doc) (spansFrom p doc) := by
  induction doc generalizing p with
  | nil => exact Tidy.plain (fun c hc => absurd hc List.not_mem_nil) p
  | cons n more ih =>
    unfold texts spansFrom
    refine (h n List.mem_cons_self p).append (ih ?_ _)
    exact fun m hm => h m (List.mem_cons_of_mem n hm)

/-- The spans of a tree are tidy. -/
theorem Fits.tidy (h : n.Fits around) (p : Nat) : Tidy p n.text (spans p n) := by
  induction h generalizing p with
  | plain _ hliteral => exact Tidy.plain hliteral p
  | verbatim hd _ hne hliteral =>
    refine (Tidy.plain hliteral p).cons hne hd ?_
    exact fun s hs => absurd hs List.not_mem_nil
  | styled hd hv _ hne hinner ih =>
    unfold text spans
    -- The spans in it are tidy by induction, and none is of its kind.
    refine (tidy_spansFrom ih p).cons ?_ hd ?_
    · exact texts_ne_nil (fun m hm => (hinner m hm).text_ne_nil) hne
    · intro s hs
      obtain ⟨m, hm, q, hspan⟩ := exists_of_mem_spansFrom hs
      exact ⟨hv, (hinner m hm).kind_ne List.mem_cons_self hv hspan⟩
  | link hne hliteral hurl hmarkers =>
    refine (Tidy.plain hliteral p).cons hne ⟨hurl, hmarkers⟩ ?_
    exact fun s hs => absurd hs List.not_mem_nil

/-- If the spans of some trees are tidy and their markup is that of the trees, it is so for the
document. -/
theorem markup_spansFrom (h : ∀ n ∈ doc, ∀ p, Tidy p n.text (spans p n))
    (hmarkup : ∀ n ∈ doc, ∀ p, markup (spans p n) p n.text = n.rendered) (p : Nat) :
    markup (spansFrom p doc) p (texts doc) = render doc := by
  induction doc generalizing p with
  | nil =>
    unfold texts render
    exact markup_nil _ p
  | cons n more ih =>
    have hmore : ∀ m ∈ more, ∀ p, Tidy p m.text (spans p m) :=
      fun m hm => h m (List.mem_cons_of_mem n hm)
    unfold texts spansFrom render
    rw [(h n List.mem_cons_self p).markup_append (tidy_spansFrom hmore _),
      hmarkup n List.mem_cons_self p,
      ih hmore fun m hm => hmarkup m (List.mem_cons_of_mem n hm)]

/-- The markup of a tree is that of its spans. -/
theorem Fits.markup_eq (h : n.Fits around) (p : Nat) :
    markup (spans p n) p n.text = n.rendered := by
  have hplain (p : Nat) (cs : List Char) : markup [] p cs = cs :=
    markup_of_apart fun s hs => absurd hs List.not_mem_nil
  induction h generalizing p with
  | plain _ _ => exact hplain p _
  | verbatim _ _ hne _ =>
    unfold text spans rendered
    rw [Tidy.markup_cons hne, hplain]
    rfl
  | styled _ _ _ hne hinner ih =>
    have htexts := texts_ne_nil (fun m hm => (hinner m hm).text_ne_nil) hne
    unfold text spans rendered
    rw [Tidy.markup_cons htexts, markup_spansFrom (fun m hm => (hinner m hm).tidy) ih]
    rfl
  | link hne _ _ _ =>
    unfold text spans rendered
    rw [Tidy.markup_cons hne, hplain]
    simp [Mark.before, Mark.after, LinkPattern.written]

end Node

/-! ## Reading a document -/

/-- With the standard table, a nested document is read as its text and one entity for every marked
tree in it, an outer one before those in it, without the blanks around the text. -/
theorem Format.parse_nested {f : Format} (htable : f.table = .standard)
    (hlinks : f.links = .standard) {doc : List Node} (h : ∀ n ∈ doc, n.Fits []) :
    f.parse (String.ofList (Node.render doc)) =
      Message.trim ⟨String.ofList (Node.texts doc), (Node.spansFrom 0 doc).map Span.entity⟩ := by
  have htidy : ∀ n ∈ doc, ∀ p, Tidy p n.text (Node.spans p n) := fun n hn => (h n hn).tidy
  have hne : f.table.entries ≠ [] := htable ▸ Delimiters.standard_entries_ne_nil
  have hlegible : Legible f.table (Node.texts doc) (Node.spansFrom 0 doc) := by
    rw [htable]
    exact (Node.tidy_spansFrom htidy 0).legible
  rw [← Node.markup_spansFrom htidy (fun n hn => (h n hn).markup_eq) 0]
  exact Format.parse_markup hlinks (htable ▸ Delimiters.apart_standard) hne hlegible

/-- A link and code inside two styles, with blanks around them. -/
theorem Format.parse_nested_styles :
    ({} : Format).parse "** __[👋](a_b) `c`__**~~ d ~~" =
      { text := "👋 c d"
        entities := [⟨0, 4, .bold⟩, ⟨0, 4, .italic⟩, ⟨0, 2, .textUrl "a_b"⟩, ⟨3, 1, .code⟩,
          ⟨4, 2, .strikethrough⟩] } := by
  have hfits : ∀ n ∈ ([.styled ⟨"**", .bold⟩ [.plain [' '], .styled ⟨"__", .italic⟩
      [.link ['👋'] "a_b", .plain [' '], .verbatim ⟨"`", .code⟩ ['c']]],
      .styled ⟨"~~", .strikethrough⟩ [.plain [' ', 'd', ' ']]] : List Node), n.Fits [] := by
    simp only [List.forall_mem_cons]
    refine ⟨.styled (by decide) (by decide) (by decide) (by decide) ?_,
      .styled (by decide) (by decide) (by decide) (by decide) ?_,
      fun s hs => absurd hs List.not_mem_nil⟩
    · simp only [List.forall_mem_cons]
      refine ⟨.plain (by decide) (by decide),
        .styled (by decide) (by decide) (by decide) (by decide) ?_,
        fun s hs => absurd hs List.not_mem_nil⟩
      simp only [List.forall_mem_cons]
      exact ⟨.link (by decide) (by decide) (by decide) (by decide),
        .plain (by decide) (by decide), .verbatim (by decide) (by decide) (by decide) (by decide),
        fun s hs => absurd hs List.not_mem_nil⟩
    · simp only [List.forall_mem_cons]
      exact ⟨.plain (by decide) (by decide), fun s hs => absurd hs List.not_mem_nil⟩
  exact (Format.parse_nested rfl rfl hfits).trans (by decide +kernel)

end MessageMarkup
