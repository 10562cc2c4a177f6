import MessageMarkup.Proofs.Format.Found
import MessageMarkup.Proofs.Format.Reading
import MessageMarkup.Proofs.Format.Writing

/-!
# Writing what was read

There is no way to write a marker as plain text, and a link that leads nowhere is not written. So
what was read from markup may not come back when it is written and read again. It does whenever what
is written is `Message.IsUnambiguous`: every link leads somewhere, no link crosses the end of an
earlier entity, and each mark, and nothing else, is taken for what it is
(`Format.parse_unparse_parse`). All else that this takes is so of everything that is read
(`Format.parse_found`).
-/

namespace MessageMarkup

open Utf16 (length)

/-- A message that has been read is written as markup that can be read in no other way. -/
structure Message.IsUnambiguous (table : Delimiters) (m : Message) : Prop where
  /-- An entity whose text was read again stops between characters. -/
  whole : ∀ e ∈ m.entities, e.kind.isVerbatim = false →
    Utf16.splitsPair (Utf16.ofText m.text) e.stop = false
  /-- A link leads somewhere. -/
  leads : ∀ e ∈ m.entities, e.kind ≠ .textUrl ""
  /-- A link that starts in an earlier entity stops in it. -/
  uncrossed : m.entities.Pairwise fun e e' =>
    e'.kind.isLink = true → e'.offset < e.stop → e'.stop ≤ e.stop
  /-- Marks are found where they are written, and nothing elsewhere. -/
  marks : Unambiguous table m.text.toList (table.spans m.entities)

instance (table : Delimiters) (m : Message) : Decidable (m.IsUnambiguous table) :=
  decidable_of_iff
    ((∀ e ∈ m.entities, e.kind.isVerbatim = false →
        Utf16.splitsPair (Utf16.ofText m.text) e.stop = false) ∧
      (∀ e ∈ m.entities, e.kind ≠ .textUrl "") ∧
      (m.entities.Pairwise fun e e' =>
        e'.kind.isLink = true → e'.offset < e.stop → e'.stop ≤ e.stop) ∧
      Unambiguous table m.text.toList (table.spans m.entities))
    ⟨fun ⟨hwhole, hleads, huncrossed, hmarks⟩ => ⟨hwhole, hleads, huncrossed, hmarks⟩,
      fun h => ⟨h.whole, h.leads, h.uncrossed, h.marks⟩⟩

namespace Delimiters

variable {table : Delimiters} {kind : Kind}

/-- A kind that can be found, and is no link to nowhere, can be written. -/
theorem CanFind.exists_mark (h : table.CanFind kind) (hleads : kind ≠ .textUrl "") :
    ∃ mark, table.mark? kind = some mark ∧ mark.kind = kind ∧
      ∀ url, mark = .link url → ')' ∉ url.toList := by
  rcases h with ⟨d, hd, rfl⟩ | ⟨url, rfl, hurl⟩
  · obtain ⟨e, -, hstyle, hfind⟩ := exists_find?_of_mem hd
    refine ⟨.pair e, ?_, congrArg Style.kind hstyle, fun url h => Mark.noConfusion h⟩
    rw [mark?_kind, hfind]
    rfl
  · have hne : url ≠ "" := fun h => hleads (congrArg Kind.textUrl h)
    refine ⟨.link url, table.mark?_textUrl hne, rfl, fun url' h => ?_⟩
    rw [← Mark.link.inj h]
    exact hurl

end Delimiters

namespace Found

variable {table : Delimiters} {text : List Char} {es : List Entity}

/-- An entity that was found is written as a span that stands for it. -/
theorem exists_span (h : Found table text es) (hleads : ∀ e ∈ es, e.kind ≠ .textUrl "")
    {e : Entity} (he : e ∈ es) : ∃ s, table.span? e = some s ∧ s.entity = e := by
  obtain ⟨mark, hmark, hkind, -⟩ := (h.kinds e he).exists_mark (hleads e he)
  refine ⟨⟨e.offset, e.length, mark⟩, ?_, ?_⟩
  · unfold Delimiters.span?
    rw [hmark]
    rfl
  · show Entity.mk e.offset e.length mark.kind = e
    rw [hkind]

/-- A span that is written stands for an entity that was found. -/
theorem entity_eq (h : Found table text es) (hleads : ∀ e ∈ es, e.kind ≠ .textUrl "")
    {e : Entity} (he : e ∈ es) {s : Span} (hs : table.span? e = some s) : s.entity = e := by
  obtain ⟨t, ht, hentity⟩ := h.exists_span hleads he
  rw [← Option.some.inj (ht.symm.trans hs)]
  exact hentity

/-- The entities of the spans that are written are those that were found. -/
theorem map_entity_spans (h : Found table text es) (hleads : ∀ e ∈ es, e.kind ≠ .textUrl "") :
    (table.spans es).map Span.entity = es := by
  unfold Delimiters.spans
  have hall : ∀ e ∈ es, (table.span? e).map Span.entity = some e := by
    intro e he
    obtain ⟨s, hs, hentity⟩ := h.exists_span hleads he
    rw [hs, Option.map_some, hentity]
  rw [List.map_filterMap, List.filterMap_congr hall, List.filterMap_some]

/-- What holds of the entities in their order holds of the spans that are written. -/
theorem pairwise_spans (h : Found table text es) (hleads : ∀ e ∈ es, e.kind ≠ .textUrl "")
    {r : Entity → Entity → Prop} (hr : es.Pairwise r) :
    (table.spans es).Pairwise fun s t => r s.entity t.entity := by
  rw [← List.pairwise_map, h.map_entity_spans hleads]
  exact hr

/-- The spans that are written lie as spans may. -/
theorem layout (h : Found table text es) (hbounds : ∀ e ∈ es, 0 < e.length)
    (hstops : ∀ e ∈ es, Utf16.IsCut text e.stop) (hleads : ∀ e ∈ es, e.kind ≠ .textUrl "")
    (huncrossed : es.Pairwise fun e e' =>
      e'.kind.isLink = true → e'.offset < e.stop → e'.stop ≤ e.stop) :
    Layout text (table.spans es) := by
  refine ⟨?_, h.pairwise_spans hleads h.sorted, ?_, ?_⟩
  · intro s hs
    obtain ⟨e, he, hspan⟩ := List.mem_filterMap.mp hs
    obtain rfl := h.entity_eq hleads he hspan
    exact Span.covers_of_isCut (h.starts _ he) (hstops _ he) (hbounds _ he)
  · refine (h.pairwise_spans hleads h.verbatim).imp fun {s t} hle hv => ?_
    exact hle (s.mark.isVerbatim_kind.trans hv)
  · refine (h.pairwise_spans hleads huncrossed).imp fun {s t} hle hlink hlt => ?_
    exact hle (t.mark.isLink_kind.trans hlink) hlt

/-- Neither the url of a link that is written nor its label contains what ends it. -/
theorem link (h : Found table text es) (hleads : ∀ e ∈ es, e.kind ≠ .textUrl "") {s : Span}
    (hs : s ∈ table.spans es) {url : String} (hmark : s.mark = .link url) :
    ')' ∉ url.toList ∧ ∀ xs ys zs, text = xs ++ (ys ++ zs) → length xs = s.offset →
      length ys = s.length → ']' ∉ ys := by
  obtain ⟨e, he, hspan⟩ := List.mem_filterMap.mp hs
  obtain rfl := h.entity_eq hleads he hspan
  have hkind : s.entity.kind = .textUrl url := congrArg Mark.kind hmark
  refine ⟨?_, fun xs ys zs htext hxs hlen hmem => ?_⟩
  · obtain ⟨mark, hmark', -, hurl⟩ := (h.kinds _ he).exists_mark (hleads _ he)
    obtain ⟨-, -, -, hmark''⟩ := Delimiters.of_span?_eq_some hspan
    rw [← Option.some.inj (hmark''.symm.trans hmark')] at hurl
    exact hurl url hmark
  · -- The bracket would start in the entity.
    obtain ⟨as, bs, rfl⟩ := List.append_of_mem hmem
    have hpos := Utf16.width_pos ']'
    rw [Utf16.length_append, Utf16.length_cons] at hlen
    refine h.labels _ he url hkind (xs ++ as) ']' (bs ++ zs) ?_ ?_ ?_ rfl
    · rw [htext]
      simp only [List.append_assoc, List.cons_append]
    · show s.offset ≤ _
      rw [Utf16.length_append]
      omega
    · show _ < s.offset + s.length
      rw [Utf16.length_append]
      omega

end Found

/-- With the standard table, what has been read from markup and is written as markup that can be
read in no other way comes back when it is read again. -/
theorem Format.parse_unparse_parse {f : Format} (htable : f.table = .standard)
    (hlinks : f.links = .standard) (markup : String)
    (h : (f.parse markup).IsUnambiguous .standard) :
    f.parse (f.unparse (f.parse markup)) = f.parse markup := by
  have hne : f.table.entries ≠ [] := htable ▸ Delimiters.standard_entries_ne_nil
  have hapart : f.table.Apart := htable ▸ Delimiters.apart_standard
  obtain ⟨text, htext, hhead, hlast, hbounds, hfound⟩ :=
    Format.parse_found hlinks hapart.marker_ne hne markup
  have htext' : (f.parse markup).text.toList = text := by rw [htext, String.toList_ofList]
  -- What is left unread stops between characters anyway, and the others do by assumption.
  have hstops : ∀ e ∈ (f.parse markup).entities, Utf16.IsCut text e.stop := by
    intro e he
    cases hv : e.kind.isVerbatim with
    | true => exact hfound.stops e he hv
    | false =>
      have hwhole := h.whole e he hv
      rw [Utf16.ofText, htext'] at hwhole
      exact Utf16.isCut_of_not_splitsPair hwhole (hbounds e he).2
  have hlayout : Layout text (f.table.spans (f.parse markup).entities) :=
    hfound.layout (fun e he => (hbounds e he).1) hstops h.leads h.uncrossed
  have hmarks : Unambiguous f.table text (f.table.spans (f.parse markup).entities) := by
    rw [htable, ← htext']
    exact h.marks
  have hlegible : Legible f.table text (f.table.spans (f.parse markup).entities) :=
    { toLayout := hlayout
      toUnambiguous := hmarks
      link := fun s hs url hmark => hfound.link h.leads hs hmark }
  have hunparse : f.unparse (f.parse markup) =
      String.ofList (MessageMarkup.markup (f.table.spans (f.parse markup).entities) 0 text) := by
    rw [Format.unparse_eq_markup hne (htext' ▸ hlayout.covers), htext']
  rw [hunparse, Format.parse_markup hlinks hapart hne hlegible, hfound.map_entity_spans h.leads,
    Message.trim_eq_self hhead hlast hbounds, ← htext]

/-- Styles that cross, a label with marks in it and stray brackets come back: what is written can be
read in no other way. -/
theorem Format.parse_unparse_parse_crossing :
    ({} : Format).parse (({} : Format).unparse (({} : Format).parse
        " **a __b** c__ * [**d**](_) `e~~` 👋]( ")) =
      ({} : Format).parse " **a __b** c__ * [**d**](_) `e~~` 👋]( " :=
  Format.parse_unparse_parse rfl rfl _ (by decide +kernel)

/-- Without one of the conditions on what was read, it need not come back: a link leads nowhere, an
entity stops inside a character, a link crosses the end of an entity, a marker has come together in
plain text, or inside the same markers. -/
theorem Format.parse_unparse_parse_ne :
    ({} : Format).parse (({} : Format).unparse (({} : Format).parse "[a]()")) ≠
        ({} : Format).parse "[a]()" ∧
      ({} : Format).parse (({} : Format).unparse (({} : Format).parse "**👋abc[**](u)")) ≠
        ({} : Format).parse "**👋abc[**](u)" ∧
      ({} : Format).parse (({} : Format).unparse (({} : Format).parse "**a[bcd](u**v)")) ≠
        ({} : Format).parse "**a[bcd](u**v)" ∧
      ({} : Format).parse (({} : Format).unparse (({} : Format).parse "*[](u)*a**")) ≠
        ({} : Format).parse "*[](u)*a**" ∧
      ({} : Format).parse (({} : Format).unparse (({} : Format).parse "**a*[](u)*b**")) ≠
        ({} : Format).parse "**a*[](u)*b**" := by
  have hne : ({} : Format).table.isEmpty = false := by decide
  have hread : ({} : Format).parse "[a]()" = ⟨"a", [⟨0, 1, .textUrl ""⟩]⟩ ∧
      ({} : Format).parse "**👋abc[**](u)" = ⟨"👋abc", [⟨0, 1, .bold⟩]⟩ ∧
      ({} : Format).parse "**a[bcd](u**v)" = ⟨"abcd", [⟨0, 2, .bold⟩, ⟨1, 3, .textUrl "uv"⟩]⟩ ∧
      ({} : Format).parse "*[](u)*a**" = ⟨"**a**", []⟩ ∧
      ({} : Format).parse "**a*[](u)*b**" = ⟨"a**b", [⟨0, 4, .bold⟩]⟩ := by
    decide +kernel
  -- The marks that are written, in their order, for each of the messages.
  obtain ⟨hread₁, hread₂, hread₃, hread₄, hread₅⟩ := hread
  rw [hread₁, hread₂, hread₃, hread₄, hread₅]
  refine ⟨?_, ?_, ?_, ?_, ?_⟩
  · rw [Format.unparse_eq_insertAll [] hne (by decide) (by decide +kernel) (by decide)]
    decide +kernel
  · rw [Format.unparse_eq_insertAll
      [⟨0, 0, Utf16.ofText "**"⟩, ⟨1, 0, Utf16.ofText "**"⟩] hne (by decide) (by decide +kernel)
      (by decide)]
    decide +kernel
  · rw [Format.unparse_eq_insertAll
      [⟨0, 0, Utf16.ofText "**"⟩, ⟨1, 1, Utf16.ofText "["⟩, ⟨2, 0, Utf16.ofText "**"⟩,
        ⟨4, -1, Utf16.ofText "](uv)"⟩] hne (by decide) (by decide +kernel) (by decide)]
    decide +kernel
  · rw [Format.unparse_eq_insertAll [] hne (by decide) (by decide +kernel) (by decide)]
    decide +kernel
  · rw [Format.unparse_eq_insertAll
      [⟨0, 0, Utf16.ofText "**"⟩, ⟨4, 0, Utf16.ofText "**"⟩] hne (by decide) (by decide +kernel)
      (by decide)]
    decide +kernel

end MessageMarkup
