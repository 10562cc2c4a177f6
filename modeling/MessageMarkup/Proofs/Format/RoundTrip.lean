import MessageMarkup.Proofs.Entity.Trim
import MessageMarkup.Proofs.Format.Tidy
import MessageMarkup.Proofs.Format.Writing

/-!
# Tidy messages come back

`Message.IsTidy` is what makes a message `Tidy` when it is written with the standard table: its text
is literal and has no blanks around it, its entities are of kinds that can be read, and they are
apart or nested. What comes back is the message, without the languages of its preformatted texts and
with links in place of its mentions, because markup has neither (`Kind.asRead`).
-/

namespace MessageMarkup

open Utf16 (encode)

/-! ## Kinds -/

namespace Kind

/-- The kinds that can be read from standard markup. A url must be one that a link can have. -/
def IsReadable : Kind → Prop
  | bold | italic | strikethrough | code | pre _ | mentionName _ => True
  | underline | spoiler => False
  | textUrl url => url ≠ "" ∧ ')' ∉ url.toList ∧
    ∀ d ∈ Delimiters.standard.entries, ¬ d.marker.toList <:+: url.toList

instance : (kind : Kind) → Decidable kind.IsReadable
  | bold | italic | strikethrough | code | pre _ | mentionName _ => inferInstanceAs (Decidable True)
  | underline | spoiler => inferInstanceAs (Decidable False)
  | textUrl _ => inferInstanceAs (Decidable (_ ∧ _))

/-- What a kind has become when it is read back. -/
def asRead : Kind → Kind
  | pre _ => .pre ""
  | mentionName user => .textUrl (mentionUrl ++ toString user.toInt)
  | kind => kind

end Kind

/-- The number of a user is written with digits, and a sign. -/
theorem mem_toString_int {n : Int} {c : Char} (h : c ∈ (toString n).toList) :
    c = '-' ∨ c.isDigit = true := by
  have hnat (k : Nat) (h : c ∈ k.repr.toList) : c.isDigit = true := by
    rw [Nat.toList_repr] at h
    exact Nat.isDigit_of_mem_toDigits (by decide) (by decide) h
  cases n with
  | ofNat k => exact Or.inr (hnat k h)
  | negSucc k =>
    -- A negative number is written with a sign before its digits.
    have hsign : (toString (Int.negSucc k)).toList = '-' :: (k + 1).repr.toList := by
      show (("-" : String) ++ (k + 1).repr).toList = _
      rw [String.toList_append]
      rfl
    rw [hsign] at h
    rcases List.mem_cons.mp h with h | h
    · exact Or.inl h
    · exact Or.inr (hnat _ h)

/-- The url of a mention has no parenthesis and no character of a marker. -/
theorem Mark.isStandard_mention (user : Int64) :
    (Mark.link (Kind.mentionUrl ++ toString user.toInt)).IsStandard := by
  have hmem {c : Char} (h : c ∈ (Kind.mentionUrl ++ toString user.toInt).toList) :
      c ∈ Kind.mentionUrl.toList ∨ c = '-' ∨ c.isDigit = true := by
    rw [String.toList_append] at h
    exact (List.mem_append.mp h).imp_right mem_toString_int
  have hnot {c : Char} (hurl : c ∉ Kind.mentionUrl.toList) (hsign : c ≠ '-')
      (hdigit : c.isDigit = false) : c ∉ (Kind.mentionUrl ++ toString user.toInt).toList := by
    intro h
    rcases hmem h with h | h | h
    · exact hurl h
    · exact hsign h
    · rw [hdigit] at h
      exact Bool.noConfusion h
  refine ⟨hnot (by decide) (by decide) (by decide), fun d hd htwice => ?_⟩
  -- Each marker has a character that is not in the url.
  rcases Delimiters.mem_standard hd with rfl | rfl | rfl | rfl | rfl
  · exact hnot (by decide) (by decide) (by decide) (htwice.subset List.mem_cons_self : '`' ∈ _)
  · exact hnot (by decide) (by decide) (by decide) (htwice.subset List.mem_cons_self : '*' ∈ _)
  · exact hnot (by decide) (by decide) (by decide) (htwice.subset List.mem_cons_self : '_' ∈ _)
  · exact hnot (by decide) (by decide) (by decide) (htwice.subset List.mem_cons_self : '~' ∈ _)
  · exact hnot (by decide) (by decide) (by decide) (htwice.subset List.mem_cons_self : '`' ∈ _)

/-- A readable kind is written with a standard mark, and the mark is read as it should be. -/
theorem Kind.IsReadable.exists_mark {kind : Kind} (h : kind.IsReadable) :
    ∃ mark, Delimiters.standard.mark? kind = some mark ∧ mark.kind = kind.asRead ∧
      mark.IsStandard := by
  have hstyle {d : Delimiter} (hd : d ∈ Delimiters.standard.entries) :
      (Mark.pair d).IsStandard := hd
  cases kind with
  | bold => exact ⟨.pair ⟨"**", .bold⟩, by decide, rfl, hstyle (by decide)⟩
  | italic => exact ⟨.pair ⟨"__", .italic⟩, by decide, rfl, hstyle (by decide)⟩
  | strikethrough => exact ⟨.pair ⟨"~~", .strikethrough⟩, by decide, rfl, hstyle (by decide)⟩
  | code => exact ⟨.pair ⟨"`", .code⟩, by decide, rfl, hstyle (by decide)⟩
  | pre language => exact ⟨.pair ⟨"```", .pre⟩, rfl, rfl, hstyle (by decide)⟩
  | textUrl url => exact ⟨.link url, Delimiters.mark?_textUrl _ h.1, rfl, h.2⟩
  | mentionName user => exact ⟨.link _, rfl, rfl, Mark.isStandard_mention user⟩
  | underline => exact h.elim
  | spoiler => exact h.elim

/-- A kind whose text is read stays as it is, and no other kind becomes the same. -/
theorem Kind.asRead_ne {outer inner : Kind} (h : outer.isVerbatim = false) (hne : inner ≠ outer) :
    inner.asRead ≠ outer.asRead := by
  have houter : outer.asRead = outer := by
    cases outer <;> first | rfl | exact Bool.noConfusion h
  rw [houter]
  cases inner with
  | pre language =>
    rintro rfl
    exact Bool.noConfusion h
  | mentionName user =>
    rintro rfl
    exact Bool.noConfusion h
  | _ => exact hne

/-- What a kind becomes is left unread if it was. -/
theorem Kind.isVerbatim_asRead (kind : Kind) : kind.asRead.isVerbatim = kind.isVerbatim := by
  cases kind <;> rfl

/-! ## Messages -/

/-- The entity that comes back for an entity. -/
def Entity.asRead (e : Entity) : Entity :=
  { e with kind := e.kind.asRead }

/-- A message that can be written with the standard table and read back. -/
structure Message.IsTidy (m : Message) : Prop where
  /-- The text has no character of a marker and no bracket. -/
  literal : ∀ c ∈ m.text.toList, IsLiteral c
  /-- It does not start with a blank. -/
  head : ∀ c ∈ m.text.toList.head?, isBlank c = false
  /-- It does not end with one. -/
  last : ∀ c ∈ m.text.toList.getLast?, isBlank c = false
  /-- The entities are of kinds that can be read. -/
  readable : ∀ e ∈ m.entities, e.kind.IsReadable
  /-- They are not empty, and are in the text. -/
  bounds : ∀ e ∈ m.entities, 0 < e.length ∧ e.stop ≤ (Utf16.ofText m.text).length
  /-- They start and stop between characters. -/
  whole : ∀ e ∈ m.entities, Utf16.splitsPair (Utf16.ofText m.text) e.offset = false ∧
    Utf16.splitsPair (Utf16.ofText m.text) e.stop = false
  /-- A later entity starts behind an earlier one, or lies in it. -/
  nested : m.entities.Pairwise fun outer inner => outer.stop ≤ inner.offset ∨
    outer.offset ≤ inner.offset ∧ inner.stop ≤ outer.stop ∧ outer.kind.isVerbatim = false ∧
      inner.kind ≠ outer.kind

namespace Message.IsTidy

variable {m : Message}

/-- An entity of a tidy message is written as a span that is read as it should be. -/
theorem exists_span (h : m.IsTidy) {e : Entity} (he : e ∈ m.entities) :
    ∃ s, Delimiters.standard.span? e = some s ∧ s.entity = e.asRead ∧ s.mark.IsStandard := by
  obtain ⟨mark, hmark, hkind, hstandard⟩ := (h.readable e he).exists_mark
  refine ⟨⟨e.offset, e.length, mark⟩, ?_, ?_, hstandard⟩
  · unfold Delimiters.span?
    rw [hmark]
    rfl
  · show Entity.mk e.offset e.length mark.kind = _
    rw [hkind]
    rfl

/-- The entities of the spans of a tidy message are those that come back. -/
theorem map_entity_spans (h : m.IsTidy) :
    (Delimiters.standard.spans m.entities).map Span.entity = m.entities.map Entity.asRead := by
  unfold Delimiters.spans
  rw [List.map_filterMap, ← List.filterMap_eq_map]
  refine List.filterMap_congr fun e he => ?_
  obtain ⟨s, hs, hentity, -⟩ := h.exists_span he
  rw [hs, Option.map_some, hentity]
  rfl

/-- The spans of a tidy message are tidy. -/
theorem tidy (h : m.IsTidy) :
    Tidy 0 m.text.toList (Delimiters.standard.spans m.entities) := by
  refine ⟨?_, ?_, h.literal, ?_⟩
  · intro s hs
    have hmem : s.entity ∈ m.entities.map Entity.asRead := by
      rw [← h.map_entity_spans]
      exact List.mem_map_of_mem hs
    obtain ⟨e, he, hentity⟩ := List.mem_map.mp hmem
    have hoffset : e.offset = s.offset := congrArg Entity.offset hentity
    have hstop : e.stop = s.stop := congrArg Entity.stop hentity
    have hlen : e.length = s.length := congrArg Entity.length hentity
    obtain ⟨hpos, hle⟩ := h.bounds e he
    obtain ⟨hstart, hstop'⟩ := h.whole e he
    rw [Utf16.ofText, Utf16.length_encode] at hle
    rw [Utf16.ofText] at hstart hstop'
    have hsum : e.stop = e.offset + e.length := rfl
    apply Span.covers_of_isCut
    · rw [← hoffset]
      exact Utf16.isCut_of_not_splitsPair hstart (by omega)
    · rw [← hstop]
      exact Utf16.isCut_of_not_splitsPair hstop' hle
    · rw [← hlen]
      exact hpos
  · -- What comes back is nested as what was written, and its spans are those of the message.
    have hnested : (m.entities.map Entity.asRead).Pairwise fun outer inner =>
        outer.stop ≤ inner.offset ∨ outer.offset ≤ inner.offset ∧ inner.stop ≤ outer.stop ∧
          outer.kind.isVerbatim = false ∧ inner.kind ≠ outer.kind := by
      rw [List.pairwise_map]
      refine h.nested.imp fun hpair => hpair.imp_right ?_
      rintro ⟨hle, hstop, hread, hkind⟩
      exact ⟨hle, hstop, (Kind.isVerbatim_asRead _).trans hread, Kind.asRead_ne hread hkind⟩
    rw [← h.map_entity_spans, List.pairwise_map] at hnested
    refine hnested.imp fun {s t} hpair => hpair.imp_right ?_
    rintro ⟨hle, hstop, hread, hkind⟩
    exact ⟨hle, hstop, (Mark.isVerbatim_kind s.mark).symm.trans hread, hkind⟩
  · intro s hs
    obtain ⟨e, he, hspan⟩ := List.mem_filterMap.mp hs
    obtain ⟨t, ht, -, hstandard⟩ := h.exists_span he
    obtain rfl : t = s := Option.some.inj (ht.symm.trans hspan)
    exact hstandard

end Message.IsTidy

/-- A tidy message is written and read back: the text is the same, and so are the entities, but for
the languages of preformatted texts and for mentions, which have become links. -/
theorem Format.parse_unparse {f : Format} (htable : f.table = .standard)
    (hlinks : f.links = .standard) {m : Message} (h : m.IsTidy) :
    f.parse (f.unparse m) = { m with entities := m.entities.map Entity.asRead } := by
  have hne : f.table.entries ≠ [] := htable ▸ Delimiters.standard_entries_ne_nil
  have htidy := h.tidy
  have hunparse : f.unparse m =
      String.ofList (markup (f.table.spans m.entities) 0 m.text.toList) := by
    apply Format.unparse_eq_markup hne
    rw [htable]
    exact htidy.layout.covers
  -- Tidy markup is legible, so it is read as what it was written for.
  have hlegible : Legible f.table m.text.toList (f.table.spans m.entities) := by
    rw [htable]
    exact htidy.legible
  have hbounds : ∀ e ∈ m.entities.map Entity.asRead,
      0 < e.length ∧ e.stop ≤ Utf16.length m.text.toList := by
    intro e he
    obtain ⟨e', he', rfl⟩ := List.mem_map.mp he
    have hbounds := h.bounds e' he'
    unfold Utf16.ofText at hbounds
    rw [Utf16.length_encode] at hbounds
    exact hbounds
  rw [hunparse, Format.parse_markup hlinks (htable ▸ Delimiters.apart_standard) hne hlegible,
    htable, h.map_entity_spans, Message.trim_eq_self h.head h.last hbounds, String.ofList_toList]

/-- Styles in one another, with a link that starts where they do, and a language and a user that
are lost. -/
theorem Format.parse_unparse_hello :
    let m : Message :=
      { text := "Hi 👋 all"
        entities := [⟨0, 5, .bold⟩, ⟨0, 5, .italic⟩, ⟨0, 2, .textUrl "a_b"⟩, ⟨3, 2, .pre "rust"⟩,
          ⟨6, 3, .mentionName (-7)⟩] }
    ({} : Format).parse (({} : Format).unparse m) =
      { text := "Hi 👋 all"
        entities := [⟨0, 5, .bold⟩, ⟨0, 5, .italic⟩, ⟨0, 2, .textUrl "a_b"⟩, ⟨3, 2, .pre ""⟩,
          ⟨6, 3, .textUrl "tg://user?id=-7"⟩] } :=
  Format.parse_unparse rfl rfl
    { literal := by decide +kernel
      head := by decide +kernel
      last := by decide +kernel
      readable := by decide +kernel
      bounds := by decide +kernel
      whole := by decide +kernel
      nested := by decide +kernel }

end MessageMarkup
