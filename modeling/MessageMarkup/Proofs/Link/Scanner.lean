import MessageMarkup.Proofs.Link.Current
import MessageMarkup.Proofs.Link.Standard

/-!
# A scanner for standard links

The standard link pattern looks at nothing before a link, so the link that starts at a position of a
text is the one with which the rest of the text starts (`LinkPattern.linkIn?_append`). A scanner for
standard links in a text gives that link, and is one of the same text again
(`LinkScanner.linkAt?_eq`).
-/

namespace MessageMarkup

/-! ## Standard links at positions -/

namespace LinkPattern

/-- The link that starts at a position of a text. -/
def linkIn? (text : List Char) (position : Nat) : Option Link :=
  (placeAt? none text position).bind standard.linkFrom?

/-- At the end of some characters it is the one with which the others start. -/
theorem linkIn?_append (as bs : List Char) :
    linkIn? (as ++ bs) (Utf16.length as) = linkAhead? bs := by
  unfold linkIn?
  cases bs with
  | nil =>
    -- At the end of the text there is no place, and no link.
    have hnone : linkAhead? [] = none := linkAhead?_of_head_ne (by simp)
    rw [hnone, Option.bind_eq_none_iff]
    intro c hc
    obtain ⟨as', has, hlen, hne, -⟩ := placeAt?_eq_some hc
    have hnil := Utf16.append_inj_of_length has hlen.symm
    exact absurd hnil.2.symm hne
  | cons b bs =>
    let start : Cursor := ⟨none, as ++ b :: bs, 0⟩
    have hlt : as.length < start.rest.length := by simp [start]
    have htake : start.rest.take as.length = as := List.take_left
    have hplace := placeAt?_take hlt
    rw [htake] at hplace
    have hrest : (start.skip as.length).rest = b :: bs := by
      rw [Cursor.rest_skip]
      exact List.drop_left
    rw [hplace, Option.bind_some, linkFrom?_standard, hrest]

/-- Where no piece of the text ends, no link starts. -/
theorem linkIn?_eq_none {text : List Char} {position : Nat}
    (h : ∀ as bs, text = as ++ bs → bs ≠ [] → Utf16.length as = position → linkAhead? bs = none) :
    linkIn? text position = none := by
  unfold linkIn?
  rw [Option.bind_eq_none_iff]
  intro c hc
  obtain ⟨as, htext, hlen, hne, -⟩ := placeAt?_eq_some hc
  rw [linkFrom?_standard, h as c.rest htext hne hlen]

end LinkPattern

/-! ## The scanner -/

namespace LinkScanner

open LinkPattern

/-- A scanner for standard links in a text, whose last search answers with what is there. -/
structure Faithful (s : LinkScanner) (text : List Char) : Prop where
  /-- It looks for standard links. -/
  pattern_eq : s.pattern = .standard
  /-- It looks in the text. -/
  text_eq : s.text = text
  /-- Where its last search has an answer, the answer is right. -/
  answer : ∀ search position link?, s.last? = some search →
    search.answer? position = some link? → link? = linkIn? text position

/-- It is a scanner for links that are written in the standard way. -/
theorem faithful_iff {s : LinkScanner} {text : List Char} :
    s.Faithful text ↔ s.Current .standard text :=
  ⟨fun h => ⟨h.pattern_eq, h.text_eq, h.answer⟩, fun h => ⟨h.pattern_eq, h.text_eq, h.answer⟩⟩

/-- A new scanner has no answers yet. -/
theorem faithful_ofUnits (units : List UInt16) :
    (ofUnits .standard units).Faithful (Utf16.decode units) :=
  faithful_iff.mpr (current_ofUnits .standard units)

/-- A scanner gives the link that starts at a position, and goes on as a scanner of the text. -/
theorem linkAt?_eq {s : LinkScanner} {text : List Char} (h : s.Faithful text) (position : Nat) :
    (s.linkAt? position).1 = linkIn? text position ∧ (s.linkAt? position).2.Faithful text := by
  obtain ⟨hlink, hnext⟩ := (faithful_iff.mp h).linkAt? position
  exact ⟨hlink, faithful_iff.mpr hnext⟩

end LinkScanner

end MessageMarkup
