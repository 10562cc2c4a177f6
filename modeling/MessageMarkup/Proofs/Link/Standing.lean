import MessageMarkup.Proofs.Link.Scanner
import MessageMarkup.Proofs.Pattern.Capture

/-!
# Where a link stands

However links are written, a link that a scanner gives at a position stands there
(`LinkScanner.standsAt_of_linkAt?`): it covers characters of the text from that position on, and its
label is a piece of them. So putting the label in the place of the link takes characters out of the
text, whole ones, and puts none in. A scanner that has kept an earlier answer gives it only at the
position at which it found the link, so it is enough that what it keeps is right
(`LinkScanner.Sound`).
-/

namespace MessageMarkup

open Utf16 (encode length)

/-- A link covers the characters of a text from a position on, and its label is a piece of them. -/
def Link.StandsAt (l : Link) (text : List Char) (position : Nat) : Prop :=
  ∃ passed before label after ahead,
    text = passed ++ (before ++ (label ++ (after ++ ahead))) ∧ Utf16.length passed = position ∧
      l.label = encode label ∧
      l.length = Utf16.length before + (Utf16.length label + Utf16.length after)

namespace LinkPattern

/-- What a match writes stands where the match starts. -/
theorem standsAt_of_linkOf? {start : Cursor} {m : Match} {l : Link} (hm : m.Inside start)
    (h : linkOf? start m = some l) (passed : List Char) :
    l.StandsAt (passed ++ start.rest) (length passed) := by
  obtain ⟨before, after, hmatched⟩ := hm.exists_captured 1
  unfold linkOf? at h
  dsimp only at h
  split at h
  · rw [← Option.some.inj h]
    refine ⟨passed, before, m.captured 1, after, m.last.rest, ?_, rfl, rfl, ?_⟩
    · rw [hm.last.rest_eq, hmatched, List.append_assoc, List.append_assoc]
    · show length (start.upTo m.last) = _
      rw [hmatched, Utf16.length_append, Utf16.length_append]
  · exact absurd h.symm (Option.some_ne_none l)

/-- The first match from a position on writes a link that stands where the match starts. -/
theorem standsAt_of_firstMatch? {p : LinkPattern} {text : List Char} {position : Nat}
    {place : Cursor} {m : FirstMatch} {l : Link} (hplace : placeAt? none text position = some place)
    (hm : p.firstMatch? position place = some m) (hl : m.link? = some l) :
    l.StandsAt text m.start := by
  obtain ⟨passed, htext, hlen, -, -⟩ := placeAt?_eq_some hplace
  obtain ⟨⟨start, found⟩, hfind, rfl⟩ := Option.map_eq_some_iff.mp hm
  obtain ⟨hstart, hfound⟩ := Program.find?_inside hfind
  have hstands := standsAt_of_linkOf? hfound hl (passed ++ place.upTo start)
  rw [List.append_assoc, ← hstart.rest_eq, ← htext, Utf16.length_append, hlen] at hstands
  exact hstands

end LinkPattern

namespace LinkScanner

/-- A scanner looks in a text, and the link that it found last stands where it found it. -/
structure Sound (s : LinkScanner) (text : List Char) : Prop where
  /-- It looks in the text. -/
  text_eq : s.text = text
  /-- What it found last is there. -/
  standsAt : ∀ search m l, s.last? = some search → search.found? = some m → m.link? = some l →
    l.StandsAt text m.start

/-- A new scanner has found nothing yet. -/
theorem sound_ofUnits (p : LinkPattern) (units : List UInt16) :
    (ofUnits p units).Sound (Utf16.decode units) where
  text_eq := rfl
  standsAt _ _ _ h := absurd h.symm (Option.some_ne_none _)

/-- A search that has an answer with a link found it at that position. -/
theorem exists_found_of_answer? {search : Search} {position : Nat} {l : Link}
    (h : search.answer? position = some (some l)) :
    ∃ m, search.found? = some m ∧ m.link? = some l ∧ m.start = position := by
  unfold Search.answer? at h
  split at h
  · split at h
    · exact absurd (Option.some.inj h).symm (Option.some_ne_none l)
    · exact absurd h.symm (Option.some_ne_none _)
  · rename_i m hm
    split at h
    · exact absurd (Option.some.inj h).symm (Option.some_ne_none l)
    · split at h
      · rename_i hposition
        exact ⟨m, hm, Option.some.inj h, hposition.symm⟩
      · exact absurd h.symm (Option.some_ne_none _)

/-- A link that a scanner gives at a position stands there. -/
theorem standsAt_of_linkAt? {s : LinkScanner} {text : List Char} (h : s.Sound text)
    {position : Nat} {l : Link} (hl : (s.linkAt? position).1 = some l) :
    l.StandsAt text position := by
  unfold linkAt? at hl
  split at hl
  · -- The last search has the answer.
    rename_i link? hanswer
    obtain ⟨search, hlast, hsearch⟩ := Option.bind_eq_some_iff.mp hanswer
    obtain rfl : link? = some l := hl
    obtain ⟨m, hm, hlink, rfl⟩ := exists_found_of_answer? hsearch
    exact h.standsAt search m l hlast hm hlink
  · rw [h.text_eq] at hl
    split at hl
    · exact absurd hl.symm (Option.some_ne_none l)
    · rename_i place hplace
      obtain ⟨m, hm, hlink⟩ := Option.bind_eq_some_iff.mp hl
      split at hlink
      · rename_i hstart
        rw [← hstart]
        exact LinkPattern.standsAt_of_firstMatch? hplace hm hlink
      · exact absurd hlink.symm (Option.some_ne_none l)

/-- A scanner that has been asked goes on in the same text. -/
theorem Sound.linkAt? {s : LinkScanner} {text : List Char} (h : s.Sound text) (position : Nat) :
    (s.linkAt? position).2.Sound text := by
  unfold LinkScanner.linkAt?
  split
  · exact h
  · split
    · exact h
    · rename_i place hplace
      refine ⟨h.text_eq, fun search m l hsearch hm hl => ?_⟩
      obtain rfl := Option.some.inj hsearch
      rw [h.text_eq] at hplace
      exact LinkPattern.standsAt_of_firstMatch? hplace hm hl

end LinkScanner

end MessageMarkup
