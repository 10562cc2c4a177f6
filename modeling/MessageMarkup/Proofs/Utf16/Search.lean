import MessageMarkup.Proofs.Occurrence
import MessageMarkup.Proofs.Utf16.WellFormed

/-!
# Searching in units

The end of a piece of markup is sought in units, from a position that may be inside a pair.
`occurrenceFrom?_isLeast` says what such a search finds: the least position from there on at which
the units that are sought occur, which for the units of texts is one between characters.
-/

namespace MessageMarkup.Utf16

variable {text marker : List Char} {n : Nat}

/-- Where the units of a text that is not empty occur in those of another, its characters start and
stop. -/
theorem isCut_of_occursAt (hmarker : marker ≠ []) (h : OccursAt (encode marker) (encode text) n) :
    IsCut text n ∧ IsCut text (n + length marker) := by
  obtain ⟨us, vs, hunits, rfl⟩ := (occursAt_iff (mt encode_eq_nil_iff.mp hmarker)).mp h
  obtain ⟨as, bs, rfl, rfl, -⟩ := exists_append_of_encode hmarker hunits
  rw [length_encode]
  refine ⟨⟨as, marker ++ bs, rfl, rfl⟩, as ++ marker, bs, ?_, length_append as marker⟩
  rw [List.append_assoc]

/-- A search for some units finds the least position, from the one where it starts, at which they
occur, and finds none if and only if they occur at none. In the units of a text, those of a text are
found between characters, wherever the search starts. -/
theorem occurrenceFrom?_isLeast {needle : List UInt16} (hneedle : needle ≠ [])
    (haystack : List UInt16) (start : Nat) :
    (∀ n, occurrenceFrom? haystack needle start = some n ↔
      IsLeast {m | start ≤ m ∧ OccursAt needle haystack m} n) ∧
    (occurrenceFrom? haystack needle start = none ↔
      ¬ ∃ m, start ≤ m ∧ OccursAt needle haystack m) ∧
    ∀ text marker : String, haystack = ofText text → needle = ofText marker →
      ∀ n ∈ occurrenceFrom? haystack needle start,
        IsCut text.toList n ∧ IsCut text.toList (n + needle.length) := by
  refine ⟨fun n => occurrenceFrom?_eq_some_iff hneedle, occurrenceFrom?_eq_none_iff hneedle, ?_⟩
  rintro text marker rfl rfl n hn
  obtain ⟨-, hoccurs⟩ := ((occurrenceFrom?_eq_some_iff hneedle).mp hn).1
  have hcuts := isCut_of_occursAt (mt encode_eq_nil_iff.mpr hneedle) hoccurs
  rwa [← length_encode] at hcuts

/-- A marker that overlaps itself, sought from inside a pair, from inside its first occurrence, and
from where too few units are left for it. -/
theorem occurrenceFrom?_isLeast_overlapping :
    let haystack := ofText "👋ababa👋"
    let needle := ofText "aba"
    needle ≠ [] ∧ splitsPair haystack 1 = true ∧
      IsLeast {m | 1 ≤ m ∧ OccursAt needle haystack m} 2 ∧
      IsLeast {m | 3 ≤ m ∧ OccursAt needle haystack m} 4 ∧
      (¬ ∃ m, 7 ≤ m ∧ OccursAt needle haystack m) ∧
      IsCut "👋ababa👋".toList 2 := by
  intro haystack needle
  have hneedle : needle ≠ [] := by decide
  obtain ⟨hfirst, -, hcuts⟩ := occurrenceFrom?_isLeast hneedle haystack 1
  have hfound : occurrenceFrom? haystack needle 1 = some 2 := by decide
  refine ⟨hneedle, by decide, (hfirst 2).mp hfound, ?_, ?_, (hcuts _ _ rfl rfl 2 hfound).1⟩
  · exact ((occurrenceFrom?_isLeast hneedle haystack 3).1 4).mp (by decide)
  · exact (occurrenceFrom?_isLeast hneedle haystack 7).2.1.mp (by decide)

end MessageMarkup.Utf16
