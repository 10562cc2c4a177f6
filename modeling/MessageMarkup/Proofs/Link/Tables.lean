import Mathlib.Algebra.GroupWithZero.Nat
import MessageMarkup.Proofs.Link.Current

/-!
# A scanner that looks up offsets

A match is found in the bytes of a text, and a link is asked for by units. A scanner can keep the
offsets of the characters of its text in both, in two tables, and go from one to the other by the
number of a character. Every lookup of a number in a table, and every search from an offset, might
miss. `LinkScanner.Current.linkByTables?` says that none does: such a scanner answers at every
position, and gives the link that a scanner without tables gives there.
-/

namespace MessageMarkup

open Utf16 (length)

/-! ## Tables of offsets -/

/-- How much some characters take up. -/
def extent (size : Char → Nat) (cs : List Char) : Nat :=
  (cs.map size).sum

/-- The offsets at which the characters of a text start, from that of the first on. -/
def offsets (size : Char → Nat) : Nat → List Char → List Nat
  | _, [] => []
  | offset, c :: cs => offset :: offsets size (offset + size c) cs

section

variable {size : Char → Nat} {cs : List Char} {offset n k : Nat}

/-- A character more takes up its size more. -/
theorem extent_cons (size : Char → Nat) (c : Char) (cs : List Char) :
    extent size (c :: cs) = size c + extent size cs := by
  rw [extent, List.map_cons, List.sum_cons, extent]

/-- What two texts take up is what one and the other does. -/
theorem extent_append (size : Char → Nat) (as bs : List Char) :
    extent size (as ++ bs) = extent size as + extent size bs := by
  rw [extent, List.map_append, List.sum_append, extent, extent]

/-- In units it is the length. -/
theorem extent_width (cs : List Char) : extent Utf16.width cs = Utf16.length cs := by
  induction cs with
  | nil => rfl
  | cons c cs ih => rw [extent_cons, ih, Utf16.length_cons]

/-- A character starts behind all that the characters before it take up. -/
theorem getElem?_offsets (size : Char → Nat) (offset : Nat) (cs : List Char) (k : Nat) :
    (offsets size offset cs)[k]? =
      if k < cs.length then some (offset + extent size (cs.take k)) else none := by
  induction cs generalizing offset k with
  | nil => rfl
  | cons c cs ih =>
    cases k with
    | zero => rfl
    | succ k =>
      rw [offsets, List.getElem?_cons_succ, ih, List.take_succ_cons, extent_cons, Nat.add_assoc,
        List.length_cons]
      simp only [Nat.succ_lt_succ_iff]

/-- No character starts before the first one. -/
theorem le_of_mem_offsets (h : n ∈ offsets size offset cs) : offset ≤ n := by
  obtain ⟨k, hk⟩ := List.getElem?_of_mem h
  rw [getElem?_offsets] at hk
  split at hk
  · rw [← Option.some.inj hk]
    exact Nat.le_add_right _ _
  · exact absurd hk.symm (Option.some_ne_none n)

/-- If every character takes up something, a table is in strict order, as a search by bisection
needs it to be. -/
theorem offsets_sorted (hsize : ∀ c, 0 < size c) (offset : Nat) (cs : List Char) :
    (offsets size offset cs).Pairwise (· < ·) := by
  induction cs generalizing offset with
  | nil => exact List.Pairwise.nil
  | cons c cs ih =>
    refine List.pairwise_cons.mpr ⟨fun n hn => ?_, ih _⟩
    have := le_of_mem_offsets hn
    have := hsize c
    omega

/-- So it has an offset at one number at most, and a search finds it there. -/
theorem idxOf?_offsets (hsize : ∀ c, 0 < size c) :
    (offsets size 0 cs).idxOf? n = some k ↔ k < cs.length ∧ extent size (cs.take k) = n := by
  have hsorted := List.pairwise_iff_getElem.mp (offsets_sorted hsize 0 cs)
  have hlookup : (offsets size 0 cs).idxOf? n = some k ↔ (offsets size 0 cs)[k]? = some n := by
    rw [List.idxOf?_eq_some_iff, List.getElem?_eq_some_iff]
    refine exists_congr fun hk => and_iff_left_of_imp ?_
    rintro rfl j hj
    exact Nat.ne_of_lt (hsorted j k (hj.trans hk) hk hj)
  rw [hlookup, getElem?_offsets, Nat.zero_add]
  split
  · rename_i hk
    exact ⟨fun h => ⟨hk, Option.some.inj h⟩, fun h => congrArg some h.2⟩
  · rename_i hk
    exact ⟨fun h => absurd h.symm (Option.some_ne_none n), fun h => absurd h.1 hk⟩

end

/-- In units, a character starts behind any characters but all. -/
theorem mem_offsets_width_iff {cs : List Char} {i : Nat} :
    i ∈ offsets Utf16.width 0 cs ↔ ∃ as bs, cs = as ++ bs ∧ bs ≠ [] ∧ length as = i := by
  rw [List.mem_iff_getElem?]
  constructor
  · rintro ⟨k, hk⟩
    rw [getElem?_offsets, Nat.zero_add, extent_width] at hk
    obtain ⟨hlt, hi⟩ := Option.ite_none_right_eq_some.mp hk
    refine ⟨cs.take k, cs.drop k, (List.take_append_drop k cs).symm, fun hnil => ?_,
      Option.some.inj hi⟩
    exact Nat.not_le.mpr hlt (List.drop_eq_nil_iff.mp hnil)
  · rintro ⟨as, bs, rfl, hbs, rfl⟩
    have has : as.length < (as ++ bs).length := by
      simpa using List.length_pos_iff.mpr hbs
    refine ⟨as.length, ?_⟩
    rw [getElem?_offsets, if_pos has, Nat.zero_add, List.take_left, extent_width]

/-! ## Searching from an offset -/

namespace LinkPattern

/-- Links are looked for just where a character starts. -/
theorem isSome_placeAt?_iff {cs : List Char} {i : Nat} :
    (placeAt? none cs i).isSome = true ↔ i ∈ offsets Utf16.width 0 cs := by
  rw [mem_offsets_width_iff, Option.isSome_iff_exists]
  constructor
  · rintro ⟨place, hplace⟩
    obtain ⟨as, hcs, hlen, hne, -⟩ := placeAt?_eq_some hplace
    exact ⟨as, place.rest, hcs, hne, hlen⟩
  · rintro ⟨as, bs, rfl, hbs, rfl⟩
    have has : as.length < (as ++ bs).length := by
      simpa using List.length_pos_iff.mpr hbs
    have hplace := placeAt?_take (c := ⟨none, as ++ bs, 0⟩) has
    rw [List.take_left] at hplace
    exact ⟨_, hplace⟩

/-- The place in a text at a number of bytes after another place, which may be the end. There is
none inside a character or behind the end. -/
def placeAtByte? (before : Option Char) : List Char → Nat → Option Cursor
  | cs, 0 => some { before, rest := cs }
  | [], _ + 1 => none
  | c :: cs, n + 1 =>
    if c.utf8Size ≤ n + 1 then placeAtByte? (some c) cs (n + 1 - c.utf8Size) else none

/-- There is a place behind any characters. -/
theorem placeAtByte?_take (c : Cursor) (n : Nat) :
    placeAtByte? c.before c.rest (extent Char.utf8Size (c.rest.take n)) =
      some { c.skip n with index := 0 } := by
  obtain ⟨before, cs, index⟩ := c
  induction n generalizing before cs index with
  | zero => cases cs <;> rfl
  | succ n ih =>
    cases cs with
    | nil => rfl
    | cons x xs =>
      have hx := x.utf8Size_pos
      obtain ⟨w, hw⟩ : ∃ w, extent Char.utf8Size ((x :: xs).take (n + 1)) = w + 1 :=
        Nat.exists_eq_add_one.mpr (by rw [List.take_succ_cons, extent_cons]; omega)
      have hw' := hw
      rw [List.take_succ_cons, extent_cons] at hw'
      have hle : x.utf8Size ≤ w + 1 := by omega
      have hsub : w + 1 - x.utf8Size = extent Char.utf8Size (xs.take n) := by omega
      rw [hw, placeAtByte?, if_pos hle, hsub]
      exact ih (some x) xs (index + 1)

/-- The first match of a pattern from a character of a text on. It is looked for from the offset of
the character in bytes, and its own offset in units is looked up by the number of the character at
which it starts. There is no answer if the text has no such character, or no place there, or no
offset in units. -/
def firstByTables? (p : LinkPattern) (text : List Char) (index : Nat) :
    Option (Option FirstMatch) := do
  let byte ← (offsets Char.utf8Size 0 text)[index]?
  let place ← placeAtByte? none text byte
  match p.program.find? place with
  | none => return none
  | some (start, m) =>
    match (offsets Char.utf8Size 0 text).idxOf?
        (byte + extent Char.utf8Size (place.upTo start)) with
    | none => return none
    | some first =>
      let unit ← (offsets Utf16.width 0 text)[first]?
      return some ⟨unit, linkOf? start m⟩

/-- From every character of a text it is the first match from its place on. -/
theorem firstByTables?_eq (p : LinkPattern) {text : List Char} {index : Nat}
    (hindex : index < text.length) :
    p.firstByTables? text index = some (p.firstMatch? (length (text.take index))
      { (⟨none, text, 0⟩ : Cursor).skip index with index := 0 }) := by
  have hbyte : (offsets Char.utf8Size 0 text)[index]? =
      some (extent Char.utf8Size (text.take index)) := by
    rw [getElem?_offsets, if_pos hindex, Nat.zero_add]
  have hplace := placeAtByte?_take ⟨none, text, 0⟩ index
  have hrest := Cursor.rest_skip ⟨none, text, 0⟩ index
  generalize Cursor.skip ⟨none, text, 0⟩ index = place at hplace hrest ⊢
  rw [firstByTables?, firstMatch?, hbyte, Option.bind_eq_bind, Option.bind_some,
    Option.bind_eq_bind, hplace, Option.bind_some]
  rw [Program.find?_eq]
  cases hfirst : Cursor.firstFrom p.program.matchAt? place.before place.rest 0 with
  | none => rfl
  | some found =>
    obtain ⟨start, m⟩ := found
    obtain ⟨n, hn, rfl, -, -⟩ := Cursor.firstFrom_eq_some (c := { place with index := 0 }) hfirst
    -- The match starts at the character whose number is so much greater.
    have hupTo : ({ place with index := 0 } : Cursor).upTo
        (({ place with index := 0 } : Cursor).skip n) = (text.drop index).take n := by
      rw [Cursor.upTo, Cursor.index_skip hn.le, Nat.add_sub_cancel_left, ← hrest]
    have hbehind : text.take index ++ (text.drop index).take n = text.take (index + n) :=
      List.take_add.symm
    have hlt : index + n < text.length := by
      simp only [hrest, List.length_drop] at hn
      omega
    have hlookup : (offsets Char.utf8Size 0 text).idxOf?
        (extent Char.utf8Size (text.take (index + n))) = some (index + n) :=
      (idxOf?_offsets Char.utf8Size_pos).mpr ⟨hlt, rfl⟩
    have hunit : (offsets Utf16.width 0 text)[index + n]? =
        some (length (text.take (index + n))) := by
      rw [getElem?_offsets, if_pos hlt, Nat.zero_add, extent_width]
    simp only [hupTo, ← extent_append, hbehind, hlookup, hunit, Option.bind_some,
      Option.map_some, Option.pure_def, ← Utf16.length_append]

end LinkPattern

/-! ## The scanner -/

namespace LinkScanner

open LinkPattern

/-- The link at a position, and the scanner to ask next. The position is looked up in the table of
the units, and a search begins at the character that is found there. There is no answer if a lookup
behind that misses. -/
def linkByTables? (s : LinkScanner) (position : Nat) : Option (Option Link × LinkScanner) :=
  match (offsets Utf16.width 0 s.text).idxOf? position with
  | none => some (none, s)
  | some index =>
    match s.last?.bind (·.answer? position) with
    | some link? => some (link?, s)
    | none =>
      (s.pattern.firstByTables? s.text index).map fun found? =>
        (found?.bind fun m => if m.start = position then m.link? else none,
          { s with last? := some ⟨position, found?⟩ })

/-- At every position there is an answer, and it is that of a scanner without tables. -/
theorem Current.linkByTables? {s : LinkScanner} {p : LinkPattern} {text : List Char}
    (h : s.Current p text) (position : Nat) :
    s.linkByTables? position = some (s.linkAt? position) := by
  rw [LinkScanner.linkByTables?, LinkScanner.linkAt?, h.text_eq]
  cases hindex : (offsets Utf16.width 0 text).idxOf? position with
  | none =>
    -- Where no character starts there is no place, and the last search says so too.
    have hplace : placeAt? none text position = none := by
      rw [← Option.not_isSome_iff_eq_none, isSome_placeAt?_iff]
      exact List.idxOf?_eq_none_iff.mp hindex
    cases hanswer : s.last?.bind (·.answer? position) with
    | none => rw [hplace]
    | some link? =>
      obtain ⟨search, hlast, hsearch⟩ := Option.bind_eq_some_iff.mp hanswer
      rw [h.answer search position link? hlast hsearch, linkInText?, hplace, Option.bind_none]
  | some index =>
    obtain ⟨hlt, rfl⟩ := (idxOf?_offsets Utf16.width_pos).mp hindex
    have hplace := placeAt?_take (c := ⟨none, text, 0⟩) hlt
    rw [extent_width]
    cases hanswer : s.last?.bind (·.answer? (length (text.take index))) with
    | some link? => rfl
    | none =>
      simp only [firstByTables?_eq s.pattern hlt, hplace, Option.map_some]

end LinkScanner

end MessageMarkup
