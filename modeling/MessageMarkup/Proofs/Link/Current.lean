import MessageMarkup.Link.Scanner
import MessageMarkup.Proofs.Pattern.Fresh
import MessageMarkup.Proofs.Pattern.Shift
import MessageMarkup.Proofs.Utf16

/-!
# A scanner finds what is there

A scanner answers from its last search where it can. `LinkScanner.Current.linkAt?` says that this
makes no difference, however links are written: asked at any position, a scanner of a text gives the
link that starts there, as a new one would, and is a scanner of the same text again. What it keeps
is right because a search names the first place at which a match starts
(`Cursor.firstFrom_eq_some`), and the match at a place is the same wherever the search began
(`Program.matchAt?_shift`). Positions between the halves of a surrogate pair, over which a search
goes without a look, have no link. So one scanner will do for any positions in any order
(`LinkScanner.linksAt_eq_fresh`).
-/

namespace MessageMarkup

open Utf16 (length)

/-! ## The first place -/

namespace Cursor

variable {β : Type} {f : Cursor → Option β}

/-- If nothing is found from a place on, there is nothing at any place before the end. -/
theorem firstFrom_eq_none {c : Cursor} (h : firstFrom f c.before c.rest c.index = none) {n : Nat}
    (hn : n < c.rest.length) : f (c.skip n) = none := by
  obtain ⟨before, cs, index⟩ := c
  induction cs generalizing before index n with
  | nil => exact absurd hn (Nat.not_lt_zero n)
  | cons x xs ih =>
    unfold firstFrom at h
    split at h
    · exact absurd h (Option.some_ne_none _)
    · rename_i hnone
      cases n with
      | zero => exact hnone
      | succ n => exact ih _ _ h (Nat.lt_of_succ_lt_succ hn)

/-- If something is found at a place, there is nothing at any place before that. -/
theorem firstFrom_eq_some {c d : Cursor} {b : β}
    (h : firstFrom f c.before c.rest c.index = some (d, b)) :
    ∃ k, k < c.rest.length ∧ d = c.skip k ∧ f d = some b ∧ ∀ n < k, f (c.skip n) = none := by
  obtain ⟨before, cs, index⟩ := c
  induction cs generalizing before index with
  | nil => exact absurd h.symm (Option.some_ne_none _)
  | cons x xs ih =>
    unfold firstFrom at h
    split at h
    · rename_i hsome
      obtain ⟨rfl, rfl⟩ := Prod.mk.inj (Option.some.inj h)
      exact ⟨0, Nat.succ_pos _, rfl, hsome, fun n hn => absurd hn (Nat.not_lt_zero n)⟩
    · rename_i hnone
      obtain ⟨k, hk, hd, hfound, hbefore⟩ := ih _ _ h
      refine ⟨k + 1, Nat.succ_lt_succ hk, hd, hfound, fun n hn => ?_⟩
      -- The first place is the one at which nothing was found, and the others are in the rest.
      cases n with
      | zero => exact hnone
      | succ n => exact hbefore n (Nat.lt_of_succ_lt_succ hn)

end Cursor

/-! ## Places at positions -/

namespace LinkPattern

/-- A place further on is sought behind the next character. -/
theorem placeAt?_cons_succ (before : Option Char) (c : Char) (cs : List Char) (n : Nat) :
    placeAt? before (c :: cs) (n + 1) =
      if Utf16.width c ≤ n + 1 then placeAt? (some c) cs (n + 1 - Utf16.width c) else none :=
  rfl

/-- The place at a position is behind the characters that end there. -/
theorem placeAt?_eq_some {before : Option Char} {cs : List Char} {n : Nat} {c : Cursor}
    (h : placeAt? before cs n = some c) :
    ∃ as, cs = as ++ c.rest ∧ length as = n ∧ c.rest ≠ [] ∧ c.index = 0 := by
  induction cs generalizing before n with
  | nil => exact absurd h (by simp [placeAt?])
  | cons x xs ih =>
    cases n with
    | zero =>
      obtain rfl := Option.some.inj h
      exact ⟨[], rfl, rfl, List.cons_ne_nil _ _, rfl⟩
    | succ n =>
      rw [placeAt?_cons_succ] at h
      split at h
      · obtain ⟨as, hxs, hlen, hne, hindex⟩ := ih h
        refine ⟨x :: as, congrArg (x :: ·) hxs, ?_, hne, hindex⟩
        rw [Utf16.length_cons]
        omega
      · exact absurd h.symm (Option.some_ne_none c)

/-- The place at a position can be sought from a place before it. -/
theorem placeAt?_add {before : Option Char} {cs : List Char} {n : Nat} {c : Cursor}
    (h : placeAt? before cs n = some c) (k : Nat) :
    placeAt? before cs (n + k) = placeAt? c.before c.rest k := by
  induction cs generalizing before n with
  | nil => exact absurd h.symm (Option.some_ne_none c)
  | cons x xs ih =>
    cases n with
    | zero =>
      obtain rfl := Option.some.inj h
      rw [Nat.zero_add]
    | succ n =>
      rw [placeAt?_cons_succ] at h
      split at h
      · rename_i hwidth
        have hsplit : n + 1 + k - Utf16.width x = n + 1 - Utf16.width x + k := by omega
        rw [Nat.add_right_comm, placeAt?_cons_succ, if_pos (by omega), Nat.add_right_comm, hsplit]
        exact ih h
      · exact absurd h.symm (Option.some_ne_none c)

/-- There is a place behind any characters but all. -/
theorem placeAt?_take {c : Cursor} {n : Nat} (hn : n < c.rest.length) :
    placeAt? c.before c.rest (length (c.rest.take n)) = some { c.skip n with index := 0 } := by
  obtain ⟨before, cs, index⟩ := c
  induction n generalizing before cs index with
  | zero =>
    cases cs with
    | nil => exact absurd hn (Nat.lt_irrefl 0)
    | cons x xs => rfl
  | succ n ih =>
    cases cs with
    | nil => exact absurd hn (Nat.not_lt_zero _)
    | cons x xs =>
      rw [List.take_succ_cons, Utf16.length_cons]
      -- The position is not zero, so the search for it goes behind the first character.
      obtain ⟨w, hw⟩ : ∃ w, Utf16.width x = w + 1 :=
        Nat.exists_eq_add_one.mpr (Utf16.width_pos x)
      have hposition : Utf16.width x + length (xs.take n) = w + length (xs.take n) + 1 := by omega
      rw [hposition, placeAt?_cons_succ, if_pos (by omega), ← hposition, Nat.add_sub_cancel_left]
      exact ih (some x) xs (index + 1) (Nat.lt_of_succ_lt_succ hn)

/-! ## Links at positions -/

variable {p : LinkPattern} {text : List Char} {start position : Nat} {place : Cursor}

/-- What a match writes does not depend on the numbers of places. -/
theorem linkOf?_shift (k : Nat) (place : Cursor) (m : Match) :
    linkOf? (place.shift k) (m.shift k) = linkOf? place m := by
  have hwhole : (place.shift k).upTo (m.shift k).last = place.upTo m.last :=
    Cursor.upTo_shift k place m.last
  unfold linkOf?
  simp only [hwhole, Match.captured_shift]

/-- The link that starts at a place does not depend on the number of the place. -/
theorem linkFrom?_index (p : LinkPattern) (place : Cursor) (index : Nat) :
    p.linkFrom? { place with index } = p.linkFrom? place := by
  have hzero (k : Nat) : p.linkFrom? { place with index := k } =
      p.linkFrom? { place with index := 0 } := by
    have hshift : { place with index := k } = ({ place with index := 0 } : Cursor).shift k := by
      rw [Cursor.shift, Nat.zero_add]
    unfold linkFrom?
    rw [hshift, Program.matchAt?_shift]
    cases p.program.matchAt? { place with index := 0 } with
    | none => rfl
    | some m => exact linkOf?_shift k _ m
  exact (hzero index).trans (hzero place.index).symm

/-- The link that starts at a position of a text. -/
def linkInText? (p : LinkPattern) (text : List Char) (position : Nat) : Option Link :=
  (placeAt? none text position).bind p.linkFrom?

/-- Behind some characters after a place it is the link that starts at the place behind them. -/
theorem linkInText?_of_placeAt? (hplace : placeAt? none text start = some place) {n : Nat}
    (hn : n < place.rest.length) :
    p.linkInText? text (start + length (place.rest.take n)) = p.linkFrom? (place.skip n) := by
  rw [linkInText?, placeAt?_add hplace, placeAt?_take hn]
  exact p.linkFrom?_index _ 0

/-- From a place on there is no link where no place is, and none where nothing matches. -/
theorem linkInText?_eq_none (hplace : placeAt? none text start = some place)
    (hle : start ≤ position) (h : ∀ n, n < place.rest.length →
      position = start + length (place.rest.take n) → p.program.matchAt? (place.skip n) = none) :
    p.linkInText? text position = none := by
  obtain ⟨k, rfl⟩ := Nat.exists_eq_add_of_le hle
  cases hk : placeAt? place.before place.rest k with
  | none => rw [linkInText?, placeAt?_add hplace, hk, Option.bind_none]
  | some c =>
    obtain ⟨as, hrest, rfl, hne, -⟩ := placeAt?_eq_some hk
    have htake : place.rest.take as.length = as := by
      rw [hrest]
      exact List.take_left
    have hlt : as.length < place.rest.length := by
      rw [hrest, List.length_append]
      exact Nat.lt_add_of_pos_right (List.length_pos_iff.mpr hne)
    have hnone := h as.length hlt (by rw [htake])
    rw [← htake, linkInText?_of_placeAt? hplace hlt, linkFrom?, hnone, Option.bind_none]

/-- A search from a position on answers with what is there. -/
theorem eq_linkInText?_of_answer? {link? : Option Link}
    (hplace : placeAt? none text start = some place)
    (h : Search.answer? ⟨start, p.firstMatch? start place⟩ position = some link?) :
    link? = p.linkInText? text position := by
  unfold Search.answer? firstMatch? at h
  rw [Program.find?_eq] at h
  cases hfirst : Cursor.firstFrom p.program.matchAt? place.before place.rest place.index with
  | none =>
    rw [hfirst] at h
    simp only [Option.map_none] at h
    -- No match was found, so there is no link from the start on.
    split at h
    · rename_i hle
      rw [← Option.some.inj h, linkInText?_eq_none hplace hle]
      exact fun n hn _ => Cursor.firstFrom_eq_none hfirst hn
    · exact absurd h.symm (Option.some_ne_none _)
  | some found =>
    obtain ⟨d, m⟩ := found
    obtain ⟨k, hk, rfl, hm, hbefore⟩ := Cursor.firstFrom_eq_some hfirst
    have hupTo : place.upTo (place.skip k) = place.rest.take k := by
      rw [Cursor.upTo, Cursor.index_skip hk.le, Nat.add_sub_cancel_left]
    rw [hfirst] at h
    simp only [Option.map_some, hupTo] at h
    split at h
    · -- Before the match that was found there is none.
      rename_i hpos
      rw [← Option.some.inj h, linkInText?_eq_none hplace hpos.1]
      rintro n - rfl
      refine hbefore n ?_
      by_contra hge
      have hsplit : place.rest.take n = place.rest.take k ++ (place.rest.drop k).take (n - k) := by
        rw [← List.take_add, Nat.add_sub_cancel' (Nat.le_of_not_lt hge)]
      rw [hsplit, Utf16.length_append] at hpos
      omega
    · split at h
      · -- At the match there is the link that it gives.
        rename_i hpos
        rw [← Option.some.inj h, hpos, linkInText?_of_placeAt? hplace hk, linkFrom?, hm,
          Option.bind_some]
      · exact absurd h.symm (Option.some_ne_none _)

end LinkPattern

/-! ## The scanner -/

namespace LinkScanner

open LinkPattern

/-- A scanner for links in a text, whose last search answers with what is there. -/
structure Current (s : LinkScanner) (p : LinkPattern) (text : List Char) : Prop where
  /-- It looks for links that are written in this way. -/
  pattern_eq : s.pattern = p
  /-- It looks in the text. -/
  text_eq : s.text = text
  /-- Where its last search has an answer, the answer is right. -/
  answer : ∀ search position link?, s.last? = some search →
    search.answer? position = some link? → link? = p.linkInText? text position

variable {s : LinkScanner} {p : LinkPattern} {text : List Char}

/-- A new scanner has no answers yet. -/
theorem current_ofUnits (p : LinkPattern) (units : List UInt16) :
    (ofUnits p units).Current p (Utf16.decode units) where
  pattern_eq := rfl
  text_eq := rfl
  answer _ _ _ h := absurd h.symm (Option.some_ne_none _)

/-- A scanner gives the link that starts at a position, and goes on as a scanner of the text. -/
theorem Current.linkAt? (h : s.Current p text) (position : Nat) :
    (s.linkAt? position).1 = p.linkInText? text position ∧
      (s.linkAt? position).2.Current p text := by
  unfold LinkScanner.linkAt?
  cases hanswer : s.last?.bind (·.answer? position) with
  | some link? =>
    obtain ⟨search, hlast, hsearch⟩ := Option.bind_eq_some_iff.mp hanswer
    exact ⟨h.answer search position link? hlast hsearch, h⟩
  | none =>
    rw [h.text_eq, h.pattern_eq]
    -- The last search has no answer, and a new one is made if there is a place for it.
    cases hplace : placeAt? none text position with
    | none => exact ⟨by rw [linkInText?, hplace]; rfl, h⟩
    | some place =>
      refine ⟨?_, rfl, rfl, ?_⟩
      · -- The answer is that of the new search.
        refine eq_linkInText?_of_answer? hplace ?_
        unfold Search.answer?
        cases hfound : p.firstMatch? position place with
        | none => simp [hfound]
        | some m =>
          have hle : position ≤ m.start := by
            obtain ⟨x, -, rfl⟩ := Option.map_eq_some_iff.mp hfound
            exact Nat.le_add_right _ _
          by_cases heq : m.start = position
          · simp [hfound, heq]
          · have hlt : position < m.start := by omega
            simp [hfound, heq, hlt]
      · intro search position' link? hlast hsearch
        obtain rfl := Option.some.inj hlast
        exact eq_linkInText?_of_answer? hplace hsearch

/-- A new scanner gives the link that starts at a position of its units. -/
theorem linkAt?_ofUnits (p : LinkPattern) (units : List UInt16) (position : Nat) :
    ((ofUnits p units).linkAt? position).1 = p.linkAt? units position :=
  ((current_ofUnits p units).linkAt? position).1

/-! ## One scanner for many positions -/

/-- The links at some positions, for which one scanner is asked in turn. -/
def linksAt (s : LinkScanner) : List Nat → List (Option Link)
  | [] => []
  | position :: positions =>
    (s.linkAt? position).1 :: (s.linkAt? position).2.linksAt positions

/-- In whatever order a scanner is asked, it gives the links that start at the positions. -/
theorem Current.linksAt (h : s.Current p text) (positions : List Nat) :
    s.linksAt positions = positions.map (p.linkInText? text) := by
  -- Each answer is right and leaves a scanner of the text for the next question.
  induction positions generalizing s with
  | nil => rfl
  | cons position positions ih =>
    obtain ⟨hlink, hnext⟩ := h.linkAt? position
    rw [LinkScanner.linksAt, List.map_cons, hlink, ih hnext]

/-- One scanner, asked for links at any positions in any order, answers at each of them like a new
scanner of the same units, which has kept no search; and a new scanner gives the match of the
pattern right there, in the text as it stands around the position, if it covers anything. -/
theorem linksAt_eq_fresh (p : LinkPattern) (units : List UInt16) (positions : List Nat) :
    (ofUnits p units).linksAt positions =
        positions.map (fun position => ((ofUnits p units).linkAt? position).1) ∧
      ∀ position, ((ofUnits p units).linkAt? position).1 = p.linkAt? units position := by
  refine ⟨?_, linkAt?_ofUnits p units⟩
  rw [(current_ofUnits p units).linksAt]
  exact List.map_congr_left fun position _ => (linkAt?_ofUnits p units position).symm

/-- Asked first behind a link, a scanner still finds it, and twice. -/
example :
    ((ofUnits .standard (Utf16.ofText "x[a](u)")).linksAt [2, 0, 1, 1, 7]).map (·.map (·.length)) =
      [none, none, some 6, some 6, none] := by
  decide +kernel

end LinkScanner

end MessageMarkup
