import MessageMarkup.Proofs.Link.Scanner
import MessageMarkup.Proofs.Utf16.WellFormed

/-!
# Links in the units of a text

`LinkPattern.linkAt?_standardSource` says which links the standard pattern finds, in terms of the
units of a text and of no search: from an opening bracket the label reaches to the first closing
bracket, an opening parenthesis is right behind that, and from there the url reaches to the first
closing parenthesis. A mark is one unit that is no surrogate, so it occurs in the units of a text
where it occurs in the text (`Utf16.ofMark_mem_encode_iff`), and a position with a mark is always
one between characters.
-/

namespace MessageMarkup

/-! ## First positions -/

section FirstFrom

variable {α : Type} {xs ys zs : List α} {x : α} {start n : Nat}

/-- An element is at the position `n`, which is `start` or behind it, and not between the two. -/
structure FirstFrom (xs : List α) (x : α) (start n : Nat) : Prop where
  /-- The position is not before the start. -/
  start_le : start ≤ n
  /-- The element is there. -/
  getElem?_eq : xs[n]? = some x
  /-- It is not between the start and the position. -/
  ne_of_lt : ∀ m, start ≤ m → m < n → xs[m]? ≠ some x

/-- Behind what is before the start, and what does not have the element, it is first. -/
theorem firstFrom_append (xs : List α) {between : List α} (hx : x ∉ between) (behind : List α) :
    FirstFrom (xs ++ (between ++ x :: behind)) x xs.length (xs.length + between.length) where
  start_le := Nat.le_add_right _ _
  getElem?_eq := by simp
  ne_of_lt m hle hlt := by
    rw [List.getElem?_append_right hle, List.getElem?_append_left (by omega)]
    exact fun hm => hx (List.mem_of_getElem? hm)

/-- Where an element is first, what is before it from the start on does not have it. -/
theorem FirstFrom.exists_append (h : FirstFrom zs x start n) (hzs : zs = xs ++ ys)
    (hstart : xs.length = start) :
    ∃ between behind, ys = between ++ x :: behind ∧ x ∉ between ∧ n = start + between.length := by
  obtain ⟨m, rfl⟩ := Nat.exists_eq_add_of_le h.start_le
  subst hzs hstart
  have hm : ys[m]? = some x := by
    rw [← h.getElem?_eq, List.getElem?_append_right h.start_le, Nat.add_sub_cancel_left]
  obtain ⟨hlt, hx⟩ := List.getElem?_eq_some_iff.mp hm
  refine ⟨ys.take m, ys.drop (m + 1), ?_, fun hmem => ?_, ?_⟩
  · rw [← hx, ← List.drop_eq_getElem_cons hlt, List.take_append_drop]
  · -- An element between the two is at a position between the two.
    obtain ⟨k, hk⟩ := List.mem_iff_getElem?.mp hmem
    obtain ⟨hkm, -⟩ := List.getElem?_eq_some_iff.mp hk
    rw [List.length_take] at hkm
    rw [List.getElem?_take_of_lt (by omega)] at hk
    refine h.ne_of_lt (xs.length + k) (by omega) (by omega) ?_
    rw [List.getElem?_append_right (by omega), Nat.add_sub_cancel_left, hk]
  · rw [List.length_take, Nat.min_eq_left hlt.le]

/-- An element behind what is before its position is the next one there. -/
theorem exists_cons_of_getElem? (h : zs[n]? = some x) (hzs : zs = xs ++ ys)
    (hn : xs.length = n) : ∃ behind, ys = x :: behind := by
  subst hzs hn
  rw [List.getElem?_append_right (Nat.le_refl _), Nat.sub_self] at h
  cases ys with
  | nil => exact absurd h.symm (Option.some_ne_none x)
  | cons y behind => exact ⟨behind, congrArg (· :: behind) (Option.some.inj h)⟩

end FirstFrom

/-! ## Marks -/

namespace Utf16

/-- The unit of a mark, which is a character of one unit. -/
def ofMark (c : Char) : UInt16 :=
  UInt16.ofNat c.toNat

/-- A mark is one unit. -/
theorem ofChar_mark {c : Char} (hc : c.toNat < 0xD800) : ofChar c = [ofMark c] :=
  ofChar_of_lt (by omega)

/-- A mark is no surrogate. -/
theorem isSurrogate_ofMark {c : Char} (hc : c.toNat < 0xD800) : isSurrogate (ofMark c) = false := by
  rw [← Bool.not_eq_true, isSurrogate_iff, ofMark, toNat_ofNat_of_lt (by omega)]
  omega

/-- A mark is among the units of a text if and only if it is in the text. -/
theorem ofMark_mem_encode_iff {c : Char} (hc : c.toNat < 0xD800) {cs : List Char} :
    ofMark c ∈ encode cs ↔ c ∈ cs := by
  constructor
  · intro h
    obtain ⟨d, hd, hmem⟩ := List.mem_flatMap.mp h
    have hmark := isSurrogate_ofMark hc
    -- It is no half of a pair, so it is all of a character.
    rcases ofChar_cases d with ⟨u, hu, -, hsingle, -⟩ | ⟨high, low, hu, hhigh, hlow, -, -⟩
    · rw [hu] at hmem
      have hchar : single (ofMark c) = c := by
        rw [single, hmark, ofMark, toNat_ofNat_of_lt (by omega)]
        exact Char.ofNat_toNat c
      rw [← hchar, List.mem_singleton.mp hmem, hsingle]
      exact hd
    · rw [hu] at hmem
      rcases List.mem_pair.mp hmem with heq | heq <;> rw [heq] at hmark
      · exact absurd (hmark.symm.trans (isSurrogate_of_isHigh hhigh)) Bool.false_ne_true
      · exact absurd (hmark.symm.trans (isSurrogate_of_isLow hlow)) Bool.false_ne_true
  · intro h
    refine List.mem_flatMap.mpr ⟨c, h, ?_⟩
    rw [ofChar_mark hc]
    exact List.mem_singleton_self _

end Utf16

/-! ## Links -/

namespace LinkPattern

open Utf16 (encode ofMark ofMark_mem_encode_iff)

variable {cs : List Char} {l : Link}

/-- The link at a position of a text is one with which the text behind the position starts. -/
theorem linkAt?_standard_eq_some_iff {i : Nat} :
    standard.linkAt? (encode cs) i = some l ↔
      ∃ passed label url tail, cs = passed ++ (written label url ++ tail) ∧
        Utf16.length passed = i ∧ ']' ∉ label ∧ ')' ∉ url ∧
        l.length = Utf16.length (written label url) ∧ l.label = encode label ∧
        l.url = String.ofList url := by
  have hlinkIn : standard.linkAt? (encode cs) i = linkIn? cs i := by
    rw [linkAt?, Utf16.decode_encode, linkIn?]
  rw [hlinkIn]
  constructor
  · intro h
    obtain ⟨place, hplace, hl⟩ := Option.bind_eq_some_iff.mp h
    obtain ⟨passed, hcs, hlen, -, -⟩ := placeAt?_eq_some hplace
    obtain ⟨label, url, tail, hrest, hlink⟩ := linkFrom?_standard_eq_some_iff.mp hl
    exact ⟨passed, label, url, tail, by rw [hcs, hrest], hlen, hlink⟩
  · rintro ⟨passed, label, url, tail, rfl, rfl, hlink⟩
    rw [linkIn?_append, linkAhead?_eq_some_iff]
    exact ⟨label, url, tail, rfl, hlink⟩

/-- The units of a link are those of its label and url, with the marks around them. -/
theorem encode_written (label url : List Char) :
    encode (written label url) =
      ofMark '[' :: (encode label ++ ofMark ']' :: ofMark '(' :: (encode url ++ [ofMark ')'])) := by
  rw [written, Utf16.encode_cons, Utf16.encode_append, Utf16.encode_cons, Utf16.encode_cons,
    Utf16.encode_append, Utf16.encode_cons, Utf16.encode_nil, List.append_nil,
    Utf16.ofChar_mark (by decide), Utf16.ofChar_mark (by decide), Utf16.ofChar_mark (by decide),
    Utf16.ofChar_mark (by decide)]
  rfl

/-- The units from `i` on write a link of which the label ends at `j` and the url at `k`. -/
structure WritesLink (units : List UInt16) (i j k : Nat) : Prop where
  /-- The link starts with an opening bracket. -/
  opening : units[i]? = some (ofMark '[')
  /-- The label ends at the first closing bracket. -/
  label : FirstFrom units (ofMark ']') (i + 1) j
  /-- An opening parenthesis is right behind it. -/
  between : units[j + 1]? = some (ofMark '(')
  /-- The url ends at the first closing parenthesis. -/
  url : FirstFrom units (ofMark ')') (j + 2) k

/-- What stands in front of a link, and behind it, has no part in it. -/
theorem writesLink_append (passed : List UInt16) {label url : List UInt16}
    (hlabel : ofMark ']' ∉ label) (hurl : ofMark ')' ∉ url) (tail : List UInt16) :
    WritesLink (passed ++ ofMark '[' :: (label ++ ofMark ']' :: ofMark '(' ::
      (url ++ ofMark ')' :: tail))) passed.length (passed.length + 1 + label.length)
      (passed.length + 1 + label.length + 2 + url.length) where
  opening := by simp
  label := by
    have h := firstFrom_append (passed ++ [ofMark '[']) hlabel
      (ofMark '(' :: (url ++ ofMark ')' :: tail))
    rw [List.append_assoc, List.length_append] at h
    exact h
  between := by
    rw [List.getElem?_append_right (by omega), Nat.add_assoc, Nat.add_assoc,
      Nat.add_sub_cancel_left]
    simp [Nat.add_comm 1]
  url := by
    have h := firstFrom_append
      (passed ++ ofMark '[' :: (label ++ [ofMark ']', ofMark '('])) hurl tail
    have hlen : (passed ++ ofMark '[' :: (label ++ [ofMark ']', ofMark '('])).length =
        passed.length + 1 + label.length + 2 := by
      simp only [List.length_append, List.length_cons, List.length_nil]
      omega
    rw [hlen] at h
    simpa using h

/-- Units that write a link are those of a label and a url without the marks that end them, with the
marks around them. -/
theorem WritesLink.exists_append {units : List UInt16} {i j k : Nat} (h : WritesLink units i j k) :
    ∃ passed label url tail, units = passed ++ ofMark '[' :: (label ++ ofMark ']' :: ofMark '(' ::
        (url ++ ofMark ')' :: tail)) ∧ passed.length = i ∧ j = i + 1 + label.length ∧
      k = j + 2 + url.length ∧ ofMark ']' ∉ label ∧ ofMark ')' ∉ url := by
  obtain ⟨hi, -⟩ := List.getElem?_eq_some_iff.mp h.opening
  have hpassed : (units.take i).length = i := by rw [List.length_take, Nat.min_eq_left hi.le]
  -- One mark is found after the other, each in what is behind the one before.
  obtain ⟨behind, hopening⟩ :=
    exists_cons_of_getElem? h.opening (List.take_append_drop i units).symm hpassed
  have hunits : units = (units.take i ++ [ofMark '[']) ++ behind := by
    rw [List.append_assoc, List.singleton_append, ← hopening, List.take_append_drop]
  obtain ⟨label, behind, rfl, hlabel, hj⟩ := h.label.exists_append hunits (by simp [hpassed])
  have hunits : units = (units.take i ++ ofMark '[' :: (label ++ [ofMark ']'])) ++ behind :=
    hunits.trans (by simp)
  obtain ⟨behind, rfl⟩ := exists_cons_of_getElem? h.between hunits (by simp [hpassed]; omega)
  have hunits : units =
      (units.take i ++ ofMark '[' :: (label ++ [ofMark ']', ofMark '('])) ++ behind :=
    hunits.trans (by simp)
  obtain ⟨url, tail, rfl, hurl, hk⟩ := h.url.exists_append hunits (by simp [hpassed]; omega)
  exact ⟨units.take i, label, url, tail, hunits.trans (by simp), hpassed, hj, hk, hlabel, hurl⟩

/-- The units of a link in a text write a link. -/
theorem writesLink_encode {passed label url tail : List Char} (hlabel : ']' ∉ label)
    (hurl : ')' ∉ url) :
    WritesLink (encode (passed ++ (written label url ++ tail))) (Utf16.length passed)
      (Utf16.length passed + 1 + Utf16.length label)
      (Utf16.length passed + 1 + Utf16.length label + 2 + Utf16.length url) := by
  have h := writesLink_append (encode passed) (mt (ofMark_mem_encode_iff (by decide)).mp hlabel)
    (mt (ofMark_mem_encode_iff (by decide)).mp hurl) (encode tail)
  simp only [Utf16.length_encode] at h
  rw [Utf16.encode_append, Utf16.encode_append, encode_written]
  simpa using h

/-- Units of a text that write a link are the units of a link in the text. -/
theorem WritesLink.exists_written {i j k : Nat} (h : WritesLink (encode cs) i j k) :
    ∃ passed label url tail, cs = passed ++ (written label url ++ tail) ∧
      Utf16.length passed = i ∧ j = i + 1 + Utf16.length label ∧
      k = j + 2 + Utf16.length url ∧ ']' ∉ label ∧ ')' ∉ url := by
  obtain ⟨passed, label, url, tail, hunits, hi, hj, hk, hlabel, hurl⟩ := h.exists_append
  -- The marks stand between characters, and so do the label and the url.
  have hopening : encode cs = passed ++ (encode ['['] ++ (label ++ ofMark ']' :: ofMark '(' ::
      (url ++ ofMark ')' :: tail))) := hunits
  obtain ⟨before, rest, hcs, rfl, hrest⟩ :=
    Utf16.exists_append_of_encode (List.cons_ne_nil _ _) hopening
  have hbetween : encode rest = label ++ (encode [']', '('] ++ (url ++ ofMark ')' :: tail)) :=
    hrest.symm
  obtain ⟨visible, rest', rfl, rfl, hrest'⟩ :=
    Utf16.exists_append_of_encode (List.cons_ne_nil _ _) hbetween
  have hclosing : encode rest' = url ++ (encode [')'] ++ tail) := hrest'.symm
  obtain ⟨target, ahead, rfl, rfl, -⟩ :=
    Utf16.exists_append_of_encode (List.cons_ne_nil _ _) hclosing
  rw [Utf16.length_encode] at hi hj hk
  exact ⟨before, visible, target, ahead, hcs.trans (by simp [written]), hi, hj, hk,
    mt (ofMark_mem_encode_iff (by decide)).mpr hlabel,
    mt (ofMark_mem_encode_iff (by decide)).mpr hurl⟩

/-- What lies between the marks of a link are its label and its url. -/
theorem between_marks (passed label url tail : List Char) :
    let units := encode (passed ++ (written label url ++ tail))
    let i := Utf16.length passed
    let j := i + 1 + Utf16.length label
    let k := j + 2 + Utf16.length url
    k + 1 - i = Utf16.length (written label url) ∧ (units.take j).drop (i + 1) = encode label ∧
      (units.take k).drop (j + 2) = encode url := by
  intro units i j k
  have hunits : units = (encode passed ++ [ofMark '[']) ++ (encode label ++
      ([ofMark ']', ofMark '('] ++ (encode url ++ ofMark ')' :: encode tail))) := by
    show encode (passed ++ (written label url ++ tail)) = _
    rw [Utf16.encode_append, Utf16.encode_append, encode_written]
    simp
  have hi : (encode passed ++ [ofMark '[']).length = i + 1 := by
    rw [List.length_append, Utf16.length_encode]
    rfl
  have hj : (encode label).length = j - (i + 1) := by
    rw [Utf16.length_encode]
    omega
  have hk : (encode url).length = k - (j + 2) := by
    rw [Utf16.length_encode]
    omega
  have hbehind : units.drop (j + 2) = encode url ++ ofMark ')' :: encode tail := by
    have hsplit : j + 2 = (i + 1) + (Utf16.length label + 2) := by omega
    rw [hunits, hsplit, ← hi, ← List.drop_drop, List.drop_left, ← Utf16.length_encode,
      ← List.drop_drop, List.drop_left]
    rfl
  refine ⟨?_, ?_, ?_⟩
  · have hlength := congrArg List.length (encode_written label url)
    simp only [Utf16.length_encode, List.length_cons, List.length_append, List.length_nil]
      at hlength
    omega
  · rw [List.drop_take, ← hj, hunits, ← hi, List.drop_left, List.take_left]
  · rw [List.drop_take, ← hk, hbehind, List.take_left]

/-- Links as they are written where nothing else is said. At a position of the units of any text
there is one if and only if an opening bracket is there, then a first closing bracket, an opening
parenthesis right behind that, and from there a first closing parenthesis. The label is what is
between the brackets, the url what is between the parentheses, and the link covers all of that. A
new scanner finds the same. -/
theorem linkAt?_standardSource :
    LinkPattern.read standardSource = .ok standard ∧
      ∀ (text : String) (i : Nat),
        ((LinkScanner.ofUnits standard (Utf16.ofText text)).linkAt? i).1 =
            standard.linkAt? (Utf16.ofText text) i ∧
          ∀ l, standard.linkAt? (Utf16.ofText text) i = some l ↔
            ∃ j k, WritesLink (Utf16.ofText text) i j k ∧ l.length = k + 1 - i ∧
              l.label = ((Utf16.ofText text).take j).drop (i + 1) ∧
              l.url = Utf16.toText (((Utf16.ofText text).take k).drop (j + 2)) := by
  refine ⟨rfl, fun text i => ⟨LinkScanner.linkAt?_ofUnits _ _ _, fun l => ?_⟩⟩
  unfold Utf16.ofText
  rw [linkAt?_standard_eq_some_iff]
  constructor
  · rintro ⟨passed, label, url, tail, hcs, rfl, hlabel, hurl, hlength, hl, hu⟩
    have hmarks := between_marks passed label url tail
    rw [← hcs] at hmarks
    refine ⟨_, _, hcs ▸ writesLink_encode hlabel hurl, ?_, ?_, ?_⟩
    · rw [hlength, hmarks.1]
    · rw [hl, hmarks.2.1]
    · rw [hu, hmarks.2.2, Utf16.toText, Utf16.decode_encode]
  · rintro ⟨j, k, hwrites, hlength, hl, hu⟩
    obtain ⟨passed, label, url, tail, hcs, rfl, rfl, rfl, hlabel, hurl⟩ := hwrites.exists_written
    have hmarks := between_marks passed label url tail
    rw [← hcs] at hmarks
    refine ⟨passed, label, url, tail, hcs, rfl, hlabel, hurl, ?_, ?_, ?_⟩
    · rw [hlength, hmarks.1]
    · rw [hl, hmarks.2.1]
    · rw [hu, hmarks.2.2, Utf16.toText, Utf16.decode_encode]

/-- A label with a line break, an opening bracket and a character of two units, a url with an
opening parenthesis, and a link without either; the brackets at the start have a space behind
them. -/
example :
    let units := Utf16.ofText "[a] (b)[\n[😀](u(v))[]()"
    ((List.range units.length).filterMap fun i => (standard.linkAt? units i).map fun l =>
      (i, l.length, Utf16.toText l.label, l.url)) =
      [(7, 11, "\n[😀", "u(v"), (9, 9, "😀", "u(v"), (19, 4, "", "")] := by
  decide +kernel

end LinkPattern

end MessageMarkup
