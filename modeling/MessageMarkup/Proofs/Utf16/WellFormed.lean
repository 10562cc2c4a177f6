import MessageMarkup.Proofs.Utf16

/-!
# Well-formed units

Units are well-formed if every surrogate in them belongs to a pair. Those are the units of texts:
reading and writing them changes nothing (`wellFormed_iff`), so nothing is lost when they become a
text. Well-formed units stay so when texts are taken out of them, because a text that is not empty
starts and stops between characters wherever its units occur (`exists_append_of_encode`).
-/

namespace MessageMarkup.Utf16

/-- Units in which every surrogate belongs to a pair, a high one before a low one. -/
inductive WellFormed : List UInt16 → Prop where
  /-- No units. -/
  | nil : WellFormed []
  /-- A unit that is no surrogate, and others. -/
  | single {unit : UInt16} {units : List UInt16} :
      isSurrogate unit = false → WellFormed units → WellFormed (unit :: units)
  /-- A pair of surrogates, and other units. -/
  | pair {high low : UInt16} {units : List UInt16} :
      isHigh high = true → isLow low = true → WellFormed units →
      WellFormed (high :: low :: units)

/-- The units of a text are well-formed. -/
theorem wellFormed_encode (cs : List Char) : WellFormed (encode cs) := by
  induction cs with
  | nil => exact .nil
  | cons c cs ih =>
    rw [encode_cons]
    rcases ofChar_cases c with ⟨u, hu, hs, -, -⟩ | ⟨high, low, hu, hh, hl, -, -⟩
    · rw [hu]
      exact .single hs ih
    · rw [hu]
      exact .pair hh hl ih

/-- Well-formed units are written as they were read. -/
theorem WellFormed.encode_decode {units : List UInt16} (h : WellFormed units) :
    encode (decode units) = units := by
  induction h with
  | nil => rfl
  | single hs _ ih =>
    rw [decode_cons_of_not_isSurrogate hs, encode_cons, ofChar_single hs, ih]
    rfl
  | pair hh hl _ ih =>
    rw [decode, hh, hl, Bool.and_self, if_pos rfl, encode_cons, ofChar_joined hh hl, ih]
    rfl

/-- Units are well-formed if and only if they are written as they were read. -/
theorem wellFormed_iff {units : List UInt16} : WellFormed units ↔ encode (decode units) = units :=
  ⟨WellFormed.encode_decode, fun h => h ▸ wellFormed_encode _⟩

/-- Where the units of a text that is not empty occur in those of another, the other has the text,
between characters. -/
theorem exists_append_of_encode {text xs : List Char} {us vs : List UInt16} (hxs : xs ≠ [])
    (h : encode text = us ++ (encode xs ++ vs)) :
    ∃ as bs, text = as ++ (xs ++ bs) ∧ us = encode as ∧ vs = encode bs := by
  induction text generalizing us with
  | nil =>
    rw [encode_nil] at h
    obtain ⟨-, hrest⟩ := List.append_eq_nil_iff.mp h.symm
    exact absurd (encode_eq_nil_iff.mp (List.append_eq_nil_iff.mp hrest).1) hxs
  | cons c text ih =>
    cases us with
    | nil =>
      rw [List.nil_append] at h
      obtain ⟨bs, hbs⟩ := encode_prefix_iff.mp ⟨vs, h.symm⟩
      rw [← hbs, encode_append] at h
      exact ⟨[], bs, hbs.symm, rfl, (List.append_cancel_left h).symm⟩
    | cons u us =>
      -- An occurrence further on is one in the other characters.
      have hlater {us' : List UInt16} (hc : u :: us = ofChar c ++ us')
          (hrest : encode text = us' ++ (encode xs ++ vs)) :
          ∃ as bs, c :: text = as ++ (xs ++ bs) ∧ u :: us = encode as ∧ vs = encode bs := by
        obtain ⟨as, bs, htext, rfl, hvs⟩ := ih hrest
        exact ⟨c :: as, bs, by rw [htext, List.cons_append], by rw [encode_cons, hc], hvs⟩
      rw [encode_cons] at h
      rcases ofChar_cases c with ⟨v, hv, -, -, -⟩ | ⟨high, low, hv, -, hl, -, -⟩
      · rw [hv] at h hlater
        obtain ⟨rfl, hrest⟩ := List.cons.inj h
        exact hlater rfl hrest
      · rw [hv] at h hlater
        obtain ⟨rfl, hrest⟩ := List.cons.inj h
        cases us with
        | nil =>
          -- Between the halves of a pair no text starts.
          have hstart : encode xs <+: low :: encode text := ⟨vs, hrest.symm⟩
          rw [← List.isPrefixOf_iff_prefix, isPrefixOf_encode_low hxs hl] at hstart
          exact absurd hstart Bool.false_ne_true
        | cons u' us =>
          obtain ⟨rfl, hbehind⟩ := List.cons.inj hrest
          exact hlater rfl hbehind

/-- Units of a text up to the end of a piece of it are those of the piece. -/
theorem encode_eq_of_length {text as bs : List Char} {us vs : List UInt16}
    (h : encode text = us ++ vs) (htext : text = as ++ bs) (hlen : length as = us.length) :
    us = encode as ∧ vs = encode bs := by
  rw [htext, encode_append] at h
  obtain ⟨hus, hvs⟩ := List.append_inj h (by rw [length_encode, hlen])
  exact ⟨hus.symm, hvs.symm⟩

end MessageMarkup.Utf16
