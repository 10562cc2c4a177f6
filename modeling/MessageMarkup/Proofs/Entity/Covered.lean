import MessageMarkup.Proofs.Entity.Shorten

/-!
# What an entity covers

When markup is taken out of a text before and behind some content, an entity that was found before
is shortened by a fixed number of units. Unless it stops strictly inside the markup, this is just
what it takes: it then covers what it covered, without what was taken out (`covered_unwrap`).
`covered_withoutPair` and `covered_withoutLink` say so of the two kinds of markup.
-/

namespace MessageMarkup.Entity

variable {α : Type} {e e' : Entity}

/-- The units of a text that an entity covers. -/
def covered (e : Entity) (text : List α) : List α :=
  (text.drop e.offset).take e.length

/-- What is behind an entity does not matter. -/
theorem covered_append {xs : List α} (h : e.stop ≤ xs.length) (ys : List α) :
    e.covered (xs ++ ys) = e.covered xs := by
  unfold stop at h
  unfold covered
  rw [List.drop_append_of_le_length (by omega),
    List.take_append_of_le_length (by rw [List.length_drop]; omega)]

/-- Markup `xs` and `zs` is taken out before and behind `ys`, and an entity that starts before it is
shortened. If it stopped before the markup it stays as it is; if it stopped between the two it loses
what was before, and if it stopped behind both it loses both. Then it covers what it covered,
without the markup. -/
theorem covered_unwrap {as xs ys zs bs : List α} {stays : α → Bool}
    (hstays : ∀ u ∈ as ++ (ys ++ bs), stays u = true) (hgoes : ∀ u ∈ xs ++ zs, stays u = false)
    (hoffset : e'.offset = e.offset) (hle : e.offset ≤ as.length)
    (hlength :
      e.stop ≤ as.length ∧ e'.length = e.length ∨
      as.length + xs.length ≤ e.stop ∧ e.stop ≤ as.length + xs.length + ys.length ∧
        e'.length + xs.length = e.length ∨
      as.length + xs.length + ys.length + zs.length ≤ e.stop ∧
        e'.length + (xs.length + zs.length) = e.length) :
    e'.covered (as ++ (ys ++ bs)) =
      (e.covered (as ++ (xs ++ (ys ++ (zs ++ bs))))).filter stays := by
  have hfilter {us : List α} (hus : ∀ u ∈ us, u ∈ as ++ (ys ++ bs)) : us.filter stays = us :=
    List.filter_eq_self.mpr fun u hu => hstays u (hus u hu)
  have hnone {us : List α} (hus : ∀ u ∈ us, u ∈ xs ++ zs) : us.filter stays = [] :=
    List.filter_eq_nil_iff.mpr fun u hu => Bool.eq_false_iff.mp (hgoes u (hus u hu))
  -- The units from the start of the entity on, as far as the markup.
  obtain ⟨first, hfirst⟩ : ∃ first, first = as.drop e.offset := ⟨_, rfl⟩
  have hlen : first.length + e.offset = as.length := by
    rw [hfirst, List.length_drop]
    omega
  have hmem : ∀ u ∈ first, u ∈ as ++ (ys ++ bs) := fun u hu =>
    List.mem_append_left _ (List.mem_of_mem_drop (hfirst ▸ hu))
  have hys : ∀ u ∈ ys, u ∈ as ++ (ys ++ bs) := fun u hu =>
    List.mem_append_right _ (List.mem_append_left _ hu)
  have hbs : ∀ u ∈ bs, u ∈ as ++ (ys ++ bs) := fun u hu =>
    List.mem_append_right _ (List.mem_append_right _ hu)
  unfold stop at hlength
  unfold covered
  rw [hoffset, List.drop_append_of_le_length hle, List.drop_append_of_le_length hle, ← hfirst]
  rcases hlength with ⟨hstop, hsame⟩ | ⟨hstart, hstop, hshort⟩ | ⟨hstop, hshort⟩
  · rw [hsame, List.take_append_of_le_length (by omega), List.take_append_of_le_length (by omega),
      hfilter fun u hu => hmem u (List.mem_of_mem_take hu)]
  · obtain ⟨n, hn⟩ : ∃ n, e.length = first.length + (xs.length + n) :=
      ⟨e.length - first.length - xs.length, by omega⟩
    have hn' : e'.length = first.length + n := by omega
    rw [hn, hn', List.take_length_add_append, List.take_length_add_append,
      List.take_length_add_append, List.take_append_of_le_length (by omega),
      List.take_append_of_le_length (by omega), List.filter_append, List.filter_append,
      hfilter hmem, hnone fun u hu => List.mem_append_left _ hu,
      hfilter fun u hu => hys u (List.mem_of_mem_take hu), List.nil_append]
  · obtain ⟨n, hn⟩ :
        ∃ n, e.length = first.length + (xs.length + (ys.length + (zs.length + n))) :=
      ⟨e.length - first.length - xs.length - ys.length - zs.length, by omega⟩
    have hn' : e'.length = first.length + (ys.length + n) := by omega
    simp only [hn, hn', List.take_length_add_append, List.filter_append, hfilter hmem, hfilter hys,
      hnone fun u hu => List.mem_append_left zs hu, hnone fun u hu => List.mem_append_right xs hu,
      hfilter fun u hu => hbs u (List.mem_of_mem_take hu), List.nil_append]

variable {as xs ys zs bs : List α} {stays : α → Bool}

/-- A pair is taken out. An entity that does not stop strictly inside a marker covers what it
covered, without the markers. -/
theorem covered_withoutPair {width : Nat} (hxs : xs.length = width) (hzs : zs.length = width)
    (hstays : ∀ u ∈ as ++ (ys ++ bs), stays u = true) (hgoes : ∀ u ∈ xs ++ zs, stays u = false)
    (hle : e.offset ≤ as.length)
    (hopening : ¬ (as.length < e.stop ∧ e.stop < as.length + width))
    (hclosing : ¬ (as.length + width + ys.length < e.stop ∧
      e.stop < as.length + width + ys.length + width)) :
    (e.withoutPair as.length (as.length + width + ys.length) width).covered (as ++ (ys ++ bs)) =
      (e.covered (as ++ (xs ++ (ys ++ (zs ++ bs))))).filter stays := by
  refine covered_unwrap hstays hgoes offset_withoutPair hle ?_
  have hstop : e.stop = e.offset + e.length := rfl
  unfold withoutPair shorten
  split
  · split <;> dsimp only <;> omega
  · omega

/-- A link is replaced by its label. An entity that does not stop strictly inside the link covers
what it covered, without what stood around the label. -/
theorem covered_withoutLink
    (hstays : ∀ u ∈ as ++ (ys ++ bs), stays u = true) (hgoes : ∀ u ∈ xs ++ zs, stays u = false)
    (hle : e.offset ≤ as.length)
    (hlink : ¬ (as.length < e.stop ∧ e.stop < as.length + (xs.length + (ys.length + zs.length)))) :
    (e.withoutLink as.length (xs.length + zs.length)).covered (as ++ (ys ++ bs)) =
      (e.covered (as ++ (xs ++ (ys ++ (zs ++ bs))))).filter stays := by
  refine covered_unwrap hstays hgoes offset_withoutLink hle ?_
  have hstop : e.stop = e.offset + e.length := rfl
  unfold withoutLink shorten
  split
  · dsimp only
    omega
  · omega

end MessageMarkup.Entity
