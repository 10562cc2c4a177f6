import MessageMarkup.Format.Scan

/-!
# Entities that lose something

When markup is taken out of a text, the entities found before it keep their kind and their start,
and those that stop before it stay as they are.
-/

namespace MessageMarkup.Entity

variable {start stop width removed : Nat} {e : Entity}

/-- An entity with fewer units stops so many before, but not before it starts. -/
theorem stop_shorten (e : Entity) (n : Nat) : (e.shorten n).stop = max e.offset (e.stop - n) := by
  unfold shorten stop
  dsimp only
  omega

/-- Taking out a pair leaves an entity where it starts. -/
@[simp] theorem offset_withoutPair : (e.withoutPair start stop width).offset = e.offset := by
  unfold withoutPair
  split
  · split <;> rfl
  · rfl

/-- Taking out a pair leaves an entity of its kind. -/
@[simp] theorem kind_withoutPair : (e.withoutPair start stop width).kind = e.kind := by
  unfold withoutPair
  split
  · split <;> rfl
  · rfl

/-- Where an entity stops when a pair has been taken out. -/
theorem stop_withoutPair :
    (e.withoutPair start stop width).stop =
      if start < e.stop then
        if e.offset ≤ start ∧ stop + width ≤ e.stop then max e.offset (e.stop - width * 2)
        else max e.offset (e.stop - width)
      else e.stop := by
  unfold withoutPair
  split
  · split <;> exact e.stop_shorten _
  · rfl

/-- Taking out a pair behind an entity changes nothing. -/
theorem withoutPair_of_le (h : e.stop ≤ start) : e.withoutPair start stop width = e := by
  unfold withoutPair
  rw [if_neg (Nat.not_lt.mpr h)]

/-- Taking out a link leaves an entity where it starts. -/
@[simp] theorem offset_withoutLink : (e.withoutLink start removed).offset = e.offset := by
  unfold withoutLink
  split <;> rfl

/-- Taking out a link leaves an entity of its kind. -/
@[simp] theorem kind_withoutLink : (e.withoutLink start removed).kind = e.kind := by
  unfold withoutLink
  split <;> rfl

/-- Where an entity stops when a link has been taken out. -/
theorem stop_withoutLink :
    (e.withoutLink start removed).stop =
      if start < e.stop then max e.offset (e.stop - removed) else e.stop := by
  unfold withoutLink
  split
  · exact e.stop_shorten _
  · rfl

/-- Taking out a link behind an entity changes nothing. -/
theorem withoutLink_of_le (h : e.stop ≤ start) : e.withoutLink start removed = e := by
  unfold withoutLink
  rw [if_neg (Nat.not_lt.mpr h)]

end MessageMarkup.Entity
