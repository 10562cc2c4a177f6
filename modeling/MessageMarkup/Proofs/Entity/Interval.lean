import Mathlib.Order.Interval.Finset.Nat
import MessageMarkup.Integer64
import MessageMarkup.Proofs.Entity.Trim

/-!
# Trimming intersects intervals

Trimming keeps one piece of a text, from the first unit that is no blank to the last, and of each
entity the positions that it has in common with that piece, moved to where they are then. The cases
of `Entity.clip?` come to nothing else (`Entity.positions_clip?`), also where the positions have 64
bits and the end of an entity would have more (`Entity.clipWithin?_eq`). So trimming a second time
changes nothing. `trim_intervals` says all of this of a text and its entities.
-/

namespace MessageMarkup

namespace Entity

/-! ## One entity -/

variable {limit leading kept : Nat} {e e' : Entity}

/-- The positions of the units that an entity covers. -/
def positions (e : Entity) : Finset Nat :=
  Finset.Ico e.offset e.stop

/-- The positions that an entity has in common with the `kept` units behind the first `leading`
ones. -/
def common (leading kept : Nat) (e : Entity) : Finset Nat :=
  e.positions ∩ Finset.Ico leading (leading + kept)

/-- They lie between the later of the starts and the earlier of the ends. -/
theorem common_eq :
    e.common leading kept = Finset.Ico (max e.offset leading) (min e.stop (leading + kept)) :=
  Finset.Ico_inter_Ico

/-- An entity and the units that are kept have a position in common if they overlap and neither is
empty. -/
theorem common_nonempty_iff :
    (e.common leading kept).Nonempty ↔
      e.length ≠ 0 ∧ 0 < kept ∧ leading < e.stop ∧ e.offset < leading + kept := by
  have hstop : e.stop = e.offset + e.length := rfl
  rw [common_eq, Finset.nonempty_Ico]
  omega

/-- Something is left of an entity if and only if there is a position in common. -/
theorem isSome_clip? : (e.clip? leading kept).isSome ↔ (e.common leading kept).Nonempty := by
  have hstop : e.stop = e.offset + e.length := rfl
  rw [common_nonempty_iff]
  constructor
  · intro h
    obtain ⟨e', he'⟩ := Option.isSome_iff_exists.mp h
    obtain ⟨-, hpos, hoffset', hstop'⟩ := of_clip?_eq_some he'
    have hsum : e'.stop = e'.offset + e'.length := rfl
    omega
  · rintro ⟨hlength, hkept, hcovers, hbefore⟩
    unfold clip?
    rw [if_neg (by omega)]
    -- An entity that is dropped now would start behind what is kept.
    split <;> dsimp only <;> split <;> try rfl
    · rw [if_neg (by omega)]
      rfl
    · rw [if_neg (by omega)]
      rfl

/-- What is left of an entity are the positions in common, moved to where they are then. -/
theorem positions_clip? (h : e.clip? leading kept = some e') :
    e'.positions = (e.common leading kept).image (· - leading) := by
  obtain ⟨-, hpos, hoffset, hstop⟩ := of_clip?_eq_some h
  have hsum : e'.stop = e'.offset + e'.length := rfl
  -- The entity that is left is not empty, so it starts before the end of what is kept.
  have hstart : e'.offset = max e.offset leading - leading := by omega
  have hend : e'.stop = min e.stop (leading + kept) - leading := by omega
  calc e'.positions
      = Finset.Ico (max e.offset leading - leading) (min e.stop (leading + kept) - leading) := by
        rw [← hstart, ← hend]
        rfl
    _ = (e.common leading kept).image (· - leading) := by
        rw [common_eq, Nat.image_sub_const_Ico (Nat.le_max_right _ _)]

/-- What is left is not trimmed again. -/
theorem clip?_clip? (h : e.clip? leading kept = some e') : e'.clip? 0 kept = some e' := by
  obtain ⟨-, hpos, -, hstop⟩ := of_clip?_eq_some h
  exact clip?_of_inside hpos (Nat.zero_le _) (by omega)

/-! ## Positions of 64 bits -/

/-- What `clip?` makes of an entity if no position is greater than `limit` and an end that would be
is the greatest. -/
def clipWithin? (limit leading kept : Nat) (e : Entity) : Option Entity :=
  if e.length = 0 ∨ e.stopWithin limit ≤ leading then none
  else
    let moved : Entity :=
      if leading ≤ e.offset then { e with offset := e.offset - leading }
      else { e with offset := 0, length := e.stopWithin limit - leading }
    if moved.stopWithin limit ≤ kept then some moved
    else if kept ≤ moved.offset then none
    else some { moved with length := kept - moved.offset }

/-- A limit behind the text changes nothing. An entity that would reach past it is cut off at the
end of the text, wherever it ends. -/
theorem clipWithin?_eq (h : leading + kept < limit) :
    e.clipWithin? limit leading kept = e.clip? leading kept := by
  have hiff (e : Entity) {n : Nat} (hn : n < limit) : e.stopWithin limit ≤ n ↔ e.stop ≤ n := by
    unfold stopWithin
    omega
  unfold clipWithin? clip?
  simp only [hiff _ (show leading < limit by omega), hiff _ (show kept < limit by omega)]
  split
  · rfl
  split
  · rfl
  · rename_i hcovers hstart
    rcases Nat.le_total e.stop limit with hle | hge
    · rw [stopWithin, Nat.min_eq_left hle]
    · rw [stopWithin, Nat.min_eq_right hge]
      have hcut (n : Nat) (hn : limit ≤ n) :
          ¬ ({ e with offset := 0, length := n - leading } : Entity).stop ≤ kept := by
        show ¬ 0 + (n - leading) ≤ kept
        omega
      rw [if_neg (hcut limit (Nat.le_refl _)), if_neg (hcut e.stop hge)]

end Entity

/-! ## A text and its entities -/

/-- What a function gives of the members of a list is related to those of which it gives something,
in their order. -/
theorem forall₂_filterMap {α β : Type} {f : α → Option β} {p : α → Bool} {R : α → β → Prop}
    (hsome : ∀ a b, f a = some b → R a b) (hisSome : ∀ a, (f a).isSome ↔ p a = true)
    (xs : List α) : List.Forall₂ R (xs.filter p) (xs.filterMap f) := by
  induction xs with
  | nil => exact .nil
  | cons x xs ih =>
    have hx := hisSome x
    rw [List.filter_cons, List.filterMap_cons]
    cases hf : f x with
    | none =>
      rw [hf] at hx
      rw [if_neg fun hp => Bool.false_ne_true (hx.mpr hp)]
      exact ih
    | some y =>
      rw [hf] at hx
      rw [if_pos (hx.mp rfl)]
      exact .cons (hsome x y hf) ih

/-- A text is made of the blanks at its start, what trimming keeps, and more blanks. -/
theorem exists_trimUnits (units : List UInt16) :
    ∃ after, units = units.takeWhile isBlankUnit ++ (trimUnits units ++ after) ∧
      ∀ u ∈ after, isBlankUnit u = true := by
  refine ⟨(units.dropWhile isBlankUnit).rtakeWhile isBlankUnit, ?_,
    fun u hu => List.mem_rtakeWhile_imp hu⟩
  have hkept : trimUnits units = (units.dropWhile isBlankUnit).rdropWhile isBlankUnit := rfl
  rw [hkept, List.rdropWhile_append_rtakeWhile, List.takeWhile_append_dropWhile]

/-- What has been trimmed stays as it is. -/
theorem trimUnits_trimUnits (units : List UInt16) : trimUnits (trimUnits units) = trimUnits units :=
  rdropWhile_dropWhile_eq_self (fun _ => isBlankUnit_head_trimUnits)
    fun _ => isBlankUnit_last_trimUnits

/-- It has no blanks at its start. -/
theorem takeWhile_trimUnits (units : List UInt16) :
    (trimUnits units).takeWhile isBlankUnit = [] := by
  cases h : trimUnits units with
  | nil => rfl
  | cons u us =>
    have hhead : isBlankUnit u = false := isBlankUnit_head_trimUnits (congrArg List.head? h)
    rw [List.takeWhile_cons, hhead, if_neg Bool.false_ne_true]

/-- Trimming a second time changes nothing. -/
theorem trim_trim (units : List UInt16) (es : List Entity) :
    trim (trim units es).1 (trim units es).2 = trim units es := by
  unfold trim
  dsimp only
  rw [takeWhile_trimUnits, trimUnits_trimUnits, List.filterMap_filterMap]
  refine congrArg _ (List.filterMap_congr fun e he => ?_)
  cases h : e.clip? (units.takeWhile isBlankUnit).length (trimUnits units).length with
  | none => rfl
  | some e' => exact Entity.clip?_clip? h

/-- Whatever units a text has and wherever its entities lie, trimming keeps the text from its first
unit that is no blank to the last, and the entities that have a position in common with it, in their
order. Each keeps its kind and just the positions in common, moved to where they are then; that it
makes no difference if positions have 64 bits is said for any limit behind the text. Trimming a
second time changes nothing. -/
theorem trim_intervals (units : List UInt16) (es : List Entity) :
    let leading := (units.takeWhile isBlankUnit).length
    let kept := (trim units es).1
    let left := (trim units es).2
    (∃ before after, units = before ++ (kept ++ after) ∧ before.length = leading ∧
      (∀ u ∈ before ++ after, isBlankUnit u = true) ∧
      (∀ u, kept.head? = some u → isBlankUnit u = false) ∧
      ∀ u, kept.getLast? = some u → isBlankUnit u = false) ∧
    List.Forall₂ (fun e e' : Entity => e'.kind = e.kind ∧ 0 < e'.length ∧
        e'.positions = (e.common leading kept.length).image (· - leading))
      (es.filter fun e => (e.common leading kept.length).Nonempty) left ∧
    (∀ limit, units.length < limit →
      es.filterMap (Entity.clipWithin? limit leading kept.length) = left) ∧
    trim kept left = (kept, left) := by
  intro leading kept left
  obtain ⟨after, hunits, hafter⟩ := exists_trimUnits units
  refine ⟨⟨_, after, hunits, rfl, fun u hu => ?_, fun _ => isBlankUnit_head_trimUnits,
    fun _ => isBlankUnit_last_trimUnits⟩, ?_, fun limit hlimit => ?_, trim_trim units es⟩
  · rcases List.mem_append.mp hu with hu | hu
    · exact List.mem_takeWhile_imp hu
    · exact hafter u hu
  · refine forall₂_filterMap (fun e e' h => ?_) (fun e => ?_) es
    · obtain ⟨hkind, hpos, -, -⟩ := Entity.of_clip?_eq_some h
      exact ⟨hkind, hpos, Entity.positions_clip? h⟩
    · rw [decide_eq_true_eq]
      exact Entity.isSome_clip?
  · have hlength := congrArg List.length hunits
    simp only [List.length_append] at hlength
    have hbound : leading + kept.length < limit := by
      show (units.takeWhile isBlankUnit).length + (trimUnits units).length < limit
      omega
    exact List.filterMap_congr fun e _ => Entity.clipWithin?_eq hbound

/-- Half of a pair and a letter between blanks, and entities up to the greatest position of 64 bits:
two that have all positions in common with what is kept or the last one, and one that is empty, one
in the blanks and one behind the text. -/
theorem trim_intervals_lone :
    let units : List UInt16 := [0x20, 0x1F, 0xD83D, 0x61, 0x20]
    let es : List Entity :=
      [⟨0, Integer64.maxUnsigned, .bold⟩, ⟨3, Integer64.maxUnsigned, .code⟩, ⟨3, 0, .italic⟩,
        ⟨0, 2, .spoiler⟩, ⟨Integer64.maxUnsigned, 1, .underline⟩]
    units.length < Integer64.maxUnsigned ∧
      es.filterMap (Entity.clipWithin? Integer64.maxUnsigned 2 2) = [⟨0, 2, .bold⟩, ⟨1, 1, .code⟩] ∧
      trim units es = ([0xD83D, 0x61], [⟨0, 2, .bold⟩, ⟨1, 1, .code⟩]) := by
  intro units es
  have hlimit : units.length < Integer64.maxUnsigned := by decide
  have htrim : trim units es = ([0xD83D, 0x61], [⟨0, 2, .bold⟩, ⟨1, 1, .code⟩]) := by
    decide +kernel
  refine ⟨hlimit, ?_, htrim⟩
  have hwithin := (trim_intervals units es).2.2.1 Integer64.maxUnsigned hlimit
  rwa [htrim] at hwithin

end MessageMarkup
