/-!
# Computations that can fail

When several computations, one after the other, go well.
-/

namespace MessageMarkup

variable {ε ε' α β : Type} {x : Except ε α} {a : α} {b : β}

/-- Two computations, the second from the result of the first, go well if both do. -/
theorem bind_eq_ok_iff {rest : α → Except ε β} :
    (x >>= rest) = .ok b ↔ ∃ a, x = .ok a ∧ rest a = .ok b := by
  cases x with
  | error e => exact ⟨nofun, nofun⟩
  | ok a => exact ⟨fun h => ⟨a, rfl, h⟩, fun ⟨a', ha, h⟩ => (Except.ok.inj ha) ▸ h⟩

/-- A result is returned as it is. -/
theorem pure_eq_ok_iff {a' : α} : (pure a : Except ε α) = .ok a' ↔ a = a' :=
  ⟨Except.ok.inj, congrArg Except.ok⟩

/-- A computation goes well however its failures are named. -/
theorem mapError_eq_ok_iff {failure : ε → ε'} : x.mapError failure = .ok a ↔ x = .ok a := by
  cases x with
  | error e => exact ⟨nofun, nofun⟩
  | ok a' =>
    exact ⟨fun h => congrArg Except.ok (Except.ok.inj h),
      fun h => congrArg Except.ok (Except.ok.inj h)⟩

/-- What goes well has its result. -/
theorem toOption_eq_some_iff : x.toOption = some a ↔ x = .ok a := by
  cases x with
  | error e => exact ⟨nofun, nofun⟩
  | ok a' =>
    exact ⟨fun h => congrArg Except.ok (Option.some.inj h),
      fun h => congrArg some (Except.ok.inj h)⟩

end MessageMarkup
