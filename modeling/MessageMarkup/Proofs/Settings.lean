import Mathlib.Data.List.Basic
import MessageMarkup.Proofs.Except
import MessageMarkup.Settings

/-!
# Overrides stand over all layers

An override of a setting is what the settings have in the end, whatever the layers below it say: on
the way to its key what is no table is replaced by one, and a value that is no table is not merged
with what the key had (`Settings.Value.lookup?_setPath`). So delimiters that an override disables
are disabled (`Settings.delimitersEnabled_of_override`), and then the settings describe a format
without any, also where a file lists some (`Settings.isEmpty_of_format`).
-/

namespace MessageMarkup.Settings

/-! ## Values under keys -/

/-- A key has the value that has been put there. -/
theorem get?_put (key : String) (v : Value) (entries : List (String × Value)) :
    get? key (put key v entries) = some v := by
  unfold get?
  induction entries with
  | nil => simp [put]
  | cons entry entries ih =>
    obtain ⟨k, w⟩ := entry
    unfold put
    split
    · rename_i h
      rw [List.find?_cons, h]
      rfl
    · rename_i h
      rw [List.find?_cons, Bool.eq_false_iff.mpr h]
      exact ih

namespace Value

/-- The value to which some keys lead, one inside the other. -/
def lookup? : List String → Value → Option Value
  | [], v => some v
  | key :: keys, v => (get? key v.entries).bind (lookup? keys)

/-- A value that is no table takes the place of what it is laid over. -/
theorem merge_of_ne_table {v : Value} (h : ∀ entries, v ≠ table entries) (base : Value) :
    base.merge v = v := by
  cases v with
  | table entries => exact absurd rfl (h entries)
  | _ => rw [merge]; exact h

/-- A value that is set where some keys lead is found where they lead, written in small letters. -/
theorem lookup?_setAt {v : Value} (h : ∀ entries, v ≠ table entries) (keys : List String)
    (old : Value) : lookup? (keys.map smallLetters) (setAt v (keys.map .key) old) = some v := by
  induction keys generalizing old with
  | nil => rfl
  | cons key keys ih =>
    cases keys with
    | nil =>
      -- The last key lays the value over what it had.
      change lookup? [smallLetters key] (mergeAt (table old.entries) key v) = some v
      rw [mergeAt, mergeEntries, mergeEntries, merge_of_ne_table h]
      exact congrArg (Option.bind · (lookup? [])) (get?_put _ v _)
    | cons next keys =>
      exact (congrArg (Option.bind · (lookup? _)) (get?_put (smallLetters key) _ _)).trans (ih _)

/-- A value that is set at a path of keys is found there. -/
theorem lookup?_setPath {v : Value} (h : ∀ entries, v ≠ table entries) (root : Value)
    (key : String) (keys : List String) :
    lookup? ((key :: keys).map smallLetters) (root.setPath ⟨key, keys.map .key⟩ v) = some v :=
  lookup?_setAt h (key :: keys) root

/-- A field of a record is the value of its key, if that has one. -/
theorem field?_of_get? {name : String} {v w : Value} (h : get? name v.entries = some w)
    (place : Nat) : v.field? name place = some w := by
  cases v with
  | table entries => exact h
  | _ => exact absurd h.symm (Option.some_ne_none w)

/-- Delimiters are enabled or disabled by the truth value under their keys. -/
theorem delimitersEnabled_of_lookup? {root : Value} {b : Bool} {s : Settings}
    (h : lookup? ["markdown", "delimiters_enabled"] root = some (boolean b))
    (hs : root.toSettings? = some s) : s.delimitersEnabled = b := by
  obtain ⟨markdown, hmarkdown, h⟩ := Option.bind_eq_some_iff.mp h
  obtain ⟨enabled, henabled, h⟩ := Option.bind_eq_some_iff.mp h
  obtain rfl := Option.some.inj h
  unfold toSettings? at hs
  simp only [field?_of_get? hmarkdown, field?_of_get? henabled, Option.bind_eq_bind,
    Option.bind_some, toBool?, Option.bind_eq_some_iff] at hs
  obtain ⟨_, -, _, -, _, -, _, -, _, -, _, -, hs⟩ := hs
  exact (Option.some.inj hs) ▸ rfl

end Value

/-! ## Layers -/

/-- With a single override the settings are those of a tree in which it has been set last. -/
theorem exists_of_load_override {layers : List Layer} {key : String} {v : Value} {s : Settings}
    (h : load layers [(key, v)] = .ok s) :
    ∃ p, Path.read? key = some p ∧ ∃ root : Value, (root.setPath p v).toSettings? = some s := by
  unfold load at h
  obtain ⟨overrides, hoverrides, h⟩ := bind_eq_ok_iff.mp h
  obtain ⟨root, -, h⟩ := bind_eq_ok_iff.mp h
  simp only [List.mapM_cons, List.mapM_nil, bind_eq_ok_iff, pure_eq_ok_iff] at hoverrides
  obtain ⟨_, ⟨p, hp, rfl⟩, _, rfl, rfl⟩ := hoverrides
  unfold overridePath at hp
  split at hp
  · rename_i q hq
    obtain rfl := Except.ok.inj hp
    refine ⟨q, hq, root, ?_⟩
    split at h
    · rename_i settings hsettings
      rw [← Except.ok.inj h]
      exact hsettings
    · exact absurd h nofun
  · exact absurd hp nofun

/-- An override enables or disables delimiters whatever the layers say. -/
theorem delimitersEnabled_of_override {layers : List Layer} {b : Bool} {s : Settings}
    (h : load layers [("markdown.delimiters_enabled", .boolean b)] = .ok s) :
    s.delimitersEnabled = b := by
  obtain ⟨p, hp, root, hs⟩ := exists_of_load_override h
  have hpath : Path.read? "markdown.delimiters_enabled" =
      some ⟨"markdown", ["delimiters_enabled"].map .key⟩ := by decide
  obtain rfl := Option.some.inj (hpath.symm.trans hp)
  have hset := Value.lookup?_setPath (v := .boolean b) nofun root "markdown" ["delimiters_enabled"]
  have hsmall : ["markdown", "delimiters_enabled"].map smallLetters =
      ["markdown", "delimiters_enabled"] := by decide +kernel
  exact Value.delimitersEnabled_of_lookup? (hsmall ▸ hset) hs

/-- Where delimiters are disabled, the format has none, whatever delimiters there are. -/
theorem isEmpty_of_format {s : Settings} {f : Format} (h : s.delimitersEnabled = false)
    (hf : s.format = .ok f) : f.table.isEmpty = true := by
  unfold format at hf
  obtain ⟨links, -, hf⟩ := bind_eq_ok_iff.mp hf
  rw [h] at hf
  rw [← Except.ok.inj hf]
  rfl

end MessageMarkup.Settings
