import Mathlib.Data.Set.List
import MessageMarkup.Proofs.Json.Skipping

/-!
# The members of a document

`members?` takes a document that is an object apart into its members, in their order and with their
names. What stands in a member need not have a value: it may be JSON that can only be passed over
(`readAny`). If all members have values, they are those of the object that is read of the document
(`members?_eq_ok_map_valued_iff`).
-/

namespace MessageMarkup.Json

variable {α β σ : Type} {room : Nat} {cs rest : List Char}

/-! ## JSON with and without a value -/

/-- Any JSON, with its value. It has none if it can only be passed over: a number that is too great,
a string with half of a pair, or what is nested too deep. -/
def readAny (room : Nat) (cs : List Char) : Except Fault (Option Json × List Char) :=
  match readValue room cs with
  | .ok (j, rest) => .ok (some j, rest)
  | .error _ => (skipValue cs).map (none, ·)

/-- JSON has the value as which it is read. -/
theorem readAny_some_iff {j : Json} :
    readAny room cs = .ok (some j, rest) ↔ readValue room cs = .ok (j, rest) := by
  unfold readAny
  split
  · rename_i j' rest' hread
    rw [hread, Except.ok.injEq, Except.ok.injEq, Prod.mk.injEq, Prod.mk.injEq, Option.some.injEq]
  · rename_i fault hread
    rw [hread, map_mk_eq_ok_iff]
    exact ⟨fun h => absurd h.2 nofun, nofun⟩

/-- All that can be passed over is JSON. -/
theorem exists_readAny_iff :
    (∃ o, readAny room cs = .ok (o, rest)) ↔ skipValue cs = .ok rest := by
  unfold readAny
  split
  · rename_i j rest' hread
    rw [skipValue_of_readValue hread]
    constructor
    · rintro ⟨o, h⟩
      rw [(Prod.mk.inj (Except.ok.inj h)).2]
    · intro h
      obtain rfl := Except.ok.inj h
      exact ⟨some j, rfl⟩
  · simp only [map_mk_eq_ok_iff, exists_and_left, exists_eq', and_true]

/-- What is made of a value that has to be there. -/
def wanted (f : α → Except Fault β) : Option α → Except Fault β
  | some x => f x
  | none => .error .mismatched

/-- Something is made of a value that is there. -/
theorem wanted_eq_ok_iff {f : α → Except Fault β} {o : Option α} {y : β} :
    wanted f o = .ok y ↔ ∃ x, o = some x ∧ f x = .ok y := by
  cases o with
  | none => exact ⟨nofun, fun ⟨_, h, _⟩ => absurd h nofun⟩
  | some x =>
    constructor
    · exact fun h => ⟨x, rfl, h⟩
    · rintro ⟨x', hx, h⟩
      rwa [Option.some.inj hx]

variable {f : Json → Except Fault β} {reader : List Char → Except Fault (β × List Char)}
  {step : σ → String × Json → Except Fault σ}
  {member : σ → String → List Char → Except Fault (σ × List Char)}

/-- A reader of values is a reader of any JSON that has one. -/
theorem Decodes.readAny (h : Decodes (readValue room) f reader) :
    Decodes (Json.readAny room) (wanted f) reader := by
  intro cs y rest
  rw [h]
  constructor
  · rintro ⟨j, hj, hy⟩
    exact ⟨some j, readAny_some_iff.mpr hj, hy⟩
  · rintro ⟨o, ho, hy⟩
    obtain ⟨j, rfl, hy⟩ := wanted_eq_ok_iff.mp hy
    exact ⟨j, readAny_some_iff.mp ho, hy⟩

/-- So is a reader of members. -/
theorem DecodesMember.readAny (h : DecodesMember (readValue room) step member) :
    DecodesMember (Json.readAny room) (fun s m => wanted (fun j => step s (m.1, j)) m.2)
      member := by
  intro s key cs s' rest
  rw [h]
  constructor
  · rintro ⟨j, hj, hstep⟩
    obtain ⟨behind, hcolon, hj⟩ := bind_eq_ok_iff.mp hj
    exact ⟨some j, bind_eq_ok_iff.mpr ⟨behind, hcolon, readAny_some_iff.mpr hj⟩, hstep⟩
  · rintro ⟨o, ho, hstep⟩
    obtain ⟨j, rfl, hstep⟩ := wanted_eq_ok_iff.mp hstep
    obtain ⟨behind, hcolon, ho⟩ := bind_eq_ok_iff.mp ho
    exact ⟨j, bind_eq_ok_iff.mpr ⟨behind, hcolon, readAny_some_iff.mp ho⟩, hstep⟩

/-! ## Documents -/

/-- The members of an object, in their order. -/
def readFields (cs : List Char) : Except Fault (List (String × Option Json) × List Char) :=
  match afterBlanks cs with
  | '{' :: cs => readObject true (collect (readAny (maxDepth - 1))) [] cs
  | cs => .error (mismatch cs)

/-- The members of a document that is an object, in their order. -/
def members? (text : String) : Except Fault (List (String × Option Json)) :=
  readAll readFields text

/-- What a document is read as leaves nothing but white space. -/
theorem readAll_eq_ok_iff {reader : List Char → Except Fault (α × List Char)} {text : String}
    {a : α} :
    readAll reader text = .ok a ↔
      ∃ rest, reader text.toList = .ok (a, rest) ∧ afterBlanks rest = [] := by
  unfold readAll
  rw [bind_eq_ok_iff, Prod.exists]
  constructor
  · rintro ⟨a', rest, hread, h⟩
    dsimp only at h
    split at h
    · rename_i hblank
      exact ⟨rest, pure_eq_ok_iff.mp h ▸ hread, hblank⟩
    · exact absurd h nofun
  · rintro ⟨rest, hread, hblank⟩
    exact ⟨a, rest, hread, if_pos hblank⟩

/-- A document is decoded as what is read of it. -/
theorem Decodes.readAll {value : List Char → Except Fault (α × List Char)} {f : α → Except Fault β}
    (h : Decodes value f reader) {text : String} {y : β} :
    Json.readAll reader text = .ok y ↔ ∃ x, Json.readAll value text = .ok x ∧ f x = .ok y := by
  simp only [readAll_eq_ok_iff]
  constructor
  · rintro ⟨rest, hread, hblank⟩
    obtain ⟨x, hx, hy⟩ := (h _ _ _).mp hread
    exact ⟨x, ⟨rest, hx, hblank⟩, hy⟩
  · rintro ⟨x, ⟨rest, hx, hblank⟩, hy⟩
    exact ⟨rest, (h _ _ _).mpr ⟨x, hx, hy⟩, hblank⟩

/-- There are members behind a brace. -/
theorem readFields_eq_ok_iff {ms : List (String × Option Json)} :
    readFields cs = .ok (ms, rest) ↔
      ∃ behind, afterBlanks cs = '{' :: behind ∧
        readObject true (collect (readAny (maxDepth - 1))) [] behind = .ok (ms, rest) := by
  unfold readFields
  split
  · rename_i behind hbrace
    rw [hbrace]
    constructor
    · exact fun h => ⟨behind, rfl, h⟩
    · rintro ⟨behind', hbehind, h⟩
      rwa [(List.cons.inj hbehind).2]
  · rename_i hother
    exact ⟨nofun, fun ⟨behind, hbrace, _⟩ => absurd hbrace (hother behind)⟩

/-- A member with its value. -/
def valued (m : String × Json) : String × Option Json :=
  (m.1, some m.2)

/-- A member is told by its value. -/
theorem valued_injective : Function.Injective valued := by
  intro m m' h
  obtain ⟨hkey, hvalue⟩ := Prod.mk.inj h
  exact Prod.ext hkey (Option.some.inj hvalue)

/-- Members with values are all of this form. -/
theorem exists_map_valued {ms : List (String × Option Json)} (h : ∀ m ∈ ms, m.2.isSome = true) :
    ∃ js : List (String × Json), js.map valued = ms := by
  refine (Set.range_list_map valued).ge fun m hm => ?_
  obtain ⟨j, hj⟩ := Option.isSome_iff_exists.mp (h m hm)
  exact ⟨(m.1, j), by rw [valued, ← hj]⟩

/-- Values are collected where all of them are there. -/
theorem foldlM_collect_eq_ok_iff {ms : List (String × Option Json)}
    {before js : List (String × Json)} :
    ms.foldlM (fun before m => wanted (fun j => .ok (before ++ [(m.1, j)])) m.2) before = .ok js ↔
      ∃ js', ms = js'.map valued ∧ before ++ js' = js := by
  induction ms generalizing before with
  | nil =>
    constructor
    · intro h
      exact ⟨[], rfl, by rw [List.append_nil, Except.ok.inj h]⟩
    · rintro ⟨js', hnil, rfl⟩
      rw [List.map_eq_nil_iff.mp hnil.symm, List.append_nil]
      rfl
  | cons m ms ih =>
    rw [foldlM_cons_eq_ok_iff]
    constructor
    · rintro ⟨before', hm, hrest⟩
      obtain ⟨j, hj, hbefore⟩ := wanted_eq_ok_iff.mp hm
      obtain rfl := Except.ok.inj hbefore
      obtain ⟨js', rfl, rfl⟩ := ih.mp hrest
      exact ⟨(m.1, j) :: js', by rw [List.map_cons, valued, ← hj],
        (List.append_assoc before [(m.1, j)] js').symm⟩
    · rintro ⟨js', hcons, rfl⟩
      obtain ⟨j, js', rfl, rfl, rfl⟩ := List.map_eq_cons_iff.mp hcons.symm
      exact ⟨before ++ [j], rfl, ih.mpr ⟨js', rfl, List.append_assoc before [j] js'⟩⟩

/-- A document whose members have values is an object of them. -/
theorem members?_eq_ok_map_valued_iff {text : String} {ms : List (String × Json)} :
    members? text = .ok (ms.map valued) ↔
      readAll (readValue maxDepth) text = .ok (.object ms) := by
  have hcollect := (decodesMember_collect (readValue (maxDepth - 1))).readAny.readObject true []
  have hfields (cs rest : List Char) :
      readFields cs = .ok (ms.map valued, rest) ↔
        readValue maxDepth cs = .ok (.object ms, rest) := by
    rw [readFields_eq_ok_iff, readValue_eq_ok_iff]
    refine Iff.trans (exists_congr fun behind => and_congr_right fun _ => ?_)
      ahead_object_iff.symm
    refine Iff.trans ?_ (hcollect behind ms rest).symm
    simp only [foldlM_collect_eq_ok_iff, List.nil_append]
    constructor
    · exact fun h => ⟨_, h, ms, rfl, rfl⟩
    · rintro ⟨ms', h, ms', rfl, rfl⟩
      exact h
  unfold members?
  simp only [readAll_eq_ok_iff, hfields]

end MessageMarkup.Json
