import Mathlib.Data.List.Induction
import Mathlib.Data.List.Perm.Basic
import MessageMarkup.Proofs.Document.Decoding
import MessageMarkup.Proofs.Json.RoundTrip

/-!
# Fields are found by their names

The readers take members as they come, and keep what they have read so far in a draft. At the end
the draft holds what the members of each name give (`Entity.foldlM_take_eq_ok_iff`,
`Message.foldlM_take?_eq_ok_iff`), and what is made of it depends on the members of some names only:
of an entity these are its two numbers, the name of its kind and the field of that kind
(`Entity.ofJson_object_eq_ok_iff`), and of a message its text and its entities
(`Message.ofDocument?_eq_ok_iff_named`). A field may be given once, so the order of members makes no
difference either. `ofDocument?_members` says both of documents.
-/

namespace MessageMarkup

open Json (Fault FitsIn IsGap Enclosed Member Rendered wanted members? valued)

/-! ## Members of a name -/

namespace Json

variable {α β σ : Type} {f : α → Except Fault β} {name : String} {ms ms' extra : List (String × α)}

/-- The values of the members of a name, in their order. -/
def named (ms : List (String × α)) (name : String) : List α :=
  (ms.filter (·.1 == name)).map (·.2)

/-- A member behind others is the last one of its name. -/
theorem named_concat_self (ms : List (String × α)) (name : String) (x : α) :
    named (ms ++ [(name, x)]) name = named ms name ++ [x] := by
  simp [named]

/-- A member of some other name does not count. -/
theorem named_concat_of_ne {m : String × α} (h : m.1 ≠ name) (ms : List (String × α)) :
    named (ms ++ [m]) name = named ms name := by
  simp [named, h]

/-- Members are still found when those of some other names are left out. -/
theorem named_filter {p : String × α → Bool} (h : ∀ x, p (name, x) = true)
    (ms : List (String × α)) : named (ms.filter p) name = named ms name := by
  unfold named
  rw [List.filter_filter]
  congr 1
  refine List.filter_congr fun m _ => ?_
  by_cases hm : m.1 = name
  · obtain rfl := hm
    rw [h m.2, Bool.and_true]
  · rw [beq_false_of_ne hm, Bool.false_and]

/-- Wherever the members of a name stand, and whatever others are added, they are the same. -/
theorem named_perm (h : ms'.Perm (ms ++ extra)) (hextra : ∀ m ∈ extra, m.1 ≠ name) :
    (named ms' name).Perm (named ms name) := by
  have hnone : extra.filter (·.1 == name) = [] :=
    List.filter_eq_nil_iff.mpr fun m hm => by simpa using hextra m hm
  have hfilter := h.filter (·.1 == name)
  rw [List.filter_append, hnone, List.append_nil] at hfilter
  exact hfilter.map (·.2)

/-- What is made of a value that may be missing, but not repeated. -/
def once (f : α → Except Fault β) : List α → Except Fault (Option β)
  | [] => .ok none
  | [x] => do return some (← f x)
  | _ => .error .mismatched

/-- The order of values makes no difference to that. -/
theorem once_perm {xs ys : List α} (h : xs.Perm ys) : once f xs = once f ys := by
  match xs, ys, h with
  | [], ys, h => rw [h.nil_eq]
  | [x], ys, h => rw [h.singleton_eq]
  | x :: x' :: xs, ys, h =>
    have hlength := h.length_eq
    match ys with
    | [] => exact absurd hlength nofun
    | [y] => exact absurd hlength (by simp)
    | y :: y' :: ys => rfl

/-- A last value is the only one. -/
theorem once_concat_eq_ok_iff {xs : List α} {x : α} {y? : Option β} :
    once f (xs ++ [x]) = .ok y? ↔ once f xs = .ok none ∧ ∃ y, f x = .ok y ∧ some y = y? := by
  match xs with
  | [] =>
    show (do return some (← f x)) = _ ↔ _
    rw [bind_eq_ok_iff]
    simp only [pure_eq_ok_iff]
    exact ⟨fun h => ⟨rfl, h⟩, fun h => h.2⟩
  | [x'] =>
    refine ⟨nofun, fun ⟨h, _⟩ => ?_⟩
    obtain ⟨y, -, hy⟩ := bind_eq_ok_iff.mp h
    exact absurd (pure_eq_ok_iff.mp hy) nofun
  | x' :: x'' :: xs => exact ⟨nofun, fun ⟨h, _⟩ => absurd h nofun⟩

/-- What is given once is added if nothing was given before. -/
theorem given_eq_ok_iff {x : α} {y? : Option β} {g : β → σ} {s : σ} :
    (if y?.isSome then .error .mismatched else do return g (← f x)) = .ok s ↔
      y? = none ∧ ∃ y, f x = .ok y ∧ g y = s := by
  cases y? with
  | none => simp only [Option.isSome_none, Bool.false_eq_true, if_false, bind_eq_ok_iff,
      pure_eq_ok_iff, true_and]
  | some y => exact ⟨nofun, fun h => absurd h.1 nofun⟩

/-- Steps go well behind others. -/
theorem foldlM_concat_eq_ok_iff {step : σ → α → Except Fault σ} {xs : List α} {x : α} {s t : σ} :
    (xs ++ [x]).foldlM step s = .ok t ↔ ∃ u, xs.foldlM step s = .ok u ∧ step u x = .ok t := by
  rw [List.foldlM_append, bind_eq_ok_iff]
  simp only [List.foldlM_cons, List.foldlM_nil, bind_pure]

end Json

open Json (named once)

variable {ms ms' extra : List (String × Json)}

/-! ## Kinds -/

namespace Kind

/-- A field that may be missing is one that may be given once. -/
theorem field?_eq_once (ms : List (String × Json)) (name : String) :
    field? ms name = once .ok (named ms name) := by
  unfold field? named
  generalize ms.filter (·.1 == name) = found
  match found with
  | [] => rfl
  | [m] => rfl
  | m :: m' :: ms => rfl

/-- What is made of a field that must be there. -/
theorem field_bind_eq_ok_iff {β : Type} {f : Json → Except Fault β} {name : String} {y : β} :
    (field ms name >>= f) = .ok y ↔ once f (named ms name) = .ok (some y) := by
  unfold field
  rw [field?_eq_once]
  match named ms name with
  | [] => exact ⟨nofun, fun h => absurd (Except.ok.inj h) nofun⟩
  | [j] =>
    show f j = .ok y ↔ (do return some (← f j)) = .ok (some y)
    simp only [bind_eq_ok_iff, pure_eq_ok_iff, Option.some.injEq, exists_eq_right]
  | j :: j' :: js => exact ⟨nofun, nofun⟩

/-- The names of the fields in which the kind of a tag is looked for. -/
def Tag.fieldNames : Tag → List String
  | .plain _ => []
  | .pre => ["language"]
  | .textUrl => ["url"]
  | .mentionName => ["user_id"]

/-- The kind of a tag is told by the fields of these names. -/
theorem ofMembers_congr {tag : Tag}
    (h : ∀ name ∈ tag.fieldNames, field? ms name = field? ms' name) :
    ofMembers ms tag = ofMembers ms' tag := by
  cases tag with
  | plain kind => rfl
  | pre => rw [ofMembers, ofMembers, h "language" (List.mem_singleton_self _)]
  | textUrl => rw [ofMembers, ofMembers, field, field, h "url" (List.mem_singleton_self _)]
  | mentionName => rw [ofMembers, ofMembers, field, field, h "user_id" (List.mem_singleton_self _)]

/-- They are those that the kind has besides its name. -/
theorem fieldNames_subset {tag : Tag} {k : Kind} (h : ofMembers ms tag = .ok k) :
    tag.fieldNames ⊆ k.fields.map Prod.fst := by
  cases tag with
  | plain kind => exact List.nil_subset _
  | pre =>
    obtain ⟨j?, -, h⟩ := bind_eq_ok_iff.mp h
    cases j? with
    | none =>
      obtain rfl := pure_eq_ok_iff.mp h
      exact List.Subset.refl _
    | some j =>
      obtain ⟨language, -, h⟩ := bind_eq_ok_iff.mp h
      obtain rfl := pure_eq_ok_iff.mp h
      exact List.Subset.refl _
  | textUrl =>
    obtain ⟨j, -, h⟩ := bind_eq_ok_iff.mp h
    obtain ⟨url, -, h⟩ := bind_eq_ok_iff.mp h
    obtain rfl := pure_eq_ok_iff.mp h
    exact List.Subset.refl _
  | mentionName =>
    obtain ⟨j, -, h⟩ := bind_eq_ok_iff.mp h
    obtain ⟨user, -, h⟩ := bind_eq_ok_iff.mp h
    obtain rfl := pure_eq_ok_iff.mp h
    exact List.Subset.refl _

end Kind

/-! ## Entities -/

namespace Entity

/-- A member that is no number of an entity. -/
def isOther (m : String × Json) : Bool :=
  m.1 != "offset" && m.1 != "length"

/-- An offset is added once. -/
theorem Draft.take_offset (s : Draft) (j : Json) :
    s.take ("offset", j) =
      if s.offset?.isSome then .error .mismatched
      else do return { s with offset? := some (← naturalField j) } :=
  rfl

/-- A length is added once. -/
theorem Draft.take_length (s : Draft) (j : Json) :
    s.take ("length", j) =
      if s.length?.isSome then .error .mismatched
      else do return { s with length? := some (← naturalField j) } :=
  rfl

/-- Everything else is kept. -/
theorem Draft.take_other (s : Draft) {key : String} (hoffset : key ≠ "offset")
    (hlength : key ≠ "length") (j : Json) :
    s.take (key, j) = .ok { s with others := s.others ++ [(key, j)] } := by
  unfold take
  rw [if_neg hoffset, if_neg hlength]

/-- What has been read of some members: the numbers of their names, and the other members. -/
theorem foldlM_take_eq_ok_iff {s : Draft} :
    ms.foldlM Draft.take {} = .ok s ↔
      once naturalField (named ms "offset") = .ok s.offset? ∧
      once naturalField (named ms "length") = .ok s.length? ∧ ms.filter isOther = s.others := by
  induction ms using List.reverseRecOn generalizing s with
  | nil =>
    obtain ⟨offset?, length?, others⟩ := s
    show Except.ok _ = Except.ok _ ↔ Except.ok _ = Except.ok _ ∧ Except.ok _ = Except.ok _ ∧ _
    simp only [Except.ok.injEq, Draft.mk.injEq, List.filter_nil]
  | append_singleton ms m ih =>
    obtain ⟨key, j⟩ := m
    rw [Json.foldlM_concat_eq_ok_iff, List.filter_append]
    simp only [ih]
    by_cases hoffset : key = "offset"
    · obtain rfl := hoffset
      have hother : [("offset", j)].filter isOther = [] := rfl
      have hlength : "offset" ≠ "length" := by decide
      rw [Json.named_concat_self, Json.named_concat_of_ne hlength, Json.once_concat_eq_ok_iff,
        hother, List.append_nil]
      simp only [Draft.take_offset, Json.given_eq_ok_iff]
      constructor
      · rintro ⟨u, ⟨hoffset, hlength, hothers⟩, hnone, n, hn, rfl⟩
        exact ⟨⟨hnone ▸ hoffset, n, hn, rfl⟩, hlength, hothers⟩
      · rintro ⟨⟨hoffset, n, hn, hs⟩, hlength, hothers⟩
        exact ⟨{ s with offset? := none }, ⟨hoffset, hlength, hothers⟩, rfl, n, hn, by rw [hs]⟩
    by_cases hlength : key = "length"
    · obtain rfl := hlength
      have hother : [("length", j)].filter isOther = [] := rfl
      rw [Json.named_concat_self, Json.named_concat_of_ne hoffset, Json.once_concat_eq_ok_iff,
        hother, List.append_nil]
      simp only [Draft.take_length, Json.given_eq_ok_iff]
      constructor
      · rintro ⟨u, ⟨hoffset, hlength, hothers⟩, hnone, n, hn, rfl⟩
        exact ⟨hoffset, ⟨hnone ▸ hlength, n, hn, rfl⟩, hothers⟩
      · rintro ⟨hoffset, ⟨hlength, n, hn, hs⟩, hothers⟩
        exact ⟨{ s with length? := none }, ⟨hoffset, hlength, hothers⟩, rfl, n, hn, by rw [hs]⟩
    · have hother : [(key, j)].filter isOther = [(key, j)] := by
        simp [isOther, hoffset, hlength]
      rw [Json.named_concat_of_ne hoffset, Json.named_concat_of_ne hlength, hother]
      simp only [Draft.take_other _ hoffset hlength, Except.ok.injEq]
      constructor
      · rintro ⟨u, ⟨hoffset, hlength, hothers⟩, rfl⟩
        exact ⟨hoffset, hlength, by rw [hothers]⟩
      · rintro ⟨hoffset, hlength, hothers⟩
        exact ⟨{ s with others := ms.filter isOther }, ⟨hoffset, hlength, rfl⟩, by rw [hothers]⟩

/-- The field of a kind is not called like a number of an entity. -/
theorem isOther_of_mem_fieldNames {tag : Kind.Tag} {name : String} (h : name ∈ tag.fieldNames)
    (j : Json) : isOther (name, j) = true := by
  cases tag with
  | plain kind => exact absurd h List.not_mem_nil
  | _ =>
    obtain rfl := List.mem_singleton.mp h
    rfl

/-- What has been read is an entity if it has both numbers, and a kind is told by the others. -/
theorem ofDraft_eq_ok_iff {s : Draft} {e : Entity} :
    ofDraft s = .ok e ↔
      s.offset? = some e.offset ∧ s.length? = some e.length ∧
      ∃ tag, once Kind.tagOfJson (named s.others "type") = .ok (some tag) ∧
        Kind.ofMembers s.others tag = .ok e.kind := by
  obtain ⟨offset?, length?, others⟩ := s
  cases offset? with
  | none => exact ⟨nofun, fun h => absurd h.1 nofun⟩
  | some offset =>
    cases length? with
    | none => exact ⟨nofun, fun h => absurd h.2.1 nofun⟩
    | some length =>
      simp only [ofDraft, ← Kind.field_bind_eq_ok_iff, bind_eq_ok_iff, pure_eq_ok_iff,
        Option.some.injEq]
      constructor
      · rintro ⟨j, hj, tag, htag, k, hk, rfl⟩
        exact ⟨rfl, rfl, tag, ⟨j, hj, htag⟩, hk⟩
      · rintro ⟨rfl, rfl, tag, ⟨j, hj, htag⟩, hk⟩
        exact ⟨j, hj, tag, htag, e.kind, hk, rfl⟩

/-- An entity is made of the members of an object by their names. -/
theorem ofJson_object_eq_ok_iff {e : Entity} :
    ofJson (.object ms) = .ok e ↔
      once naturalField (named ms "offset") = .ok (some e.offset) ∧
      once naturalField (named ms "length") = .ok (some e.length) ∧
      ∃ tag, once Kind.tagOfJson (named ms "type") = .ok (some tag) ∧
        Kind.ofMembers ms tag = .ok e.kind := by
  have htype : named (ms.filter isOther) "type" = named ms "type" :=
    Json.named_filter (fun _ => rfl) ms
  have hkind (tag : Kind.Tag) : Kind.ofMembers (ms.filter isOther) tag = Kind.ofMembers ms tag := by
    refine Kind.ofMembers_congr fun name hname => ?_
    rw [Kind.field?_eq_once, Kind.field?_eq_once,
      Json.named_filter (isOther_of_mem_fieldNames hname) ms]
  show (ms.foldlM Draft.take {} >>= ofDraft) = _ ↔ _
  simp only [bind_eq_ok_iff, foldlM_take_eq_ok_iff, ofDraft_eq_ok_iff]
  constructor
  · rintro ⟨s, ⟨hoffset, hlength, hothers⟩, hoffset', hlength', tag, htag, hk⟩
    rw [← hothers, htype] at htag
    rw [← hothers, hkind] at hk
    exact ⟨hoffset' ▸ hoffset, hlength' ▸ hlength, tag, htag, hk⟩
  · rintro ⟨hoffset, hlength, tag, htag, hk⟩
    exact ⟨⟨some e.offset, some e.length, ms.filter isOther⟩, ⟨hoffset, hlength, rfl⟩, rfl, rfl,
      tag, htype ▸ htag, (hkind tag).trans hk⟩

end Entity

/-! ## Messages -/

namespace Message

variable {ms : List (String × Option Json)}

/-- What has been read of some members: the text and the entities of these names. -/
theorem foldlM_take?_eq_ok_iff {s : Draft} :
    ms.foldlM Draft.take? {} = .ok s ↔
      once (wanted Kind.stringField) (named ms "text") = .ok s.text? ∧
      once (wanted entitiesField) (named ms "entities") = .ok s.entities? := by
  induction ms using List.reverseRecOn generalizing s with
  | nil =>
    obtain ⟨text?, entities?⟩ := s
    show Except.ok _ = Except.ok _ ↔ Except.ok _ = Except.ok _ ∧ Except.ok _ = Except.ok _
    simp only [Except.ok.injEq, Draft.mk.injEq]
  | append_singleton ms m ih =>
    obtain ⟨key, o⟩ := m
    rw [Json.foldlM_concat_eq_ok_iff]
    simp only [ih]
    by_cases htext : key = "text"
    · obtain rfl := htext
      have hentities : "text" ≠ "entities" := by decide
      rw [Json.named_concat_self, Json.named_concat_of_ne hentities, Json.once_concat_eq_ok_iff]
      simp only [Draft.take?_text, Json.given_eq_ok_iff]
      constructor
      · rintro ⟨u, ⟨htext, hentities⟩, hnone, text, hof, rfl⟩
        exact ⟨⟨hnone ▸ htext, text, hof, rfl⟩, hentities⟩
      · rintro ⟨⟨htext, text, hof, hs⟩, hentities⟩
        exact ⟨{ s with text? := none }, ⟨htext, hentities⟩, rfl, text, hof, by rw [hs]⟩
    by_cases hentities : key = "entities"
    · obtain rfl := hentities
      rw [Json.named_concat_self, Json.named_concat_of_ne htext, Json.once_concat_eq_ok_iff]
      simp only [Draft.take?_entities, Json.given_eq_ok_iff]
      constructor
      · rintro ⟨u, ⟨htext, hentities⟩, hnone, es, hof, rfl⟩
        exact ⟨htext, hnone ▸ hentities, es, hof, rfl⟩
      · rintro ⟨htext, hentities, es, hof, hs⟩
        exact ⟨{ s with entities? := none }, ⟨htext, hentities⟩, rfl, es, hof, by rw [hs]⟩
    · rw [Json.named_concat_of_ne htext, Json.named_concat_of_ne hentities]
      simp only [Draft.take?_other _ htext hentities, Except.ok.injEq, exists_eq_right]

/-- A message is made of the members of its document by their names. -/
theorem ofDocument?_eq_ok_iff_named {text : String} {m : Message} (hms : members? text = .ok ms) :
    ofDocument? text = .ok m ↔
      once (wanted Kind.stringField) (named ms "text") = .ok (some m.text) ∧
      ∃ entities?, once (wanted entitiesField) (named ms "entities") = .ok entities? ∧
        entities?.getD [] = m.entities := by
  rw [ofDocument?_eq_ok_iff hms]
  simp only [foldlM_take?_eq_ok_iff]
  constructor
  · rintro ⟨⟨text?, entities?⟩, ⟨htext, hentities⟩, hm⟩
    cases text? with
    | none => exact absurd hm nofun
    | some text =>
      obtain rfl := Except.ok.inj hm
      exact ⟨htext, entities?, hentities, rfl⟩
  · rintro ⟨htext, entities?, hentities, hm⟩
    exact ⟨⟨some m.text, entities?⟩, ⟨htext, hentities⟩, by rw [ofDraft, hm]⟩

end Message

/-! ## Documents -/

/-- An entity is made of its own fields, wherever they stand and whatever else there is. -/
theorem Entity.ofJson_perm {e : Entity} (h : ofJson (.object ms) = .ok e)
    (hperm : ms'.Perm (ms ++ extra))
    (hextra : ∀ m ∈ extra, m.1 ∉ "offset" :: "length" :: e.kind.members.map Prod.fst) :
    ofJson (.object ms') = .ok e := by
  obtain ⟨hoffset, hlength, tag, htag, hkind⟩ := ofJson_object_eq_ok_iff.mp h
  have hname {name : String} (hown : name ∈ "offset" :: "length" :: e.kind.members.map Prod.fst) :
      (named ms' name).Perm (named ms name) :=
    Json.named_perm hperm fun m hm heq => hextra m hm (heq ▸ hown)
  refine ofJson_object_eq_ok_iff.mpr ⟨?_, ?_, tag, ?_, ?_⟩
  · rwa [Json.once_perm (hname List.mem_cons_self)]
  · rwa [Json.once_perm (hname (by simp))]
  · rwa [Json.once_perm (hname (by simp [Kind.members]))]
  · rw [← hkind]
    refine Kind.ofMembers_congr fun name hmem => ?_
    have hfield := Kind.fieldNames_subset hkind hmem
    rw [Kind.field?_eq_once, Kind.field?_eq_once, Json.once_perm (hname ?_)]
    exact List.mem_cons_of_mem _ (List.mem_cons_of_mem _ (List.mem_cons_of_mem _ hfield))

/-- So is a message. -/
theorem Message.ofDocument?_perm {text text' : String} {ms ms' extra : List (String × Option Json)}
    {m : Message} (hms : members? text = .ok ms) (hms' : members? text' = .ok ms')
    (h : ofDocument? text = .ok m) (hperm : ms'.Perm (ms ++ extra))
    (hextra : ∀ field ∈ extra, field.1 ∉ ["text", "entities"]) : ofDocument? text' = .ok m := by
  have hname {name : String} (hown : name ∈ ["text", "entities"]) :
      (named ms' name).Perm (named ms name) :=
    Json.named_perm hperm fun field hfield heq => hextra field hfield (heq ▸ hown)
  rw [ofDocument?_eq_ok_iff_named hms] at h
  rw [ofDocument?_eq_ok_iff_named hms', Json.once_perm (hname (by decide)),
    Json.once_perm (hname (by decide))]
  exact h

/-- Documents are read by the names of their fields. An object has its members however it is laid
out. Every document of an entity is an object, and whatever document has the same members in any
order, and any further members that are none of those that the entity needs, is a document of the
same entity; all that is asked of the others is that they have values. In the same way, whatever
object has the members of an object that is a message, and further ones that are neither its text
nor its entities, is the same message; of those nothing is asked. -/
theorem ofDocument?_members :
    (∀ (ms : List (String × Json)) (ws cs ws' : List Char),
      (∀ m ∈ ms, FitsIn (Json.maxDepth - 1) m.2) → IsGap ws → IsGap ws' →
      Enclosed '}' (Member Rendered) ms cs →
      members? (String.ofList (ws ++ '{' :: (cs ++ ws'))) = .ok (ms.map valued)) ∧
    (∀ (text : String) (e : Entity), Entity.ofDocument? text = .ok e →
      ∃ ms, members? text = .ok ms ∧
        ∀ (text' : String) (ms' extra : List (String × Option Json)),
          members? text' = .ok ms' → ms'.Perm (ms ++ extra) →
          (∀ m ∈ extra, m.2.isSome = true ∧
            m.1 ∉ "offset" :: "length" :: e.kind.members.map Prod.fst) →
          Entity.ofDocument? text' = .ok e) ∧
    ∀ (text : String) (m : Message) (ms : List (String × Option Json)),
      Message.ofDocument? text = .ok m → members? text = .ok ms →
      ∀ (text' : String) (ms' extra : List (String × Option Json)),
        members? text' = .ok ms' → ms'.Perm (ms ++ extra) →
        (∀ field ∈ extra, field.1 ∉ ["text", "entities"]) →
        Message.ofDocument? text' = .ok m := by
  refine ⟨fun ms ws cs ws' hms hws hws' hcs => Json.members?_layout hms hws hws' hcs,
    fun text e he => ?_, fun text m ms hm hms text' ms' extra hms' hperm hextra =>
      Message.ofDocument?_perm hms hms' hm hperm hextra⟩
  obtain ⟨js, hjs, he⟩ := Entity.ofDocument?_eq_ok_iff.mp he
  refine ⟨js.map valued, hjs, fun text' ms' extra hms' hperm hextra => ?_⟩
  obtain ⟨extraJs, rfl⟩ := Json.exists_map_valued fun m hm => (hextra m hm).1
  rw [← List.map_append] at hperm
  obtain ⟨js', rfl⟩ := Json.exists_map_valued fun m hm => by
    obtain ⟨m', -, rfl⟩ := List.mem_map.mp (hperm.subset hm)
    rfl
  refine Entity.ofDocument?_eq_ok_iff.mpr ⟨js', hms', Entity.ofJson_perm he
    ((List.map_perm_map_iff Json.valued_injective).mp hperm) fun m hm => ?_⟩
  exact (hextra (valued m) (List.mem_map_of_mem hm)).2

/-- A link with a field of some other kind, and a message, are read from the end to the start, each
with a further member. One of these is a number that is too great. -/
theorem ofDocument?_members_reversed :
    let link :=
      "\x7b\"type\":\"text_url\",\"offset\":1,\"length\":2,\"url\":\"u\",\"user_id\":[]\x7d"
    let e : Entity := ⟨1, 2, .textUrl "u"⟩
    let fields : List (String × Json) :=
      [("type", .string "text_url"), ("offset", .integer 1), ("length", .integer 2),
        ("url", .string "u"), ("user_id", .array [])]
    let further : List (String × Json) := [("x", .integer 5)]
    let link' := String.ofList (Json.object (fields ++ further).reverse).pretty
    let note := "\x7b\"text\":\"a\",\"entities\":[]\x7d"
    let note' := "\x7b\"x\":1e999,\"entities\":[],\"text\":\"a\"\x7d"
    let noteFields : List (String × Option Json) :=
      [("text", some (.string "a")), ("entities", some (.array []))]
    (Entity.ofDocument? link = .ok e ∧ members? link = .ok (fields.map valued) ∧
      members? link' = .ok ((fields ++ further).reverse.map valued) ∧
      Entity.ofDocument? link' = .ok e) ∧
    Message.ofDocument? note = .ok { text := "a" } ∧ members? note = .ok noteFields ∧
      members? note' = .ok (noteFields ++ [("x", none)]).reverse ∧
      Message.ofDocument? note' = .ok { text := "a" } := by
  intro link e fields further link' note note' noteFields
  obtain ⟨hlayout, hentity, hmessage⟩ := ofDocument?_members
  have he : Entity.ofDocument? link = .ok e := by unfold link; rfl
  have hfields : members? link = .ok (fields.map valued) := by unfold link; rfl
  have hfields' : members? link' = .ok ((fields ++ further).reverse.map valued) := by
    obtain ⟨cs, hcs, henclosed⟩ :=
      (Rendered.overLines 0 (.object (fields ++ further).reverse)).exists_members
    have hfit : ∀ m ∈ (fields ++ further).reverse, FitsIn (Json.maxDepth - 1) m.2 := by
      suffices h : ∀ m ∈ fields ++ further, FitsIn (Json.maxDepth - 1) m.2 from
        fun m hm => h m (List.mem_reverse.mp hm)
      simp only [fields, further, List.cons_append, List.nil_append, List.forall_mem_cons]
      exact ⟨.scalar (.string _), .scalar (.integer (by decide) (by decide)),
        .scalar (.integer (by decide) (by decide)), .scalar (.string _), .array nofun,
        .scalar (.integer (by decide) (by decide)), nofun⟩
    have hmembers := hlayout _ [] cs [] hfit Json.isGap_nil Json.isGap_nil henclosed
    rw [List.append_nil, List.nil_append, ← hcs] at hmembers
    exact hmembers
  have hm : Message.ofDocument? note = .ok { text := "a" } := by unfold note; rfl
  have hnote : members? note = .ok noteFields := by unfold note; rfl
  have hnote' : members? note' = .ok (noteFields ++ [("x", none)]).reverse := by unfold note'; rfl
  refine ⟨⟨he, hfields, hfields', ?_⟩, hm, hnote, hnote', ?_⟩
  · obtain ⟨ms, hms, hread⟩ := hentity link e he
    obtain rfl := Except.ok.inj (hms.symm.trans hfields)
    refine hread link' _ (further.map valued) hfields' ?_ (by decide)
    rw [List.map_reverse, List.map_append]
    exact List.reverse_perm _
  · exact hmessage note _ noteFields hm hnote note' _ _ hnote' (List.reverse_perm _) (by decide)

end MessageMarkup
