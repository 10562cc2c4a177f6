import MessageMarkup.Proofs.Json.Lexeme

/-!
# Arrays and objects however they are laid out

`Enclosed` says what stands behind the opening bracket of an array or an object: parts with commas
between them, white space around each, and the bracket that closes. So are arrays and objects laid
out that are written on one line or over several (`Rendered.exists_items`,
`Rendered.exists_members`). Reading them comes to reading one part after the other, and the white
space has no part in it: an array gives what its items give (`Enclosed.readArray`), and an object
what its members leave behind one after the other (`Enclosed.readObject`).

A scalar is a value without parts that a document can have. Wherever one is read, what is made of it
depends on the value alone.
-/

namespace MessageMarkup.Json

/-! ## Layouts -/

/-- Parts with commas between them and white space around each, up to a closing bracket. -/
inductive Enclosed {α : Type} (close : Char) (Part : α → List Char → Prop) :
    List α → List Char → Prop
  /-- There may be no part at all. -/
  | nil {ws : List Char} (hws : IsGap ws) : Enclosed close Part [] (ws ++ [close])
  /-- The last part is in front of the bracket. -/
  | last {x : α} {ws cs ws' : List Char} (hws : IsGap ws) (hpart : Part x cs) (hws' : IsGap ws') :
    Enclosed close Part [x] (ws ++ (cs ++ (ws' ++ [close])))
  /-- Any other part is in front of a comma. -/
  | cons {x : α} {xs : List α} {ws cs ws' rest : List Char} (hws : IsGap ws) (hpart : Part x cs)
    (hws' : IsGap ws') (hne : xs ≠ []) (hrest : Enclosed close Part xs rest) :
    Enclosed close Part (x :: xs) (ws ++ (cs ++ (ws' ++ ',' :: rest)))

/-- A member with white space around its colon. -/
inductive Member (Value : Json → List Char → Prop) : String × Json → List Char → Prop
  | mk {key : String} {j : Json} {ws ws' cs : List Char} (hws : IsGap ws) (hws' : IsGap ws')
    (hvalue : Value j cs) : Member Value (key, j) (stringText key ++ (ws ++ ':' :: (ws' ++ cs)))

/-- The texts that are written for a value, on one line or over several. -/
inductive Rendered : Json → List Char → Prop
  | onLine (j : Json) : Rendered j j.compact
  | overLines (level : Nat) (j : Json) : Rendered j (prettyAt level j)

/-- Parts that are written one after the other, with the same white space before each of them and
behind the last, are laid out as they should be. -/
theorem enclosed_of_write {α : Type} {close : Char} {Part : α → List Char → Prop}
    {text : α → List Char} {write : List α → List Char} {ws ws' : List Char} (hws : IsGap ws)
    (hws' : IsGap ws') (hpart : ∀ x, Part x (text x))
    (hone : ∀ x, write [x] = text x ++ (ws' ++ [close]))
    (hmore : ∀ x y xs, write (x :: y :: xs) = text x ++ ',' :: (ws ++ write (y :: xs)))
    {xs : List α} (hne : xs ≠ []) : Enclosed close Part xs (ws ++ write xs) := by
  induction xs with
  | nil => exact absurd rfl hne
  | cons x xs ih =>
    cases xs with
    | nil =>
      rw [hone]
      exact .last hws (hpart x) hws'
    | cons y xs =>
      rw [hmore]
      exact .cons hws (hpart x) isGap_nil (List.cons_ne_nil y xs) (ih (List.cons_ne_nil y xs))

/-- A member is written with its key, a colon and perhaps a space, and its value. -/
theorem member_stringText {ws cs : List Char} (hws : IsGap ws) (m : String × Json)
    (hvalue : Rendered m.2 cs) : Member Rendered m (stringText m.1 ++ ':' :: (ws ++ cs)) :=
  .mk isGap_nil hws hvalue

/-- Items on one line are laid out as they should be. -/
theorem enclosed_compactItems (js : List Json) : Enclosed ']' Rendered js (compactItems js) := by
  by_cases hne : js = []
  · rw [hne]
    exact .nil isGap_nil
  · rw [← List.nil_append (compactItems js)]
    refine enclosed_of_write isGap_nil isGap_nil Rendered.onLine (fun j => ?_) (fun j j' js => ?_)
      hne
    · rfl
    · rfl

/-- Members on one line are laid out as they should be. -/
theorem enclosed_compactMembers (ms : List (String × Json)) :
    Enclosed '}' (Member Rendered) ms (compactMembers ms) := by
  by_cases hne : ms = []
  · rw [hne]
    exact .nil isGap_nil
  · rw [← List.nil_append (compactMembers ms)]
    refine enclosed_of_write isGap_nil isGap_nil
      (fun m => member_stringText isGap_nil m (.onLine m.2)) (fun m => ?_) (fun m m' ms => ?_) hne
    · simp [compactMembers]
    · simp [compactMembers]

/-- Items on lines of their own are laid out as they should be. -/
theorem enclosed_prettyItems {level : Nat} {js : List Json} (hne : js ≠ []) :
    Enclosed ']' Rendered js (newline (level + 1) ++ prettyItems level js) := by
  refine enclosed_of_write (isGap_newline (level + 1)) (isGap_newline level)
    (Rendered.overLines (level + 1)) (fun j => ?_) (fun j j' js => ?_) hne
  · simp [prettyItems]
  · simp [prettyItems]

/-- Members on lines of their own are laid out as they should be. -/
theorem enclosed_prettyMembers {level : Nat} {ms : List (String × Json)} (hne : ms ≠ []) :
    Enclosed '}' (Member Rendered) ms (newline (level + 1) ++ prettyMembers level ms) := by
  have hspace : IsGap [' '] := rfl
  refine enclosed_of_write (isGap_newline (level + 1)) (isGap_newline level)
    (fun m => member_stringText hspace m (.overLines (level + 1) m.2)) (fun m => ?_)
    (fun m m' ms => ?_) hne
  · simp [prettyMembers]
  · simp [prettyMembers]

/-- An array is written as a bracket and its items. -/
theorem Rendered.exists_items {js : List Json} {cs : List Char} (h : Rendered (.array js) cs) :
    ∃ rest, cs = '[' :: rest ∧ Enclosed ']' Rendered js rest := by
  cases h with
  | onLine => exact ⟨_, by rw [compact], enclosed_compactItems js⟩
  | overLines level =>
    cases js with
    | nil => exact ⟨[']'], by rw [prettyAt], .nil isGap_nil⟩
    | cons j js => exact ⟨_, by rw [prettyAt]; rfl, enclosed_prettyItems (List.cons_ne_nil j js)⟩

/-- An object is written as a brace and its members. -/
theorem Rendered.exists_members {ms : List (String × Json)} {cs : List Char}
    (h : Rendered (.object ms) cs) :
    ∃ rest, cs = '{' :: rest ∧ Enclosed '}' (Member Rendered) ms rest := by
  cases h with
  | onLine => exact ⟨_, by rw [compact], enclosed_compactMembers ms⟩
  | overLines level =>
    cases ms with
    | nil => exact ⟨['}'], by rw [prettyAt], .nil isGap_nil⟩
    | cons m ms => exact ⟨_, by rw [prettyAt]; rfl, enclosed_prettyMembers (List.cons_ne_nil m ms)⟩

/-! ## Reading arrays -/

variable {α β σ : Type} {Part : α → List Char → Prop} {xs : List α} {cs : List Char}

/-- There are at least as many characters as parts. -/
theorem Enclosed.length_le {close : Char} (h : Enclosed close Part xs cs) :
    xs.length ≤ cs.length := by
  induction h with
  | nil => exact Nat.zero_le _
  | last =>
    simp only [List.length_append, List.length_cons, List.length_nil]
    omega
  | cons _ _ _ _ _ ih =>
    simp only [List.length_append, List.length_cons]
    omega

/-- Behind the white space there, it starts with one of the parts, if there are any. -/
theorem Enclosed.exists_part {close : Char} (h : Enclosed close Part xs cs) (hne : xs ≠ [])
    (rest : List Char) : ∃ x ∈ xs, ∃ text more, Part x text ∧
      afterBlanks (cs ++ rest) = afterBlanks (text ++ more) := by
  cases h with
  | nil => exact absurd rfl hne
  | last hws hpart =>
    rw [List.append_assoc, List.append_assoc, afterBlanks_append hws]
    exact ⟨_, List.mem_cons_self, _, _, hpart, rfl⟩
  | cons hws hpart =>
    rw [List.append_assoc, List.append_assoc, afterBlanks_append hws]
    exact ⟨_, List.mem_cons_self, _, _, hpart, rfl⟩

/-- A reader makes of the texts of an item what `f` makes of the item. No such text looks like the
end of an array. -/
structure ReadsAs (Part : α → List Char → Prop) (reader : List Char → Except Fault (β × List Char))
    (f : α → Except Fault β) (x : α) : Prop where
  /-- What is made of the item, with white space before it and more behind it. -/
  read : ∀ {cs ws rest}, Part x cs → IsGap ws → EndsNumber rest →
    reader (ws ++ (cs ++ rest)) = (f x).map (·, rest)
  /-- What its texts start with. -/
  head : ∀ {cs}, Part x cs → ∃ c cs', cs = c :: cs' ∧ ¬ IsGap [c] ∧ c ≠ ']'

variable {reader : List Char → Except Fault (β × List Char)} {f : α → Except Fault β}

/-- What the rest of an array starts with, if there are items in it. -/
theorem Enclosed.exists_head (h : Enclosed ']' Part xs cs) (hne : xs ≠ [])
    (hreads : ∀ x ∈ xs, ReadsAs Part reader f x) (rest : List Char) :
    ∃ c cs', afterBlanks (cs ++ rest) = c :: cs' ∧ c ≠ ']' := by
  obtain ⟨x, hx, text, more, hpart, hfirst⟩ := h.exists_part hne rest
  obtain ⟨c, cs', rfl, hgap, hc⟩ := (hreads x hx).head hpart
  exact ⟨c, cs' ++ more, by rw [hfirst, List.cons_append, afterBlanks_cons hgap], hc⟩

/-- A comma, and the brackets that close, do not go on with a number. -/
theorem endsNumber_mark {c : Char} (hc : c = ',' ∨ c = ']' ∨ c = '}') {ws : List Char}
    (hws : IsGap ws) (rest : List Char) : EndsNumber (ws ++ c :: rest) := by
  refine hws.endsNumber (endsNumber_cons ?_ rest)
  rcases hc with rfl | rfl | rfl <;> decide

/-- An item with a fault is the first fault of the items. -/
theorem readItems_error {steps : Nat} {fault : Fault} (h : reader cs = .error fault) :
    readItems reader (steps + 1) cs = .error fault := by
  rw [readItems, h]
  rfl

/-- In front of a bracket there are no more items. -/
theorem readItems_last {steps : Nat} {y : β} {rest rest' : List Char}
    (h : reader cs = .ok (y, rest)) (hrest : afterBlanks rest = ']' :: rest') :
    readItems reader (steps + 1) cs = .ok ([y], rest') := by
  simp only [readItems, h, ok_bind, hrest]
  rfl

/-- In front of a comma there are. -/
theorem readItems_more {steps : Nat} {y : β} {rest rest' : List Char}
    (h : reader cs = .ok (y, rest)) (hrest : afterBlanks rest = ',' :: rest')
    (hmore : ∃ c cs', afterBlanks rest' = c :: cs' ∧ c ≠ ']') :
    readItems reader (steps + 1) cs =
      (readItems reader steps rest').map fun (ys, cs) => (y :: ys, cs) := by
  obtain ⟨c, cs', hcs, hc⟩ := hmore
  simp only [readItems, h, ok_bind, hrest, hcs]
  split
  · exact absurd (List.cons.inj ‹_›).1 hc
  · rfl

/-- Reading items is making something of each of them. -/
theorem Enclosed.readItems (h : Enclosed ']' Part xs cs) (hne : xs ≠ [])
    (hreads : ∀ x ∈ xs, ReadsAs Part reader f x) {steps : Nat} (hsteps : xs.length ≤ steps)
    (rest : List Char) :
    Json.readItems reader steps (cs ++ rest) = (xs.mapM f).map (·, rest) := by
  induction h generalizing steps with
  | nil => exact absurd rfl hne
  | @last x ws cs ws' hws hpart hws' =>
    obtain ⟨steps, rfl⟩ := Nat.exists_eq_succ_of_ne_zero (Nat.ne_of_gt hsteps)
    have hitem := (hreads x List.mem_cons_self).read hpart hws
      (endsNumber_mark (Or.inr (Or.inl rfl)) hws' rest)
    simp only [List.append_assoc, List.singleton_append]
    cases hx : f x with
    | error fault =>
      rw [hx] at hitem
      rw [readItems_error hitem, List.mapM_cons, hx]
      rfl
    | ok y =>
      rw [hx] at hitem
      have hclose : afterBlanks (ws' ++ ']' :: rest) = ']' :: rest :=
        afterBlanks_append_cons hws' (by decide) rest
      rw [readItems_last hitem hclose, List.mapM_cons, hx]
      rfl
  | @cons x xs ws cs ws' rest' hws hpart hws' hne' hrest ih =>
    obtain ⟨steps, rfl⟩ := Nat.exists_eq_succ_of_ne_zero (Nat.ne_zero_of_lt hsteps)
    have hitem := (hreads x List.mem_cons_self).read hpart hws
      (endsNumber_mark (Or.inl rfl) hws' (rest' ++ rest))
    have hxs : ∀ x ∈ xs, ReadsAs Part reader f x :=
      fun x' hx' => hreads x' (List.mem_cons_of_mem x hx')
    simp only [List.append_assoc, List.cons_append]
    cases hx : f x with
    | error fault =>
      rw [hx] at hitem
      rw [readItems_error hitem, List.mapM_cons, hx]
      rfl
    | ok y =>
      rw [hx] at hitem
      have hcomma : afterBlanks (ws' ++ ',' :: (rest' ++ rest)) = ',' :: (rest' ++ rest) :=
        afterBlanks_append_cons hws' (by decide) (rest' ++ rest)
      rw [readItems_more hitem hcomma (hrest.exists_head hne' hxs rest),
        ih hne' hxs (Nat.le_of_succ_le_succ hsteps), List.mapM_cons, hx, ok_bind]
      cases xs.mapM f <;> rfl

/-- Reading an array is making something of each of its items. -/
theorem Enclosed.readArray (h : Enclosed ']' Part xs cs)
    (hreads : ∀ x ∈ xs, ReadsAs Part reader f x) (rest : List Char) :
    Json.readArray reader (cs ++ rest) = (xs.mapM f).map (·, rest) := by
  unfold Json.readArray
  by_cases hne : xs = []
  · cases h with
    | nil hws =>
      rw [List.append_assoc, List.singleton_append, afterBlanks_append_cons hws (by decide)]
      rfl
    | last => exact absurd hne (List.cons_ne_nil _ _)
    | cons => exact absurd hne (List.cons_ne_nil _ _)
  · obtain ⟨c, cs', hcs, hc⟩ := h.exists_head hne hreads rest
    have hsteps : xs.length ≤ (cs ++ rest).length := by
      have := h.length_le
      rw [List.length_append]
      omega
    rw [hcs]
    split
    · exact absurd ‹_› (List.cons_ne_nil _ _)
    · exact absurd (List.cons.inj ‹_›).1 hc
    · exact h.readItems hne hreads hsteps rest

/-! ## Reading objects -/

variable {Value : Json → List Char → Prop} {ms : List (String × Json)} {strict : Bool}
  {member : σ → String → List Char → Except Fault (σ × List Char)}
  {step : σ → String × Json → Except Fault σ}

/-- A reader makes of the value of a member, behind its key, what `step` makes of the member. -/
def ReadsMember (Value : Json → List Char → Prop)
    (member : σ → String → List Char → Except Fault (σ × List Char))
    (step : σ → String × Json → Except Fault σ) (m : String × Json) : Prop :=
  ∀ s {cs ws ws' rest}, Value m.2 cs → IsGap ws → IsGap ws' → EndsNumber rest →
    member s m.1 (ws ++ ':' :: (ws' ++ (cs ++ rest))) = (step s m).map (·, rest)

/-- A member with a fault is the first fault of the members. -/
theorem readMembers_error {steps : Nat} {s : σ} {key : String} {rest : List Char} {fault : Fault}
    (hkey : readKey strict cs = .ok (key, rest)) (h : member s key rest = .error fault) :
    readMembers strict member (steps + 1) s cs = .error fault := by
  simp only [readMembers, hkey, ok_bind, h]
  rfl

/-- In front of a brace there are no more members. -/
theorem readMembers_last {steps : Nat} {s s' : σ} {key : String} {rest rest' rest'' : List Char}
    (hkey : readKey strict cs = .ok (key, rest)) (h : member s key rest = .ok (s', rest'))
    (hrest : afterBlanks rest' = '}' :: rest'') :
    readMembers strict member (steps + 1) s cs = .ok (s', rest'') := by
  simp only [readMembers, hkey, ok_bind, h, hrest]
  rfl

/-- In front of a comma there are. -/
theorem readMembers_more {steps : Nat} {s s' : σ} {key : String} {rest rest' rest'' : List Char}
    (hkey : readKey strict cs = .ok (key, rest)) (h : member s key rest = .ok (s', rest'))
    (hrest : afterBlanks rest' = ',' :: rest'') :
    readMembers strict member (steps + 1) s cs = readMembers strict member steps s' rest'' := by
  simp only [readMembers, hkey, ok_bind, h, hrest]

/-- Reading members is taking one step for each of them. -/
theorem Enclosed.readMembers (strict : Bool) (h : Enclosed '}' (Member Value) ms cs) (hne : ms ≠ [])
    (hreads : ∀ m ∈ ms, ReadsMember Value member step m) {steps : Nat} (hsteps : ms.length ≤ steps)
    (s : σ) (rest : List Char) :
    Json.readMembers strict member steps s (cs ++ rest) = (ms.foldlM step s).map (·, rest) := by
  induction h generalizing steps s with
  | nil => exact absurd rfl hne
  | @last m ws cs ws' hws hpart hws' =>
    obtain ⟨steps, rfl⟩ := Nat.exists_eq_succ_of_ne_zero (Nat.ne_of_gt hsteps)
    obtain @⟨key, j, ws₁, ws₂, cs, hws₁, hws₂, hvalue⟩ := hpart
    have hmember := hreads (key, j) List.mem_cons_self s hvalue hws₁ hws₂
      (endsNumber_mark (Or.inr (Or.inr rfl)) hws' rest)
    simp only [List.append_assoc, List.cons_append, List.nil_append]
    have hkey := readKey_stringText strict hws key
      (ws₁ ++ ':' :: (ws₂ ++ (cs ++ (ws' ++ '}' :: rest))))
    cases hs : step s (key, j) with
    | error fault =>
      rw [hs] at hmember
      rw [readMembers_error hkey hmember, List.foldlM_cons, hs]
      rfl
    | ok s' =>
      rw [hs] at hmember
      have hclose : afterBlanks (ws' ++ '}' :: rest) = '}' :: rest :=
        afterBlanks_append_cons hws' (by decide) rest
      rw [readMembers_last hkey hmember hclose, List.foldlM_cons, hs]
      rfl
  | @cons m ms ws cs ws' rest' hws hpart hws' hne' hrest ih =>
    obtain ⟨steps, rfl⟩ := Nat.exists_eq_succ_of_ne_zero (Nat.ne_zero_of_lt hsteps)
    obtain @⟨key, j, ws₁, ws₂, cs, hws₁, hws₂, hvalue⟩ := hpart
    have hmember := hreads (key, j) List.mem_cons_self s hvalue hws₁ hws₂
      (endsNumber_mark (Or.inl rfl) hws' (rest' ++ rest))
    simp only [List.append_assoc, List.cons_append]
    have hkey := readKey_stringText strict hws key
      (ws₁ ++ ':' :: (ws₂ ++ (cs ++ (ws' ++ ',' :: (rest' ++ rest)))))
    cases hs : step s (key, j) with
    | error fault =>
      rw [hs] at hmember
      rw [readMembers_error hkey hmember, List.foldlM_cons, hs]
      rfl
    | ok s' =>
      rw [hs] at hmember
      have hcomma : afterBlanks (ws' ++ ',' :: (rest' ++ rest)) = ',' :: (rest' ++ rest) :=
        afterBlanks_append_cons hws' (by decide) (rest' ++ rest)
      rw [readMembers_more hkey hmember hcomma,
        ih hne' (fun m hm => hreads m (List.mem_cons_of_mem (key, j) hm))
          (Nat.le_of_succ_le_succ hsteps) s', List.foldlM_cons, hs, ok_bind]

/-- What the rest of an object starts with, if there are members in it. -/
theorem Enclosed.exists_quote (h : Enclosed '}' (Member Value) ms cs) (hne : ms ≠ [])
    (rest : List Char) : ∃ cs', afterBlanks (cs ++ rest) = '"' :: cs' := by
  obtain ⟨m, -, text, more, hm, hfirst⟩ := h.exists_part hne rest
  obtain @⟨key, j, ws, ws', cs, -, -, -⟩ := hm
  have hkey := afterBlanks_stringText isGap_nil key (ws ++ ':' :: (ws' ++ cs) ++ more)
  exact ⟨_, by rw [hfirst, List.append_assoc]; exact hkey⟩

/-- Reading an object is taking one step for each of its members. -/
theorem Enclosed.readObject (strict : Bool) (h : Enclosed '}' (Member Value) ms cs)
    (hreads : ∀ m ∈ ms, ReadsMember Value member step m) (s : σ) (rest : List Char) :
    Json.readObject strict member s (cs ++ rest) = (ms.foldlM step s).map (·, rest) := by
  unfold Json.readObject
  by_cases hne : ms = []
  · cases h with
    | nil hws =>
      rw [List.append_assoc, List.singleton_append, afterBlanks_append_cons hws (by decide)]
      rfl
    | last => exact absurd hne (List.cons_ne_nil _ _)
    | cons => exact absurd hne (List.cons_ne_nil _ _)
  · obtain ⟨cs', hcs⟩ := h.exists_quote hne rest
    have hsteps : ms.length ≤ (cs ++ rest).length := by
      have := h.length_le
      rw [List.length_append]
      omega
    rw [hcs]
    exact h.readMembers strict hne hreads hsteps s rest

/-! ## Scalars -/

/-- A value without parts: null, a truth value, an integer of 64 bits or a string. -/
inductive IsScalar : Json → Prop
  | null : IsScalar .null
  | bool (value : Bool) : IsScalar (.bool value)
  | integer {value : Int} (hmin : -(Integer64.minMagnitude : Int) ≤ value)
    (hmax : value ≤ Integer64.maxUnsigned) : IsScalar (.integer value)
  | string (value : String) : IsScalar (.string value)

/-- A scalar is always written on one line. -/
theorem Rendered.eq_compact {j : Json} {cs : List Char} (h : Rendered j cs) (hj : j.IsScalar) :
    cs = j.compact := by
  cases h with
  | onLine => rfl
  | overLines level =>
    cases hj with
    | null => rw [prettyAt, compact]
    | bool value => cases value <;> rw [prettyAt, compact]
    | integer => rw [prettyAt, compact]
    | string => rw [prettyAt, compact]

variable {ws rest : List Char} {j : Json}

/-- A scalar is read as itself where any value may be. -/
theorem IsScalar.readValue (hj : j.IsScalar) (hws : IsGap ws) (hrest : EndsNumber rest)
    (room : Nat) : readValue room (ws ++ (j.compact ++ rest)) = .ok (j, rest) := by
  cases hj with
  | null =>
    rw [readValue.eq_def, afterBlanks_append hws, compact]
    rfl
  | bool value =>
    rw [readValue.eq_def, afterBlanks_append hws]
    cases value <;> rfl
  | integer hmin hmax =>
    rw [compact]
    exact readValue_integerText hws room hmin hmax hrest
  | string s =>
    rw [compact]
    exact readValue_stringText hws room s rest

/-- What a scalar starts with is no white space, and does not close an array. -/
theorem IsScalar.exists_head (hj : j.IsScalar) :
    ∃ c cs, j.compact = c :: cs ∧ ¬ IsGap [c] ∧ c ≠ ']' := by
  cases hj with
  | null => exact ⟨'n', _, by rw [compact], by decide, by decide⟩
  | bool value =>
    cases value with
    | false => exact ⟨'f', _, by rw [compact], by decide, by decide⟩
    | true => exact ⟨'t', _, by rw [compact], by decide, by decide⟩
  | integer =>
    obtain ⟨c, cs, hcs, hc⟩ := exists_integerText _
    refine ⟨c, cs, by rw [compact, hcs], not_isGap_of_number hc, ?_⟩
    rintro rfl
    exact absurd hc (by decide)
  | string s => exact ⟨'"', _, by rw [compact, stringText], by decide, by decide⟩

/-- Where another kind of value is wanted, that is what is wrong with a scalar. -/
theorem IsScalar.mismatch (hj : j.IsScalar) (hws : IsGap ws) (hrest : EndsNumber rest) :
    Json.mismatch (ws ++ (j.compact ++ rest)) = .mismatched := by
  have hvalue := hj.readValue isGap_nil hrest 0
  rw [List.nil_append] at hvalue
  obtain ⟨c, cs, hcs, hc, -⟩ := hj.exists_head
  unfold Json.mismatch
  rw [afterBlanks_append hws]
  rw [hcs, List.cons_append] at hvalue ⊢
  rw [afterBlanks_cons hc]
  split
  · rfl
  · rfl
  · rw [hvalue]

end MessageMarkup.Json
