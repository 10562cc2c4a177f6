import Mathlib.Data.List.TakeDrop
import Mathlib.Data.List.TakeWhile
import MessageMarkup.CommandLine
import MessageMarkup.Proofs.Except

/-!
# The option that disables delimiters

Reading a command line goes on argument by argument, each with its value if that stands behind it
(`readLevel_cons`). What one argument does to what has been given is what it says, so that, where
the command line makes sense, delimiters are disabled exactly if the option stands on it somewhere
in front of two hyphens, before the command or behind it (`noDelimiters_eq`). There it cannot be the
value of another option.
-/

namespace MessageMarkup.CommandLine

/-- Whether the option that disables delimiters is among some arguments, in front of two hyphens. -/
def disablesDelimiters (args : List String) : Bool :=
  (args.takeWhile (· != "--")).contains "--no-delimiters"

/-- Arguments none of which is two hyphens may be looked at apart from those behind them. -/
theorem disablesDelimiters_append {taken : List String} (h : "--" ∉ taken) (args : List String) :
    disablesDelimiters (taken ++ args) =
      (taken.contains "--no-delimiters" || disablesDelimiters args) := by
  unfold disablesDelimiters
  rw [List.takeWhile_append_of_pos fun arg harg => ?_, List.contains_append]
  rw [bne_iff_ne]
  rintro rfl
  exact h harg

/-! ## What is given -/

namespace Given

variable {g g' : Given}

/-- A value disables no delimiters. -/
theorem noDelimiters_of_addValue {o : Switch} {value : String} (h : g.addValue o value = .ok g') :
    g'.noDelimiters = g.noDelimiters := by
  cases o with
  | config | output =>
    obtain ⟨_, -, h⟩ := bind_eq_ok_iff.mp h
    rw [← pure_eq_ok_iff.mp h]
  | _ => exact absurd h nofun

/-- Nor does an input. -/
theorem noDelimiters_of_addInput {value : String} (h : g.addInput value = .ok g') :
    g'.noDelimiters = g.noDelimiters := by
  obtain ⟨_, -, h⟩ := bind_eq_ok_iff.mp h
  rw [← pure_eq_ok_iff.mp h]

/-- Nor do several. -/
theorem noDelimiters_of_addInputs {values : List String} (h : g.addInputs values = .ok g') :
    g'.noDelimiters = g.noDelimiters := by
  induction values generalizing g with
  | nil => rw [← pure_eq_ok_iff.mp h]
  | cons value values ih =>
    unfold addInputs at h
    rw [List.foldlM_cons] at h
    obtain ⟨_, hvalue, h⟩ := bind_eq_ok_iff.mp h
    rw [ih h, noDelimiters_of_addInput hvalue]

/-- An option without a value does if it is the one for it. -/
theorem noDelimiters_of_addFlag {o : Switch} (h : g.addFlag o = .ok g') :
    g'.noDelimiters = (g.noDelimiters || o == .noDelimiters) := by
  cases o with
  | noDelimiters | compact =>
    unfold addFlag at h
    dsimp only at h
    split at h
    · exact absurd h nofun
    · rw [← Except.ok.inj h]
      simp
  | _ => exact absurd h nofun

end Given

/-! ## Options -/

/-- The long option that disables delimiters is that of its name. -/
theorem longOption?_noDelimiters (level : Level) :
    longOption? level "no-delimiters".toList = some (.noDelimiters, none) := by
  cases level <;> decide

/-- Another long option without a value is another option. -/
theorem ne_noDelimiters_of_longOption? {level : Level} {body : List Char} {o : Switch}
    (h : longOption? level body = some (o, none)) (hbody : body ≠ "no-delimiters".toList) :
    o ≠ .noDelimiters := by
  have hknown : ∀ option ∈ longOptions level, option.2 = .noDelimiters →
      option.1 = "no-delimiters" := by
    cases level <;> decide
  unfold longOption? at h
  rw [List.span_eq_takeWhile_dropWhile] at h
  dsimp only at h
  split at h
  · -- Without an equals sign the name is the whole argument.
    rename_i known found hfind hvalue
    obtain rfl := (Prod.mk.inj (Option.some.inj h)).1
    have hname := List.takeWhile_append_dropWhile (p := (· != '=')) (l := body)
    rw [hvalue, List.append_nil] at hname
    have hequal := List.find?_some hfind
    dsimp only at hequal
    rw [hname, beq_iff_eq] at hequal
    rintro rfl
    have hopt := hknown _ (List.mem_of_find?_eq_some hfind) rfl
    exact hbody (hequal.symm.trans (congrArg String.toList hopt))
  · exact absurd (Prod.mk.inj (Option.some.inj h)).2 (Option.some_ne_none _)
  · exact absurd h.symm (Option.some_ne_none _)

/-- So a long option disables delimiters, and has no value, exactly if it has this name. -/
theorem eq_noDelimiters_iff_of_longOption? {level : Level} {body : List Char} {o : Switch}
    {value? : Option String} (h : longOption? level body = some (o, value?)) :
    body = "no-delimiters".toList ↔ o = .noDelimiters ∧ value? = none := by
  constructor
  · rintro rfl
    obtain ⟨ho, hvalue⟩ := Prod.mk.inj (Option.some.inj (h.symm.trans (longOption?_noDelimiters _)))
    exact ⟨ho, hvalue⟩
  · rintro ⟨rfl, rfl⟩
    by_contra hbody
    exact ne_noDelimiters_of_longOption? h hbody rfl

/-- No short option disables delimiters. -/
theorem ne_noDelimiters_of_shortOption? {level : Level} {body : List Char} {o : Switch}
    {value? : Option String} (h : shortOption? level body = some (o, value?)) :
    o ≠ .noDelimiters := by
  have hknown : ∀ option ∈ shortOptions level, option.2 ≠ .noDelimiters := by
    cases level <;> decide
  unfold shortOption? at h
  split at h
  · exact absurd h.symm (Option.some_ne_none _)
  · split at h
    · exact absurd h.symm (Option.some_ne_none _)
    · rename_i hfind
      have hne := hknown _ (List.mem_of_find?_eq_some hfind)
      split at h <;> exact (Prod.mk.inj (Option.some.inj h)).1 ▸ hne

/-- The value of an option is neither the option that disables delimiters nor two hyphens. -/
theorem ne_of_isValue {value : String} (h : isValue value = true) :
    value ≠ "--" ∧ value ≠ "--no-delimiters" := by
  constructor <;> rintro rfl <;> exact absurd h (by decide)

/-! ## Arguments -/

/-- Some arguments are taken, one or an option with its value. They disable delimiters if that is
what they say. -/
structure Takes (g : Given) (taken : List String) (g' : Given) : Prop where
  /-- There are some. -/
  ne_nil : taken ≠ []
  /-- None of them is two hyphens. -/
  not_mem : "--" ∉ taken
  /-- What is disabled then. -/
  noDelimiters_eq : g'.noDelimiters = (g.noDelimiters || taken.contains "--no-delimiters")

namespace Takes

variable {g g' : Given} {arg value : String} {o : Switch}

/-- An argument that disables nothing. -/
theorem single (hhyphens : arg ≠ "--") (harg : arg ≠ "--no-delimiters")
    (h : g'.noDelimiters = g.noDelimiters) : Takes g [arg] g' where
  ne_nil := List.cons_ne_nil _ _
  not_mem := by simpa using hhyphens.symm
  noDelimiters_eq := by simpa [harg.symm] using h

/-- An option without a value. -/
theorem flag (hhyphens : arg ≠ "--") (harg : arg = "--no-delimiters" ↔ o = .noDelimiters)
    (h : g.addFlag o = .ok g') : Takes g [arg] g' where
  ne_nil := List.cons_ne_nil _ _
  not_mem := by simpa using hhyphens.symm
  noDelimiters_eq := by
    rw [Given.noDelimiters_of_addFlag h]
    congr 1
    rw [Bool.eq_iff_iff, beq_iff_eq, ← harg]
    simp [eq_comm]

/-- An option with its value behind it. -/
theorem pair (hhyphens : arg ≠ "--") (harg : arg ≠ "--no-delimiters")
    (hvalue : isValue value = true) (h : g'.noDelimiters = g.noDelimiters) :
    Takes g [arg, value] g' where
  ne_nil := List.cons_ne_nil _ _
  not_mem := by simpa using ⟨hhyphens.symm, (ne_of_isValue hvalue).1.symm⟩
  noDelimiters_eq := by simpa [harg.symm, (ne_of_isValue hvalue).2.symm] using h

end Takes

variable {level : Level} {g : Given} {arg : String} {args : List String}
  {r : Given × Option (Level × List String)}

/-- How reading goes on when an argument has been taken, with a value behind it or without. -/
def GoesOn (level : Level) (g : Given) (args : List String)
    (r : Given × Option (Level × List String)) : Prop :=
  ∃ taken args' g', args = taken ++ args' ∧ Takes g taken g' ∧ readLevel level g' args' = .ok r

/-- An option is taken with its value, which may stand behind it. -/
def takeOption (level : Level) (g : Given) (args : List String) (o : Switch)
    (value? : Option String) : Except Refusal (Given × Option (Level × List String)) :=
  match value? with
  | some value => do readLevel level (← g.addValue o value) args
  | none =>
    if o.takesValue then
      match args with
      | value :: args =>
        if isValue value then do readLevel level (← g.addValue o value) args
        else .error .misuse
      | [] => .error .misuse
    else do readLevel level (← g.addFlag o) args

/-- Behind an option reading goes on. -/
theorem goesOn_of_takeOption {o : Switch} {value? : Option String} (hhyphens : arg ≠ "--")
    (harg : arg = "--no-delimiters" ↔ o = .noDelimiters ∧ value? = none)
    (h : takeOption level g args o value? = .ok r) : GoesOn level g (arg :: args) r := by
  unfold takeOption at h
  split at h
  · rename_i value
    have hne : arg ≠ "--no-delimiters" := fun heq => Option.some_ne_none value (harg.mp heq).2
    obtain ⟨g', hvalue, h⟩ := bind_eq_ok_iff.mp h
    exact ⟨[arg], args, g', rfl,
      .single hhyphens hne (Given.noDelimiters_of_addValue hvalue), h⟩
  · split at h
    · rename_i htakes
      have hne : arg ≠ "--no-delimiters" := by
        intro heq
        rw [(harg.mp heq).1] at htakes
        exact absurd htakes (by decide)
      split at h
      · split at h
        · rename_i value args hvalue
          obtain ⟨g', hadd, h⟩ := bind_eq_ok_iff.mp h
          exact ⟨[arg, value], args, g', rfl,
            .pair hhyphens hne hvalue (Given.noDelimiters_of_addValue hadd), h⟩
        · exact absurd h nofun
      · exact absurd h nofun
    · obtain ⟨g', hflag, h⟩ := bind_eq_ok_iff.mp h
      have hiff : arg = "--no-delimiters" ↔ o = .noDelimiters :=
        harg.trans (and_iff_left rfl)
      exact ⟨[arg], args, g', rfl, .flag hhyphens hiff hflag, h⟩

/-- At a level an argument is a command, which ends it, or two hyphens, behind which there are no
options, or reading goes on behind it. -/
theorem cases_readLevel (h : readLevel level g (arg :: args) = .ok r) :
    (∃ command, level = .root ∧ command? arg = some command ∧ r = (g, some (command, args))) ∨
      (∃ g', arg = "--" ∧ level ≠ .root ∧ g'.noDelimiters = g.noDelimiters ∧ r = (g', none)) ∨
      GoesOn level g (arg :: args) r := by
  unfold readLevel at h
  dsimp only at h
  split at h
  · rename_i command hcommand
    exact Or.inl ⟨command, rfl, hcommand, (Except.ok.inj h).symm⟩
  · split at h
    · rename_i harg
      split at h
      · exact absurd h nofun
      · rename_i hlevel
        cases hinputs : g.addInputs args with
        | error refusal => rw [hinputs] at h; exact absurd h nofun
        | ok g' =>
          rw [hinputs] at h
          exact Or.inr (Or.inl ⟨g', String.toList_injective harg, hlevel,
            Given.noDelimiters_of_addInputs hinputs, (Except.ok.inj h).symm⟩)
    · rename_i body hbody harg
      split at h
      · rename_i o value? hoption
        refine Or.inr (Or.inr (goesOn_of_takeOption ?_ ?_ h))
        · rintro rfl
          exact hbody (List.cons.inj (List.cons.inj harg).2).2.symm
        · rw [← eq_noDelimiters_iff_of_longOption? hoption]
          constructor
          · rintro rfl
            exact (List.cons.inj (List.cons.inj harg).2).2.symm
          · rintro rfl
            exact String.toList_injective harg
      · exact absurd h nofun
    · rename_i c body hbody hc harg
      have hne : ∀ cs, arg.toList ≠ '-' :: '-' :: cs := fun cs heq =>
        hc (List.cons.inj (List.cons.inj (harg.symm.trans heq)).2).1
      split at h
      · exact absurd h nofun
      · exact absurd h nofun
      · rename_i o value? _ _ hoption
        refine Or.inr (Or.inr (goesOn_of_takeOption ?_ ?_ h))
        · rintro rfl
          exact hne [] rfl
        · constructor
          · rintro rfl
            exact absurd rfl (hne _)
          · rintro ⟨ho, -⟩
            exact absurd ho (ne_noDelimiters_of_shortOption? hoption)
      · exact absurd h nofun
    · rename_i hhyphens hlong hshort
      split at h
      · exact absurd h nofun
      · obtain ⟨g', hinput, h⟩ := bind_eq_ok_iff.mp h
        refine Or.inr (Or.inr ⟨[arg], args, g', rfl, .single ?_ ?_ ?_, h⟩)
        · rintro rfl
          exact hhyphens rfl
        · rintro rfl
          exact hlong _ rfl
        · exact Given.noDelimiters_of_addInput hinput

/-- A command is neither two hyphens nor the option that disables delimiters. -/
theorem ne_of_command? {command : Level} (h : command? arg = some command) :
    arg ≠ "--" ∧ arg ≠ "--no-delimiters" ∧ command ≠ .root := by
  unfold command? at h
  split at h
  · exact ⟨by decide, by decide, Option.some.inj h ▸ nofun⟩
  · exact ⟨by decide, by decide, Option.some.inj h ▸ nofun⟩
  · exact absurd h.symm (Option.some_ne_none command)

/-- At a level delimiters are disabled by what is given there or by what stands behind the command
that ends it. Only the first level is ended by a command, which is of another level. -/
theorem noDelimiters_of_readLevel {g' : Given} {rest? : Option (Level × List String)}
    (h : readLevel level g args = .ok (g', rest?)) :
    (g.noDelimiters || disablesDelimiters args) =
        (g'.noDelimiters || rest?.any fun rest => disablesDelimiters rest.2) ∧
      ∀ rest, rest? = some rest → level = .root ∧ rest.1 ≠ .root := by
  induction hlength : args.length using Nat.strong_induction_on generalizing g args with
  | h n ih =>
    cases args with
    | nil =>
      obtain ⟨rfl, rfl⟩ := Prod.mk.inj (Except.ok.inj h)
      exact ⟨rfl, nofun⟩
    | cons arg args =>
      -- At each argument the option has been given, is given, or is still to come.
      obtain ⟨command, hlevel, hcommand, hr⟩ | ⟨k, rfl, -, hk, hr⟩ | hgoesOn := cases_readLevel h
      · obtain ⟨rfl, rfl⟩ := Prod.mk.inj hr
        obtain ⟨hhyphens, harg, hroot⟩ := ne_of_command? hcommand
        refine ⟨congrArg (g'.noDelimiters || ·) ?_, fun rest hrest => ?_⟩
        · change disablesDelimiters ([arg] ++ args) = _
          rw [disablesDelimiters_append (by simpa using hhyphens.symm)]
          simp [harg.symm]
        · rw [← Option.some.inj hrest]
          exact ⟨hlevel, hroot⟩
      · obtain ⟨rfl, rfl⟩ := Prod.mk.inj hr
        exact ⟨congrArg (· || false) hk.symm, nofun⟩
      · obtain ⟨taken, rest, k, hsplit, htakes, hread⟩ := hgoesOn
        have hlt : rest.length < n := by
          have hpos := List.length_pos_iff.mpr htakes.ne_nil
          rw [← hlength, hsplit, List.length_append]
          omega
        obtain ⟨heq, hrest⟩ := ih _ hlt hread rfl
        refine ⟨?_, hrest⟩
        rw [hsplit, disablesDelimiters_append htakes.not_mem, ← Bool.or_assoc,
          ← htakes.noDelimiters_eq, heq]

/-- Where a command line makes sense, delimiters are disabled exactly if the option for it stands on
it in front of two hyphens. -/
theorem noDelimiters_eq {args : List String} {inv : Invocation} (h : read args = .ok inv) :
    inv.noDelimiters = disablesDelimiters args := by
  unfold read at h
  obtain ⟨⟨before, rest?⟩, hbefore, h⟩ := bind_eq_ok_iff.mp h
  obtain ⟨hroot, hlevel⟩ := noDelimiters_of_readLevel hbefore
  cases rest? with
  | none => exact absurd h nofun
  | some rest =>
    obtain ⟨level, behind⟩ := rest
    obtain ⟨⟨g, rest?⟩, hg, h⟩ := bind_eq_ok_iff.mp h
    obtain ⟨hbehind, hend⟩ := noDelimiters_of_readLevel hg
    have hnone : rest? = none := by
      by_contra hne
      obtain ⟨rest, hrest⟩ := Option.ne_none_iff_exists'.mp hne
      exact (hlevel _ rfl).2 (hend rest hrest).1
    rw [hnone, Option.any_none, Bool.or_false] at hbehind
    rw [Option.any_some] at hroot
    -- At both levels nothing has been given at the start.
    rw [← pure_eq_ok_iff.mp h]
    exact (hroot.trans (congrArg (before.noDelimiters || ·) hbehind)).symm

end MessageMarkup.CommandLine
