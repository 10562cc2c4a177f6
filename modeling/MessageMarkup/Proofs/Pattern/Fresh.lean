import MessageMarkup.Proofs.Pattern.Search

/-!
# What searches keep

A search for the first place at which a match starts keeps what it has reached from the places at
which none does. This loses nothing, with any program (`Program.find?_eq`). A search that has found
nothing has reached what is closed (`Reached.Closed`): it accepts nothing, and leads to nothing that
has not been reached too. Whoever comes there later finds nothing either, so two searches agree if
they differ only in what they know of what is dead (`Program.Follows.agree`).

Programs may come back to a place from which they started, so what a thread leads to has no value of
its own here, as it has for the programs of `Program.Outcome`: it depends on what has been reached
before. What is compared is therefore not what threads lead to but the searches, step by step.
-/

namespace MessageMarkup

/-! ## Where threads are -/

namespace Thread

/-- What decides where a thread goes: its instruction and its place. -/
def spot (t : Thread) : Nat × Cursor :=
  (t.state, t.place)

/-- Threads at the same instruction and place go to the same ones. -/
theorem map_spot_after {t u : Thread} (h : t.spot = u.spot) (i : Instruction) :
    (t.after i).map spot = (u.after i).map spot := by
  obtain ⟨state, place, begun, captures⟩ := t
  obtain ⟨state', place', begun', captures'⟩ := u
  obtain ⟨rfl, rfl⟩ := Prod.mk.inj h
  cases i with
  | accept => rfl
  | consume set next =>
    cases hnext : place.next? with
    | none => simp only [after, hnext]
    | some x =>
      simp only [after, hnext]
      split <;> rfl
  | check condition next =>
    simp only [after]
    split <;> rfl
  | enter next => rfl
  | leave group next => cases begun <;> cases begun' <;> rfl
  | fork first second => rfl

end Thread

namespace Reached

/-- Having been reached is the same for threads at the same instruction and place. -/
theorem contains_congr {t u : Thread} (h : t.spot = u.spot) (r : Reached) :
    r.contains t = r.contains u := by
  obtain ⟨hstate, hplace⟩ := Prod.mk.inj h
  rw [contains_eq_bit, contains_eq_bit, hstate, hplace]

/-- A thread is where another one has just been, or where one had been before. -/
theorem contains_insert {c : Cursor} {r : Reached} {t u : Thread} {ts : List Thread}
    (h : Program.Room c r (t :: ts)) (hu : c.Reaches u.place) :
    (r.insert t).contains u = true ↔ u.spot = t.spot ∨ r.contains u = true := by
  rw [contains_eq_bit, bit_insert h.index_lt, Bool.or_eq_true, decide_eq_true_eq]
  refine or_congr_left ⟨fun ⟨hindex, hstate⟩ => ?_, fun h => ?_⟩
  · exact Prod.ext hstate (hu.eq_of_index h.head hindex)
  · obtain ⟨hstate, hplace⟩ := Prod.mk.inj h
    exact ⟨congrArg Cursor.index hplace, hstate⟩

/-- Nothing has been reached at the start. -/
theorem contains_nothing (places : Nat) (t : Thread) : (nothing places).contains t = false := by
  rw [contains_eq_bit, bit_nothing]

end Reached

/-! ## What is closed -/

variable {p : Program} {c : Cursor} {r r' : Reached} {t : Thread} {ts : List Thread}
  {m : Option Match}

/-- What has been reached at places from `c` on accepts nothing, and what comes after it has been
reached too, or is at the same instruction and place as one of some threads. -/
def Reached.Closed (p : Program) (c : Cursor) (r : Reached) (ts : List Thread) : Prop :=
  ∀ t i, c.Reaches t.place → r.contains t = true → p.code[t.state]? = some i →
    i ≠ .accept ∧ ∀ u ∈ t.after i, r.contains u = true ∨ u.spot ∈ ts.map Thread.spot

namespace Reached.Closed

/-- Before a search nothing has been reached. -/
theorem nothing (p : Program) (c : Cursor) (places : Nat) (ts : List Thread) :
    (Reached.nothing places).Closed p c ts := by
  intro t i _ ht
  rw [Reached.contains_nothing] at ht
  exact absurd ht Bool.false_ne_true

/-- What is closed already is so with threads to follow. -/
theorem of_nil (h : r.Closed p c []) (ts : List Thread) : r.Closed p c ts := by
  intro t i ht hr hi
  obtain ⟨ha, hafter⟩ := h t i ht hr hi
  exact ⟨ha, fun u hu => Or.inl ((hafter u hu).resolve_right List.not_mem_nil)⟩

/-- A thread that is where another one has been need not be followed. -/
theorem tail (h : r.Closed p c (t :: ts)) (ht : r.contains t = true) : r.Closed p c ts := by
  intro u i hu hr hi
  obtain ⟨ha, hafter⟩ := h u i hu hr hi
  refine ⟨ha, fun v hv => ?_⟩
  rcases hafter v hv with hv | hv
  · exact Or.inl hv
  · rcases List.mem_cons.mp hv with hspot | hv
    · exact Or.inl ((r.contains_congr hspot).trans ht)
    · exact Or.inr hv

/-- Once a thread counts as reached, what comes after it is to be followed in its place. -/
theorem insert {us : List Thread} (h : r.Closed p c (t :: ts)) (hroom : Program.Room c r (t :: ts))
    (hsub : ∀ u ∈ ts, u ∈ us)
    (ht : ∀ i, p.code[t.state]? = some i → i ≠ .accept ∧ ∀ u ∈ t.after i, u ∈ us) :
    (r.insert t).Closed p c us := by
  intro u i hu hr hi
  have hinsert {v : Thread} (hv : c.Reaches v.place) :=
    Reached.contains_insert hroom hv
  rcases (hinsert hu).mp hr with hspot | hr
  · -- A thread where this one is leads to where this one leads.
    obtain ⟨hstate, -⟩ := Prod.mk.inj hspot
    obtain ⟨ha, hafter⟩ := ht i (hstate ▸ hi)
    refine ⟨ha, fun v hv => Or.inr ?_⟩
    have hv' := List.mem_map_of_mem (f := Thread.spot) hv
    rw [Thread.map_spot_after hspot i] at hv'
    exact List.map_subset Thread.spot hafter hv'
  · obtain ⟨ha, hafter⟩ := h u i hu hr hi
    refine ⟨ha, fun v hv => ?_⟩
    have hreaches := Thread.reaches_after hu hv
    rcases hafter v hv with hv | hv
    · exact Or.inl ((hinsert hreaches).mpr (Or.inr hv))
    · rcases List.mem_cons.mp hv with hspot | hv
      · exact Or.inl ((hinsert hreaches).mpr (Or.inl hspot))
      · exact Or.inr (List.map_subset Thread.spot hsub hv)

end Reached.Closed

namespace Program

namespace Follows

/-- The first thread of a search is where another one has been. -/
theorem of_contains (h : p.Follows r (t :: ts) m r') (hr : r.contains t = true) :
    p.Follows r ts m r' := by
  cases h with
  | again _ h => exact h
  | halt hr' | accept hr' | step hr' => exact absurd (hr.symm.trans hr') Bool.noConfusion

/-- The first thread of a search has no instruction. -/
theorem of_halt (h : p.Follows r (t :: ts) m r') (hr : r.contains t = false)
    (hi : p.code[t.state]? = none) : p.Follows (r.insert t) ts m r' := by
  cases h with
  | again hr' => exact absurd (hr.symm.trans hr') Bool.noConfusion
  | halt _ _ h => exact h
  | accept _ hi' | step _ hi' => exact absurd (hi.symm.trans hi').symm (Option.some_ne_none _)

/-- The first thread of a search accepts. -/
theorem of_accept (h : p.Follows r (t :: ts) m r') (hr : r.contains t = false)
    (hi : p.code[t.state]? = some .accept) : m = some ⟨t.place, t.captures⟩ := by
  cases h with
  | again hr' => exact absurd (hr.symm.trans hr') Bool.noConfusion
  | halt _ hi' => exact absurd (hi.symm.trans hi') (Option.some_ne_none _)
  | accept => rfl
  | step _ hi' ha => exact absurd (Option.some.inj (hi'.symm.trans hi)) ha

/-- The first thread of a search goes on. -/
theorem of_step {i : Instruction} (h : p.Follows r (t :: ts) m r') (hr : r.contains t = false)
    (hi : p.code[t.state]? = some i) (ha : i ≠ .accept) :
    p.Follows (r.insert t) (t.after i ++ ts) m r' := by
  cases h with
  | again hr' => exact absurd (hr.symm.trans hr') Bool.noConfusion
  | halt _ hi' => exact absurd (hi.symm.trans hi') (Option.some_ne_none _)
  | accept _ hi' => exact absurd (Option.some.inj (hi.symm.trans hi')) ha
  | step _ hi' _ h => exact Option.some.inj (hi.symm.trans hi') ▸ h

/-- A search that finds nothing leaves behind what is closed. -/
theorem closed (h : p.Follows r ts m r') (hm : m = none) (hroom : Room c r ts)
    (hr : r.Closed p c ts) : r'.Closed p c [] := by
  induction h with
  | nil => exact hr
  | again ht _ ih => exact ih hm hroom.tail (hr.tail ht)
  | @halt r _ t ts _ _ hi _ ih =>
    refine ih hm (hroom.tail.insert t) (hr.insert hroom (fun u hu => hu) fun i hi' => ?_)
    rw [hi] at hi'
    exact absurd hi'.symm (Option.some_ne_none i)
  | accept => exact absurd hm (Option.some_ne_none _)
  | @step r _ t ts _ i _ hi ha _ ih =>
    refine ih hm (hroom.after i) (hr.insert hroom (fun u hu => List.mem_append_right _ hu) ?_)
    intro i' hi'
    obtain rfl := Option.some.inj (hi.symm.trans hi')
    exact ⟨ha, fun u hu => List.mem_append_left ts hu⟩

/-- What has been reached stays so, and there are as many places. -/
theorem grows (h : p.Follows r ts m r') (hroom : Room c r ts) :
    r'.rows.size = r.rows.size ∧ r'.left p.code.size c ⊆ r.left p.code.size c := by
  induction h with
  | nil => exact ⟨rfl, Finset.Subset.refl _⟩
  | again _ _ ih => exact ih hroom.tail
  | @halt r _ t _ _ _ _ _ ih =>
    obtain ⟨hsize, hleft⟩ := ih (hroom.tail.insert t)
    exact ⟨hsize.trans (r.size_rows_insert t),
      hleft.trans (Reached.left_insert_subset hroom.index_lt _ _)⟩
  | accept => exact ⟨rfl, Finset.Subset.refl _⟩
  | @step r _ t _ _ i _ _ _ _ ih =>
    obtain ⟨hsize, hleft⟩ := ih (hroom.after i)
    exact ⟨hsize.trans (r.size_rows_insert t),
      hleft.trans (Reached.left_insert_subset hroom.index_lt _ _)⟩

/-! ## What is dead -/

/-- The threads that are not where nothing comes of them. -/
def live (dead : Reached) (ts : List Thread) : List Thread :=
  ts.filter fun t => !dead.contains t

variable {dead r₁ r₂ : Reached}

/-- A dead thread can be left out. -/
theorem live_cons_of_dead (h : dead.contains t = true) (ts : List Thread) :
    live dead (t :: ts) = live dead ts :=
  List.filter_cons_of_neg (by rw [h]; exact Bool.false_ne_true)

/-- A live thread cannot. -/
theorem live_cons_of_live (h : dead.contains t = false) (ts : List Thread) :
    live dead (t :: ts) = t :: live dead ts :=
  List.filter_cons_of_pos (by rw [h]; rfl)

/-- After a dead thread come dead ones. -/
theorem live_after (hdead : dead.Closed p c []) (ht : c.Reaches t.place)
    (h : dead.contains t = true) {i : Instruction} (hi : p.code[t.state]? = some i)
    (ts : List Thread) : live dead (t.after i ++ ts) = live dead ts := by
  obtain ⟨-, hafter⟩ := hdead t i ht h hi
  have hnil : (t.after i).filter (fun u => !dead.contains u) = [] := by
    rw [List.filter_eq_nil_iff]
    intro u hu
    rcases hafter u hu with hu | hu
    · rw [hu]
      exact Bool.false_ne_true
    · exact absurd hu List.not_mem_nil
  rw [live, List.filter_append, hnil]
  rfl

/-- The same has been reached, but for what is dead. -/
def Alike (c : Cursor) (dead r₁ r₂ : Reached) : Prop :=
  ∀ t, c.Reaches t.place → dead.contains t = false → r₁.contains t = r₂.contains t

namespace Alike

/-- Nothing differs from itself. -/
theorem refl (c : Cursor) (dead r : Reached) : Alike c dead r r :=
  fun _ _ _ => rfl

/-- What is alike is so both ways. -/
theorem symm (h : Alike c dead r₁ r₂) : Alike c dead r₂ r₁ :=
  fun t ht hlive => (h t ht hlive).symm

/-- What is alike to something is alike to what that is alike to. -/
theorem trans {r₃ : Reached} (h : Alike c dead r₁ r₂) (h' : Alike c dead r₂ r₃) :
    Alike c dead r₁ r₃ :=
  fun t ht hlive => (h t ht hlive).trans (h' t ht hlive)

/-- A dead thread makes no difference. -/
theorem insert_dead (hroom : Room c r (t :: ts)) (ht : dead.contains t = true) :
    Alike c dead (r.insert t) r := by
  intro u hu hlive
  rw [Bool.eq_iff_iff, Reached.contains_insert hroom hu]
  refine or_iff_right fun hspot => ?_
  rw [dead.contains_congr hspot, ht] at hlive
  exact Bool.noConfusion hlive

/-- The same thread makes the same difference. -/
theorem insert {us : List Thread} (h : Alike c dead r₁ r₂) (h₁ : Room c r₁ (t :: ts))
    (h₂ : Room c r₂ (t :: us)) : Alike c dead (r₁.insert t) (r₂.insert t) := by
  intro u hu hlive
  rw [Bool.eq_iff_iff, Reached.contains_insert h₁ hu, Reached.contains_insert h₂ hu, h u hu hlive]

end Alike

/-- A search comes to the first of its threads that is live, if there is one; before that it does
nothing but reach what is dead. -/
structure Skips (p : Program) (c : Cursor) (dead r : Reached) (ts : List Thread) (m : Option Match)
    (r' : Reached) : Prop where
  /-- With dead threads only it finds nothing. -/
  eq_none : live dead ts = [] → m = none
  /-- Otherwise it goes on from the first live thread. -/
  exists_live : ∀ t us, live dead ts = t :: us →
    ∃ r₁ ts₁, p.Follows r₁ (t :: ts₁) m r' ∧ Room c r₁ (t :: ts₁) ∧ Alike c dead r₁ r ∧
      live dead ts₁ = us

/-- It is there if its first thread is live. -/
theorem skips_of_live (h : p.Follows r (t :: ts) m r') (hroom : Room c r (t :: ts))
    (ht : dead.contains t = false) : Skips p c dead r (t :: ts) m r' := by
  have hcons := live_cons_of_live ht ts
  refine ⟨fun hnil => ?_, fun u us hus => ?_⟩
  · exact absurd (hcons.symm.trans hnil) (List.cons_ne_nil t _)
  · obtain ⟨rfl, hlive⟩ := List.cons.inj (hcons.symm.trans hus)
    exact ⟨r, ts, h, hroom, .refl c dead r, hlive⟩

/-- Threads that are dead, and what is dead, make no difference to that. -/
theorem Skips.congr {us : List Thread} (h : Skips p c dead r₁ us m r') (halike : Alike c dead r₁ r₂)
    (hus : live dead us = live dead ts) : Skips p c dead r₂ ts m r' := by
  refine ⟨fun hnil => h.eq_none (hus.trans hnil), fun u vs hvs => ?_⟩
  obtain ⟨r₃, ts₃, h₃, hroom₃, halike₃, hlive⟩ := h.exists_live u vs (hus.trans hvs)
  exact ⟨r₃, ts₃, h₃, hroom₃, halike₃.trans halike, hlive⟩

/-- Every search comes there. -/
theorem skips (h : p.Follows r ts m r') (hdead : dead.Closed p c []) (hroom : Room c r ts) :
    Skips p c dead r ts m r' := by
  induction h with
  | nil r => exact ⟨fun _ => rfl, fun t us hus => absurd hus.symm (List.cons_ne_nil t us)⟩
  | @again r _ t ts _ hr h ih =>
    cases ht : dead.contains t with
    | false => exact skips_of_live (.again hr h) hroom ht
    | true => exact (ih hroom.tail).congr (.refl c dead r) (live_cons_of_dead ht ts).symm
  | @halt r _ t ts _ hr hi h ih =>
    cases ht : dead.contains t with
    | false => exact skips_of_live (.halt hr hi h) hroom ht
    | true =>
      exact (ih (hroom.tail.insert t)).congr (.insert_dead hroom ht) (live_cons_of_dead ht ts).symm
  | @accept r t ts hr hi =>
    cases ht : dead.contains t with
    | false => exact skips_of_live (.accept hr hi) hroom ht
    | true => exact absurd rfl (hdead t .accept hroom.head ht hi).1
  | @step r _ t ts _ i hr hi ha h ih =>
    cases ht : dead.contains t with
    | false => exact skips_of_live (.step hr hi ha h) hroom ht
    | true =>
      have hafter := live_after hdead hroom.head ht hi ts
      exact (ih (hroom.after i)).congr (.insert_dead hroom ht)
        (hafter.trans (live_cons_of_dead ht ts).symm)

/-- A search comes to the first thread of another one, if that is live and they are the same but for
what is dead. -/
theorem exists_same {ts₁ ts₂ : List Thread} (h : p.Follows r₂ ts₂ m r')
    (hdead : dead.Closed p c []) (hroom : Room c r₂ ts₂) (halike : Alike c dead r₁ r₂)
    (hlive : live dead (t :: ts₁) = live dead ts₂) (ht : dead.contains t = false) :
    ∃ r₃ ts₃, p.Follows r₃ (t :: ts₃) m r' ∧ Room c r₃ (t :: ts₃) ∧ Alike c dead r₁ r₃ ∧
      live dead ts₁ = live dead ts₃ ∧ r₃.contains t = r₁.contains t := by
  rw [live_cons_of_live ht] at hlive
  obtain ⟨r₃, ts₃, h₃, hroom₃, halike₃, hlive₃⟩ :=
    (h.skips hdead hroom).exists_live t _ hlive.symm
  have hsame := halike.trans halike₃.symm
  exact ⟨r₃, ts₃, h₃, hroom₃, hsame, hlive₃.symm, (hsame t hroom₃.head ht).symm⟩

/-- Two searches find the same if their threads are the same and the same has been reached, but for
what is dead. -/
theorem agree {r₁' r₂' : Reached} {ts₁ ts₂ : List Thread} {m₁ m₂ : Option Match}
    (h₁ : p.Follows r₁ ts₁ m₁ r₁') (h₂ : p.Follows r₂ ts₂ m₂ r₂') (hdead : dead.Closed p c [])
    (hroom₁ : Room c r₁ ts₁) (hroom₂ : Room c r₂ ts₂) (halike : Alike c dead r₁ r₂)
    (hlive : live dead ts₁ = live dead ts₂) : m₁ = m₂ := by
  -- The first search does one step after the other. Unless its thread is dead, the second comes to
  -- the same thread and does the same.
  induction h₁ generalizing r₂ ts₂ with
  | nil => exact ((h₂.skips hdead hroom₂).eq_none hlive.symm).symm
  | @again r₁ _ t ts₁ _ hr h₁ ih =>
    cases ht : dead.contains t with
    | true =>
      rw [live_cons_of_dead ht] at hlive
      exact ih h₂ hroom₁.tail hroom₂ halike hlive
    | false =>
      obtain ⟨r₃, ts₃, h₃, hroom₃, hsame, hrest, hr₃⟩ := h₂.exists_same hdead hroom₂ halike hlive ht
      exact ih (h₃.of_contains (hr₃.trans hr)) hroom₁.tail hroom₃.tail hsame hrest
  | @halt r₁ _ t ts₁ _ hr hi h₁ ih =>
    cases ht : dead.contains t with
    | true =>
      rw [live_cons_of_dead ht] at hlive
      exact ih h₂ (hroom₁.tail.insert t) hroom₂ ((Alike.insert_dead hroom₁ ht).trans halike) hlive
    | false =>
      obtain ⟨r₃, ts₃, h₃, hroom₃, hsame, hrest, hr₃⟩ := h₂.exists_same hdead hroom₂ halike hlive ht
      exact ih (h₃.of_halt (hr₃.trans hr) hi) (hroom₁.tail.insert t) (hroom₃.tail.insert t)
        (hsame.insert hroom₁ hroom₃) hrest
  | @accept r₁ t ts₁ hr hi =>
    cases ht : dead.contains t with
    | true => exact absurd rfl (hdead t .accept hroom₁.head ht hi).1
    | false =>
      obtain ⟨r₃, ts₃, h₃, -, -, -, hr₃⟩ := h₂.exists_same hdead hroom₂ halike hlive ht
      exact (h₃.of_accept (hr₃.trans hr) hi).symm
  | @step r₁ _ t ts₁ _ i hr hi ha h₁ ih =>
    cases ht : dead.contains t with
    | true =>
      rw [live_cons_of_dead ht] at hlive
      have hafter := live_after hdead hroom₁.head ht hi ts₁
      exact ih h₂ (hroom₁.after i) hroom₂ ((Alike.insert_dead hroom₁ ht).trans halike)
        (hafter.trans hlive)
    | false =>
      obtain ⟨r₃, ts₃, h₃, hroom₃, hsame, hrest, hr₃⟩ := h₂.exists_same hdead hroom₂ halike hlive ht
      have happend : live dead (t.after i ++ ts₁) = live dead (t.after i ++ ts₃) := by
        unfold live at hrest ⊢
        rw [List.filter_append, List.filter_append, hrest]
      exact ih (h₃.of_step (hr₃.trans hr) hi ha) (hroom₁.after i) (hroom₃.after i)
        (hsame.insert hroom₁ hroom₃) happend

end Follows

/-! ## The first place -/

/-- A search at a place finds the match that starts there, also if it knows what earlier searches
have reached that found nothing. -/
theorem eq_matchAt?_of_follows {place : Cursor} (hplace : c.Reaches place)
    (hsize : c.index + c.rest.length < r.rows.size) (hr : r.Closed p c [])
    (h : p.Follows r [⟨p.start, place, [], []⟩] m r') : m = p.matchAt? place := by
  obtain ⟨r₂, hfresh⟩ := p.follows_matchAt? place
  have hreaches : ∀ t ∈ [(⟨p.start, place, [], []⟩ : Thread)], c.Reaches t.place :=
    fun t ht => List.mem_singleton.mp ht ▸ hplace
  have hsize' : c.index + c.rest.length <
      (Reached.nothing (place.index + place.rest.length + 1)).rows.size := by
    rw [← hplace.end_eq]
    exact (Room.new p place).lt_size
  -- What the other search does not know is dead.
  refine h.agree hfresh hr ⟨hsize, hreaches⟩ ⟨hsize', hreaches⟩ (fun t _ hlive => ?_) rfl
  rw [hlive, Reached.contains_nothing]

/-- What searches at earlier places have reached does not change what later ones find. -/
theorem findFrom_eq {steps : Nat} {before : Option Char} {cs : List Char} {index : Nat}
    (hplace : c.Reaches ⟨before, cs, index⟩) (hsize : c.index + c.rest.length < r.rows.size)
    (hr : r.Closed p c []) (hsteps : 1 + 2 * (r.left p.code.size c).card ≤ steps) :
    p.findFrom steps r before cs index = Cursor.firstFrom p.matchAt? before cs index := by
  induction cs generalizing r before index with
  | nil => rfl
  | cons x cs ih =>
    have hroom : Room c r [⟨p.start, ⟨before, x :: cs, index⟩, [], []⟩] :=
      ⟨hsize, fun t ht => List.mem_singleton.mp ht ▸ hplace⟩
    have hfollows := follows_follow hroom hsteps
    rw [findFrom, Cursor.firstFrom, ← eq_matchAt?_of_follows hplace hsize hr hfollows]
    cases hfind : p.follow steps r [⟨p.start, ⟨before, x :: cs, index⟩, [], []⟩] with
    | mk found r' =>
      cases found with
      | some m => rfl
      | none =>
        -- Nothing is found at this place, so what has been reached there does no harm further on.
        rw [hfind] at hfollows
        obtain ⟨hrows, hleft⟩ := hfollows.grows hroom
        have hcard : (r'.left p.code.size c).card ≤ (r.left p.code.size c).card :=
          Finset.card_le_card hleft
        exact ih (hplace.next rfl) (hrows ▸ hsize) (hfollows.closed rfl hroom (hr.of_nil _))
          (by omega)

/-- The first place at which a match starts is found, with any program. -/
theorem find?_eq (p : Program) (c : Cursor) :
    p.find? c = Cursor.firstFrom p.matchAt? c.before c.rest c.index :=
  findFrom_eq (Cursor.Reaches.refl c) (Room.new p c).lt_size (.nothing p c _ _) (steps_le p _ c)

end Program

end MessageMarkup
