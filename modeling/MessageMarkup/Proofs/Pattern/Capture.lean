import MessageMarkup.Proofs.Pattern.Search

/-!
# What a match captures

A match ends on the way from its start to the end of the text, and what a group captures is a piece
of what is matched (`Match.Inside.exists_captured`). That is so of every program, not only of those
that a pattern compiles to: a group that ends is the one that began last, so all that a thread
remembers lies between the place where it started and the place where it is (`Thread.Inside`), and
every instruction keeps that.
-/

namespace MessageMarkup

/-! ## Places on the way -/

namespace Cursor.Reaches

variable {c d e : Cursor}

/-- What is on the way from a place that is on the way is on the way. -/
theorem trans (hd : c.Reaches d) (he : d.Reaches e) : c.Reaches e := by
  obtain ⟨n, hn, rfl⟩ := he
  -- Each character that is skipped is one step more from the first place.
  induction n generalizing d with
  | zero => exact hd
  | succ n ih =>
    cases hrest : d.rest with
    | nil =>
      rw [hrest] at hn
      exact absurd hn (Nat.not_succ_le_zero n)
    | cons x xs =>
      have hnext := next?_of_cons hrest
      rw [skip, hnext]
      refine ih (hd.next hnext) ?_
      rw [hrest] at hn
      exact Nat.le_of_succ_le_succ hn

/-- What is ahead of a place are the characters up to one on the way, and what is ahead of that. -/
theorem rest_eq (h : c.Reaches d) : c.rest = c.upTo d ++ d.rest := by
  obtain ⟨n, hn, rfl⟩ := h
  rw [upTo, index_skip hn, rest_skip, Nat.add_sub_cancel_left, List.take_append_drop]

/-- The characters up to a place are those up to one before it and those between the two. -/
theorem upTo_eq_append (hd : c.Reaches d) (he : d.Reaches e) :
    c.upTo e = c.upTo d ++ d.upTo e := by
  have hsplit : c.upTo d ++ d.upTo e ++ e.rest = c.upTo e ++ e.rest := by
    calc c.upTo d ++ d.upTo e ++ e.rest = c.upTo d ++ (d.upTo e ++ e.rest) :=
          List.append_assoc _ _ _
      _ = c.rest := by rw [← he.rest_eq, ← hd.rest_eq]
      _ = c.upTo e ++ e.rest := (hd.trans he).rest_eq
  exact (List.append_cancel_right hsplit).symm

end Cursor.Reaches

/-! ## Threads -/

/-- A group captured something between two places. -/
structure Capture.Between (c : Capture) (start stop : Cursor) : Prop where
  /-- The group began behind the first. -/
  start : start.Reaches c.first
  /-- It ended behind where it began. -/
  forward : c.first.Reaches c.last
  /-- The second is behind its end. -/
  stop : c.last.Reaches stop

/-- What a thread remembers lies between the place where it started and the place where it is. -/
structure Thread.Inside (t : Thread) (start : Cursor) : Prop where
  /-- The thread is behind its start. -/
  place : start.Reaches t.place
  /-- So are the places where groups began. -/
  begun : ∀ c ∈ t.begun, start.Reaches c ∧ c.Reaches t.place
  /-- So is what groups captured. -/
  captures : ∀ c ∈ t.captures, c.Between start t.place

/-- A match ends behind its start, and what it captures lies between the two. -/
structure Match.Inside (m : Match) (start : Cursor) : Prop where
  /-- The end is behind the start. -/
  last : start.Reaches m.last
  /-- The captures lie between them. -/
  captures : ∀ c ∈ m.captures, c.Between start m.last

namespace Thread.Inside

variable {t : Thread} {start : Cursor}

/-- A thread that has just been started remembers nothing. -/
theorem new (state : Nat) (start : Cursor) : Thread.Inside ⟨state, start, [], []⟩ start :=
  ⟨.refl start, fun _ h => absurd h List.not_mem_nil, fun _ h => absurd h List.not_mem_nil⟩

/-- A thread that moves on remembers what it did. -/
theorem move (h : t.Inside start) {place : Cursor} (hplace : t.place.Reaches place)
    (state : Nat) : Thread.Inside { t with state, place } start where
  place := h.place.trans hplace
  begun c hc := ⟨(h.begun c hc).1, (h.begun c hc).2.trans hplace⟩
  captures c hc :=
    ⟨(h.captures c hc).start, (h.captures c hc).forward, (h.captures c hc).stop.trans hplace⟩

/-- A group begins where the thread is. -/
theorem enter (h : t.Inside start) (next : Nat) : (t.enter next).Inside start where
  place := h.place
  begun c hc := by
    rcases List.mem_cons.mp hc with rfl | hc
    · exact ⟨h.place, .refl _⟩
    · exact h.begun c hc
  captures := h.captures

/-- A group that ends was begun. -/
theorem leave (h : t.Inside start) (group next : Nat) : (t.leave group next).Inside start := by
  unfold Thread.leave
  split
  · exact h.move (.refl _) next
  · rename_i first begun hbegun
    have hfirst := h.begun first (by rw [hbegun]; exact List.mem_cons_self)
    refine ⟨h.place, fun c hc => h.begun c ?_, fun c hc => ?_⟩
    · rw [hbegun]
      exact List.mem_cons_of_mem _ hc
    · rcases List.mem_cons.mp hc with rfl | hc
      · exact ⟨hfirst.1, hfirst.2, .refl _⟩
      · exact h.captures c hc

/-- Every instruction leads to threads that remember nothing outside. -/
theorem after (h : t.Inside start) {i : Instruction} {u : Thread} (hu : u ∈ t.after i) :
    u.Inside start := by
  cases i with
  | accept => exact absurd hu List.not_mem_nil
  | consume set next =>
    rw [Thread.after] at hu
    split at hu
    · exact absurd hu List.not_mem_nil
    · rename_i x place hnext
      split at hu
      · rw [List.mem_singleton.mp hu]
        exact h.move ((Cursor.Reaches.refl _).next hnext) next
      · exact absurd hu List.not_mem_nil
  | check condition next =>
    rw [Thread.after] at hu
    split at hu
    · rw [List.mem_singleton.mp hu]
      exact h.move (.refl _) next
    · exact absurd hu List.not_mem_nil
  | enter next =>
    rw [List.mem_singleton.mp hu]
    exact h.enter next
  | leave group next =>
    rw [List.mem_singleton.mp hu]
    exact h.leave group next
  | fork first second =>
    rcases List.mem_cons.mp hu with rfl | hu
    · exact h.move (.refl _) first
    · rw [List.mem_singleton.mp hu]
      exact h.move (.refl _) second

end Thread.Inside

/-! ## Searches -/

namespace Program

variable {p : Program} {start : Cursor}

/-- What threads find that started at one place lies behind it. -/
theorem follow_inside {steps : Nat} {r : Reached} {ts : List Thread}
    (hts : ∀ t ∈ ts, t.Inside start) {m : Match} (hm : (p.follow steps r ts).1 = some m) :
    m.Inside start := by
  induction steps generalizing r ts with
  | zero => exact absurd hm.symm (Option.some_ne_none m)
  | succ steps ih =>
    cases ts with
    | nil =>
      rw [follow_nil] at hm
      exact absurd hm.symm (Option.some_ne_none m)
    | cons t ts =>
      have ht := hts t List.mem_cons_self
      have hrest : ∀ u ∈ ts, u.Inside start := fun u hu => hts u (List.mem_cons_of_mem t hu)
      cases hreached : r.contains t with
      | true =>
        rw [follow_of_contains hreached] at hm
        exact ih hrest hm
      | false =>
        cases hi : p.code[t.state]? with
        | none =>
          rw [follow_of_none hreached hi] at hm
          exact ih hrest hm
        | some i =>
          by_cases ha : i = .accept
          · rw [ha] at hi
            rw [follow_of_accept hreached hi] at hm
            rw [← Option.some.inj hm]
            exact ⟨ht.place, ht.captures⟩
          · rw [follow_of_some hreached hi ha] at hm
            refine ih (fun u hu => ?_) hm
            rcases List.mem_append.mp hu with hu | hu
            · exact ht.after hu
            · exact hrest u hu

/-- The first match behind a place starts on the way to the end, and its captures are inside it. -/
theorem findFrom_inside {steps : Nat} {r : Reached} {before : Option Char} {cs : List Char}
    {index : Nat} (hplace : start.Reaches ⟨before, cs, index⟩) {c : Cursor} {m : Match}
    (h : p.findFrom steps r before cs index = some (c, m)) : start.Reaches c ∧ m.Inside c := by
  induction cs generalizing r before index with
  | nil => exact absurd h.symm (Option.some_ne_none _)
  | cons x cs ih =>
    unfold findFrom at h
    dsimp only at h
    split at h
    · rename_i m' r' hfollow
      obtain ⟨rfl, rfl⟩ := Prod.mk.inj (Option.some.inj h)
      refine ⟨hplace, follow_inside ?_ (congrArg Prod.fst hfollow)⟩
      intro t ht
      rw [List.mem_singleton.mp ht]
      exact .new p.start _
    · exact ih (hplace.next rfl) h

/-- The same, for a search from a place on. -/
theorem find?_inside {c : Cursor} {m : Match} (h : p.find? start = some (c, m)) :
    start.Reaches c ∧ m.Inside c :=
  findFrom_inside (.refl start) h

end Program

/-- What a group captures is a piece of what is matched. -/
theorem Match.Inside.exists_captured {m : Match} {start : Cursor} (h : m.Inside start)
    (group : Nat) : ∃ before after, start.upTo m.last = before ++ (m.captured group ++ after) := by
  unfold Match.captured
  cases hfind : m.captures.find? (·.group == group) with
  | none => exact ⟨[], start.upTo m.last, rfl⟩
  | some c =>
    have hc := h.captures c (List.mem_of_find?_eq_some hfind)
    refine ⟨start.upTo c.first, c.last.upTo m.last, ?_⟩
    calc start.upTo m.last = start.upTo c.first ++ c.first.upTo m.last :=
          hc.start.upTo_eq_append (hc.forward.trans hc.stop)
      _ = start.upTo c.first ++ (c.first.upTo c.last ++ c.last.upTo m.last) :=
          congrArg _ (hc.forward.upTo_eq_append hc.stop)

end MessageMarkup
