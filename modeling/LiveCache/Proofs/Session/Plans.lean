import LiveCache.Proofs.Session.Polls

/-! # Computations follow the plan

The plan of a session never changes, and every computation that the session keeps behaves as the
plan says for its key and the number of its call. The numbers of calls become no smaller, so what
every call comes to that is made before some moment can be said of each moment before it.
-/

namespace LiveCache.Session

/-- All behaviours that a plan speaks of. -/
def Plan.behaviours (p : Plan) : List Behaviour := p.fallback :: p.calls.flatMap (·.2)

theorem Plan.behaviour_mem (p : Plan) (k : Key) (call : Nat) :
    p.behaviour k call ∈ p.behaviours := by
  unfold behaviour behaviours
  split
  next => exact List.mem_cons_self
  next planned found =>
    cases asked : planned.2[call]? with
    | none => exact List.mem_cons_self
    | some b =>
        refine List.mem_cons_of_mem _ (List.mem_flatMap.2 ⟨planned, ?_, ?_⟩)
        · exact List.mem_of_find?_eq_some found
        · exact List.mem_of_getElem? asked

structure Planned (p : Plan) (s : Session) : Prop where
  plan : s.plan = p
  running : ∀ t r, s.running.find? t = some r → r.behaviour = p.behaviour t.key r.call

variable {p : Plan} {s s' : Session}

theorem planned_start (settings : Settings) (ttl : Option Nat) (p : Plan) :
    Planned p (start settings ttl p) :=
  ⟨rfl, fun _ _ kept => by cases kept⟩

theorem Planned.of_work (h : Planned p s) (same : s'.work = s.work) : Planned p s' := by
  obtain ⟨plan, running⟩ := Prod.mk.inj same
  exact ⟨plan.trans h.plan, by rw [running]; exact h.running⟩

/-! ## Polls -/

theorem discard_work (s : Session) (t : TaskId Key) :
    (s.discard t).work = (s.plan, s.running.erase t) :=
  closeIfUnowned_work _

theorem afterPoll_finished_work (s : Session) (t : Task Key) (r : Option Running) (c : Conclusion) :
    (s.afterPoll t r (.finished c)).1.work = (s.plan, s.running.erase t.id) := by
  unfold afterPoll deliver
  dsimp only
  split <;> rfl

theorem Planned.erase (h : Planned p s) {t : TaskId Key}
    (work : s'.work = (s.plan, s.running.erase t)) : Planned p s' := by
  obtain ⟨plan, running⟩ := Prod.mk.inj work
  refine ⟨plan.trans h.plan, fun u r kept => h.running u r ?_⟩
  rw [running, Registry.find?_erase] at kept
  split at kept
  next => cases kept
  next => exact kept

theorem Planned.keep (h : Planned p s) (t : TaskId Key) {r : Running}
    (follows : r.behaviour = p.behaviour t.key r.call) :
    Planned p { s with running := s.running.insert t r } := by
  refine ⟨h.plan, fun u x found => ?_⟩
  dsimp only at found
  rw [Registry.find?_insert] at found
  split at found
  next same =>
    cases found
    exact same ▸ follows
  next => exact h.running u x found

theorem Planned.discard (h : Planned p s) (t : TaskId Key) : Planned p (s.discard t) :=
  h.erase (discard_work s t)

theorem Planned.afterPoll (h : Planned p s) (t : Task Key) {r : Option Running}
    (follows : ∀ x ∈ r, x.behaviour = p.behaviour t.id.key x.call) (halt : Halt) :
    Planned p (s.afterPoll t r halt).1 := by
  cases halt with
  | finished c => exact h.erase (afterPoll_finished_work s t r c)
  | suspended stage =>
      have parted : ∀ {s : Session}, Planned p s →
          Planned p (if s.cache.isAborted t then (s.discard t.id, true) else (s, false)).1 := by
        intro s h
        split
        next => exact h.discard t.id
        next => exact h
      cases r with
      | none => exact parted h
      | some x => exact parted (h.keep t.id (follows x rfl))

theorem Planned.goOn (h : Planned p s) (t : Task Key) {r : Running}
    (follows : r.behaviour = p.behaviour t.id.key r.call) :
    Planned p ((s.resume t.id r).1.afterPoll t (some r) (s.resume t.id r).2).1 :=
  (h.of_work (resume_stirs s t.id r).work).afterPoll t
    (fun _ same => Option.some.inj same ▸ follows) _

theorem Planned.pollTask (h : Planned p s) (t : Task Key) : Planned p (s.pollTask t).1 := by
  unfold Session.pollTask
  split
  next => exact h.discard t.id
  next =>
    split
    next =>
      have called : Planned p { s with
          called := Tally.bump s.called t.id.key
          timed := { s.timed with cache := s.cache.note (.called t.id) } } := h.of_work rfl
      unfold begin
      dsimp only
      split
      next => exact called.afterPoll t (fun _ same => by cases same) _
      next => exact called.goOn t (by rw [h.plan])
    next r kept => exact h.goOn t (h.running t.id r kept)

theorem Planned.pollEach (l : List (Task Key)) :
    ∀ {s : Session}, Planned p s → Planned p (s.pollEach l).1 := by
  induction l with
  | nil => exact fun h => h
  | cons t rest ih => exact fun h => ih (h.pollTask t)

theorem Planned.runRounds (rounds : Nat) :
    ∀ {s : Session}, Planned p s → Planned p (s.runRounds rounds).1 := by
  induction rounds with
  | zero => exact fun h => h
  | succ rounds ih =>
      intro s h
      unfold Session.runRounds
      dsimp only
      split
      next => exact Planned.pollEach _ h
      next => exact ih (Planned.pollEach _ h)

/-! ## Steps -/

theorem Planned.act (h : Planned p s) (a : Step) : Planned p (s.act a).1 := by
  cases a with
  | command c => exact h.of_work (execute_effect s c).work
  | run pick =>
      unfold Session.act
      dsimp only
      split
      next => exact h
      next t _ => exact h.pollTask t
  | runAll rounds => exact Planned.runRounds rounds h
  | dropTask pick =>
      unfold Session.act
      dsimp only
      split
      next => exact h
      next t _ => exact h.discard t.id
  | advance time => exact h.of_work (by cases time <;> rfl)
  | unknown => exact h

theorem Planned.step (h : Planned p s) (a : Step) : Planned p (s.step a).1 :=
  have fresh : Planned p { s with inner := [] } := h.of_work rfl
  (fresh.act a).of_work rfl

/-! ## Calls -/

/-- The plan stays as it is, and the numbers of calls become no smaller. -/
structure Grows (s s' : Session) : Prop where
  plan : s'.plan = s.plan
  called : ∀ k, Tally.count s.called k ≤ Tally.count s'.called k

theorem grows_of_same (plan : s'.plan = s.plan) (called : s'.called = s.called) : Grows s s' :=
  ⟨plan, fun _ => Nat.le_of_eq (by rw [called])⟩

theorem Grows.refl (s : Session) : Grows s s := grows_of_same rfl rfl

theorem Grows.trans {s'' : Session} (h₁ : Grows s s') (h₂ : Grows s' s'') : Grows s s'' :=
  ⟨h₂.plan.trans h₁.plan, fun k => Nat.le_trans (h₁.called k) (h₂.called k)⟩

theorem discard_grows (s : Session) (t : TaskId Key) : Grows s (s.discard t) :=
  grows_of_same (congrArg Prod.fst (discard_work s t)) (closeIfUnowned_rest _).1

theorem afterPoll_grows (s : Session) (t : Task Key) (r : Option Running) (halt : Halt) :
    Grows s (s.afterPoll t r halt).1 := by
  cases halt with
  | finished c =>
      refine grows_of_same (congrArg Prod.fst (afterPoll_finished_work s t r c)) ?_
      unfold afterPoll deliver
      dsimp only
      split <;> rfl
  | suspended stage =>
      have parted : ∀ s' : Session, Grows s s' →
          Grows s (if s'.cache.isAborted t then (s'.discard t.id, true) else (s', false)).1 := by
        intro s' kept
        split
        next => exact kept.trans (discard_grows s' t.id)
        next => exact kept
      cases r with
      | none => exact parted s (.refl s)
      | some r => exact parted _ (grows_of_same rfl rfl)

theorem goOn_grows (s : Session) (t : Task Key) (r : Running) :
    Grows s ((s.resume t.id r).1.afterPoll t (some r) (s.resume t.id r).2).1 := by
  have stirs := resume_stirs s t.id r
  exact (grows_of_same (congrArg Prod.fst stirs.work) stirs.called).trans (afterPoll_grows _ t _ _)

theorem calling_grows (s : Session) (t : Task Key) : Grows s (s.calling t) where
  plan := rfl
  called := by
    intro k
    rw [calling, Tally.count_bump]
    split
    next same => exact same ▸ Nat.le_succ _
    next => exact Nat.le_refl _

/-- A computation that is begun was called. -/
theorem begin_grows (s : Session) (t : Task Key) : Grows (s.calling t) (s.begin t).1 := by
  unfold begin
  dsimp only
  split
  next => exact afterPoll_grows (s.calling t) t _ _
  next => exact goOn_grows (s.calling t) t _

theorem pollTask_grows (s : Session) (t : Task Key) : Grows s (s.pollTask t).1 := by
  unfold pollTask
  split
  next => exact discard_grows s t.id
  next =>
    split
    next => exact (calling_grows s t).trans (begin_grows s t)
    next r _ => exact goOn_grows s t r

theorem pollEach_grows (l : List (Task Key)) (s : Session) : Grows s (s.pollEach l).1 := by
  induction l generalizing s with
  | nil => exact .refl s
  | cons t rest ih => exact (pollTask_grows s t).trans (ih _)

end LiveCache.Session
