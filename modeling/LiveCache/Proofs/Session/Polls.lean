import LiveCache.Proofs.Cache.Freshness
import LiveCache.Proofs.Session.Stirs
import LiveCache.Session.Run

/-! # Runs of a session are moves of its cache

Between the steps of a session every computation that was called and has not ended is kept by the
session, so a task is called once and its result is handed in only after that. Every run of a
session is therefore a series of moves, and what holds of every cache that is reached holds of the
cache of every session. As long as somebody owns it, the cache has not ended.
-/

namespace LiveCache.Session

open Cache (Coherent Keeps)
open TimedCache (Move Deed Reached)

/-- What holds between polls. While a task is polled it is busy, and its computation may be called
without being kept. -/
structure Ordered (lossy : Prop) (settings : Settings) (ttl : Option Nat)
    (busy : Option (TaskId Key)) (s : Session) : Prop where
  reached : Reached lossy settings ttl s.timed
  called : ∀ x, s.running.contains x = true → .called x ∈ s.cache.history
  running : ∀ u ∈ s.cache.tasks, .called u.id ∈ s.cache.history → busy ≠ some u.id →
    s.running.contains u.id = true
  owned : Owned s

variable {lossy : Prop} {settings : Settings} {ttl : Option Nat} {busy : Option (TaskId Key)}
  {s s' : Session}

theorem ordered_start (settings : Settings) (ttl : Option Nat) (plan : Plan) :
    Ordered lossy settings ttl none (start settings ttl plan) where
  reached := .refl
  called := by
    intro x hx
    cases hx
  running := by
    intro u hu
    cases hu
  owned := owned_of_alive rfl

theorem Ordered.coherent (h : Ordered lossy settings ttl busy s) : Coherent s.cache [] :=
  h.reached.coherent

theorem Ordered.acted (h : Ordered lossy settings ttl busy s) (acted : Acted s s') :
    Ordered lossy settings ttl busy s' where
  reached := h.reached.trans (acted.moves lossy)
  called := by
    intro x hx
    rw [acted.running] at hx
    exact (acted.keeps.called x).2 (h.called x hx)
  running := by
    intro u hu called other
    rw [acted.running]
    have early := (acted.keeps.called u.id).1 called
    by_cases old : u ∈ s.cache.tasks
    · exact h.running u old early other
    · have faithful := h.reached.invariant (Cache.faithful_ofSettings settings)
        fun hc kept stride => kept.stride hc stride
      have bound := faithful.booked u.id early
      have number := acted.keeps.begun u hu old
      exact absurd bound (Nat.not_lt.2 number)
  owned := acted.owned

/-! ## Tasks that leave the list -/

theorem contains_erase {x y : TaskId Key} (other : y ≠ x) :
    (s.running.erase x).contains y = s.running.contains y := by
  rw [Registry.contains, Registry.find?_erase_of_ne _ _ _ (Ne.symm other)]
  rfl

theorem contains_of_erase {x y : TaskId Key} (kept : (s.running.erase x).contains y = true) :
    s.running.contains y = true := by
  rw [Registry.contains, Registry.find?_erase] at kept
  split at kept
  next => cases kept
  next => exact kept

/-- The session without a task and its computation, which is cut if there was one. -/
def without (s : Session) (x : TaskId Key) : Session :=
  { s with
    timed := { s.timed with cache := s.cache.removeTask x }
    running := s.running.erase x
    cut := if s.running.contains x then s.cut + 1 else s.cut }

theorem discard_eq (s : Session) (x : TaskId Key) :
    s.discard x = (s.without x).letGo (.computation x) := rfl

theorem discard_of_unheld {x : TaskId Key}
    (free : s.cache.observers.find? (.computation x) = none) :
    s.discard x = (s.without x).closeIfUnowned := by
  have none : (s.cache.removeTask x).observers.find? (.computation x) = none := free
  have released : (s.without x).timed.release (.computation x) = (s.without x).timed := by
    dsimp only [without, TimedCache.release, Cache.release]
    simp only [none]
  rw [discard_eq, letGo, released]

/-- Nothing that a task needs is lost when another one leaves the list. -/
structure Parted (s s' : Session) (x : TaskId Key) : Prop where
  tasks : ∀ v, v ∈ s'.cache.tasks ↔ v ∈ s.cache.tasks ∧ v.id ≠ x
  called : ∀ y, .called y ∈ s'.cache.history ↔ .called y ∈ s.cache.history
  running : s'.running = s.running.erase x
  owned : Owned s → Owned s'

theorem Ordered.part (h : Ordered lossy settings ttl busy s) {u : Task Key}
    (own : ∀ x, busy = some x → x = u.id) (reached : Reached lossy settings ttl s'.timed)
    (parted : Parted s s' u.id) : Ordered lossy settings ttl none s' where
  reached := reached
  called := by
    intro x hx
    rw [parted.running] at hx
    exact (parted.called x).2 (h.called x (contains_of_erase hx))
  running := by
    intro v hv called _
    obtain ⟨old, other⟩ := (parted.tasks v).1 hv
    rw [parted.running, contains_erase other]
    refine h.running v old ((parted.called _).1 called) fun same => ?_
    exact other (own v.id same)
  owned := parted.owned h.owned

theorem Ordered.discard (h : Ordered lossy settings ttl busy s) {u : Task Key}
    (own : ∀ x, busy = some x → x = u.id) (listed : u ∈ s.cache.tasks)
    (why : s.cache.isAborted u = true ∨ lossy) :
    Ordered lossy settings ttl none (s.discard u.id) ∧
      ∀ v ∈ s.cache.tasks, v.id ≠ u.id → v ∈ (s.discard u.id).cache.tasks := by
  have ordered : Ordered lossy settings ttl none (s.without u.id) := by
    refine h.part own ?_ ⟨Cache.mem_removeTask s.cache u.id, fun _ => Iff.rfl, rfl, id⟩
    exact h.reached.tail (.leave u listed (why.imp_right .inr))
  have acted := letGo_acted ordered.coherent ordered.owned (.computation u.id)
  refine ⟨ordered.acted acted, fun v hv other => ?_⟩
  exact acted.keeps.tasks v ((Cache.mem_removeTask s.cache u.id v).2 ⟨hv, other⟩)

/-- The outcome that is handed in for a conclusion. -/
def Conclusion.result : Conclusion → Outcome Failure Value
  | .outcome o => o
  | .panic p => .failure (.fault (Fault.ofPanic p))

/-- What is reported before that. -/
def Conclusion.report? : Conclusion → Option String
  | .outcome _ => none
  | .panic p => some (Fault.ofPanic p).display

theorem afterPoll_concluded (alive : s.cache.alive = true) (u : Task Key) (r : Option Running)
    (c : Conclusion) :
    s.afterPoll u r (.finished c) = ({ s with
      timed := { s.timed with cache := (s.cache.withdraw u c.report?).settle u c.result }
      running := s.running.erase u.id }, true) := by
  have lives : (s.cache.removeTask u.id).alive = true := alive
  cases c with
  | outcome o =>
      simp only [afterPoll, deliver, cache]
      rw [if_pos lives]
      rfl
  | panic p =>
      simp only [afterPoll, deliver, cache]
      rw [if_pos lives]
      rfl

theorem afterPoll_finished_of_alive (alive : s.cache.alive = true) (u : Task Key)
    (r : Option Running) (c : Conclusion) :
    ∃ o report, (s.afterPoll u r (.finished c)).1 = { s with
      timed := { s.timed with cache := (s.cache.withdraw u report).settle u o }
      running := s.running.erase u.id } :=
  ⟨c.result, c.report?, congrArg Prod.fst (afterPoll_concluded alive u r c)⟩

theorem afterPoll_finished_of_dead (dead : s.cache.alive = false) (u : Task Key)
    (r : Option Running) (c : Conclusion) :
    (s.afterPoll u r (.finished c)).1 = { s with
      timed := { s.timed with cache := s.cache.removeTask u.id }
      running := s.running.erase u.id } := by
  have gone : ¬ (s.cache.removeTask u.id).alive = true := by
    rw [show (s.cache.removeTask u.id).alive = s.cache.alive from rfl, dead]
    exact Bool.false_ne_true
  simp only [afterPoll, deliver, cache]
  rw [if_neg gone]

/-- A computation that has ended hands in its result, unless the cache is gone. -/
theorem Ordered.finish (h : Ordered lossy settings ttl busy s) {u : Task Key}
    (own : ∀ x, busy = some x → x = u.id) (listed : u ∈ s.cache.tasks)
    (called : .called u.id ∈ s.cache.history) (r : Option Running) (c : Conclusion) :
    Ordered lossy settings ttl none (s.afterPoll u r (.finished c)).1 ∧
      ∀ v ∈ s.cache.tasks, v.id ≠ u.id → v ∈ (s.afterPoll u r (.finished c)).1.cache.tasks := by
  cases alive : s.cache.alive with
  | true =>
      obtain ⟨o, report, eq⟩ := afterPoll_finished_of_alive alive u r c
      rw [eq]
      have ending := h.coherent.ending listed report
      have tasks : ∀ v, v ∈ ((s.cache.withdraw u report).settle u o).tasks ↔
          v ∈ s.cache.tasks ∧ v.id ≠ u.id := by
        intro v
        rw [Cache.settle_tasks ending.coherent, ending.tasks, Cache.mem_removeTask]
      have lives : ((s.cache.withdraw u report).settle u o).alive = true := by
        rw [(ending.settle o).alive, ← alive]
        cases report with
        | none => rfl
        | some text => exact Cache.record_alive _ _ _
      refine ⟨h.part own (h.reached.tail (.finish u listed called alive o report)) ?_,
        fun v hv other => (tasks v).2 ⟨hv, other⟩⟩
      refine ⟨tasks, fun y => ?_, rfl, fun _ => owned_of_alive lives⟩
      rw [show ∀ t : TimedCache Key Failure Value, cache { s with
        timed := t, running := s.running.erase u.id } = t.cache from fun _ => rfl]
      rw [Cache.settle_history ending.coherent, ending.history]
      simp
  | false =>
      rw [afterPoll_finished_of_dead alive]
      refine ⟨h.part own (h.reached.tail (.leave u listed (.inr (.inl alive)))) ?_, ?_⟩
      · exact ⟨Cache.mem_removeTask s.cache u.id, fun _ => Iff.rfl, rfl, id⟩
      · exact fun v hv other => (Cache.mem_removeTask s.cache u.id v).2 ⟨hv, other⟩

/-! ## Polls -/

/-- After a poll that has not ended it the computation is kept, unless its task was told to stop. -/
theorem Ordered.suspend (h : Ordered lossy settings ttl busy s) {u : Task Key}
    (own : ∀ x, busy = some x → x = u.id) (listed : u ∈ s.cache.tasks)
    (called : .called u.id ∈ s.cache.history) (r : Running) (stage : Stage) :
    Ordered lossy settings ttl none (s.afterPoll u (some r) (.suspended stage)).1 ∧
      ∀ v ∈ s.cache.tasks, v.id ≠ u.id →
        v ∈ (s.afterPoll u (some r) (.suspended stage)).1.cache.tasks := by
  have contains : ∀ x, (s.running.insert u.id { r with stage := stage }).contains x = true ↔
      x = u.id ∨ s.running.contains x = true := by
    intro x
    by_cases same : u.id = x
    · simp [Registry.contains, same]
    · simp [Registry.contains, Registry.find?_insert, same, Ne.symm same]
  have kept : Ordered lossy settings ttl none
      { s with running := s.running.insert u.id { r with stage := stage } } := by
    refine ⟨h.reached, ?_, ?_, h.owned⟩
    · intro x hx
      rcases (contains x).1 hx with rfl | old
      · exact called
      · exact h.called x old
    · intro v hv began _
      refine (contains v.id).2 ?_
      by_cases same : v.id = u.id
      · exact .inl same
      · exact .inr (h.running v hv began fun here => same (own v.id here))
  unfold afterPoll
  dsimp only
  split
  next stopped => exact kept.discard (by simp) listed (.inl stopped)
  next => exact ⟨kept, fun v hv _ => hv⟩

theorem Ordered.afterPoll (h : Ordered lossy settings ttl busy s) {u : Task Key}
    (own : ∀ x, busy = some x → x = u.id) (listed : u ∈ s.cache.tasks)
    (called : .called u.id ∈ s.cache.history) (r : Running) (halt : Halt) :
    Ordered lossy settings ttl none (s.afterPoll u (some r) halt).1 ∧
      ∀ v ∈ s.cache.tasks, v.id ≠ u.id → v ∈ (s.afterPoll u (some r) halt).1.cache.tasks := by
  cases halt with
  | suspended stage => exact h.suspend own listed called r stage
  | finished c => exact h.finish own listed called (some r) c

/-- A computation that is kept, or was just begun, is taken on. -/
theorem Ordered.goOn (h : Ordered lossy settings ttl busy s) {u : Task Key}
    (own : ∀ x, busy = some x → x = u.id) (listed : u ∈ s.cache.tasks)
    (called : .called u.id ∈ s.cache.history) (r : Running) :
    Ordered lossy settings ttl none
        ((s.resume u.id r).1.afterPoll u (some r) (s.resume u.id r).2).1 ∧
      ∀ v ∈ s.cache.tasks, v.id ≠ u.id →
        v ∈ ((s.resume u.id r).1.afterPoll u (some r) (s.resume u.id r).2).1.cache.tasks := by
  have acted := resume_acted h.coherent h.owned u.id r
  obtain ⟨ordered, tasks⟩ := (h.acted acted).afterPoll own (acted.keeps.tasks u listed)
    ((acted.keeps.called u.id).2 called) r (s.resume u.id r).2
  exact ⟨ordered, fun v hv other => tasks v (acted.keeps.tasks v hv) other⟩

/-- A session in which the computation of a task is called. -/
def calling (s : Session) (u : Task Key) : Session :=
  { s with
    called := Tally.bump s.called u.id.key
    timed := { s.timed with cache := s.cache.note (.called u.id) } }

theorem Ordered.calling (h : Ordered lossy settings ttl none s) {u : Task Key}
    (listed : u ∈ s.cache.tasks) (spared : s.cache.isAborted u = false)
    (new : s.running.find? u.id = none) :
    Ordered lossy settings ttl (some u.id) (s.calling u) := by
  have first : .called u.id ∉ s.cache.history := by
    intro called
    have kept := h.running u listed called (by simp)
    rw [Registry.contains, new] at kept
    cases kept
  refine ⟨h.reached.tail (.call u listed spared first), ?_, ?_, h.owned⟩
  · exact fun x hx => List.mem_cons_of_mem _ (h.called x hx)
  · intro v hv called other
    have distinct : (.called v.id : Happening Key Failure Value) ≠ .called u.id :=
      fun same => other (congrArg some (Happening.called.inj same).symm)
    have early : .called v.id ∈ s.cache.history := List.mem_of_ne_of_mem distinct called
    exact h.running v hv early (by simp)

theorem Ordered.pollTask (h : Ordered lossy settings ttl none s) {u : Task Key}
    (listed : u ∈ s.cache.tasks) :
    Ordered lossy settings ttl none (s.pollTask u).1 ∧
      ∀ v ∈ s.cache.tasks, v.id ≠ u.id → v ∈ (s.pollTask u).1.cache.tasks := by
  unfold Session.pollTask
  split
  next stopped => exact h.discard (by simp) listed (.inl stopped)
  next spared =>
    split
    next new =>
      have begun := h.calling listed (by simpa using spared) new
      unfold begin
      dsimp only
      split
      next => exact begun.finish (by simp) listed List.mem_cons_self none _
      next => exact begun.goOn (by simp) listed List.mem_cons_self _
    next r kept =>
      have called := h.called u.id (by rw [Registry.contains, kept]; rfl)
      exact h.goOn (by simp) listed called r

/-! ## Timers -/

/-- A cache that has ended is left alone by its timers. -/
theorem fire_of_dead {t : TimedCache Key Failure Value} (dead : t.cache.alive = false)
    (timer : Timer Key) : t.fire timer = t := by
  unfold TimedCache.fire
  split
  next => rfl
  next => rw [if_neg (by simp [dead])]

theorem foldl_fire_of_dead (due : List (Timer Key)) {t : TimedCache Key Failure Value}
    (dead : t.cache.alive = false) : due.foldl TimedCache.fire t = t := by
  induction due with
  | nil => rfl
  | cons timer rest ih => rw [List.foldl_cons, fire_of_dead dead, ih]

theorem fireDue_of_dead {t : TimedCache Key Failure Value} (dead : t.cache.alive = false) :
    t.fireDue.cache = t.cache := by
  unfold TimedCache.fireDue
  split
  next => rfl
  next x _ =>
    let waiting := x.timers.filter fun timer => t.clock < timer.deadline
    let rest : TimedCache Key Failure Value :=
      { t with expiration := some { x with timers := waiting } }
    have same := foldl_fire_of_dead (t := rest)
      (x.timers.filter fun timer => timer.deadline ≤ t.clock) dead
    exact (congrArg TimedCache.cache same :)

theorem fireDue_acted (h : Coherent s.cache []) (owned : Owned s) :
    Acted s { s with timed := s.timed.fireDue } := by
  have paces := (Deed.fireDue (t := s.timed)).paces h
  refine ⟨fun _ => .single (.deed .fireDue), paces.coherent h, paces.keeps.1, rfl, ?_⟩
  intro dead
  have same : s.timed.fireDue.cache = s.cache := fireDue_of_dead (paces.keeps.2.symm.trans dead)
  unfold owners
  dsimp only [cache]
  rw [same]
  exact owned (by rw [← same]; exact dead)

/-! ## Whole runs -/

/-- A step that drops a task needs an executor that may. -/
def Step.drops : Step → Prop
  | .dropTask _ => True
  | _ => False

/-- What holds between steps and is kept by all that a step is made of. -/
structure Kept (lossy : Prop) (P : Session → Prop) : Prop where
  distinct : ∀ {s}, P s → (s.cache.tasks.map (·.id)).Nodup
  fresh : ∀ {s}, P s → P { s with inner := [] }
  command : ∀ {s} c, P s → P (s.execute c).1
  poll : ∀ {s} u, u ∈ s.cache.tasks → P s → P (s.pollTask u).1 ∧
    ∀ v ∈ s.cache.tasks, v.id ≠ u.id → v ∈ (s.pollTask u).1.cache.tasks
  drop : lossy → ∀ {s} u, u ∈ s.cache.tasks → P s → P (s.discard u.id)
  pass : ∀ {s} time, P s → P { s with timed := { s.timed with clock := s.timed.clock + time } }
  fire : ∀ {s}, P s → P { s with timed := s.timed.fireDue }

variable {P : Session → Prop}

theorem Kept.pollEach (kept : Kept lossy P) (l : List (Task Key)) :
    ∀ {s : Session}, P s → (∀ u ∈ l, u ∈ s.cache.tasks) → (l.map (·.id)).Nodup →
      P (s.pollEach l).1 := by
  induction l with
  | nil => exact fun h _ _ => h
  | cons u rest ih =>
      intro s h listed nodup
      rw [List.map_cons, List.nodup_cons] at nodup
      obtain ⟨polled, tasks⟩ := kept.poll u (listed u List.mem_cons_self) h
      refine ih polled (fun v hv => ?_) nodup.2
      refine tasks v (listed v (List.mem_cons_of_mem _ hv)) fun same => ?_
      exact nodup.1 (same ▸ List.mem_map_of_mem hv)

theorem Kept.runRounds (kept : Kept lossy P) (rounds : Nat) :
    ∀ {s : Session}, P s → P (s.runRounds rounds).1 := by
  induction rounds with
  | zero => exact fun h => h
  | succ rounds ih =>
      intro s h
      have round := kept.pollEach s.cache.tasks h (fun _ hu => hu) (kept.distinct h)
      unfold Session.runRounds
      dsimp only
      split
      next => exact round
      next => exact ih round

theorem mem_of_choose? {p : Pick} {tasks : List (Task Key)} {u : Task Key}
    (chosen : p.choose? tasks = some u) : u ∈ tasks := by
  unfold Pick.choose? at chosen
  split at chosen
  next => exact (List.mem_filter.1 (List.mem_of_getLast? chosen)).1
  next => exact List.mem_of_find?_eq_some chosen

theorem Kept.act (kept : Kept lossy P) (h : P s) (a : Step) (loses : a.drops → lossy) :
    P (s.act a).1 := by
  cases a with
  | command c => exact kept.command c h
  | run pick =>
      unfold Session.act
      dsimp only
      split
      next => exact h
      next u chosen => exact (kept.poll u (mem_of_choose? chosen) h).1
  | runAll rounds => exact kept.runRounds rounds h
  | dropTask pick =>
      unfold Session.act
      dsimp only
      split
      next => exact h
      next u chosen => exact kept.drop (loses trivial) u (mem_of_choose? chosen) h
  | advance time =>
      cases time with
      | none => exact h
      | some d => exact kept.fire (kept.pass d h)
  | unknown => exact h

theorem Kept.step (kept : Kept lossy P) (h : P s) (a : Step) (loses : a.drops → lossy) :
    P (s.step a).1 :=
  kept.fire (kept.act (kept.fresh h) a loses)

/-- The session after the steps of a script. -/
def after (s : Session) (steps : List Step) : Session := steps.foldl (fun s a => (s.step a).1) s

theorem after_cons (s : Session) (a : Step) (rest : List Step) :
    s.after (a :: rest) = (s.step a).1.after rest := rfl

theorem Kept.steps (kept : Kept lossy P) (steps : List Step)
    (loses : ∀ a ∈ steps, a.drops → lossy) : ∀ {s : Session}, P s → P (s.after steps) := by
  induction steps with
  | nil => exact fun h => h
  | cons a rest ih =>
      intro s h
      exact ih (fun b hb => loses b (List.mem_cons_of_mem _ hb))
        (kept.step h a (loses a List.mem_cons_self))

theorem ordered_kept : Kept lossy (Ordered lossy settings ttl none) where
  distinct := fun h => h.coherent.distinct
  fresh := fun h => ⟨h.reached, h.called, h.running, h.owned⟩
  command := fun c h => h.acted (execute_acted h.coherent h.owned c)
  poll := fun _ listed h => h.pollTask listed
  drop := fun loses _ _ listed h => (h.discard (by simp) listed (.inr loses)).1
  pass := fun time h => h.acted
    ⟨fun _ => .single (.deed (.pass time)), h.coherent, .refl _, rfl, h.owned⟩
  fire := fun h => h.acted (fireDue_acted h.coherent h.owned)

/-- Every run of a session is a series of moves of its cache, which has not ended as long as
somebody owns it. -/
theorem reached_of_steps (settings : Settings) (ttl : Option Nat) (plan : Plan)
    (steps : List Step) (loses : ∀ a ∈ steps, a.drops → lossy) :
    let s := (start settings ttl plan).after steps
    Reached lossy settings ttl s.timed ∧ (0 < s.owners → s.cache.alive = true) := by
  have last := ordered_kept.steps steps loses (ordered_start settings ttl plan)
  refine ⟨last.reached, fun owned => ?_⟩
  by_contra dead
  have unowned := last.owned (by simpa using dead)
  omega

end LiveCache.Session
