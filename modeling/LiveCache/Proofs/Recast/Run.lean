import LiveCache.Proofs.Recast.Session
import LiveCache.Proofs.Session.Polls

/-! # Runs that are recast

Computations carry out steps of their own, as the plan says, so a recast has to admit these as well.
Then the run of a recast session gives the reports of the run of the session itself, recast. Where
panics are returned this is the run under a plan by which no computation panics.
-/

namespace LiveCache

open Session

/-- Nothing that a computation may do sees through the recast. -/
def Recast.AdmitsPlan (φ : Recast Failure Value) (p : Plan) : Prop :=
  ∀ b ∈ p.behaviours, ∀ a ∈ b.steps, φ.Admits a

namespace Session

variable (v : Rendition) (s : Session)

/-! ## Computations -/

theorem carryOut_recast {a : Step} (admitted : v.Admits a) :
    (s.recast v).carryOut a = (s.carryOut a).recast v := by
  unfold carryOut
  cases a with
  | command c =>
      dsimp only
      rw [execute_recast v s c admitted]
      simp only [recasting, recast, List.map_append, List.map_cons, List.map_nil]
  | _ => simp only [recast, List.map_append, List.map_cons, List.map_nil, Reply.recast]

theorem foldl_carryOut_recast {steps : List Step} (admitted : ∀ a ∈ steps, v.Admits a) :
    steps.foldl carryOut (s.recast v) = (steps.foldl carryOut s).recast v := by
  induction steps generalizing s with
  | nil => rfl
  | cons a rest ih =>
      rw [List.foldl_cons, carryOut_recast v s (admitted a List.mem_cons_self),
        ih _ fun b hb => admitted b (List.mem_cons_of_mem _ hb), List.foldl_cons]

theorem awaitNeeds_recast (t : TaskId Key) (r : Running) (needs : List Key) (sum : Value) :
    (s.recast v).awaitNeeds t (v.running r) needs sum =
      ((s.awaitNeeds t r needs sum).1.recast v, v.halt (s.awaitNeeds t r needs sum).2) := by
  induction needs generalizing s sum with
  | nil =>
      unfold awaitNeeds
      exact Prod.ext rfl (v.conclude_running r t.key r.call sum)
  | cons k rest ih =>
      unfold awaitNeeds
      rw [recast_timed, TimedCache.await_recast, show (s.recast v).handles = s.handles from rfl]
      split
      next => rw [v.halt_domain]
      next =>
        dsimp only
        cases (s.timed.await (some (.computation t)) k).2 with
        | none => rfl
        | some o =>
            cases o with
            | failure f => rfl
            | success n => exact ih { s with timed := (s.timed.await _ k).1 } (sum + n)

theorem resume_recast (t : TaskId Key) {r : Running}
    (admitted : ∀ a ∈ r.behaviour.steps, v.Admits a) :
    (s.recast v).resume t (v.running r) =
      ((s.resume t r).1.recast v, v.halt (s.resume t r).2) := by
  unfold resume
  rw [show (v.running r).stage = r.stage from rfl]
  cases r.stage with
  | pausing left =>
      cases left with
      | zero =>
          dsimp only
          rw [show (v.running r).behaviour.steps = r.behaviour.steps from rfl,
            foldl_carryOut_recast v s admitted]
          exact awaitNeeds_recast v _ t r r.behaviour.needs 0
      | succ left => rfl
  | awaiting rest sum =>
      dsimp only
      rw [recast_timed, TimedCache.resume_recast]
      dsimp only
      have closed := closeIfUnowned_recast v { s with timed := (s.timed.resume (.computation t)).1 }
      cases (s.timed.resume (.computation t)).2 with
      | none => exact Prod.ext closed rfl
      | some o =>
          cases o with
          | failure f => exact Prod.ext closed rfl
          | success n =>
              refine Eq.trans (congrArg
                (fun s : Session => s.awaitNeeds t (v.running r) rest (sum + n)) closed) ?_
              exact awaitNeeds_recast v _ t r rest (sum + n)
  | hanging => rfl

/-! ## Tasks -/

theorem contains_running (t : TaskId Key) :
    (s.recast v).running.contains t = s.running.contains t := by
  unfold Registry.contains
  rw [show (s.recast v).running = s.running.map v.running from rfl, Registry.find?_map,
    Option.isSome_map]

theorem discard_recast (t : TaskId Key) : (s.recast v).discard t = (s.discard t).recast v := by
  have erased : (s.recast v).running.erase t = (s.running.erase t).map v.running :=
    (Registry.map_erase v.running s.running t).symm
  unfold discard
  rw [contains_running, erased, recast_cache, Cache.removeTask_recast]
  exact letGo_recast v { s with
    timed := { s.timed with cache := s.cache.removeTask t }
    running := s.running.erase t
    cut := if s.running.contains t then s.cut + 1 else s.cut } _

/-- A panic that is returned settles the entry as the fault would, and leaves no event. -/
theorem settle_returned (t : Task Key) (p : PanicPayload) {f : String → String}
    (returns : v.returns = some f) :
    (s.cache.recast v.toRecast).settle t (.failure (.domain (f p.message))) =
      ((s.cache.record (.faulted (Fault.ofPanic p).display) t.launch.generation).settle t
        (.failure (.fault (.ofPanic p)))).recast v.toRecast := by
  obtain ⟨stands, untold⟩ := v.stands f returns
  have failure : v.outcome (.failure (.fault (.ofPanic p))) = .failure (.domain (f p.message)) :=
    congrArg Outcome.failure (stands p)
  rw [← Cache.settle_recast, Cache.recast_record_fault _ _ untold, failure]

theorem settle_panicked (t : Task Key) (p : PanicPayload) (stays : v.returns = none) :
    ((s.cache.recast v.toRecast).record (.faulted (Fault.ofPanic p).display)
        t.launch.generation).settle t (.failure (.fault (.ofPanic p))) =
      ((s.cache.record (.faulted (Fault.ofPanic p).display) t.launch.generation).settle t
        (.failure (.fault (.ofPanic p)))).recast v.toRecast := by
  obtain ⟨same, told⟩ := v.stays stays
  have failure : v.outcome (.failure (.fault (.ofPanic p))) = .failure (.fault (.ofPanic p)) :=
    congrArg Outcome.failure (same p)
  rw [Cache.record_fault_recast _ _ told, ← Cache.settle_recast, failure]

theorem deliver_recast (t : Task Key) (c : Conclusion) :
    (s.recast v).deliver t (v.conclusion c) = (s.deliver t c).recast v := by
  unfold deliver
  rw [recast_cache, Cache.recast_alive]
  split
  next =>
    cases c with
    | outcome o =>
        dsimp only [Rendition.conclusion]
        rw [Cache.settle_recast]
        rfl
    | panic p =>
        dsimp only [Rendition.conclusion]
        cases returns : v.returns with
        | none =>
            dsimp only
            rw [settle_panicked v s t p returns]
            rfl
        | some f =>
            dsimp only
            rw [settle_returned v s t p returns]
            rfl
  next => rfl

/-- A task that was told to stop is dropped after the poll that has suspended it. -/
theorem discardIfAborted_recast (t : Task Key) :
    (if (s.recast v).cache.isAborted t then ((s.recast v).discard t.id, true)
      else (s.recast v, false)) =
      ((if s.cache.isAborted t then (s.discard t.id, true) else (s, false)).1.recast v,
        (if s.cache.isAborted t then (s.discard t.id, true) else (s, false)).2) := by
  rw [recast_cache, Cache.isAborted_recast, discard_recast]
  split <;> rfl

theorem afterPoll_finished_recast (t : Task Key) (r r' : Option Running) (c : Conclusion) :
    (s.recast v).afterPoll t r' (.finished (v.conclusion c)) =
      ((s.afterPoll t r (.finished c)).1.recast v, true) := by
  have erased : (s.recast v).running.erase t.id = (s.running.erase t.id).map v.running :=
    (Registry.map_erase v.running s.running t.id).symm
  unfold afterPoll
  dsimp only
  rw [erased, recast_cache, Cache.removeTask_recast]
  exact Prod.ext (deliver_recast v { s with
    timed := { s.timed with cache := s.cache.removeTask t.id }
    running := s.running.erase t.id } t c) rfl

theorem afterPoll_recast (t : Task Key) (r : Running) (halt : Halt) :
    (s.recast v).afterPoll t (some (v.running r)) (v.halt halt) =
      ((s.afterPoll t (some r) halt).1.recast v, (s.afterPoll t (some r) halt).2) := by
  cases halt with
  | finished c => exact afterPoll_finished_recast v s t (some r) _ c
  | suspended stage =>
      have kept : (s.recast v).running.insert t.id { v.running r with stage := stage } =
          (s.running.insert t.id { r with stage := stage }).map v.running := by
        rw [Registry.map_insert]
        rfl
      unfold afterPoll
      dsimp only [Rendition.halt]
      rw [kept]
      exact discardIfAborted_recast v
        { s with running := s.running.insert t.id { r with stage := stage } } t

variable {v s}

/-- A computation that is kept, or was just begun, is taken on. -/
theorem goOn_recast (t : Task Key) {r : Running}
    (admitted : ∀ a ∈ r.behaviour.steps, v.Admits a) :
    ((s.recast v).resume t.id (v.running r)).1.afterPoll t (some (v.running r))
        ((s.recast v).resume t.id (v.running r)).2 =
      (((s.resume t.id r).1.afterPoll t (some r) (s.resume t.id r).2).1.recast v,
        ((s.resume t.id r).1.afterPoll t (some r) (s.resume t.id r).2).2) := by
  rw [resume_recast v s t.id admitted]
  exact afterPoll_recast v _ t r _

/-- What the first poll of a task does once the computation was called. -/
def started (s : Session) (t : Task Key) (b : Behaviour) (call : Nat) : Session × Bool :=
  match b.panicEarly with
  | some text => s.afterPoll t none (.finished (.panic (.text text)))
  | none =>
      let r : Running := ⟨b, call, .pausing b.pauses⟩
      (s.resume t.id r).1.afterPoll t (some r) (s.resume t.id r).2

theorem begin_eq (s : Session) (t : Task Key) :
    s.begin t = (s.calling t).started t (s.plan.behaviour t.id.key (Tally.count s.called t.id.key))
      (Tally.count s.called t.id.key) := rfl

theorem started_recast (t : Task Key) {b : Behaviour} (admitted : ∀ a ∈ b.steps, v.Admits a)
    (call : Nat) :
    (s.recast v).started t (v.behaviour b) call =
      ((s.started t b call).1.recast v, (s.started t b call).2) := by
  have went := goOn_recast (s := s) t (r := ⟨b, call, .pausing b.pauses⟩) admitted
  have panicked : ∀ text, (s.recast v).afterPoll t none
      (.finished (v.conclusion (.panic (.text text)))) = _ := fun text =>
    afterPoll_finished_recast v s t none none (.panic (.text text))
  unfold started Rendition.behaviour
  unfold Rendition.running Rendition.ending at went
  unfold Rendition.conclusion at panicked
  cases returns : v.returns with
  | none =>
      rw [returns] at went panicked
      dsimp only at went panicked ⊢
      cases b.panicEarly with
      | none => exact went
      | some text => exact panicked text
  | some f =>
      rw [returns] at went panicked
      dsimp only [Behaviour.returning] at went panicked ⊢
      cases early : b.panicEarly with
      | none =>
          rw [early] at went
          exact went
      | some text => exact panicked text

variable {p : Plan}

theorem begin_recast (admitted : v.AdmitsPlan p) (planned : Planned p s) (t : Task Key) :
    (s.recast v).begin t = ((s.begin t).1.recast v, (s.begin t).2) := by
  have plan : (s.recast v).plan = v.plan s.plan := rfl
  rw [begin_eq, begin_eq, plan, v.plan_behaviour, planned.plan]
  exact started_recast (s := s.calling t) t (admitted _ (p.behaviour_mem _ _)) _

theorem pollTask_recast (admitted : v.AdmitsPlan p) (planned : Planned p s) (t : Task Key) :
    (s.recast v).pollTask t = ((s.pollTask t).1.recast v, (s.pollTask t).2) := by
  unfold pollTask
  rw [recast_cache, Cache.isAborted_recast, discard_recast,
    show (s.recast v).running = s.running.map v.running from rfl, Registry.find?_map]
  split
  next => rfl
  next =>
    cases found : s.running.find? t.id with
    | none => exact begin_recast admitted planned t
    | some r =>
        refine goOn_recast t ?_
        rw [planned.running t.id r found]
        exact admitted _ (p.behaviour_mem _ _)

theorem pollEach_recast (admitted : v.AdmitsPlan p) (l : List (Task Key)) :
    ∀ {s : Session}, Planned p s →
      (s.recast v).pollEach l = ((s.pollEach l).1.recast v, (s.pollEach l).2) := by
  induction l with
  | nil => exact fun _ => rfl
  | cons t rest ih =>
      intro s planned
      unfold pollEach
      rw [pollTask_recast admitted planned t]
      dsimp only
      rw [ih (planned.pollTask t)]

theorem recast_spawnedCount (v : Rendition) (s : Session) :
    (s.recast v).spawnedCount = s.spawnedCount := rfl

theorem recast_paused (v : Rendition) (s : Session) : (s.recast v).paused = s.paused := rfl

theorem runRounds_recast (admitted : v.AdmitsPlan p) (rounds : Nat) :
    ∀ {s : Session}, Planned p s →
      (s.recast v).runRounds rounds =
        ((s.runRounds rounds).1.recast v, (s.runRounds rounds).2) := by
  induction rounds with
  | zero => exact fun _ => rfl
  | succ rounds ih =>
      intro s planned
      unfold runRounds
      dsimp only
      rw [recast_cache, Cache.recast_tasks, pollEach_recast admitted _ planned]
      simp only [recast_spawnedCount, recast_paused, ih (Planned.pollEach _ planned)]
      split <;> rfl

/-! ## Steps -/

theorem act_recast (admitted : v.AdmitsPlan p) (planned : Planned p s) {a : Step}
    (fits : v.Admits a) : (s.recast v).act a = recasting v (s.act a) := by
  cases a with
  | command c => exact execute_recast v s c fits
  | run pick =>
      unfold act
      dsimp only
      rw [recast_cache, Cache.recast_tasks]
      cases pick.choose? s.cache.tasks with
      | none => rfl
      | some t =>
          dsimp only
          rw [pollTask_recast admitted planned t]
          rfl
  | runAll rounds =>
      unfold act
      dsimp only
      rw [runRounds_recast admitted rounds planned]
      rfl
  | dropTask pick =>
      unfold act
      dsimp only
      rw [recast_cache, Cache.recast_tasks]
      cases pick.choose? s.cache.tasks with
      | none => rfl
      | some t => exact Prod.ext (discard_recast v s t.id) rfl
  | advance time =>
      refine withPart_recast v s time fun d => ?_
      rw [recast_timed, TimedCache.advance_recast]
      rfl
  | unknown => rfl

/-- The session that a step leaves. -/
theorem step_fst_recast (admitted : v.AdmitsPlan p) (planned : Planned p s) {a : Step}
    (fits : v.Admits a) : ((s.recast v).step a).1 = (s.step a).1.recast v := by
  have fresh : Planned p { s with inner := [] } := planned.of_work rfl
  have acted := act_recast admitted fresh fits
  unfold step
  rw [show ({ s.recast v with inner := [] } : Session) = ({ s with inner := [] } : Session).recast v
    from rfl, acted]
  dsimp only [recasting]
  rw [recast_timed, TimedCache.fireDue_recast]
  rfl

/-! ## The log of a session -/

end Session

/-- The rendition in which other events come before those of the log. -/
def Session.Rendition.after (earlier : List Event) : Rendition where
  toRecast := .onLog true true earlier
  domain := fun _ => rfl
  stays := fun _ => ⟨fun _ => rfl, rfl⟩
  stands := fun _ returns => by cases returns

namespace Session

theorem recast_after (s : Session) (earlier : List Event) :
    s.recast (.after earlier) =
      { s with timed := { s.timed with
        cache := { s.cache with log := earlier ++ s.cache.log } } } := by
  have told : ∀ e, (Recast.onLog true true earlier : Recast Failure Value).tells e = true := by
    simp [Recast.tells, Recast.onLog]
  have cache : s.cache.recast (.onLog true true earlier) =
      { s.cache with log := earlier ++ s.cache.log } := by
    rw [Cache.recast_onLog, List.filter_eq_self.2 fun e _ => told e, Bool.and_true]
  rw [recast_of_stays rfl, List.map_id'' (Reply.recast_of_same rfl fun _ => rfl)]
  exact congrArg (fun c => { s with timed := { s.timed with cache := c } }) cache

/-- A step goes its way whatever was logged before, so it only adds to the log. -/
theorem log_grows (planned : Planned p s) (a : Step) :
    s.cache.log <+: (s.step a).1.cache.log := by
  let empty : Session := { s with timed := { s.timed with cache := { s.cache with log := [] } } }
  let v : Rendition := .after s.cache.log
  have admits : ∀ a, v.Admits a := fun a => ⟨fun _ _ _ => rfl, fun _ _ => Iff.rfl⟩
  have same : s = empty.recast v := by
    rw [recast_after]
    simp [empty]
  have follows : Planned p empty := planned.of_work rfl
  have stepped : (s.step a).1 = (empty.step a).1.recast v := by
    rw [same]
    exact step_fst_recast (fun _ _ a _ => admits a) follows (admits a)
  rw [stepped, recast_after]
  exact List.prefix_append _ _

/-! ## Runs -/

theorem step_recast (admitted : v.AdmitsPlan p) (planned : Planned p s) {a : Step}
    (fits : v.Admits a) :
    (s.recast v).step a = ((s.step a).1.recast v, (s.step a).2.recast v.toRecast) := by
  have stepped := step_fst_recast admitted planned fits
  have grown := log_grows planned a
  have fresh : Planned p { s with inner := [] } := planned.of_work rfl
  have acted := act_recast admitted fresh fits
  have events : ((s.recast v).step a).2.events = (s.step a).2.events.filter v.tells := by
    rw [show ((s.recast v).step a).2.events =
      ((s.recast v).step a).1.cache.log.drop (s.recast v).cache.log.length from rfl, stepped]
    exact v.drop_events grown
  have status : ((s.recast v).step a).2.status = (s.step a).2.status := by
    rw [show ((s.recast v).step a).2.status = ((s.recast v).step a).1.status from rfl, stepped]
    exact recast_status v _
  have inner : ((s.recast v).step a).2.inner =
      (s.step a).2.inner.map (Reply.recast v.toRecast) := by
    rw [show ((s.recast v).step a).2.inner = ((s.recast v).step a).1.inner from rfl, stepped]
    rfl
  have reply : ((s.recast v).step a).2.reply = (s.step a).2.reply.recast v.toRecast :=
    congrArg Prod.snd acted
  refine Prod.ext stepped ?_
  unfold Report.recast
  rw [← events, ← status, ← inner, ← reply]

theorem after_recast (admitted : v.AdmitsPlan p) (steps : List Step) :
    ∀ {s : Session}, Planned p s → (∀ a ∈ steps, v.Admits a) →
      (s.recast v).after steps = (s.after steps).recast v := by
  induction steps with
  | nil => exact fun _ _ => rfl
  | cons a rest ih =>
      intro s planned each
      rw [after_cons, after_cons, step_recast admitted planned (each a List.mem_cons_self)]
      exact ih (planned.step a) fun b hb => each b (List.mem_cons_of_mem _ hb)

theorem run_recast (admitted : v.AdmitsPlan p) (steps : List Step) :
    ∀ {s : Session}, Planned p s → (∀ a ∈ steps, v.Admits a) →
      (s.recast v).run steps = (s.run steps).map (Report.recast v.toRecast) := by
  induction steps with
  | nil => exact fun _ _ => rfl
  | cons a rest ih =>
      intro s planned each
      unfold run
      rw [step_recast admitted planned (each a List.mem_cons_self)]
      dsimp only
      rw [ih (planned.step a) fun b hb => each b (List.mem_cons_of_mem _ hb), List.map_cons]

/-- A new session recast is a new session with other settings and another plan. -/
theorem start_recast (v : Rendition) (new : v.earlier = []) (settings : Settings)
    (ttl : Option Nat) (plan : Plan) :
    (start settings ttl plan).recast v = start (v.settings settings) ttl (v.plan plan) := by
  have none : v.events [] = [] := by simp [Recast.events, new]
  unfold start recast TimedCache.recast Cache.recast
  dsimp only [Cache.ofSettings]
  rw [none]
  rfl

end Session

end LiveCache
