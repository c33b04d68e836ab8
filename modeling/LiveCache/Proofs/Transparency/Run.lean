import LiveCache.Proofs.Session.Polls
import LiveCache.Proofs.Timed.Turns
import LiveCache.Proofs.Transparency.Session

/-! # Runs in which no timer fires

Two sessions are alike when they are the same without timers and links. Computations that are polled
in both take the same course, so whatever a step does leaves the sessions alike, and what is carried
out in it is answered alike. Time makes a difference only when it brings a timer that a key is armed
with.
-/

namespace LiveCache.Session

/-- The sessions are the same without timers and links. -/
def Alike (s s' : Session) : Prop := s.bare = s'.bare

variable {silent : Bool} {s s' u u' v v' : Session} {steps steps' : List Step}

/-! ## What is the same in both -/

theorem Alike.plan (h : Alike s s') : s.plan = s'.plan := (congrArg Session.plan h :)

theorem Alike.running (h : Alike s s') : s.running = s'.running := (congrArg Session.running h :)

theorem Alike.called (h : Alike s s') : s.called = s'.called := (congrArg Session.called h :)

theorem Alike.paused (h : Alike s s') : s.paused = s'.paused := (congrArg Session.paused h :)

theorem Alike.cut (h : Alike s s') : s.cut = s'.cut := (congrArg Session.cut h :)

theorem Alike.cache (h : Alike s s') : s.cache.unarmed = s'.cache.unarmed :=
  (congrArg Session.cache h :)

theorem Alike.tasks (h : Alike s s') : s.cache.tasks = s'.cache.tasks :=
  (congrArg Cache.tasks h.cache :)

theorem Alike.log (h : Alike s s') : s.cache.log = s'.cache.log := (congrArg Cache.log h.cache :)

theorem Alike.isAborted (h : Alike s s') (t : Task Key) :
    s.cache.isAborted t = s'.cache.isAborted t :=
  (congrArg (fun c : Cache Key Failure Value => c.isAborted t) h.cache :)

theorem Alike.spawnedCount (h : Alike s s') : s.spawnedCount = s'.spawnedCount :=
  (congrArg (fun c : Cache Key Failure Value => Tally.total c.spawned) h.cache :)

/-- What sees neither timers nor links does the same to both. -/
theorem Alike.hom {β : Type} {f : Session → Session × β}
    (hom : ∀ s, f s.bare = ((f s).1.bare, (f s).2)) (h : Alike s s') :
    Alike (f s).1 (f s').1 ∧ (f s).2 = (f s').2 := by
  have same := (hom s).symm.trans ((congrArg f h).trans (hom s'))
  exact ⟨(congrArg Prod.fst same :), (congrArg Prod.snd same :)⟩

theorem Alike.execute (h : Alike s s') {c : Command}
    (fits : silent = true ∨ (Step.command c).reveals = false) :
    masked silent (s.execute c) = masked silent (s'.execute c) := by
  rw [← execute_masked c fits, h, execute_masked c fits]

theorem Alike.left (h : Alike s s') (c : Command) : Alike (s.execute c).1 (s'.execute c).1 :=
  have same : masked true (s.execute c) = masked true (s'.execute c) := h.execute (.inl rfl)
  congrArg Prod.fst same

theorem Alike.answer (h : Alike s s') {c : Command} (hidden : (Step.command c).reveals = false) :
    (s.execute c).2.unlinked = (s'.execute c).2.unlinked :=
  have same : masked false (s.execute c) = masked false (s'.execute c) := h.execute (.inr hidden)
  congrArg Prod.snd same

/-! ## What is answered in computations -/

/-- The answers to a series of steps in two runs agree, unless a step asks for what was left out. -/
inductive Matches : List Step → List Reply → List Reply → Prop where
  | nil : Matches [] [] []
  | cons {a : Step} {steps : List Step} {r r' : Reply} {l l' : List Reply}
      (agree : a.reveals = false → r.unlinked = r'.unlinked) (rest : Matches steps l l') :
      Matches (a :: steps) (r :: l) (r' :: l')

theorem Matches.append {l l' m m' : List Reply} (h : Matches steps l l')
    (h' : Matches steps' m m') : Matches (steps ++ steps') (l ++ m) (l' ++ m') := by
  induction h with
  | nil => exact h'
  | cons agree _ ih => exact .cons agree ih

/-- Both sessions have gone on, with the same steps carried out in computations. -/
structure Follows (steps : List Step) (s s' u u' : Session) : Prop where
  alike : Alike u u'
  answers : ∃ l l', u.inner = s.inner ++ l ∧ u'.inner = s'.inner ++ l' ∧ Matches steps l l'

theorem follows_of_quiet (alike : Alike u u') (inner : u.inner = s.inner)
    (inner' : u'.inner = s'.inner) : Follows [] s s' u u' :=
  ⟨alike, [], [], by simp [inner], by simp [inner'], .nil⟩

theorem Follows.trans (h : Follows steps s s' u u') (h' : Follows steps' u u' v v') :
    Follows (steps ++ steps') s s' v v' where
  alike := h'.alike
  answers := by
    obtain ⟨l, l', same, same', agree⟩ := h.answers
    obtain ⟨m, m', more, more', later⟩ := h'.answers
    exact ⟨l ++ m, l' ++ m', by rw [more, same, List.append_assoc],
      by rw [more', same', List.append_assoc], agree.append later⟩

/-- Nothing is answered where nothing is carried out. -/
theorem Follows.quiet (h : Follows steps s s' u u') (alike : Alike v v') (inner : v.inner = u.inner)
    (inner' : v'.inner = u'.inner) : Follows steps s s' v v' := by
  have next := h.trans (follows_of_quiet alike inner inner')
  rwa [List.append_nil] at next

/-! ## Computations -/

theorem Alike.carryOut (h : Alike s s') (a : Step) :
    Follows [a] s s' (s.carryOut a) (s'.carryOut a) := by
  unfold Session.carryOut
  cases a with
  | command c =>
      have left := (execute_does s c).rest.2
      have right := (execute_does s' c).rest.2
      refine ⟨h.left c, [(s.execute c).2],
        [(s'.execute c).2], congrArg (· ++ [(s.execute c).2]) left,
        congrArg (· ++ [(s'.execute c).2]) right, .cons (fun hidden => ?_) .nil⟩
      exact h.answer hidden
  | _ => exact ⟨h, [.illFormed], [.illFormed], rfl, rfl, .cons (fun _ => rfl) .nil⟩

theorem Alike.foldl_carryOut (steps : List Step) :
    ∀ {s s' : Session}, Alike s s' →
      Follows steps s s' (steps.foldl Session.carryOut s) (steps.foldl Session.carryOut s') := by
  induction steps with
  | nil => exact fun h => follows_of_quiet h rfl rfl
  | cons a rest ih =>
      intro s s' h
      have first := h.carryOut a
      exact first.trans (ih first.alike)

theorem awaitNeeds_bare (t : TaskId Key) (r : Running) (needs : List Key) (sum : Value)
    (s : Session) : s.bare.awaitNeeds t r needs sum =
      ((s.awaitNeeds t r needs sum).1.bare, (s.awaitNeeds t r needs sum).2) := by
  induction needs generalizing s sum with
  | nil => rfl
  | cons k rest ih =>
      unfold awaitNeeds
      rw [bare_timed, TimedCache.await_bare,
        show s.bare.handles.isEmpty = s.handles.isEmpty from Registry.isEmpty_map _ _]
      split
      next => rfl
      next =>
        dsimp only
        cases (s.timed.await (some (.computation t)) k).2 with
        | none => rfl
        | some o =>
            cases o with
            | failure f => rfl
            | success v => exact ih (sum + v) { s with timed := (s.timed.await _ k).1 }

theorem awaitNeeds_inner (t : TaskId Key) (r : Running) (needs : List Key) (sum : Value)
    (s : Session) : (s.awaitNeeds t r needs sum).1.inner = s.inner := by
  induction needs generalizing s sum with
  | nil => rfl
  | cons k rest ih =>
      unfold awaitNeeds
      split
      next => rfl
      next =>
        dsimp only
        split
        next => rfl
        next => rfl
        next => exact ih _ _

/-- The steps that a computation carries out when it is taken on. -/
def Running.carries (r : Running) : List Step :=
  if r.stage = .pausing 0 then r.behaviour.steps else []

/-- A computation that has begun carries out no more steps. -/
theorem resume_bare (t : TaskId Key) {r : Running} (begun : r.stage ≠ .pausing 0) (s : Session) :
    s.bare.resume t r = ((s.resume t r).1.bare, (s.resume t r).2) := by
  unfold Session.resume
  cases stage : r.stage with
  | pausing left =>
      cases left with
      | zero => exact absurd stage begun
      | succ left => rfl
  | awaiting rest sum =>
      have closed := closeIfUnowned_bare { s with timed := (s.timed.resume (.computation t)).1 }
      dsimp only
      rw [bare_timed, TimedCache.resume_bare]
      dsimp only
      cases (s.timed.resume (.computation t)).2 with
      | none => exact Prod.ext closed rfl
      | some o =>
          cases o with
          | failure f => exact Prod.ext closed rfl
          | success v =>
              refine Eq.trans
                (congrArg (fun s : Session => s.awaitNeeds t r rest (sum + v)) closed) ?_
              exact awaitNeeds_bare t r rest (sum + v) _
  | hanging => rfl

theorem resume_inner (t : TaskId Key) {r : Running} (begun : r.stage ≠ .pausing 0) (s : Session) :
    (s.resume t r).1.inner = s.inner := by
  have closed :=
    (closeIfUnowned_rest { s with timed := (s.timed.resume (.computation t)).1 }).2
  unfold Session.resume
  split
  next => rfl
  next stage => exact absurd stage begun
  next =>
    dsimp only
    split
    next => exact closed
    next => exact closed
    next => exact (awaitNeeds_inner _ _ _ _ _).trans closed
  next => rfl

theorem Alike.resume (h : Alike s s') (t : TaskId Key) (r : Running) :
    Follows r.carries s s' (s.resume t r).1 (s'.resume t r).1 ∧
      (s.resume t r).2 = (s'.resume t r).2 := by
  unfold Running.carries
  by_cases stage : r.stage = .pausing 0
  · have carried := h.foldl_carryOut r.behaviour.steps
    obtain ⟨alike, halt⟩ := carried.alike.hom
      (f := fun s => s.awaitNeeds t r r.behaviour.needs 0) fun s => awaitNeeds_bare t r _ 0 s
    rw [if_pos stage]
    unfold Session.resume
    rw [stage]
    exact ⟨carried.quiet alike (awaitNeeds_inner _ _ _ _ _) (awaitNeeds_inner _ _ _ _ _), halt⟩
  · obtain ⟨alike, halt⟩ := h.hom (f := fun s => s.resume t r) fun s => resume_bare t stage s
    rw [if_neg stage]
    exact ⟨follows_of_quiet alike (resume_inner t stage s) (resume_inner t stage s'), halt⟩

/-! ## Tasks -/

theorem discard_bare (t : TaskId Key) (s : Session) : s.bare.discard t = (s.discard t).bare :=
  letGo_bare { s with
    timed := { s.timed with cache := s.cache.removeTask t }
    running := s.running.erase t
    cut := if s.running.contains t then s.cut + 1 else s.cut } _

theorem discard_inner (t : TaskId Key) (s : Session) : (s.discard t).inner = s.inner :=
  (closeIfUnowned_rest _).2

theorem deliver_bare (t : Task Key) (c : Conclusion) (s : Session) :
    s.bare.deliver t c = (s.deliver t c).bare := by
  unfold deliver
  rw [bare_cache, show s.cache.unarmed.alive = s.cache.alive from rfl]
  split
  next =>
    cases c with
    | outcome o =>
        dsimp only
        rw [Cache.settle_unarmed]
        rfl
    | panic p =>
        dsimp only
        rw [Cache.record_unarmed, Cache.settle_unarmed]
        rfl
  next => rfl

/-- A task that was told to stop is dropped after the poll that has suspended it. -/
theorem discardIfAborted_bare (t : Task Key) (s : Session) :
    (if s.bare.cache.isAborted t then (s.bare.discard t.id, true) else (s.bare, false)) =
      ((if s.cache.isAborted t then (s.discard t.id, true) else (s, false)).1.bare,
        (if s.cache.isAborted t then (s.discard t.id, true) else (s, false)).2) := by
  rw [discard_bare, show s.bare.cache.isAborted t = s.cache.isAborted t from rfl]
  split <;> rfl

theorem afterPoll_bare (t : Task Key) (r : Option Running) (halt : Halt) (s : Session) :
    s.bare.afterPoll t r halt = ((s.afterPoll t r halt).1.bare, (s.afterPoll t r halt).2) := by
  cases halt with
  | finished c =>
      exact Prod.ext (deliver_bare t c { s with
        timed := { s.timed with cache := s.cache.removeTask t.id }
        running := s.running.erase t.id }) rfl
  | suspended stage =>
      cases r with
      | none => exact discardIfAborted_bare t s
      | some r =>
          exact discardIfAborted_bare t
            { s with running := s.running.insert t.id { r with stage := stage } }

theorem afterPoll_inner (t : Task Key) (r : Option Running) (halt : Halt) (s : Session) :
    (s.afterPoll t r halt).1.inner = s.inner := by
  cases halt with
  | finished c =>
      unfold Session.afterPoll deliver
      dsimp only
      split <;> rfl
  | suspended stage =>
      cases r <;> unfold Session.afterPoll <;> dsimp only <;> split <;>
        first | exact discard_inner _ _ | rfl

theorem Follows.afterPoll (h : Follows steps s s' u u') (t : Task Key) (r : Option Running)
    (halt : Halt) : Follows steps s s' (u.afterPoll t r halt).1 (u'.afterPoll t r halt).1 ∧
      (u.afterPoll t r halt).2 = (u'.afterPoll t r halt).2 := by
  obtain ⟨alike, finished⟩ := h.alike.hom (f := fun s => s.afterPoll t r halt)
    fun s => afterPoll_bare t r halt s
  exact ⟨h.quiet alike (afterPoll_inner t r halt u) (afterPoll_inner t r halt u'), finished⟩

/-- A computation that is kept, or was just begun, is taken on. -/
theorem Alike.goOn (h : Alike s s') (t : Task Key) (r : Running) :
    Follows r.carries s s' ((s.resume t.id r).1.afterPoll t (some r) (s.resume t.id r).2).1
        ((s'.resume t.id r).1.afterPoll t (some r) (s'.resume t.id r).2).1 ∧
      ((s.resume t.id r).1.afterPoll t (some r) (s.resume t.id r).2).2 =
        ((s'.resume t.id r).1.afterPoll t (some r) (s'.resume t.id r).2).2 := by
  obtain ⟨resumed, halt⟩ := h.resume t.id r
  rw [halt]
  exact resumed.afterPoll t (some r) _

/-- The computation that the first poll of a task begins, unless it panics at once. -/
def beginning? (s : Session) (t : Task Key) : Option Running :=
  let call := Tally.count s.called t.id.key
  let b := s.plan.behaviour t.id.key call
  if b.panicEarly.isSome then none else some ⟨b, call, .pausing b.pauses⟩

/-- The steps that are carried out when a task is polled. -/
def carriedBy (s : Session) (t : Task Key) : List Step :=
  if s.cache.isAborted t then []
  else (((s.running.find? t.id).or (s.beginning? t)).map Running.carries).getD []

theorem Alike.begin (h : Alike s s') (t : Task Key) :
    Follows (((s.beginning? t).map Running.carries).getD []) s s' (s.begin t).1 (s'.begin t).1 ∧
      (s.begin t).2 = (s'.begin t).2 := by
  have called : Alike (s.calling t) (s'.calling t) :=
    (h.hom (f := fun s => (s.calling t, ())) fun _ => rfl).1
  have call : Tally.count s'.called t.id.key = Tally.count s.called t.id.key := by rw [h.called]
  have same : ∀ n, s'.plan.behaviour t.id.key n = s.plan.behaviour t.id.key n := by
    intro n
    rw [h.plan]
  have quiet : Follows [] s s' (s.calling t) (s'.calling t) := follows_of_quiet called rfl rfl
  unfold Session.begin beginning?
  dsimp only
  rw [call, same]
  cases (s.plan.behaviour t.id.key (Tally.count s.called t.id.key)).panicEarly with
  | some text => exact quiet.afterPoll t none _
  | none =>
      obtain ⟨polled, finished⟩ := called.goOn t _
      exact ⟨quiet.trans polled, finished⟩

theorem Alike.pollTask (h : Alike s s') (t : Task Key) :
    Follows (s.carriedBy t) s s' (s.pollTask t).1 (s'.pollTask t).1 ∧
      (s.pollTask t).2 = (s'.pollTask t).2 := by
  unfold Session.pollTask carriedBy
  rw [← h.isAborted, ← h.running]
  split
  next =>
    have left := (h.hom (f := fun s => (s.discard t.id, ()))
      fun s => Prod.ext (discard_bare t.id s) rfl).1
    exact ⟨follows_of_quiet left (discard_inner _ _) (discard_inner _ _), rfl⟩
  next =>
    cases s.running.find? t.id with
    | none => exact h.begin t
    | some r => exact h.goOn t r

def carriedByEach (s : Session) : List (Task Key) → List Step
  | [] => []
  | t :: rest => s.carriedBy t ++ (s.pollTask t).1.carriedByEach rest

theorem Alike.pollEach (l : List (Task Key)) :
    ∀ {s s' : Session}, Alike s s' →
      Follows (s.carriedByEach l) s s' (s.pollEach l).1 (s'.pollEach l).1 ∧
        (s.pollEach l).2 = (s'.pollEach l).2 := by
  induction l with
  | nil => exact fun h => ⟨follows_of_quiet h rfl rfl, rfl⟩
  | cons t rest ih =>
      intro s s' h
      obtain ⟨polled, finished⟩ := h.pollTask t
      obtain ⟨others, done⟩ := ih polled.alike
      unfold Session.pollEach
      dsimp only
      rw [finished, done]
      exact ⟨polled.trans others, rfl⟩

/-- The steps that are carried out in rounds, which end as the rounds do. -/
def carriedByRounds (s : Session) : Nat → List Step
  | 0 => []
  | rounds + 1 =>
      let round := s.pollEach s.cache.tasks
      let next := round.1
      s.carriedByEach s.cache.tasks ++
        if round.2.isEmpty ∧ next.spawnedCount = s.spawnedCount ∧ next.paused = s.paused then []
        else next.carriedByRounds rounds

theorem Alike.runRounds (rounds : Nat) :
    ∀ {s s' : Session}, Alike s s' →
      Follows (s.carriedByRounds rounds) s s' (s.runRounds rounds).1 (s'.runRounds rounds).1 ∧
        (s.runRounds rounds).2 = (s'.runRounds rounds).2 := by
  induction rounds with
  | zero => exact fun h => ⟨follows_of_quiet h rfl rfl, rfl⟩
  | succ rounds ih =>
      intro s s' h
      obtain ⟨round, done⟩ := Alike.pollEach s.cache.tasks h
      obtain ⟨later, counted⟩ := ih round.alike
      unfold Session.runRounds carriedByRounds
      dsimp only
      rw [← h.tasks, ← done, ← round.alike.spawnedCount, ← h.spawnedCount, ← round.alike.paused,
        ← h.paused]
      split
      next =>
        rw [List.append_nil]
        exact ⟨round, rfl⟩
      next => exact ⟨round.trans later, by rw [counted]⟩

/-! ## Steps -/

/-- The steps that computations carry out in a step. -/
def carriedDuring (s : Session) : Step → List Step
  | .run pick => ((pick.choose? s.cache.tasks).map s.carriedBy).getD []
  | .runAll rounds => s.carriedByRounds rounds
  | _ => []

/-- The cache of a session at the time when a step has the timers fire that are due. -/
def beforeTimers (s : Session) : Step → TimedCache Key Failure Value
  | .advance (some d) => { s.timed with clock := s.timed.clock + d }
  | a => (({ s with inner := [] } : Session).act a).1.timed

/-- No timer that a key is armed with becomes due in the steps. -/
def Undisturbed (s : Session) : List Step → Prop
  | [] => True
  | a :: rest => (s.beforeTimers a).Calm ∧ (s.step a).1.Undisturbed rest

instance decidableUndisturbed :
    (s : Session) → (steps : List Step) → Decidable (s.Undisturbed steps)
  | _, [] => .isTrue trivial
  | s, a :: rest =>
      haveI := decidableUndisturbed (s.step a).1 rest
      inferInstanceAs (Decidable ((s.beforeTimers a).Calm ∧ (s.step a).1.Undisturbed rest))

theorem Alike.fireDue (h : Alike s s') (calm : s.timed.Calm) (calm' : s'.timed.Calm) :
    Alike { s with timed := s.timed.fireDue } { s' with timed := s'.timed.fireDue } := by
  have fired : ∀ s : Session, s.timed.Calm →
      ({ s with timed := s.timed.fireDue } : Session).bare = s.bare := by
    intro s calm
    unfold bare
    rw [TimedCache.bare_fireDue_of_calm calm]
  exact (fired s calm).trans (h.trans (fired s' calm').symm)

theorem Alike.act (h : Alike s s') (a : Step) (calm : (s.beforeTimers a).Calm)
    (calm' : (s'.beforeTimers a).Calm) :
    Follows (s.carriedDuring a) s s' (s.act a).1 (s'.act a).1 ∧
      (a.reveals = false → (s.act a).2.unlinked = (s'.act a).2.unlinked) := by
  have still : Follows [] s s' s s' := follows_of_quiet h rfl rfl
  cases a with
  | command c =>
      exact ⟨follows_of_quiet (h.left c) (execute_does s c).rest.2 (execute_does s' c).rest.2,
        h.answer⟩
  | run pick =>
      unfold Session.act carriedDuring
      dsimp only
      rw [← h.tasks]
      cases pick.choose? s.cache.tasks with
      | none => exact ⟨still, fun _ => rfl⟩
      | some t =>
          obtain ⟨polled, finished⟩ := h.pollTask t
          exact ⟨polled, fun _ => congrArg (fun b => (Reply.polled t.id b).unlinked) finished⟩
  | runAll rounds =>
      obtain ⟨run, counted⟩ := Alike.runRounds rounds h
      refine ⟨run, fun _ => ?_⟩
      unfold Session.act
      dsimp only
      rw [counted]
  | dropTask pick =>
      unfold Session.act carriedDuring
      dsimp only
      rw [← h.tasks]
      cases pick.choose? s.cache.tasks with
      | none => exact ⟨still, fun _ => rfl⟩
      | some t =>
          have left := (h.hom (f := fun s => (s.discard t.id, ()))
            fun s => Prod.ext (discard_bare t.id s) rfl).1
          exact ⟨follows_of_quiet left (discard_inner _ _) (discard_inner _ _), fun _ => rfl⟩
  | advance time =>
      cases time with
      | none => exact ⟨still, fun _ => rfl⟩
      | some d =>
          have passed : Alike { s with timed := { s.timed with clock := s.timed.clock + d } }
              { s' with timed := { s'.timed with clock := s'.timed.clock + d } } :=
            (h.hom (f := fun s =>
              ({ s with timed := { s.timed with clock := s.timed.clock + d } }, ())) fun _ => rfl).1
          exact ⟨follows_of_quiet (passed.fireDue calm calm') rfl rfl, fun _ => rfl⟩
  | unknown => exact ⟨still, fun _ => rfl⟩

/-- A step has the timers fire in a cache that is calm. -/
theorem calm_act {a : Step} (calm : (s.beforeTimers a).Calm) :
    (({ s with inner := [] } : Session).act a).1.timed.Calm := by
  cases a with
  | advance time =>
      cases time with
      | none => exact calm
      | some d => exact calm.fireDue
  | _ => exact calm

/-- The step is answered alike, unless it asks for what was left out, and all else that a report
tells is the same: the answers to what computations carried out in the step, the events, the calls,
the computations that were cut, the tasks, the size of the table and the subscribers. -/
structure Report.Agrees (a : Step) (carried : List Step) (r r' : Report) : Prop where
  reply : a.reveals = false → r.reply.unlinked = r'.reply.unlinked
  inner : Matches carried r.inner r'.inner
  events : r.events = r'.events
  calls : r.status.calls = r'.status.calls
  cut : r.status.cut = r'.status.cut
  tasks : r.status.tasks = r'.status.tasks
  table : r.status.outlook.map (fun o => (o.len, o.subscribed)) =
    r'.status.outlook.map fun o => (o.len, o.subscribed)

theorem Alike.table (h : Alike s s') :
    s.status.outlook.map (fun o => (o.len, o.subscribed)) =
      s'.status.outlook.map fun o => (o.len, o.subscribed) := by
  have told : ∀ s : Session, s.status.outlook.map (fun o => (o.len, o.subscribed)) =
      if s.bare.handles.isEmpty then none
      else some (s.bare.cache.len, s.bare.cache.subscribed) := by
    intro s
    rw [show s.bare.handles.isEmpty = s.handles.isEmpty from Registry.isEmpty_map _ _]
    unfold status
    dsimp only
    split <;> rfl
  rw [told, told, h]

theorem Alike.step (h : Alike s s') (a : Step) (calm : (s.beforeTimers a).Calm)
    (calm' : (s'.beforeTimers a).Calm) :
    Alike (s.step a).1 (s'.step a).1 ∧
      Report.Agrees a (({ s with inner := [] } : Session).carriedDuring a) (s.step a).2
        (s'.step a).2 := by
  have fresh : Alike { s with inner := [] } { s' with inner := [] } := h
  obtain ⟨acted, replies⟩ := fresh.act a calm calm'
  have next : Alike (s.step a).1 (s'.step a).1 :=
    acted.alike.fireDue (calm_act calm) (calm_act calm')
  obtain ⟨l, l', inner, inner', agree⟩ := acted.answers
  rw [List.nil_append] at inner inner'
  exact ⟨next, {
    reply := replies
    inner := by
      rw [← inner, ← inner'] at agree
      exact agree
    events := by
      change (Session.step s a).1.cache.log.drop s.cache.log.length =
        (Session.step s' a).1.cache.log.drop s'.cache.log.length
      rw [← h.log, next.log]
    calls := congrArg Tally.total next.called
    cut := next.cut
    tasks := congrArg (·.map (·.id)) next.tasks
    table := next.table }⟩

theorem Alike.run (steps : List Step) :
    ∀ {s s' : Session}, Alike s s' → s.Undisturbed steps → s'.Undisturbed steps →
      ∀ (n : Nat) a, steps[n]? = some a → ∃ r r', (s.run steps)[n]? = some r ∧
        (s'.run steps)[n]? = some r' ∧ Report.Agrees a
          (({ s.after (steps.take n) with inner := [] } : Session).carriedDuring a) r r' := by
  induction steps with
  | nil =>
      intro s s' _ _ _ n a found
      cases found
  | cons first rest ih =>
      intro s s' h calm calm' n a found
      obtain ⟨next, agrees⟩ := h.step first calm.1 calm'.1
      cases n with
      | zero =>
          cases found
          exact ⟨_, _, rfl, rfl, agrees⟩
      | succ n => exact ih next calm.2 calm'.2 n a found

/-! ## Whole runs -/

variable {settings : Settings} {plan : Plan}

theorem undisturbed_of_untimed (steps : List Step) :
    ∀ {s : Session}, Ordered True settings none none s → s.Undisturbed steps := by
  induction steps with
  | nil => exact fun _ => trivial
  | cons a rest ih =>
      intro s h
      refine ⟨TimedCache.calm_of_none ?_, ih (ordered_kept.step h a fun _ => trivial)⟩
      have acted := ordered_kept.act (ordered_kept.fresh h) a fun _ => trivial
      cases a with
      | advance time =>
          cases time with
          | none => exact acted.reached.untimed
          | some d => exact h.reached.untimed
      | _ => exact acted.reached.untimed

theorem alike_start (settings : Settings) (ttl : Option Nat) (plan : Plan) :
    Alike (start settings ttl plan) (start settings none plan) := rfl

/-- As long as no armed timer becomes due, nobody can tell a cache whose keys expire from the cache
itself, step by step, but by asking for what only the one has or how the other is described. -/
theorem transparent_until_due (settings : Settings) (ttl : Nat) (plan : Plan) (steps : List Step)
    (undisturbed : (start settings (some ttl) plan).Undisturbed steps) :
    ∀ (n : Nat) a, steps[n]? = some a → ∃ r r',
      ((start settings (some ttl) plan).run steps)[n]? = some r ∧
      ((start settings none plan).run steps)[n]? = some r' ∧
      Report.Agrees a (({ (start settings (some ttl) plan).after (steps.take n) with inner := [] } :
        Session).carriedDuring a) r r' :=
  Alike.run steps (alike_start settings (some ttl) plan) undisturbed
    (undisturbed_of_untimed steps (ordered_start settings none plan))

/-- A key is asked for and computed, and its outcome is read before its time is over. -/
theorem transparent_until_due_read :
    let script : List Step := [
      .command (.cache "main" (.get (some "a") (some "r"))), .runAll 1, .advance (some 99),
      .command (.subscription (some "r") .next)]
    (start {} (some 100) {}).Undisturbed script ∧
    ((start {} (some 100) {}).run script).map (·.reply) =
      [.nothing, .rounds 1 [⟨"a", 0⟩], .nothing, .view (.known (.success 0) .done)] ∧
    ∃ r r', ((start {} (some 100) {}).run script)[3]? = some r ∧
      ((start {} none {}).run script)[3]? = some r' ∧
      Report.Agrees (.command (.subscription (some "r") .next)) [] r r' := by
  intro script
  have undisturbed : (start {} (some 100) {}).Undisturbed script := by decide +kernel
  exact ⟨undisturbed, by decide +kernel,
    transparent_until_due {} 100 {} script undisturbed 3 _ rfl⟩

end LiveCache.Session
