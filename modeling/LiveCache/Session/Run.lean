import LiveCache.Session.Computation

/-!
# Runs

A run carries out the steps of a script one after another. Tasks make progress only when a step polls
them, and time passes only when a step says so; timers that are due fire at the end of each step.
Every step is answered by a report.
-/

namespace LiveCache.Session

/-! ## Driving the tasks -/

/-- A task named by its label is that task whatever its key. -/
def Pick.fits (p : Pick) (t : Task Key) : Bool :=
  match p.task, p.key with
  | some label, _ => taskName t.id == label
  | none, some k => t.id.key == k
  | none, none => true

def Pick.choose? (p : Pick) (tasks : List (Task Key)) : Option (Task Key) :=
  if p.last then (tasks.filter p.fits).getLast? else tasks.find? p.fits

/-- Polls tasks in order, and tells which have finished. -/
def pollEach (s : Session) : List (Task Key) → Session × List (TaskId Key)
  | [] => (s, [])
  | t :: rest =>
      let polled := s.pollTask t
      let others := polled.1.pollEach rest
      (others.1, if polled.2 then t.id :: others.2 else others.2)

/-- The number of tasks ever spawned. -/
def spawnedCount (s : Session) : Nat := Tally.total s.cache.spawned

/-- Polls all tasks in rounds, until a round changes nothing: no task has finished or was spawned,
and no computation has paused. -/
def runRounds (s : Session) : Nat → Session × Nat × List (TaskId Key)
  | 0 => (s, 0, [])
  | rounds + 1 =>
      let tasks := s.cache.tasks
      let round := s.pollEach tasks
      let next := round.1
      if round.2.isEmpty ∧ next.spawnedCount = s.spawnedCount ∧ next.paused = s.paused then
        (next, tasks.length, [])
      else
        let later := next.runRounds rounds
        (later.1, tasks.length + later.2.1, round.2 ++ later.2.2)

/-! ## Steps -/

def act (s : Session) : Step → Session × Reply
  | .command c => s.execute c
  | .run pick =>
      match pick.choose? s.cache.tasks with
      | none => (s, .noTask)
      | some t =>
          let polled := s.pollTask t
          (polled.1, .polled t.id polled.2)
  | .runAll rounds =>
      let run := s.runRounds rounds
      (run.1, .rounds run.2.1 run.2.2)
  | .dropTask pick =>
      match pick.choose? s.cache.tasks with
      | none => (s, .noTask)
      | some t => (s.discard t.id, .dropped t.id)
  | .advance time =>
      withPart s time fun d => ({ s with timed := s.timed.advance d }, .nothing)
  | .unknown => (s, .illFormed)

/-- What can be seen of the cache as long as a handle is left. -/
structure Outlook where
  len : Nat
  subscribed : List (Key × Nat)
  armed : Option Nat
deriving DecidableEq, Repr

structure Status where
  calls : Nat
  cut : Nat
  tasks : List (TaskId Key)
  outlook : Option Outlook
deriving DecidableEq, Repr

def status (s : Session) : Status where
  calls := s.calls
  cut := s.cut
  tasks := s.cache.tasks.map (·.id)
  outlook :=
    if s.handles.isEmpty then none
    else some ⟨s.cache.len, s.cache.subscribed, s.timed.armed?⟩

/-- The answer to a step, those to the steps that computations carried out in it, the events since
the step before, and the state that it leaves. -/
structure Report where
  reply : Reply
  inner : List Reply
  events : List Event
  status : Status
deriving DecidableEq, Repr

def step (s : Session) (a : Step) : Session × Report :=
  let acted := { s with inner := [] }.act a
  let next := { acted.1 with timed := acted.1.timed.fireDue }
  (next, ⟨acted.2, next.inner, next.cache.log.drop s.cache.log.length, next.status⟩)

def run (s : Session) : List Step → List Report
  | [] => []
  | a :: rest =>
      let stepped := s.step a
      stepped.2 :: stepped.1.run rest

end LiveCache.Session
