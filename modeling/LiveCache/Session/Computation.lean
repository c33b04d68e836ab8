import LiveCache.Session.Requests

/-!
# Computations

A computation runs inside a task of the cache. Each poll of the task takes it as far as it gets: to
its next pause, to a key that it needs and that has no current outcome yet, or to its end. A task
that was told to stop is dropped when it is polled, or when the poll has suspended it.
-/

namespace LiveCache.Session

/-- How a computation has ended. -/
inductive Conclusion where
  | outcome (o : Outcome Failure Value)
  | panic (payload : PanicPayload)
deriving DecidableEq, Repr

/-- How far a poll has taken a computation. -/
inductive Halt where
  | suspended (stage : Stage)
  | finished (conclusion : Conclusion)
deriving DecidableEq, Repr

namespace Halt

def success (v : Value) : Halt := .finished (.outcome (.success v))

def failure (f : Failure) : Halt := .finished (.outcome (.failure f))

end Halt

/-! ## The parts of a computation -/

/-- How a computation ends once it has the sum of the values that it needs. -/
def Behaviour.conclude (b : Behaviour) (k : Key) (call : Nat) (sum : Value) : Halt :=
  match b.ending with
  | .value n => .success (sum + n)
  | .fail t => .failure (.domain t)
  | .panic p => .finished (.panic p)
  | .hang => .suspended .hanging
  | .parse =>
      match Text.whole k with
      | .ok n => .success n
      | .error _ => .failure (.domain "invalid")
  | .length => .success (sum + Int64.ofNat k.utf8ByteSize)
  | .nth => .success (sum + Int64.ofNat call)

/-- A computation can use the cache, but it cannot drive the executor. -/
def carryOut (s : Session) (step : Step) : Session :=
  let carried := match step with
    | .command c => s.execute c
    | _ => (s, .illFormed)
  { carried.1 with inner := carried.1.inner ++ [carried.2] }

/-- Awaits keys one after another and adds up their values. The first failure ends it. -/
def awaitNeeds (s : Session) (t : TaskId Key) (r : Running) : List Key → Value → Session × Halt
  | [], sum => (s, r.behaviour.conclude t.key r.call sum)
  | k :: rest, sum =>
      if s.handles.isEmpty then (s, .failure (.domain "no cache"))
      else
        let awaited := s.timed.await (some (.computation t)) k
        let next := { s with timed := awaited.1 }
        match awaited.2 with
        | none => (next, .suspended (.awaiting rest sum))
        | some (.failure f) => (next, .failure f)
        | some (.success v) => next.awaitNeeds t r rest (sum + v)

/-- Takes a computation on from where it is. -/
def resume (s : Session) (t : TaskId Key) (r : Running) : Session × Halt :=
  match r.stage with
  | .pausing (left + 1) => ({ s with paused := s.paused + 1 }, .suspended (.pausing left))
  | .pausing 0 => (r.behaviour.steps.foldl carryOut s).awaitNeeds t r r.behaviour.needs 0
  | .awaiting rest sum =>
      let resumed := s.timed.resume (.computation t)
      let next := { s with timed := resumed.1 }.closeIfUnowned
      match resumed.2 with
      | none => (next, .suspended r.stage)
      | some (.failure f) => (next, .failure f)
      | some (.success v) => next.awaitNeeds t r rest (sum + v)
  | .hanging => (s, .suspended .hanging)

/-! ## Tasks -/

/-- Takes a task and its computation away, as far as there is one. -/
def discard (s : Session) (t : TaskId Key) : Session :=
  { s with
    timed := { s.timed with cache := s.cache.removeTask t }
    running := s.running.erase t
    cut := if s.running.contains t then s.cut + 1 else s.cut }.letGo (.computation t)

/-- Hands the result of a task to the cache, if that still lives. A panic is reported first. -/
def deliver (s : Session) (t : Task Key) (c : Conclusion) : Session :=
  if s.cache.alive then
    let settled := match c with
      | .outcome o => s.cache.settle t o
      | .panic p =>
          let fault := Fault.ofPanic p
          (s.cache.record (.faulted fault.display) t.launch.generation).settle t
            (.failure (.fault fault))
    { s with timed := { s.timed with cache := settled } }
  else s

/-- Goes on after a poll; tells whether the task is finished. -/
def afterPoll (s : Session) (t : Task Key) (r : Option Running) : Halt → Session × Bool
  | .finished c =>
      let ended := { s with
        timed := { s.timed with cache := s.cache.removeTask t.id }
        running := s.running.erase t.id }
      (ended.deliver t c, true)
  | .suspended stage =>
      let kept := match r with
        | none => s
        | some r => { s with running := s.running.insert t.id { r with stage := stage } }
      if kept.cache.isAborted t then (kept.discard t.id, true) else (kept, false)

/-- Calls the computation of a key for the first poll of its task. -/
def begin (s : Session) (t : Task Key) : Session × Bool :=
  let k := t.id.key
  let call := Tally.count s.called k
  let b := s.plan.behaviour k call
  let s := { s with
    called := Tally.bump s.called k
    timed := { s.timed with cache := s.cache.note (.called t.id) } }
  match b.panicEarly with
  | some text => s.afterPoll t none (.finished (.panic (.text text)))
  | none =>
      let r : Running := ⟨b, call, .pausing b.pauses⟩
      let polled := s.resume t.id r
      polled.1.afterPoll t (some r) polled.2

/-- Polls a task once; tells whether it is finished. -/
def pollTask (s : Session) (t : Task Key) : Session × Bool :=
  if s.cache.isAborted t then (s.discard t.id, true)
  else
    match s.running.find? t.id with
    | none => s.begin t
    | some r =>
        let polled := s.resume t.id r
        polled.1.afterPoll t (some r) polled.2

end LiveCache.Session
