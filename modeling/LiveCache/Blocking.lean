import LiveCache.Session.Run

/-!
# Blocking access

A blocking cache serves callers that can wait. Its computations run on threads of their own, and
those that end have ended before the next request, so a request is answered in full before the next
begins. A cache that keeps warm holds a standing subscription for every key that was read, so that
an expired key is computed anew at once.
-/

namespace LiveCache

/-- Where a blocking read is called from. -/
inductive CallSite where
  | plainThread
  | worker
  | blockingThread
  | enteredMultiThread
  | currentThread
  | enteredCurrentThread
deriving DecidableEq, Repr

namespace CallSite

/-- A caller inside a runtime of one thread must not wait: the computation may need that thread. -/
def misuse? : CallSite → Option Misuse
  | plainThread | worker | blockingThread | enteredMultiThread => none
  | currentThread | enteredCurrentThread => some .asyncContext

def ofName? (s : String) : Option CallSite :=
  if s = "sync" then some .plainThread
  else if s = "worker" then some .worker
  else if s = "blocking_thread" then some .blockingThread
  else if s = "entered_multi_thread" then some .enteredMultiThread
  else if s = "current_thread" then some .currentThread
  else if s = "entered_current_thread" then some .enteredCurrentThread
  else none

end CallSite

structure BlockingCache where
  session : Session
  warm : Bool

namespace BlockingCache

open Session (Behaviour Ending Key Value)

/-- What is asked of a blocking cache; parts that may be missing are options. -/
inductive Request where
  | get (key : Option Key) (site : Option CallSite)
  | snapshot (key : Option Key)
  | set (key : Option Key) (value : Option Value)
  | expire (key : Option Key)
  | expireAll
  | release (key : Option Key)
  | subscriberCount (key : Option Key)
  | sweep
  | name
  | describe
  | unknown
deriving DecidableEq, Repr

inductive Answer where
  | nothing
  | illFormed
  | refused (m : Misuse)
  /-- The computation that was waited for never ends. -/
  | stuck
  | outcome (o : Outcome Failure Value)
  | view (v : View Failure Value)
  | flag (b : Bool)
  | number (n : Nat)
  | text (s : String)
deriving DecidableEq, Repr

/-! ## Computations on threads -/

/-- A computation of a blocking cache has no way to the cache. It panics at once, or pauses and
ends. -/
structure Computation where
  panicEarly : Option String := none
  pauses : Nat := 0
  ending : Ending := .nth
deriving DecidableEq, Repr

/-- A thread sits through the pauses of its computation, so that nobody sees them. -/
def Computation.behaviour (c : Computation) : Behaviour where
  panicEarly := c.panicEarly
  ending := c.ending

/-- The computations of each key, one per call, and the one of all other calls. -/
structure Plan where
  calls : List (Key × List Computation) := []
  fallback : Computation := {}
deriving DecidableEq, Repr

namespace Plan

def computation (p : Plan) (k : Key) (call : Nat) : Computation :=
  match p.calls.find? fun entry => entry.1 == k with
  | none => p.fallback
  | some entry => entry.2[call]?.getD p.fallback

/-- The plan that the session of the cache follows. -/
def onThreads (p : Plan) : Session.Plan where
  calls := p.calls.map fun entry => (entry.1, entry.2.map Computation.behaviour)
  fallback := p.fallback.behaviour

theorem behaviour_onThreads (p : Plan) (k : Key) (call : Nat) :
    p.onThreads.behaviour k call = (p.computation k call).behaviour := by
  unfold Session.Plan.behaviour onThreads computation
  dsimp only
  simp only [List.find?_map, Function.comp_def]
  cases p.calls.find? fun entry => entry.1 == k with
  | none => rfl
  | some entry =>
      dsimp only [Option.map_some]
      rw [List.getElem?_map]
      cases entry.2[call]? <;> rfl

end Plan

def start (settings : Settings) (warm : Bool) (plan : Plan) : BlockingCache where
  session := Session.start settings none plan.onThreads
  warm := warm

/-- Polls every computation under way. Since none of them pauses or waits for a key, this takes each
to its end, except those that never end. -/
def finish (b : BlockingCache) : BlockingCache :=
  { b with session := (b.session.pollEach b.session.cache.tasks).1 }

/-! ## Requests -/

/-- The standing subscriptions are held by readers named after their keys. -/
def isWarm (b : BlockingCache) (k : Key) : Bool := b.session.cache.observers.contains (.reader k)

def keepWarm (b : BlockingCache) (k : Key) : BlockingCache :=
  if b.warm ∧ ¬ b.isWarm k then { b with session := (b.session.observe (some k) k).1 } else b

def waitFor (b : BlockingCache) (k : Key) : BlockingCache × Answer :=
  let awaited := b.session.timed.await (some (.waiter k)) k
  let b := { b with session := { b.session with timed := awaited.1 } }
  match awaited.2 with
  | some o => (b, .outcome o)
  | none =>
      let b := b.finish
      let resumed := b.session.timed.resume (.waiter k)
      ({ b with session := { b.session with timed := resumed.1 } },
        (resumed.2.map .outcome).getD .stuck)

def get (b : BlockingCache) (k : Key) (site : CallSite) : BlockingCache × Answer :=
  match site.misuse? with
  | some m => (b, .refused m)
  | none => (b.keepWarm k).waitFor k

def release (b : BlockingCache) (k : Key) : BlockingCache × Answer :=
  ({ b with session := b.session.letGo (.reader k) }, .flag (b.isWarm k))

/-- A developer's view of the cache. -/
def describe (b : BlockingCache) : String :=
  let kept :=
    if b.warm then "Some(" ++ toString b.session.cache.observers.size ++ ")" else "None"
  "BlockingCache \x7b inner: " ++ b.session.describeCache ++ ", warm: " ++ kept ++ " \x7d"

def withPart {α : Type} (b : BlockingCache) (part : Option α)
    (f : α → BlockingCache × Answer) : BlockingCache × Answer :=
  match part with
  | none => (b, .illFormed)
  | some a => f a

/-- Answers a request. What it has launched may still be under way. -/
def execute (b : BlockingCache) : Request → BlockingCache × Answer
  | .get key site => b.withPart key fun k => b.withPart site fun c => b.get k c
  | .snapshot key =>
      b.withPart key fun k =>
        let taken := b.session.timed.snapshot k
        ({ b with session := { b.session with timed := taken.1 } }, .view taken.2)
  | .set key value =>
      b.withPart key fun k => b.withPart value fun v =>
        ({ b with session := { b.session with timed := b.session.timed.set k v } }, .nothing)
  | .expire key => b.withPart key fun k => ({ b with session := (b.session.expire k).1 }, .nothing)
  | .expireAll => ({ b with session := b.session.expireAll.1 }, .nothing)
  | .release key => b.withPart key b.release
  | .subscriberCount key =>
      b.withPart key fun k => (b, .number (b.session.cache.subscriberCount k))
  | .sweep =>
      let swept := b.session.cache.sweep
      ({ b with session := b.session.sweep.1 }, .number swept.2)
  | .name => (b, .text b.session.cache.settings.name)
  | .describe => (b, .text b.describe)
  | .unknown => (b, .illFormed)

/-! ## Runs -/

/-- The answer to a request, the events since the one before in the order of their lines, and what
is left of the cache. -/
structure Report where
  answer : Answer
  events : List Event
  len : Nat
  calls : Nat
deriving DecidableEq, Repr

def step (b : BlockingCache) (r : Request) : BlockingCache × Report :=
  let answered := b.execute r
  let next := answered.1.finish
  let cache := next.session.cache
  let events := cache.log.drop b.session.cache.log.length
  (next, ⟨answered.2, Event.orderLines cache.settings.name events, cache.len, next.session.calls⟩)

def run (b : BlockingCache) : List Request → List Report
  | [] => []
  | r :: rest =>
      let stepped := b.step r
      stepped.2 :: stepped.1.run rest

end BlockingCache

end LiveCache
