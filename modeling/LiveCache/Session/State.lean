import LiveCache.Session.Script
import LiveCache.Text.Duration
import LiveCache.Timed

/-!
# The state of a session

A session works on one cache through named objects. Handles, backbones and refs share the cache by
links: two refs are the same when they go through the same link to the same key. All these objects,
and the subscriptions held on the cache, are its owners; when the last one is gone the cache ends.
-/

namespace LiveCache.Session

/-- A shared link to the cache, under a name of its own. -/
structure Backbone where
  name : String
  link : Nat
deriving DecidableEq, Repr

/-- One key of the cache behind a backbone. -/
structure Ref where
  backbone : Backbone
  key : Key
deriving DecidableEq, Repr

namespace Backbone

def describe (b : Backbone) : String := "Backbone \x7b name: " ++ Text.quoted b.name ++ ", .. \x7d"

end Backbone

namespace Ref

def same (r q : Ref) : Bool := r.backbone.link == q.backbone.link && r.key == q.key

def describe (r : Ref) : String :=
  "Ref \x7b backbone: " ++ Text.quoted r.backbone.name ++ ", key: " ++ Text.quoted r.key ++ " \x7d"

/-- The number of refs that are not the same as one before them. -/
def countDistinct (refs : List Ref) : Nat :=
  (refs.foldl (fun seen r => if seen.any r.same then seen else r :: seen) []).length

end Ref

/-- How far a computation has come. -/
inductive Stage where
  | pausing (left : Nat)
  /-- The key in front is awaited; `rest` are the keys needed after it. -/
  | awaiting (rest : List Key) (sum : Value)
  | hanging
deriving DecidableEq, Repr

/-- A computation that was begun and has not ended. -/
structure Running where
  behaviour : Behaviour
  call : Nat
  stage : Stage
deriving DecidableEq, Repr

/-- The answer to a step. -/
inductive Reply where
  | nothing
  | illFormed
  | unknownName
  | noTask
  | view (v : View Failure Value)
  | views (l : List (View Failure Value))
  | pending
  | ready (o : Outcome Failure Value)
  | number (n : Nat)
  | flag (b : Bool)
  | text (s : String)
  | backbone (b : Backbone) (len : Nat)
  | ref (r : Ref)
  | polled (task : TaskId Key) (finished : Bool)
  | rounds (polls : Nat) (done : List (TaskId Key))
  | dropped (task : TaskId Key)
deriving DecidableEq, Repr

end Session

/-- A cache, the objects that lead to it, and the computations that were begun for it. -/
structure Session where
  timed : TimedCache Session.Key Failure Session.Value
  plan : Session.Plan := {}
  handles : Registry Session.Name Nat := {}
  backbones : Registry Session.Name Session.Backbone := {}
  refs : Registry Session.Name Session.Ref := {}
  /-- The number of links made. -/
  links : Nat := 0
  running : Registry (TaskId Session.Key) Session.Running := {}
  called : Tally Session.Key := {}
  /-- The number of computations dropped before they ended. -/
  cut : Nat := 0
  /-- The number of pauses that computations have made. -/
  paused : Nat := 0
  /-- What the steps carried out by computations have answered in this step. -/
  inner : List Session.Reply := []

namespace Session

/-- The label of a task. -/
def taskName (t : TaskId Key) : String := t.key ++ "#" ++ toString t.ordinal

/-- A session with one handle on a new cache. -/
def start (settings : Settings) (ttl : Option Nat) (plan : Plan) : Session :=
  { timed := { cache := .ofSettings settings, expiration := ttl.map fun t => { ttl := t } }
    plan := plan
    handles := Registry.empty.insert "main" 0
    links := 1 }

abbrev cache (s : Session) : Cache Key Failure Value := s.timed.cache

def owners (s : Session) : Nat :=
  s.handles.size + s.backbones.size + s.refs.size + s.cache.observers.size

/-- Ends the cache when nobody owns it any more. -/
def closeIfUnowned (s : Session) : Session :=
  if s.cache.alive ∧ s.owners = 0 then
    { s with timed := { s.timed with cache := s.cache.close } }
  else s

/-- Ends the subscription of a holder, and the cache if that was its last owner. -/
def letGo (s : Session) (h : Holder Key) : Session :=
  { s with timed := s.timed.release h }.closeIfUnowned

/-- The number of computations called so far. -/
def calls (s : Session) : Nat := Tally.total s.called

/-! ## Descriptions -/

def describeCache (s : Session) : String :=
  let inner := s.cache.settings.describe s.cache.len
  match s.timed.expiration with
  | none => inner
  | some x =>
      "ExpiringCache \x7b inner: " ++ inner ++ ", ttl: " ++ Text.duration x.ttl
        ++ ", armed: " ++ toString x.armed.size ++ ", .. \x7d"

def describeSubscription (s : Session) (sub : Subscription Key) : String :=
  let inner := "Subscription \x7b cache: " ++ Text.quoted s.cache.settings.name
    ++ ", generation: " ++ toString (s.cache.entry sub.entry).generation ++ ", .. \x7d"
  match s.timed.expiration with
  | none => inner
  | some x =>
      "ExpiringSubscription \x7b inner: " ++ inner ++ ", ttl: " ++ Text.duration x.ttl ++ ", .. \x7d"

end Session

end LiveCache
