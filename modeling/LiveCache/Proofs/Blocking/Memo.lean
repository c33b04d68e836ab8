import LiveCache.Blocking

/-! # A memo table

The plain table that a blocking cache is to be taken for. For each key it holds nothing, the outcome
of the last computation or write, or an outcome that is outdated, and some keys are warm. What a
computation comes to is a function of its key and of the number of the call, and every request is
answered at once: there are no subscriptions, generations or tasks.
-/

namespace LiveCache

open Session (Key Value)
open BlockingCache (Answer Request)

/-- An outcome that is held for a key. One that is not current is outdated. -/
structure Held where
  outcome : Outcome Failure Value
  current : Bool
deriving DecidableEq, Repr

structure Memo where
  settings : Settings
  /-- Keys that are read become warm. -/
  warming : Bool
  compute : Key → Nat → Outcome Failure Value
  held : Registry Key Held := {}
  warm : Registry Key Unit := {}
  called : Tally Key := {}

namespace Memo

def start (settings : Settings) (warming : Bool) (compute : Key → Nat → Outcome Failure Value) :
    Memo where
  settings := settings
  warming := warming
  compute := compute

def isWarm (m : Memo) (k : Key) : Bool := m.warm.contains k

/-- What the next call for a key comes to. -/
def next (m : Memo) (k : Key) : Outcome Failure Value := m.compute k (Tally.count m.called k)

def hold (m : Memo) (k : Key) (h : Held) : Memo := { m with held := m.held.insert k h }

/-- Makes one call for a key and holds its outcome. -/
def renew (m : Memo) (k : Key) : Memo :=
  { m.hold k ⟨m.next k, true⟩ with called := Tally.bump m.called k }

/-- The current outcome of a key, which takes one call if it is not held. -/
def fetch (m : Memo) (k : Key) : Memo × Outcome Failure Value :=
  match m.held.find? k with
  | some ⟨o, true⟩ => (m, o)
  | _ => (m.renew k, m.next k)

/-- Forgets a key that is not warm where keys are kept only while they are observed. -/
def forget (m : Memo) (k : Key) : Memo :=
  if m.settings.retention = .whileObserved ∧ m.isWarm k = false then
    { m with held := m.held.erase k }
  else m

/-! ## Requests -/

def warmUp (m : Memo) (k : Key) : Memo :=
  if m.warming then { m with warm := m.warm.insert k () } else m

def get (m : Memo) (k : Key) (site : CallSite) : Memo × Answer :=
  match site.misuse? with
  | some misuse => (m, .refused misuse)
  | none =>
      let fetched := (m.warmUp k).fetch k
      (fetched.1.forget k, .outcome fetched.2)

/-- What is shown of a key before anything is done about it. -/
def view (m : Memo) (k : Key) : View Failure Value :=
  match m.held.find? k, m.settings.stale with
  | none, _ => .incomplete
  | some ⟨o, true⟩, _ => .known o .done
  | some ⟨o, false⟩, .replay => .known o .loading
  | some ⟨_, false⟩, .hide => .incomplete

/-- The outcome of a held key is outdated, and computed anew at once if the key is warm. -/
def expire (m : Memo) (k : Key) : Memo :=
  match m.held.find? k with
  | none => m
  | some h =>
      let outdated := m.hold k ⟨h.outcome, false⟩
      if m.isWarm k then outdated.renew k else outdated

def expireAll (m : Memo) : Memo := m.held.keys.foldl expire m

def release (m : Memo) (k : Key) : Memo × Answer :=
  let released := { m with warm := m.warm.erase k }
  (if m.isWarm k then released.forget k else released, .flag (m.isWarm k))

/-- Drops what is held for keys that are not warm, and tells how much that was. -/
def sweep (m : Memo) : Memo × Nat :=
  if m.settings.retention = .forever then (m, 0)
  else
    let cold := m.held.keys.filter fun k => !m.isWarm k
    ({ m with held := cold.foldl Registry.erase m.held }, cold.length)

def describe (m : Memo) : String :=
  let kept := if m.warming then "Some(" ++ toString m.warm.size ++ ")" else "None"
  "BlockingCache \x7b inner: " ++ m.settings.describe m.held.size ++ ", warm: " ++ kept ++ " \x7d"

def withPart {α : Type} (m : Memo) (part : Option α) (f : α → Memo × Answer) : Memo × Answer :=
  match part with
  | none => (m, .illFormed)
  | some a => f a

def execute (m : Memo) : Request → Memo × Answer
  | .get key site => m.withPart key fun k => m.withPart site fun c => m.get k c
  | .snapshot key => m.withPart key fun k => ((m.fetch k).1, .view (m.view k))
  | .set key value =>
      m.withPart key fun k => m.withPart value fun v => (m.hold k ⟨.success v, true⟩, .nothing)
  | .expire key => m.withPart key fun k => (m.expire k, .nothing)
  | .expireAll => (m.expireAll, .nothing)
  | .release key => m.withPart key m.release
  | .subscriberCount key =>
      m.withPart key fun k => (m, .number (if m.isWarm k then 1 else 0))
  | .sweep => (m.sweep.1, .number m.sweep.2)
  | .name => (m, .text m.settings.name)
  | .describe => (m, .text m.describe)
  | .unknown => (m, .illFormed)

/-! ## Runs -/

/-- The answer to a request, the number of keys held and the number of calls made. -/
structure Report where
  answer : Answer
  len : Nat
  calls : Nat
deriving DecidableEq, Repr

def step (m : Memo) (r : Request) : Memo × Report :=
  let answered := m.execute r
  (answered.1, ⟨answered.2, answered.1.held.size, Tally.total answered.1.called⟩)

def run (m : Memo) : List Request → List Report
  | [] => []
  | r :: rest =>
      let stepped := m.step r
      stepped.2 :: stepped.1.run rest

end Memo

end LiveCache
