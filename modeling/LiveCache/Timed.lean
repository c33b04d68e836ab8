import LiveCache.Cache.Observers

/-!
# Keys that expire

A cache whose keys may have a time to live. A key is armed when somebody asks for it or sets it, and
again when a reader is given a newer outcome. Each arming starts a timer with a token of its own; a
timer that is due expires its key if its token is still the one that the key is armed with. When a
timer is due is up to the runtime that it sleeps on.

Without a time to live the cache is left to itself.
-/

namespace LiveCache

structure Timer (κ : Type) where
  key : κ
  token : Nat
  deadline : Nat
deriving DecidableEq, Repr

namespace Timer

/-- On the usual runtime no sleep lasts more than thirty years of 365 days. -/
def longest : Nat := 946080000000

/-- The last moment until which the usual runtime sleeps. From then on a sleep is over at once. -/
def lastMoment : Nat := 18446744073709551613

/-- When a sleep of the usual runtime is over that begins at a moment and is to last for a time. -/
def wakes (clock time : Nat) : Nat := min (clock + min time longest) lastMoment

/-- Short of its limits the usual runtime sleeps for exactly as long as it is asked to. -/
theorem wakes_eq {clock time : Nat} (short : time ≤ longest) (early : clock + time ≤ lastMoment) :
    wakes clock time = clock + time := by
  rw [wakes, Nat.min_eq_left short, Nat.min_eq_left early]

end Timer

structure Expiration (κ : Type) where
  ttl : Nat
  /-- When a sleep is over that begins at a moment and is to last for a time. -/
  wakes : Nat → Nat → Nat := Timer.wakes
  armed : Registry κ Nat := {}
  nextToken : Nat := 0
  /-- The timers not yet due, in the order of arming. -/
  timers : List (Timer κ) := []

structure TimedCache (κ ε α : Type) where
  cache : Cache κ ε α
  clock : Nat := 0
  expiration : Option (Expiration κ) := none

namespace Expiration

variable {κ : Type} [DecidableEq κ]

/-- When a timer that is started now is due. -/
def deadline (x : Expiration κ) (clock : Nat) : Nat := x.wakes clock x.ttl

def arm (x : Expiration κ) (clock : Nat) (k : κ) : Expiration κ :=
  { x with
    armed := x.armed.insert k x.nextToken
    nextToken := x.nextToken + 1
    timers := x.timers ++ [⟨k, x.nextToken, x.deadline clock⟩] }

def disarm (x : Expiration κ) (k : κ) : Expiration κ := { x with armed := x.armed.erase k }

def disarmAll (x : Expiration κ) : Expiration κ := { x with armed := .empty }

/-- The timer is the one that its key is armed with. -/
def isCurrent (x : Expiration κ) (t : Timer κ) : Bool := x.armed.find? t.key == some t.token

end Expiration

namespace TimedCache

variable {κ ε α : Type} [DecidableEq κ]

/-! ## Arming -/

def arm (t : TimedCache κ ε α) (k : κ) : TimedCache κ ε α :=
  match t.expiration with
  | none => t
  | some x =>
      { t with
        expiration := some (x.arm t.clock k)
        cache := t.cache.note (.armed k t.clock) }

/-- The key has a timer. -/
def isArmed (t : TimedCache κ ε α) (k : κ) : Bool := t.expiration.any fun x => x.armed.contains k

def armIfAbsent (t : TimedCache κ ε α) (k : κ) : TimedCache κ ε α :=
  if t.isArmed k then t else t.arm k

/-- The number of armed keys, if keys expire. -/
def armed? (t : TimedCache κ ε α) : Option Nat := t.expiration.map fun x => x.armed.size

def ttl? (t : TimedCache κ ε α) : Option Nat := t.expiration.map (·.ttl)

/-! ## Reading -/

def observe (t : TimedCache κ ε α) (h : Holder κ) (k : κ) : TimedCache κ ε α :=
  let t := t.armIfAbsent k
  { t with cache := t.cache.observe h k }

def glance (t : TimedCache κ ε α) (k : κ) : TimedCache κ ε α :=
  let t := t.armIfAbsent k
  { t with cache := t.cache.glance k }

def release (t : TimedCache κ ε α) (h : Holder κ) : TimedCache κ ε α :=
  { t with cache := t.cache.release h }

def snapshot (t : TimedCache κ ε α) (k : κ) : TimedCache κ ε α × View ε α :=
  let t := t.armIfAbsent k
  let taken := t.cache.snapshot k
  ({ t with cache := taken.1 }, taken.2)

/-- The first view that a subscription gives was covered by a timer when it was made; a current
outcome after that arms the key anew. -/
def poll (t : TimedCache κ ε α) (h : Holder κ) : TimedCache κ ε α × Option (View ε α) :=
  let polled := t.cache.poll h
  let next := { t with cache := polled.1 }
  match t.cache.observers.find? h, polled.2 with
  | some s, some v =>
      if v.isDone ∧ s.seen.isSome then (next.arm s.entry.key, some v) else (next, some v)
  | _, _ => (next, polled.2)

def await (t : TimedCache κ ε α) (h : Option (Holder κ)) (k : κ) :
    TimedCache κ ε α × Option (Outcome ε α) :=
  let t := t.armIfAbsent k
  let awaited := t.cache.await h k
  ({ t with cache := awaited.1 }, awaited.2)

/-- Takes up a wait again. It ends when its outcome is there. -/
def resume (t : TimedCache κ ε α) (h : Holder κ) : TimedCache κ ε α × Option (Outcome ε α) :=
  let polled := t.poll h
  match polled.2.bind View.settled? with
  | none => (polled.1, none)
  | some o => (polled.1.release h, some o)

/-! ## Writing -/

def set (t : TimedCache κ ε α) (k : κ) (value : α) : TimedCache κ ε α :=
  { t with cache := t.cache.set k value }.arm k

def expire (t : TimedCache κ ε α) (k : κ) : TimedCache κ ε α :=
  { t with
    expiration := t.expiration.map fun x => x.disarm k
    cache := t.cache.expire k }

def expireAll (t : TimedCache κ ε α) : TimedCache κ ε α :=
  { t with
    expiration := t.expiration.map fun x => x.disarmAll
    cache := t.cache.expireAll }

/-! ## Time -/

/-- A timer that is due. It has no effect when its key was armed anew or disarmed since, or when the
cache is gone. -/
def fire (t : TimedCache κ ε α) (timer : Timer κ) : TimedCache κ ε α :=
  match t.expiration with
  | none => t
  | some x =>
      if t.cache.alive ∧ x.isCurrent timer then
        { t with expiration := some (x.disarm timer.key), cache := t.cache.expire timer.key }
      else t

/-- Fires the timers that are due, in the order of arming. -/
def fireDue (t : TimedCache κ ε α) : TimedCache κ ε α :=
  match t.expiration with
  | none => t
  | some x =>
      let due := x.timers.filter fun timer => timer.deadline ≤ t.clock
      let rest := x.timers.filter fun timer => t.clock < timer.deadline
      due.foldl fire { t with expiration := some { x with timers := rest } }

def advance (t : TimedCache κ ε α) (time : Nat) : TimedCache κ ε α :=
  { t with clock := t.clock + time }.fireDue

end TimedCache

end LiveCache
