import LiveCache.Cache.Operations

/-!
# Observers of a cache

A subscription is held by a reader, a waiter or a computation. Polling it gives the view that its
holder has not seen yet, if there is one.
-/

namespace LiveCache.Cache

variable {κ ε α : Type} [DecidableEq κ]

/-- Gives a subscription to a holder. What the holder held before ends after that. -/
def hold (c : Cache κ ε α) (h : Holder κ) (s : Subscription κ) : Cache κ ε α :=
  let held := { c with observers := c.observers.insert h s }
  match c.observers.find? h with
  | none => held
  | some old => held.unsubscribe old.entry

/-- Subscribes on behalf of a holder. -/
def observe (c : Cache κ ε α) (h : Holder κ) (k : κ) : Cache κ ε α :=
  let made := c.subscribe k
  made.1.hold h made.2

/-- Subscribes and lets go at once. -/
def glance (c : Cache κ ε α) (k : κ) : Cache κ ε α :=
  let made := c.subscribe k
  made.1.unsubscribe made.2.entry

/-- Ends the subscription of a holder. -/
def release (c : Cache κ ε α) (h : Holder κ) : Cache κ ε α :=
  match c.observers.find? h with
  | none => c
  | some s => { c with observers := c.observers.erase h }.unsubscribe s.entry

/-- The view that a holder has not seen yet; it is seen from now on. -/
def poll (c : Cache κ ε α) (h : Holder κ) : Cache κ ε α × Option (View ε α) :=
  match c.observers.find? h with
  | none => (c, none)
  | some s =>
      let channel := (c.entry s.entry).channel
      match channel.unseen s.seen with
      | none => (c, none)
      | some v =>
          let seen := { c with
            observers := c.observers.insert h { s with seen := some channel.version } }
          (seen.note (.delivered s.entry v), some v)

/-- Waits for the current outcome of a key. If there is one, the wait is over and its subscription
has ended; else the holder keeps it, or it ends at once when there is none. -/
def await (c : Cache κ ε α) (h : Option (Holder κ)) (k : κ) : Cache κ ε α × Option (Outcome ε α) :=
  let made := c.subscribe k
  let channel := (made.1.entry made.2.entry).channel
  let shown := made.1.note (.delivered made.2.entry channel.latest)
  match channel.latest.settled?, h with
  | none, some h => (shown.hold h { made.2 with seen := some channel.version }, none)
  | answer, _ => (shown.unsubscribe made.2.entry, answer)

/-- After a view was given there is none left that was not seen. -/
theorem poll_poll (c : Cache κ ε α) (h : Holder κ) : ((c.poll h).1.poll h).2 = none := by
  cases hs : c.observers.find? h with
  | none => simp [poll, hs]
  | some s =>
      cases hv : (c.entry s.entry).channel.unseen s.seen with
      | none => simp [poll, hs, hv]
      | some v =>
          let held : Subscription κ := { s with seen := some (c.entry s.entry).channel.version }
          have first : (c.poll h).1 =
              { c with observers := c.observers.insert h held }.note (.delivered s.entry v) := by
            simp [poll, hs, hv, held]
          rw [first]
          simp [poll, entry, note, held]

end LiveCache.Cache
