import LiveCache.Channel
import LiveCache.Outcome
import LiveCache.Settings

/-!
# Entries

An entry is what a cache knows about one key: the phase of its value, a generation that grows with
every write, the number of its subscribers, and the channel on which its views are published.

Every computation that an entry asks for is a launch. A launch carries the generation at which it
was made, and the entry accepts a result only on behalf of the generation that it is computing.
Launches are numbered in the order in which they were made; `launches` holds all of them, newest
first, and `aborted` the numbers of those that were told to stop.
-/

namespace LiveCache

/-- What is shown while no current outcome is known. -/
def View.ofPrevious {ε α : Type} (policy : StalePolicy) (previous : Option (Outcome ε α)) :
    View ε α :=
  match policy, previous with
  | .replay, some o => o.withProgress .loading
  | _, _ => .incomplete

/-- A request to compute the value of an entry. -/
structure Launch where
  number : Nat
  generation : Nat
deriving DecidableEq, Repr

inductive Phase (ε α : Type) where
  /-- Nothing was ever known. -/
  | empty
  /-- A computation is under way; `previous` is the outcome that it will replace. -/
  | computing (launch : Launch) (previous : Option (Outcome ε α))
  /-- The outcome is current. -/
  | settled (outcome : Outcome ε α)
  /-- The outcome is outdated and nobody computes a new one. -/
  | stale (previous : Option (Outcome ε α))
deriving DecidableEq, Repr

namespace Phase

variable {ε α : Type}

def isComputing : Phase ε α → Bool
  | computing _ _ => true
  | _ => false

/-- What an observer is shown in each phase. -/
def view (policy : StalePolicy) : Phase ε α → View ε α
  | empty => .incomplete
  | computing _ previous => View.ofPrevious policy previous
  | settled o => o.withProgress .done
  | stale previous => View.ofPrevious policy previous

end Phase

structure Entry (ε α : Type) where
  phase : Phase ε α := .empty
  generation : Nat := 0
  subscribers : Nat := 0
  retired : Bool := false
  channel : Channel (View ε α) := { latest := .incomplete }
  launches : List Launch := []
  aborted : List Nat := []
deriving DecidableEq, Repr

/-- What a write to an entry has brought about. -/
structure Transition where
  generation : Nat
  cancelled : Bool
  launch : Option Launch
deriving DecidableEq, Repr

/-- How an entry has received the result of a computation. -/
inductive Settlement where
  | accepted
  | discarded (relaunch : Option Launch)
deriving DecidableEq, Repr

namespace Entry

variable {ε α : Type}

def publish (policy : StalePolicy) (e : Entry ε α) : Entry ε α :=
  { e with channel := e.channel.publish (e.phase.view policy) }

/-- Tells the computation under way to stop; the phase is left to the caller. -/
def abort (e : Entry ε α) : Entry ε α :=
  match e.phase with
  | .computing l _ => { e with aborted := l.number :: e.aborted }
  | _ => e

def launch (e : Entry ε α) (previous : Option (Outcome ε α)) : Entry ε α × Option Launch :=
  let l : Launch := ⟨e.launches.length, e.generation⟩
  ({ e with phase := .computing l previous, launches := l :: e.launches }, some l)

/-- Launches a computation unless one is under way or the outcome is current. The view stays what
it was, so nothing is published. -/
def demand (e : Entry ε α) : Entry ε α × Option Launch :=
  match e.phase with
  | .empty => e.launch none
  | .stale previous => e.launch previous
  | .computing _ _ => (e, none)
  | .settled _ => (e, none)

/-! ## Reading -/

/-- Refused by a retired entry, as are `snapshot?`, `set?` and `expire?`. -/
def subscribe? (e : Entry ε α) : Option (Entry ε α × Option Launch) :=
  if e.retired then none else some ({ e with subscribers := e.subscribers + 1 }.demand)

def unsubscribe (e : Entry ε α) : Entry ε α := { e with subscribers := e.subscribers - 1 }

/-- Asks for the value and shows the latest view. -/
def snapshot? (e : Entry ε α) : Option (Entry ε α × Option Launch) :=
  if e.retired then none else some e.demand

def latest (e : Entry ε α) : View ε α := e.channel.latest

/-! ## Writing -/

def set? (policy : StalePolicy) (e : Entry ε α) (value : α) : Option (Entry ε α × Transition) :=
  if e.retired then none
  else
    let next := { e.abort with
      phase := .settled (.success value), generation := e.generation + 1 }
    some (next.publish policy, ⟨e.generation + 1, e.phase.isComputing, none⟩)

/-- The entry with its outcome outdated. Replacing a computation keeps the view, so only the end of
a current outcome is published. -/
def outdate (policy : StalePolicy) (e : Entry ε α) : Entry ε α :=
  match e.phase with
  | .empty => e
  | .stale _ => e
  | .computing _ previous => { e.abort with phase := .stale previous }
  | .settled o => { e with phase := .stale (some o) }.publish policy

/-- An entry that somebody observes is computed anew at once. -/
def expire? (policy : StalePolicy) (e : Entry ε α) : Option (Entry ε α × Transition) :=
  if e.retired then none
  else
    let next := { e.outdate policy with generation := e.generation + 1 }
    let demanded := if next.subscribers = 0 then (next, none) else next.demand
    some (demanded.1, ⟨e.generation + 1, e.phase.isComputing, demanded.2⟩)

/-! ## Results -/

/-- A result is accepted on behalf of the generation that is being computed. -/
def owns (e : Entry ε α) (generation : Nat) : Bool :=
  match e.phase with
  | .computing l _ => l.generation == generation
  | _ => false

def isStale (e : Entry ε α) : Bool :=
  match e.phase with
  | .stale _ => true
  | _ => false

def settle (policy : StalePolicy) (e : Entry ε α) (generation : Nat) (o : Outcome ε α) :
    Entry ε α × Settlement :=
  if e.owns generation then
    ({ e with phase := .settled o }.publish policy, .accepted)
  else if 0 < e.subscribers ∧ e.retired = false ∧ e.isStale then
    (e.demand.1, .discarded e.demand.2)
  else (e, .discarded none)

/-! ## Ending -/

/-- Stops a computation that nobody waits for, and tells its generation. -/
def abandon (e : Entry ε α) : Entry ε α × Option Nat :=
  match e.phase with
  | .computing l previous =>
      if e.subscribers = 0 then ({ e.abort with phase := .stale previous }, some l.generation)
      else (e, none)
  | _ => (e, none)

/-- An entry may be retired when nobody observes it and nothing is computed for it. -/
def retirable (e : Entry ε α) : Bool :=
  !e.retired && e.subscribers == 0 && !e.phase.isComputing

def retire (e : Entry ε α) : Entry ε α × Bool :=
  if e.retirable then ({ e with retired := true }, true) else (e, false)

end Entry

end LiveCache
