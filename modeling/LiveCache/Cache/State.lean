import LiveCache.Activity
import LiveCache.Entry
import LiveCache.Registry

/-!
# The state of a cache

A cache keeps at most one entry per key in its table. An entry that has left the table may still be
known to a task, so every entry has an identity of its own: its key, and the number of entries that
the key has had before it. An entry that was never touched is a fresh one, so looking an entry up
needs no case for a missing one.

Subscriptions are kept under their holders, so that the number of live subscriptions of a key can be
read off the state. Tasks are the launches handed to the executor and not yet finished, oldest first.

The history holds what has happened to the keys, newest first. Nothing depends on it; it is what
statements about a whole run are made of.
-/

namespace LiveCache

structure EntryId (κ : Type) where
  key : κ
  ordinal : Nat
deriving DecidableEq, Repr

/-- A task is known by its key and the number of tasks spawned for that key before it. -/
structure TaskId (κ : Type) where
  key : κ
  ordinal : Nat
deriving DecidableEq, Repr

structure Task (κ : Type) where
  id : TaskId κ
  entry : EntryId κ
  launch : Launch
deriving DecidableEq, Repr

/-- A subscription remembers the version of the view that it was last given. -/
structure Subscription (κ : Type) where
  entry : EntryId κ
  seen : Option Nat := none
deriving DecidableEq, Repr

/-- Who holds a subscription: a reader who follows a key, a waiter for its current outcome, or a
computation that needs the outcome of another key. -/
inductive Holder (κ : Type) where
  | reader (name : String)
  | waiter (name : String)
  | computation (task : TaskId κ)
deriving DecidableEq, Repr

/-- What happens to the keys of a cache, as far as it bears on what readers are shown. -/
inductive Happening (κ ε α : Type) where
  | installed (key : κ) (value : α)
  | expired (key : κ)
  | expiredAll
  /-- The entry has left the table. -/
  | removed (entry : EntryId κ)
  /-- A timer was started for the key. -/
  | armed (key : κ) (time : Nat)
  /-- The computation of a task was begun. -/
  | called (task : TaskId κ)
  /-- The result of a task was handed in. -/
  | returned (task : TaskId κ) (outcome : Outcome ε α)
  /-- A reader or a waiter was given a view. -/
  | delivered (entry : EntryId κ) (view : View ε α)
deriving DecidableEq, Repr

structure Cache (κ ε α : Type) where
  settings : Settings
  entries : Registry (EntryId κ) (Entry ε α) := {}
  created : Tally κ := {}
  table : Registry κ Nat := {}
  observers : Registry (Holder κ) (Subscription κ) := {}
  tasks : List (Task κ) := []
  spawned : Tally κ := {}
  log : List Event := []
  history : List (Happening κ ε α) := []
  /-- False once the last owner of the cache is gone. -/
  alive : Bool := true

namespace Cache

variable {κ ε α : Type} [DecidableEq κ]

def ofSettings (s : Settings) : Cache κ ε α := { settings := s }

/-! ## Entries -/

def entry (c : Cache κ ε α) (i : EntryId κ) : Entry ε α := (c.entries.find? i).getD {}

def put (c : Cache κ ε α) (i : EntryId κ) (e : Entry ε α) : Cache κ ε α :=
  { c with entries := c.entries.insert i e }

theorem entry_put (c : Cache κ ε α) (i j : EntryId κ) (e : Entry ε α) :
    (c.put i e).entry j = if i = j then e else c.entry j := by
  by_cases h : i = j <;> simp [entry, put, Registry.find?_insert, h]

@[simp] theorem entry_put_self (c : Cache κ ε α) (i : EntryId κ) (e : Entry ε α) :
    (c.put i e).entry i = e := by simp [entry_put]

theorem entry_put_of_ne (c : Cache κ ε α) {i j : EntryId κ} (e : Entry ε α) (h : i ≠ j) :
    (c.put i e).entry j = c.entry j := by simp [entry_put, h]

/-- The entry that the table holds for a key. -/
def current? (c : Cache κ ε α) (k : κ) : Option (EntryId κ) :=
  (c.table.find? k).map fun n => ⟨k, n⟩

/-- All entries of the table. -/
def ids (c : Cache κ ε α) : List (EntryId κ) := c.table.pairs.map fun p => ⟨p.1, p.2⟩

def len (c : Cache κ ε α) : Nat := c.table.size

def isEmpty (c : Cache κ ε α) : Bool := c.table.isEmpty

def subscriberCount (c : Cache κ ε α) (k : κ) : Nat :=
  ((c.current? k).map fun i => (c.entry i).subscribers).getD 0

/-- The keys of the table that somebody subscribes to, with the numbers of their subscribers. -/
def subscribed (c : Cache κ ε α) : List (κ × Nat) :=
  (c.ids.map fun i => (i.key, (c.entry i).subscribers)).filter fun p => p.2 != 0

/-- The entry of a key, made if the table has none. -/
def locate (c : Cache κ ε α) (k : κ) : Cache κ ε α × EntryId κ :=
  match c.current? k with
  | some i => (c, i)
  | none =>
      let n := Tally.count c.created k
      ({ c with table := c.table.insert k n, created := Tally.bump c.created k }, ⟨k, n⟩)

/-! ## Reports -/

def record (c : Cache κ ε α) (a : Activity) (n : Nat) : Cache κ ε α :=
  if c.settings.logs then { c with log := c.log ++ [⟨a, n⟩] } else c

def note (c : Cache κ ε α) (h : Happening κ ε α) : Cache κ ε α :=
  { c with history := h :: c.history }

/-! ## Tasks -/

/-- Hands a launch of an entry to the executor. -/
def spawn (c : Cache κ ε α) (i : EntryId κ) (l : Launch) : Cache κ ε α :=
  let c := c.record .computing l.generation
  { c with
    tasks := c.tasks ++ [⟨⟨i.key, Tally.count c.spawned i.key⟩, i, l⟩]
    spawned := Tally.bump c.spawned i.key }

def spawn? (c : Cache κ ε α) (i : EntryId κ) : Option Launch → Cache κ ε α
  | none => c
  | some l => c.spawn i l

def isAborted (c : Cache κ ε α) (t : Task κ) : Bool := t.launch.number ∈ (c.entry t.entry).aborted

/-- Takes a task from the executor's list. -/
def removeTask (c : Cache κ ε α) (t : TaskId κ) : Cache κ ε α :=
  { c with tasks := c.tasks.filter fun u => u.id ≠ t }

end Cache

end LiveCache
