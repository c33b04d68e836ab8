import LiveCache.Text.Quoted

/-!
# Settings

How a cache is set up: which entries it keeps, what readers see of a value that is being replaced,
and where its computations run. A `Draft` collects the settings one by one.
-/

namespace LiveCache

/-- When an entry leaves the cache. -/
inductive Retention where
  | forever
  | whileObserved
  | untilSweep
deriving DecidableEq, Repr

/-- What a reader sees of an outdated outcome while a newer one is computed. -/
inductive StalePolicy where
  | replay
  | hide
deriving DecidableEq, Repr

/-- Who runs the computations of a cache: an asynchronous runtime, or a function of the caller's. -/
inductive Spawner where
  | runtime
  | custom
deriving DecidableEq, Repr

namespace Retention

def name : Retention → String
  | forever => "Forever"
  | whileObserved => "WhileObserved"
  | untilSweep => "UntilSweep"

def ofName? (s : String) : Option Retention :=
  if s = "forever" then some .forever
  else if s = "while_observed" then some .whileObserved
  else if s = "until_sweep" then some .untilSweep
  else none

end Retention

namespace StalePolicy

def name : StalePolicy → String
  | replay => "Replay"
  | hide => "Hide"

def ofName? (s : String) : Option StalePolicy :=
  if s = "replay" then some .replay
  else if s = "hide" then some .hide
  else none

end StalePolicy

namespace Spawner

def name : Spawner → String
  | runtime => "Spawner::Tokio"
  | custom => "Spawner::Custom"

end Spawner

structure Settings where
  name : String := "in_memory"
  retention : Retention := .forever
  stale : StalePolicy := .replay
  spawner : Spawner := .custom
  logs : Bool := true
deriving DecidableEq, Repr

namespace Settings

/-- The settings of a cache about which nothing is said. -/
def usual : Settings := {}

/-- A developer's view of a cache that holds `len` keys. -/
def describe (s : Settings) (len : Nat) : String :=
  "InMemoryCache \x7b name: " ++ Text.quoted s.name ++ ", len: " ++ toString len
    ++ ", retention: " ++ s.retention.name ++ ", stale_values: " ++ s.stale.name
    ++ ", spawner: " ++ s.spawner.name ++ ", .. \x7d"

end Settings

/-- Settings under construction. The sizes are hints for the layout of the table; a cache needs a
spawner before it can be built. -/
structure Draft where
  name : String := "in_memory"
  retention : Retention := .forever
  stale : StalePolicy := .replay
  spawner : Option Spawner := none
  logs : Bool := true
  capacity : Nat := 0
  shards : Option Nat := none
deriving DecidableEq, Repr

namespace Draft

/-- A number of shards that the table cannot have. -/
structure InvalidShards where
  amount : Nat
deriving DecidableEq, Repr

def InvalidShards.message (e : InvalidShards) : String :=
  "shard amount must be a power of two greater than one, got " ++ toString e.amount

def isPowerOfTwo (n : Nat) : Bool := n != 0 && 1 <<< n.log2 == n

def setShards (d : Draft) (n : Nat) : Except InvalidShards Draft :=
  if 1 < n ∧ isPowerOfTwo n then .ok { d with shards := some n } else .error ⟨n⟩

def build? (d : Draft) : Option Settings :=
  d.spawner.map fun s =>
    { name := d.name, retention := d.retention, stale := d.stale, spawner := s, logs := d.logs }

def describe (d : Draft) : String :=
  "InMemoryCacheBuilder \x7b name: " ++ Text.quoted d.name
    ++ ", retention: " ++ d.retention.name ++ ", stale_values: " ++ d.stale.name
    ++ ", spawner: " ++ some? (d.spawner.map Spawner.name)
    ++ ", logs: " ++ (if d.logs then "true" else "false")
    ++ ", initial_capacity: " ++ toString d.capacity
    ++ ", shard_amount: " ++ some? (d.shards.map toString) ++ ", .. \x7d"
where
  some? : Option String → String
    | none => "None"
    | some s => "Some(" ++ s ++ ")"

end Draft

end LiveCache
