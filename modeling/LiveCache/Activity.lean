import LiveCache.Text.Json

/-!
# Activities

What a cache reports about itself. An event is an activity with one number: the generation it
concerns, or the number of entries for an activity that concerns them all.
-/

namespace LiveCache

/-- How much an event matters, least first. -/
inductive Level where
  | trace
  | debug
  | info
  | warn
  | error
deriving DecidableEq, Repr

namespace Level

def name : Level → String
  | trace => "trace"
  | debug => "debug"
  | info => "info"
  | warn => "warn"
  | error => "error"

def ofName? (s : String) : Option Level :=
  [trace, debug, info, warn, error].find? fun l => l.name == s

/-- The level at the front of a line, five characters wide. -/
def label : Level → String
  | trace => "TRACE"
  | debug => "DEBUG"
  | info => " INFO"
  | warn => " WARN"
  | error => "ERROR"

theorem label_length (l : Level) : l.label.length = 5 := by cases l <;> rfl

end Level

inductive Activity where
  /-- A computation was launched. -/
  | computing
  /-- A result became the current outcome. -/
  | settled
  /-- A result came too late. -/
  | discarded
  /-- A computation was told to stop. -/
  | cancelled
  /-- An entry was removed. -/
  | reclaimed
  /-- A computation ended with a fault, which reads as given. -/
  | faulted (fault : String)
  /-- A value was set from outside. -/
  | installed
  /-- An outcome was declared outdated. -/
  | expired
  /-- All outcomes were declared outdated. -/
  | expiredAll
deriving DecidableEq, Repr

namespace Activity

def name : Activity → String
  | computing => "cache.computing"
  | settled => "cache.settled"
  | discarded => "cache.discarded"
  | cancelled => "cache.cancelled"
  | reclaimed => "cache.reclaimed"
  | faulted _ => "cache.faulted"
  | installed => "cache.installed"
  | expired => "cache.expired"
  | expiredAll => "cache.expired_all"

def level : Activity → Level
  | computing | settled | discarded | cancelled | reclaimed => .debug
  | installed | expired | expiredAll => .info
  | faulted _ => .error

end Activity

structure Event where
  activity : Activity
  number : Nat
deriving DecidableEq, Repr

namespace Event

/-! ## Walks over all entries

A walk visits the entries in no order of its own, so the events it causes are put into an order that
shows nothing of it: by the generation of the entry, then by what happened to it. -/

/-- Splits a list before each event that starts a group; the events before the first such one are
a group of their own. -/
def groups (starts : Event → Bool) : List Event → List (List Event)
  | [] => []
  | e :: rest =>
      match groups starts rest with
      | [] => [[e]]
      | g :: gs =>
          match g with
          | [] => [e] :: gs
          | first :: _ => if starts first then [e] :: g :: gs else (e :: g) :: gs

/-- A split loses nothing. -/
theorem flatten_groups (starts : Event → Bool) (l : List Event) :
    (groups starts l).flatten = l := by
  induction l with
  | nil => rfl
  | cons e rest ih =>
      rw [groups]
      split
      next h => rw [h] at ih; simp [← ih]
      next g gs h =>
        rw [h] at ih
        split
        next => simpa using ih
        next first others => split <;> simpa using ih

/-- The key by which groups are ordered. -/
def rank (group : List Event) : Nat × List String :=
  ((group.head?.map (·.number)).getD 0, group.map (·.activity.name))

def rankLe (g h : List Event) : Bool :=
  let a := rank g
  let b := rank h
  decide (a.1 < b.1) || (decide (a.1 = b.1) && decide (¬ b.2 < a.2))

/-- The events of a walk that has expired each entry it met. -/
def orderExpired (events : List Event) : List Event :=
  ((groups (fun e => e.activity = .expired) events).mergeSort rankLe).flatten

theorem orderExpired_perm (events : List Event) : (orderExpired events).Perm events := by
  have sorted := (List.mergeSort_perm (groups (fun e => e.activity = .expired) events) rankLe).flatten
  rwa [flatten_groups] at sorted

/-- The events of a walk that has reclaimed entries. -/
def orderReclaimed (events : List Event) : List Event :=
  events.mergeSort fun a b => decide (a.number ≤ b.number)

theorem orderReclaimed_perm (events : List Event) : (orderReclaimed events).Perm events :=
  List.mergeSort_perm events _

/-! ## Events of threads

Computations on threads of their own report in no order that could be relied on. Their events are
put into the order of the lines that they are logged as. -/

/-- The event as a line of compact JSON, in a log of the cache of that name. -/
def line (cache : String) (e : Event) : String :=
  let parts := [Text.json e.activity.level.name, Text.json cache, Text.json e.activity.name,
    toString e.number]
  let all := match e.activity with
    | .faulted fault => parts ++ [Text.json fault]
    | _ => parts
  "[" ++ ",".intercalate all ++ "]"

def orderLines (cache : String) (events : List Event) : List Event :=
  events.mergeSort fun a b => decide (¬ b.line cache < a.line cache)

theorem orderLines_perm (cache : String) (events : List Event) :
    (orderLines cache events).Perm events :=
  List.mergeSort_perm events _

end Event

end LiveCache
