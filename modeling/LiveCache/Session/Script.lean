import LiveCache.Fault

/-!
# Scripts

A script is what a session is told to do: steps that use a cache, and a plan that says how its
computations behave. A computation may itself carry out steps, so both are plain data.

The parts of a request that may be missing are options. A request with a missing part is answered as
ill-formed when that part is reached, which is after the object it is addressed to was found.
-/

namespace LiveCache.Session

abbrev Key := String

abbrev Value := Int64

abbrev Name := String

/-- What can be asked of a cache through one of its handles. `keep` names the new object. -/
inductive CacheRequest where
  | get (key : Option Key) (keep : Option Name)
  | snapshot (key : Option Key)
  | now (key : Option Key) (keep : Option Name)
  | set (key : Option Key) (value : Option Value)
  | expire (key : Option Key)
  | expireAll
  | sweep
  | len
  | isEmpty
  | name
  | describe
  | subscriberCount (key : Option Key)
  | armed
  | ttl
  | clone (keep : Option Name)
  | backbone (title : Option String) (own : Bool) (keep : Option Name)
deriving DecidableEq, Repr

inductive SubscriptionRequest where
  | next
  | drain
  | settled
  | describe
  | drop
deriving DecidableEq, Repr

inductive WaitRequest where
  | poll
  | cancel
deriving DecidableEq, Repr

inductive BackboneRequest where
  | clone (keep : Option Name)
  | info
  | drop
  | reference (key : Option Key) (keep : Option Name)
deriving DecidableEq, Repr

inductive RefRequest where
  | clone (keep : Option Name)
  | info
  | drop
  | request (keep : Option Name)
  | now (keep : Option Name)
  | snapshot
  | expire
  | same (other : Option Name)
deriving DecidableEq, Repr

/-- A request and the object it is addressed to. -/
inductive Command where
  | cache (handle : Name) (request : CacheRequest)
  | dropHandle (id : Option Name)
  | subscription (id : Option Name) (request : SubscriptionRequest)
  | wait (id : Option Name) (request : WaitRequest)
  | backbone (id : Option Name) (request : BackboneRequest)
  | ref (id : Option Name) (request : RefRequest)
  | distinct (refs : Option (List (Option Name)))
deriving DecidableEq, Repr

/-- Which of the tasks in the executor's list is meant: the first or the last that fits. -/
structure Pick where
  task : Option String := none
  key : Option Key := none
  last : Bool := false
deriving DecidableEq, Repr

inductive Step where
  | command (c : Command)
  | run (pick : Pick)
  | runAll (rounds : Nat)
  | dropTask (pick : Pick)
  | advance (time : Option Nat)
  | unknown
deriving DecidableEq, Repr

/-! ## Computations -/

/-- How a computation ends. -/
inductive Ending where
  /-- With the sum of the needed values and a number. -/
  | value (n : Value)
  | fail (text : String)
  | panic (payload : PanicPayload)
  /-- Never. -/
  | hang
  /-- With the number that the key spells. -/
  | parse
  /-- With the sum and the length of the key in bytes. -/
  | length
  /-- With the sum and the number of earlier calls for the key. -/
  | nth
deriving DecidableEq, Repr

/-- A computation panics at once, or pauses, carries out steps, awaits the keys that it needs, and
ends. -/
structure Behaviour where
  panicEarly : Option String := none
  pauses : Nat := 0
  steps : List Step := []
  needs : List Key := []
  ending : Ending := .nth
deriving DecidableEq, Repr

/-- The behaviours of the computations of each key, one per call, and the one of all other calls. -/
structure Plan where
  calls : List (Key × List Behaviour) := []
  fallback : Behaviour := {}
deriving DecidableEq, Repr

namespace Plan

def behaviour (p : Plan) (k : Key) (call : Nat) : Behaviour :=
  match (p.calls.find? fun entry => entry.1 == k) with
  | none => p.fallback
  | some entry => entry.2[call]?.getD p.fallback

end Plan

end LiveCache.Session
