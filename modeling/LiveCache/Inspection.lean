import LiveCache.Outcome
import LiveCache.Text.Quoted

/-!
# Inspections

An inspection looks at one outcome, view or result, asks questions about it, and turns it into the
other forms. A question that the present form has no answer to leaves it as it is.
-/

namespace LiveCache.Inspection

/-- What an inspected outcome carries, on either side. -/
inductive Payload where
  | number (n : Int64)
  | text (s : String)
deriving DecidableEq, Repr

namespace Payload

def describe : Payload → String
  | number n => toString n
  | text s => Text.quoted s

end Payload

/-- A function on payloads. -/
inductive Change where
  | negate
  | double
  | spell
  | measure
  | keep
deriving DecidableEq, Repr

namespace Change

def ofName (s : String) : Change :=
  if s = "negate" then .negate
  else if s = "double" then .double
  else if s = "show" then .spell
  else if s = "len" then .measure
  else .keep

/-- Numbers are negated, doubled and spelled, texts are doubled and measured in bytes; all else stays
as it is. -/
def apply : Change → Payload → Payload
  | negate, .number n => .number (-n)
  | double, .number n => .number (n + n)
  | spell, .number n => .text (toString n)
  | double, .text s => .text (s ++ s)
  | measure, .text s => .number (Int64.ofNat s.utf8ByteSize)
  | _, p => p

end Change

/-- What is under inspection. -/
inductive Subject where
  | outcome (o : Outcome Payload Payload)
  | view (v : View Payload Payload)
  | result (r : Except Payload Payload)
  | nothing
deriving DecidableEq, Repr

namespace Subject

def ofOutcome? : Option (Outcome Payload Payload) → Subject
  | none => nothing
  | some o => outcome o

def describe : Subject → String
  | outcome (.success v) => "Success(" ++ v.describe ++ ")"
  | outcome (.failure e) => "Failure(" ++ e.describe ++ ")"
  | view .incomplete => "Incomplete"
  | view (.known (.success v) p) =>
      "Success \x7b value: " ++ v.describe ++ ", progress: " ++ p.name ++ " \x7d"
  | view (.known (.failure e) p) =>
      "Failure \x7b failure: " ++ e.describe ++ ", progress: " ++ p.name ++ " \x7d"
  | result (.ok v) => "Ok(" ++ v.describe ++ ")"
  | result (.error e) => "Err(" ++ e.describe ++ ")"
  | nothing => "None"

end Subject

/-- A question or a conversion. An option is a part that could not be read. -/
inductive Request where
  | describe
  | compare (other : Option Subject)
  | isSuccess
  | isFailure
  | value
  | failure
  | map (f : Change)
  | mapFailure (f : Change)
  | toResult
  | withProgress (p : Option Progress)
  | toView
  | ofResult
  | progress
  | isDone
  | isIncomplete
  | toOutcome
  | toSettled
  | unknown
deriving DecidableEq, Repr

inductive Answer where
  | nothing
  | illFormed
  | badValue
  | text (s : String)
  | flag (b : Bool)
  | payload (p : Option Payload)
  | progress (p : Progress)
  /-- Whether the function of a mapping was called. -/
  | called (b : Bool)
  /-- Whether two values are equal. Equal values have one hash, and unequal ones have two. -/
  | same (b : Bool)
deriving DecidableEq, Repr

open Answer (illFormed badValue)

def ofOutcome (o : Outcome Payload Payload) : Request → Subject × Answer
  | .isSuccess => (.outcome o, .flag o.isSuccess)
  | .isFailure => (.outcome o, .flag o.isFailure)
  | .value => (.outcome o, .payload o.value?)
  | .failure => (.outcome o, .payload o.failure?)
  | .map f => (.outcome (o.map f.apply), .called o.isSuccess)
  | .mapFailure f => (.outcome (o.mapFailure f.apply), .called o.isFailure)
  | .toResult => (.result o.toExcept, .nothing)
  | .withProgress none => (.outcome o, badValue)
  | .withProgress (some p) => (.view (o.withProgress p), .nothing)
  | .toView => (.view (o.withProgress .usual), .nothing)
  | _ => (.outcome o, illFormed)

def ofView (v : View Payload Payload) : Request → Subject × Answer
  | .progress => (.view v, .progress v.progress)
  | .isDone => (.view v, .flag v.isDone)
  | .isIncomplete => (.view v, .flag v.isIncomplete)
  | .value => (.view v, .payload v.value?)
  | .failure => (.view v, .payload v.failure?)
  | .toOutcome => (.ofOutcome? v.outcome?, .nothing)
  | .toSettled => (.ofOutcome? v.settled?, .nothing)
  | _ => (.view v, illFormed)

def ofResult (r : Except Payload Payload) : Request → Subject × Answer
  | .ofResult => (.outcome (.ofExcept r), .nothing)
  | _ => (.result r, illFormed)

/-- Answers a request, and gives what is under inspection after it. -/
def step (x : Subject) : Request → Subject × Answer
  | .describe => (x, .text x.describe)
  | .compare none => (x, badValue)
  | .compare (some y) => (x, .same (x = y))
  | r =>
      match x with
      | .outcome o => ofOutcome o r
      | .view v => ofView v r
      | .result e => ofResult e r
      | .nothing => (x, illFormed)

/-- The answers to a list of requests, each with what is under inspection after it. -/
def run (x : Subject) : List Request → List (Subject × Answer)
  | [] => []
  | r :: rest =>
      let stepped := step x r
      stepped :: run stepped.1 rest

end LiveCache.Inspection
