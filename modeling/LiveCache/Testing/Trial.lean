import LiveCache.Fault
import LiveCache.Outcome
import LiveCache.Testing.Capture
import LiveCache.Testing.Probe

/-!
# Trials

A trial puts the aids for testing to use: probes, a captured log, and jobs that are given up when
they panic.
-/

namespace LiveCache.Testing

/-- A job on the side gives its result, or nothing if it has panicked. -/
def resultOf? {α : Type} (job : Outcome PanicPayload α) : Option α := job.value?

structure Trial where
  probes : Probes := {}
  capture : Capture := {}
deriving DecidableEq, Repr

namespace Trial

/-- What is asked of the aids; parts that may be missing are options. -/
inductive Request where
  | newProbe
  | cloneProbe (probe : Nat)
  | hit (probe : Nat)
  | calls (probe : Nat)
  | execute (text : Option String)
  | executePanic
  | log (level : Option Level) (text : Option String) (number : Option Int64)
  | output
  | contains (text : Option String)
  | lacks (text : Option String)
  | unknown
deriving DecidableEq, Repr

inductive Answer where
  | nothing
  | illFormed
  | number (n : Nat)
  | text (s : String)
  | lines (l : List String)
  /-- An assertion that holds, or what it says when it fails. -/
  | asserted (failure : Option String)
deriving DecidableEq, Repr

def counted (t : Trial) (r : Probes × Nat) : Trial × Answer :=
  ({ t with probes := r.1 }, .number r.2)

def Answer.ofAssertion : Except String Unit → Answer
  | .ok () => .asserted none
  | .error message => .asserted (some message)

def Answer.ofResult : Option String → Answer
  | none => .nothing
  | some s => .text s

def step (t : Trial) : Request → Trial × Answer
  | .newProbe => t.counted t.probes.create
  | .cloneProbe p => t.counted (t.probes.clone p)
  | .hit p => t.counted (t.probes.hit p)
  | .calls p => (t, .number (t.probes.calls p))
  | .execute (some s) => (t, .ofResult (resultOf? (.success s)))
  | .executePanic => (t, .ofResult (resultOf? (.failure .other)))
  | .log (some level) (some text) (some number) =>
      ({ t with capture := t.capture.add ⟨level, text, number⟩ }, .nothing)
  | .output => (t, .lines t.capture.output)
  | .contains (some s) => (t, .ofAssertion (t.capture.assertContains s))
  | .lacks (some s) => (t, .ofAssertion (t.capture.assertLacks s))
  | _ => (t, .illFormed)

def run (t : Trial) : List Request → List Answer
  | [] => []
  | r :: rest =>
      let stepped := t.step r
      stepped.2 :: stepped.1.run rest

end Trial

end LiveCache.Testing
