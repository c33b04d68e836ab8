import LiveCache.Text.Quoted
import LiveCache.Text.Whole

/-!
# Faults

A fault is an unforeseen failure of a computation, known by its cause. Two faults are equal when
their causes read the same, whatever they were made of.
-/

namespace LiveCache

/-- What a panicking computation leaves behind: a text, or a value that cannot be read as one. -/
inductive PanicPayload where
  | text (message : String)
  | other
deriving DecidableEq, Repr

namespace PanicPayload

def message : PanicPayload → String
  | text s => s
  | other => "non-string panic payload"

end PanicPayload

/-- A precondition that a caller has broken. -/
inductive Misuse where
  | asyncContext
deriving DecidableEq, Repr

namespace Misuse

def message : Misuse → String
  | asyncContext => "blocking cache access from within an async runtime context"

def name : Misuse → String
  | asyncContext => "AsyncContext"

end Misuse

inductive Cause where
  | message (text : String)
  | panicked (message : String)
  | number (error : Text.WholeError)
  | misuse (error : Misuse)
  /-- Another fault, known by its own cause. -/
  | fault (inner : Cause)
  /-- An error with a text of its own that was brought about by another fault. -/
  | wrapped (text : String) (inner : Cause)
deriving DecidableEq, Repr

structure Fault where
  cause : Cause
deriving DecidableEq, Repr

namespace Cause

/-- What a reader is told. -/
def display : Cause → String
  | message s => s
  | panicked s => "computation panicked: " ++ s
  | number e => e.message
  | misuse e => e.message
  | fault c => "unknown computation fault: " ++ c.display
  | wrapped s _ => s

/-- What a developer is told: how the cause was made. -/
def describe : Cause → String
  | message s => Text.quoted s
  | panicked s => "Panicked(" ++ Text.quoted s ++ ")"
  | number e => "ParseIntError \x7b kind: " ++ e.name ++ " \x7d"
  | misuse e => e.name
  | fault c => "Fault \x7b cause: " ++ c.describe ++ " \x7d"
  | wrapped s c =>
      "Wrapped(" ++ Text.quoted s ++ ", Fault \x7b cause: " ++ c.describe ++ " \x7d)"

/-- The fault that brought the cause about. -/
def source? : Cause → Option Fault
  | wrapped _ c => some ⟨c⟩
  | _ => none

end Cause

namespace Fault

def ofPanic (p : PanicPayload) : Fault := ⟨.panicked p.message⟩

def display (f : Fault) : String := (Cause.fault f.cause).display

def describe (f : Fault) : String := (Cause.fault f.cause).describe

/-- A fault hides where it came from: only its cause is known. -/
def source? (_ : Fault) : Option Fault := none

def same (f g : Fault) : Bool := f.cause.display == g.cause.display

@[simp] theorem same_self (f : Fault) : f.same f = true := by simp [same]

end Fault

/-- Why a computation failed: by a returned failure of the domain, or by a fault. -/
inductive Failure where
  | domain (text : String)
  | fault (fault : Fault)
deriving DecidableEq, Repr

end LiveCache
