/-!
# Outcomes

The result of a computation is a value or a failure. Both sides can be changed independently, and
an outcome is the same thing as an `Except` read in either direction.
-/

namespace LiveCache

inductive Outcome (ε α : Type) where
  | success (value : α)
  | failure (reason : ε)
deriving DecidableEq, Repr

namespace Outcome

variable {ε ε' α α' : Type}

def isSuccess : Outcome ε α → Bool
  | success _ => true
  | failure _ => false

def isFailure : Outcome ε α → Bool
  | success _ => false
  | failure _ => true

def value? : Outcome ε α → Option α
  | success v => some v
  | failure _ => none

def failure? : Outcome ε α → Option ε
  | success _ => none
  | failure e => some e

def map (f : α → α') : Outcome ε α → Outcome ε α'
  | success v => success (f v)
  | failure e => failure e

def mapFailure (f : ε → ε') : Outcome ε α → Outcome ε' α
  | success v => success v
  | failure e => failure (f e)

def toExcept : Outcome ε α → Except ε α
  | success v => .ok v
  | failure e => .error e

def ofExcept : Except ε α → Outcome ε α
  | .ok v => success v
  | .error e => failure e

@[simp] theorem ofExcept_toExcept (o : Outcome ε α) : ofExcept o.toExcept = o := by
  cases o <;> rfl

@[simp] theorem toExcept_ofExcept (x : Except ε α) : (ofExcept x).toExcept = x := by
  cases x <;> rfl

instance [DecidableEq ε] [DecidableEq α] : DecidableEq (Except ε α) := fun x y =>
  decidable_of_iff (ofExcept x = ofExcept y)
    ⟨fun h => by rw [← toExcept_ofExcept x, h, toExcept_ofExcept], fun h => by rw [h]⟩

end Outcome

/-!
## Views

What an observer of a key is shown. Nothing is known at first; later there is an outcome, which is
`done` when it is current and `loading` while a newer one is being computed.
-/

inductive Progress where
  | loading
  | done
deriving DecidableEq, Repr

namespace Progress

/-- An outcome of which nothing else is said is current. -/
def usual : Progress := .done

def name : Progress → String
  | loading => "Loading"
  | done => "Done"

def ofName? (s : String) : Option Progress :=
  if s = "loading" then some .loading
  else if s = "done" then some .done
  else if s = "default" then some usual
  else none

end Progress

inductive View (ε α : Type) where
  | incomplete
  | known (outcome : Outcome ε α) (progress : Progress)
deriving DecidableEq, Repr

def Outcome.withProgress {ε α : Type} (o : Outcome ε α) (p : Progress) : View ε α := .known o p

namespace View

variable {ε α : Type}

/-- A view that shows no outcome is still loading. -/
def progress : View ε α → Progress
  | incomplete => .loading
  | known _ p => p

def isIncomplete : View ε α → Bool
  | incomplete => true
  | known _ _ => false

def isDone : View ε α → Bool
  | known _ .done => true
  | _ => false

def value? (v : View ε α) : Option α :=
  match v with
  | known o _ => o.value?
  | incomplete => none

def failure? (v : View ε α) : Option ε :=
  match v with
  | known o _ => o.failure?
  | incomplete => none

/-- The outcome shown, current or not. -/
def outcome? : View ε α → Option (Outcome ε α)
  | incomplete => none
  | known o _ => some o

/-- The outcome shown, if it is current. -/
def settled? : View ε α → Option (Outcome ε α)
  | known o .done => some o
  | _ => none

@[simp] theorem settled?_withProgress_done (o : Outcome ε α) :
    (o.withProgress .done).settled? = some o := rfl

@[simp] theorem settled?_withProgress_loading (o : Outcome ε α) :
    (o.withProgress .loading).settled? = none := rfl

theorem settled?_eq_some_iff (v : View ε α) (o : Outcome ε α) :
    v.settled? = some o ↔ v = .known o .done := by
  cases v with
  | incomplete => simp [settled?]
  | known o' p => cases p <;> simp [settled?]

theorem isDone_iff_progress (v : View ε α) : v.isDone = true ↔ v.progress = .done := by
  cases v with
  | incomplete => simp [isDone, progress]
  | known o p => cases p <;> simp [isDone, progress]

theorem isDone_iff (v : View ε α) : v.isDone = true ↔ ∃ o, v = .known o .done := by
  cases v with
  | incomplete => simp [isDone]
  | known o p => cases p <;> simp [isDone]

end View

end LiveCache
