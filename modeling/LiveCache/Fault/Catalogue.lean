import LiveCache.Fault

/-!
# Catalogues of faults

Faults are made one after another from descriptions of their causes. A later cause may refer to a
fault made before it by its index; a description that cannot be followed makes no fault and takes no
index.
-/

namespace LiveCache.Fault

/-- What a fault is to be made of. An option is a part that could not be read. -/
inductive Origin where
  | message (text : Option String)
  | panic (payload : Option PanicPayload)
  /-- The error met when the text is read as a whole number. -/
  | reading (text : Option String)
  | misuse (m : Misuse)
  | again (index : Option Nat)
  | nested (index : Option Nat)
  | wrapped (text : Option String) (index : Option Nat)
  | unknown
deriving DecidableEq, Repr

def refer? (made : List Fault) (index : Option Nat) : Option Fault := index.bind (made[·]?)

def ofReading? (text : String) : Option Fault :=
  match Text.whole text with
  | .ok _ => none
  | .error e => some ⟨.number e⟩

/-- The fault of an origin, given the faults made so far. -/
def make? (made : List Fault) : Origin → Option Fault
  | .message text => text.map fun s => ⟨.message s⟩
  | .panic payload => payload.map ofPanic
  | .reading text => text.bind ofReading?
  | .misuse m => some ⟨.misuse m⟩
  | .again index => refer? made index
  | .nested index => (refer? made index).map fun f => ⟨.fault f.cause⟩
  | .wrapped text index =>
      text.bind fun s => (refer? made index).map fun f => ⟨.wrapped s f.cause⟩
  | .unknown => none

/-- A fault, and which of the faults made before it are the same. -/
structure Listing where
  fault : Fault
  same : List Bool
deriving DecidableEq, Repr

/-- Makes faults after those that are there already. -/
def catalogue (made : List Fault) : List Origin → List (Option Listing)
  | [] => []
  | o :: rest =>
      match make? made o with
      | none => none :: catalogue made rest
      | some f => some ⟨f, made.map f.same⟩ :: catalogue (made ++ [f]) rest

end LiveCache.Fault
