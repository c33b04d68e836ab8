/-!
# Reading whole numbers

A signed 64-bit number is written as ASCII digits behind at most one sign. Reading goes from left
to right and stops at the first digit that is none, or that leaves the range.
-/

namespace LiveCache.Text

inductive WholeError where
  | empty
  | invalidDigit
  | tooLarge
  | tooSmall
deriving DecidableEq, Repr

namespace WholeError

def message : WholeError → String
  | empty => "cannot parse integer from empty string"
  | invalidDigit => "invalid digit found in string"
  | tooLarge => "number too large to fit in target type"
  | tooSmall => "number too small to fit in target type"

def name : WholeError → String
  | empty => "Empty"
  | invalidDigit => "InvalidDigit"
  | tooLarge => "PosOverflow"
  | tooSmall => "NegOverflow"

end WholeError

def digit? (c : Char) : Option Nat :=
  if '0' ≤ c ∧ c ≤ '9' then some (c.toNat - '0'.toNat) else none

/-- Reads digits behind the number `n`, whose absolute value may not exceed `limit`. -/
def digitsFrom (limit : Nat) (overflow : WholeError) (n : Nat) : List Char → Except WholeError Nat
  | [] => .ok n
  | c :: rest =>
      match digit? c with
      | none => .error .invalidDigit
      | some d =>
          if 10 * n + d ≤ limit then digitsFrom limit overflow (10 * n + d) rest
          else .error overflow

def digits (limit : Nat) (overflow : WholeError) : List Char → Except WholeError Nat
  | [] => .error .invalidDigit
  | cs => digitsFrom limit overflow 0 cs

/-- The largest number. The smallest one lies one further from zero. -/
def largest : Nat := 9223372036854775807

def whole (s : String) : Except WholeError Int64 :=
  match s.toList with
  | [] => .error .empty
  | '+' :: rest => (digits largest .tooLarge rest).map Int64.ofNat
  | '-' :: rest => (digits (largest + 1) .tooSmall rest).map fun n => Int64.ofInt (-n)
  | cs => (digits largest .tooLarge cs).map Int64.ofNat

end LiveCache.Text
