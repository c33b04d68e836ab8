/-!
# Channels

A channel holds the latest of the values published on it. Its version is the number of
publications, so a reader that remembers a version knows whether it has missed something. The
earlier values are kept, newest first: they are the history that a reader may have seen.
-/

namespace LiveCache

structure Channel (α : Type) where
  latest : α
  earlier : List α := []
deriving DecidableEq, Repr

namespace Channel

variable {α : Type}

def publish (c : Channel α) (a : α) : Channel α := ⟨a, c.latest :: c.earlier⟩

def version (c : Channel α) : Nat := c.earlier.length

/-- All values from the first to the latest. -/
def history (c : Channel α) : List α := (c.latest :: c.earlier).reverse

@[simp] theorem latest_publish (c : Channel α) (a : α) : (c.publish a).latest = a := rfl

@[simp] theorem version_publish (c : Channel α) (a : α) :
    (c.publish a).version = c.version + 1 := rfl

theorem history_publish (c : Channel α) (a : α) : (c.publish a).history = c.history ++ [a] := by
  simp [history, publish]

/-- What a reader is given who last saw the version `seen`: the latest value, unless it is the one
already seen. A reader who has seen nothing is always given a value. -/
def unseen (c : Channel α) (seen : Option Nat) : Option α :=
  if seen = some c.version then none else some c.latest

@[simp] theorem unseen_none (c : Channel α) : c.unseen none = some c.latest := rfl

@[simp] theorem unseen_version (c : Channel α) : c.unseen (some c.version) = none := by
  simp [unseen]

/-- Whoever is given a value is given the latest one. -/
theorem latest_of_unseen {c : Channel α} {seen : Option Nat} {a : α}
    (given : c.unseen seen = some a) :
    c.latest = a := by
  unfold unseen at given
  split at given
  next => cases given
  next => exact Option.some.inj given

end Channel

end LiveCache
