/-!
# Probes

A probe counts how often something was done. Clones of a probe share its counter.
-/

namespace LiveCache.Testing

structure Probes where
  counters : List Nat := [0]
  /-- The counter of each probe. -/
  owners : List Nat := [0]
deriving DecidableEq, Repr

namespace Probes

/-- The counter of a probe. Numbers past the last probe start over at the first. -/
def counter (p : Probes) (probe : Nat) : Nat := (p.owners[probe % p.owners.length]?).getD 0

def calls (p : Probes) (probe : Nat) : Nat := (p.counters[p.counter probe]?).getD 0

/-- Counts a call, and tells how many there were before it. -/
def hit (p : Probes) (probe : Nat) : Probes × Nat :=
  ({ p with counters := p.counters.modify (p.counter probe) (· + 1) }, p.calls probe)

/-- A probe with a counter of its own, and its number. -/
def create (p : Probes) : Probes × Nat :=
  ({ counters := p.counters ++ [0], owners := p.owners ++ [p.counters.length] }, p.owners.length)

/-- A probe that shares the counter of another, and its number. -/
def clone (p : Probes) (probe : Nat) : Probes × Nat :=
  ({ p with owners := p.owners ++ [p.counter probe] }, p.owners.length)

end Probes

end LiveCache.Testing
