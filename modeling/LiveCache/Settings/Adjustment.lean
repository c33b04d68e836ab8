import LiveCache.Settings

/-!
# Adjustments

A draft of settings is adjusted step by step. The first adjustment that cannot be made ends it.
-/

namespace LiveCache.Draft

inductive Adjustment where
  | name (s : String)
  | retention (r : Retention)
  | stale (p : StalePolicy)
  | logs (b : Bool)
  | capacity (n : Nat)
  | shards (n : Nat)
  | spawner (s : Spawner)
deriving DecidableEq, Repr

def adjust (d : Draft) : Adjustment → Except InvalidShards Draft
  | .name s => .ok { d with name := s }
  | .retention r => .ok { d with retention := r }
  | .stale p => .ok { d with stale := p }
  | .logs b => .ok { d with logs := b }
  | .capacity n => .ok { d with capacity := n }
  | .shards n => d.setShards n
  | .spawner s => .ok { d with spawner := some s }

/-- Why a list of adjustments ended early. -/
inductive Stop where
  | unreadable
  | invalidShards (e : InvalidShards)
deriving DecidableEq, Repr

/-- The drafts that a list of adjustments leads through. `none` is one that could not be read. -/
def history (d : Draft) : List (Option Adjustment) → List Draft × Except Stop Draft
  | [] => ([d], .ok d)
  | none :: _ => ([d], .error .unreadable)
  | some a :: rest =>
      match d.adjust a with
      | .error e => ([d], .error (.invalidShards e))
      | .ok next =>
          let later := next.history rest
          (d :: later.1, later.2)

end LiveCache.Draft
