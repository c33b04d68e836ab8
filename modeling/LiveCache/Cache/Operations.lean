import LiveCache.Cache.State

/-!
# Operations on a cache

Reading a key makes its entry and asks for its value; writing replaces or outdates the value. Each
operation records what it did and hands the launches it caused to the executor. A retired entry is
never in the table, so the refusals of an entry are not met here.
-/

namespace LiveCache.Cache

variable {κ ε α : Type} [DecidableEq κ]

/-! ## Reading -/

def subscribe (c : Cache κ ε α) (k : κ) : Cache κ ε α × Subscription κ :=
  let found := c.locate k
  match (found.1.entry found.2).subscribe? with
  | none => (found.1, ⟨found.2, none⟩)
  | some (e, launch) => ((found.1.put found.2 e).spawn? found.2 launch, ⟨found.2, none⟩)

def snapshot (c : Cache κ ε α) (k : κ) : Cache κ ε α × View ε α :=
  let found := c.locate k
  match (found.1.entry found.2).snapshot? with
  | none => (found.1, (found.1.entry found.2).latest)
  | some (e, launch) =>
      (((found.1.put found.2 e).spawn? found.2 launch).note (.delivered found.2 e.latest), e.latest)

/-! ## Ending -/

/-- Removes an entry from the table if it is the current one of its key and may be retired. -/
def reclaim (c : Cache κ ε α) (i : EntryId κ) : Cache κ ε α :=
  if c.current? i.key = some i then
    let r := (c.entry i).retire
    if r.2 then
      let c := c.put i r.1
      ({ c with table := c.table.erase i.key }.note (.removed i)).record .reclaimed r.1.generation
    else c
  else c

/-- What follows when the last subscription of an entry ends. A cache that keeps entries only while
they are observed stops the computation and forgets the entry. -/
def unobserved (c : Cache κ ε α) (i : EntryId κ) : Cache κ ε α :=
  if c.settings.retention = .whileObserved then
    let abandoned := (c.entry i).abandon
    let c := c.put i abandoned.1
    let c := match abandoned.2 with
      | none => c
      | some generation => c.record .cancelled generation
    c.reclaim i
  else c

/-- Ends a subscription of an entry. -/
def unsubscribe (c : Cache κ ε α) (i : EntryId κ) : Cache κ ε α :=
  let e := (c.entry i).unsubscribe
  let c := c.put i e
  if e.subscribers = 0 then c.unobserved i else c

/-- Removes what nobody observes and nothing is computed for, and tells how much that was. -/
def sweep (c : Cache κ ε α) : Cache κ ε α × Nat :=
  if c.settings.retention = .forever then (c, 0)
  else
    let swept := c.ids.foldl reclaim c
    (swept, c.len - swept.len)

/-! ## Writing -/

/-- Records a write, and the computation it has stopped: the one of the generation before. -/
def recordTransition (c : Cache κ ε α) (a : Activity) (t : Transition) : Cache κ ε α :=
  let c := c.record a t.generation
  if t.cancelled then c.record .cancelled (t.generation - 1) else c

def set (c : Cache κ ε α) (k : κ) (value : α) : Cache κ ε α :=
  let found := (c.note (.installed k value)).locate k
  match (found.1.entry found.2).set? c.settings.stale value with
  | none => found.1
  | some (e, t) => (found.1.put found.2 e).recordTransition .installed t

def expireEntry (c : Cache κ ε α) (i : EntryId κ) : Cache κ ε α :=
  match (c.entry i).expire? c.settings.stale with
  | none => c
  | some (e, t) => ((c.put i e).recordTransition .expired t).spawn? i t.launch

/-- A key that is not in the table has nothing to expire. -/
def expire (c : Cache κ ε α) (k : κ) : Cache κ ε α :=
  let c := c.note (.expired k)
  match c.current? k with
  | none => c
  | some i => c.expireEntry i

def expireAll (c : Cache κ ε α) : Cache κ ε α :=
  c.ids.foldl expireEntry ((c.note .expiredAll).record .expiredAll c.len)

/-! ## Results -/

/-- Hands the result of a task to its entry. -/
def settle (c : Cache κ ε α) (t : Task κ) (o : Outcome ε α) : Cache κ ε α :=
  let settled := (c.entry t.entry).settle c.settings.stale t.launch.generation o
  let c := (c.note (.returned t.id o)).put t.entry settled.1
  match settled.2 with
  | .accepted => c.record .settled t.launch.generation
  | .discarded relaunch =>
      (c.record .discarded t.launch.generation).spawn? t.entry relaunch

/-! ## The end of the cache -/

/-- The last owner is gone: whatever is still computed is told to stop. -/
def close (c : Cache κ ε α) : Cache κ ε α :=
  { c.ids.foldl (fun c i => c.put i (c.entry i).abort) c with alive := false }

end LiveCache.Cache
