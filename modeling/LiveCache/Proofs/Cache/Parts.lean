import LiveCache.Cache.Observers
import LiveCache.Proofs.Entry.Soundness

/-! # The parts of a cache that an operation leaves alone

Putting an entry, recording an event, noting a happening and handing out a launch each change one
part of a cache. Everything that is said about larger operations is put together from these.
-/

namespace LiveCache.Cache

variable {κ ε α : Type}

/-! ## Notes and records -/

section Reports

variable (c : Cache κ ε α) (h : Happening κ ε α) (a : Activity) (n : Nat)

@[simp] theorem note_settings : (c.note h).settings = c.settings := rfl

@[simp] theorem note_entries : (c.note h).entries = c.entries := rfl

@[simp] theorem note_created : (c.note h).created = c.created := rfl

@[simp] theorem note_table : (c.note h).table = c.table := rfl

@[simp] theorem note_observers : (c.note h).observers = c.observers := rfl

@[simp] theorem note_tasks : (c.note h).tasks = c.tasks := rfl

@[simp] theorem note_alive : (c.note h).alive = c.alive := rfl

@[simp] theorem note_log : (c.note h).log = c.log := rfl

@[simp] theorem note_history : (c.note h).history = h :: c.history := rfl

@[simp] theorem record_settings :
    (c.record a n).settings = c.settings := by unfold record; split <;> rfl

@[simp] theorem record_entries :
    (c.record a n).entries = c.entries := by unfold record; split <;> rfl

@[simp] theorem record_created :
    (c.record a n).created = c.created := by unfold record; split <;> rfl

@[simp] theorem record_table : (c.record a n).table = c.table := by unfold record; split <;> rfl

@[simp] theorem record_observers :
    (c.record a n).observers = c.observers := by unfold record; split <;> rfl

@[simp] theorem record_tasks : (c.record a n).tasks = c.tasks := by unfold record; split <;> rfl

@[simp] theorem record_spawned :
    (c.record a n).spawned = c.spawned := by unfold record; split <;> rfl

@[simp] theorem record_history :
    (c.record a n).history = c.history := by unfold record; split <;> rfl

@[simp] theorem record_alive : (c.record a n).alive = c.alive := by unfold record; split <;> rfl

end Reports

/-- No key is met twice on a walk over the table. -/
theorem nodup_ids_keys (c : Cache κ ε α) : (c.ids.map (·.key)).Nodup := by
  have keys := c.table.nodup
  rwa [show c.table.pairs.map (·.1) = c.ids.map (·.key) by simp [ids]] at keys

variable [DecidableEq κ]

section Parts

variable (c : Cache κ ε α)

@[simp] theorem note_entry (h : Happening κ ε α) : (c.note h).entry = c.entry := rfl

@[simp] theorem note_current? (h : Happening κ ε α) : (c.note h).current? = c.current? := rfl

@[simp] theorem record_entry (a : Activity) (n : Nat) : (c.record a n).entry = c.entry := by
  funext j
  simp [entry]

@[simp] theorem record_current? (a : Activity) (n : Nat) :
    (c.record a n).current? = c.current? := by
  funext k
  simp [current?]

/-! ## Entries -/

variable (i : EntryId κ) (e : Entry ε α)

@[simp] theorem put_settings : (c.put i e).settings = c.settings := rfl

@[simp] theorem put_created : (c.put i e).created = c.created := rfl

@[simp] theorem put_table : (c.put i e).table = c.table := rfl

@[simp] theorem put_observers : (c.put i e).observers = c.observers := rfl

@[simp] theorem put_tasks : (c.put i e).tasks = c.tasks := rfl

@[simp] theorem put_spawned : (c.put i e).spawned = c.spawned := rfl

@[simp] theorem put_log : (c.put i e).log = c.log := rfl

@[simp] theorem put_history : (c.put i e).history = c.history := rfl

@[simp] theorem put_alive : (c.put i e).alive = c.alive := rfl

@[simp] theorem put_current? : (c.put i e).current? = c.current? := rfl

/-! ## Launches -/

variable (handed : Option Launch)

@[simp] theorem spawn?_settings :
    (c.spawn? i handed).settings = c.settings := by
  cases handed <;> simp [spawn?, spawn]

@[simp] theorem spawn?_entries :
    (c.spawn? i handed).entries = c.entries := by
  cases handed <;> simp [spawn?, spawn]

@[simp] theorem spawn?_created :
    (c.spawn? i handed).created = c.created := by
  cases handed <;> simp [spawn?, spawn]

@[simp] theorem spawn?_table :
    (c.spawn? i handed).table = c.table := by
  cases handed <;> simp [spawn?, spawn]

@[simp] theorem spawn?_observers :
    (c.spawn? i handed).observers = c.observers := by
  cases handed <;> simp [spawn?, spawn]

@[simp] theorem spawn?_history :
    (c.spawn? i handed).history = c.history := by
  cases handed <;> simp [spawn?, spawn]

@[simp] theorem spawn?_alive :
    (c.spawn? i handed).alive = c.alive := by
  cases handed <;> simp [spawn?, spawn]

@[simp] theorem spawn?_entry : (c.spawn? i handed).entry = c.entry := by
  funext j
  simp [entry]

/-- The task that a launch becomes. -/
def taskOf (l : Launch) : Task κ := ⟨⟨i.key, Tally.count c.spawned i.key⟩, i, l⟩

theorem spawn?_tasks :
    (c.spawn? i handed).tasks = c.tasks ++ (handed.map (c.taskOf i)).toList := by
  cases handed <;> simp [spawn?, spawn, taskOf]

theorem spawn?_spawned (k : κ) :
    Tally.count (c.spawn? i handed).spawned k =
      Tally.count c.spawned k + if i.key = k then handed.toList.length else 0 := by
  cases handed with
  | none => simp [spawn?]
  | some l =>
      simp only [spawn?, spawn, record_spawned, Tally.count_bump]
      split
      next same => simp [same]
      next => simp

end Parts

/-! ## The entry that the table holds -/

/-- The entry is the one that the table holds for its key. -/
def Holds (c : Cache κ ε α) (i : EntryId κ) : Prop := c.current? i.key = some i

theorem current?_key {c : Cache κ ε α} {k : κ} {i : EntryId κ} (h : c.current? k = some i) :
    i.key = k := by
  obtain ⟨n, -, rfl⟩ := Option.map_eq_some_iff.1 h
  rfl

theorem holds_of_current? {c : Cache κ ε α} {k : κ} {i : EntryId κ} (h : c.current? k = some i) :
    c.Holds i := by
  unfold Holds
  rw [current?_key h, h]

theorem holds_iff (c : Cache κ ε α) (i : EntryId κ) :
    c.Holds i ↔ c.table.find? i.key = some i.ordinal := by
  unfold Holds current?
  cases c.table.find? i.key with
  | none => simp
  | some n =>
      obtain ⟨k, m⟩ := i
      simp

theorem Holds.unique {c : Cache κ ε α} {i j : EntryId κ} (hi : c.Holds i) (hj : c.Holds j)
    (same : i.key = j.key) : i = j := by
  unfold Holds at hi hj
  rw [same, hj] at hi
  exact (Option.some.inj hi).symm

theorem mem_ids_iff (c : Cache κ ε α) (i : EntryId κ) : i ∈ c.ids ↔ c.Holds i := by
  rw [holds_iff, Registry.find?_eq_some_iff]
  obtain ⟨k, n⟩ := i
  simp [ids]

end LiveCache.Cache
