import LiveCache.Proofs.Cache.Commuting
import LiveCache.Proofs.Entry.Surplus

/-! # Caches that differ in what came to nothing

A cache may differ from another one in an entry with a surplus: each launch of the surplus has a
task, which was told to stop. The later tasks of the key have later numbers. Its log and its history
tell of the surplus, and of everything after that they tell the same.

Whatever is done with both caches, the answers are the same and the difference stays as it is.
-/

namespace LiveCache

/-! ## The difference -/

/-- What a cache has in excess of another one. -/
structure Excess (κ ε α : Type) where
  /-- The entry with the surplus. -/
  entry : EntryId κ
  surplus : Surplus
  /-- The number of the first task of the surplus. -/
  ordinal : Nat
  /-- What both logs begin with. -/
  log : List Event
  /-- What the log tells of the surplus. -/
  events : List Event
  /-- What both histories begin with. -/
  past : List (Happening κ ε α)
  /-- What the history tells of the surplus. -/
  marks : List (Happening κ ε α)

namespace Excess

variable {κ ε α : Type} [DecidableEq κ] (x : Excess κ ε α)

/-- The surplus of each entry. -/
def surplusAt (i : EntryId κ) : Surplus := if i = x.entry then x.surplus else {}

/-- The number of tasks that the key has in excess. -/
def more (k : κ) : Nat := if k = x.entry.key then x.surplus.more else 0

def task (u : TaskId κ) : TaskId κ := ⟨u.key, skip x.ordinal (x.more u.key) u.ordinal⟩

/-- The task is one that the other cache has not made. -/
def Spare (u : TaskId κ) : Prop := x.ordinal ≤ u.ordinal ∧ u.ordinal < x.ordinal + x.more u.key

instance (u : TaskId κ) : Decidable (x.Spare u) := inferInstanceAs (Decidable (_ ∧ _))

def listed (u : Task κ) : Task κ := ⟨x.task u.id, u.entry, (x.surplusAt u.entry).launch u.launch⟩

def happening : Happening κ ε α → Happening κ ε α
  | .called u => .called (x.task u)
  | .returned u o => .returned (x.task u) o
  | .installed k value => .installed k value
  | .expired k => .expired k
  | .expiredAll => .expiredAll
  | .removed i => .removed i
  | .armed k time => .armed k time
  | .delivered i v => .delivered i v

/-- The event tells the same, if of the key with the surplus then of a later generation. -/
def Matches (e e' : Event) : Prop :=
  e' = e ∨ e' = ⟨e.activity, x.surplus.generation e.number⟩

variable {x}

theorem matches_at (i : EntryId κ) (a : Activity) (n : Nat) :
    x.Matches ⟨a, n⟩ ⟨a, (x.surplusAt i).generation n⟩ := by
  unfold Matches Excess.surplusAt
  split
  next => exact .inr rfl
  next => exact .inl (by rw [Surplus.generation_default])

theorem matches_at_of_le {i : EntryId κ} {n : Nat} (late : (x.surplusAt i).since ≤ n) (a : Activity) :
    x.Matches ⟨a, n⟩ ⟨a, n + (x.surplusAt i).raised⟩ := by
  have same : (x.surplusAt i).generation n = n + (x.surplusAt i).raised := skip_of_le late
  exact same ▸ matches_at i a n

theorem task_injective : Function.Injective x.task := by
  rintro ⟨k, m⟩ ⟨k', n⟩ same
  obtain ⟨rfl, ordinal⟩ := TaskId.mk.inj same
  exact congrArg _ (skip_inj.1 ordinal)

theorem not_spare_task (u : TaskId κ) : ¬ x.Spare (x.task u) := skip_not_mem

theorem listed_injective : Function.Injective x.listed := by
  rintro ⟨u, i, l⟩ ⟨v, j, m⟩ same
  obtain ⟨ids, entries, launches⟩ := Task.mk.inj same
  obtain rfl : i = j := entries
  obtain rfl : u = v := task_injective ids
  obtain rfl : l = m := Surplus.launch_injective launches
  rfl

theorem called_mem_map_iff (u : TaskId κ) (w : List (Happening κ ε α)) :
    .called (x.task u) ∈ w.map x.happening ↔ .called u ∈ w := by
  rw [List.mem_map]
  constructor
  · rintro ⟨h, mem, same⟩
    cases h with
    | called v => exact task_injective (Happening.called.inj same) ▸ mem
    | _ => cases same
  · exact fun mem => ⟨_, mem, rfl⟩

theorem exists_task_of_called {u : TaskId κ} {w : List (Happening κ ε α)}
    (called : .called u ∈ w.map x.happening) : ∃ v, u = x.task v := by
  obtain ⟨h, -, same⟩ := List.mem_map.1 called
  cases h with
  | called v => exact ⟨v, (Happening.called.inj same).symm⟩
  | _ => cases same

end Excess

namespace Cache

variable {κ ε α : Type} [DecidableEq κ] {x : Excess κ ε α} {c d : Cache κ ε α}

/-- The cache `d` differs from `c` by what it has in excess. -/
structure Exceeds (x : Excess κ ε α) (c d : Cache κ ε α) : Prop where
  settings : d.settings = c.settings
  alive : d.alive = c.alive
  created : d.created = c.created
  table : d.table = c.table
  observers : d.observers = c.observers
  entry : ∀ i, Entry.Exceeds (x.surplusAt i) (c.entry i) (d.entry i)
  spawned : ∀ k, Tally.count d.spawned k = Tally.count c.spawned k + x.more k
  ordinal : x.ordinal ≤ Tally.count c.spawned x.entry.key
  tasks : (d.tasks.filter fun u => ¬ x.Spare u.id) = c.tasks.map x.listed
  spare : ∀ u ∈ d.tasks, x.Spare u.id → u.entry = x.entry ∧ x.surplus.Spare u.launch.number
  named : ∀ u ∈ c.tasks, u.id.key = u.entry.key
  log : ∃ new new', c.log = x.log ++ new ∧ d.log = x.log ++ x.events ++ new' ∧
    List.Forall₂ x.Matches new new'
  history : ∃ new, c.history = new ++ x.past ∧
    d.history = new.map x.happening ++ (x.marks ++ x.past)
  unmarked : ∀ u, .called u ∉ x.marks
  /-- What was called before has the same number in both. -/
  booked : ∀ u, .called u ∈ x.past → u.key = x.entry.key → u.ordinal < x.ordinal

/-! ## What stays recognizable -/

theorem Exceeds.current? (h : Exceeds x c d) (k : κ) : d.current? k = c.current? k := by
  rw [Cache.current?, Cache.current?, h.table]

theorem Exceeds.ids (h : Exceeds x c d) : d.ids = c.ids := by
  rw [Cache.ids, Cache.ids, h.table]

theorem Exceeds.len (h : Exceeds x c d) : d.len = c.len := by
  rw [Cache.len, Cache.len, h.table]

theorem Exceeds.isAborted (h : Exceeds x c d) (u : Task κ) :
    d.isAborted (x.listed u) = c.isAborted u := by
  unfold Cache.isAborted
  exact decide_eq_decide.2 ((h.entry u.entry).number_mem_aborted u.launch.number)

/-- The tasks of the surplus were told to stop. -/
theorem Exceeds.isAborted_of_spare (h : Exceeds x c d) {u : Task κ} (mem : u ∈ d.tasks)
    (spare : x.Spare u.id) : d.isAborted u = true := by
  obtain ⟨here, number⟩ := h.spare u mem spare
  have entry := h.entry u.entry
  rw [here, Excess.surplusAt, if_pos rfl, ← here] at entry
  exact decide_eq_true (entry.stopped _ number)

theorem Exceeds.listed_mem_iff (h : Exceeds x c d) (u : Task κ) :
    x.listed u ∈ d.tasks ↔ u ∈ c.tasks := by
  have kept : x.listed u ∈ d.tasks ↔ x.listed u ∈ d.tasks.filter fun v => ¬ x.Spare v.id := by
    have own : ¬ x.Spare (x.listed u).id := Excess.not_spare_task u.id
    simp [own]
  rw [kept, h.tasks, List.mem_map]
  constructor
  · rintro ⟨v, mem, same⟩
    exact Excess.listed_injective same ▸ mem
  · exact fun mem => ⟨u, mem, rfl⟩

/-- A task of the cache with the excess is one of the surplus or in the place of another one. -/
theorem Exceeds.spare_or_listed (h : Exceeds x c d) {u : Task κ} (mem : u ∈ d.tasks) :
    x.Spare u.id ∨ ∃ v ∈ c.tasks, u = x.listed v := by
  by_cases spare : x.Spare u.id
  · exact .inl spare
  · have own : u ∈ c.tasks.map x.listed := h.tasks ▸ List.mem_filter.2 ⟨mem, by simpa using spare⟩
    obtain ⟨v, there, same⟩ := List.mem_map.1 own
    exact .inr ⟨v, there, same.symm⟩

theorem Exceeds.task_of_called (h : Exceeds x c d) {u : TaskId κ} (early : .called u ∈ x.past) :
    x.task u = u ∧ ¬ x.Spare u := by
  by_cases own : u.key = x.entry.key
  · have bound := h.booked u early own
    refine ⟨?_, fun spare => Nat.not_lt.2 spare.1 bound⟩
    rw [Excess.task, skip_of_lt bound]
  · refine ⟨?_, fun spare => ?_⟩
    · rw [Excess.task, Excess.more, if_neg own, skip_zero]
    · rw [Excess.Spare, Excess.more, if_neg own] at spare
      omega

/-- What was called in the cache with the excess is no task of the surplus. -/
theorem Exceeds.called_cases (h : Exceeds x c d) {u : TaskId κ} (called : .called u ∈ d.history) :
    ∃ v, u = x.task v ∧ .called v ∈ c.history := by
  obtain ⟨new, left, right⟩ := h.history
  rw [right, List.mem_append, List.mem_append] at called
  rcases called with late | marked | early
  · obtain ⟨v, same⟩ : ∃ v, u = x.task v := Excess.exists_task_of_called late
    exact ⟨v, same, left ▸ List.mem_append_left _ ((Excess.called_mem_map_iff v new).1 (same ▸ late))⟩
  · exact absurd marked (h.unmarked u)
  · exact ⟨u, (h.task_of_called early).1.symm, left ▸ List.mem_append_right _ early⟩

/-- A computation was begun in the one cache exactly if that in its place was in the other. -/
theorem Exceeds.called_iff (h : Exceeds x c d) (u : TaskId κ) :
    .called (x.task u) ∈ d.history ↔ .called u ∈ c.history := by
  constructor
  · intro called
    obtain ⟨v, same, called⟩ := h.called_cases called
    exact Excess.task_injective same ▸ called
  · obtain ⟨new, left, right⟩ := h.history
    rw [left, right, List.mem_append]
    rintro (late | early)
    · exact List.mem_append_left _ ((Excess.called_mem_map_iff u new).2 late)
    · rw [(h.task_of_called early).1]
      exact List.mem_append_right _ (List.mem_append_right _ early)

/-- The tasks of the surplus are never called. -/
theorem Exceeds.not_called_of_spare (h : Exceeds x c d) {u : TaskId κ} (spare : x.Spare u) :
    .called u ∉ d.history := by
  intro called
  obtain ⟨v, rfl, -⟩ := h.called_cases called
  exact Excess.not_spare_task v spare

/-! ## Parts of an operation -/

variable {i : EntryId κ}

theorem Exceeds.put (h : Exceeds x c d) {e e' : Entry ε α} (own : Entry.Exceeds (x.surplusAt i) e e') :
    Exceeds x (c.put i e) (d.put i e') :=
  { h with
    entry := fun j => by
      rw [entry_put, entry_put]
      split
      next same => exact same ▸ own
      next => exact h.entry j }

theorem Exceeds.record (h : Exceeds x c d) {a : Activity} {n n' : Nat}
    (event : x.Matches ⟨a, n⟩ ⟨a, n'⟩) : Exceeds x (c.record a n) (d.record a n') := by
  obtain ⟨new, new', left, right, same⟩ := h.log
  unfold Cache.record
  rw [h.settings]
  split
  next =>
    have log : ∃ more more', c.log ++ [⟨a, n⟩] = x.log ++ more ∧
        d.log ++ [⟨a, n'⟩] = x.log ++ x.events ++ more' ∧ List.Forall₂ x.Matches more more' :=
      ⟨new ++ [⟨a, n⟩], new' ++ [⟨a, n'⟩], by rw [left, List.append_assoc],
        by rw [right, List.append_assoc], List.rel_append same (.cons event .nil)⟩
    exact { h with
      settings := rfl
      log := log }
  next => exact h

theorem Exceeds.note (h : Exceeds x c d) (w : Happening κ ε α) :
    Exceeds x (c.note w) (d.note (x.happening w)) := by
  obtain ⟨new, left, right⟩ := h.history
  exact { h with history := ⟨w :: new, congrArg (w :: ·) left, congrArg (x.happening w :: ·) right⟩ }

/-- The next task of the one cache is in the place of that of the other. -/
theorem Exceeds.taskOf (h : Exceeds x c d) (i : EntryId κ) (l : Launch) :
    d.taskOf i ((x.surplusAt i).launch l) = x.listed (c.taskOf i l) := by
  have ordinal : Tally.count d.spawned i.key =
      skip x.ordinal (x.more i.key) (Tally.count c.spawned i.key) := by
    rw [h.spawned]
    by_cases own : i.key = x.entry.key
    · rw [skip_of_le (own ▸ h.ordinal)]
    · rw [Excess.more, if_neg own, skip_zero, Nat.add_zero]
  rw [Cache.taskOf, Cache.taskOf, ordinal]
  rfl

theorem Exceeds.enlist (h : Exceeds x c d) (i : EntryId κ) (l : Launch) :
    Exceeds x (c.enlist i l) (d.enlist i ((x.surplusAt i).launch l)) := by
  have own : ¬ x.Spare (x.listed (c.taskOf i l)).id := Excess.not_spare_task _
  exact { h with
    spawned := fun k => by
      change Tally.count (Tally.bump d.spawned i.key) k =
        Tally.count (Tally.bump c.spawned i.key) k + x.more k
      rw [Tally.count_bump, Tally.count_bump, h.spawned, h.spawned]
      split
      next same => rw [same, Nat.add_right_comm]
      next => rfl
    ordinal := by
      change x.ordinal ≤ Tally.count (Tally.bump c.spawned i.key) x.entry.key
      refine Nat.le_trans h.ordinal ?_
      rw [Tally.count_bump]
      split
      next same => rw [same]; exact Nat.le_succ _
      next => exact Nat.le_refl _
    tasks := by
      change List.filter _ (d.tasks ++ [d.taskOf i _]) = (c.tasks ++ [c.taskOf i l]).map x.listed
      rw [h.taskOf, List.filter_append, h.tasks, List.map_append,
        List.filter_cons_of_pos (by simpa using own)]
      rfl
    spare := by
      intro u mem spare
      rcases List.mem_append.1 mem with old | new
      · exact h.spare u old spare
      · rw [h.taskOf, List.mem_singleton] at new
        exact absurd (new ▸ spare) own
    named := by
      intro u mem
      rcases List.mem_append.1 mem with old | new
      · exact h.named u old
      · rw [List.mem_singleton.1 new]
        rfl }

theorem Exceeds.spawn? (h : Exceeds x c d) (i : EntryId κ) (handed : Option Launch) :
    Exceeds x (c.spawn? i handed) (d.spawn? i (handed.map (x.surplusAt i).launch)) := by
  cases handed with
  | none => exact h
  | some l => exact (h.record (Excess.matches_at i .computing l.generation)).enlist i l

theorem Exceeds.locate (h : Exceeds x c d) (k : κ) :
    Exceeds x (c.locate k).1 (d.locate k).1 ∧ (d.locate k).2 = (c.locate k).2 := by
  unfold Cache.locate
  rw [h.current?, h.created, h.table]
  split
  next => exact ⟨h, rfl⟩
  next => exact ⟨{ h with created := rfl, table := rfl }, rfl⟩

theorem Exceeds.with_table (h : Exceeds x c d) (table : Registry κ Nat) :
    Exceeds x { c with table := table } { d with table := table } :=
  { h with table := rfl }

theorem Exceeds.with_observers (h : Exceeds x c d)
    (observers : Registry (Holder κ) (Subscription κ)) :
    Exceeds x { c with observers := observers } { d with observers := observers } :=
  { h with observers := rfl }

theorem Exceeds.removeTask (h : Exceeds x c d) (u : TaskId κ) :
    Exceeds x (c.removeTask u) (d.removeTask (x.task u)) :=
  { h with
    tasks := by
      change List.filter _ (d.tasks.filter _) = (c.tasks.filter _).map x.listed
      rw [List.filter_comm, h.tasks, List.filter_map]
      congr 1
      refine List.filter_congr fun v _ => ?_
      simp [Excess.listed, Excess.task_injective.eq_iff]
    spare := fun v mem => h.spare v (List.mem_filter.1 mem).1
    named := fun v mem => h.named v (List.mem_filter.1 mem).1 }

/-- A task of the surplus leaves. -/
theorem Exceeds.removeTask_of_spare (h : Exceeds x c d) {u : TaskId κ} (spare : x.Spare u) :
    Exceeds x c (d.removeTask u) :=
  { h with
    tasks := by
      change List.filter _ (d.tasks.filter _) = c.tasks.map x.listed
      rw [List.filter_filter, ← h.tasks]
      refine List.filter_congr fun v _ => ?_
      by_cases own : x.Spare v.id
      · simp [own]
      · have other : v.id ≠ u := fun same => own (same ▸ spare)
        simp [own, other]
    spare := fun v mem => h.spare v (List.mem_filter.1 mem).1 }

/-! ## Ending -/

theorem Exceeds.reclaim (h : Exceeds x c d) (i : EntryId κ) :
    Exceeds x (c.reclaim i) (d.reclaim i) := by
  obtain ⟨retired, told⟩ := (h.entry i).retire
  unfold Cache.reclaim
  dsimp only
  rw [h.current?, told]
  split
  next =>
    split
    next =>
      have removed := ((h.put retired).with_table (c.table.erase i.key)).note (.removed i)
      rw [← retired.generation_eq, put_table, put_table, h.table]
      exact removed.record (Excess.matches_at i .reclaimed _)
    next => exact h
  next => exact h

theorem Exceeds.forgo (h : Exceeds x c d) (i : EntryId κ) :
    Exceeds x (c.forgo i) (d.forgo i) := by
  obtain ⟨abandoned, told⟩ := (h.entry i).abandon
  unfold Cache.forgo
  rw [told]
  cases (c.entry i).abandon.2 with
  | none => exact h.put abandoned
  | some n => exact (h.put abandoned).record (Excess.matches_at i .cancelled n)

theorem Exceeds.unobserved (h : Exceeds x c d) (i : EntryId κ) :
    Exceeds x (c.unobserved i) (d.unobserved i) := by
  by_cases forgets : c.settings.retention = .whileObserved
  · rw [unobserved_of_forgetful forgets, unobserved_of_forgetful (h.settings ▸ forgets)]
    exact (h.forgo i).reclaim i
  · unfold Cache.unobserved
    rw [h.settings, if_neg forgets, if_neg forgets]
    exact h

theorem Exceeds.unsubscribe (h : Exceeds x c d) (i : EntryId κ) :
    Exceeds x (c.unsubscribe i) (d.unsubscribe i) := by
  have left := (h.entry i).unsubscribe
  unfold Cache.unsubscribe
  dsimp only
  rw [left.subscribers]
  split
  next => exact (h.put left).unobserved i
  next => exact h.put left

theorem Exceeds.foldl {f : Cache κ ε α → EntryId κ → Cache κ ε α}
    (step : ∀ {c d : Cache κ ε α} (i), Exceeds x c d → Exceeds x (f c i) (f d i))
    (l : List (EntryId κ)) :
    ∀ {c d : Cache κ ε α}, Exceeds x c d → Exceeds x (l.foldl f c) (l.foldl f d) := by
  induction l with
  | nil => exact fun h => h
  | cons i rest ih => exact fun h => ih (step i h)

theorem Exceeds.sweep (h : Exceeds x c d) :
    Exceeds x c.sweep.1 d.sweep.1 ∧ d.sweep.2 = c.sweep.2 := by
  have swept := h.foldl (fun i h => h.reclaim i) c.ids
  unfold Cache.sweep
  rw [h.settings, h.ids, h.len]
  split
  next => exact ⟨h, rfl⟩
  next => exact ⟨swept, by dsimp only; rw [swept.len]⟩

theorem Exceeds.close (h : Exceeds x c d) : Exceeds x c.close d.close := by
  have stopped := h.foldl (f := fun c i => c.put i (c.entry i).abort)
    (fun i h => h.put (h.entry i).abort) c.ids
  unfold Cache.close
  rw [h.ids]
  exact { stopped with alive := rfl }

/-! ## Reading -/

theorem Exceeds.subscribe (h : Exceeds x c d) (k : κ) :
    Exceeds x (c.subscribe k).1 (d.subscribe k).1 ∧ (d.subscribe k).2 = (c.subscribe k).2 := by
  obtain ⟨located, same⟩ := h.locate k
  have made := (located.entry (c.locate k).2).subscribe?
  unfold Cache.subscribe
  dsimp only
  rw [same]
  generalize ((c.locate k).1.entry (c.locate k).2).subscribe? = m at made ⊢
  generalize ((d.locate k).1.entry (c.locate k).2).subscribe? = m' at made ⊢
  cases made with
  | none => exact ⟨located, rfl⟩
  | @some m m' made =>
      have handed := (located.put made.1).spawn? (c.locate k).2 m.2
      rw [← made.2] at handed
      exact ⟨handed, rfl⟩

theorem Exceeds.hold (h : Exceeds x c d) (y : Holder κ) (s : Subscription κ) :
    Exceeds x (c.hold y s) (d.hold y s) := by
  have held := h.with_observers (c.observers.insert y s)
  unfold Cache.hold
  rw [h.observers]
  split
  next => exact held
  next old _ => exact held.unsubscribe old.entry

theorem Exceeds.observe (h : Exceeds x c d) (y : Holder κ) (k : κ) :
    Exceeds x (c.observe y k) (d.observe y k) := by
  obtain ⟨made, same⟩ := h.subscribe k
  unfold Cache.observe
  dsimp only
  rw [same]
  exact made.hold y _

theorem Exceeds.glance (h : Exceeds x c d) (k : κ) : Exceeds x (c.glance k) (d.glance k) := by
  obtain ⟨made, same⟩ := h.subscribe k
  unfold Cache.glance
  dsimp only
  rw [same]
  exact made.unsubscribe _

theorem Exceeds.snapshot (h : Exceeds x c d) (k : κ) :
    Exceeds x (c.snapshot k).1 (d.snapshot k).1 ∧ (d.snapshot k).2 = (c.snapshot k).2 := by
  obtain ⟨located, same⟩ := h.locate k
  have made := (located.entry (c.locate k).2).snapshot?
  have latest := (located.entry (c.locate k).2).latest
  unfold Cache.snapshot
  dsimp only
  rw [same, latest]
  generalize ((c.locate k).1.entry (c.locate k).2).snapshot? = m at made ⊢
  generalize ((d.locate k).1.entry (c.locate k).2).snapshot? = m' at made ⊢
  cases made with
  | none => exact ⟨located, rfl⟩
  | @some m m' made =>
      have handed := (located.put made.1).spawn? (c.locate k).2 m.2
      have shown := handed.note (.delivered (c.locate k).2 m.1.latest)
      rw [← made.2] at shown
      dsimp only
      rw [made.1.latest]
      exact ⟨shown, rfl⟩

theorem Exceeds.release (h : Exceeds x c d) (y : Holder κ) :
    Exceeds x (c.release y) (d.release y) := by
  unfold Cache.release
  rw [h.observers]
  split
  next => exact h
  next s _ => exact (h.with_observers (c.observers.erase y)).unsubscribe s.entry

theorem Exceeds.poll (h : Exceeds x c d) (y : Holder κ) :
    Exceeds x (c.poll y).1 (d.poll y).1 ∧ (d.poll y).2 = (c.poll y).2 := by
  unfold Cache.poll
  rw [h.observers]
  split
  next => exact ⟨h, rfl⟩
  next s _ =>
    dsimp only
    rw [(h.entry s.entry).channel]
    split
    next => exact ⟨h, rfl⟩
    next v _ => exact ⟨(h.with_observers _).note (.delivered s.entry v), rfl⟩

theorem Exceeds.await (h : Exceeds x c d) (y : Option (Holder κ)) (k : κ) :
    Exceeds x (c.await y k).1 (d.await y k).1 ∧ (d.await y k).2 = (c.await y k).2 := by
  obtain ⟨made, same⟩ := h.subscribe k
  unfold Cache.await
  dsimp only
  rw [same, (made.entry (c.subscribe k).2.entry).channel]
  have shown := made.note (.delivered (c.subscribe k).2.entry
    ((c.subscribe k).1.entry (c.subscribe k).2.entry).channel.latest)
  split
  next => exact ⟨shown.hold _ _, rfl⟩
  next => exact ⟨shown.unsubscribe _, rfl⟩

/-! ## Writing -/

theorem Exceeds.recordTransition (h : Exceeds x c d) (i : EntryId κ) (a : Activity)
    {t : Transition} (late : (x.surplusAt i).since < t.generation) :
    Exceeds x (c.recordTransition a t)
      (d.recordTransition a ((x.surplusAt i).transition t)) := by
  obtain ⟨generation, stops, launch⟩ := t
  have first := h.record (Excess.matches_at_of_le (Nat.le_of_lt late) a)
  have second := first.record (Excess.matches_at_of_le (Nat.le_sub_one_of_lt late) .cancelled)
  cases stops with
  | false => exact first
  | true =>
      have before : generation + (x.surplusAt i).raised - 1 =
          generation - 1 + (x.surplusAt i).raised := Nat.sub_add_comm (Nat.one_le_of_lt late)
      rw [← before] at second
      exact second

theorem Exceeds.set (h : Exceeds x c d) (k : κ) (value : α) :
    Exceeds x (c.set k value) (d.set k value) := by
  obtain ⟨located, same⟩ := (h.note (.installed k value)).locate k
  unfold Cache.set
  dsimp only [Excess.happening] at located same ⊢
  rw [same, h.settings]
  generalize ((c.note (.installed k value)).locate k).2 = i
  have made := (located.entry i).set? c.settings.stale value
  generalize (Cache.entry _ i).set? c.settings.stale value = m at made ⊢
  generalize (Cache.entry _ i).set? c.settings.stale value = m' at made ⊢
  cases made with
  | none => exact located
  | @some m m' made =>
      have recorded := (located.put made.1).recordTransition i .installed made.2.2
      rw [← made.2.1] at recorded
      exact recorded

theorem Exceeds.expireEntry (h : Exceeds x c d) (i : EntryId κ) :
    Exceeds x (c.expireEntry i) (d.expireEntry i) := by
  have made := (h.entry i).expire? c.settings.stale
  unfold Cache.expireEntry
  rw [h.settings]
  generalize (c.entry i).expire? c.settings.stale = m at made ⊢
  generalize (d.entry i).expire? c.settings.stale = m' at made ⊢
  cases made with
  | none => exact h
  | @some m m' made =>
      have recorded := (h.put made.1).recordTransition i .expired made.2.2
      have handed := recorded.spawn? i m.2.launch
      rw [← made.2.1, show (m.2.launch.map (x.surplusAt i).launch) = m'.2.launch by
        rw [made.2.1]; rfl] at handed
      exact handed

theorem Exceeds.expire (h : Exceeds x c d) (k : κ) : Exceeds x (c.expire k) (d.expire k) := by
  have noted := h.note (.expired k)
  unfold Cache.expire
  dsimp only [Excess.happening] at noted ⊢
  rw [noted.current?]
  split
  next => exact noted
  next i _ => exact noted.expireEntry i

theorem Exceeds.expireAll (h : Exceeds x c d) : Exceeds x c.expireAll d.expireAll := by
  have noted := h.note .expiredAll
  unfold Cache.expireAll
  rw [h.ids, h.len]
  exact (noted.record (.inl rfl)).foldl (fun i h => h.expireEntry i) c.ids

/-! ## Results -/

theorem Exceeds.withdraw (h : Exceeds x c d) (u : Task κ) (report : Option String) :
    Exceeds x (c.withdraw u report) (d.withdraw (x.listed u) report) := by
  cases report with
  | none => exact h.removeTask u.id
  | some text =>
      exact (h.removeTask u.id).record (Excess.matches_at u.entry (.faulted text) u.launch.generation)

theorem Exceeds.settle (h : Exceeds x c d) (u : Task κ) (o : Outcome ε α) :
    Exceeds x (c.settle u o) (d.settle (x.listed u) o) := by
  obtain ⟨settled, told⟩ :=
    (h.entry u.entry).settle c.settings.stale u.launch.generation o
  have put := (h.note (.returned u.id o)).put settled
  unfold Cache.settle
  rw [h.settings]
  dsimp only [Excess.listed, Surplus.launch, Excess.happening] at put told ⊢
  rw [told]
  cases ((c.entry u.entry).settle c.settings.stale u.launch.generation o).2 with
  | accepted => exact put.record (Excess.matches_at u.entry .settled u.launch.generation)
  | discarded relaunch =>
      exact (put.record (Excess.matches_at u.entry .discarded u.launch.generation)).spawn? _ relaunch

end Cache

end LiveCache
