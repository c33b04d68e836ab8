import LiveCache.Proofs.Cache.Known

/-! # What an operation on one key looks at

An operation on a key looks at nothing but that key and at most one holder, and leaves everything
else alone. Two caches that agree on the key are therefore changed alike: they agree on it
afterwards, and the same tasks, events and happenings are added to them.
-/

namespace LiveCache.Cache

variable {κ ε α : Type} [DecidableEq κ]

/-- The tasks of a key. -/
def tasksOf (c : Cache κ ε α) (k : κ) : List (Task κ) := c.tasks.filter fun u => u.entry.key = k

/-- Two caches agree on a key and on what a holder has. -/
structure Near (k : κ) (holder : Option (Holder κ)) (c d : Cache κ ε α) : Prop where
  settings : d.settings = c.settings
  entry : ∀ i : EntryId κ, i.key = k → d.entry i = c.entry i
  created : Tally.count d.created k = Tally.count c.created k
  table : d.table.find? k = c.table.find? k
  spawned : Tally.count d.spawned k = Tally.count c.spawned k
  observers : ∀ x, holder = some x → d.observers.find? x = c.observers.find? x

/-- What becomes of a cache in which nothing but a key and what a holder has is touched. -/
structure Apart (k : κ) (holder : Option (Holder κ)) (c d : Cache κ ε α) : Prop where
  settings : d.settings = c.settings
  alive : d.alive = c.alive
  entry : ∀ i : EntryId κ, i.key ≠ k → d.entry i = c.entry i
  created : ∀ k', k' ≠ k → Tally.count d.created k' = Tally.count c.created k'
  table : ∀ k', k' ≠ k → d.table.find? k' = c.table.find? k'
  tasks : ∀ k', k' ≠ k → d.tasksOf k' = c.tasksOf k'
  spawned : ∀ k', k' ≠ k → Tally.count d.spawned k' = Tally.count c.spawned k'
  observers : ∀ x, holder ≠ some x → d.observers.find? x = c.observers.find? x

/-- Two caches are changed alike at a key, and nowhere else. -/
structure Likewise (k : κ) (holder : Option (Holder κ)) (c d c' d' : Cache κ ε α) : Prop where
  near : Near k holder c' d'
  left : Apart k holder c c'
  right : Apart k holder d d'
  tasks : ∃ new, c'.tasks = c.tasks ++ new ∧ d'.tasks = d.tasks ++ new
  log : ∃ new, c'.log = c.log ++ new ∧ d'.log = d.log ++ new
  history : ∃ new, c'.history = new ++ c.history ∧ d'.history = new ++ d.history

variable {k : κ} {holder : Option (Holder κ)} {c d e c' d' c'' d'' : Cache κ ε α} {i : EntryId κ}

theorem Near.refl (c : Cache κ ε α) : Near k holder c c :=
  ⟨rfl, fun _ _ => rfl, rfl, rfl, rfl, fun _ _ => rfl⟩

theorem Near.trans (h₁ : Near k holder c d) (h₂ : Near k holder d e) : Near k holder c e where
  settings := h₂.settings.trans h₁.settings
  entry := fun i here => (h₂.entry i here).trans (h₁.entry i here)
  created := h₂.created.trans h₁.created
  table := h₂.table.trans h₁.table
  spawned := h₂.spawned.trans h₁.spawned
  observers := fun x own => (h₂.observers x own).trans (h₁.observers x own)

theorem Apart.refl (c : Cache κ ε α) : Apart k holder c c :=
  ⟨rfl, rfl, fun _ _ => rfl, fun _ _ => rfl, fun _ _ => rfl, fun _ _ => rfl, fun _ _ => rfl,
    fun _ _ => rfl⟩

theorem Apart.trans (h₁ : Apart k holder c d) (h₂ : Apart k holder d e) : Apart k holder c e where
  settings := h₂.settings.trans h₁.settings
  alive := h₂.alive.trans h₁.alive
  entry := fun i other => (h₂.entry i other).trans (h₁.entry i other)
  created := fun k' other => (h₂.created k' other).trans (h₁.created k' other)
  table := fun k' other => (h₂.table k' other).trans (h₁.table k' other)
  tasks := fun k' other => (h₂.tasks k' other).trans (h₁.tasks k' other)
  spawned := fun k' other => (h₂.spawned k' other).trans (h₁.spawned k' other)
  observers := fun x other => (h₂.observers x other).trans (h₁.observers x other)

/-- Elsewhere the caches go on agreeing. -/
theorem Apart.near {k' : κ} {holder' : Option (Holder κ)} (h : Apart k holder c d)
    (other : k' ≠ k) (others : ∀ x, holder' = some x → holder ≠ some x) :
    Near k' holder' c d where
  settings := h.settings
  entry := fun i key => h.entry i (key ▸ other)
  created := h.created k' other
  table := h.table k' other
  spawned := h.spawned k' other
  observers := fun x own => h.observers x (others x own)

theorem Near.current? (h : Near k holder c d) : d.current? k = c.current? k := by
  rw [Cache.current?, Cache.current?, h.table]

/-- The caches agree on the key, and nothing was done. -/
theorem Near.still (h : Near k holder c d) : Likewise k holder c d c d where
  near := h
  left := .refl c
  right := .refl d
  tasks := ⟨[], by simp⟩
  log := ⟨[], by simp⟩
  history := ⟨[], by simp⟩

theorem Likewise.trans (h₁ : Likewise k holder c d c' d') (h₂ : Likewise k holder c' d' c'' d'') :
    Likewise k holder c d c'' d'' where
  near := h₂.near
  left := h₁.left.trans h₂.left
  right := h₁.right.trans h₂.right
  tasks := by
    obtain ⟨new, eq, eq'⟩ := h₁.tasks
    obtain ⟨newer, later, later'⟩ := h₂.tasks
    exact ⟨new ++ newer, by rw [later, eq, List.append_assoc], by rw [later', eq', List.append_assoc]⟩
  log := by
    obtain ⟨new, eq, eq'⟩ := h₁.log
    obtain ⟨newer, later, later'⟩ := h₂.log
    exact ⟨new ++ newer, by rw [later, eq, List.append_assoc], by rw [later', eq', List.append_assoc]⟩
  history := by
    obtain ⟨new, eq, eq'⟩ := h₁.history
    obtain ⟨newer, later, later'⟩ := h₂.history
    exact ⟨newer ++ new, by rw [later, eq, List.append_assoc], by rw [later', eq', List.append_assoc]⟩

/-! ## Parts of an operation -/

theorem apart_put (key : i.key = k) (e : Entry ε α) : Apart k holder c (c.put i e) where
  settings := rfl
  alive := rfl
  entry := fun _ other => entry_put_of_ne c e fun same => other (same ▸ key)
  created := fun _ _ => rfl
  table := fun _ _ => rfl
  tasks := fun _ _ => rfl
  spawned := fun _ _ => rfl
  observers := fun _ _ => rfl

theorem Near.put (h : Near k holder c d) (key : i.key = k) (e : Entry ε α) :
    Likewise k holder c d (c.put i e) (d.put i e) where
  near := { h with entry := fun _ here => by rw [entry_put, entry_put, h.entry _ here] }
  left := apart_put key e
  right := apart_put key e
  tasks := ⟨[], by simp⟩
  log := ⟨[], by simp⟩
  history := ⟨[], by simp⟩

theorem apart_record (a : Activity) (n : Nat) : Apart k holder c (c.record a n) where
  settings := record_settings c a n
  alive := record_alive c a n
  entry := fun _ _ => by rw [record_entry]
  created := fun _ _ => by rw [record_created]
  table := fun _ _ => by rw [record_table]
  tasks := fun _ _ => by rw [tasksOf, record_tasks, tasksOf]
  spawned := fun _ _ => by rw [record_spawned]
  observers := fun _ _ => by rw [record_observers]

theorem Near.record (h : Near k holder c d) (a : Activity) (n : Nat) :
    Likewise k holder c d (c.record a n) (d.record a n) where
  near := {
    settings := by rw [record_settings, record_settings, h.settings]
    entry := fun i key => by rw [record_entry, record_entry, h.entry i key]
    created := by rw [record_created, record_created, h.created]
    table := by rw [record_table, record_table, h.table]
    spawned := by rw [record_spawned, record_spawned, h.spawned]
    observers := fun x own => by rw [record_observers, record_observers, h.observers x own] }
  left := apart_record a n
  right := apart_record a n
  tasks := ⟨[], by simp⟩
  log := by
    unfold Cache.record
    rw [h.settings]
    split
    next => exact ⟨_, rfl, rfl⟩
    next => exact ⟨[], by simp⟩
  history := ⟨[], by simp⟩

theorem Near.note (h : Near k holder c d) (w : Happening κ ε α) :
    Likewise k holder c d (c.note w) (d.note w) where
  near := { h with }
  left := { Apart.refl c with }
  right := { Apart.refl d with }
  tasks := ⟨[], by simp⟩
  log := ⟨[], by simp⟩
  history := ⟨[w], rfl, rfl⟩

theorem count_bump_of_ne {t : Tally κ} {k k' : κ} (other : k' ≠ k) :
    Tally.count (Tally.bump t k) k' = Tally.count t k' := by
  rw [Tally.count_bump, if_neg (Ne.symm other)]

/-- The list of the executor with one task more. -/
def enlist (c : Cache κ ε α) (i : EntryId κ) (l : Launch) : Cache κ ε α :=
  { c with tasks := c.tasks ++ [c.taskOf i l], spawned := Tally.bump c.spawned i.key }

theorem apart_enlist (key : i.key = k) (l : Launch) : Apart k holder c (c.enlist i l) :=
  { Apart.refl c with
    tasks := fun k' other => by
      have foreign : (c.taskOf i l).entry.key ≠ k' := fun same => other (same.symm.trans key)
      simp [tasksOf, enlist, foreign]
    spawned := fun _ other => count_bump_of_ne (key ▸ other) }

/-- The caches have made the same number of tasks for the key, so the new one has the same number. -/
theorem Near.enlist (h : Near k holder c d) (key : i.key = k) (l : Launch) :
    Likewise k holder c d (c.enlist i l) (d.enlist i l) where
  near := { h with
    spawned := by
      change Tally.count (Tally.bump d.spawned i.key) k = Tally.count (Tally.bump c.spawned i.key) k
      rw [Tally.count_bump, Tally.count_bump, key, h.spawned] }
  left := apart_enlist key l
  right := apart_enlist key l
  tasks := by
    refine ⟨[c.taskOf i l], rfl, ?_⟩
    rw [show c.taskOf i l = d.taskOf i l by rw [taskOf, taskOf, key, h.spawned]]
    rfl
  log := ⟨[], by simp [Cache.enlist]⟩
  history := ⟨[], by simp [Cache.enlist]⟩

theorem Near.spawn? (h : Near k holder c d) (key : i.key = k) (handed : Option Launch) :
    Likewise k holder c d (c.spawn? i handed) (d.spawn? i handed) := by
  cases handed with
  | none => exact h.still
  | some l =>
      have recorded := h.record .computing l.generation
      exact recorded.trans (recorded.near.enlist key l)

theorem Near.locate (h : Near k holder c d) :
    Likewise k holder c d (c.locate k).1 (d.locate k).1 ∧ (d.locate k).2 = (c.locate k).2 := by
  have same := h.current?
  cases found : c.current? k with
  | some i =>
      rw [locate_of_some found, locate_of_some (same.trans found)]
      exact ⟨h.still, rfl⟩
  | none =>
      rw [locate_of_none found, locate_of_none (same.trans found), h.created]
      have apart : ∀ c : Cache κ ε α, Apart k holder c (c.enrol k) := fun c => { Apart.refl c with
        created := fun k' other => count_bump_of_ne other
        table := fun k' other => Registry.find?_insert_of_ne _ _ _ _ (Ne.symm other) }
      refine ⟨⟨?_, apart c, apart d, ⟨[], by simp [enrol]⟩, ⟨[], by simp [enrol]⟩,
        ⟨[], by simp [enrol]⟩⟩, rfl⟩
      exact { h with
        created := by
          change Tally.count (Tally.bump d.created k) k = Tally.count (Tally.bump c.created k) k
          rw [Tally.count_bump, Tally.count_bump, h.created]
        table := by
          change (d.table.insert k _).find? k = (c.table.insert k _).find? k
          rw [Registry.find?_insert_self, Registry.find?_insert_self, h.created] }

/-- The key loses its entry. -/
theorem Near.erase (h : Near k holder c d) :
    Likewise k holder c d { c with table := c.table.erase k } { d with table := d.table.erase k } where
  near := { h with table := by rw [Registry.find?_erase_self, Registry.find?_erase_self] }
  left := { Apart.refl c with
    table := fun k' other => Registry.find?_erase_of_ne _ _ _ (Ne.symm other) }
  right := { Apart.refl d with
    table := fun k' other => Registry.find?_erase_of_ne _ _ _ (Ne.symm other) }
  tasks := ⟨[], by simp⟩
  log := ⟨[], by simp⟩
  history := ⟨[], by simp⟩

theorem apart_give {x : Holder κ} (c : Cache κ ε α) (s : Subscription κ) :
    Apart k (some x) c { c with observers := c.observers.insert x s } where
  __ : Apart k (some x) c c := .refl c
  observers := fun _ other =>
    Registry.find?_insert_of_ne _ _ _ _ fun same => other (congrArg some same)

/-- The holder is given a subscription. -/
theorem Near.give {x : Holder κ} (h : Near k (some x) c d) (s : Subscription κ) :
    Likewise k (some x) c d { c with observers := c.observers.insert x s }
      { d with observers := d.observers.insert x s } where
  near := { h with
    observers := by
      rintro y ⟨⟩
      rw [Registry.find?_insert_self, Registry.find?_insert_self] }
  left := apart_give c s
  right := apart_give d s
  tasks := ⟨[], by simp⟩
  log := ⟨[], by simp⟩
  history := ⟨[], by simp⟩

theorem apart_take {x : Holder κ} (c : Cache κ ε α) :
    Apart k (some x) c { c with observers := c.observers.erase x } where
  __ : Apart k (some x) c c := .refl c
  observers := fun _ other =>
    Registry.find?_erase_of_ne _ _ _ fun same => other (congrArg some same)

/-- What the holder has is taken. -/
theorem Near.take {x : Holder κ} (h : Near k (some x) c d) :
    Likewise k (some x) c d { c with observers := c.observers.erase x }
      { d with observers := d.observers.erase x } where
  near := { h with
    observers := by
      rintro y ⟨⟩
      rw [Registry.find?_erase_self, Registry.find?_erase_self] }
  left := apart_take c
  right := apart_take d
  tasks := ⟨[], by simp⟩
  log := ⟨[], by simp⟩
  history := ⟨[], by simp⟩

/-! ## Reading -/

theorem locate_key (c : Cache κ ε α) (k : κ) : (c.locate k).2.key = k := by
  cases found : c.current? k with
  | some i => rw [locate_of_some found]; exact current?_key found
  | none => rw [locate_of_none found]

theorem Near.subscribe (h : Near k holder c d) :
    Likewise k holder c d (c.subscribe k).1 (d.subscribe k).1 ∧
      (d.subscribe k).2 = (c.subscribe k).2 := by
  obtain ⟨located, same⟩ := h.locate
  have key := locate_key c k
  unfold Cache.subscribe
  dsimp only
  rw [same]
  generalize (c.locate k).2 = i at key ⊢
  rw [located.near.entry i key]
  cases ((c.locate k).1.entry i).subscribe? with
  | none => exact ⟨located, rfl⟩
  | some made =>
      have put := located.near.put key made.1
      exact ⟨located.trans (put.trans (put.near.spawn? key made.2)), rfl⟩

theorem Near.observe {x : Holder κ} (h : Near k (some x) c d)
    (free : c.observers.find? x = none) :
    Likewise k (some x) c d (c.observe x k) (d.observe x k) := by
  obtain ⟨made, same⟩ := h.subscribe
  have free' : d.observers.find? x = none := (h.observers x rfl).trans free
  unfold Cache.observe
  dsimp only
  rw [hold_of_free (by rw [subscribe_observers, free]),
    hold_of_free (by rw [subscribe_observers, free']), same]
  exact made.trans (made.near.give _)

theorem Near.snapshot (h : Near k holder c d) :
    Likewise k holder c d (c.snapshot k).1 (d.snapshot k).1 ∧
      (d.snapshot k).2 = (c.snapshot k).2 := by
  obtain ⟨located, same⟩ := h.locate
  have key := locate_key c k
  unfold Cache.snapshot
  dsimp only
  rw [same]
  generalize (c.locate k).2 = i at key ⊢
  rw [located.near.entry i key]
  cases ((c.locate k).1.entry i).snapshot? with
  | none => exact ⟨located, rfl⟩
  | some made =>
      have put := located.near.put key made.1
      have handed := put.near.spawn? key made.2
      exact ⟨located.trans (put.trans (handed.trans (handed.near.note _))), rfl⟩

/-! ## Ending -/

theorem Near.reclaim (h : Near k holder c d) (key : i.key = k) :
    Likewise k holder c d (c.reclaim i) (d.reclaim i) := by
  subst key
  unfold Cache.reclaim
  rw [h.current?, h.entry i rfl]
  split
  next =>
    dsimp only
    split
    next =>
      have put := h.put (i := i) rfl (c.entry i).retire.1
      have removed := put.near.erase.near.note (.removed i)
      exact put.trans (put.near.erase.trans (removed.trans (removed.near.record _ _)))
    next => exact h.still
  next => exact h.still

theorem Near.forgo (h : Near k holder c d) (key : i.key = k) :
    Likewise k holder c d (c.forgo i) (d.forgo i) := by
  unfold Cache.forgo
  rw [h.entry i key]
  have put := h.put key (c.entry i).abandon.1
  split
  next => exact put
  next => exact put.trans (put.near.record _ _)

theorem Near.unobserved (h : Near k holder c d) (key : i.key = k) :
    Likewise k holder c d (c.unobserved i) (d.unobserved i) := by
  by_cases forgets : c.settings.retention = .whileObserved
  · have forgone := h.forgo key
    rw [unobserved_of_forgetful forgets, unobserved_of_forgetful (h.settings ▸ forgets)]
    exact forgone.trans (forgone.near.reclaim key)
  · unfold Cache.unobserved
    rw [h.settings, if_neg forgets, if_neg forgets]
    exact h.still

theorem Near.unsubscribe (h : Near k holder c d) (key : i.key = k) :
    Likewise k holder c d (c.unsubscribe i) (d.unsubscribe i) := by
  have put := h.put key (c.entry i).unsubscribe
  unfold Cache.unsubscribe
  rw [h.entry i key]
  dsimp only
  split
  next => exact put.trans (put.near.unobserved key)
  next => exact put

theorem Near.release {x : Holder κ} {s : Subscription κ} (h : Near k (some x) c d)
    (found : c.observers.find? x = some s) (key : s.entry.key = k) :
    Likewise k (some x) c d (c.release x) (d.release x) := by
  have found' : d.observers.find? x = some s := (h.observers x rfl).trans found
  unfold Cache.release
  rw [found, found']
  exact h.take.trans (h.take.near.unsubscribe key)

/-! ## Writing -/

theorem Near.recordTransition (h : Near k holder c d) (a : Activity) (t : Transition) :
    Likewise k holder c d (c.recordTransition a t) (d.recordTransition a t) := by
  have first := h.record a t.generation
  unfold Cache.recordTransition
  dsimp only
  split
  next => exact first.trans (first.near.record _ _)
  next => exact first

theorem Near.set (h : Near k holder c d) (value : α) :
    Likewise k holder c d (c.set k value) (d.set k value) := by
  have noted := h.note (.installed k value)
  obtain ⟨located, same⟩ := noted.near.locate
  have key := locate_key (c.note (.installed k value)) k
  unfold Cache.set
  dsimp only
  rw [same]
  generalize ((c.note (.installed k value)).locate k).2 = i at key ⊢
  rw [located.near.entry i key, h.settings]
  refine noted.trans (located.trans ?_)
  cases (((c.note (.installed k value)).locate k).1.entry i).set? c.settings.stale value with
  | none => exact located.near.still
  | some made =>
      have put := located.near.put key made.1
      exact put.trans (put.near.recordTransition _ _)

theorem Near.expireEntry (h : Near k holder c d) (key : i.key = k) :
    Likewise k holder c d (c.expireEntry i) (d.expireEntry i) := by
  unfold Cache.expireEntry
  rw [h.entry i key, h.settings]
  cases (c.entry i).expire? c.settings.stale with
  | none => exact h.still
  | some made =>
      have put := h.put key made.1
      have recorded := put.near.recordTransition .expired made.2
      exact put.trans (recorded.trans (recorded.near.spawn? key _))

theorem Near.expire (h : Near k holder c d) :
    Likewise k holder c d (c.expire k) (d.expire k) := by
  have noted := h.note (.expired k)
  unfold Cache.expire
  dsimp only
  rw [noted.near.current?]
  cases found : (c.note (.expired k)).current? k with
  | none => exact noted
  | some i => exact noted.trans (noted.near.expireEntry (current?_key found))

end LiveCache.Cache
