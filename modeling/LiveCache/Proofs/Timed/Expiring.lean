import LiveCache.Proofs.Timed.Observing
import LiveCache.Proofs.Timed.Reactions
import LiveCache.Proofs.Timed.Paths

/-! # Outdating a key twice

A key that was just outdated may be outdated once more. Readers are shown the same, and as much is
computed: the second expiration raises the generation, and if somebody observes the key it stops
the computation that the first has launched, before it was begun, and launches another one in its
place. Nothing that is done afterwards can tell the two caches apart.
-/

namespace LiveCache

namespace Entry

variable {ε α : Type}

/-- What the log tells of the second of two expirations. -/
def repetition (e : Entry ε α) : List Event :=
  ⟨.expired, e.generation + 2⟩ ::
    e.spent.flatMap fun l => [⟨.cancelled, l.generation⟩, ⟨.computing, l.generation + 1⟩]

end Entry

namespace Cache

variable {κ ε α : Type} [DecidableEq κ] {x : Excess κ ε α} {c d : Cache κ ε α} {k : κ}
  {i : EntryId κ}

/-- How often a computation of the key was begun. -/
def calls (c : Cache κ ε α) (k : κ) : Nat :=
  c.history.countP fun
    | .called u => u.key = k
    | _ => false

/-- What cannot be told apart by whoever reads the key, and what is not of the key at all. -/
structure Resembles (k : κ) (c d : Cache κ ε α) : Prop where
  table : d.table = c.table
  observers : d.observers = c.observers
  view : ∀ i : EntryId κ, i.key = k → (d.entry i).latest = (c.entry i).latest
  publications : ∀ i : EntryId κ, i.key = k →
    (d.entry i).channel.version = (c.entry i).channel.version
  kind : ∀ i : EntryId κ, i.key = k → (d.entry i).phase.kind = (c.entry i).phase.kind
  previous : ∀ i : EntryId κ, i.key = k →
    (d.entry i).phase.previous = (c.entry i).phase.previous
  subscribers : ∀ i : EntryId κ, i.key = k → (d.entry i).subscribers = (c.entry i).subscribers
  live : (d.liveTasks k).length = (c.liveTasks k).length
  calls : ∀ k', d.calls k' = c.calls k'
  others : ∀ i : EntryId κ, i.key ≠ k → d.entry i = c.entry i
  tasks : ∀ k', k' ≠ k → d.tasksOf k' = c.tasksOf k'

/-! ## What the difference amounts to -/

theorem Exceeds.liveTasks (h : Exceeds x c d) (k : κ) :
    d.liveTasks k = (c.liveTasks k).map x.listed := by
  have unspared : d.liveTasks k =
      (d.tasks.filter fun u => ¬ x.Spare u.id).filter
        fun u => u.id.key = k ∧ d.isAborted u = false := by
    rw [List.filter_filter, Cache.liveTasks]
    refine List.filter_congr fun u mem => ?_
    by_cases spare : x.Spare u.id
    · simp [h.isAborted_of_spare mem spare]
    · simp [spare]
  rw [unspared, h.tasks, List.filter_map, Cache.liveTasks]
  congr 1
  refine List.filter_congr fun u _ => ?_
  simp only [Function.comp_apply, h.isAborted]
  rfl

/-- Tasks of other keys are the same. -/
theorem Exceeds.tasksOf (h : Exceeds x c d) (other : k ≠ x.entry.key) :
    d.tasksOf k = c.tasksOf k := by
  have unspared : d.tasksOf k =
      (d.tasks.filter fun u => ¬ x.Spare u.id).filter fun u => u.entry.key = k := by
    rw [List.filter_filter, Cache.tasksOf]
    refine List.filter_congr fun u mem => ?_
    by_cases spare : x.Spare u.id
    · have foreign : u.entry.key ≠ k := by
        rw [(h.spare u mem spare).1]
        exact Ne.symm other
      simp [foreign]
    · simp [spare]
  rw [unspared, h.tasks, List.filter_map, Cache.tasksOf]
  refine (List.map_congr_left fun u mem => ?_).trans (List.map_id _)
  obtain ⟨listed, key⟩ := List.mem_filter.1 mem
  have there : u.entry.key = k := of_decide_eq_true key
  have foreign : u.entry ≠ x.entry := fun same => other (same ▸ there.symm)
  have named : u.id.key ≠ x.entry.key := by rwa [h.named u listed, there]
  rw [Excess.listed, Excess.surplusAt, if_neg foreign, Surplus.launch_default, Excess.task,
    Excess.more, if_neg named, skip_zero]
  rfl

theorem Exceeds.calls (h : Exceeds x c d) (k : κ) : d.calls k = c.calls k := by
  obtain ⟨new, left, right⟩ := h.history
  have none : x.marks.countP (fun | .called u => u.key = k | _ => false) = 0 := by
    refine List.countP_eq_zero.2 fun w mem => ?_
    cases w with
    | called u => exact absurd mem (h.unmarked u)
    | _ => simp
  rw [Cache.calls, Cache.calls, left, right, List.countP_append, List.countP_append,
    List.countP_append, List.countP_map, none, Nat.zero_add]
  congr 1
  refine List.countP_congr fun w _ => ?_
  cases w <;> exact Iff.rfl

theorem Exceeds.resembles (h : Exceeds x c d) (here : x.entry.key = k) : Resembles k c d where
  table := h.table
  observers := h.observers
  view := fun i _ => (h.entry i).latest
  publications := fun i _ => congrArg Channel.version (h.entry i).channel
  kind := fun i _ => by rw [(h.entry i).phase, Surplus.phase_kind]
  previous := fun i _ => by rw [(h.entry i).phase, Surplus.phase_previous]
  subscribers := fun i _ => (h.entry i).subscribers
  live := by rw [h.liveTasks, List.length_map]
  calls := h.calls
  others := fun i other => by
    have entry := h.entry i
    have foreign : i ≠ x.entry := fun same => other (same ▸ here)
    rw [Excess.surplusAt, if_neg foreign] at entry
    exact entry.eq
  tasks := fun k' other => h.tasksOf (here ▸ other)

/-! ## Where the difference comes from -/

/-- What the cache has in excess after it has outdated the key twice. A key that is not in the table
leaves nothing behind. -/
def excess (c : Cache κ ε α) (k : κ) : Excess κ ε α where
  entry := (c.current? k).getD ⟨k, 0⟩
  surplus := ((c.current? k).map fun i => (c.entry i).surplus).getD {}
  ordinal := Tally.count c.spawned k
  log := (c.expire k).log
  events :=
    if c.settings.logs then ((c.current? k).map fun i => (c.entry i).repetition).getD [] else []
  past := (c.expire k).history
  marks := [.expired k]

theorem excess_entry_key (c : Cache κ ε α) (k : κ) : (c.excess k).entry.key = k := by
  unfold excess
  cases found : c.current? k with
  | none => rfl
  | some i => exact current?_key found

omit [DecidableEq κ] in
theorem recordTransition_spawned (c : Cache κ ε α) (a : Activity) (t : Transition) :
    (c.recordTransition a t).spawned = c.spawned := by
  unfold recordTransition; split <;> simp

theorem expire_settings (c : Cache κ ε α) (k : κ) : (c.expire k).settings = c.settings := by
  have own : Near k none c c := .refl c
  exact own.expire.left.settings

theorem expire_table (c : Cache κ ε α) (k : κ) : (c.expire k).table = c.table := by
  cases found : c.current? k with
  | none => rw [expire_of_none found, note_table]
  | some i => rw [expire_of_some found, expireEntry_table, note_table]

theorem expire_current? (c : Cache κ ε α) (k k' : κ) :
    (c.expire k).current? k' = c.current? k' := by
  rw [Cache.current?, Cache.current?, expire_table]

section Present

variable (found : c.current? k = some i) (present : (c.entry i).retired = false)

include found present

/-- What an expiration does with an entry that is there. -/
theorem expire_eq :
    c.expire k =
      (((c.note (.expired k)).recordTransition .expired
        ⟨(c.entry i).generation + 1, (c.entry i).phase.isComputing,
          ((c.entry i).renewed c.settings.stale).2⟩).put i
        ((c.entry i).renewed c.settings.stale).1).spawn? i
        ((c.entry i).renewed c.settings.stale).2 := by
  rw [expire_of_some found, expireEntry_eq (c := c.note (.expired k)) present]
  rfl

theorem entry_expire (j : EntryId κ) :
    (c.expire k).entry j =
      if i = j then ((c.entry i).renewed c.settings.stale).1 else c.entry j := by
  rw [expire_eq found present, spawn?_entry, entry_put, recordTransition_entry, note_entry]

theorem spawned_expire (k' : κ) :
    Tally.count (c.expire k).spawned k' =
      Tally.count c.spawned k' + if k = k' then (c.entry i).spent.length else 0 := by
  have handed : ((c.entry i).renewed c.settings.stale).2.toList = (c.entry i).spent :=
    Entry.renewed_handed _
  rw [expire_eq found present, spawn?_spawned, put_spawned, recordTransition_spawned, handed,
    current?_key found]
  rfl

theorem tasks_expire :
    (c.expire k).tasks = c.tasks ++ (c.entry i).spent.map (c.taskOf i) := by
  have handed : ((c.entry i).renewed c.settings.stale).2.toList = (c.entry i).spent :=
    Entry.renewed_handed _
  have same : ∀ (d : Cache κ ε α), d.spawned = c.spawned → d.taskOf i = c.taskOf i :=
    fun d spawned => funext fun l => by rw [Cache.taskOf, Cache.taskOf, spawned]
  rw [expire_eq found present, spawn?_tasks, put_tasks, recordTransition_tasks, note_tasks,
    same _ (by rw [put_spawned, recordTransition_spawned]; rfl), ← handed]
  cases ((c.entry i).renewed c.settings.stale).2 <;> rfl

/-- The log after a key was outdated that was outdated before. -/
theorem log_expire {e : Entry ε α} (renewed : c.entry i = (e.renewed c.settings.stale).1) :
    (c.expire k).log = c.log ++ if c.settings.logs then e.repetition else [] := by
  have generation : (c.entry i).generation = e.generation + 1 := by
    rw [renewed, Entry.renewed_generation]
  have subscribers : (c.entry i).subscribers = e.subscribers := by
    rw [renewed, Entry.renewed_subscribers]
  have busy : (c.entry i).phase.isComputing = !e.spent.isEmpty := by
    rw [renewed, Entry.renewed_isComputing]
  have handed : ((c.entry i).renewed c.settings.stale).2.toList = (c.entry i).spent :=
    Entry.renewed_handed _
  rw [expire_eq found present, generation, busy]
  generalize (Entry.renewed c.settings.stale (c.entry i)).2 = l at handed ⊢
  unfold Entry.spent at handed
  rw [generation, subscribers] at handed
  unfold Entry.repetition Entry.spent
  by_cases alone : e.subscribers = 0
  · rw [if_pos alone] at handed ⊢
    obtain rfl : l = none := by simpa using handed
    cases logs : c.settings.logs <;> simp [spawn?, recordTransition, record_log_eq, logs]
  · rw [if_neg alone] at handed ⊢
    obtain rfl : l = some _ := by simpa using handed
    cases logs : c.settings.logs <;> simp [spawn?, spawn, recordTransition, record_log_eq, logs]

end Present

/-! ## The excess of an entry that is there -/

theorem excess_entry (found : c.current? k = some i) : (c.excess k).entry = i := by
  simp [excess, found]

theorem excess_surplus (found : c.current? k = some i) :
    (c.excess k).surplus = (c.entry i).surplus := by
  simp [excess, found]

theorem excess_surplusAt (found : c.current? k = some i) :
    (c.excess k).surplusAt i = (c.entry i).surplus := by
  rw [Excess.surplusAt, if_pos (excess_entry found).symm, excess_surplus found]

theorem excess_more (found : c.current? k = some i) :
    (c.excess k).more k = (c.entry i).spent.length := by
  rw [Excess.more, if_pos (excess_entry_key c k).symm, excess_surplus found]
  rfl

/-- The tasks from before are the same for both. -/
theorem Coherent.listed_excess (h : Coherent c []) (found : c.current? k = some i) {u : Task κ}
    (mem : u ∈ c.tasks) : ¬ (c.excess k).Spare u.id ∧ (c.excess k).listed u = u := by
  have launch : ((c.excess k).surplusAt u.entry).launch u.launch = u.launch := by
    by_cases own : u.entry = i
    · have handed : u.launch ∈ (c.entry i).launches := own ▸ h.handed u mem
      rw [own, excess_surplusAt found]
      exact (h.sound i).launch_surplus handed
    · rw [Excess.surplusAt, if_neg (by rwa [excess_entry found]), Surplus.launch_default]
  have number : u.id.ordinal < (c.excess k).ordinal ∨ (c.excess k).more u.id.key = 0 := by
    by_cases own : u.id.key = k
    · exact .inl (own ▸ (h.named u mem).2)
    · exact .inr (if_neg (by rwa [excess_entry_key]))
  have task : (c.excess k).task u.id = u.id := by
    rcases number with early | none
    · rw [Excess.task, skip_of_lt early]
    · rw [Excess.task, none, skip_zero]
  refine ⟨fun spare => ?_, by rw [Excess.listed, task, launch]⟩
  rw [← task] at spare
  exact Excess.not_spare_task _ spare

/-- The task that the first expiration makes is the one of the surplus. -/
theorem spare_taskOf (found : c.current? k = some i) {l : Launch} (mem : l ∈ (c.entry i).spent) :
    (c.excess k).Spare (c.taskOf i l).id := by
  obtain rfl : i.key = k := current?_key found
  have positive : 0 < (c.entry i).spent.length := List.length_pos_of_mem mem
  refine ⟨Nat.le_refl _, ?_⟩
  change Tally.count c.spawned i.key < Tally.count c.spawned i.key + (c.excess i.key).more i.key
  rw [excess_more found]
  omega

/-- The task that the second expiration makes is in the place of the first one. -/
theorem taskOf_expire (found : c.current? k = some i) (present : (c.entry i).retired = false)
    (l : Launch) :
    (c.expire k).taskOf i ((c.entry i).surplus.launch l) = (c.excess k).listed (c.taskOf i l) := by
  obtain rfl : i.key = k := current?_key found
  have ordinal : Tally.count (c.expire i.key).spawned i.key =
      skip (c.excess i.key).ordinal ((c.excess i.key).more i.key)
        (Tally.count c.spawned i.key) := by
    rw [spawned_expire found present, if_pos rfl, excess_more found]
    exact (skip_of_le (Nat.le_refl _)).symm
  rw [Cache.taskOf, ordinal, ← excess_surplusAt found]
  rfl

/-- What holds of every expiration that comes right after another one. -/
structure Repeats (x : Excess κ ε α) (c d : Cache κ ε α) : Prop where
  entry : ∀ i, Entry.Exceeds (x.surplusAt i) (c.entry i) (d.entry i)
  spawned : ∀ k, Tally.count d.spawned k = Tally.count c.spawned k + x.more k
  tasks : (d.tasks.filter fun u => ¬ x.Spare u.id) = c.tasks.map x.listed
  spare : ∀ u ∈ d.tasks, x.Spare u.id → u.entry = x.entry ∧ x.surplus.Spare u.launch.number
  log : d.log = c.log ++ x.events

theorem repeats_of_absent (absent : c.current? k = none) :
    Repeats (c.excess k) (c.expire k) ((c.expire k).expire k) := by
  have none : (c.excess k).surplus = {} := by rw [excess, absent]; rfl
  have surplus : ∀ i, (c.excess k).surplusAt i = {} := fun i => by
    rw [Excess.surplusAt, none, ite_self]
  have more : ∀ k', (c.excess k).more k' = 0 := fun k' => by
    rw [Excess.more, none, ite_self]
  have spare : ∀ u, ¬ (c.excess k).Spare u := fun u spare => by
    rw [Excess.Spare, more] at spare
    omega
  have listed : (c.excess k).listed = id := by
    funext u
    rw [Excess.listed, Excess.task, more, skip_zero, surplus, Surplus.launch_default]
    rfl
  have events : (c.excess k).events = [] := by
    rw [excess, absent]
    exact ite_self _
  rw [expire_of_none ((expire_current? c k k).trans absent)]
  exact {
    entry := fun i => surplus i ▸ .refl _
    spawned := fun k' => by rw [more]; rfl
    tasks := by simp [spare, listed]
    spare := fun u _ own => absurd own (spare u.id)
    log := by rw [events, List.append_nil]; rfl }

section Twice

variable (h : Coherent c []) (found : c.current? k = some i)

include h found

theorem Coherent.present_of_current? : (c.entry i).retired = false :=
  (h.present i (holds_of_current? found)).1

theorem Coherent.entry_once :
    (c.expire k).entry i = ((c.entry i).renewed c.settings.stale).1 := by
  rw [entry_expire found (h.present_of_current? found), if_pos rfl]

theorem Coherent.present_once : ((c.expire k).entry i).retired = false := by
  rw [h.entry_once found, Entry.renewed_retired]
  exact h.present_of_current? found

theorem Coherent.spent_once :
    ((c.expire k).entry i).spent = (c.entry i).spent.map (c.entry i).surplus.launch := by
  rw [h.entry_once found]
  exact (h.sound i).spent_renewed

theorem Coherent.tasks_twice :
    ((c.expire k).expire k).tasks =
      (c.expire k).tasks ++ ((c.entry i).spent.map (c.taskOf i)).map (c.excess k).listed := by
  have found' : (c.expire k).current? k = some i := (expire_current? c k k).trans found
  rw [tasks_expire found' (h.present_once found), h.spent_once found, List.map_map, List.map_map]
  exact congrArg _
    (List.map_congr_left fun l _ => taskOf_expire found (h.present_of_current? found) l)

/-- Without the task that the second expiration stops, the tasks are those of one expiration. -/
theorem Coherent.filter_tasks_twice :
    ((c.expire k).expire k).tasks.filter (fun u => ¬ (c.excess k).Spare u.id) =
      (c.expire k).tasks.map (c.excess k).listed := by
  have early : c.tasks.filter (fun u => ¬ (c.excess k).Spare u.id) = c.tasks :=
    List.filter_eq_self.2 fun u mem => by simpa using (h.listed_excess found mem).1
  have same : c.tasks.map (c.excess k).listed = c.tasks :=
    (List.map_congr_left fun u mem => (h.listed_excess found mem).2).trans (List.map_id _)
  have stopped : ((c.entry i).spent.map (c.taskOf i)).filter
      (fun u => ¬ (c.excess k).Spare u.id) = [] := by
    simpa [List.filter_eq_nil_iff] using fun l mem => spare_taskOf found (l := l) mem
  have replaced : (((c.entry i).spent.map (c.taskOf i)).map (c.excess k).listed).filter
      (fun u => ¬ (c.excess k).Spare u.id) =
        ((c.entry i).spent.map (c.taskOf i)).map (c.excess k).listed := by
    simp [Excess.listed, Excess.not_spare_task]
  rw [h.tasks_twice found, tasks_expire found (h.present_of_current? found), List.filter_append,
    List.filter_append, early, stopped, replaced, List.append_nil, List.map_append, same]

theorem Coherent.log_twice :
    ((c.expire k).expire k).log =
      (c.expire k).log ++ if c.settings.logs then (c.entry i).repetition else [] := by
  have found' : (c.expire k).current? k = some i := (expire_current? c k k).trans found
  have renewed : (c.expire k).entry i =
      ((c.entry i).renewed (c.expire k).settings.stale).1 := by
    rw [h.entry_once found, expire_settings]
  rw [log_expire found' (h.present_once found) renewed, expire_settings]

theorem Coherent.repeats_of_present :
    Repeats (c.excess k) (c.expire k) ((c.expire k).expire k) := by
  have found' : (c.expire k).current? k = some i := (expire_current? c k k).trans found
  have present' := h.present_once found
  have renewed := h.entry_once found
  have tasks := tasks_expire found (h.present_of_current? found)
  have tasks' := h.tasks_twice found
  exact {
    entry := by
      intro j
      rw [entry_expire found' present', renewed, expire_settings]
      split
      next same =>
        rw [← same, excess_surplusAt found, renewed]
        exact (h.sound i).surplus.1
      next other =>
        have foreign : j ≠ (c.excess k).entry := fun same =>
          other (same.trans (excess_entry found)).symm
        rw [Excess.surplusAt, if_neg foreign]
        exact .refl _
    spawned := by
      intro k'
      rw [spawned_expire found' present', h.spent_once found, List.length_map]
      split
      next same => rw [← same, excess_more found]
      next other =>
        have foreign : k' ≠ (c.excess k).entry.key := fun same =>
          other (same.trans (excess_entry_key c k)).symm
        rw [Excess.more, if_neg foreign]
    tasks := h.filter_tasks_twice found
    spare := by
      intro u mem own
      rw [tasks', tasks, List.mem_append, List.mem_append] at mem
      rcases mem with (early | first) | last
      · exact absurd own (h.listed_excess found early).1
      · obtain ⟨l, mem, rfl⟩ := List.mem_map.1 first
        rw [excess_entry found, excess_surplus found, Entry.spare_surplus_iff]
        exact ⟨rfl, List.mem_map_of_mem mem⟩
      · obtain ⟨v, -, rfl⟩ := List.mem_map.1 last
        exact absurd own (Excess.not_spare_task v.id)
    log := by
      rw [h.log_twice found]
      simp [excess, found] }

end Twice

/-- Outdating a key twice instead of once leaves the excess, and nothing else. -/
theorem Coherent.exceeds_expire (h : Coherent c []) (booked : Booked c) (k : κ) :
    Exceeds (c.excess k) (c.expire k) ((c.expire k).expire k) := by
  have repeats : Repeats (c.excess k) (c.expire k) ((c.expire k).expire k) := by
    cases found : c.current? k with
    | none => exact repeats_of_absent found
    | some i => exact h.repeats_of_present found
  have after : Coherent (c.expire k) [] := (h.expire k).1.coherent
  exact {
    settings := expire_settings _ k
    alive := expire_alive _ k
    created := expire_created _ k
    table := expire_table _ k
    observers := expire_observers _ k
    entry := repeats.entry
    spawned := repeats.spawned
    ordinal := by
      rw [excess_entry_key]
      exact (h.expire k).1.spawned k
    tasks := repeats.tasks
    spare := repeats.spare
    named := fun u mem => (after.named u mem).1
    log := ⟨[], [], (List.append_nil _).symm, by rw [repeats.log, List.append_nil]; rfl, .nil⟩
    history := ⟨[], rfl, expire_history _ k⟩
    unmarked := by simp [excess]
    booked := by
      intro u called key
      rw [excess_entry_key] at key
      have early : .called u ∈ c.history := by
        rw [show (c.excess k).past = _ from expire_history c k] at called
        simpa using called
      exact key ▸ booked u early }

/-- All that is seen right after the second expiration of an entry. -/
structure Repeated (c : Cache κ ε α) (k : κ) (i : EntryId κ) : Prop where
  generation : (((c.expire k).expire k).entry i).generation =
    ((c.expire k).entry i).generation + 1
  unobserved : (c.entry i).subscribers = 0 →
    ((c.expire k).expire k).tasks = (c.expire k).tasks ∧
      (c.settings.logs = true → ((c.expire k).expire k).log =
        (c.expire k).log ++ [⟨.expired, ((c.expire k).entry i).generation + 1⟩])
  observed : (c.entry i).subscribers ≠ 0 → ∃ u, (c.excess k).Spare u.id ∧
    (c.expire k).tasks = c.tasks ++ [u] ∧
    ((c.expire k).expire k).tasks = c.tasks ++ [u, (c.excess k).listed u] ∧
    (c.settings.logs = true → ((c.expire k).expire k).log =
      (c.expire k).log ++ [⟨.expired, ((c.expire k).entry i).generation + 1⟩,
        ⟨.cancelled, ((c.expire k).entry i).generation⟩,
        ⟨.computing, ((c.expire k).entry i).generation + 1⟩])

theorem Coherent.repeated (h : Coherent c []) (found : c.current? k = some i) :
    Repeated c k i := by
  have found' : (c.expire k).current? k = some i := (expire_current? c k k).trans found
  have tasks := tasks_expire found (h.present_of_current? found)
  have tasks' := h.tasks_twice found
  have log := h.log_twice found
  have generation : ((c.expire k).entry i).generation = (c.entry i).generation + 1 := by
    rw [h.entry_once found, Entry.renewed_generation]
  refine ⟨?_, fun alone => ⟨?_, fun logs => ?_⟩, fun observed => ?_⟩
  · rw [entry_expire found' (h.present_once found), if_pos rfl, Entry.renewed_generation]
  · have spent : (c.entry i).spent = [] := if_pos alone
    rw [tasks', spent]
    exact List.append_nil _
  · have spent : (c.entry i).spent = [] := if_pos alone
    rw [log, if_pos logs, generation, Entry.repetition, spent]
    rfl
  · have spent : (c.entry i).spent = [⟨(c.entry i).launches.length, (c.entry i).generation + 1⟩] :=
      if_neg observed
    refine ⟨c.taskOf i ⟨(c.entry i).launches.length, (c.entry i).generation + 1⟩,
      spare_taskOf found (spent ▸ List.mem_cons_self), ?_, ?_, fun logs => ?_⟩
    · rw [tasks, spent]
      rfl
    · rw [tasks', tasks, spent, List.append_assoc]
      rfl
    · rw [log, if_pos logs, generation, Entry.repetition, spent]
      rfl

end Cache

namespace TimedCache

open Cache (Exceeds Input Output Repeated Resembles Runs)

variable {κ ε α : Type} [DecidableEq κ] {t : TimedCache κ ε α} {lossy : Prop}
  {settings : Settings} {ttl : Option Nat}

/-- Outdating a key twice instead of once makes no difference to readers. If the key is not in the
table, nothing is different at all. If it is, its generation is later by one, and if somebody
observes it, a task was launched and stopped. Whatever is done with the one cache can be done with
the other, with the same answers, and the difference stays as it is. -/
theorem expire_idempotent (h : Reached lossy settings ttl t) (k : κ) :
    let once := t.cache.expire k
    let twice := once.expire k
    let x := t.cache.excess k
    Exceeds x once twice ∧ Resembles k once twice ∧
    (t.cache.current? k = none → twice = once.note (.expired k)) ∧
    (∀ i, t.cache.current? k = some i → Repeated t.cache k i) ∧
    (∀ (drops : Prop) trace c, Runs drops once trace c →
      ∃ d, Runs drops twice (trace.map fun p => (x.input p.1, p.2)) d ∧ Exceeds x c d) ∧
    (∀ (drops : Prop) trace d, Runs drops twice trace d →
      ∃ before c, Runs drops once before c ∧ Exceeds x c d ∧
        before.map (fun p => (x.input p.1, p.2)) = trace.filter fun p => !x.clears p.1) ∧
    ∀ c d, Exceeds x c d → Resembles k c d ∧
      ∀ u ∈ d.tasks, x.Spare u.id → d.isAborted u = true ∧ .called u.id ∉ d.history := by
  intro once twice x
  have exceeds : Exceeds x once twice := h.coherent.exceeds_expire h.faithful.booked k
  have key : x.entry.key = k := Cache.excess_entry_key t.cache k
  refine ⟨exceeds, exceeds.resembles key, fun absent => ?_,
    fun i found => h.coherent.repeated found, fun drops trace c run => exceeds.run run,
    fun drops trace d run => exceeds.run_back run,
    fun c d related => ⟨related.resembles key, fun u mem spare => ⟨?_, ?_⟩⟩⟩
  · exact Cache.expire_of_none ((Cache.expire_current? t.cache k k).trans absent)
  · exact related.isAborted_of_spare mem spare
  · exact related.not_called_of_spare spare

/-- A reader waits for the key when it is outdated. The computation that was launched first is
stopped, and the one in its place is called and returns what the reader is shown. -/
theorem expire_idempotent_observed :
    let t : TimedCache Nat Nat Nat := (opened {} none).observe (.reader "r") 0
    let twice := (t.cache.expire 0).expire 0
    let u : Task Nat := ⟨⟨0, 1⟩, ⟨0, 0⟩, ⟨1, 1⟩⟩
    let v : Task Nat := ⟨⟨0, 2⟩, ⟨0, 0⟩, ⟨2, 2⟩⟩
    Resembles 0 (t.cache.expire 0) twice ∧ twice.tasks = t.cache.tasks ++ [u, v] ∧
      twice.isAborted u = true ∧
      ∃ d, Runs False twice [(.call v, .given .nothing),
        (.finish v (.success 7) none, .given .nothing),
        (.poll (.reader "r"), .polled (some (.known (.success 7) .done)))] d ∧ d.calls 0 = 1 := by
  intro t twice u v
  have reached : Reached False {} none t := .single (.deed (.observe (.reader "r") 0))
  let once := t.cache.expire 0
  let called := once.note (.called u.id)
  let ended := (called.withdraw u none).settle u (.success 7)
  have shown : (ended.poll (.reader "r")).2 = some (.known (.success 7) .done) := by decide
  have calls : (ended.poll (.reader "r")).1.calls 0 = 1 := by decide
  have admitted : called.Admits False (.finish u (.success 7) none) :=
    ⟨by decide, by decide, by decide⟩
  have run : Runs False once [(.call u, .given .nothing),
      (.finish u (.success 7) none, .given .nothing),
      (.poll (.reader "r"), .polled (some (.known (.success 7) .done)))]
      (ended.poll (.reader "r")).1 := by
    rw [← shown]
    exact .cons ⟨by decide, by decide, by decide⟩ (.cons admitted (.cons trivial .nil))
  obtain ⟨-, same, -, -, follows, -, later⟩ := expire_idempotent reached 0
  obtain ⟨d, again, exceeds⟩ := follows False _ _ run
  have place : (t.cache.excess 0).listed u = v := by decide
  have tasks : twice.tasks = t.cache.tasks ++ [u, v] := by decide
  refine ⟨same, tasks, by decide, d, ?_, ?_⟩
  · simpa only [List.map_cons, List.map_nil, Excess.input, place] using again
  · rw [(later _ d exceeds).1.calls, calls]

end TimedCache

end LiveCache
