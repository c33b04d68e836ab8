import LiveCache.Proofs.Cache.Parts

/-! # Coherence of a cache

`Coherent` ties the table, the entries, the subscriptions and the tasks of a cache to each other. It
is stated with a list of loose subscriptions, those that an operation has made and not yet given to
a holder, or has taken from one and not yet ended; between operations there are none. Each operation
is shown to keep it.
-/

namespace LiveCache.Cache

variable {κ ε α : Type} [DecidableEq κ]

open Entry (Sound Change Shift Unrepeated)

/-- The number of subscriptions of an entry that have a holder. -/
def holders (c : Cache κ ε α) (i : EntryId κ) : Nat := c.observers.count fun s => s.entry = i

structure Coherent (c : Cache κ ε α) (loose : List (EntryId κ)) : Prop where
  located : ∀ i, c.Holds i → i.ordinal < Tally.count c.created i.key
  unmade : ∀ i, Tally.count c.created i.key ≤ i.ordinal → c.entry i = {}
  sound : ∀ i, (c.entry i).Sound c.settings.stale
  ordered : ∀ i, (c.entry i).launches.Pairwise fun l l' => l'.generation < l.generation
  present : ∀ i, c.Holds i → (c.entry i).retired = false ∧ (c.entry i).Unrepeated
  retired : ∀ i, i.ordinal < Tally.count c.created i.key → ¬ c.Holds i →
    (c.entry i).retired = true
  counted : ∀ i, (c.entry i).subscribers = c.holders i + loose.count i
  named : ∀ t ∈ c.tasks, t.id.key = t.entry.key ∧ t.id.ordinal < Tally.count c.spawned t.id.key
  distinct : (c.tasks.map (·.id)).Nodup
  handed : ∀ t ∈ c.tasks, t.launch ∈ (c.entry t.entry).launches
  /-- No launch was handed to two tasks. -/
  unshared : ∀ t ∈ c.tasks, ∀ u ∈ c.tasks, t.entry = u.entry → t.launch = u.launch → t = u
  /-- A task that was not told to stop is what its entry computes. -/
  live : ∀ t ∈ c.tasks, c.isAborted t = false →
    ∃ previous, (c.entry t.entry).phase = .computing t.launch previous
  /-- As long as the cache lives, what an entry computes was not told to stop. -/
  running : c.alive = true → ∀ i l previous, (c.entry i).phase = .computing l previous →
    l.number ∉ (c.entry i).aborted

variable {c d : Cache κ ε α} {loose loose' : List (EntryId κ)}

theorem coherent_ofSettings (s : Settings) : Coherent (ofSettings s : Cache κ ε α) [] where
  located := by
    intro i hi
    rw [holds_iff] at hi
    cases hi
  unmade := fun _ _ => rfl
  sound := fun _ => Entry.sound_fresh
  ordered := fun _ => List.Pairwise.nil
  present := fun _ _ => ⟨rfl, Entry.unrepeated_fresh⟩
  retired := by
    intro i hi
    cases hi
  counted := fun _ => rfl
  named := by simp [ofSettings]
  distinct := List.nodup_nil
  handed := by simp [ofSettings]
  unshared := by simp [ofSettings]
  live := by simp [ofSettings]
  running := by
    intro _ i l previous hp
    cases hp

/-- An entry that the table does not hold has no subscribers and computes nothing. -/
theorem Coherent.gone (h : Coherent c loose) {i : EntryId κ} (out : ¬ c.Holds i) :
    (c.entry i).subscribers = 0 ∧ (c.entry i).phase.isComputing = false := by
  by_cases made : i.ordinal < Tally.count c.created i.key
  · exact (h.sound i).resting (h.retired i made out)
  · rw [h.unmade i (Nat.le_of_not_lt made)]
    exact ⟨rfl, rfl⟩

theorem Coherent.holds_of_computing (h : Coherent c loose) {i : EntryId κ} {l : Launch}
    {previous : Option (Outcome ε α)} (hp : (c.entry i).phase = .computing l previous) :
    c.Holds i := by
  by_contra out
  have calm := (h.gone out).2
  simp [hp, Phase.isComputing] at calm

theorem Coherent.holds_of_observed (h : Coherent c loose) {i : EntryId κ}
    (observed : 0 < c.holders i + loose.count i) : c.Holds i := by
  by_contra out
  have none := (h.gone out).1
  rw [h.counted i] at none
  omega

theorem Coherent.observed_of_find? (h : Coherent c loose) {x : Holder κ} {s : Subscription κ}
    (found : c.observers.find? x = some s) : 0 < (c.entry s.entry).subscribers := by
  have mem : s ∈ c.observers.values :=
    List.mem_map.2 ⟨(x, s), (Registry.find?_eq_some_iff _ _ _).1 found, rfl⟩
  have : 0 < c.holders s.entry := List.countP_pos_iff.2 ⟨s, mem, by simp⟩
  have counted := h.counted s.entry
  omega

/-- Every subscription belongs to the entry that the table holds for its key. -/
theorem Coherent.holds_of_find? (h : Coherent c loose) {x : Holder κ} {s : Subscription κ}
    (found : c.observers.find? x = some s) : c.Holds s.entry := by
  apply h.holds_of_observed
  rw [← h.counted]
  exact h.observed_of_find? found

/-! ## Changes that concern no entry -/

/-- Coherence does not depend on logs, on the history or on the order of the tasks. -/
theorem Coherent.congr (h : Coherent c loose) (settings : d.settings = c.settings)
    (entry : d.entry = c.entry) (created : d.created = c.created) (table : d.table = c.table)
    (observers : d.observers = c.observers) (tasks : d.tasks.Perm c.tasks)
    (spawned : d.spawned = c.spawned) (alive : d.alive = true → c.alive = true) :
    Coherent d loose := by
  have holds : ∀ i, d.Holds i ↔ c.Holds i := by
    intro i
    rw [holds_iff, holds_iff, table]
  exact {
    located := by
      intro i hi
      rw [created]
      exact h.located i ((holds i).1 hi)
    unmade := by rw [created, entry]; exact h.unmade
    sound := by rw [entry, settings]; exact h.sound
    ordered := by rw [entry]; exact h.ordered
    present := by
      intro i hi
      rw [entry]
      exact h.present i ((holds i).1 hi)
    retired := by
      intro i made out
      rw [entry]
      rw [created] at made
      exact h.retired i made fun hi => out ((holds i).2 hi)
    counted := by
      intro i
      rw [entry, show d.holders i = c.holders i by rw [holders, holders, observers]]
      exact h.counted i
    named := by
      intro t ht
      rw [spawned]
      exact h.named t (tasks.mem_iff.1 ht)
    distinct := ((tasks.map _).nodup_iff).2 h.distinct
    handed := by
      intro t ht
      rw [entry]
      exact h.handed t (tasks.mem_iff.1 ht)
    unshared := fun t ht u hu => h.unshared t (tasks.mem_iff.1 ht) u (tasks.mem_iff.1 hu)
    live := by
      intro t ht
      simp only [isAborted, entry]
      exact h.live t (tasks.mem_iff.1 ht)
    running := by
      intro ha
      rw [entry]
      exact h.running (alive ha) }

theorem Coherent.note (h : Coherent c loose) (x : Happening κ ε α) : Coherent (c.note x) loose :=
  h.congr rfl rfl rfl rfl rfl (List.Perm.refl _) rfl id

theorem Coherent.record (h : Coherent c loose) (a : Activity) (n : Nat) :
    Coherent (c.record a n) loose :=
  h.congr (by simp) (by simp) (by simp) (by simp) (by simp) (by simp) (by simp) (by simp)

/-- Giving subscriptions to holders, or taking them, keeps the numbers of subscribers. -/
theorem Coherent.recount (h : Coherent c loose) (observers : Registry (Holder κ) (Subscription κ))
    (same : ∀ i, observers.count (fun s => s.entry = i) + loose'.count i =
      c.holders i + loose.count i) :
    Coherent { c with observers := observers } loose' where
  located := h.located
  unmade := h.unmade
  sound := h.sound
  ordered := h.ordered
  present := h.present
  retired := h.retired
  counted := by
    intro i
    rw [show (Cache.entry { c with observers := observers } i) = c.entry i from rfl, h.counted i]
    exact (same i).symm
  named := h.named
  distinct := h.distinct
  handed := h.handed
  unshared := h.unshared
  live := h.live
  running := h.running

/-! ## Changes to one entry -/

section Touch

variable {i : EntryId κ} {e : Entry ε α} {handed : Option Launch}

theorem touch_entry_self : ((c.put i e).spawn? i handed).entry i = e := by simp

theorem touch_entry_of_ne {j : EntryId κ} (h : j ≠ i) :
    ((c.put i e).spawn? i handed).entry j = c.entry j := by
  rw [spawn?_entry, entry_put_of_ne c e (Ne.symm h)]

theorem touch_holds (j : EntryId κ) : ((c.put i e).spawn? i handed).Holds j ↔ c.Holds j := by
  rw [holds_iff, holds_iff, spawn?_table, put_table]

/-- The tasks after a touch: those before, and the one that a launch becomes. -/
theorem mem_touch_tasks (t : Task κ) : t ∈ ((c.put i e).spawn? i handed).tasks ↔
    t ∈ c.tasks ∨ ∃ l, handed = some l ∧ t = c.taskOf i l := by
  rw [spawn?_tasks, List.mem_append, put_tasks]
  cases handed with
  | none => simp
  | some l => simp [taskOf]

theorem touch_spawned_le (k : κ) :
    Tally.count c.spawned k ≤ Tally.count ((c.put i e).spawn? i handed).spawned k := by
  rw [spawn?_spawned, put_spawned]
  exact Nat.le_add_right _ _

/-- The entry that the table holds may change as an entry may change, if each of its tasks that is
not told to stop goes on. -/
theorem Coherent.touch (h : Coherent c loose) (held : c.Holds i)
    (sound : e.Sound c.settings.stale) (change : Change (c.entry i) e handed)
    (unrepeated : e.Unrepeated) (present : e.retired = false)
    (live : ∀ t ∈ c.tasks, t.entry = i → ∀ previous,
      (c.entry i).phase = .computing t.launch previous → t.launch.number ∉ e.aborted →
      ∃ previous, e.phase = .computing t.launch previous)
    (count : e.subscribers = c.holders i + loose'.count i)
    (others : ∀ j, j ≠ i → loose'.count j = loose.count j) :
    Coherent ((c.put i e).spawn? i handed) loose' := by
  have old : ∀ l ∈ (c.entry i).launches, handed ≠ some l := by
    intro l hl same
    have order := unrepeated.ordered
    rw [change.launches, same] at order
    exact Nat.lt_irrefl _ ((List.pairwise_cons.1 order).1 l hl)
  exact {
    located := by
      intro j hj
      rw [spawn?_created, put_created]
      exact h.located j ((touch_holds j).1 hj)
    unmade := by
      intro j hj
      rw [spawn?_created, put_created] at hj
      by_cases same : j = i
      · subst same
        have := h.located j held
        omega
      · rw [touch_entry_of_ne same]
        exact h.unmade j hj
    sound := by
      intro j
      rw [spawn?_settings, put_settings]
      by_cases same : j = i
      · subst same
        rwa [touch_entry_self]
      · rw [touch_entry_of_ne same]
        exact h.sound j
    ordered := by
      intro j
      by_cases same : j = i
      · subst same
        rw [touch_entry_self]
        exact unrepeated.ordered
      · rw [touch_entry_of_ne same]
        exact h.ordered j
    present := by
      intro j hj
      by_cases same : j = i
      · subst same
        rw [touch_entry_self]
        exact ⟨present, unrepeated⟩
      · rw [touch_entry_of_ne same]
        exact h.present j ((touch_holds j).1 hj)
    retired := by
      intro j made out
      rw [touch_holds] at out
      rw [spawn?_created, put_created] at made
      have same : j ≠ i := fun same => out (same ▸ held)
      rw [touch_entry_of_ne same]
      exact h.retired j made out
    counted := by
      intro j
      rw [show ((c.put i e).spawn? i handed).holders j = c.holders j by simp [holders]]
      by_cases same : j = i
      · subst same
        rw [touch_entry_self, count]
      · rw [touch_entry_of_ne same, others j same]
        exact h.counted j
    named := by
      intro t ht
      rcases (mem_touch_tasks t).1 ht with ht | ⟨l, rfl, rfl⟩
      · obtain ⟨key, bound⟩ := h.named t ht
        exact ⟨key, Nat.lt_of_lt_of_le bound (touch_spawned_le _)⟩
      · refine ⟨rfl, ?_⟩
        rw [spawn?_spawned, put_spawned]
        simp [taskOf]
    distinct := by
      rw [spawn?_tasks, put_tasks, List.map_append, List.nodup_append]
      refine ⟨h.distinct, by cases handed <;> simp, ?_⟩
      intro x hx y hy
      obtain ⟨t, ht, rfl⟩ := List.mem_map.1 hx
      cases handed with
      | none => simp at hy
      | some l =>
          simp only [Option.map_some, Option.toList_some, List.map_cons, List.map_nil,
            List.mem_singleton] at hy
          subst hy
          intro same
          have bound := (h.named t ht).2
          rw [same] at bound
          simp [taskOf] at bound
    handed := by
      intro t ht
      rcases (mem_touch_tasks t).1 ht with ht | ⟨l, rfl, rfl⟩
      · have mem := h.handed t ht
        by_cases same : t.entry = i
        · rw [same] at mem ⊢
          rw [touch_entry_self, change.launches]
          exact List.mem_append_right _ mem
        · rw [touch_entry_of_ne same]
          exact mem
      · rw [show (c.taskOf i l).entry = i from rfl, touch_entry_self, change.launches]
        exact List.mem_append_left _ (by simp [taskOf])
    unshared := by
      intro t ht u hu entries launches
      rcases (mem_touch_tasks t).1 ht with ht | ⟨l, rfl, rfl⟩ <;>
        rcases (mem_touch_tasks u).1 hu with hu | ⟨l', same, rfl⟩
      · exact h.unshared t ht u hu entries launches
      · have mem := h.handed t ht
        rw [entries, launches] at mem
        exact absurd same (old l' mem)
      · have mem := h.handed u hu
        rw [← entries, ← launches] at mem
        exact absurd rfl (old l mem)
      · cases same
        rfl
    live := by
      intro t ht alive
      simp only [isAborted, decide_eq_false_iff_not] at alive
      rcases (mem_touch_tasks t).1 ht with ht | ⟨l, rfl, rfl⟩
      · by_cases same : t.entry = i
        · rw [same, touch_entry_self] at alive
          have before := h.live t ht
          simp only [isAborted, decide_eq_false_iff_not, same] at before
          obtain ⟨previous, hp⟩ := before fun stop => alive (change.aborted stop)
          rw [same, touch_entry_self]
          exact live t ht same previous hp alive
        · rw [touch_entry_of_ne same] at alive ⊢
          exact h.live t ht (by simpa [isAborted] using alive)
      · rw [show (c.taskOf i l).entry = i from rfl, touch_entry_self]
        exact (change.begun l rfl).2.2
    running := by
      intro ha j l previous hp
      rw [spawn?_alive, put_alive] at ha
      by_cases same : j = i
      · subst same
        rw [touch_entry_self] at hp ⊢
        cases handed with
        | none =>
            obtain ⟨before, spared⟩ := change.kept rfl l previous hp
            exact fun stop => h.running ha j l previous before (spared stop)
        | some l' =>
            obtain ⟨-, spared, previous', hp'⟩ := change.begun l' rfl
            rw [hp] at hp'
            cases hp'
            exact spared
      · rw [touch_entry_of_ne same] at hp ⊢
        exact h.running ha j l previous hp }

/-- A change that ends computations only by telling them to stop needs no look at the tasks. -/
theorem Coherent.shift (h : Coherent c loose) (held : c.Holds i)
    (sound : e.Sound c.settings.stale) (shift : Shift (c.entry i) e handed)
    (unrepeated : e.Unrepeated) (present : e.retired = false)
    (count : e.subscribers = c.holders i + loose'.count i)
    (others : ∀ j, j ≠ i → loose'.count j = loose.count j) :
    Coherent ((c.put i e).spawn? i handed) loose' := by
  refine h.touch held sound shift.toChange unrepeated present ?_ count others
  intro t _ _ previous hp spared
  rcases shift.ended t.launch previous hp with goes | stop
  · exact ⟨previous, goes⟩
  · exact absurd stop spared

theorem Coherent.touch_put (h : Coherent c loose) (held : c.Holds i)
    (sound : e.Sound c.settings.stale) (change : Change (c.entry i) e none)
    (unrepeated : e.Unrepeated) (present : e.retired = false)
    (live : ∀ t ∈ c.tasks, t.entry = i → ∀ previous,
      (c.entry i).phase = .computing t.launch previous → t.launch.number ∉ e.aborted →
      ∃ previous, e.phase = .computing t.launch previous)
    (count : e.subscribers = c.holders i + loose'.count i)
    (others : ∀ j, j ≠ i → loose'.count j = loose.count j) : Coherent (c.put i e) loose' := by
  have touched := h.touch held sound change unrepeated present live count others
  exact touched

theorem Coherent.shift_put (h : Coherent c loose) (held : c.Holds i)
    (sound : e.Sound c.settings.stale) (shift : Shift (c.entry i) e none)
    (unrepeated : e.Unrepeated) (present : e.retired = false)
    (count : e.subscribers = c.holders i + loose'.count i)
    (others : ∀ j, j ≠ i → loose'.count j = loose.count j) : Coherent (c.put i e) loose' := by
  have touched := h.shift held sound shift unrepeated present count others
  exact touched

end Touch

/-! ## Entries that come and go -/

/-- A cache whose table has just made an entry for a key. -/
def enrol (c : Cache κ ε α) (k : κ) : Cache κ ε α :=
  { c with
    table := c.table.insert k (Tally.count c.created k), created := Tally.bump c.created k }

theorem locate_of_some {k : κ} {i : EntryId κ} (found : c.current? k = some i) :
    c.locate k = (c, i) := by
  simp [locate, found]

theorem locate_of_none {k : κ} (absent : c.current? k = none) :
    c.locate k = (c.enrol k, ⟨k, Tally.count c.created k⟩) := by
  simp [locate, absent, enrol]

theorem enrol_holds (k : κ) (j : EntryId κ) :
    (c.enrol k).Holds j ↔ if j.key = k then j = ⟨k, Tally.count c.created k⟩ else c.Holds j := by
  rw [holds_iff, holds_iff, enrol, Registry.find?_insert]
  obtain ⟨key, n⟩ := j
  by_cases same : k = key
  · subst same
    simp [eq_comm]
  · simp [same, Ne.symm same]

theorem not_holds_of_current?_none {k : κ} (absent : c.current? k = none) {j : EntryId κ}
    (same : j.key = k) : ¬ c.Holds j := by
  unfold Holds
  rw [same, absent]
  simp

theorem Coherent.enrol (h : Coherent c loose) {k : κ} (absent : c.current? k = none) :
    Coherent (c.enrol k) loose where
  located := by
    intro j hj
    rw [enrol_holds] at hj
    rw [show (c.enrol k).created = Tally.bump c.created k from rfl, Tally.count_bump]
    by_cases same : j.key = k
    · rw [if_pos same] at hj
      subst hj
      simp
    · rw [if_neg same] at hj
      rw [if_neg (Ne.symm same)]
      exact h.located j hj
  unmade := by
    intro j hj
    rw [show (c.enrol k).created = Tally.bump c.created k from rfl, Tally.count_bump] at hj
    apply h.unmade j
    split at hj
    next same =>
      subst same
      exact Nat.le_of_succ_le hj
    next => exact hj
  sound := h.sound
  ordered := h.ordered
  present := by
    intro j hj
    rw [enrol_holds] at hj
    by_cases same : j.key = k
    · rw [if_pos same] at hj
      have fresh : c.entry j = {} := h.unmade j (by subst hj; exact Nat.le_refl _)
      rw [show (c.enrol k).entry j = c.entry j from rfl, fresh]
      exact ⟨rfl, Entry.unrepeated_fresh⟩
    · rw [if_neg same] at hj
      exact h.present j hj
  retired := by
    intro j made out
    rw [show (c.enrol k).created = Tally.bump c.created k from rfl, Tally.count_bump] at made
    rw [enrol_holds] at out
    by_cases same : j.key = k
    · rw [if_pos same] at out
      rw [if_pos same.symm] at made
      have other : j.ordinal ≠ Tally.count c.created k := by
        intro he
        exact out (by rw [← he, ← same])
      refine h.retired j ?_ (not_holds_of_current?_none absent same)
      rw [same]
      omega
    · rw [if_neg same] at out
      rw [if_neg (Ne.symm same)] at made
      exact h.retired j made out
  counted := h.counted
  named := h.named
  distinct := h.distinct
  handed := h.handed
  unshared := h.unshared
  live := h.live
  running := h.running

/-- Looking up the entry of a key leaves it in the table. -/
theorem Coherent.locate (h : Coherent c loose) (k : κ) :
    Coherent (c.locate k).1 loose ∧ (c.locate k).1.Holds (c.locate k).2 ∧
      (c.locate k).2.key = k := by
  cases found : c.current? k with
  | none =>
      rw [locate_of_none found]
      refine ⟨h.enrol found, ?_, rfl⟩
      rw [enrol_holds]
      simp
  | some i =>
      rw [locate_of_some found]
      exact ⟨h, holds_of_current? found, current?_key found⟩

/-- The cache without an entry that was retired. -/
def dismiss (c : Cache κ ε α) (i : EntryId κ) (e : Entry ε α) : Cache κ ε α :=
  { c.put i e with table := c.table.erase i.key }

theorem dismiss_entry_self (i : EntryId κ) (e : Entry ε α) : (c.dismiss i e).entry i = e :=
  entry_put_self c i e

theorem dismiss_entry_of_ne {i j : EntryId κ} (e : Entry ε α) (other : j ≠ i) :
    (c.dismiss i e).entry j = c.entry j := entry_put_of_ne c e (Ne.symm other)

theorem dismiss_holds (i j : EntryId κ) (e : Entry ε α) :
    (c.dismiss i e).Holds j ↔ j.key ≠ i.key ∧ c.Holds j := by
  rw [holds_iff, holds_iff, dismiss, Registry.find?_erase]
  by_cases same : i.key = j.key
  · simp [same]
  · simp [same, Ne.symm same]

/-- An entry that leaves the table computes nothing any more. -/
theorem Coherent.dismiss (h : Coherent c loose) {i : EntryId κ} {e : Entry ε α}
    (held : c.Holds i) (sound : e.Sound c.settings.stale) (shift : Shift (c.entry i) e none)
    (retired : e.retired = true) (same : e.subscribers = (c.entry i).subscribers) :
    Coherent (c.dismiss i e) loose where
  located := fun j hj => h.located j ((dismiss_holds i j e).1 hj).2
  unmade := by
    intro j hj
    have other : j ≠ i := by
      rintro rfl
      exact Nat.not_lt.2 hj (h.located j held)
    rw [dismiss_entry_of_ne e other]
    exact h.unmade j hj
  sound := by
    intro j
    by_cases this : j = i
    · rw [this, dismiss_entry_self]
      exact sound
    · rw [dismiss_entry_of_ne e this]
      exact h.sound j
  ordered := by
    intro j
    by_cases this : j = i
    · rw [this, dismiss_entry_self, shift.launches]
      exact h.ordered i
    · rw [dismiss_entry_of_ne e this]
      exact h.ordered j
  present := by
    intro j hj
    obtain ⟨key, hj⟩ := (dismiss_holds i j e).1 hj
    have other : j ≠ i := fun this => key (congrArg EntryId.key this)
    rw [dismiss_entry_of_ne e other]
    exact h.present j hj
  retired := by
    intro j made out
    rw [dismiss_holds] at out
    by_cases this : j = i
    · rw [this, dismiss_entry_self, retired]
    · rw [dismiss_entry_of_ne e this]
      apply h.retired j made
      intro hj
      exact out ⟨fun key => this (hj.unique held key), hj⟩
  counted := by
    intro j
    rw [show (c.dismiss i e).holders j = c.holders j from rfl, ← h.counted j]
    by_cases this : j = i
    · rw [this, dismiss_entry_self, same]
    · rw [dismiss_entry_of_ne e this]
  named := h.named
  distinct := h.distinct
  handed := by
    intro t ht
    have mem := h.handed t ht
    by_cases this : t.entry = i
    · rw [this] at mem ⊢
      rw [dismiss_entry_self, shift.launches]
      exact mem
    · rw [dismiss_entry_of_ne e this]
      exact mem
  unshared := h.unshared
  live := by
    intro t ht alive
    simp only [isAborted, decide_eq_false_iff_not] at alive
    have before := h.live t ht
    simp only [isAborted, decide_eq_false_iff_not] at before
    by_cases this : t.entry = i
    · rw [this, dismiss_entry_self] at alive ⊢
      rw [this] at before
      obtain ⟨previous, hp⟩ := before fun stop => alive (shift.aborted stop)
      rcases shift.ended t.launch previous hp with goes | stop
      · exact ⟨previous, goes⟩
      · exact absurd stop alive
    · rw [dismiss_entry_of_ne e this] at alive ⊢
      exact before alive
  running := by
    intro ha j l previous hp
    by_cases this : j = i
    · rw [this, dismiss_entry_self] at hp ⊢
      have calm := (sound.resting retired).2
      simp [hp, Phase.isComputing] at calm
    · rw [dismiss_entry_of_ne e this] at hp ⊢
      exact h.running ha j l previous hp

end LiveCache.Cache
