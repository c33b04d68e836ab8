import LiveCache.Proofs.Cache.Writing

/-! # The strides of a cache

Whatever is done to a cache, by its owners or by the executor, is one stride or several. A `Pace` is
a stride of an owner, and a `Stride` says all that may happen in any, so what holds of a cache at
all times is shown stride by stride. The executor is lossy when it may drop a task that was not told
to stop.
-/

namespace LiveCache

variable {κ ε α : Type} [DecidableEq κ]

/-- The happening is a write of the key. -/
def Happening.writes (k : κ) : Happening κ ε α → Bool
  | installed k' _ => k' = k
  | expired k' => k' = k
  | expiredAll => true
  | _ => false

namespace Cache

/-- What an owner does to a cache that goes on. -/
inductive Pace (c d : Cache κ ε α) : Prop where
  /-- Something is read or let go. -/
  | read (course : ∀ spared, Course spared c d [])
  /-- A timer is started. -/
  | arm (k : κ) (time : Nat) (eq : d = c.note (.armed k time))
  | install (k : κ) (value : α) (past : d.history = .installed k value :: c.history)
      (course : Course (· ≠ k) (c.note (.installed k value)) d [])
      (held : ∃ i, d.Holds i ∧ i.key = k ∧ (d.entry i).phase = .settled (.success value))
  /-- One key expires, or all do. -/
  | expire (w : Happening κ ε α) (kind : w = .expiredAll ∨ ∃ k, w = .expired k)
      (past : d.history = w :: c.history)
      (course : Course (fun k => w.writes k = false) (c.note w) d [])
      (renewed : ∀ k, w.writes k = true → Renewed (c.note w) d k)

/-- Takes a task whose computation has ended from the executor's list. A panic is reported. -/
def withdraw (c : Cache κ ε α) (t : Task κ) : Option String → Cache κ ε α
  | none => c.removeTask t.id
  | some text => (c.removeTask t.id).record (.faulted text) t.launch.generation

inductive Stride (lossy : Prop) (c d : Cache κ ε α) : Prop where
  | pace (pace : Pace c d)
  /-- The last owner is gone. -/
  | close (course : ∀ spared, Course spared { c with alive := false } d [])
  /-- The computation of a task is begun. -/
  | call (t : Task κ) (listed : t ∈ c.tasks) (spared : c.isAborted t = false)
      (first : .called t.id ∉ c.history) (eq : d = c.note (.called t.id))
  /-- The computation of a task has ended, and its result is handed in. It may have been told to
  stop in the meantime. -/
  | finish (t : Task κ) (listed : t ∈ c.tasks) (called : .called t.id ∈ c.history)
      (alive : c.alive = true) (o : Outcome ε α) (report : Option String)
      (eq : d = (c.withdraw t report).settle t o)
  /-- A task is taken from the executor's list, and its result, if any, is lost. -/
  | leave (t : Task κ) (listed : t ∈ c.tasks)
      (why : c.isAborted t = true ∨ c.alive = false ∨ lossy) (eq : d = c.removeTask t.id)

variable {c d : Cache κ ε α} {lossy : Prop}

/-- What a result finds when its task has left the list. -/
structure Ending (c : Cache κ ε α) (t : Task κ) (e : Cache κ ε α) : Prop where
  coherent : Coherent e []
  settings : e.settings = c.settings
  entry : e.entry = c.entry
  table : e.table = c.table
  tasks : e.tasks = (c.removeTask t.id).tasks
  spawned : e.spawned = c.spawned
  history : e.history = c.history
  alive : e.alive = c.alive
  handed : t.launch ∈ (e.entry t.entry).launches
  /-- No task of the launch is left. -/
  alone : ∀ u ∈ e.tasks, u.entry = t.entry → u.launch ≠ t.launch

theorem Coherent.ending (h : Coherent c []) {t : Task κ} (listed : t ∈ c.tasks)
    (report : Option String) : Ending c t (c.withdraw t report) := by
  have alone : ∀ u ∈ (c.removeTask t.id).tasks, u.entry = t.entry → u.launch ≠ t.launch := by
    intro u hu entries launches
    obtain ⟨hu, other⟩ := (mem_removeTask c t.id u).1 hu
    exact other (congrArg Task.id (h.unshared u hu t listed entries launches))
  have removed : Ending c t (c.removeTask t.id) :=
    ⟨h.removeTask t.id, rfl, rfl, rfl, rfl, rfl, rfl, rfl, h.handed t listed, alone⟩
  cases report with
  | none => exact removed
  | some text =>
      exact {
        coherent := removed.coherent.record _ _
        settings := by rw [withdraw, record_settings, removed.settings]
        entry := by rw [withdraw, record_entry, removed.entry]
        table := by rw [withdraw, record_table, removed.table]
        tasks := by rw [withdraw, record_tasks]
        spawned := by rw [withdraw, record_spawned, removed.spawned]
        history := by rw [withdraw, record_history, removed.history]
        alive := by rw [withdraw, record_alive, removed.alive]
        handed := by rw [withdraw, record_entry]; exact removed.handed
        alone := by rw [withdraw, record_tasks]; exact alone }

theorem Ending.settle {t : Task κ} {e : Cache κ ε α} (h : Ending c t e) (o : Outcome ε α) :
    Course (· ≠ t.entry.key) e (e.settle t o) [] := by
  cases owned : (e.entry t.entry).owns t.launch.generation with
  | true => exact h.coherent.settle_of_owns h.handed h.alone owned o
  | false => exact h.coherent.settle_of_not_owns owned o

theorem Pace.coherent (h : Coherent c []) (pace : Pace c d) : Coherent d [] := by
  cases pace with
  | read course => exact (course fun _ => True).coherent
  | arm k time eq => exact eq ▸ h.note _
  | install k value past course held => exact course.coherent
  | expire w kind past course renewed => exact course.coherent

theorem Stride.coherent (h : Coherent c []) (stride : Stride lossy c d) : Coherent d [] := by
  cases stride with
  | pace pace => exact pace.coherent h
  | close course => exact (course fun _ => True).coherent
  | call t listed spared first eq => exact eq ▸ h.note _
  | finish t listed called alive o report eq =>
      exact eq ▸ ((h.ending listed report).settle o).coherent
  | leave t listed why eq => exact eq ▸ h.removeTask _

theorem Stride.settings (h : Coherent c []) (stride : Stride lossy c d) :
    d.settings = c.settings := by
  cases stride with
  | pace pace =>
      cases pace with
      | read course => exact (course fun _ => True).settings
      | arm k time eq => rw [eq, note_settings]
      | install k value past course held => exact course.settings
      | expire w kind past course renewed => exact course.settings
  | close course => exact (course fun _ => True).settings
  | call t listed spared first eq => rw [eq, note_settings]
  | finish t listed called alive o report eq =>
      have ending := h.ending listed report
      rw [eq, (ending.settle o).settings, ending.settings]
  | leave t listed why eq => rw [eq]; rfl

/-! ## What owners leave alone -/

/-- No task goes, new tasks have new numbers, and no computation is begun. -/
structure Keeps (c d : Cache κ ε α) : Prop where
  tasks : ∀ t ∈ c.tasks, t ∈ d.tasks
  spawned : ∀ k, Tally.count c.spawned k ≤ Tally.count d.spawned k
  begun : ∀ t ∈ d.tasks, t ∉ c.tasks → Tally.count c.spawned t.id.key ≤ t.id.ordinal
  called : ∀ x, .called x ∈ d.history ↔ .called x ∈ c.history

theorem Keeps.refl (c : Cache κ ε α) : Keeps c c where
  tasks := fun _ ht => ht
  spawned := fun _ => Nat.le_refl _
  begun := fun _ ht new => absurd ht new
  called := fun _ => Iff.rfl

theorem Keeps.trans {e : Cache κ ε α} (h₁ : Keeps c d) (h₂ : Keeps d e) : Keeps c e where
  tasks := fun t ht => h₂.tasks t (h₁.tasks t ht)
  spawned := fun k => Nat.le_trans (h₁.spawned k) (h₂.spawned k)
  begun := by
    intro t ht new
    by_cases mid : t ∈ d.tasks
    · exact h₁.begun t mid new
    · exact Nat.le_trans (h₁.spawned _) (h₂.begun t ht mid)
  called := fun x => (h₂.called x).trans (h₁.called x)

theorem Course.keeps {spared : κ → Prop} {loose : List (EntryId κ)}
    (course : Course spared c d loose) : Keeps c d where
  tasks := course.tasks
  spawned := course.spawned
  begun := course.begun
  called := by
    intro x
    rw [course.past, List.mem_append]
    refine ⟨fun mem => ?_, .inr⟩
    rcases mem with late | early
    · have minor := course.minor _ late
      cases minor
    · exact early

theorem keeps_note {x : Happening κ ε α} (other : ∀ t, x ≠ .called t) : Keeps c (c.note x) where
  tasks := fun _ ht => ht
  spawned := fun _ => Nat.le_refl _
  begun := fun _ ht new => absurd ht new
  called := by
    intro t
    rw [note_history, List.mem_cons]
    exact ⟨fun mem => mem.resolve_left fun here => other t here.symm, .inr⟩

theorem Pace.keeps (pace : Pace c d) : Keeps c d := by
  cases pace with
  | read course => exact (course fun _ => True).keeps
  | arm k time eq => exact eq ▸ keeps_note (by simp)
  | install k value past course held => exact (keeps_note (by simp)).trans course.keeps
  | expire w kind past course renewed =>
      refine (keeps_note ?_).trans course.keeps
      rcases kind with rfl | ⟨k, rfl⟩ <;> simp

theorem Pace.alive (pace : Pace c d) : d.alive = c.alive := by
  cases pace with
  | read course => exact (course fun _ => True).alive
  | arm k time eq => rw [eq, note_alive]
  | install k value past course held => exact course.alive
  | expire w kind past course renewed => exact course.alive

end Cache

end LiveCache
