import LiveCache.Proofs.Cache.Coherence

/-! # What an operation does besides keeping a cache coherent

`Course` relates a cache to what an operation makes of it: the history grows, tasks are added and
computations begin, but no current outcome appears or is lost except where the operation says so.
The keys for which nothing of the kind may happen are spared; a write spares all keys but its own.
-/

namespace LiveCache

namespace Happening

variable {κ ε α : Type}

/-- Nothing was written, no timer was started and no computation was begun. -/
def isMinor : Happening κ ε α → Bool
  | removed _ => true
  | returned _ _ => true
  | delivered _ _ => true
  | _ => false

end Happening

namespace Cache

variable {κ ε α : Type} [DecidableEq κ]

open Entry (Sound Change Shift Unrepeated)

/-- What has happened on the way from one cache to a later one. -/
def added (c d : Cache κ ε α) : List (Happening κ ε α) :=
  d.history.take (d.history.length - c.history.length)

variable {c d e : Cache κ ε α} {loose loose' : List (EntryId κ)} {spared : κ → Prop}

omit [DecidableEq κ] in
theorem added_eq (new : List (Happening κ ε α)) (past : d.history = new ++ c.history) :
    added c d = new := by
  simp [added, past]

structure Course (spared : κ → Prop) (c d : Cache κ ε α) (loose : List (EntryId κ)) : Prop where
  coherent : Coherent d loose
  settings : d.settings = c.settings
  alive : d.alive = c.alive
  past : d.history = added c d ++ c.history
  minor : ∀ x ∈ added c d, x.isMinor = true
  permanent : c.settings.retention = .forever → ∀ i, .removed i ∉ added c d
  spawned : ∀ k, Tally.count c.spawned k ≤ Tally.count d.spawned k
  tasks : ∀ t ∈ c.tasks, t ∈ d.tasks
  /-- New tasks have new numbers. -/
  begun : ∀ t ∈ d.tasks, t ∉ c.tasks → Tally.count c.spawned t.id.key ≤ t.id.ordinal
  /-- What is computed was computed before or has a task. -/
  staffed : ∀ i l previous, (d.entry i).phase = .computing l previous →
    (∃ previous, (c.entry i).phase = .computing l previous) ∨
      ∃ t ∈ d.tasks, t.entry = i ∧ t.launch = l
  /-- The launch of an earlier task is not computed anew. -/
  going : ∀ t ∈ c.tasks, ∀ previous, (d.entry t.entry).phase = .computing t.launch previous →
    ∃ previous, (c.entry t.entry).phase = .computing t.launch previous
  /-- No outcome becomes current. -/
  settled : ∀ i o, spared i.key → d.Holds i → (d.entry i).phase = .settled o →
    c.Holds i ∧ (c.entry i).phase = .settled o
  /-- No current outcome is lost unless its entry is removed. -/
  lasting : ∀ i o, spared i.key → c.Holds i → (c.entry i).phase = .settled o →
    (d.Holds i ∧ (d.entry i).phase = .settled o) ∨ .removed i ∈ added c d
  /-- A reader is given only an outcome that was current. -/
  shown : ∀ i o, spared i.key → .delivered i (.known o .done) ∈ added c d →
    c.Holds i ∧ (c.entry i).phase = .settled o

theorem Course.added_trans (h₁ : Course spared c d loose) (h₂ : Course spared d e loose') :
    added c e = added d e ++ added c d := by
  apply added_eq (added d e ++ added c d)
  rw [List.append_assoc, ← h₁.past, ← h₂.past]

theorem Course.trans (h₁ : Course spared c d loose) (h₂ : Course spared d e loose') :
    Course spared c e loose' where
  coherent := h₂.coherent
  settings := h₂.settings.trans h₁.settings
  alive := h₂.alive.trans h₁.alive
  past := by rw [h₁.added_trans h₂, List.append_assoc, ← h₁.past, ← h₂.past]
  minor := by
    intro x hx
    rw [h₁.added_trans h₂, List.mem_append] at hx
    exact hx.elim (h₂.minor x) (h₁.minor x)
  permanent := by
    intro keeps i hi
    rw [h₁.added_trans h₂, List.mem_append] at hi
    exact hi.elim (h₂.permanent (h₁.settings ▸ keeps) i) (h₁.permanent keeps i)
  spawned := fun k => Nat.le_trans (h₁.spawned k) (h₂.spawned k)
  tasks := fun t ht => h₂.tasks t (h₁.tasks t ht)
  begun := by
    intro t ht new
    by_cases mid : t ∈ d.tasks
    · exact h₁.begun t mid new
    · exact Nat.le_trans (h₁.spawned _) (h₂.begun t ht mid)
  staffed := by
    intro i l previous hp
    rcases h₂.staffed i l previous hp with ⟨previous', mid⟩ | task
    · rcases h₁.staffed i l previous' mid with first | ⟨t, ht, at'⟩
      · exact .inl first
      · exact .inr ⟨t, h₂.tasks t ht, at'⟩
    · exact .inr task
  going := by
    intro t ht previous hp
    obtain ⟨previous', mid⟩ := h₂.going t (h₁.tasks t ht) previous hp
    exact h₁.going t ht previous' mid
  settled := by
    intro i o free hi hp
    obtain ⟨mid, hp'⟩ := h₂.settled i o free hi hp
    exact h₁.settled i o free mid hp'
  lasting := by
    intro i o free hi hp
    rw [h₁.added_trans h₂, List.mem_append]
    rcases h₁.lasting i o free hi hp with ⟨mid, hp'⟩ | out
    · rcases h₂.lasting i o free mid hp' with last | out
      · exact .inl last
      · exact .inr (.inl out)
    · exact .inr (.inr out)
  shown := by
    intro i o free hi
    rw [h₁.added_trans h₂, List.mem_append] at hi
    rcases hi with late | early
    · obtain ⟨mid, hp⟩ := h₂.shown i o free late
      exact h₁.settled i o free mid hp
    · exact h₁.shown i o free early

theorem Course.mono {fewer : κ → Prop} (h : Course spared c d loose)
    (weaker : ∀ k, fewer k → spared k) : Course fewer c d loose where
  __ := h
  settled := fun i o free => h.settled i o (weaker _ free)
  lasting := fun i o free => h.lasting i o (weaker _ free)
  shown := fun i o free => h.shown i o (weaker _ free)

/-! ## Steps of which an operation is made -/

/-- Nothing happens to the computations and the outcomes of a cache. -/
theorem Course.still (new : List (Happening κ ε α)) (coherent : Coherent d loose)
    (settings : d.settings = c.settings) (alive : d.alive = c.alive)
    (past : d.history = new ++ c.history)
    (minor : ∀ x ∈ new, x.isMinor = true ∧ ∀ i, x ≠ .removed i)
    (shown : ∀ i o, .delivered i (.known o .done) ∈ new →
      c.Holds i ∧ (c.entry i).phase = .settled o)
    (spawned : d.spawned = c.spawned) (tasks : d.tasks = c.tasks) (table : d.table = c.table)
    (phase : ∀ i, (d.entry i).phase = (c.entry i).phase) : Course spared c d loose where
  coherent := coherent
  settings := settings
  alive := alive
  past := by rw [added_eq new past, past]
  minor := by
    rw [added_eq new past]
    exact fun x hx => (minor x hx).1
  permanent := by
    rw [added_eq new past]
    exact fun _ i hi => (minor _ hi).2 i rfl
  spawned := fun _ => Nat.le_of_eq (by rw [spawned])
  tasks := fun t ht => by rw [tasks]; exact ht
  begun := by
    intro t ht new
    rw [tasks] at ht
    exact absurd ht new
  staffed := by
    intro i l previous hp
    rw [phase] at hp
    exact .inl ⟨previous, hp⟩
  going := by
    intro t _ previous hp
    rw [phase] at hp
    exact ⟨previous, hp⟩
  settled := by
    intro i o _ hi hp
    rw [holds_iff, table, ← holds_iff] at hi
    rw [phase] at hp
    exact ⟨hi, hp⟩
  lasting := by
    intro i o _ hi hp
    rw [phase, holds_iff, table, ← holds_iff]
    exact .inl ⟨hi, hp⟩
  shown := by
    rw [added_eq new past]
    exact fun i o _ hi => shown i o hi

theorem Coherent.stay (h : Coherent c loose) : Course spared c c loose :=
  .still [] h rfl rfl rfl (by simp) (by simp) rfl rfl rfl fun _ => rfl

/-- A reader is given the latest view of an entry that the table holds. -/
theorem Course.deliver (h : Course spared c d loose) {i : EntryId κ} (held : d.Holds i) :
    Course spared c (d.note (.delivered i (d.entry i).latest)) loose := by
  apply h.trans
  refine .still [.delivered i (d.entry i).latest] (h.coherent.note _) rfl rfl rfl ?_ ?_
    rfl rfl rfl fun _ => rfl
  · simp [Happening.isMinor]
  · intro j o mem
    obtain ⟨rfl, latest⟩ : j = i ∧ View.known o .done = (d.entry i).latest := by simpa using mem
    refine ⟨held, ((h.coherent.sound j).settled?_latest o).1 ?_⟩
    rw [← latest]
    rfl

theorem Course.record (h : Course spared c d loose) (a : Activity) (n : Nat) :
    Course spared c (d.record a n) loose := by
  apply h.trans
  exact .still [] (h.coherent.record a n) (by simp) (by simp) (by simp) (by simp)
    (by simp) (by simp) (by simp) (by simp) (by simp)

/-- The result of a task is handed in. -/
theorem Course.returned (h : Course spared c d loose) (t : TaskId κ) (o : Outcome ε α) :
    Course spared c (d.note (.returned t o)) loose := by
  apply h.trans
  exact .still [.returned t o] (h.coherent.note _) rfl rfl rfl
    (by simp [Happening.isMinor]) (by simp) rfl rfl rfl fun _ => rfl

/-- Subscriptions may be given to holders or taken from them. -/
theorem Course.recount (h : Course spared c d loose)
    (observers : Registry (Holder κ) (Subscription κ))
    (same : ∀ i, observers.count (fun s => s.entry = i) + loose'.count i =
      d.holders i + loose.count i) :
    Course spared c { d with observers := observers } loose' := by
  apply h.trans
  exact .still [] (h.coherent.recount observers same) rfl rfl rfl (by simp) (by simp) rfl
    rfl rfl fun _ => rfl

/-- What is new in the executor's list may be put in another order. -/
theorem Course.rearrange (h : Course spared c d loose) {tasks : List (Task κ)}
    (perm : tasks.Perm d.tasks) (log : List Event) :
    Course spared c { d with tasks := tasks, log := log } loose where
  coherent := h.coherent.congr rfl rfl rfl rfl rfl perm rfl id
  settings := h.settings
  alive := h.alive
  past := h.past
  minor := h.minor
  permanent := h.permanent
  spawned := h.spawned
  tasks := fun t ht => perm.mem_iff.2 (h.tasks t ht)
  begun := fun t ht => h.begun t (perm.mem_iff.1 ht)
  staffed := by
    intro i l previous hp
    rcases h.staffed i l previous hp with before | ⟨t, ht, at'⟩
    · exact .inl before
    · exact .inr ⟨t, perm.mem_iff.2 ht, at'⟩
  going := h.going
  settled := h.settled
  lasting := h.lasting
  shown := h.shown

/-- An entry that is made for a key has no outcome. -/
theorem Coherent.course_locate (h : Coherent c loose) (k : κ) :
    Course spared c (c.locate k).1 loose := by
  cases found : c.current? k with
  | some i =>
      rw [locate_of_some found]
      exact h.stay
  | none =>
      rw [locate_of_none found]
      have still : added c (c.enrol k) = [] := added_eq [] rfl
      exact {
        coherent := h.enrol found
        settings := rfl
        alive := rfl
        past := by rw [still]; rfl
        minor := by simp [still]
        permanent := by simp [still]
        spawned := fun _ => Nat.le_refl _
        tasks := fun _ ht => ht
        begun := fun _ ht new => absurd ht new
        staffed := fun _ _ previous hp => .inl ⟨previous, hp⟩
        going := fun _ _ previous hp => ⟨previous, hp⟩
        settled := by
          intro i o _ hi hp
          rw [enrol_holds] at hi
          by_cases same : i.key = k
          · rw [if_pos same] at hi
            have fresh : c.entry i = {} := h.unmade i (by subst hi; exact Nat.le_refl _)
            rw [show (c.enrol k).entry i = c.entry i from rfl, fresh] at hp
            cases hp
          · rw [if_neg same] at hi
            exact ⟨hi, hp⟩
        lasting := by
          intro i o _ hi hp
          have other : i.key ≠ k := fun same => not_holds_of_current?_none found same hi
          rw [enrol_holds, if_neg other]
          exact .inl ⟨hi, hp⟩
        shown := by simp [still] }

section Touch

variable {i : EntryId κ} {e : Entry ε α} {handed : Option Launch}

@[simp] theorem added_touch : added c ((c.put i e).spawn? i handed) = [] := added_eq [] (by simp)

/-- An entry that changes as an entry may change, and has the outcome that it had. -/
theorem Coherent.course_touch (h : Coherent c loose)
    (coherent : Coherent ((c.put i e).spawn? i handed) loose')
    (change : Change (c.entry i) e handed) (unrepeated : e.Unrepeated)
    (outcome : spared i.key → ∀ o, e.phase = .settled o ↔ (c.entry i).phase = .settled o) :
    Course spared c ((c.put i e).spawn? i handed) loose' where
  coherent := coherent
  settings := by simp
  alive := by simp
  past := by simp
  minor := by simp
  permanent := by simp
  spawned := fun k => touch_spawned_le k
  tasks := fun t ht => (mem_touch_tasks t).2 (.inl ht)
  begun := by
    intro t ht new
    rcases (mem_touch_tasks t).1 ht with old | ⟨l, -, rfl⟩
    · exact absurd old new
    · exact Nat.le_refl _
  staffed := by
    intro j l previous hp
    by_cases same : j = i
    · subst same
      rw [touch_entry_self] at hp
      cases handed with
      | none => exact .inl ⟨previous, (change.kept rfl l previous hp).1⟩
      | some l' =>
          obtain ⟨-, -, previous', hp'⟩ := change.begun l' rfl
          rw [hp] at hp'
          cases hp'
          exact .inr ⟨c.taskOf j l, (mem_touch_tasks _).2 (.inr ⟨l, rfl, rfl⟩), rfl, rfl⟩
    · rw [touch_entry_of_ne same] at hp
      exact .inl ⟨previous, hp⟩
  going := by
    intro t ht previous hp
    by_cases same : t.entry = i
    · rw [same, touch_entry_self] at hp
      cases handed with
      | none =>
          rw [same]
          exact ⟨previous, (change.kept rfl t.launch previous hp).1⟩
      | some l =>
          obtain ⟨-, -, previous', hp'⟩ := change.begun l rfl
          rw [hp] at hp'
          cases hp'
          -- The launch is a new one, so it cannot be that of a task that was there before.
          have order := unrepeated.ordered
          rw [change.launches] at order
          have mem := h.handed t ht
          rw [same] at mem
          exact absurd ((List.pairwise_cons.1 order).1 _ mem) (Nat.lt_irrefl _)
    · rw [touch_entry_of_ne same] at hp
      exact ⟨previous, hp⟩
  settled := by
    intro j o free hj hp
    rw [touch_holds] at hj
    refine ⟨hj, ?_⟩
    by_cases same : j = i
    · subst same
      rw [touch_entry_self] at hp
      exact (outcome free o).1 hp
    · rwa [touch_entry_of_ne same] at hp
  lasting := by
    intro j o free hj hp
    rw [touch_holds]
    refine .inl ⟨hj, ?_⟩
    by_cases same : j = i
    · subst same
      rw [touch_entry_self]
      exact (outcome free o).2 hp
    · rwa [touch_entry_of_ne same]
  shown := by simp

theorem Coherent.course_put (h : Coherent c loose) (coherent : Coherent (c.put i e) loose')
    (change : Change (c.entry i) e none) (unrepeated : e.Unrepeated)
    (outcome : spared i.key → ∀ o, e.phase = .settled o ↔ (c.entry i).phase = .settled o) :
    Course spared c (c.put i e) loose' := by
  have touched : Coherent ((c.put i e).spawn? i none) loose' := coherent
  exact h.course_touch touched change unrepeated outcome

/-- An entry that nobody observes leaves the table of a cache that forgets. -/
theorem Coherent.course_dismiss (h : Coherent c loose) (held : c.Holds i)
    (sound : e.Sound c.settings.stale) (shift : Shift (c.entry i) e none)
    (retired : e.retired = true) (same : e.subscribers = (c.entry i).subscribers)
    (forgets : c.settings.retention ≠ .forever) :
    Course spared c ((c.dismiss i e).note (.removed i)) loose where
  coherent := (h.dismiss held sound shift retired same).note _
  settings := rfl
  alive := rfl
  past := by rw [added_eq [.removed i] rfl]; rfl
  minor := by
    rw [added_eq [.removed i] rfl]
    simp [Happening.isMinor]
  permanent := fun keeps => absurd keeps forgets
  spawned := fun _ => Nat.le_refl _
  tasks := fun _ ht => ht
  begun := fun _ ht new => absurd ht new
  staffed := by
    intro j l previous hp
    rw [note_entry] at hp
    by_cases this : j = i
    · rw [this, dismiss_entry_self] at hp
      rw [this]
      exact .inl ⟨previous, (shift.kept rfl l previous hp).1⟩
    · rw [dismiss_entry_of_ne e this] at hp
      exact .inl ⟨previous, hp⟩
  going := by
    intro t _ previous hp
    rw [note_entry] at hp
    by_cases this : t.entry = i
    · rw [this, dismiss_entry_self] at hp
      rw [this]
      exact ⟨previous, (shift.kept rfl t.launch previous hp).1⟩
    · rw [dismiss_entry_of_ne e this] at hp
      exact ⟨previous, hp⟩
  settled := by
    intro j o _ hj hp
    obtain ⟨key, hj⟩ := (dismiss_holds i j e).1 hj
    have other : j ≠ i := fun this => key (congrArg EntryId.key this)
    rw [note_entry, dismiss_entry_of_ne e other] at hp
    exact ⟨hj, hp⟩
  lasting := by
    intro j o _ hj hp
    rw [added_eq [.removed i] rfl]
    by_cases this : j = i
    · exact .inr (by simp [this])
    · refine .inl ⟨(dismiss_holds i j e).2 ⟨?_, hj⟩, ?_⟩
      · exact fun key => this (hj.unique held key)
      · rwa [note_entry, dismiss_entry_of_ne e this]
  shown := by
    rw [added_eq [.removed i] rfl]
    simp

end Touch

end Cache

end LiveCache
