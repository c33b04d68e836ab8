import LiveCache.Proofs.Cache.Holders
import LiveCache.Proofs.Entry.Marks

/-! # What the operations of a cache write down

A `Line` is a mark of one entry, or the expiration of all. `Posts` relates a cache to what an
operation makes of it and to the lines that the operation has written down: they are the events that
were logged, and they account for what has changed. An operation is routine when no result is handed
in. Everything that owners do is.
-/

namespace LiveCache

inductive Line (κ : Type) where
  | of (i : EntryId κ) (m : Mark)
  | all (count : Nat)
deriving DecidableEq, Repr

namespace Line

variable {κ : Type}

def event : Line κ → Event
  | of _ m => m.event
  | all count => ⟨.expiredAll, count⟩

def writes : Line κ → Bool
  | of _ m => m.writes
  | all _ => false

def removes : Line κ → Bool
  | of _ m => m.removes
  | all _ => false

def isRoutine : Line κ → Bool
  | of _ m => m.isRoutine
  | all _ => true

/-- The line says nothing about what an entry has become. -/
def isRemark : Line κ → Bool
  | of _ (.discarded _) => true
  | of _ (.faulted _ _) => true
  | of _ _ => false
  | all _ => true

theorem writes_of_isRemark (x : Line κ) (remark : x.isRemark = true) : ¬ x.writes = true := by
  cases x with
  | of i m => cases m <;> simp_all [isRemark, writes, Mark.writes]
  | all count => simp [writes]

theorem removes_of_isRemark (x : Line κ) (remark : x.isRemark = true) : ¬ x.removes = true := by
  cases x with
  | of i m => cases m <;> simp_all [isRemark, removes, Mark.removes]
  | all count => simp [removes]

theorem count_of [DecidableEq κ] (i j : EntryId κ) (m : Mark) (marks : List Mark) :
    (marks.map (of i)).count (of j m) = if i = j then marks.count m else 0 := by
  induction marks with
  | nil => simp
  | cons first rest ih =>
      rw [List.map_cons, List.count_cons, List.count_cons, ih]
      by_cases here : i = j <;> simp [here]

end Line

namespace Cache

variable {κ ε α : Type} [DecidableEq κ]

open Entry (Balance)

/-- The sum of the generations of all entries that there have been. -/
def generations (c : Cache κ ε α) : Nat := c.entries.sum (·.generation)

variable {c d e : Cache κ ε α} {i : EntryId κ} {lines lines' : List (Line κ)}
  {marks : List Mark} {loose : List (EntryId κ)}

theorem generations_put (c : Cache κ ε α) (i : EntryId κ) (e : Entry ε α) :
    (c.put i e).generations + (c.entry i).generation = c.generations + e.generation := by
  have sum := c.entries.sum_insert i e (·.generation)
  have same : ((c.entries.find? i).map (·.generation)).getD 0 = (c.entry i).generation := by
    unfold entry
    cases c.entries.find? i <;> rfl
  rwa [same] at sum

theorem entry_of_entries (entries : d.entries = c.entries) : d.entry = c.entry := by
  funext i
  rw [entry, entry, entries]

structure Posts (c d : Cache κ ε α) (lines : List (Line κ)) : Prop where
  settings : d.settings = c.settings
  log : c.settings.logs = true → d.log = c.log ++ lines.map Line.event
  opened : ∀ i l, lines.count (.of i (.computing l)) + (c.entry i).launches.count l =
    (d.entry i).launches.count l
  /-- A launch that was under way or made is closed or under way. -/
  closed : ∀ i l, lines.count (.of i (.settled l)) + lines.count (.of i (.cancelled l)) +
      (d.entry i).underway.count l =
    (c.entry i).underway.count l + lines.count (.of i (.computing l))
  grown : c.generations + lines.countP Line.writes = d.generations
  /-- An entry that was made is in the table or was removed. -/
  made : Tally.total d.created + c.table.size =
    Tally.total c.created + d.table.size + lines.countP Line.removes
  tasks : ∀ t ∈ d.tasks, t ∈ c.tasks ∨ t.launch ∉ (c.entry t.entry).launches

theorem Posts.trans (h₁ : Posts c d lines) (h₂ : Posts d e lines') :
    Posts c e (lines ++ lines') where
  settings := h₂.settings.trans h₁.settings
  log := by
    intro logs
    rw [h₂.log (h₁.settings ▸ logs), h₁.log logs, List.map_append, List.append_assoc]
  opened := by
    intro i l
    rw [List.count_append, ← h₂.opened i l, ← h₁.opened i l]
    omega
  closed := by
    intro i l
    have first := h₁.closed i l
    have second := h₂.closed i l
    simp only [List.count_append]
    omega
  grown := by
    rw [List.countP_append, ← h₂.grown, ← h₁.grown, Nat.add_assoc]
  made := by
    have first := h₁.made
    have second := h₂.made
    rw [List.countP_append]
    omega
  tasks := by
    intro t ht
    rcases h₂.tasks t ht with mid | new
    · exact h₁.tasks t mid
    · refine .inr fun old => new (List.count_pos_iff.1 ?_)
      have grown := h₁.opened t.entry t.launch
      have before := List.count_pos_iff.2 old
      omega

/-- Where no entry changes nothing is written down but remarks. -/
theorem posts_of_remarks (settings : d.settings = c.settings)
    (log : c.settings.logs = true → d.log = c.log ++ lines.map Line.event)
    (entries : d.entries = c.entries) (created : d.created = c.created) (table : d.table = c.table)
    (tasks : ∀ t ∈ d.tasks, t ∈ c.tasks) (remarks : ∀ x ∈ lines, x.isRemark = true) :
    Posts c d lines := by
  have none : ∀ x : Line κ, x.isRemark = false → lines.count x = 0 := by
    intro x other
    rw [List.count_eq_zero]
    intro mem
    rw [remarks x mem] at other
    cases other
  exact {
    settings := settings
    log := log
    opened := by
      intro i l
      rw [none (.of i (.computing l)) rfl, entry_of_entries entries, Nat.zero_add]
    closed := by
      intro i l
      rw [none (.of i (.computing l)) rfl, none (.of i (.settled l)) rfl,
        none (.of i (.cancelled l)) rfl, entry_of_entries entries, Nat.zero_add]
      rfl
    grown := by
      rw [List.countP_eq_zero.2 fun x mem => x.writes_of_isRemark (remarks x mem)]
      simp [generations, entries]
    made := by
      rw [List.countP_eq_zero.2 fun x mem => x.removes_of_isRemark (remarks x mem), created, table]
      rfl
    tasks := fun t ht => .inl (tasks t ht) }

theorem posts_of_same (settings : d.settings = c.settings) (log : d.log = c.log)
    (entries : d.entries = c.entries) (created : d.created = c.created) (table : d.table = c.table)
    (tasks : ∀ t ∈ d.tasks, t ∈ c.tasks) : Posts c d [] :=
  posts_of_remarks settings (fun _ => by simp [log]) entries created table tasks (by simp)

/-- One entry has changed as its marks say. -/
theorem posts_touch {e : Entry ε α} (balance : Balance (c.entry i) e marks)
    (settings : d.settings = c.settings)
    (log : c.settings.logs = true → d.log = c.log ++ marks.map Mark.event)
    (entries : d.entries = (c.put i e).entries) (created : d.created = c.created)
    (table : d.table = c.table)
    (tasks : ∀ t ∈ d.tasks, t ∈ c.tasks ∨ t.entry = i ∧ .computing t.launch ∈ marks)
    (stays : ∀ m ∈ marks, m.removes = false) : Posts c d (marks.map (.of i)) where
  settings := settings
  log := by
    intro logs
    rw [log logs, List.map_map]
    rfl
  opened := by
    intro j l
    rw [entry_of_entries entries, Line.count_of, entry_put]
    split
    next here => exact here ▸ balance.opened l
    next => exact Nat.zero_add _
  closed := by
    intro j l
    rw [entry_of_entries entries, entry_put]
    simp only [Line.count_of]
    split
    next here => exact here ▸ balance.closed l
    next => omega
  grown := by
    have put := generations_put c i e
    have grown := balance.grown
    rw [show d.generations = (c.put i e).generations by simp [generations, entries],
      List.countP_map]
    have same : (Line.writes ∘ .of i : Mark → Bool) = Mark.writes := rfl
    rw [same]
    omega
  made := by
    rw [created, table, List.countP_map, List.countP_eq_zero.2]
    · rfl
    · intro m mem
      simp [Line.removes, stays m mem]
  tasks := by
    intro t ht
    rcases tasks t ht with old | ⟨here, new⟩
    · exact .inl old
    · exact .inr (here ▸ balance.fresh t.launch new)

/-! ## The table -/

theorem posts_enrol {k : κ} (absent : c.current? k = none) : Posts c (c.enrol k) [] where
  settings := rfl
  log := fun _ => (List.append_nil _).symm
  opened := fun _ _ => Nat.zero_add _
  closed := by simp [enrol, entry]
  grown := rfl
  made := by
    have none : c.table.find? k = none := Option.map_eq_none_iff.1 absent
    simp only [enrol, Tally.total_bump, Registry.size_insert_of_none none, List.countP_nil]
    omega
  tasks := fun t ht => .inl ht

/-- An entry leaves the table. -/
theorem posts_strike (held : c.Holds i) (generation : Nat) (settings : d.settings = c.settings)
    (log : c.settings.logs = true → d.log = c.log ++ [⟨.reclaimed, generation⟩])
    (entries : d.entries = c.entries) (created : d.created = c.created)
    (table : d.table = c.table.erase i.key) (tasks : d.tasks = c.tasks) :
    Posts c d [.of i (.reclaimed generation)] where
  settings := settings
  log := log
  opened := by simp [entry_of_entries entries]
  closed := by simp [entry_of_entries entries]
  grown := by simp [generations, entries, Line.writes, Mark.writes]
  made := by
    have found := (holds_iff c i).1 held
    have size := Registry.size_erase_of_some found
    rw [created, table]
    simp only [List.countP_cons, List.countP_nil, Line.removes, Mark.removes, if_true]
    omega
  tasks := fun t ht => .inl (tasks ▸ ht)

/-! ## Routine -/

structure Routine (c d : Cache κ ε α) : Prop where
  posts : ∃ lines, Posts c d lines ∧ ∀ x ∈ lines, x.isRoutine = true
  returned : ∀ x o, .returned x o ∈ d.history ↔ .returned x o ∈ c.history

theorem Routine.trans (h₁ : Routine c d) (h₂ : Routine d e) : Routine c e where
  posts := by
    obtain ⟨lines, posts, routine⟩ := h₁.posts
    obtain ⟨lines', posts', routine'⟩ := h₂.posts
    refine ⟨lines ++ lines', posts.trans posts', fun x mem => ?_⟩
    exact (List.mem_append.1 mem).elim (routine x) (routine' x)
  returned := fun x o => (h₂.returned x o).trans (h₁.returned x o)

theorem routine_of_posts (posts : Posts c d lines) (routine : ∀ x ∈ lines, x.isRoutine = true)
    (history : ∀ x o, .returned x o ∈ d.history ↔ .returned x o ∈ c.history) : Routine c d :=
  ⟨⟨lines, posts, routine⟩, history⟩

/-- One entry has changed as its marks say, and none of them is about a result. -/
theorem routine_of_balance {e : Entry ε α} (balance : Balance (c.entry i) e marks)
    (settings : d.settings = c.settings)
    (log : c.settings.logs = true → d.log = c.log ++ marks.map Mark.event)
    (entries : d.entries = (c.put i e).entries) (created : d.created = c.created)
    (table : d.table = c.table)
    (tasks : ∀ t ∈ d.tasks, t ∈ c.tasks ∨ t.entry = i ∧ .computing t.launch ∈ marks)
    (plain : ∀ m ∈ marks, m.isPlain = true)
    (history : ∀ x o, .returned x o ∈ d.history ↔ .returned x o ∈ c.history) : Routine c d := by
  refine routine_of_posts (posts_touch balance settings log entries created table tasks ?_) ?_
    history
  · exact fun m mem => (m.isPlain_iff.1 (plain m mem)).2
  · intro x mem
    obtain ⟨m, marked, rfl⟩ := List.mem_map.1 mem
    exact (m.isPlain_iff.1 (plain m marked)).1

theorem routine_of_same (settings : d.settings = c.settings) (log : d.log = c.log)
    (entries : d.entries = c.entries) (created : d.created = c.created) (table : d.table = c.table)
    (tasks : ∀ t ∈ d.tasks, t ∈ c.tasks)
    (history : ∀ x o, .returned x o ∈ d.history ↔ .returned x o ∈ c.history) : Routine c d :=
  routine_of_posts (posts_of_same settings log entries created table tasks) (by simp) history

theorem Routine.refl (c : Cache κ ε α) : Routine c c :=
  routine_of_same rfl rfl rfl rfl rfl (fun _ => id) fun _ _ => Iff.rfl

theorem routine_note {x : Happening κ ε α} (other : ∀ t o, x ≠ .returned t o) :
    Routine c (c.note x) := by
  refine routine_of_same rfl rfl rfl rfl rfl (fun _ => id) fun t o => ?_
  rw [note_history, List.mem_cons]
  exact ⟨fun mem => mem.resolve_left fun here => other t o here.symm, .inr⟩

theorem routine_observers (observers : Registry (Holder κ) (Subscription κ)) :
    Routine c { c with observers := observers } :=
  routine_of_same rfl rfl rfl rfl rfl (fun _ => id) fun _ _ => Iff.rfl

theorem routine_removeTask (x : TaskId κ) : Routine c (c.removeTask x) :=
  routine_of_same rfl rfl rfl rfl rfl (fun t ht => ((mem_removeTask c x t).1 ht).1)
    fun _ _ => Iff.rfl

theorem routine_foldl {β : Type} {f : Cache κ ε α → β → Cache κ ε α}
    (step : ∀ c x, Routine c (f c x)) (l : List β) (c : Cache κ ε α) : Routine c (l.foldl f c) := by
  induction l generalizing c with
  | nil => exact .refl c
  | cons x rest ih => exact (step c x).trans (ih (f c x))

/-! ## Events -/

omit [DecidableEq κ] in
theorem record_log (logs : c.settings.logs = true) (a : Activity) (n : Nat) :
    (c.record a n).log = c.log ++ [⟨a, n⟩] := by
  simp [record, logs]

theorem spawn?_log (logs : c.settings.logs = true) (i : EntryId κ) (handed : Option Launch) :
    (c.spawn? i handed).log = c.log ++ (Entry.begun handed).map Mark.event := by
  cases handed with
  | none => simp [spawn?, Entry.begun]
  | some l =>
      simp only [spawn?, spawn]
      exact record_log logs _ _

omit [DecidableEq κ] in
/-- The generation before a write is that of the computation that the write has stopped. -/
theorem recordTransition_log (logs : c.settings.logs = true) {policy : StalePolicy}
    {e : Entry ε α} (sound : e.Sound policy) (a : Activity) (handed : Option Launch) :
    (c.recordTransition a ⟨e.generation + 1, e.phase.isComputing, handed⟩).log =
      c.log ++ ⟨a, e.generation + 1⟩ :: e.stopped.map Mark.event := by
  unfold recordTransition
  dsimp only
  cases hp : e.phase with
  | computing l previous =>
      have same := (sound.newest l previous hp).2
      rw [if_pos (by rfl), record_log (by simpa using logs), record_log logs, Entry.stopped,
        Entry.underway_of_computing hp]
      simp [Mark.event, same]
  | empty | settled | stale =>
      rw [if_neg (by simp [Phase.isComputing]), record_log logs, Entry.stopped,
        Entry.underway_of_calm (by simp [hp, Phase.isComputing])]
      rfl

omit [DecidableEq κ] in
@[simp] theorem recordTransition_entries (c : Cache κ ε α) (a : Activity) (t : Transition) :
    (c.recordTransition a t).entries = c.entries := by
  unfold recordTransition; split <;> simp

omit [DecidableEq κ] in
@[simp] theorem recordTransition_created (c : Cache κ ε α) (a : Activity) (t : Transition) :
    (c.recordTransition a t).created = c.created := by
  unfold recordTransition; split <;> simp

/-- The task of a launch that was handed out. -/
theorem mem_spawn?_tasks {t : Task κ} {handed : Option Launch}
    (ht : t ∈ (c.spawn? i handed).tasks) :
    t ∈ c.tasks ∨ t.entry = i ∧ .computing t.launch ∈ Entry.begun handed := by
  rw [spawn?_tasks, List.mem_append] at ht
  refine ht.imp_right fun new => ?_
  cases handed with
  | none => cases new
  | some l =>
      obtain rfl := List.mem_singleton.1 new
      exact ⟨rfl, List.mem_singleton.2 rfl⟩

/-! ## Reading -/

theorem routine_locate (c : Cache κ ε α) (k : κ) : Routine c (c.locate k).1 := by
  cases found : c.current? k with
  | none =>
      rw [locate_of_none found]
      exact routine_of_posts (posts_enrol found) (by simp) fun _ _ => Iff.rfl
  | some i =>
      rw [locate_of_some found]
      exact .refl c

theorem Coherent.number_lt (h : Coherent c loose) (i : EntryId κ) :
    ∀ l ∈ (c.entry i).launches, l.number < (c.entry i).launches.length :=
  fun _ mem => (h.sound i).number_lt mem

/-- A reader has asked for the value of an entry. -/
theorem routine_touch {e : Entry ε α} {handed : Option Launch}
    (balance : Balance (c.entry i) e (Entry.begun handed)) :
    Routine c ((c.put i e).spawn? i handed) := by
  refine routine_of_balance balance (by simp) (fun logs => ?_) (by simp) (by simp) (by simp)
    (fun t => mem_spawn?_tasks) Entry.isPlain_begun (by simp)
  exact spawn?_log (c := c.put i e) logs i handed

/-- Nothing that is written down has changed in an entry. -/
theorem routine_put {e : Entry ε α} (launches : e.launches = (c.entry i).launches)
    (phase : e.phase = (c.entry i).phase) (generation : e.generation = (c.entry i).generation) :
    Routine c (c.put i e) := by
  have balance : Balance (c.entry i) e (Entry.begun none) :=
    Entry.balance_of_same launches (by simp only [Entry.underway, phase]) generation
  exact routine_touch balance

theorem Coherent.routine_subscribe (h : Coherent c loose) (k : κ) :
    Routine c (c.subscribe k).1 := by
  obtain ⟨coherent, -, -⟩ := h.locate k
  rw [subscribe_eq h]
  refine (routine_locate c k).trans (routine_touch ?_)
  generalize (c.locate k).1 = d at coherent ⊢
  generalize (c.locate k).2 = i
  have asked :
      Balance (d.entry i) { d.entry i with subscribers := (d.entry i).subscribers + 1 } [] :=
    Entry.balance_of_same rfl rfl rfl
  exact asked.trans (Entry.balance_demand (coherent.number_lt i))

theorem Coherent.routine_snapshot (h : Coherent c loose) (k : κ) :
    Routine c (c.snapshot k).1 := by
  obtain ⟨coherent, -, -⟩ := h.locate k
  rw [snapshot_eq h]
  refine ((routine_locate c k).trans (routine_touch ?_)).trans (routine_note (by simp))
  exact Entry.balance_demand (coherent.number_lt _)

/-! ## Ending -/

theorem routine_reclaim (c : Cache κ ε α) (i : EntryId κ) : Routine c (c.reclaim i) := by
  by_cases may : c.Holds i ∧ (c.entry i).retirable = true
  · obtain ⟨held, may⟩ := may
    rw [reclaim_of_retirable held may]
    let gone : Cache κ ε α := c.put i { c.entry i with retired := true }
    have retired : Routine c gone := routine_put rfl rfl rfl
    have struck : Posts gone (((c.dismiss i { c.entry i with retired := true }).note
        (.removed i)).record .reclaimed (c.entry i).generation)
        [.of i (.reclaimed (c.entry i).generation)] := by
      refine posts_strike (c := gone) held _ (record_settings _ _ _) (fun logs => ?_) ?_ ?_ ?_ ?_
      · exact record_log (c := (c.dismiss i { c.entry i with retired := true }).note (.removed i))
          logs _ _
      · rw [record_entries]
        rfl
      · rw [record_created]
        rfl
      · rw [record_table]
        rfl
      · rw [record_tasks]
        rfl
    refine retired.trans (routine_of_posts struck (by simp [Line.isRoutine, Mark.isRoutine]) ?_)
    simp [dismiss, gone]
  · rw [reclaim_of_not_retirable]
    · exact .refl c
    · intro held
      simpa using fun retirable => may ⟨held, retirable⟩

theorem routine_sweep (c : Cache κ ε α) : Routine c c.sweep.1 := by
  unfold sweep
  split
  next => exact .refl c
  next => exact routine_foldl routine_reclaim _ c

theorem routine_forgo (unobserved : (c.entry i).subscribers = 0) : Routine c (c.forgo i) := by
  have balance := Entry.balance_abandoned (c.entry i)
  unfold forgo
  rw [Entry.abandon_eq unobserved]
  cases hp : (c.entry i).phase with
  | computing l previous =>
      rw [Entry.stopped, Entry.underway_of_computing hp] at balance
      rw [show (c.entry i).abandon.2 = some l.generation by simp [Entry.abandon, hp, unobserved]]
      refine routine_of_balance balance (record_settings _ _ _) (fun logs => ?_) ?_ ?_ ?_ ?_ ?_ ?_
      · exact record_log (c := c.put i (c.entry i).abandoned) logs .cancelled l.generation
      · exact record_entries _ _ _
      · exact record_created _ _ _
      · exact record_table _ _ _
      · simp
      · simp [Mark.isPlain, Mark.isRoutine, Mark.removes]
      · simp
  | empty | settled | stale =>
      rw [show (c.entry i).abandon.2 = none by simp [Entry.abandon, hp]]
      refine routine_put ?_ ?_ ?_ <;> simp [Entry.abandoned, hp]

theorem routine_unobserved (unobserved : (c.entry i).subscribers = 0) :
    Routine c (c.unobserved i) := by
  by_cases forgets : c.settings.retention = .whileObserved
  · rw [unobserved_of_forgetful forgets]
    exact (routine_forgo unobserved).trans (routine_reclaim _ i)
  · unfold Cache.unobserved
    rw [if_neg forgets]
    exact .refl c

theorem routine_unsubscribe (c : Cache κ ε α) (i : EntryId κ) : Routine c (c.unsubscribe i) := by
  have put : Routine c (c.put i (c.entry i).unsubscribe) := routine_put rfl rfl rfl
  unfold unsubscribe
  dsimp only
  split
  next none => exact put.trans (routine_unobserved (by simpa using none))
  next => exact put

/-! ## Holders -/

theorem routine_hold (c : Cache κ ε α) (x : Holder κ) (s : Subscription κ) :
    Routine c (c.hold x s) := by
  unfold hold
  dsimp only
  split
  next => exact routine_observers _
  next => exact (routine_observers _).trans (routine_unsubscribe _ _)

theorem routine_release (c : Cache κ ε α) (x : Holder κ) : Routine c (c.release x) := by
  unfold release
  split
  next => exact .refl c
  next => exact (routine_observers _).trans (routine_unsubscribe _ _)

theorem routine_poll (c : Cache κ ε α) (x : Holder κ) : Routine c (c.poll x).1 := by
  unfold poll
  dsimp only
  split
  next => exact .refl c
  next =>
    split
    next => exact .refl c
    next => exact (routine_observers _).trans (routine_note (by simp))

theorem Coherent.routine_observe (h : Coherent c loose) (x : Holder κ) (k : κ) :
    Routine c (c.observe x k) :=
  (h.routine_subscribe k).trans (routine_hold _ x _)

theorem Coherent.routine_glance (h : Coherent c loose) (k : κ) : Routine c (c.glance k) :=
  (h.routine_subscribe k).trans (routine_unsubscribe _ _)

theorem Coherent.routine_await (h : Coherent c loose) (x : Option (Holder κ)) (k : κ) :
    Routine c (c.await x k).1 := by
  have shown := (h.routine_subscribe k).trans (routine_note
    (x := .delivered (c.subscribe k).2.entry
      ((c.subscribe k).1.entry (c.subscribe k).2.entry).channel.latest) (by simp))
  unfold Cache.await
  dsimp only
  split
  next => exact shown.trans (routine_hold _ _ _)
  next => exact shown.trans (routine_unsubscribe _ _)

/-! ## Writing -/

theorem Coherent.routine_set (h : Coherent c loose) (k : κ) (value : α) :
    Routine c (c.set k value) := by
  obtain ⟨coherent, -, -⟩ := (h.note (.installed k value)).locate k
  have found : Routine c ((c.note (.installed k value)).locate k).1 :=
    (routine_note (by simp)).trans (routine_locate _ k)
  rw [set_eq h]
  refine found.trans ?_
  dsimp only
  generalize ((c.note (.installed k value)).locate k).1 = d at coherent ⊢
  generalize ((c.note (.installed k value)).locate k).2 = i
  refine routine_of_balance (Entry.balance_installed c.settings.stale (d.entry i) value) (by simp)
    (fun logs => ?_) (by simp) (by simp) (by simp) ?_ ?_ (by simp)
  · exact recordTransition_log (c := d.put i _) logs (coherent.sound i) _ _
  · exact fun t ht => .inl (by simpa using ht)
  · intro m mem
    rcases List.mem_cons.1 mem with rfl | mem
    · rfl
    · exact Entry.isPlain_stopped m mem

theorem Coherent.routine_expireEntry (h : Coherent c loose) (held : c.Holds i) :
    Routine c (c.expireEntry i) := by
  rw [expireEntry_eq (h.present i held).1]
  dsimp only
  refine routine_of_balance (Entry.balance_renewed (h.sound i)) (by simp) (fun logs => ?_)
    (by simp [put]) (by simp) (by simp) (fun t ht => ?_) Entry.isPlain_renewal (by simp)
  · rw [spawn?_log (by simpa using logs), put_log, recordTransition_log logs (h.sound i),
      Entry.renewal, List.map_append, List.append_assoc]
    rfl
  · refine (mem_spawn?_tasks ht).imp (fun old => by simpa using old) ?_
    exact And.imp_right (List.mem_append_right _)

theorem Coherent.routine_foldl_expireEntry (l : List (EntryId κ)) :
    ∀ {c : Cache κ ε α}, Coherent c loose → (∀ i ∈ l, c.Holds i) →
      Routine c (l.foldl expireEntry c) := by
  induction l with
  | nil => exact fun _ _ => .refl _
  | cons i rest ih =>
      intro c h held
      have first := h.course_expireEntry (held i List.mem_cons_self)
      refine (h.routine_expireEntry (held i List.mem_cons_self)).trans (ih first.coherent ?_)
      exact fun j hj => (expireEntry_holds j).2 (held j (List.mem_cons_of_mem _ hj))

theorem Coherent.routine_expire (h : Coherent c loose) (k : κ) : Routine c (c.expire k) := by
  have noted : Routine c (c.note (.expired k)) := routine_note (by simp)
  cases found : c.current? k with
  | none => rwa [expire_of_none found]
  | some i =>
      rw [expire_of_some found]
      exact noted.trans ((h.note _).routine_expireEntry (holds_of_current? found))

theorem Coherent.routine_expireAll (h : Coherent c loose) : Routine c c.expireAll := by
  have recorded : Routine c ((c.note .expiredAll).record .expiredAll c.len) := by
    have posts : Posts c ((c.note .expiredAll).record .expiredAll c.len) [.all c.len] :=
      posts_of_remarks (by simp) (fun logs => record_log (c := c.note .expiredAll) logs _ _)
        (by simp) (by simp) (by simp) (by simp) (by simp [Line.isRemark])
    exact routine_of_posts posts (by simp [Line.isRoutine]) (by simp)
  refine recorded.trans (Coherent.routine_foldl_expireEntry c.ids ((h.note _).record _ _) ?_)
  intro i mem
  rw [holds_iff, record_table, note_table, ← holds_iff]
  exact (mem_ids_iff c i).1 mem

/-! ## The end of the cache -/

theorem routine_close (c : Cache κ ε α) : Routine c c.close := by
  have stopped : Routine c (c.ids.foldl (fun c i => c.put i (c.entry i).abort) c) :=
    routine_foldl (fun c i => routine_put (by simp) (by simp) (by simp)) _ c
  exact stopped.trans (routine_of_same rfl rfl rfl rfl rfl (fun _ => id) fun _ _ => Iff.rfl)

end Cache

end LiveCache
