import LiveCache.Proofs.Cache.Reading

/-! # Writing, results and the end

A write is noted before it is carried out. After the note it runs a `Course` that spares all keys
but its own, and at its own key it leaves the value that was set, or nothing current and nothing
that was computed before. A result ends the computation that it belongs to and nothing else.
-/

namespace LiveCache.Cache

variable {κ ε α : Type} [DecidableEq κ]

open Entry (Sound Change Shift Unrepeated)

variable {c d : Cache κ ε α} {loose : List (EntryId κ)} {spared : κ → Prop} {i : EntryId κ}

theorem Course.recordTransition (h : Course spared c d loose) (a : Activity) (t : Transition) :
    Course spared c (d.recordTransition a t) loose := by
  unfold Cache.recordTransition
  dsimp only
  split
  next => exact (h.record _ _).record _ _
  next => exact h.record _ _

section Parts

variable (c) (a : Activity) (t : Transition)

@[simp] theorem recordTransition_entry : (c.recordTransition a t).entry = c.entry := by
  unfold recordTransition; split <;> simp

omit [DecidableEq κ] in
@[simp] theorem recordTransition_table : (c.recordTransition a t).table = c.table := by
  unfold recordTransition; split <;> simp

omit [DecidableEq κ] in
@[simp] theorem recordTransition_history : (c.recordTransition a t).history = c.history := by
  unfold recordTransition; split <;> simp

omit [DecidableEq κ] in
@[simp] theorem recordTransition_tasks : (c.recordTransition a t).tasks = c.tasks := by
  unfold recordTransition; split <;> simp

omit [DecidableEq κ] in
@[simp] theorem recordTransition_alive : (c.recordTransition a t).alive = c.alive := by
  unfold recordTransition; split <;> simp

theorem put_recordTransition (i : EntryId κ) (e : Entry ε α) :
    (c.put i e).recordTransition a t = (c.recordTransition a t).put i e := by
  unfold recordTransition
  simp only [put_record]
  split <;> rfl

end Parts

/-! ## Setting -/

@[simp] theorem locate_history (c : Cache κ ε α) (k : κ) : (c.locate k).1.history = c.history := by
  unfold locate; split <;> rfl

theorem set_eq (h : Coherent c loose) (k : κ) (value : α) :
    c.set k value =
      let found := (c.note (.installed k value)).locate k
      let e := found.1.entry found.2
      (found.1.put found.2 (e.installed c.settings.stale value)).recordTransition .installed
        ⟨e.generation + 1, e.phase.isComputing, none⟩ := by
  obtain ⟨coherent, held, -⟩ := (h.note (.installed k value)).locate k
  unfold set
  dsimp only
  rw [Entry.set?_eq (coherent.present _ held).1]

theorem set_history (h : Coherent c loose) (k : κ) (value : α) :
    (c.set k value).history = .installed k value :: c.history := by
  rw [set_eq h]
  simp

theorem Coherent.set (h : Coherent c loose) (k : κ) (value : α) :
    Course (· ≠ k) (c.note (.installed k value)) (c.set k value) loose ∧
      ∃ i, (c.set k value).Holds i ∧ i.key = k ∧
        ((c.set k value).entry i).phase = .settled (.success value) := by
  have noted := h.note (.installed k value)
  obtain ⟨coherent, held, key⟩ := noted.locate k
  have found : Course (· ≠ k) (c.note (.installed k value)) _ loose := noted.course_locate k
  rw [set_eq h]
  dsimp only
  have same : c.settings = ((c.note (.installed k value)).locate k).1.settings :=
    found.settings.symm
  rw [same]
  generalize ((c.note (.installed k value)).locate k).2 = i at held key ⊢
  generalize ((c.note (.installed k value)).locate k).1 = d at coherent held found ⊢
  obtain ⟨present, unrepeated⟩ := coherent.present i held
  have shift := Entry.shift_installed d.settings.stale (d.entry i) value
  constructor
  · refine (found.trans ?_).recordTransition _ _
    refine coherent.course_put (coherent.shift_put held ?_ shift ?_ ?_ ?_ ?_) shift.toChange ?_ ?_
    · exact (coherent.sound i).installed present value
    · exact unrepeated.installed value
    · simpa [Entry.installed] using present
    · simpa [Entry.installed] using coherent.counted i
    · exact fun _ _ => rfl
    · exact unrepeated.installed value
    · exact fun other => absurd key other
  · refine ⟨i, ?_, key, ?_⟩
    · rwa [holds_iff, recordTransition_table, ← holds_iff]
    · rw [recordTransition_entry, entry_put_self]
      rfl

/-! ## Expiring -/

theorem expireEntry_eq (present : (c.entry i).retired = false) :
    c.expireEntry i =
      let e := c.entry i
      ((c.recordTransition .expired ⟨e.generation + 1, e.phase.isComputing,
        (e.renewed c.settings.stale).2⟩).put i (e.renewed c.settings.stale).1).spawn? i
        (e.renewed c.settings.stale).2 := by
  unfold expireEntry
  rw [Entry.expire?_eq present]
  dsimp only
  rw [put_recordTransition]

/-- Nothing that is current or computed for the key was so before. -/
structure Renewed (c d : Cache κ ε α) (k : κ) : Prop where
  outcome : ∀ i o, d.Holds i → i.key = k → (d.entry i).phase ≠ .settled o
  computation : ∀ t ∈ c.tasks, t.entry.key = k → ∀ previous,
    (d.entry t.entry).phase ≠ .computing t.launch previous

theorem Coherent.course_expireEntry (h : Coherent c loose) (held : c.Holds i) :
    Course (· ≠ i.key) c (c.expireEntry i) loose := by
  obtain ⟨present, unrepeated⟩ := h.present i held
  have sound := h.sound i
  rw [expireEntry_eq present]
  dsimp only
  generalize (⟨(c.entry i).generation + 1, _, _⟩ : Transition) = transition
  have first : Course (· ≠ i.key) c (c.recordTransition .expired transition) loose :=
    h.stay.recordTransition _ _
  rw [← first.settings, ← recordTransition_entry c .expired transition] at sound ⊢
  have held' : (c.recordTransition .expired transition).Holds i := by
    rwa [holds_iff, recordTransition_table, ← holds_iff]
  rw [← recordTransition_entry c .expired transition] at present unrepeated
  have coherent := first.coherent
  refine first.trans ?_
  generalize c.recordTransition .expired transition = d at *
  have shift := Entry.shift_renewed sound present
  refine coherent.course_touch (coherent.shift held' ?_ shift ?_ ?_ ?_ ?_) shift.toChange ?_ ?_
  · exact sound.renewed present
  · exact unrepeated.renewed sound
  · simpa using present
  · simpa using coherent.counted i
  · exact fun _ _ => rfl
  · exact unrepeated.renewed sound
  · exact fun other => absurd rfl other

theorem expireEntry_entry (present : (c.entry i).retired = false) :
    (c.expireEntry i).entry i = ((c.entry i).renewed c.settings.stale).1 := by
  rw [expireEntry_eq present]
  simp

theorem expireEntry_table (c : Cache κ ε α) (i : EntryId κ) :
    (c.expireEntry i).table = c.table := by
  unfold expireEntry
  split
  next => rfl
  next => simp

theorem expireEntry_history (c : Cache κ ε α) (i : EntryId κ) :
    (c.expireEntry i).history = c.history := by
  unfold expireEntry
  split
  next => rfl
  next => simp

theorem expireEntry_holds (j : EntryId κ) : (c.expireEntry i).Holds j ↔ c.Holds j := by
  rw [holds_iff, holds_iff, expireEntry_table]

theorem Coherent.renewed_expireEntry (h : Coherent c loose) (held : c.Holds i) :
    Renewed c (c.expireEntry i) i.key where
  outcome := by
    intro j o hj key
    rw [expireEntry_holds] at hj
    rw [hj.unique held key, expireEntry_entry (h.present i held).1]
    exact Entry.renewed_not_settled _ o
  computation := by
    intro t ht key previous hp
    have coherent : Coherent (c.expireEntry i) loose := (h.course_expireEntry held).coherent
    have here : t.entry = i :=
      ((expireEntry_holds _).1 (coherent.holds_of_computing hp)).unique held key
    -- What is computed now is of the new generation, and an earlier launch is not.
    have new := ((coherent.sound t.entry).newest _ _ hp).2
    have old := (h.sound t.entry).bounded _ (h.handed t ht)
    rw [here, expireEntry_entry (h.present i held).1, Entry.renewed_generation] at new
    rw [here] at old
    omega

/-- An expiration of several entries spares all keys but theirs. -/
theorem Coherent.foldl_expireEntry (l : List (EntryId κ)) :
    ∀ {c : Cache κ ε α}, Coherent c loose → (∀ i ∈ l, c.Holds i) → (l.map (·.key)).Nodup →
      Course (· ∉ l.map (·.key)) c (l.foldl expireEntry c) loose ∧
        ∀ i ∈ l, Renewed c (l.foldl expireEntry c) i.key := by
  induction l with
  | nil => exact fun h _ _ => ⟨h.stay, by simp⟩
  | cons i rest ih =>
      intro c h held nodup
      rw [List.map_cons, List.nodup_cons] at nodup
      have first := h.course_expireEntry (held i List.mem_cons_self)
      have renewed := h.renewed_expireEntry (held i List.mem_cons_self)
      obtain ⟨course, others⟩ := ih first.coherent
        (fun j hj => (expireEntry_holds j).2 (held j (List.mem_cons_of_mem _ hj))) nodup.2
      rw [List.foldl_cons]
      refine ⟨(first.mono ?_).trans (course.mono ?_), ?_⟩
      · intro k spared same
        exact spared (by simp [same])
      · intro k spared mem
        exact spared (List.mem_cons_of_mem _ mem)
      · intro j hj
        rcases List.mem_cons.1 hj with rfl | hj
        · exact {
            outcome := by
              intro m o hm key hp
              obtain ⟨mid, hp'⟩ := course.settled m o (by rw [key]; exact nodup.1) hm hp
              exact renewed.outcome m o mid key hp'
            computation := by
              intro t ht key previous hp
              obtain ⟨previous', hp'⟩ := course.going t (first.tasks t ht) previous hp
              exact renewed.computation t ht key previous' hp' }
        · have last := others j hj
          exact ⟨last.outcome, fun t ht => last.computation t (first.tasks t ht)⟩

theorem expire_of_some {k : κ} (found : c.current? k = some i) :
    c.expire k = (c.note (.expired k)).expireEntry i := by
  simp [expire, found]

theorem expire_of_none {k : κ} (absent : c.current? k = none) :
    c.expire k = c.note (.expired k) := by
  simp [expire, absent]

theorem expire_history (c : Cache κ ε α) (k : κ) :
    (c.expire k).history = .expired k :: c.history := by
  cases found : c.current? k with
  | none => rw [expire_of_none found, note_history]
  | some i => rw [expire_of_some found, expireEntry_history, note_history]

theorem expireEntry_alive (c : Cache κ ε α) (i : EntryId κ) :
    (c.expireEntry i).alive = c.alive := by
  unfold expireEntry
  split
  next => rfl
  next => simp

theorem expire_alive (c : Cache κ ε α) (k : κ) : (c.expire k).alive = c.alive := by
  cases found : c.current? k with
  | none => rw [expire_of_none found, note_alive]
  | some i => rw [expire_of_some found, expireEntry_alive, note_alive]

theorem Coherent.expire (h : Coherent c loose) (k : κ) :
    Course (· ≠ k) (c.note (.expired k)) (c.expire k) loose ∧
      Renewed (c.note (.expired k)) (c.expire k) k := by
  have noted := h.note (.expired k)
  cases found : c.current? k with
  | none =>
      rw [expire_of_none found]
      refine ⟨noted.stay, ?_, ?_⟩
      · intro i o hi key _
        exact not_holds_of_current?_none found key hi
      · intro t _ key previous hp
        exact not_holds_of_current?_none found key (noted.holds_of_computing hp)
  | some i =>
      have held := holds_of_current? found
      obtain rfl := current?_key found
      rw [expire_of_some found]
      exact ⟨noted.course_expireEntry held, noted.renewed_expireEntry held⟩

theorem foldl_expireEntry_table (l : List (EntryId κ)) (c : Cache κ ε α) :
    (l.foldl expireEntry c).table = c.table := by
  induction l generalizing c with
  | nil => rfl
  | cons i rest ih => rw [List.foldl_cons, ih, expireEntry_table]

theorem foldl_expireEntry_history (l : List (EntryId κ)) (c : Cache κ ε α) :
    (l.foldl expireEntry c).history = c.history := by
  induction l generalizing c with
  | nil => rfl
  | cons i rest ih => rw [List.foldl_cons, ih, expireEntry_history]

theorem expireAll_history (c : Cache κ ε α) :
    c.expireAll.history = .expiredAll :: c.history := by
  simp [expireAll, foldl_expireEntry_history]

theorem Coherent.expireAll (h : Coherent c loose) :
    Course (fun _ => False) (c.note .expiredAll) c.expireAll loose ∧
      ∀ k, Renewed (c.note .expiredAll) c.expireAll k := by
  have noted : Course (fun _ => False) (c.note .expiredAll)
      ((c.note .expiredAll).record .expiredAll c.len) loose := (h.note .expiredAll).stay.record _ _
  have ids : ∀ i, i ∈ c.ids ↔ ((c.note .expiredAll).record .expiredAll c.len).Holds i := by
    intro i
    rw [mem_ids_iff, holds_iff, holds_iff, record_table, note_table]
  obtain ⟨course, renewed⟩ := noted.coherent.foldl_expireEntry c.ids
    (fun i hi => (ids i).1 hi) (nodup_ids_keys c)
  have held : ∀ i, c.expireAll.Holds i → i ∈ c.ids := by
    intro i hi
    rw [ids, holds_iff, ← foldl_expireEntry_table c.ids, ← holds_iff]
    exact hi
  refine ⟨noted.trans (course.mono (by simp)), ?_⟩
  intro k
  refine ⟨?_, ?_⟩
  · rintro i o hi rfl
    exact (renewed i (held i hi)).outcome i o hi rfl
  · rintro t ht rfl previous hp
    have mem := held t.entry (course.coherent.holds_of_computing hp)
    exact (renewed t.entry mem).computation t (noted.tasks t ht) rfl previous hp

/-! ## Results -/

theorem Coherent.nodup_generations (h : Coherent c loose) (i : EntryId κ) :
    ((c.entry i).launches.map (·.generation)).Nodup := by
  rw [List.Nodup, List.pairwise_map]
  exact (h.ordered i).imp fun lt => Ne.symm (Nat.ne_of_lt lt)

/-- No launch but that of the task is of its generation. -/
theorem Coherent.computing_of_owns (h : Coherent c loose) {t : Task κ}
    (handed : t.launch ∈ (c.entry t.entry).launches)
    (owned : (c.entry t.entry).owns t.launch.generation = true) :
    ∃ previous, (c.entry t.entry).phase = .computing t.launch previous := by
  obtain ⟨l, previous, hp, same⟩ := (Entry.owns_iff _ _).1 owned
  have mem := (h.sound t.entry).mem_of_computing hp
  have : l = t.launch := List.inj_on_of_nodup_map (h.nodup_generations t.entry) mem handed same
  exact ⟨previous, this ▸ hp⟩

@[simp] theorem entry_put_entry (c : Cache κ ε α) (i : EntryId κ) :
    (c.put i (c.entry i)).entry = c.entry := by
  funext j
  by_cases here : i = j
  · rw [← here, entry_put_self]
  · rw [entry_put_of_ne _ _ here]

/-- A result that comes too late leaves its entry as it is, and nothing is launched anew. -/
theorem Coherent.settle_eq (h : Coherent c loose) {t : Task κ}
    (disowned : (c.entry t.entry).owns t.launch.generation = false) (o : Outcome ε α) :
    c.settle t o = ((c.note (.returned t.id o)).put t.entry (c.entry t.entry)).record .discarded
      t.launch.generation := by
  unfold Cache.settle
  rw [(h.sound t.entry).settle_of_not_owns disowned o]
  rfl

theorem Coherent.settle_of_not_owns (h : Coherent c loose) {t : Task κ}
    (disowned : (c.entry t.entry).owns t.launch.generation = false) (o : Outcome ε α) :
    Course spared c (c.settle t o) loose := by
  have same : ((c.note (.returned t.id o)).put t.entry (c.entry t.entry)).entry = c.entry :=
    entry_put_entry (c.note (.returned t.id o)) t.entry
  rw [h.settle_eq disowned o]
  have noted : Course spared c (c.note (.returned t.id o)) loose := h.stay.returned t.id o
  have put : Course spared c ((c.note (.returned t.id o)).put t.entry (c.entry t.entry)) loose := by
    refine noted.trans (.still [] ?_ rfl rfl rfl (by simp) (by simp) rfl rfl rfl ?_)
    · exact noted.coherent.congr rfl same rfl rfl rfl (List.Perm.refl _) rfl id
    · intro j
      rw [same, note_entry]
  exact put.record _ _

theorem settle_of_owns {t : Task κ}
    (owned : (c.entry t.entry).owns t.launch.generation = true) (o : Outcome ε α) :
    c.settle t o = ((c.note (.returned t.id o)).put t.entry
      ((c.entry t.entry).concluded c.settings.stale o)).record .settled t.launch.generation := by
  unfold settle
  rw [Entry.settle_of_owns owned]

/-- An accepted result concludes the computation of its task, which is no longer in the list. -/
theorem Coherent.settle_of_owns (h : Coherent c loose) {t : Task κ}
    (handed : t.launch ∈ (c.entry t.entry).launches)
    (alone : ∀ u ∈ c.tasks, u.entry = t.entry → u.launch ≠ t.launch)
    (owned : (c.entry t.entry).owns t.launch.generation = true) (o : Outcome ε α) :
    Course (· ≠ t.entry.key) c (c.settle t o) loose := by
  obtain ⟨previous, hp⟩ := h.computing_of_owns handed owned
  have held := h.holds_of_computing hp
  obtain ⟨present, unrepeated⟩ := h.present _ held
  rw [Cache.settle_of_owns owned o]
  have noted : Course (· ≠ t.entry.key) c (c.note (.returned t.id o)) loose :=
    h.stay.returned t.id o
  have change := Entry.change_concluded c.settings.stale (c.entry t.entry) o
  refine (noted.trans ?_).record _ _
  refine noted.coherent.course_put (noted.coherent.touch_put held ?_ change ?_ ?_ ?_ ?_ ?_) change
    ?_ ?_
  · exact (h.sound t.entry).concluded present o
  · exact unrepeated.concluded o
  · exact present
  · intro u hu here previous' hp' _
    rw [note_entry, hp] at hp'
    exact absurd (Phase.computing.inj hp').1.symm (alone u hu here)
  · exact h.counted t.entry
  · exact fun _ _ => rfl
  · exact unrepeated.concluded o
  · exact fun other => absurd rfl other

theorem settle_history (h : Coherent c loose) (t : Task κ) (o : Outcome ε α) :
    (c.settle t o).history = .returned t.id o :: c.history := by
  cases owned : (c.entry t.entry).owns t.launch.generation with
  | true => simp [Cache.settle_of_owns owned o]
  | false => simp [h.settle_eq owned o]

theorem settle_tasks (h : Coherent c loose) (t : Task κ) (o : Outcome ε α) :
    (c.settle t o).tasks = c.tasks := by
  cases owned : (c.entry t.entry).owns t.launch.generation with
  | true => simp [Cache.settle_of_owns owned o]
  | false => simp [h.settle_eq owned o]

theorem settle_phase {t : Task κ} (owned : (c.entry t.entry).owns t.launch.generation = true)
    (o : Outcome ε α) : ((c.settle t o).entry t.entry).phase = .settled o := by
  rw [Cache.settle_of_owns owned o, record_entry, entry_put_self]
  rfl

/-! ## Tasks that go -/

theorem mem_removeTask (c : Cache κ ε α) (x : TaskId κ) (t : Task κ) :
    t ∈ (c.removeTask x).tasks ↔ t ∈ c.tasks ∧ t.id ≠ x := by
  simp [removeTask]

theorem Coherent.removeTask (h : Coherent c loose) (x : TaskId κ) :
    Coherent (c.removeTask x) loose where
  located := h.located
  unmade := h.unmade
  sound := h.sound
  ordered := h.ordered
  present := h.present
  retired := h.retired
  counted := h.counted
  named := fun t ht => h.named t ((mem_removeTask c x t).1 ht).1
  distinct := h.distinct.sublist (List.filter_sublist.map _)
  handed := fun t ht => h.handed t ((mem_removeTask c x t).1 ht).1
  unshared := by
    intro t ht u hu
    exact h.unshared t ((mem_removeTask c x t).1 ht).1 u ((mem_removeTask c x u).1 hu).1
  live := fun t ht => h.live t ((mem_removeTask c x t).1 ht).1
  running := h.running

/-! ## The end of the cache -/

/-- In a cache that has ended a computation may be stopped without a change of the phase. -/
theorem Coherent.abort (h : Coherent c loose) (dead : c.alive = false) (i : EntryId κ) :
    Coherent (c.put i (c.entry i).abort) loose := by
  have entry : ∀ j, (c.put i (c.entry i).abort).entry j = c.entry j ∨
      (c.put i (c.entry i).abort).entry j = (c.entry j).abort := by
    intro j
    by_cases here : i = j
    · subst here
      exact .inr (entry_put_self _ _ _)
    · exact .inl (entry_put_of_ne _ _ here)
  exact {
    located := h.located
    unmade := by
      intro j hj
      have fresh := h.unmade j hj
      rcases entry j with eq | eq
      · rw [eq, fresh]
      · rw [eq, fresh]
        rfl
    sound := by
      intro j
      rcases entry j with eq | eq
      · rw [eq]
        exact h.sound j
      · rw [eq]
        exact (h.sound j).abort
    ordered := by
      intro j
      rcases entry j with eq | eq <;> rw [eq]
      · exact h.ordered j
      · simpa using h.ordered j
    present := by
      intro j hj
      obtain ⟨present, unrepeated⟩ := h.present j hj
      rcases entry j with eq | eq <;> rw [eq]
      · exact ⟨present, unrepeated⟩
      · exact ⟨by simpa using present, unrepeated.abort⟩
    retired := by
      intro j made out
      rcases entry j with eq | eq <;> rw [eq]
      · exact h.retired j made out
      · simpa using h.retired j made out
    counted := by
      intro j
      rcases entry j with eq | eq <;> rw [eq]
      · exact h.counted j
      · rw [Entry.abort_subscribers]
        exact h.counted j
    named := h.named
    distinct := h.distinct
    handed := by
      intro t ht
      rcases entry t.entry with eq | eq <;> rw [eq]
      · exact h.handed t ht
      · simpa using h.handed t ht
    unshared := h.unshared
    live := by
      intro t ht alive
      have before := h.live t ht
      simp only [isAborted, decide_eq_false_iff_not] at alive before
      rcases entry t.entry with eq | eq <;> rw [eq] at alive ⊢
      · exact before alive
      · simpa using before fun stop => alive (Entry.aborted_subset_abort _ stop)
    running := by
      intro ha
      rw [put_alive, dead] at ha
      cases ha }

theorem Coherent.foldl_abort (l : List (EntryId κ)) :
    ∀ {c : Cache κ ε α}, Coherent c loose → c.alive = false →
      Course spared c (l.foldl (fun c i => c.put i (c.entry i).abort) c) loose := by
  induction l with
  | nil => exact fun h _ => h.stay
  | cons i rest ih =>
      intro c h dead
      have first : Course spared c (c.put i (c.entry i).abort) loose := by
        refine .still [] (h.abort dead i) rfl rfl rfl (by simp) (by simp) rfl rfl rfl ?_
        intro j
        by_cases here : i = j
        · subst here
          rw [entry_put_self, Entry.abort_phase]
        · rw [entry_put_of_ne _ _ here]
      exact first.trans (ih first.coherent dead)

/-- Whether the cache lives does not matter to how its computations are stopped. -/
theorem close_eq (c : Cache κ ε α) :
    c.close = c.ids.foldl (fun c i => c.put i (c.entry i).abort) { c with alive := false } := by
  unfold close
  generalize c.ids = l
  induction l generalizing c with
  | nil => rfl
  | cons i rest ih =>
      rw [List.foldl_cons, ih, List.foldl_cons]
      rfl

theorem Coherent.close (h : Coherent c loose) :
    Course spared { c with alive := false } c.close loose := by
  have dead : Coherent { c with alive := false } loose :=
    h.congr rfl rfl rfl rfl rfl (List.Perm.refl _) rfl (by simp)
  rw [close_eq]
  exact Coherent.foldl_abort _ dead rfl

end LiveCache.Cache
