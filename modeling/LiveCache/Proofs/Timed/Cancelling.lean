import LiveCache.Proofs.Timed.Coalescing

/-! # Cancelled computations

A write stops whatever is computed for its key, and where entries are kept only while they are
observed, so does the end of the last subscription. A task that was told to stop stays so for good.
Its computation is not begun any more, and if it was begun its result finds an entry that does not
compute its launch: either the entry has gone on, or it has left the table and a new entry of the
key, which the task does not know, computes at the same generation.
-/

namespace LiveCache

namespace Cache

variable {κ ε α : Type} [DecidableEq κ] {c d : Cache κ ε α} {loose : List (EntryId κ)}
  {t : Task κ} {x : TaskId κ}

/-- Every task of the entry was told to stop. -/
def Stopped (c : Cache κ ε α) (i : EntryId κ) : Prop :=
  ∀ t ∈ c.tasks, t.entry = i → c.isAborted t = true

/-- The number was given to a task, and the task, if it is still listed, was told to stop. -/
structure Cancelled (c : Cache κ ε α) (x : TaskId κ) : Prop where
  given : x.ordinal < Tally.count c.spawned x.key
  stopped : ∀ t ∈ c.tasks, t.id = x → c.isAborted t = true

/-! ## What stops a task -/

theorem Coherent.stopped_of_retired (h : Coherent c loose) {i : EntryId κ}
    (retired : (c.entry i).retired = true) : c.Stopped i := by
  rintro t listed rfl
  refine h.aborted_of_not_computing listed fun previous hp => ?_
  have calm := ((h.sound t.entry).resting retired).2
  simp [hp, Phase.isComputing] at calm

/-- An entry that has lost its last subscriber leaves no task behind that goes on. -/
theorem Coherent.stopped_of_forsaken (h : Coherent d loose) (evolves : Evolves c d)
    (forgets : c.settings.retention = .whileObserved) {i : EntryId κ}
    (observed : 0 < (c.entry i).subscribers) (none : (d.entry i).subscribers = 0) : d.Stopped i :=
  h.stopped_of_retired (evolves.forsaken forgets i observed none)

theorem Evolves.aborted (h : Evolves c d) (aborted : c.isAborted t = true) :
    d.isAborted t = true := by
  simp only [Cache.isAborted, decide_eq_true_eq] at aborted ⊢
  exact (h.leads t.entry).stopped aborted

/-! ## What a stopped task can do -/

theorem Coherent.disowned (h : Coherent c loose) (alive : c.alive = true)
    (handed : t.launch ∈ (c.entry t.entry).launches) (aborted : c.isAborted t = true) :
    (c.entry t.entry).owns t.launch.generation = false := by
  by_contra owned
  obtain ⟨previous, hp⟩ := h.computing_of_owns handed (by simpa using owned)
  exact h.running alive t.entry t.launch previous hp (by simpa [Cache.isAborted] using aborted)

/-- The result of a stopped task changes no entry and launches nothing. -/
theorem Ending.settle_of_aborted {e : Cache κ ε α} (ending : Ending c t e) (alive : c.alive = true)
    (aborted : c.isAborted t = true) (o : Outcome ε α) :
    (e.settle t o).entry = c.entry ∧ (e.settle t o).table = c.table ∧
      (e.settle t o).spawned = c.spawned ∧ (e.settle t o).tasks = (c.removeTask t.id).tasks := by
  have stopped : e.isAborted t = true := by
    unfold Cache.isAborted at aborted ⊢
    rwa [ending.entry]
  have disowned := ending.coherent.disowned (ending.alive.trans alive) ending.handed stopped
  rw [ending.coherent.settle_eq disowned, record_entry, record_table, record_spawned, record_tasks]
  refine ⟨?_, ending.table, ending.spawned, ending.tasks⟩
  rw [← ending.entry]
  exact entry_put_entry (e.note (.returned t.id o)) t.entry

/-- No later task has the number of a cancelled one. -/
theorem Cancelled.later (h : Cancelled c x) (evolves : Evolves c d)
    (spawned : ∀ k, Tally.count c.spawned k ≤ Tally.count d.spawned k)
    (begun : ∀ t ∈ d.tasks, t ∉ c.tasks → Tally.count c.spawned t.id.key ≤ t.id.ordinal) :
    Cancelled d x where
  given := Nat.lt_of_lt_of_le h.given (spawned x.key)
  stopped := by
    rintro t listed rfl
    by_cases old : t ∈ c.tasks
    · exact evolves.aborted (h.stopped t old rfl)
    · exact absurd h.given (Nat.not_lt.2 (begun t listed old))

theorem Coherent.cancelled (h : Coherent c loose) (listed : t ∈ c.tasks)
    (aborted : c.isAborted t = true) : Cancelled c t.id where
  given := (h.named t listed).2
  stopped := by
    intro u hu same
    rwa [List.inj_on_of_nodup_map h.distinct hu listed same]

end Cache

namespace TimedCache

open Cache (Cancelled Coherent Course Evolves Stopped)

variable {κ ε α : Type} [DecidableEq κ] {t t' : TimedCache κ ε α} {lossy : Prop}
  {settings : Settings} {ttl : Option Nat}

/-- A cancelled task stays so, and its computation is not begun any more. -/
theorem Move.cancelled (hc : Coherent t.cache []) {x : TaskId κ} (h : Cancelled t.cache x)
    (move : Move lossy t t') :
    Cancelled t'.cache x ∧ (.called x ∈ t'.cache.history ↔ .called x ∈ t.cache.history) := by
  have evolves := move.evolves hc
  cases move with
  | deed deed =>
      have keeps := (deed.paces hc).keeps.1
      exact ⟨h.later evolves keeps.spawned keeps.begun, keeps.called x⟩
  | close =>
      have course : Course (fun _ => True) { t.cache with alive := false } t.cache.close [] :=
        hc.close
      have keeps := course.keeps
      exact ⟨h.later evolves keeps.spawned keeps.begun, keeps.called x⟩
  | call u listed spared first =>
      have other : u.id ≠ x := fun same => by simp [h.stopped u listed same] at spared
      refine ⟨⟨h.given, h.stopped⟩, ?_⟩
      rw [Cache.note_history, List.mem_cons]
      exact ⟨fun mem => mem.resolve_left fun here => other (Happening.called.inj here).symm, .inr⟩
  | finish u listed called alive o report =>
      have ending := hc.ending listed report
      refine ⟨h.later evolves ?_ ?_, ?_⟩
      · intro k
        rw [← ending.spawned]
        exact (ending.settle o).spawned k
      · intro v hv new
        rw [Cache.settle_tasks ending.coherent, ending.tasks, Cache.mem_removeTask] at hv
        exact absurd hv.1 new
      · rw [Cache.settle_history ending.coherent, ending.history]
        simp
  | leave u listed why =>
      refine ⟨h.later evolves (fun _ => Nat.le_refl _) ?_, Iff.rfl⟩
      intro v hv new
      exact absurd ((Cache.mem_removeTask t.cache u.id v).1 hv).1 new

theorem Moves.cancelled (h : Reached lossy settings ttl t) {x : TaskId κ}
    (cancelled : Cancelled t.cache x) (moves : Moves lossy t t') :
    Cancelled t'.cache x ∧ (.called x ∈ t'.cache.history ↔ .called x ∈ t.cache.history) := by
  refine moves.keep (P := fun u => Cancelled u.cache x ∧
    (.called x ∈ u.cache.history ↔ .called x ∈ t.cache.history)) h ⟨cancelled, Iff.rfl⟩ ?_
  rintro u u' hc move ⟨before, called⟩
  obtain ⟨after, same⟩ := move.cancelled hc before
  exact ⟨after, same.trans called⟩

/-! ## What cancels -/

theorem isAborted_set (h : Coherent t.cache []) (k : κ) (value : α) {u : Task κ}
    (listed : u ∈ t.cache.tasks) (key : u.id.key = k) :
    (t.set k value).cache.isAborted u = true := by
  obtain ⟨course, i, held, here, settled⟩ := h.set k value
  have same : u.entry.key = i.key := by rw [← (h.named u listed).1, key, here]
  have aborted := course.coherent.aborted_of_settled held settled (course.tasks u listed) same
  unfold TimedCache.set arm
  split <;> exact aborted

theorem isAborted_expire (h : Coherent t.cache []) (k : κ) {u : Task κ}
    (listed : u ∈ t.cache.tasks) (key : u.id.key = k) :
    (t.expire k).cache.isAborted u = true := by
  obtain ⟨course, renewed⟩ := h.expire k
  have here : u.entry.key = k := by rw [← (h.named u listed).1, key]
  exact course.coherent.aborted_of_not_computing (course.tasks u listed)
    (renewed.computation u listed here)

theorem isAborted_expireAll (h : Coherent t.cache []) {u : Task κ} (listed : u ∈ t.cache.tasks) :
    t.expireAll.cache.isAborted u = true := by
  obtain ⟨course, renewed⟩ := h.expireAll
  exact course.coherent.aborted_of_not_computing (course.tasks u listed)
    ((renewed _).computation u listed rfl)

/-- The entry that a new subscription belongs to. -/
theorem locate_armIfAbsent (t : TimedCache κ ε α) (k : κ) :
    ((t.armIfAbsent k).cache.locate k).2 = (t.cache.locate k).2 := by
  unfold armIfAbsent arm
  split <;> [rfl; split <;> [rfl; skip]]
  unfold Cache.locate
  rw [Cache.note_current?]
  split <;> rfl

/-- A subscription that is made and ended within one operation may have been the only one. -/
theorem stopped_subscribed (h : Coherent t.cache [])
    (forgets : t.cache.settings.retention = .whileObserved) (k : κ) {d : Cache κ ε α}
    (evolves : Coherent ((t.armIfAbsent k).cache.subscribe k).1
      [((t.armIfAbsent k).cache.subscribe k).2.entry] →
      Evolves ((t.armIfAbsent k).cache.subscribe k).1 d)
    (coherent : Coherent d []) (none : (d.entry (t.cache.locate k).2).subscribers = 0) :
    d.Stopped (t.cache.locate k).2 := by
  have armed := coherent_armIfAbsent h k
  have made : Course (fun _ => True) _ _ _ := armed.subscribe k
  have here : ((t.armIfAbsent k).cache.subscribe k).2.entry = (t.cache.locate k).2 := by
    rw [Cache.subscribe_eq armed, ← locate_armIfAbsent]
  rw [← here] at none ⊢
  refine coherent.stopped_of_forsaken (evolves made.coherent) ?_ ?_ none
  · rw [(Cache.evolves_subscribe _ k).settings, armIfAbsent_settings]
    exact forgets
  · rw [made.coherent.counted, List.count_cons_self]
    exact Nat.succ_pos _

/-- Writes and the loss of the last subscription stop the computations that they concern. The
computation of a stopped task is never begun, and when it was begun before, its result changes no
entry and launches nothing, whatever was done in the meantime. -/
theorem cancelled_without_effect (h : Reached lossy settings ttl t) :
    (∀ u ∈ t.cache.tasks, ∀ value, (t.set u.id.key value).cache.isAborted u = true) ∧
    (∀ u ∈ t.cache.tasks, (t.expire u.id.key).cache.isAborted u = true) ∧
    (∀ u ∈ t.cache.tasks, t.expireAll.cache.isAborted u = true) ∧
    (settings.retention = .whileObserved →
      (∀ t' i, Move lossy t t' → 0 < (t.cache.entry i).subscribers →
        (t'.cache.entry i).subscribers = 0 → t'.cache.Stopped i) ∧
      (∀ k, ((t.glance k).cache.entry (t.cache.locate k).2).subscribers = 0 →
        (t.glance k).cache.Stopped (t.cache.locate k).2) ∧
      (∀ x k, ((t.await x k).1.cache.entry (t.cache.locate k).2).subscribers = 0 →
        (t.await x k).1.cache.Stopped (t.cache.locate k).2)) ∧
    (∀ u ∈ t.cache.tasks, t.cache.isAborted u = true → ∀ t', Moves lossy t t' →
      (.called u.id ∈ t'.cache.history ↔ .called u.id ∈ t.cache.history) ∧
      (u ∈ t'.cache.tasks → t'.cache.isAborted u = true) ∧
      (u ∈ t'.cache.tasks → t'.cache.alive = true → ∀ o report,
        let ended := (t'.cache.withdraw u report).settle u o
        ended.entry = t'.cache.entry ∧ ended.table = t'.cache.table ∧
          ended.spawned = t'.cache.spawned ∧ ended.tasks = (t'.cache.removeTask u.id).tasks)) := by
  have coherent := h.coherent
  refine ⟨?_, ?_, ?_, ?_, ?_⟩
  · intro u listed value
    exact isAborted_set coherent u.id.key value listed rfl
  · intro u listed
    exact isAborted_expire coherent u.id.key listed rfl
  · intro u listed
    exact isAborted_expireAll coherent listed
  · intro forgets
    rw [← h.same_settings] at forgets
    refine ⟨?_, ?_, ?_⟩
    · intro t' i move observed none
      have after := Reached.coherent (h.tail move)
      exact after.stopped_of_forsaken (move.evolves coherent) forgets observed none
    · intro k none
      have after : Course (fun _ => True) _ _ _ := (coherent_armIfAbsent coherent k).glance k
      exact stopped_subscribed coherent forgets k (fun made => made.evolves_unsubscribe)
        after.coherent none
    · intro x k none
      have after : Course (fun _ => True) _ _ _ := (coherent_armIfAbsent coherent k).await x k
      exact stopped_subscribed coherent forgets k (fun made => (made.parting_awaited x).evolves)
        after.coherent none
  · intro u listed aborted t' moves
    obtain ⟨cancelled, called⟩ := moves.cancelled h (coherent.cancelled listed aborted)
    refine ⟨called, fun listed' => cancelled.stopped u listed' rfl, ?_⟩
    intro listed' alive o report
    have ending := (Reached.coherent (h.trans moves)).ending listed' report
    exact ending.settle_of_aborted alive (cancelled.stopped u listed' rfl) o

/-- The only reader goes and another one comes, so the key is computed in a new entry at the
generation of the task that was stopped. What that task returns does not settle the new entry. -/
theorem cancelled_without_effect_recreated :
    let settings : Settings := { retention := .whileObserved }
    let asked : TimedCache Nat Nat Nat := (opened settings none).observe (.reader "r") 0
    let u : Task Nat := ⟨⟨0, 0⟩, ⟨0, 0⟩, ⟨0, 0⟩⟩
    let called := { asked with cache := asked.cache.note (.called u.id) }
    let left := called.release (.reader "r")
    let anew := left.observe (.reader "s") 0
    let ended := (anew.cache.withdraw u none).settle u (.success 7)
    left.cache.isAborted u = true ∧
      (anew.cache.entry ⟨0, 1⟩).phase = .computing ⟨0, 0⟩ none ∧
      ended.entry = anew.cache.entry ∧ ended.tasks = (anew.cache.removeTask u.id).tasks := by
  intro settings asked u called left anew ended
  have first : Reached False settings none asked := .single (.deed (.observe (.reader "r") 0))
  have second : Reached False settings none called :=
    first.tail (.call u (by decide) (by decide) (by decide))
  have third : Reached False settings none left := second.tail (.deed (.release (.reader "r")))
  have aborted : left.cache.isAborted u = true := by decide
  have fourth : Moves False left anew := .single (.deed (.observe (.reader "s") 0))
  have later := (cancelled_without_effect third).2.2.2.2 u (by decide) aborted anew fourth
  have alive : anew.cache.alive = true := by decide
  have effect := later.2.2 (by decide) alive (.success 7) none
  have phase : (anew.cache.entry ⟨0, 1⟩).phase = .computing ⟨0, 0⟩ none := by decide
  exact ⟨aborted, phase, effect.1, effect.2.2.2⟩

end TimedCache

end LiveCache
