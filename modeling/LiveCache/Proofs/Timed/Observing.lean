import LiveCache.Proofs.Timed.Freshness
import LiveCache.Proofs.Timed.Coalescing

/-! # What observers can tell

A view shows a current outcome only while nothing is computed for the key, and any other view only
while exactly one computation is under way. While it is, a cache that replays shows the outcome that
the entry was settled with last, and one that hides shows nothing. The phases that launch a
computation, or give one up, publish no view: they rely on an observed entry never being left idle.
-/

namespace LiveCache

namespace Cache

variable {κ ε α : Type} [DecidableEq κ] {c : Cache κ ε α} {loose : List (EntryId κ)}
  {i : EntryId κ} {k : κ}

/-- The tasks of a key that were not told to stop. -/
def liveTasks (c : Cache κ ε α) (k : κ) : List (Task κ) :=
  c.tasks.filter fun u => u.id.key = k ∧ c.isAborted u = false

/-- What a view tells of the entry that shows it. -/
structure Candid (c : Cache κ ε α) (i : EntryId κ) (v : View ε α) : Prop where
  held : c.Holds i
  attended : (c.entry i).phase.isIdle = false
  done : ∀ o, v = .known o .done ↔ c.liveTasks i.key = [] ∧ (c.entry i).phase = .settled o
  underway : v.isDone = false → (c.liveTasks i.key).length = 1
  replayed : c.settings.stale = .replay → v.isDone = false →
    v = ((c.entry i).lastSettled?.map (·.withProgress .loading)).getD .incomplete
  hidden : c.settings.stale = .hide → v.isDone = false → v = .incomplete

theorem mem_liveTasks {u : Task κ} :
    u ∈ c.liveTasks k ↔ u ∈ c.tasks ∧ u.id.key = k ∧ c.isAborted u = false := by
  simp [liveTasks]

theorem Coherent.length_liveTasks_le_one (h : Coherent c loose) (k : κ) :
    (c.liveTasks k).length ≤ 1 := by
  apply length_le_one
  · exact (List.Nodup.of_map _ h.distinct).filter _
  · intro u hu v hv
    rw [mem_liveTasks] at hu hv
    exact h.eq_of_live hu.1 hv.1 hu.2.2 hv.2.2 (hu.2.1.trans hv.2.1.symm)

/-- A settled entry computes nothing, and no other entry of its key does. -/
theorem Coherent.liveTasks_of_settled (h : Coherent c loose) (held : c.Holds i) {o : Outcome ε α}
    (settled : (c.entry i).phase = .settled o) : c.liveTasks i.key = [] := by
  apply List.eq_nil_iff_forall_not_mem.2
  intro u hu
  obtain ⟨listed, key, spared⟩ := mem_liveTasks.1 hu
  have same : u.entry.key = i.key := (h.named u listed).1.symm.trans key
  rw [h.aborted_of_settled held settled listed same] at spared
  cases spared

theorem Coherent.liveTasks_of_computing (h : Coherent c loose) (staffed : Staffed False c)
    (alive : c.alive = true) {l : Launch} {previous : Option (Outcome ε α)}
    (hp : (c.entry i).phase = .computing l previous) : (c.liveTasks i.key).length = 1 := by
  obtain ⟨u, listed, rfl, rfl⟩ := staffed id alive i l previous hp
  have running := h.running alive u.entry u.launch previous hp
  have live : u ∈ c.liveTasks u.entry.key :=
    mem_liveTasks.2 ⟨listed, (h.named u listed).1, by simpa [Cache.isAborted] using running⟩
  exact Nat.le_antisymm (h.length_liveTasks_le_one _) (List.length_pos_of_mem live)

theorem ofPrevious_replay (previous : Option (Outcome ε α)) :
    View.ofPrevious .replay previous =
      (previous.map (·.withProgress .loading)).getD .incomplete := by
  cases previous <;> rfl

/-- The view of an entry that is not idle. -/
theorem Coherent.candid (h : Coherent c loose) (staffed : Staffed False c)
    (alive : c.alive = true) (held : c.Holds i) (busy : (c.entry i).phase.isIdle = false)
    (remembers : (c.entry i).phase.previous = (c.entry i).lastSettled?) :
    Candid c i (c.entry i).latest := by
  have shown := (h.sound i).shown
  cases hp : (c.entry i).phase with
  | empty => simp [hp, Phase.isIdle] at busy
  | stale previous => simp [hp, Phase.isIdle] at busy
  | settled o =>
      rw [hp] at shown
      exact {
        held := held
        attended := busy
        done := by
          intro o'
          rw [shown, hp]
          simp [Phase.view, Outcome.withProgress, h.liveTasks_of_settled held hp]
        underway := by simp [shown, Phase.view, Outcome.withProgress, View.isDone]
        replayed := by simp [shown, Phase.view, Outcome.withProgress, View.isDone]
        hidden := by simp [shown, Phase.view, Outcome.withProgress, View.isDone] }
  | computing l previous =>
      have one := h.liveTasks_of_computing staffed alive hp
      rw [hp] at shown remembers
      have unsettled : (c.entry i).latest.settled? = none := by
        rw [shown]
        exact Entry.settled?_ofPrevious _ _
      exact {
        held := held
        attended := busy
        done := by
          intro o
          constructor
          · intro done
            rw [done] at unsettled
            cases unsettled
          · rintro ⟨none, -⟩
            rw [none] at one
            cases one
        underway := fun _ => one
        replayed := by
          intro replay _
          rw [shown, ← remembers, Phase.view, replay]
          exact ofPrevious_replay previous
        hidden := by
          intro hide _
          rw [shown, Phase.view, hide]
          rfl }

/-- A snapshot shows the entry of its key after the demand that it made. -/
theorem Coherent.snapshot_latest (h : Coherent c loose) (k : κ) :
    ∃ i, i.key = k ∧ (c.snapshot k).1.Holds i ∧
      ((c.snapshot k).1.entry i).phase.isIdle = false ∧
      (c.snapshot k).2 = ((c.snapshot k).1.entry i).latest := by
  obtain ⟨-, held, key⟩ := h.locate k
  refine ⟨(c.locate k).2, key, ?_, ?_, ?_⟩ <;> rw [snapshot_eq h k]
  · exact (touch_holds _).2 held
  · dsimp only
    rw [note_entry, touch_entry_self]
    exact Entry.demand_not_idle _
  · dsimp only
    rw [note_entry, touch_entry_self]

theorem await_answer (c : Cache κ ε α) (x : Option (Holder κ)) (k : κ) :
    (c.await x k).2 = ((c.subscribe k).1.entry (c.subscribe k).2.entry).latest.settled? := by
  unfold await
  dsimp only
  split
  next unsettled => exact unsettled.symm
  next => rfl

end Cache

namespace TimedCache

open Cache (Candid Coherent Course)

variable {κ ε α : Type} [DecidableEq κ] {t : TimedCache κ ε α} {settings : Settings}
  {ttl : Option Nat}

/-- The view of an entry that is not idle in a cache that is reached. -/
theorem Reached.candid (h : Reached False settings ttl t) (alive : t.cache.alive = true)
    {i : EntryId κ} (held : t.cache.Holds i) (busy : (t.cache.entry i).phase.isIdle = false) :
    Candid t.cache i (t.cache.entry i).latest :=
  h.coherent.candid h.staffed alive held busy ((h.leads i).previous rfl)

/-- The first look of a wait, at the entry that it has just subscribed to. -/
theorem Reached.candid_subscribe (h : Reached False settings ttl t)
    (alive : t.cache.alive = true) (k : κ) :
    let made := (t.armIfAbsent k).cache.subscribe k
    Candid made.1 made.2.entry (made.1.entry made.2.entry).latest := by
  intro made
  have armed := coherent_armIfAbsent h.coherent k
  have paces := paces_armIfAbsent t k
  have course : Course (fun _ => True) _ made.1 _ := armed.subscribe k
  have evolves := Cache.evolves_subscribe (t.armIfAbsent k).cache k
  have leads : Entry.Leads settings.stale {} (made.1.entry made.2.entry) := by
    have later := evolves.leads made.2.entry
    rw [armIfAbsent_entry, armIfAbsent_settings, h.same_settings] at later
    exact (h.leads _).trans later
  have observed : 0 < (made.1.entry made.2.entry).subscribers := by
    rw [course.coherent.counted, List.count_cons_self]
    exact Nat.succ_pos _
  exact course.coherent.candid (course.staffed_of (paces.staffed h.staffed))
    (course.alive.trans (paces.keeps.2.trans alive)) (Cache.subscribe_held armed k).1
    ((course.coherent.sound _).attended observed) (leads.previous rfl)

/-- Whatever an observer is given by a subscription, a snapshot or the first look of a wait tells
whether the key is being computed. The last outcome of an entry is that of the last of its
operations that settled it. -/
theorem observers_told (h : Reached False settings ttl t) (alive : t.cache.alive = true) :
    (∀ x s v, t.cache.observers.find? x = some s → (t.poll x).2 = some v →
      Candid t.cache s.entry v) ∧
    (∀ k, ∃ i, i.key = k ∧ Candid (t.snapshot k).1.cache i (t.snapshot k).2) ∧
    (∀ x k, let made := (t.armIfAbsent k).cache.subscribe k
      ∃ v, made.2.entry.key = k ∧ Candid made.1 made.2.entry v ∧
        (t.await x k).2 = v.settled?) ∧
    (∀ i, ({} : Entry ε α).lastSettled? = none ∧
      Entry.Leads settings.stale {} (t.cache.entry i) ∧
      ∀ a, ((t.cache.entry i).perform settings.stale a).lastSettled? =
        ((t.cache.entry i).settledBy a).or (t.cache.entry i).lastSettled?) := by
  have coherent := h.coherent
  refine ⟨?_, ?_, ?_, ?_⟩
  · intro x s v found given
    rw [poll_view] at given
    rw [← Cache.poll_latest found given]
    refine h.candid alive (coherent.holds_of_find? found) ?_
    exact (coherent.sound _).attended (coherent.observed_of_find? found)
  · intro k
    obtain ⟨i, key, held, busy, shown⟩ := (coherent_armIfAbsent coherent k).snapshot_latest k
    have after : Reached False settings ttl (t.snapshot k).1 := h.tail (.deed (.snapshot k))
    have paces := (Deed.snapshot k).paces coherent
    exact ⟨i, key, shown ▸ after.candid (paces.keeps.2.trans alive) held busy⟩
  · intro x k made
    have key := (Cache.subscribe_held (coherent_armIfAbsent coherent k) k).2
    exact ⟨_, key, h.candid_subscribe alive k, Cache.await_answer _ x k⟩
  · intro i
    exact ⟨rfl, h.leads i, fun a => Entry.lastSettled?_perform _ a⟩

/-- A key is set and expires under its reader, who is given the value as outdated while the key is
computed anew. -/
theorem observers_told_replayed :
    let asked : TimedCache Nat Nat Nat := (opened {} none).observe (.reader "r") 0
    let t := (asked.set 0 5).expire 0
    t.cache.observers.find? (.reader "r") = some ⟨⟨0, 0⟩, none⟩ ∧ t.cache.alive = true ∧
      (t.poll (.reader "r")).2 = some (.known (.success 5) .loading) ∧
      (t.cache.entry ⟨0, 0⟩).lastSettled? = some (.success 5) ∧
      Candid t.cache ⟨0, 0⟩ (.known (.success 5) .loading) ∧
      (t.cache.liveTasks 0).length = 1 := by
  intro asked t
  have first : Reached False {} none asked := .single (.deed (.observe (.reader "r") 0))
  have reached : Reached False {} none t := (first.tail (.deed (.set 0 5))).tail (.deed (.expire 0))
  have found : t.cache.observers.find? (.reader "r") = some ⟨⟨0, 0⟩, none⟩ := by decide
  have alive : t.cache.alive = true := by decide
  have given : (t.poll (.reader "r")).2 = some (.known (.success 5) .loading) := by decide
  have candid := (observers_told reached alive).1 (.reader "r") _ _ found given
  exact ⟨found, alive, given, by decide, candid, candid.underway rfl⟩

end TimedCache

end LiveCache
