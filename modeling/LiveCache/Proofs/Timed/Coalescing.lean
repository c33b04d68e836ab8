import LiveCache.Proofs.Timed.Moves

/-! # One computation for each key

At any time at most one task of a key has not been told to stop, and no entry is launched twice at
one generation. As long as the cache lives and its executor drops nothing, such tasks and the
entries that are being computed belong to each other, so a key is never left computing.
-/

namespace LiveCache

namespace Cache

variable {κ ε α : Type} [DecidableEq κ] {c d : Cache κ ε α} {lossy : Prop}

/-- What is computed has a task, unless the executor has dropped it or the cache has ended. -/
def Staffed (lossy : Prop) (c : Cache κ ε α) : Prop :=
  ¬ lossy → c.alive = true → ∀ i l previous, (c.entry i).phase = .computing l previous →
    ∃ t ∈ c.tasks, t.entry = i ∧ t.launch = l

theorem Course.staffed_of {spared : κ → Prop} {loose : List (EntryId κ)}
    (course : Course spared c d loose) (h : Staffed lossy c) : Staffed lossy d := by
  intro keeps alive i l previous hp
  rw [course.alive] at alive
  rcases course.staffed i l previous hp with ⟨previous', before⟩ | task
  · obtain ⟨t, ht, here⟩ := h keeps alive i l previous' before
    exact ⟨t, course.tasks t ht, here⟩
  · exact task

theorem owns_of_computing {e : Entry ε α} {l : Launch} {previous : Option (Outcome ε α)}
    (hp : e.phase = .computing l previous) : e.owns l.generation = true :=
  (Entry.owns_iff e l.generation).2 ⟨l, previous, hp, rfl⟩

/-- The task that has ended is that of no computation any more. -/
theorem Ending.staffed {t : Task κ} {e : Cache κ ε α} (ending : Ending c t e)
    (hc : Coherent c []) (h : Staffed lossy c) (listed : t ∈ c.tasks) (alive : c.alive = true)
    (o : Outcome ε α) : Staffed lossy (e.settle t o) := by
  intro keeps _ i l previous hp
  rcases (ending.settle o).staffed i l previous hp with ⟨previous', before⟩ | task
  · rw [ending.entry] at before
    obtain ⟨u, hu, rfl, rfl⟩ := h keeps alive i l previous' before
    refine ⟨u, ?_, rfl, rfl⟩
    rw [settle_tasks ending.coherent, ending.tasks, mem_removeTask]
    refine ⟨hu, fun same => ?_⟩
    have this : u = t := List.inj_on_of_nodup_map hc.distinct hu listed same
    subst this
    rw [← ending.entry] at before
    rw [settle_phase (owns_of_computing before)] at hp
    cases hp
  · exact task

theorem Staffed.pace (h : Staffed lossy c) (pace : Pace c d) : Staffed lossy d := by
  cases pace with
  | read course => exact (course fun _ => True).staffed_of h
  | arm k time eq => exact eq ▸ h
  | install k value past course held =>
      exact course.staffed_of (c := c.note (.installed k value)) h
  | expire w kind past course renewed => exact course.staffed_of (c := c.note w) h

theorem Staffed.stride (hc : Coherent c []) (h : Staffed lossy c) (stride : Stride lossy c d) :
    Staffed lossy d := by
  cases stride with
  | pace pace => exact h.pace pace
  | close course =>
      intro _ alive
      rw [(course fun _ => True).alive] at alive
      cases alive
  | call t listed spared first eq => exact eq ▸ h
  | finish t listed called alive o report eq =>
      exact eq ▸ (hc.ending listed report).staffed hc h listed alive o
  | leave t listed why eq =>
      subst eq
      intro keeps alive i l previous hp
      obtain ⟨u, hu, rfl, rfl⟩ := h keeps alive i l previous hp
      refine ⟨u, (mem_removeTask c t.id u).2 ⟨hu, fun same => ?_⟩, rfl, rfl⟩
      have this : u = t := List.inj_on_of_nodup_map hc.distinct hu listed same
      subst this
      rcases why with stopped | dead | loses
      · have spared := hc.running alive u.entry u.launch previous hp
        exact spared (by simpa [isAborted] using stopped)
      · rw [show c.alive = true from alive] at dead
        cases dead
      · exact keeps loses

/-- Two tasks of one key that were not told to stop are the same. -/
theorem Coherent.eq_of_live {loose : List (EntryId κ)} (h : Coherent c loose) {t u : Task κ}
    (ht : t ∈ c.tasks) (hu : u ∈ c.tasks) (spared : c.isAborted t = false)
    (spared' : c.isAborted u = false) (same : t.id.key = u.id.key) : t = u := by
  obtain ⟨previous, hp⟩ := h.live t ht spared
  obtain ⟨previous', hp'⟩ := h.live u hu spared'
  have key : t.entry.key = u.entry.key := by
    rw [← (h.named t ht).1, ← (h.named u hu).1, same]
  have entry := (h.holds_of_computing hp).unique (h.holds_of_computing hp') key
  rw [entry, hp'] at hp
  exact h.unshared t ht u hu entry (Phase.computing.inj hp).1.symm

/-- A task that its entry does not compute was told to stop. -/
theorem Coherent.aborted_of_not_computing {loose : List (EntryId κ)} (h : Coherent c loose)
    {t : Task κ} (listed : t ∈ c.tasks)
    (idle : ∀ previous, (c.entry t.entry).phase ≠ .computing t.launch previous) :
    c.isAborted t = true := by
  by_contra spared
  obtain ⟨previous, hp⟩ := h.live t listed (by simpa using spared)
  exact idle previous hp

/-- Nothing is computed for a key whose outcome is current. -/
theorem Coherent.aborted_of_settled {loose : List (EntryId κ)} (h : Coherent c loose) {t : Task κ}
    {i : EntryId κ} (held : c.Holds i)
    {o : Outcome ε α} (settled : (c.entry i).phase = .settled o) (listed : t ∈ c.tasks)
    (key : t.entry.key = i.key) : c.isAborted t = true := by
  refine h.aborted_of_not_computing listed fun previous hp => ?_
  have same := (h.holds_of_computing hp).unique held key
  rw [same, settled] at hp
  cases hp

/-- A list without repetitions whose members are all the same is short. -/
theorem length_le_one {β : Type} {l : List β} (nodup : l.Nodup) (same : ∀ x ∈ l, ∀ y ∈ l, x = y) :
    l.length ≤ 1 := by
  match l with
  | [] => exact Nat.zero_le 1
  | [_] => exact Nat.le_refl 1
  | x :: y :: rest =>
      have here := same x (by simp) y (by simp)
      rw [here] at nodup
      simp at nodup

end Cache

namespace TimedCache

open Cache (Staffed)

variable {κ ε α : Type} [DecidableEq κ] {t : TimedCache κ ε α} {lossy : Prop}
  {settings : Settings} {ttl : Option Nat}

theorem Paces.staffed {c d : Cache κ ε α} (paces : Paces c d) (h : Staffed lossy c) :
    Staffed lossy d := by
  induction paces with
  | refl => exact h
  | tail _ last ih => exact ih.pace last

theorem Reached.staffed (h : Reached lossy settings ttl t) : Staffed lossy t.cache := by
  refine h.invariant ?_ fun hc kept stride => kept.stride hc stride
  intro _ _ i l previous hp
  cases hp

/-- Computations are shared, and none is lost. -/
theorem computations_coalesced (h : Reached lossy settings ttl t) :
    (∀ k, (t.cache.tasks.filter fun u => u.id.key = k ∧ t.cache.isAborted u = false).length ≤ 1) ∧
    (∀ i, ((t.cache.entry i).launches.map (·.generation)).Nodup) ∧
    (¬ lossy → t.cache.alive = true →
      (∀ i l previous, (t.cache.entry i).phase = .computing l previous →
        t.cache.current? i.key = some i ∧ l.generation = (t.cache.entry i).generation ∧
        ∃ u ∈ t.cache.tasks, u.entry = i ∧ u.launch = l ∧ t.cache.isAborted u = false ∧
          ∀ v ∈ t.cache.tasks, v.id.key = i.key → t.cache.isAborted v = false → v = u) ∧
      (∀ u ∈ t.cache.tasks, t.cache.isAborted u = false →
        ∃ previous, (t.cache.entry u.entry).phase = .computing u.launch previous)) ∧
    (∀ u ∈ t.cache.tasks, t.cache.isAborted u = false → ∀ o report,
      let ended := (t.cache.withdraw u report).settle u o
      (ended.entry u.entry).phase = .settled o ∧ ended.current? u.id.key = some u.entry) := by
  have coherent := h.coherent
  have staffed := h.staffed
  refine ⟨?_, coherent.nodup_generations, fun keeps alive => ⟨?_, coherent.live⟩, ?_⟩
  · intro k
    apply Cache.length_le_one
    · exact (List.Nodup.of_map _ coherent.distinct).filter _
    · intro u hu v hv
      simp only [List.mem_filter, decide_eq_true_eq] at hu hv
      exact coherent.eq_of_live hu.1 hv.1 hu.2.2 hv.2.2 (hu.2.1.trans hv.2.1.symm)
  · intro i l previous hp
    obtain ⟨u, hu, rfl, rfl⟩ := staffed keeps alive i l previous hp
    have spared : t.cache.isAborted u = false := by
      have running := coherent.running alive u.entry u.launch previous hp
      simpa [Cache.isAborted] using running
    refine ⟨coherent.holds_of_computing hp, ((coherent.sound _).newest _ _ hp).2, u, hu, rfl, rfl,
      spared, ?_⟩
    intro v hv key spared'
    exact coherent.eq_of_live hv hu spared' spared (key.trans (coherent.named u hu).1.symm)
  · intro u hu spared o report
    obtain ⟨previous, hp⟩ := coherent.live u hu spared
    have ending := coherent.ending hu report
    have held := coherent.holds_of_computing hp
    rw [← ending.entry] at hp
    have owned := Cache.owns_of_computing hp
    refine ⟨Cache.settle_phase owned o, ?_⟩
    rw [Cache.settle_of_owns owned o, (coherent.named u hu).1]
    rw [Cache.record_current?, Cache.put_current?, Cache.note_current?]
    unfold Cache.current?
    rw [ending.table]
    exact held

/-- A key is asked for, set while it is computed, and expires: it has a stopped task and one that
is live. -/
theorem computations_coalesced_relaunched :
    let t : TimedCache Nat Nat Nat := (((opened {} none).observe (.reader "r") 0).set 0 5).expire 0
    t.cache.tasks.length = 2 ∧
      (t.cache.entry ⟨0, 0⟩).phase = .computing ⟨1, 2⟩ (some (.success 5)) ∧
      ∃ u ∈ t.cache.tasks, u.entry = ⟨0, 0⟩ ∧ u.launch = ⟨1, 2⟩ ∧ t.cache.isAborted u = false ∧
        ∀ v ∈ t.cache.tasks, v.id.key = 0 → t.cache.isAborted v = false → v = u := by
  intro t
  have first : Reached False {} none ((opened {} none : TimedCache Nat Nat Nat).observe
    (.reader "r") 0) := .single (.deed (.observe (.reader "r") 0))
  have reached : Reached False {} none t := (first.tail (.deed (.set 0 5))).tail (.deed (.expire 0))
  have phase : (t.cache.entry ⟨0, 0⟩).phase = .computing ⟨1, 2⟩ (some (.success 5)) := by decide
  have coalesced := computations_coalesced reached
  exact ⟨by decide, phase, (coalesced.2.2.1 id rfl).1 ⟨0, 0⟩ _ _ phase |>.2.2⟩

end TimedCache

end LiveCache
