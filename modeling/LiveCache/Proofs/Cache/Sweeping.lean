import LiveCache.Proofs.Cache.Reading

/-! # What a sweep removes

A sweep walks over the table and removes the entries that nobody observes and nothing is computed
for. The walk removes each of them by itself, so what it leaves does not depend on the order of the
table, and a second sweep finds nothing to remove.
-/

namespace LiveCache.Cache

variable {κ ε α : Type} [DecidableEq κ] {c d : Cache κ ε α} {loose : List (EntryId κ)}

/-- Nobody observes the entry and nothing is computed for it. -/
def Idle (c : Cache κ ε α) (i : EntryId κ) : Prop :=
  (c.entry i).subscribers = 0 ∧ (c.entry i).phase.isComputing = false

instance (c : Cache κ ε α) : DecidablePred c.Idle := fun _ => inferInstanceAs (Decidable (_ ∧ _))

theorem Coherent.retirable_iff (h : Coherent c loose) {i : EntryId κ} (held : c.Holds i) :
    (c.entry i).retirable = true ↔ c.Idle i := by
  rw [Entry.retirable_iff]
  exact ⟨fun may => may.2, fun idle => ⟨(h.present i held).1, idle⟩⟩

theorem ids_of_erase {k : κ} (table : d.table = c.table.erase k) :
    d.ids = c.ids.filter fun i => i.key ≠ k := by
  unfold ids
  rw [table, List.filter_map]
  rfl

/-- Of the entries in the list, those that are idle were removed, and nothing else was changed. -/
structure Pruned (l : List (EntryId κ)) (c d : Cache κ ε α) : Prop where
  ids : d.ids = c.ids.filter fun i => i ∉ l ∨ ¬ c.Idle i
  entry : ∀ i, i ∉ l ∨ ¬ c.Holds i ∨ ¬ c.Idle i → d.entry i = c.entry i
  observers : d.observers = c.observers
  tasks : d.tasks = c.tasks
  settings : d.settings = c.settings

theorem Pruned.refl (c : Cache κ ε α) : Pruned [] c c where
  ids := by simp
  entry := fun _ _ => rfl
  observers := rfl
  tasks := rfl
  settings := rfl

theorem Pruned.trans {l l' : List (EntryId κ)} {e : Cache κ ε α} (h₁ : Pruned l c d)
    (h₂ : Pruned l' d e) : Pruned (l ++ l') c e where
  ids := by
    rw [h₂.ids, h₁.ids, List.filter_filter]
    refine List.filter_congr fun i held => ?_
    rw [mem_ids_iff] at held
    have same : i ∉ l ∨ ¬ c.Idle i → (d.Idle i ↔ c.Idle i) := by
      intro spared
      unfold Idle
      rw [h₁.entry i (spared.imp_right .inr)]
    rw [← Bool.decide_and, decide_eq_decide, List.mem_append]
    tauto
  entry := by
    intro i other
    rw [List.mem_append] at other
    have first : d.entry i = c.entry i := h₁.entry i (by tauto)
    rw [h₂.entry i, first]
    have held : d.Holds i → c.Holds i := by
      rw [← mem_ids_iff, ← mem_ids_iff, h₁.ids]
      exact fun mem => (List.mem_filter.1 mem).1
    unfold Idle at other ⊢
    rw [first]
    tauto
  observers := h₂.observers.trans h₁.observers
  tasks := h₂.tasks.trans h₁.tasks
  settings := h₂.settings.trans h₁.settings

theorem Coherent.pruned_reclaim (h : Coherent c loose) (i : EntryId κ) :
    Pruned [i] c (c.reclaim i) := by
  by_cases may : c.Holds i ∧ c.Idle i
  · obtain ⟨held, idle⟩ := may
    rw [reclaim_of_retirable held ((h.retirable_iff held).2 idle)]
    refine ⟨?_, fun j other => ?_, ?_, ?_, ?_⟩
    · refine (ids_of_erase (c := c) (by rw [record_table, note_table]; rfl)).trans ?_
      refine List.filter_congr fun j listed => ?_
      rw [mem_ids_iff] at listed
      have same : j.key = i.key ↔ j = i := ⟨listed.unique held, fun eq => eq ▸ rfl⟩
      rw [decide_eq_decide, List.mem_singleton, ne_eq, same]
      exact ⟨.inl, fun other => other.elim id fun busy eq => busy (eq ▸ idle)⟩
    · have ne : j ≠ i := by
        rintro rfl
        simp [held, idle] at other
      rw [record_entry, note_entry, dismiss_entry_of_ne _ ne]
    · rw [record_observers]
      rfl
    · rw [record_tasks]
      rfl
    · rw [record_settings]
      rfl
  · rw [reclaim_of_not_retirable]
    · refine ⟨?_, fun _ _ => rfl, rfl, rfl, rfl⟩
      refine (List.filter_eq_self.2 fun j listed => ?_).symm
      rw [mem_ids_iff] at listed
      simp only [List.mem_singleton, decide_eq_true_eq]
      by_contra gone
      push Not at gone
      exact may ⟨gone.1 ▸ listed, gone.1 ▸ gone.2⟩
    · intro held
      rw [← Bool.not_eq_true, h.retirable_iff held]
      exact fun idle => may ⟨held, idle⟩

theorem Coherent.pruned_foldl_reclaim (l : List (EntryId κ)) :
    ∀ {c : Cache κ ε α}, Coherent c loose → c.settings.retention ≠ .forever →
      Pruned l c (l.foldl Cache.reclaim c) := by
  induction l with
  | nil => exact fun _ _ => .refl _
  | cons i rest ih =>
      intro c h forgets
      have first := h.pruned_reclaim i
      have course : Course (fun _ => True) c (c.reclaim i) loose := h.reclaim forgets i
      exact first.trans (ih course.coherent (first.settings ▸ forgets))

theorem Coherent.pruned_sweep (h : Coherent c loose) (forgets : c.settings.retention ≠ .forever) :
    Pruned c.ids c c.sweep.1 := by
  unfold Cache.sweep
  rw [if_neg forgets]
  exact h.pruned_foldl_reclaim c.ids forgets

/-! ## Whole sweeps -/

variable {i : EntryId κ}

theorem Pruned.holds_iff (swept : Pruned c.ids c d) : d.Holds i ↔ c.Holds i ∧ ¬ c.Idle i := by
  rw [← mem_ids_iff, ← mem_ids_iff, swept.ids, List.mem_filter, decide_eq_true_eq]
  tauto

theorem Pruned.entry_of_holds (swept : Pruned c.ids c d) (left : d.Holds i) :
    d.entry i = c.entry i :=
  swept.entry i (.inr (.inr (swept.holds_iff.1 left).2))

theorem Pruned.len (swept : Pruned c.ids c d) :
    c.len - d.len = (c.ids.filter fun i => c.Idle i).length := by
  have len : ∀ c : Cache κ ε α, c.len = c.ids.length := fun c => (List.length_map _).symm
  have left : d.ids = c.ids.filter fun i => ¬ c.Idle i := by
    rw [swept.ids]
    refine List.filter_congr fun i listed => ?_
    simp [listed]
  have split := List.length_eq_length_filter_add (l := c.ids) fun i => decide (c.Idle i)
  rw [len, len, left]
  simp only [decide_not] at split ⊢
  omega

/-- A sweep tells how many entries it has removed. -/
theorem Coherent.sweep_count (h : Coherent c loose) (forgets : c.settings.retention ≠ .forever) :
    c.sweep.2 = (c.ids.filter fun i => c.Idle i).length := by
  rw [← (h.pruned_sweep forgets).len]
  unfold Cache.sweep
  rw [if_neg forgets]

theorem foldl_reclaim_of_busy (h : Coherent c loose) {l : List (EntryId κ)}
    (busy : ∀ i ∈ l, c.Holds i → ¬ c.Idle i) : l.foldl reclaim c = c := by
  induction l with
  | nil => rfl
  | cons i rest ih =>
      have stays : c.reclaim i = c := by
        refine reclaim_of_not_retirable fun held => ?_
        rw [← Bool.not_eq_true, h.retirable_iff held]
        exact busy i List.mem_cons_self held
      rw [List.foldl_cons, stays, ih fun j hj => busy j (List.mem_cons_of_mem _ hj)]

/-- A sweep leaves nothing to sweep. -/
theorem Coherent.sweep_sweep (h : Coherent c loose) : c.sweep.1.sweep = (c.sweep.1, 0) := by
  by_cases forgets : c.settings.retention = .forever
  · unfold Cache.sweep
    simp [forgets]
  · have swept := h.pruned_sweep forgets
    have course : Course (fun _ => True) c c.sweep.1 loose := h.sweep
    have rest : c.sweep.1.ids.foldl Cache.reclaim c.sweep.1 = c.sweep.1 := by
      refine foldl_reclaim_of_busy course.coherent fun i _ left => ?_
      unfold Idle
      rw [swept.entry_of_holds left]
      exact (swept.holds_iff.1 left).2
    rw [Cache.sweep, if_neg (swept.settings ▸ forgets), rest]
    exact Prod.ext rfl (Nat.sub_self _)

end LiveCache.Cache
