import LiveCache.Proofs.Cache.Course

/-! # Reading and letting go

Every operation that only reads, waits, or ends a subscription runs a `Course` that spares all keys.
-/

namespace LiveCache

theorem Entry.shift_retired {ε α : Type} (e : Entry ε α) :
    Entry.Shift e { e with retired := true } none where
  launches := rfl
  generation := Nat.le_refl _
  aborted := List.Subset.refl _
  begun := by simp
  kept := fun _ _ _ hp => ⟨hp, id⟩
  ended := fun _ _ hp => .inl hp

namespace Cache

variable {κ ε α : Type} [DecidableEq κ]

open Entry (Sound Change Shift Unrepeated)

variable {c : Cache κ ε α} {loose : List (EntryId κ)} {spared : κ → Prop} {i : EntryId κ}

/-! ## Ending -/

theorem put_put (c : Cache κ ε α) (i : EntryId κ) (e e' : Entry ε α) :
    (c.put i e).put i e' = c.put i e' := by
  simp [put]

theorem put_record (c : Cache κ ε α) (i : EntryId κ) (e : Entry ε α) (a : Activity) (n : Nat) :
    (c.put i e).record a n = (c.record a n).put i e := by
  unfold record
  split
  next h => rw [if_pos (show c.settings.logs = true from h)]; rfl
  next h => rw [if_neg (show ¬ c.settings.logs = true from h)]

theorem reclaim_of_retirable (held : c.Holds i) (may : (c.entry i).retirable = true) :
    c.reclaim i = ((c.dismiss i { c.entry i with retired := true }).note (.removed i)).record
      .reclaimed (c.entry i).generation := by
  unfold reclaim
  rw [if_pos (show c.current? i.key = some i from held)]
  simp [Entry.retire, may, dismiss]

theorem reclaim_of_not_retirable (may : c.Holds i → (c.entry i).retirable = false) :
    c.reclaim i = c := by
  unfold reclaim
  split
  next held => simp [Entry.retire, may held]
  next => rfl

theorem Coherent.reclaim (h : Coherent c loose) (forgets : c.settings.retention ≠ .forever)
    (i : EntryId κ) : Course spared c (c.reclaim i) loose := by
  by_cases may : c.Holds i ∧ (c.entry i).retirable = true
  · obtain ⟨held, may⟩ := may
    rw [reclaim_of_retirable held may]
    obtain ⟨-, unobserved, calm⟩ := (Entry.retirable_iff _).1 may
    exact (h.course_dismiss held ((h.sound i).retired unobserved calm) (Entry.shift_retired _) rfl
      rfl forgets).record _ _
  · rw [reclaim_of_not_retirable]
    · exact h.stay
    · intro held
      simpa using fun retirable => may ⟨held, retirable⟩

theorem Coherent.foldl_reclaim (l : List (EntryId κ)) :
    ∀ {c : Cache κ ε α}, Coherent c loose → c.settings.retention ≠ .forever →
      Course spared c (l.foldl Cache.reclaim c) loose := by
  induction l with
  | nil => exact fun h _ => h.stay
  | cons i rest ih =>
      intro c h forgets
      have first : Course spared c (c.reclaim i) loose := h.reclaim forgets i
      rw [← first.settings] at forgets
      exact first.trans (ih first.coherent forgets)

theorem Coherent.sweep (h : Coherent c loose) : Course spared c c.sweep.1 loose := by
  unfold Cache.sweep
  split
  next => exact h.stay
  next forgets => exact Coherent.foldl_reclaim _ h forgets

/-- The cache in which the computation of an entry was stopped because nobody observes it. -/
def forgo (c : Cache κ ε α) (i : EntryId κ) : Cache κ ε α :=
  match (c.entry i).abandon.2 with
  | none => c.put i (c.entry i).abandon.1
  | some generation => (c.put i (c.entry i).abandon.1).record .cancelled generation

theorem unobserved_of_forgetful (forgets : c.settings.retention = .whileObserved) :
    c.unobserved i = (c.forgo i).reclaim i := by
  unfold unobserved forgo
  refine (if_pos forgets).trans ?_
  generalize (c.entry i).abandon = abandoned
  obtain ⟨e, generation⟩ := abandoned
  cases generation <;> rfl

/-- When the last subscription ends the computation is stopped and the entry forgotten at once. -/
theorem unobserved_eq (held : c.Holds i) (forgets : c.settings.retention = .whileObserved)
    (none : (c.entry i).subscribers = 0) (present : (c.entry i).retired = false) :
    ∃ c', (c' = c ∨ ∃ n, c' = c.record .cancelled n) ∧
      c.unobserved i = ((c'.dismiss i { (c.entry i).abandoned with retired := true }).note
        (.removed i)).record .reclaimed (c.entry i).abandoned.generation := by
  have forgotten : ∀ c' : Cache κ ε α, c'.Holds i →
      (c'.put i (c.entry i).abandoned).reclaim i =
        ((c'.dismiss i { (c.entry i).abandoned with retired := true }).note
          (.removed i)).record .reclaimed (c.entry i).abandoned.generation := by
    intro c' held'
    have may : (c.entry i).abandoned.retirable = true := by
      simp [Entry.retirable_iff, none, present, Entry.abandoned_not_computing]
    rw [reclaim_of_retirable (c := c'.put i (c.entry i).abandoned) held' (by simpa using may)]
    simp only [entry_put_self, dismiss, put_put, put_table]
  unfold unobserved
  rw [if_pos forgets]
  dsimp only
  rw [Entry.abandon_eq none]
  cases (c.entry i).abandon.2 with
  | none => exact ⟨c, .inl rfl, forgotten c held⟩
  | some n =>
      refine ⟨c.record .cancelled n, .inr ⟨n, rfl⟩, ?_⟩
      dsimp only
      rw [put_record]
      exact forgotten _ (by rwa [holds_iff, record_table, ← holds_iff])

theorem Coherent.unobserved (h : Coherent c loose) (held : c.Holds i)
    (none : (c.entry i).subscribers = 0) : Course spared c (c.unobserved i) loose := by
  by_cases forgets : c.settings.retention = .whileObserved
  · obtain ⟨c', step, eq⟩ := unobserved_eq held forgets none (h.present i held).1
    have first : Course spared c c' loose := by
      rcases step with rfl | ⟨n, rfl⟩
      · exact h.stay
      · exact h.stay.record _ n
    have same : c'.entry i = c.entry i := by
      rcases step with rfl | ⟨n, rfl⟩
      · rfl
      · simp
    have held' : c'.Holds i := by
      rcases step with rfl | ⟨n, rfl⟩
      · exact held
      · rwa [holds_iff, record_table, ← holds_iff]
    have sound := ((h.sound i).abandoned none).retired (by simpa using none)
      (Entry.abandoned_not_computing _)
    have shift := (Entry.shift_abandoned (c.entry i)).trans (Entry.shift_retired _)
    rw [eq]
    refine (first.trans (first.coherent.course_dismiss held' ?_ ?_ rfl ?_ ?_)).record _ _
    · rwa [first.settings]
    · rwa [same]
    · simp [same]
    · rw [first.settings, forgets]
      decide
  · unfold Cache.unobserved
    rw [if_neg forgets]
    exact h.stay

/-- A loose subscription ends. -/
theorem Coherent.unsubscribe (h : Coherent c (i :: loose)) :
    Course spared c (c.unsubscribe i) loose := by
  have held : c.Holds i := h.holds_of_observed (by rw [List.count_cons_self]; omega)
  have counted := h.counted i
  rw [List.count_cons_self] at counted
  have shift := (Shift.refl (c.entry i)).with_subscribers ((c.entry i).subscribers - 1)
  have unrepeated := (h.present i held).2.with_subscribers ((c.entry i).subscribers - 1)
  have coherent : Coherent (c.put i (c.entry i).unsubscribe) loose := by
    refine h.shift_put held (h.sound i).unsubscribe shift unrepeated
      (h.present i held).1 ?_ ?_
    · rw [Entry.unsubscribe_subscribers]
      omega
    · intro j other
      rw [List.count_cons_of_ne (Ne.symm other)]
  have first : Course spared c (c.put i (c.entry i).unsubscribe) loose :=
    h.course_put coherent shift.toChange unrepeated fun _ _ => Iff.rfl
  unfold Cache.unsubscribe
  dsimp only
  split
  next none => exact first.trans (coherent.unobserved held (by simpa using none))
  next => exact first

/-! ## Holders -/

/-- A subscription may take the place of another, which is loose then. -/
theorem Coherent.replaced {s old : Subscription κ} (h : Coherent c (s.entry :: loose))
    {x : Holder κ} (found : c.observers.find? x = some old) :
    Course spared c { c with observers := c.observers.insert x s } (old.entry :: loose) := by
  refine h.stay.recount _ fun i => ?_
  have count := Registry.count_insert_of_some found s fun s => s.entry = i
  rw [List.count_cons, List.count_cons, holders]
  simp only [decide_eq_true_eq, beq_iff_eq] at count ⊢
  omega

/-- A subscription that is taken from its holder is loose. -/
theorem Coherent.taken {s : Subscription κ} (h : Coherent c loose) {x : Holder κ}
    (found : c.observers.find? x = some s) :
    Course spared c { c with observers := c.observers.erase x } (s.entry :: loose) := by
  refine h.stay.recount _ fun i => ?_
  have count := Registry.count_erase_of_some found fun s => s.entry = i
  rw [List.count_cons, holders]
  simp only [decide_eq_true_eq, beq_iff_eq] at count ⊢
  omega

/-- A subscription that no holder has yet is given to one. -/
theorem Coherent.hold {s : Subscription κ} (h : Coherent c (s.entry :: loose)) (x : Holder κ) :
    Course spared c (c.hold x s) loose := by
  unfold Cache.hold
  cases found : c.observers.find? x with
  | none =>
      refine h.stay.recount _ fun i => ?_
      rw [Registry.count_insert_of_none found, List.count_cons, holders]
      simp only [decide_eq_true_eq, beq_iff_eq]
      omega
  | some old =>
      have given : Course spared c _ _ := h.replaced found
      exact given.trans given.coherent.unsubscribe

theorem Coherent.release (h : Coherent c loose) (x : Holder κ) :
    Course spared c (c.release x) loose := by
  unfold Cache.release
  cases found : c.observers.find? x with
  | none => exact h.stay
  | some s =>
      have taken : Course spared c _ _ := h.taken found
      exact taken.trans taken.coherent.unsubscribe

/-! ## Demand -/

/-- The entry of a key with the demand of one more reader. -/
theorem subscribe_eq (h : Coherent c loose) (k : κ) :
    c.subscribe k =
      let found := c.locate k
      let demanded := { found.1.entry found.2 with
        subscribers := (found.1.entry found.2).subscribers + 1 }.demand
      ((found.1.put found.2 demanded.1).spawn? found.2 demanded.2, ⟨found.2, none⟩) := by
  obtain ⟨coherent, held, -⟩ := h.locate k
  unfold subscribe
  dsimp only
  rw [Entry.subscribe?_eq (coherent.present _ held).1]

theorem snapshot_eq (h : Coherent c loose) (k : κ) :
    c.snapshot k =
      let found := c.locate k
      let demanded := (found.1.entry found.2).demand
      (((found.1.put found.2 demanded.1).spawn? found.2 demanded.2).note
        (.delivered found.2 demanded.1.latest), demanded.1.latest) := by
  obtain ⟨coherent, held, -⟩ := h.locate k
  unfold snapshot
  dsimp only
  rw [Entry.snapshot?_eq (coherent.present _ held).1]

theorem Coherent.subscribe (h : Coherent c loose) (k : κ) :
    Course spared c (c.subscribe k).1 ((c.subscribe k).2.entry :: loose) := by
  obtain ⟨coherent, held, -⟩ := h.locate k
  rw [subscribe_eq h k]
  have found : Course spared c (c.locate k).1 loose := h.course_locate k
  refine found.trans ?_
  dsimp only
  generalize (c.locate k).2 = i at held ⊢
  generalize (c.locate k).1 = d at coherent held ⊢
  obtain ⟨present, unrepeated⟩ := coherent.present i held
  have sound := coherent.sound i
  rw [Entry.demand_with_subscribers]
  have shift := (Entry.shift_demand sound).with_subscribers ((d.entry i).subscribers + 1)
  refine coherent.course_touch (coherent.shift held ?_ shift ?_ ?_ ?_ ?_) shift.toChange ?_ ?_
  · exact (sound.demand present).with_subscribers (by simpa using present)
      (Entry.demand_not_idle _) _
  · exact unrepeated.demand.with_subscribers _
  · simpa using present
  · have counted := coherent.counted i
    simp only [List.count_cons_self]
    omega
  · intro j other
    rw [List.count_cons_of_ne (Ne.symm other)]
  · exact unrepeated.demand.with_subscribers _
  · exact fun _ o => Entry.demand_settled_iff _ o

theorem Coherent.snapshot (h : Coherent c loose) (k : κ) :
    Course spared c (c.snapshot k).1 loose := by
  obtain ⟨coherent, held, -⟩ := h.locate k
  rw [snapshot_eq h k]
  have found : Course spared c (c.locate k).1 loose := h.course_locate k
  refine found.trans ?_
  dsimp only
  generalize (c.locate k).2 = i at held ⊢
  generalize (c.locate k).1 = d at coherent held ⊢
  obtain ⟨present, unrepeated⟩ := coherent.present i held
  have shift := Entry.shift_demand (coherent.sound i)
  have demanded : Course spared d ((d.put i (d.entry i).demand.1).spawn? i (d.entry i).demand.2)
      loose := by
    refine coherent.course_touch (coherent.shift held ?_ shift unrepeated.demand ?_ ?_ ?_)
      shift.toChange unrepeated.demand ?_
    · exact (coherent.sound i).demand present
    · simpa using present
    · simpa using coherent.counted i
    · exact fun _ _ => rfl
    · exact fun _ o => Entry.demand_settled_iff _ o
  have given := demanded.deliver ((touch_holds i).2 held)
  rwa [touch_entry_self] at given

theorem subscribe_held (h : Coherent c loose) (k : κ) :
    (c.subscribe k).1.Holds (c.subscribe k).2.entry ∧ (c.subscribe k).2.entry.key = k := by
  obtain ⟨-, held, key⟩ := h.locate k
  rw [subscribe_eq h k]
  exact ⟨(touch_holds _).2 held, key⟩

theorem Coherent.observe (h : Coherent c loose) (x : Holder κ) (k : κ) :
    Course spared c (c.observe x k) loose := by
  have made : Course spared c (c.subscribe k).1 _ := h.subscribe k
  exact made.trans (made.coherent.hold x)

theorem Coherent.glance (h : Coherent c loose) (k : κ) : Course spared c (c.glance k) loose := by
  have made : Course spared c (c.subscribe k).1 _ := h.subscribe k
  exact made.trans made.coherent.unsubscribe

/-! ## Views -/

theorem Coherent.poll (h : Coherent c loose) (x : Holder κ) :
    Course spared c (c.poll x).1 loose := by
  unfold Cache.poll
  cases found : c.observers.find? x with
  | none => exact h.stay
  | some s =>
      dsimp only
      cases unseen : (c.entry s.entry).channel.unseen s.seen with
      | none => exact h.stay
      | some v =>
          have latest : v = (c.entry s.entry).latest := (Channel.latest_of_unseen unseen).symm
          let seen : Subscription κ :=
            { s with seen := some (c.entry s.entry).channel.version }
          have marked : Course spared c { c with observers := c.observers.insert x seen }
              loose := by
            refine h.stay.recount _ fun i => ?_
            have count : (c.observers.insert x seen).count (fun s => s.entry = i) = c.holders i :=
              Nat.add_right_cancel
                (Registry.count_insert_of_some found seen fun s => s.entry = i)
            rw [count]
          dsimp only
          rw [latest]
          exact marked.deliver (h.holds_of_find? found)

theorem Coherent.await (h : Coherent c loose) (x : Option (Holder κ)) (k : κ) :
    Course spared c (c.await x k).1 loose := by
  have made : Course spared c (c.subscribe k).1 _ := h.subscribe k
  have shown := made.deliver (subscribe_held h k).1
  unfold Cache.await
  dsimp only
  split
  next x _ =>
    let held : Subscription κ := { (c.subscribe k).2 with
      seen := some ((c.subscribe k).1.entry (c.subscribe k).2.entry).channel.version }
    exact shown.trans (Coherent.hold (s := held) shown.coherent x)
  next => exact shown.trans shown.coherent.unsubscribe

end Cache

end LiveCache
