import LiveCache.Proofs.Cache.Perusal

/-! # Who holds the subscriptions

Only the operations of a holder change what that holder holds. Ending a subscription counts it off
its entry and looks at no holder, and writes and results leave all subscriptions where they are.
-/

namespace LiveCache

namespace Cache

variable {κ ε α : Type} [DecidableEq κ] (c : Cache κ ε α) (i : EntryId κ)

/-! ## What leaves all holders alone -/

@[simp] theorem locate_observers (k : κ) : (c.locate k).1.observers = c.observers := by
  unfold locate
  split <;> rfl

@[simp] theorem reclaim_observers : (c.reclaim i).observers = c.observers := by
  unfold reclaim
  split
  next =>
    dsimp only
    split <;> simp
  next => rfl

@[simp] theorem unobserved_observers : (c.unobserved i).observers = c.observers := by
  unfold unobserved
  split
  next =>
    dsimp only
    rw [reclaim_observers]
    split <;> simp
  next => rfl

@[simp] theorem unsubscribe_observers : (c.unsubscribe i).observers = c.observers := by
  unfold unsubscribe
  dsimp only
  split <;> simp

@[simp] theorem subscribe_observers (k : κ) : (c.subscribe k).1.observers = c.observers := by
  unfold subscribe
  dsimp only
  split <;> simp

@[simp] theorem glance_observers (k : κ) : (c.glance k).observers = c.observers := by
  simp [glance]

@[simp] theorem snapshot_observers (k : κ) : (c.snapshot k).1.observers = c.observers := by
  unfold snapshot
  dsimp only
  split <;> simp

omit [DecidableEq κ] in
theorem foldl_observers {β : Type} {f : Cache κ ε α → β → Cache κ ε α}
    (step : ∀ c x, (f c x).observers = c.observers) (l : List β) :
    (l.foldl f c).observers = c.observers := by
  induction l generalizing c with
  | nil => rfl
  | cons x rest ih => rw [List.foldl_cons, ih, step]

@[simp] theorem sweep_observers : c.sweep.1.observers = c.observers := by
  unfold sweep
  split
  next => rfl
  next => exact foldl_observers c reclaim_observers c.ids

omit [DecidableEq κ] in
@[simp] theorem recordTransition_observers (a : Activity) (t : Transition) :
    (c.recordTransition a t).observers = c.observers := by
  unfold recordTransition
  split <;> simp

@[simp] theorem set_observers (k : κ) (value : α) : (c.set k value).observers = c.observers := by
  unfold set
  dsimp only
  split <;> simp

@[simp] theorem expireEntry_observers : (c.expireEntry i).observers = c.observers := by
  unfold expireEntry
  split <;> simp

@[simp] theorem expire_observers (k : κ) : (c.expire k).observers = c.observers := by
  unfold expire
  dsimp only
  split <;> simp

@[simp] theorem expireAll_observers : c.expireAll.observers = c.observers := by
  unfold expireAll
  rw [foldl_observers _ expireEntry_observers]
  simp

@[simp] theorem settle_observers (t : Task κ) (o : Outcome ε α) :
    (c.settle t o).observers = c.observers := by
  unfold settle
  dsimp only
  split <;> simp

@[simp] theorem close_observers : c.close.observers = c.observers :=
  foldl_observers c (f := fun c i => c.put i (c.entry i).abort) (fun _ _ => rfl) c.ids

/-! ## What a holder does -/

variable (x y : Holder κ)

theorem hold_observers (s : Subscription κ) :
    (c.hold x s).observers = c.observers.insert x s := by
  unfold hold
  dsimp only
  split <;> simp

theorem find?_release :
    (c.release x).observers.find? y = if x = y then none else c.observers.find? y := by
  unfold release
  cases found : c.observers.find? x with
  | none =>
      by_cases same : x = y
      · rw [if_pos same, ← same, found]
      · rw [if_neg same]
  | some s => rw [unsubscribe_observers, Registry.find?_erase]

/-- A holder who polls goes on holding what it held. -/
theorem isSome_find?_poll :
    ((c.poll x).1.observers.find? y).isSome = (c.observers.find? y).isSome := by
  unfold poll
  cases found : c.observers.find? x with
  | none => rfl
  | some s =>
      dsimp only
      split
      next => rfl
      next v _ =>
        rw [note_observers, Registry.find?_insert]
        split
        next same => rw [← same, found]; rfl
        next => rfl

theorem find?_poll_of_ne (other : x ≠ y) :
    (c.poll x).1.observers.find? y = c.observers.find? y := by
  unfold poll
  split
  next => rfl
  next =>
    dsimp only
    split
    next => rfl
    next => rw [note_observers, Registry.find?_insert_of_ne _ _ _ _ other]

/-- A wait that is answered holds nothing, and one that is not is held by its holder. -/
theorem await_observers (k : κ) : (c.await (some x) k).1.observers =
    match (c.await (some x) k).2 with
    | none => c.observers.insert x { (c.subscribe k).2 with
        seen := some ((c.subscribe k).1.entry (c.subscribe k).2.entry).channel.version }
    | some _ => c.observers := by
  unfold await
  dsimp only
  cases ((c.subscribe k).1.entry (c.subscribe k).2.entry).channel.latest.settled? with
  | none =>
      dsimp only
      rw [hold_observers, note_observers, subscribe_observers]
  | some o => simp

theorem await_none_observers (k : κ) : (c.await none k).1.observers = c.observers := by
  unfold await
  dsimp only
  cases ((c.subscribe k).1.entry (c.subscribe k).2.entry).channel.latest.settled? <;> simp

end Cache

end LiveCache
