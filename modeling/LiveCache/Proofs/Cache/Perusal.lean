import LiveCache.Proofs.Cache.Evolution

/-! # What reading leaves alone

Reading publishes no view. A subscription that is there afterwards was there before, or has seen
nothing yet, or has seen the latest view of its entry.
-/

namespace LiveCache

namespace Entry

variable {ε α : Type} {e : Entry ε α} {made : Entry ε α × Option Launch}

theorem subscribe?_channel (asked : e.subscribe? = some made) :
    made.1.channel = e.channel := by
  unfold subscribe? at asked
  split at asked
  next => cases asked
  next =>
    rw [← Option.some.inj asked]
    exact demand_channel _

theorem snapshot?_channel (asked : e.snapshot? = some made) : made.1.channel = e.channel := by
  unfold snapshot? at asked
  split at asked
  next => cases asked
  next =>
    rw [← Option.some.inj asked]
    exact demand_channel e

theorem abandon_channel (e : Entry ε α) : e.abandon.1.channel = e.channel := by
  unfold abandon
  split
  next => split <;> [exact abort_channel e; rfl]
  next => rfl

theorem retire_channel (e : Entry ε α) : e.retire.1.channel = e.channel := by
  unfold retire
  split <;> rfl

end Entry

namespace Cache

variable {κ ε α : Type} [DecidableEq κ]

/-- What becomes of a cache that is only read. -/
structure Perusal (c d : Cache κ ε α) : Prop where
  channel : ∀ i, (d.entry i).channel = (c.entry i).channel
  observers : ∀ x s, d.observers.find? x = some s → c.observers.find? x = some s ∨
    s.seen = none ∨ s.seen = some (d.entry s.entry).channel.version

variable {c d e : Cache κ ε α}

theorem perusal_of_same (entry : d.entry = c.entry) (observers : d.observers = c.observers) :
    Perusal c d where
  channel := by
    rw [entry]
    exact fun _ => rfl
  observers := by
    rw [observers]
    exact fun _ _ found => .inl found

theorem Perusal.trans (h₁ : Perusal c d) (h₂ : Perusal d e) : Perusal c e where
  channel := fun i => (h₂.channel i).trans (h₁.channel i)
  observers := by
    intro x s found
    rcases h₂.observers x s found with mid | late
    · rcases h₁.observers x s mid with old | fresh | latest
      · exact .inl old
      · exact .inr (.inl fresh)
      · rw [h₂.channel]
        exact .inr (.inr latest)
    · exact .inr late

/-- An entry that publishes nothing. -/
theorem perusal_put {i : EntryId κ} {e : Entry ε α} (channel : e.channel = (c.entry i).channel) :
    Perusal c (c.put i e) where
  channel := by
    intro j
    by_cases same : i = j
    · rw [← same, entry_put_self, channel]
    · rw [entry_put_of_ne c e same]
  observers := fun _ _ found => .inl found

/-- A subscription is given to a holder. -/
theorem perusal_insert {s : Subscription κ} (x : Holder κ)
    (seen : s.seen = none ∨ s.seen = some (c.entry s.entry).channel.version) :
    Perusal c { c with observers := c.observers.insert x s } where
  channel := fun _ => rfl
  observers := by
    intro y s' found
    dsimp only at found
    rw [Registry.find?_insert] at found
    split at found
    next =>
      cases found
      exact .inr seen
    next => exact .inl found

/-! ## The end of a subscription -/

theorem perusal_reclaim (c : Cache κ ε α) (i : EntryId κ) : Perusal c (c.reclaim i) := by
  have retired : Perusal c (c.put i (c.entry i).retire.1) := perusal_put (Entry.retire_channel _)
  unfold reclaim
  split
  next =>
    dsimp only
    split
    next =>
      refine retired.trans (perusal_of_same ?_ ?_)
      · rw [record_entry, note_entry]
        rfl
      · rw [record_observers]
        rfl
    next => exact perusal_of_same rfl rfl
  next => exact perusal_of_same rfl rfl

theorem perusal_unobserved (c : Cache κ ε α) (i : EntryId κ) : Perusal c (c.unobserved i) := by
  have given : Perusal c (c.put i (c.entry i).abandon.1) :=
    perusal_put (Entry.abandon_channel _)
  unfold unobserved
  split
  next =>
    dsimp only
    split
    next => exact given.trans (perusal_reclaim _ i)
    next n _ =>
      exact (given.trans (perusal_of_same (record_entry _ _ _) (record_observers _ _ _))).trans
        (perusal_reclaim _ i)
  next => exact perusal_of_same rfl rfl

theorem perusal_unsubscribe (c : Cache κ ε α) (i : EntryId κ) : Perusal c (c.unsubscribe i) := by
  have left : Perusal c (c.put i (c.entry i).unsubscribe) := perusal_put rfl
  unfold unsubscribe
  dsimp only
  split
  next => exact left.trans (perusal_unobserved _ i)
  next => exact left

theorem perusal_hold {s : Subscription κ} (x : Holder κ)
    (seen : s.seen = none ∨ s.seen = some (c.entry s.entry).channel.version) :
    Perusal c (c.hold x s) := by
  have given := perusal_insert x seen
  unfold hold
  dsimp only
  split
  next => exact given
  next old _ => exact given.trans (perusal_unsubscribe _ old.entry)

theorem perusal_release (c : Cache κ ε α) (x : Holder κ) : Perusal c (c.release x) := by
  unfold release
  split
  next => exact perusal_of_same rfl rfl
  next s _ =>
    have taken : Perusal c { c with observers := c.observers.erase x } := by
      refine ⟨fun _ => rfl, fun y s' found => .inl ?_⟩
      dsimp only at found
      rw [Registry.find?_erase] at found
      split at found
      next => cases found
      next => exact found
    exact taken.trans (perusal_unsubscribe _ s.entry)

/-! ## Reading -/

theorem perusal_locate (c : Cache κ ε α) (k : κ) : Perusal c (c.locate k).1 := by
  refine perusal_of_same (locate_entry c k) ?_
  unfold locate
  split <;> rfl

theorem perusal_subscribe (c : Cache κ ε α) (k : κ) : Perusal c (c.subscribe k).1 := by
  have found := perusal_locate c k
  unfold subscribe
  dsimp only
  generalize (c.locate k).2 = i
  generalize (c.locate k).1 = d at found ⊢
  cases asked : (d.entry i).subscribe? with
  | none => exact found
  | some made =>
      have put := perusal_put (c := d) (i := i) (Entry.subscribe?_channel asked)
      exact (found.trans put).trans
        (perusal_of_same (spawn?_entry _ _ _) (spawn?_observers _ _ _))

theorem subscribe_seen (c : Cache κ ε α) (k : κ) : (c.subscribe k).2.seen = none := by
  unfold subscribe
  dsimp only
  split <;> rfl

theorem perusal_observe (c : Cache κ ε α) (x : Holder κ) (k : κ) :
    Perusal c (c.observe x k) :=
  (perusal_subscribe c k).trans (perusal_hold x (.inl (subscribe_seen c k)))

theorem perusal_glance (c : Cache κ ε α) (k : κ) : Perusal c (c.glance k) :=
  (perusal_subscribe c k).trans (perusal_unsubscribe _ _)

theorem perusal_snapshot (c : Cache κ ε α) (k : κ) : Perusal c (c.snapshot k).1 := by
  have found := perusal_locate c k
  unfold snapshot
  dsimp only
  generalize (c.locate k).2 = i
  generalize (c.locate k).1 = d at found ⊢
  cases asked : (d.entry i).snapshot? with
  | none => exact found
  | some made =>
      have put := perusal_put (c := d) (i := i) (Entry.snapshot?_channel asked)
      have handed := put.trans
        (perusal_of_same (spawn?_entry (d.put i made.1) i made.2) (spawn?_observers _ _ _))
      exact (found.trans handed).trans (perusal_of_same rfl rfl)

theorem perusal_poll (c : Cache κ ε α) (x : Holder κ) : Perusal c (c.poll x).1 := by
  unfold poll
  split
  next => exact perusal_of_same rfl rfl
  next s _ =>
    dsimp only
    split
    next => exact perusal_of_same rfl rfl
    next v _ =>
      have marked := perusal_insert (c := c)
        (s := { s with seen := some (c.entry s.entry).channel.version }) x (.inr rfl)
      exact marked.trans (perusal_of_same rfl rfl)

theorem perusal_await (c : Cache κ ε α) (x : Option (Holder κ)) (k : κ) :
    Perusal c (c.await x k).1 := by
  have made := perusal_subscribe c k
  unfold await
  dsimp only
  let shown := (c.subscribe k).1.note (.delivered (c.subscribe k).2.entry
    ((c.subscribe k).1.entry (c.subscribe k).2.entry).channel.latest)
  have noted : Perusal (c.subscribe k).1 shown := perusal_of_same rfl rfl
  split
  next x _ =>
    let held : Subscription κ := { (c.subscribe k).2 with
      seen := some ((c.subscribe k).1.entry (c.subscribe k).2.entry).channel.version }
    have given : Perusal shown (shown.hold x held) := perusal_hold (s := held) x (.inr rfl)
    exact (made.trans noted).trans given
  next => exact (made.trans noted).trans (perusal_unsubscribe _ _)

end Cache

end LiveCache
