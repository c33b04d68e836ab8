import LiveCache.Cache.Observers

/-! # Caches that forget their timers

That a timer was started for a key is remembered and nothing else. A cache that forgets it does what
it would have done, and remembers the same of it.
-/

namespace LiveCache

variable {κ ε α : Type}

/-- A timer was started. -/
def Happening.isArming : Happening κ ε α → Bool
  | .armed _ _ => true
  | _ => false

namespace Cache

def unarmed (c : Cache κ ε α) : Cache κ ε α :=
  { c with history := c.history.filter fun x => !x.isArming }

variable (c : Cache κ ε α)

theorem unarmed_unarmed : c.unarmed.unarmed = c.unarmed := by simp [unarmed]

theorem note_unarmed {x : Happening κ ε α} (other : x.isArming = false) :
    c.unarmed.note x = (c.note x).unarmed := by
  simp [note, unarmed, other]

theorem record_unarmed (a : Activity) (n : Nat) :
    c.unarmed.record a n = (c.record a n).unarmed := by
  unfold record
  rw [show c.unarmed.settings = c.settings from rfl]
  split <;> rfl

theorem recordTransition_unarmed (a : Activity) (t : Transition) :
    c.unarmed.recordTransition a t = (c.recordTransition a t).unarmed := by
  unfold recordTransition
  rw [record_unarmed]
  dsimp only
  split
  next => exact record_unarmed _ _ _
  next => rfl

variable [DecidableEq κ]

/-! ## State -/

theorem entry_unarmed : c.unarmed.entry = c.entry := rfl

theorem put_unarmed (i : EntryId κ) (e : Entry ε α) : c.unarmed.put i e = (c.put i e).unarmed := rfl

theorem locate_unarmed (k : κ) : c.unarmed.locate k = ((c.locate k).1.unarmed, (c.locate k).2) := by
  unfold locate
  rw [show c.unarmed.current? k = c.current? k from rfl]
  split <;> rfl

theorem spawn_unarmed (i : EntryId κ) (l : Launch) :
    c.unarmed.spawn i l = (c.spawn i l).unarmed := by
  unfold spawn
  rw [record_unarmed]
  rfl

theorem spawn?_unarmed (i : EntryId κ) (launch : Option Launch) :
    c.unarmed.spawn? i launch = (c.spawn? i launch).unarmed := by
  cases launch with
  | none => rfl
  | some l => exact spawn_unarmed c i l

/-! ## Operations -/

theorem subscribe_unarmed (k : κ) :
    c.unarmed.subscribe k = ((c.subscribe k).1.unarmed, (c.subscribe k).2) := by
  unfold subscribe
  rw [locate_unarmed]
  dsimp only
  rw [entry_unarmed]
  cases ((c.locate k).1.entry (c.locate k).2).subscribe? with
  | none => rfl
  | some r =>
      dsimp only
      rw [put_unarmed, spawn?_unarmed]

theorem snapshot_unarmed (k : κ) :
    c.unarmed.snapshot k = ((c.snapshot k).1.unarmed, (c.snapshot k).2) := by
  unfold snapshot
  rw [locate_unarmed]
  dsimp only
  rw [entry_unarmed]
  cases ((c.locate k).1.entry (c.locate k).2).snapshot? with
  | none => rfl
  | some r =>
      dsimp only
      rw [put_unarmed, spawn?_unarmed, note_unarmed _ rfl]

theorem reclaim_unarmed (i : EntryId κ) : c.unarmed.reclaim i = (c.reclaim i).unarmed := by
  unfold reclaim
  rw [entry_unarmed, show c.unarmed.current? i.key = c.current? i.key from rfl]
  split
  next =>
    dsimp only
    split
    next =>
      rw [← record_unarmed, ← note_unarmed _ rfl]
      rfl
    next => rfl
  next => rfl

theorem unobserved_unarmed (i : EntryId κ) : c.unarmed.unobserved i = (c.unobserved i).unarmed := by
  unfold unobserved
  rw [entry_unarmed, show c.unarmed.settings = c.settings from rfl]
  split
  next =>
    dsimp only
    rw [put_unarmed]
    cases (c.entry i).abandon.2 with
    | none => exact reclaim_unarmed _ i
    | some generation =>
        dsimp only
        rw [record_unarmed, reclaim_unarmed]
  next => rfl

theorem unsubscribe_unarmed (i : EntryId κ) :
    c.unarmed.unsubscribe i = (c.unsubscribe i).unarmed := by
  unfold unsubscribe
  rw [entry_unarmed]
  dsimp only
  rw [put_unarmed]
  split
  next => exact unobserved_unarmed _ i
  next => rfl

theorem sweep_unarmed : c.unarmed.sweep = (c.sweep.1.unarmed, c.sweep.2) := by
  unfold sweep
  rw [show c.unarmed.settings = c.settings from rfl, show c.unarmed.ids = c.ids from rfl,
    List.foldl_hom unarmed fun c i => reclaim_unarmed c i]
  split <;> rfl

theorem set_unarmed (k : κ) (value : α) : c.unarmed.set k value = (c.set k value).unarmed := by
  unfold set
  rw [note_unarmed _ rfl, locate_unarmed]
  dsimp only
  rw [entry_unarmed, show c.unarmed.settings = c.settings from rfl]
  cases Entry.set? c.settings.stale (((c.note (.installed k value)).locate k).1.entry
    ((c.note (.installed k value)).locate k).2) value with
  | none => rfl
  | some r =>
      dsimp only
      rw [put_unarmed, recordTransition_unarmed]

theorem expireEntry_unarmed (i : EntryId κ) :
    c.unarmed.expireEntry i = (c.expireEntry i).unarmed := by
  unfold expireEntry
  rw [entry_unarmed, show c.unarmed.settings = c.settings from rfl]
  cases (c.entry i).expire? c.settings.stale with
  | none => rfl
  | some r =>
      dsimp only
      rw [put_unarmed, recordTransition_unarmed, spawn?_unarmed]

theorem expire_unarmed (k : κ) : c.unarmed.expire k = (c.expire k).unarmed := by
  unfold expire
  rw [note_unarmed _ rfl]
  dsimp only
  rw [show (c.note (.expired k)).unarmed.current? k = (c.note (.expired k)).current? k from rfl]
  cases (c.note (.expired k)).current? k with
  | none => rfl
  | some i => exact expireEntry_unarmed _ i

theorem expireAll_unarmed : c.unarmed.expireAll = c.expireAll.unarmed := by
  unfold expireAll
  rw [note_unarmed _ rfl, record_unarmed]
  exact List.foldl_hom unarmed fun c i => expireEntry_unarmed c i

theorem settle_unarmed (t : Task κ) (o : Outcome ε α) :
    c.unarmed.settle t o = (c.settle t o).unarmed := by
  unfold settle
  rw [entry_unarmed, note_unarmed _ rfl, show c.unarmed.settings = c.settings from rfl]
  dsimp only
  rw [put_unarmed]
  cases ((c.entry t.entry).settle c.settings.stale t.launch.generation o).2 with
  | accepted => exact record_unarmed _ _ _
  | discarded relaunch =>
      dsimp only
      rw [record_unarmed, spawn?_unarmed]

theorem close_unarmed : c.unarmed.close = c.close.unarmed := by
  unfold close
  rw [show c.unarmed.ids = c.ids from rfl, List.foldl_hom unarmed fun c i => by
    rw [entry_unarmed, put_unarmed]]
  rfl

/-! ## Observers -/

theorem hold_unarmed (h : Holder κ) (s : Subscription κ) :
    c.unarmed.hold h s = (c.hold h s).unarmed := by
  unfold hold
  rw [show c.unarmed.observers = c.observers from rfl]
  cases c.observers.find? h with
  | none => rfl
  | some old =>
      exact unsubscribe_unarmed { c with observers := c.observers.insert h s } old.entry

theorem observe_unarmed (h : Holder κ) (k : κ) :
    c.unarmed.observe h k = (c.observe h k).unarmed := by
  unfold observe
  rw [subscribe_unarmed]
  exact hold_unarmed _ _ _

theorem glance_unarmed (k : κ) : c.unarmed.glance k = (c.glance k).unarmed := by
  unfold glance
  rw [subscribe_unarmed]
  exact unsubscribe_unarmed _ _

theorem release_unarmed (h : Holder κ) : c.unarmed.release h = (c.release h).unarmed := by
  unfold release
  rw [show c.unarmed.observers = c.observers from rfl]
  cases c.observers.find? h with
  | none => rfl
  | some s => exact unsubscribe_unarmed { c with observers := c.observers.erase h } s.entry

theorem poll_unarmed (h : Holder κ) : c.unarmed.poll h = ((c.poll h).1.unarmed, (c.poll h).2) := by
  unfold poll
  rw [show c.unarmed.observers = c.observers from rfl, entry_unarmed]
  cases c.observers.find? h with
  | none => rfl
  | some s =>
      dsimp only
      cases (c.entry s.entry).channel.unseen s.seen with
      | none => rfl
      | some v =>
          exact Prod.ext (note_unarmed { c with observers := c.observers.insert h _ } rfl) rfl

theorem await_unarmed (h : Option (Holder κ)) (k : κ) :
    c.unarmed.await h k = ((c.await h k).1.unarmed, (c.await h k).2) := by
  unfold await
  rw [subscribe_unarmed]
  dsimp only
  rw [entry_unarmed, note_unarmed _ rfl]
  split
  next => rw [hold_unarmed]
  next => rw [unsubscribe_unarmed]

end Cache

end LiveCache
