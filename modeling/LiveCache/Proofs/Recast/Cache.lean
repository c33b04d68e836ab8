import LiveCache.Cache.Observers
import LiveCache.Proofs.Recast.Entry

/-! # Caches that are recast

A recast cache has other settings and another log, and its entries hold other failures and publish
other views. Its table, its subscriptions and its tasks are what they are, and every operation
leaves them so.
-/

namespace LiveCache

variable {κ ε α : Type}

def Happening.recast (φ : Recast ε α) : Happening κ ε α → Happening κ ε α
  | .delivered i v => .delivered i (φ.view v)
  | .returned t o => .returned t (φ.outcome o)
  | h => h

namespace Cache

variable (φ : Recast ε α)

def recast (c : Cache κ ε α) : Cache κ ε α :=
  { c with
    settings := φ.settings c.settings
    entries := c.entries.map (Entry.recast φ)
    log := φ.events c.log
    history := c.history.map (Happening.recast φ) }

@[simp] theorem recast_settings (c : Cache κ ε α) :
    (c.recast φ).settings = φ.settings c.settings := rfl

@[simp] theorem recast_observers (c : Cache κ ε α) : (c.recast φ).observers = c.observers := rfl

@[simp] theorem recast_tasks (c : Cache κ ε α) : (c.recast φ).tasks = c.tasks := rfl

@[simp] theorem recast_alive (c : Cache κ ε α) : (c.recast φ).alive = c.alive := rfl

@[simp] theorem recast_ids (c : Cache κ ε α) : (c.recast φ).ids = c.ids := rfl

@[simp] theorem recast_len (c : Cache κ ε α) : (c.recast φ).len = c.len := rfl

variable (c : Cache κ ε α)

/-! ## Reports -/

/-- A report of which the recast tells exactly if it logs anything. -/
theorem record_recast_of_tells {a : Activity} {n : Nat} (told : φ.tells ⟨a, n⟩ = φ.logs) :
    (c.recast φ).record a n = (c.record a n).recast φ := by
  unfold record
  cases logs : c.settings.logs with
  | false => simp [recast, Recast.settings, logs]
  | true => cases some : φ.logs <;>
      simp [recast, Recast.settings, Recast.events_append, logs, told, some]

theorem record_recast {a : Activity} (plain : a.isFault = false) (n : Nat) :
    (c.recast φ).record a n = (c.record a n).recast φ :=
  record_recast_of_tells φ c (φ.tells_of_plain plain)

theorem record_fault_recast (told : φ.faults = φ.logs) (fault : String) (n : Nat) :
    (c.recast φ).record (.faulted fault) n = (c.record (.faulted fault) n).recast φ :=
  record_recast_of_tells φ c told

/-- A fault of which the recast does not tell. -/
theorem recast_record_fault (untold : φ.faults = false) (fault : String) (n : Nat) :
    (c.record (.faulted fault) n).recast φ = c.recast φ := by
  have left : φ.tells ⟨.faulted fault, n⟩ = false := untold
  unfold record
  split
  next => simp [recast, Recast.events_append, left]
  next => rfl

theorem recordTransition_recast {a : Activity} (plain : a.isFault = false) (t : Transition) :
    (c.recast φ).recordTransition a t = (c.recordTransition a t).recast φ := by
  unfold recordTransition
  rw [record_recast φ c plain]
  dsimp only
  split
  next => exact record_recast φ _ rfl _
  next => rfl

theorem note_delivered_recast (i : EntryId κ) (v : View ε α) :
    (c.recast φ).note (.delivered i (φ.view v)) = (c.note (.delivered i v)).recast φ := rfl

variable [DecidableEq κ]

/-! ## State -/

@[simp] theorem recast_current? (k : κ) : (c.recast φ).current? k = c.current? k := rfl

theorem entry_recast (i : EntryId κ) : (c.recast φ).entry i = (c.entry i).recast φ := by
  unfold entry
  rw [show (c.recast φ).entries = c.entries.map (Entry.recast φ) from rfl, Registry.find?_map]
  cases c.entries.find? i with
  | none => exact (Entry.recast_fresh φ).symm
  | some e => rfl

theorem put_recast (i : EntryId κ) (e : Entry ε α) :
    (c.recast φ).put i (e.recast φ) = (c.put i e).recast φ := by
  unfold put recast
  rw [Registry.map_insert]

theorem locate_recast (k : κ) :
    (c.recast φ).locate k = ((c.locate k).1.recast φ, (c.locate k).2) := by
  unfold locate
  rw [recast_current?]
  split <;> rfl

theorem spawn_recast (i : EntryId κ) (l : Launch) :
    (c.recast φ).spawn i l = (c.spawn i l).recast φ := by
  unfold spawn
  rw [record_recast φ c rfl]
  rfl

theorem spawn?_recast (i : EntryId κ) (launch : Option Launch) :
    (c.recast φ).spawn? i launch = (c.spawn? i launch).recast φ := by
  cases launch with
  | none => rfl
  | some l => exact spawn_recast φ c i l

@[simp] theorem isAborted_recast (t : Task κ) : (c.recast φ).isAborted t = c.isAborted t := by
  unfold isAborted
  rw [entry_recast]
  rfl

theorem removeTask_recast (t : TaskId κ) :
    (c.recast φ).removeTask t = (c.removeTask t).recast φ := rfl

@[simp] theorem subscriberCount_recast (k : κ) :
    (c.recast φ).subscriberCount k = c.subscriberCount k := by
  unfold subscriberCount
  simp only [recast_current?, entry_recast, Entry.recast_subscribers]

@[simp] theorem subscribed_recast : (c.recast φ).subscribed = c.subscribed := by
  unfold subscribed
  simp only [recast_ids, entry_recast, Entry.recast_subscribers]

/-! ## Operations -/

theorem subscribe_recast (k : κ) :
    (c.recast φ).subscribe k = ((c.subscribe k).1.recast φ, (c.subscribe k).2) := by
  unfold subscribe
  rw [locate_recast]
  dsimp only
  rw [entry_recast, Entry.subscribe?_recast]
  cases ((c.locate k).1.entry (c.locate k).2).subscribe? with
  | none => rfl
  | some r =>
      dsimp only [Option.map_some]
      rw [put_recast, spawn?_recast]

theorem snapshot_recast (k : κ) :
    (c.recast φ).snapshot k = ((c.snapshot k).1.recast φ, φ.view (c.snapshot k).2) := by
  unfold snapshot
  rw [locate_recast]
  dsimp only
  rw [entry_recast, Entry.snapshot?_recast]
  cases ((c.locate k).1.entry (c.locate k).2).snapshot? with
  | none => rfl
  | some r =>
      dsimp only [Option.map_some]
      rw [put_recast, spawn?_recast, Entry.latest_recast]
      rfl

theorem reclaim_recast (i : EntryId κ) : (c.recast φ).reclaim i = (c.reclaim i).recast φ := by
  unfold reclaim
  rw [recast_current?, entry_recast, Entry.retire_recast]
  dsimp only
  split
  next =>
    split
    next =>
      have plain : Activity.isFault .reclaimed = false := rfl
      rw [put_recast]
      exact record_recast φ ({ c.put i (c.entry i).retire.1 with
        table := c.table.erase i.key }.note (.removed i)) plain _
    next => rfl
  next => rfl

theorem unobserved_recast (i : EntryId κ) :
    (c.recast φ).unobserved i = (c.unobserved i).recast φ := by
  unfold unobserved
  simp only [recast_settings, Recast.settings_retention, φ.whileObserved, entry_recast,
    Entry.abandon_recast]
  split
  next =>
    rw [put_recast]
    cases (c.entry i).abandon.2 with
    | none => exact reclaim_recast φ _ i
    | some generation =>
        dsimp only
        rw [record_recast φ _ rfl, reclaim_recast]
  next => rfl

theorem unsubscribe_recast (i : EntryId κ) :
    (c.recast φ).unsubscribe i = (c.unsubscribe i).recast φ := by
  unfold unsubscribe
  rw [entry_recast, Entry.unsubscribe_recast]
  dsimp only
  rw [put_recast, Entry.recast_subscribers, unobserved_recast]
  split <;> rfl

/-- A retention under which a sweep removes nothing must not stand for one under which it does. -/
theorem sweep_recast (spares : φ.retention c.settings.retention = .forever ↔
      c.settings.retention = .forever) :
    (c.recast φ).sweep = (c.sweep.1.recast φ, c.sweep.2) := by
  unfold sweep
  simp only [recast_settings, Recast.settings_retention, spares, recast_ids,
    List.foldl_hom (recast φ) fun c i => reclaim_recast φ c i]
  split <;> rfl

theorem set_recast (k : κ) (value : α) : (c.recast φ).set k value = (c.set k value).recast φ := by
  unfold set
  rw [show (c.recast φ).note (.installed k value) = (c.note (.installed k value)).recast φ from rfl,
    locate_recast]
  dsimp only
  rw [entry_recast, recast_settings, Recast.settings_stale, Entry.set?_recast]
  cases Entry.set? c.settings.stale (((c.note (.installed k value)).locate k).1.entry
    ((c.note (.installed k value)).locate k).2) value with
  | none => rfl
  | some r =>
      dsimp only [Option.map_some]
      rw [put_recast, recordTransition_recast φ _ rfl]

theorem expireEntry_recast (i : EntryId κ) :
    (c.recast φ).expireEntry i = (c.expireEntry i).recast φ := by
  unfold expireEntry
  rw [entry_recast, recast_settings, Recast.settings_stale, Entry.expire?_recast]
  cases (c.entry i).expire? c.settings.stale with
  | none => rfl
  | some r =>
      dsimp only [Option.map_some]
      rw [put_recast, recordTransition_recast φ _ rfl, spawn?_recast]

theorem expire_recast (k : κ) : (c.recast φ).expire k = (c.expire k).recast φ := by
  unfold expire
  rw [show (c.recast φ).note (.expired k) = (c.note (.expired k)).recast φ from rfl]
  dsimp only
  rw [recast_current?]
  cases (c.note (.expired k)).current? k with
  | none => rfl
  | some i => exact expireEntry_recast φ _ i

theorem expireAll_recast : (c.recast φ).expireAll = c.expireAll.recast φ := by
  unfold expireAll
  rw [show (c.recast φ).note .expiredAll = (c.note .expiredAll).recast φ from rfl,
    record_recast φ _ rfl, recast_ids, recast_len,
    List.foldl_hom (recast φ) fun c i => expireEntry_recast φ c i]

theorem settle_recast (t : Task κ) (o : Outcome ε α) :
    (c.recast φ).settle t (φ.outcome o) = (c.settle t o).recast φ := by
  unfold settle
  rw [entry_recast, recast_settings, Recast.settings_stale, Entry.settle_recast,
    show (c.recast φ).note (.returned t.id (φ.outcome o)) =
      (c.note (.returned t.id o)).recast φ from rfl]
  dsimp only
  rw [put_recast]
  cases ((c.entry t.entry).settle c.settings.stale t.launch.generation o).2 with
  | accepted => exact record_recast φ _ rfl _
  | discarded relaunch =>
      dsimp only
      rw [record_recast φ _ rfl, spawn?_recast]

theorem close_recast : (c.recast φ).close = c.close.recast φ := by
  unfold close
  rw [recast_ids, List.foldl_hom (recast φ) fun c i => by
    rw [entry_recast, Entry.abort_recast, put_recast]]
  rfl

/-! ## Observers -/

theorem hold_recast (h : Holder κ) (s : Subscription κ) :
    (c.recast φ).hold h s = (c.hold h s).recast φ := by
  unfold hold
  rw [recast_observers]
  cases c.observers.find? h with
  | none => rfl
  | some old => exact unsubscribe_recast φ { c with observers := c.observers.insert h s } old.entry

theorem observe_recast (h : Holder κ) (k : κ) :
    (c.recast φ).observe h k = (c.observe h k).recast φ := by
  unfold observe
  rw [subscribe_recast]
  exact hold_recast φ _ _ _

theorem glance_recast (k : κ) : (c.recast φ).glance k = (c.glance k).recast φ := by
  unfold glance
  rw [subscribe_recast]
  exact unsubscribe_recast φ _ _

theorem release_recast (h : Holder κ) : (c.recast φ).release h = (c.release h).recast φ := by
  unfold release
  rw [recast_observers]
  cases c.observers.find? h with
  | none => rfl
  | some s => exact unsubscribe_recast φ { c with observers := c.observers.erase h } s.entry

theorem poll_recast (h : Holder κ) :
    (c.recast φ).poll h = ((c.poll h).1.recast φ, (c.poll h).2.map φ.view) := by
  unfold poll
  rw [recast_observers]
  cases c.observers.find? h with
  | none => rfl
  | some s =>
      dsimp only
      rw [entry_recast, Entry.recast_channel, Channel.unseen_map, Channel.version_map]
      cases (c.entry s.entry).channel.unseen s.seen <;> rfl

theorem await_recast (h : Option (Holder κ)) (k : κ) :
    (c.recast φ).await h k = ((c.await h k).1.recast φ, (c.await h k).2.map φ.outcome) := by
  unfold await
  rw [subscribe_recast]
  dsimp only
  rw [entry_recast, Entry.recast_channel, Channel.latest_map, Channel.version_map,
    φ.settled?_view, note_delivered_recast]
  cases ((c.subscribe k).1.entry (c.subscribe k).2.entry).channel.latest.settled? with
  | none =>
      cases h with
      | none => exact Prod.ext (unsubscribe_recast φ _ _) rfl
      | some h => exact Prod.ext (hold_recast φ _ _ _) rfl
  | some o => exact Prod.ext (unsubscribe_recast φ _ _) rfl

end Cache

end LiveCache
