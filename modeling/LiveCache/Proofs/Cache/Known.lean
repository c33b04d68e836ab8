import LiveCache.Proofs.Timed.Retention
import LiveCache.Proofs.Timed.Subscriptions

/-! # What a cache knows, key by key

A reader meets the entries of a cache only through their keys. Each operation is described here by
what it leaves at every key: at its own one the entry is changed, made or forgotten, and all other
keys keep what they had.
-/

namespace LiveCache.Cache

variable {κ ε α : Type} [DecidableEq κ] {c d : Cache κ ε α} {loose : List (EntryId κ)}
  {i : EntryId κ} {e : Entry ε α}

/-- The entry that the table holds for a key. -/
def known? (c : Cache κ ε α) (k : κ) : Option (Entry ε α) := (c.current? k).map c.entry

theorem known?_of_holds (held : c.Holds i) : c.known? i.key = some (c.entry i) := by
  rw [known?, show c.current? i.key = some i from held, Option.map_some]

theorem known?_congr (table : d.table = c.table) (entry : d.entry = c.entry) :
    d.known? = c.known? := by
  funext k
  unfold known? current?
  rw [table, entry]

@[simp] theorem known?_note (x : Happening κ ε α) : (c.note x).known? = c.known? := rfl

@[simp] theorem known?_record (a : Activity) (n : Nat) : (c.record a n).known? = c.known? :=
  known?_congr (by simp) (by simp)

@[simp] theorem known?_spawn? (handed : Option Launch) : (c.spawn? i handed).known? = c.known? :=
  known?_congr (by simp) (by simp)

@[simp] theorem known?_recordTransition (a : Activity) (t : Transition) :
    (c.recordTransition a t).known? = c.known? :=
  known?_congr (by simp) (by simp)

theorem known?_put (held : c.Holds i) (e : Entry ε α) (k : κ) :
    (c.put i e).known? k = if i.key = k then some e else c.known? k := by
  unfold known?
  rw [put_current?]
  by_cases same : i.key = k
  · subst same
    rw [show c.current? i.key = some i from held, if_pos rfl, Option.map_some, entry_put_self]
  · rw [if_neg same]
    refine Option.map_congr fun j found => entry_put_of_ne c e fun here => ?_
    exact same (by rw [here, current?_key found])

theorem known?_isSome_iff (k : κ) : (c.known? k).isSome ↔ (c.table.find? k).isSome := by
  simp [known?, current?]

theorem Coherent.known?_sound (h : Coherent c loose) {k : κ} (known : c.known? k = some e) :
    e.Sound c.settings.stale := by
  obtain ⟨i, -, rfl⟩ := Option.map_eq_some_iff.1 known
  exact h.sound i

theorem Coherent.known?_present (h : Coherent c loose) {k : κ} (known : c.known? k = some e) :
    e.retired = false := by
  obtain ⟨i, found, rfl⟩ := Option.map_eq_some_iff.1 known
  exact (h.present i (holds_of_current? found)).1

theorem subscriberCount_eq (k : κ) :
    c.subscriberCount k = ((c.known? k).getD {}).subscribers := by
  unfold subscriberCount known?
  cases c.current? k <;> rfl

/-! ## Reading -/

/-- Whoever asks for a key meets its entry, or a fresh one. -/
theorem Coherent.entry_locate (h : Coherent c loose) (k : κ) :
    (c.locate k).1.entry (c.locate k).2 = (c.known? k).getD {} := by
  cases found : c.current? k with
  | none => rw [h.locate_absent found, known?, found]; rfl
  | some i => rw [locate_of_some found, known?, found]; rfl

theorem Coherent.known?_locate (h : Coherent c loose) (k k' : κ) :
    (c.locate k).1.known? k' = if k = k' then some ((c.known? k).getD {}) else c.known? k' := by
  obtain ⟨-, held, key⟩ := h.locate k
  by_cases same : k = k'
  · have here := known?_of_holds held
    rw [key, h.entry_locate] at here
    rw [if_pos same, ← same, here]
  · rw [if_neg same]
    cases found : c.current? k with
    | some i => rw [locate_of_some found]
    | none =>
        rw [locate_of_none found]
        unfold known? current?
        rw [show (c.enrol k).table = c.table.insert k _ from rfl,
          Registry.find?_insert_of_ne _ _ _ _ same]
        rfl

/-- An operation that looks up the entry of a key and changes it. -/
theorem Coherent.known?_located (h : Coherent c loose) (k k' : κ) (e : Entry ε α) :
    ((c.locate k).1.put (c.locate k).2 e).known? k' = if k = k' then some e else c.known? k' := by
  obtain ⟨-, held, key⟩ := h.locate k
  rw [known?_put held, key, h.known?_locate]
  split <;> rfl

theorem Coherent.known?_subscribe (h : Coherent c loose) (k k' : κ) :
    (c.subscribe k).1.known? k' =
      if k = k' then
        let e := (c.known? k).getD {}
        some { e.demand.1 with subscribers := e.subscribers + 1 }
      else c.known? k' := by
  rw [subscribe_eq h]
  dsimp only
  rw [known?_spawn?, h.known?_located, h.entry_locate, Entry.demand_with_subscribers]

/-- The entry of a subscription that was just made. -/
theorem Coherent.entry_subscribe (h : Coherent c loose) (k : κ) :
    (c.subscribe k).1.entry (c.subscribe k).2.entry =
      let e := (c.known? k).getD {}
      { e.demand.1 with subscribers := e.subscribers + 1 } := by
  obtain ⟨held, key⟩ := subscribe_held h k
  have known := known?_of_holds held
  rw [key, h.known?_subscribe, if_pos rfl] at known
  exact (Option.some.inj known).symm

/-- A holder who holds nothing yet is given a subscription. -/
theorem hold_of_free {x : Holder κ} (free : c.observers.find? x = none) (s : Subscription κ) :
    c.hold x s = { c with observers := c.observers.insert x s } := by
  unfold hold
  rw [free]

theorem known?_observe {x : Holder κ} (free : c.observers.find? x = none) (k : κ) :
    (c.observe x k).known? = (c.subscribe k).1.known? := by
  unfold Cache.observe
  dsimp only
  rw [hold_of_free (by rw [subscribe_observers, free])]
  rfl

theorem known?_poll (c : Cache κ ε α) (x : Holder κ) : (c.poll x).1.known? = c.known? := by
  unfold poll
  split
  next => rfl
  next => dsimp only; split <;> rfl

/-- The cache while a new wait looks at the view of its key. -/
def asking (c : Cache κ ε α) (k : κ) : Cache κ ε α :=
  let made := c.subscribe k
  made.1.note (.delivered made.2.entry (made.1.entry made.2.entry).latest)

/-- A wait whose outcome is there ends at once. -/
theorem await_of_settled {k : κ} {o : Outcome ε α}
    (settled : ((c.subscribe k).1.entry (c.subscribe k).2.entry).latest.settled? = some o)
    (x : Option (Holder κ)) :
    c.await x k = ((c.asking k).unsubscribe (c.subscribe k).2.entry, some o) := by
  unfold await
  dsimp only
  unfold Entry.latest at settled
  rw [settled]
  rfl

/-- Else its holder keeps the subscription, and has seen what there was to see. -/
theorem await_of_pending {x : Holder κ} (free : c.observers.find? x = none) {k : κ}
    (pending : ((c.subscribe k).1.entry (c.subscribe k).2.entry).latest.settled? = none) :
    c.await (some x) k = ({ c.asking k with
      observers := c.observers.insert x ⟨(c.subscribe k).2.entry,
        some ((c.subscribe k).1.entry (c.subscribe k).2.entry).channel.version⟩ }, none) := by
  have same : (c.asking k).observers = c.observers := subscribe_observers c k
  have held := hold_of_free (c := c.asking k) (by rw [same, free]) ⟨(c.subscribe k).2.entry,
    some ((c.subscribe k).1.entry (c.subscribe k).2.entry).channel.version⟩
  rw [same] at held
  unfold await
  dsimp only
  unfold Entry.latest at pending
  rw [pending]
  exact congrArg (·, none) held

theorem poll_of_unseen {x : Holder κ} {s : Subscription κ} {v : View ε α}
    (found : c.observers.find? x = some s)
    (unseen : (c.entry s.entry).channel.unseen s.seen = some v) :
    (c.poll x).2 = some v ∧ (c.poll x).1.entry = c.entry ∧
      (c.poll x).1.observers.find? x =
        some ⟨s.entry, some (c.entry s.entry).channel.version⟩ := by
  unfold poll
  rw [found]
  dsimp only
  rw [unseen]
  exact ⟨rfl, rfl, Registry.find?_insert_self _ _ _⟩

theorem Coherent.snapshot_view (h : Coherent c loose) (k : κ) :
    (c.snapshot k).2 = ((c.known? k).getD {}).latest := by
  rw [snapshot_eq h]
  dsimp only
  rw [h.entry_locate, Entry.latest, Entry.demand_channel, Entry.latest]

theorem Coherent.known?_snapshot (h : Coherent c loose) (k k' : κ) :
    (c.snapshot k).1.known? k' =
      if k = k' then some ((c.known? k).getD {}).demand.1 else c.known? k' := by
  rw [snapshot_eq h]
  dsimp only
  rw [known?_note, known?_spawn?, h.known?_located, h.entry_locate]

/-! ## Ending -/

/-- The last subscription of an entry takes the entry with it where entries are kept only while they
are observed. -/
theorem Coherent.known?_unsubscribe (h : Coherent c (i :: loose)) (k : κ) :
    (c.unsubscribe i).known? k =
      if i.key = k then
        if c.settings.retention = .whileObserved ∧ (c.entry i).unsubscribe.subscribers = 0 then none
        else some (c.entry i).unsubscribe
      else c.known? k := by
  have held : c.Holds i := h.holds_of_observed (by rw [List.count_cons_self]; omega)
  by_cases last : c.settings.retention = .whileObserved ∧ (c.entry i).unsubscribe.subscribers = 0
  · have forgotten := h.forgotten last.1 last.2
    rw [if_pos last]
    unfold known? current?
    rw [forgotten.table, Registry.find?_erase]
    by_cases same : i.key = k
    · rw [if_pos same, if_pos same]
      rfl
    · rw [if_neg same, if_neg same]
      refine Option.map_congr fun j found => forgotten.others j fun here => same ?_
      rw [← here, current?_key (c := c) found]
  · rw [unsubscribe_of_lasting fun forgets none => last ⟨forgets, none⟩, known?_put held,
      if_neg last]

theorem Coherent.known?_release (h : Coherent c []) {x : Holder κ} {s : Subscription κ}
    (found : c.observers.find? x = some s) (k : κ) :
    (c.release x).known? k =
      if s.entry.key = k then
        let left := (c.entry s.entry).unsubscribe
        if c.settings.retention = .whileObserved ∧ left.subscribers = 0 then none else some left
      else c.known? k := by
  have taken : Course (fun _ => True) c _ _ := h.taken found
  unfold Cache.release
  rw [found]
  exact taken.coherent.known?_unsubscribe k

theorem Coherent.known?_sweep (h : Coherent c loose) (forgets : c.settings.retention ≠ .forever)
    (k : κ) : c.sweep.1.known? k = (c.known? k).filter fun e => !e.retirable := by
  have swept := h.pruned_sweep forgets
  cases found : c.current? k with
  | none =>
      have absent : c.sweep.1.current? k = none := by
        cases left : c.sweep.1.current? k with
        | none => rfl
        | some i =>
            have held := (swept.holds_iff.1 (holds_of_current? left)).1
            exact absurd held (not_holds_of_current?_none found (current?_key left))
      rw [known?, known?, found, absent]
      rfl
  | some i =>
      have held := holds_of_current? found
      obtain rfl := current?_key found
      have retirable := h.retirable_iff held
      rw [known?_of_holds held, Option.filter_some]
      by_cases idle : c.Idle i
      · have gone : c.sweep.1.current? i.key = none := by
          cases left : c.sweep.1.current? i.key with
          | none => rfl
          | some j =>
              obtain ⟨held', busy⟩ := swept.holds_iff.1 (holds_of_current? left)
              rw [held'.unique held (current?_key left)] at busy
              exact absurd idle busy
        rw [known?, gone, if_neg (by simpa using retirable.2 idle)]
        rfl
      · have left : c.sweep.1.Holds i := swept.holds_iff.2 ⟨held, idle⟩
        rw [known?_of_holds left, swept.entry_of_holds left,
          if_pos (by simpa using fun may => idle (retirable.1 may))]

/-- A sweep tells how many keys it makes unknown. -/
theorem Coherent.mem_swept_iff (h : Coherent c loose) (k : κ) :
    k ∈ (c.ids.filter fun i => c.Idle i).map (·.key) ↔
      ∃ e, c.known? k = some e ∧ e.retirable = true := by
  rw [List.mem_map]
  constructor
  · rintro ⟨i, listed, rfl⟩
    rw [List.mem_filter, mem_ids_iff, decide_eq_true_eq] at listed
    exact ⟨_, known?_of_holds listed.1, (h.retirable_iff listed.1).2 listed.2⟩
  · rintro ⟨e, known, may⟩
    obtain ⟨i, found, rfl⟩ := Option.map_eq_some_iff.1 known
    have held := holds_of_current? found
    refine ⟨i, ?_, current?_key found⟩
    rw [List.mem_filter, mem_ids_iff, decide_eq_true_eq]
    exact ⟨held, (h.retirable_iff held).1 may⟩

/-! ## Writing -/

theorem Coherent.known?_set (h : Coherent c loose) (k : κ) (value : α) (k' : κ) :
    (c.set k value).known? k' =
      if k = k' then some (((c.known? k).getD {}).installed c.settings.stale value)
      else c.known? k' := by
  rw [set_eq h]
  dsimp only
  have noted := h.note (.installed k value)
  rw [known?_recordTransition, noted.known?_located, noted.entry_locate, known?_note]

theorem Coherent.known?_expireEntry (h : Coherent c loose) (held : c.Holds i) (k : κ) :
    (c.expireEntry i).known? k =
      if i.key = k then some ((c.entry i).renewed c.settings.stale).1 else c.known? k := by
  rw [expireEntry_eq (h.present i held).1]
  dsimp only
  rw [known?_spawn?, known?_put (by rwa [holds_iff, recordTransition_table, ← holds_iff]),
    known?_recordTransition]

theorem Coherent.known?_expire (h : Coherent c loose) (k k' : κ) :
    (c.expire k).known? k' =
      if k = k' then (c.known? k).map fun e => (e.renewed c.settings.stale).1
      else c.known? k' := by
  cases found : c.current? k with
  | none =>
      rw [expire_of_none found, known?_note]
      split
      next same => rw [← same, known?, found]; rfl
      next => rfl
  | some i =>
      have held := holds_of_current? found
      obtain rfl := current?_key found
      rw [expire_of_some found, (h.note _).known?_expireEntry held, known?_of_holds held]
      rfl

theorem Coherent.known?_expireAll (h : Coherent c loose) (k : κ) :
    c.expireAll.known? k = (c.known? k).map fun e => (e.renewed c.settings.stale).1 := by
  have table : c.expireAll.table = c.table := by
    unfold Cache.expireAll
    rw [foldl_expireEntry_table, record_table, note_table]
  have same : c.expireAll.current? k = c.current? k := by rw [current?, table, current?]
  rw [known?, same, known?, Option.map_map]
  exact Option.map_congr fun i found => h.expireAll_entry (holds_of_current? found)

/-! ## Results -/

theorem known?_settle {t : Task κ} (held : c.Holds t.entry)
    (owned : (c.entry t.entry).owns t.launch.generation = true) (o : Outcome ε α) (k : κ) :
    (c.settle t o).known? k =
      if t.entry.key = k then some ((c.entry t.entry).concluded c.settings.stale o)
      else c.known? k := by
  rw [settle_of_owns owned, known?_record, known?_put (c := c.note (.returned t.id o)) held]
  rfl

end LiveCache.Cache
