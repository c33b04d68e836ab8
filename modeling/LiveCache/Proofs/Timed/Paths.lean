import LiveCache.Proofs.Cache.Known
import LiveCache.Proofs.Timed.Filled
import LiveCache.Proofs.Timed.Observing

/-! # The ways to read a key

A snapshot borrows the view of an entry, a subscription is given it by a poll, and a wait looks at it
through a subscription of its own. Each asks the entry for its value first, so all of them see the
same view and launch the same computation. What is left of a reader who goes at once is what the end
of the last subscription makes of the entry.
-/

namespace LiveCache

namespace Registry

variable {κ ν : Type} [DecidableEq κ] {r : Registry κ ν} {k : κ} {v : ν}

theorem insertIn_of_found {l : List (κ × ν)} (found : findIn k l = some v) :
    insertIn k v l = l := by
  induction l with
  | nil => cases found
  | cons p rest ih =>
      obtain ⟨a, b⟩ := p
      by_cases here : a = k
      · rw [findIn, if_pos here] at found
        rw [insertIn, if_pos here, ← here, Option.some.inj found]
      · rw [findIn, if_neg here] at found
        rw [insertIn, if_neg here, ih found]

/-- What is there already is inserted without effect. -/
theorem insert_of_found (found : r.find? k = some v) : r.insert k v = r := by
  obtain ⟨pairs, nodup⟩ := r
  simpa only [insert, mk.injEq] using insertIn_of_found found

/-- What is inserted at a free key and erased leaves no trace. -/
theorem erase_insert (free : r.find? k = none) (v : ν) : (r.insert k v).erase k = r := by
  have out : k ∉ r.keys := by
    rw [mem_keys_iff, free]
    exact Bool.false_ne_true
  obtain ⟨pairs, nodup⟩ := r
  have pairs' : insertIn k v pairs = pairs ++ [(k, v)] := insertIn_of_none free v
  simp only [insert, erase, mk.injEq, pairs']
  rw [eraseIn, List.filter_append, ← eraseIn, eraseIn_of_not_mem out]
  simp

end Registry

namespace Cache

variable {κ ε α : Type} [DecidableEq κ] {c d : Cache κ ε α} {loose : List (EntryId κ)} {k : κ}
  {x : Holder κ} {i : EntryId κ}

/-! ## One more reader -/

/-- The cache after an entry was given one more subscriber. -/
def join (c : Cache κ ε α) (i : EntryId κ) : Cache κ ε α :=
  c.put i { c.entry i with subscribers := (c.entry i).subscribers + 1 }

theorem put_note (c : Cache κ ε α) (i : EntryId κ) (e : Entry ε α) (w : Happening κ ε α) :
    (c.put i e).note w = (c.note w).put i e := rfl

theorem put_spawn? (c : Cache κ ε α) (i j : EntryId κ) (e : Entry ε α) (handed : Option Launch) :
    (c.put i e).spawn? j handed = (c.spawn? j handed).put i e := by
  cases handed with
  | none => rfl
  | some l =>
      simp only [spawn?, spawn, put_record]
      rfl

/-- A wait has asked for the value as a snapshot has, and has a subscription besides. -/
theorem asking_eq (h : Coherent c loose) (k : κ) :
    c.asking k = (c.snapshot k).1.join (c.subscribe k).2.entry := by
  unfold asking join
  rw [subscribe_eq h k, snapshot_eq h k]
  dsimp only
  rw [Entry.demand_with_subscribers, note_entry, spawn?_entry, spawn?_entry, entry_put_self,
    entry_put_self, put_spawn?, put_spawn?, put_note, put_note, put_put]
  simp [Entry.latest]

theorem put_of_found {e : Entry ε α} (found : c.entries.find? i = some e) : c.put i e = c := by
  unfold put
  rw [Registry.insert_of_found found]

/-- One more reader who goes again. -/
theorem unsubscribe_join (found : c.entries.find? i = some (c.entry i)) :
    (c.join i).unsubscribe i =
      if (c.entry i).subscribers = 0 then c.unobserved i else c := by
  have left : ((c.join i).entry i).unsubscribe = c.entry i := by
    simp [join, Entry.unsubscribe]
  have back : (c.join i).put i (c.entry i) = c := by
    rw [join, put_put, put_of_found found]
  unfold unsubscribe
  rw [left]
  dsimp only
  rw [back]

/-! ## A reader who looks once and goes -/

/-- The cache after somebody has subscribed to a key, looked once and gone. -/
def visit (c : Cache κ ε α) (k : κ) : Cache κ ε α :=
  (c.asking k).unsubscribe (c.subscribe k).2.entry

theorem visit_eq (h : Coherent c loose) (k : κ) :
    c.visit k =
      if c.subscriberCount k = 0 then (c.snapshot k).1.unobserved (c.subscribe k).2.entry
      else (c.snapshot k).1 := by
  have found : (c.snapshot k).1.entries.find? (c.subscribe k).2.entry =
      some ((c.snapshot k).1.entry (c.subscribe k).2.entry) := by
    rw [subscribe_eq h k, snapshot_eq h k]
    dsimp only
    rw [note_entries, note_entry, spawn?_entries, spawn?_entry, entry_put_self]
    exact Registry.find?_insert_self _ _ _
  have count : ((c.snapshot k).1.entry (c.subscribe k).2.entry).subscribers =
      c.subscriberCount k := by
    rw [subscriberCount_eq, ← h.entry_locate, subscribe_eq h k, snapshot_eq h k]
    simp
  rw [visit, asking_eq h k, unsubscribe_join found, count]

/-- A holder who was given a subscription and gives it back. -/
theorem release_given (free : c.observers.find? x = none) (s : Subscription κ) :
    Cache.release { c with observers := c.observers.insert x s } x = c.unsubscribe s.entry := by
  unfold Cache.release
  dsimp only
  rw [Registry.find?_insert_self]
  dsimp only
  rw [Registry.erase_insert free]

theorem release_of_free (free : c.observers.find? x = none) : c.release x = c := by
  unfold release
  rw [free]

@[simp] theorem asking_observers (c : Cache κ ε α) (k : κ) :
    (c.asking k).observers = c.observers :=
  subscribe_observers c k

/-- The first poll of a new subscription. -/
theorem poll_observe (free : c.observers.find? x = none) (k : κ) :
    (c.observe x k).poll x =
      ({ c.asking k with observers := c.observers.insert x ⟨(c.subscribe k).2.entry,
          some ((c.subscribe k).1.entry (c.subscribe k).2.entry).channel.version⟩ },
        some ((c.subscribe k).1.entry (c.subscribe k).2.entry).latest) := by
  have given : c.observe x k = { (c.subscribe k).1 with
      observers := c.observers.insert x (c.subscribe k).2 } := by
    unfold observe
    rw [hold_of_free (by rw [subscribe_observers, free]), subscribe_observers]
  rw [given]
  unfold poll
  dsimp only
  rw [Registry.find?_insert_self]
  dsimp only
  rw [subscribe_seen, Channel.unseen_none, Registry.insert_insert]
  rfl

theorem release_poll_observe (free : c.observers.find? x = none) (k : κ) :
    ((c.observe x k).poll x).1.release x = c.visit k := by
  have free' : (c.asking k).observers.find? x = none := by rw [asking_observers, free]
  have released := release_given free' ⟨(c.subscribe k).2.entry,
    some ((c.subscribe k).1.entry (c.subscribe k).2.entry).channel.version⟩
  rw [asking_observers] at released
  rw [poll_observe free]
  exact released

theorem await_none (c : Cache κ ε α) (k : κ) : (c.await none k).1 = c.visit k := by
  unfold await
  dsimp only
  split
  next none => cases none
  next => rfl

theorem release_await (free : c.observers.find? x = none) (k : κ) :
    (c.await (some x) k).1.release x = c.visit k := by
  have free' : (c.asking k).observers.find? x = none := by rw [asking_observers, free]
  cases answer : ((c.subscribe k).1.entry (c.subscribe k).2.entry).latest.settled? with
  | some o =>
      rw [await_of_settled answer]
      refine release_of_free ?_
      rw [unsubscribe_observers]
      exact free'
  | none =>
      have released := release_given free' ⟨(c.subscribe k).2.entry,
        some ((c.subscribe k).1.entry (c.subscribe k).2.entry).channel.version⟩
      rw [asking_observers] at released
      rw [await_of_pending free answer]
      exact released

/-! ## The end of the last subscription -/

/-- An entry is forsaken: what is computed for it is stopped, it leaves the table, and nothing else
changes. -/
structure Forsaken (c d : Cache κ ε α) (i : EntryId κ) : Prop where
  settings : d.settings = c.settings
  self : d.entry i = { (c.entry i).abandoned with retired := true }
  others : ∀ j, j ≠ i → d.entry j = c.entry j
  created : d.created = c.created
  table : d.table = c.table.erase i.key
  observers : d.observers = c.observers
  tasks : d.tasks = c.tasks
  spawned : d.spawned = c.spawned
  log : d.log = c.log ++ if c.settings.logs then
    (c.entry i).abandon.2.toList.map (⟨.cancelled, ·⟩) ++ [⟨.reclaimed, (c.entry i).generation⟩]
    else []
  history : d.history = .removed i :: c.history
  alive : d.alive = c.alive

omit [DecidableEq κ] in
theorem record_log_eq (c : Cache κ ε α) (a : Activity) (n : Nat) :
    (c.record a n).log = c.log ++ if c.settings.logs then [⟨a, n⟩] else [] := by
  unfold record
  split <;> simp

/-- Under the retention that forgets, an entry without subscribers is forsaken. -/
theorem forsaken_unobserved (held : c.Holds i) (forgets : c.settings.retention = .whileObserved)
    (none : (c.entry i).subscribers = 0) (present : (c.entry i).retired = false) :
    Forsaken c (c.unobserved i) i := by
  have abandoned := Entry.abandon_eq none
  -- The computation is stopped and reported first.
  obtain ⟨log, forgone, added⟩ : ∃ log,
      c.forgo i = Cache.put { c with log := log } i (c.entry i).abandoned ∧
      log = c.log ++ if c.settings.logs then
        (c.entry i).abandon.2.toList.map (⟨.cancelled, ·⟩) else [] := by
    unfold forgo
    rw [abandoned]
    cases (c.entry i).abandon.2 with
    | none => exact ⟨c.log, rfl, by simp⟩
    | some n =>
        refine ⟨(c.record .cancelled n).log, ?_, record_log_eq c _ n⟩
        dsimp only
        rw [put_record]
        unfold record
        split <;> rfl
  have may : (Entry.abandoned (c.entry i)).retirable = true := by
    rw [Entry.retirable_iff, Entry.abandoned_retired, Entry.abandoned_subscribers]
    exact ⟨present, none, Entry.abandoned_not_computing _⟩
  have generation : (c.entry i).abandoned.generation = (c.entry i).generation := by
    unfold Entry.abandoned
    split <;> simp
  have held' : (Cache.put { c with log := log } i (c.entry i).abandoned).Holds i := held
  rw [unobserved_of_forgetful forgets, forgone,
    reclaim_of_retirable held' (by rwa [entry_put_self]), entry_put_self, generation]
  refine ⟨?_, ?_, fun j other => ?_, ?_, ?_, ?_, ?_, ?_, ?_, ?_, ?_⟩
  · exact record_settings _ _ _
  · rw [record_entry, note_entry, dismiss_entry_self]
  · rw [record_entry, note_entry, dismiss_entry_of_ne _ other, entry_put_of_ne _ _ (Ne.symm other)]
    rfl
  · exact record_created _ _ _
  · exact record_table _ _ _
  · exact record_observers _ _ _
  · exact record_tasks _ _ _
  · exact record_spawned _ _ _
  · rw [record_log_eq]
    change log ++ (if c.settings.logs then _ else _) = _
    rw [added]
    cases c.settings.logs <;> simp
  · exact record_history _ _ _
  · exact record_alive _ _ _

/-! ## What is left of the reader -/

theorem snapshot_held (h : Coherent c []) (k : κ) :
    (c.snapshot k).1.current? k = some (c.subscribe k).2.entry := by
  have key := (subscribe_held h k).2
  have held : (c.snapshot k).1.Holds (c.locate k).2 := by
    rw [snapshot_eq h k]
    exact (touch_holds _).2 (h.locate k).2.1
  have same : (c.subscribe k).2.entry = (c.locate k).2 := by rw [subscribe_eq h k]
  rw [← same] at held
  unfold Holds at held
  rwa [key] at held

/-- Where the entry stays, nothing is left but what a snapshot leaves. -/
theorem visit_of_lasting (h : Coherent c []) {k : κ}
    (lasts : c.settings.retention = .whileObserved → 0 < c.subscriberCount k) :
    c.visit k = (c.snapshot k).1 := by
  have course : Course (fun _ => True) c (c.snapshot k).1 [] := h.snapshot k
  rw [visit_eq h k]
  split
  next alone =>
    unfold unobserved
    rw [if_neg]
    intro forgets
    have observed := lasts (course.settings ▸ forgets)
    omega
  next => rfl

theorem forsaken_visit (h : Coherent c []) {k : κ}
    (forgets : c.settings.retention = .whileObserved) (alone : c.subscriberCount k = 0) :
    Forsaken (c.snapshot k).1 (c.visit k) (c.subscribe k).2.entry := by
  have course : Course (fun _ => True) c (c.snapshot k).1 [] := h.snapshot k
  have held := holds_of_current? (snapshot_held h k)
  have none : ((c.snapshot k).1.entry (c.subscribe k).2.entry).subscribers = 0 := by
    rw [← alone, subscriberCount_eq, ← h.entry_locate, subscribe_eq h k, snapshot_eq h k]
    dsimp only
    rw [note_entry, touch_entry_self, Entry.demand_subscribers]
  rw [visit_eq h k, if_pos alone]
  exact forsaken_unobserved held (course.settings ▸ forgets) none
    (course.coherent.present _ held).1

theorem visit_tasks (h : Coherent c []) (k : κ) :
    (c.visit k).tasks = (c.snapshot k).1.tasks := by
  by_cases forsaken : c.settings.retention = .whileObserved ∧ c.subscriberCount k = 0
  · exact (forsaken_visit h forsaken.1 forsaken.2).tasks
  · rw [visit_of_lasting h]
    exact fun forgets => Nat.pos_of_ne_zero fun alone => forsaken ⟨forgets, alone⟩

theorem asking_tasks (h : Coherent c []) (k : κ) :
    (c.asking k).tasks = (c.snapshot k).1.tasks := by
  rw [asking_eq h k]
  rfl

theorem await_tasks (h : Coherent c []) (free : c.observers.find? x = none) (k : κ) :
    (c.await (some x) k).1.tasks = (c.snapshot k).1.tasks := by
  cases answer : ((c.subscribe k).1.entry (c.subscribe k).2.entry).latest.settled? with
  | some o =>
      rw [await_of_settled answer]
      exact visit_tasks h k
  | none =>
      rw [await_of_pending free answer]
      exact asking_tasks h k

/-- All who look at a key see the same view of it. -/
theorem subscribe_view (h : Coherent c []) (k : κ) :
    ((c.subscribe k).1.entry (c.subscribe k).2.entry).latest = (c.snapshot k).2 := by
  rw [h.entry_subscribe, h.snapshot_view]
  simp [Entry.latest]

/-! ## What is launched -/

/-- The key has no entry, or one that is outdated and that nobody computes. -/
def Wants (c : Cache κ ε α) (k : κ) : Prop :=
  c.known? k = none ∨ ∃ e, c.known? k = some e ∧ e.isStale = true

theorem isIdle_iff {e : Entry ε α} (filled : e.phase ≠ .empty) :
    e.phase.isIdle = true ↔ e.isStale = true := by
  unfold Entry.isStale
  cases hp : e.phase <;> simp_all [Phase.isIdle]

theorem snapshot_tasks (h : Coherent c []) (k : κ)
    (filled : ∀ e, c.known? k = some e → e.phase ≠ .empty) :
    ∃ new : List (Task κ), new.length ≤ 1 ∧ (∀ u ∈ new, u.id.key = k) ∧
      (new ≠ [] ↔ c.Wants k) ∧ (c.snapshot k).1.tasks = c.tasks ++ new := by
  have key := (h.locate k).2.2
  have tasks : (c.locate k).1.tasks = c.tasks := by unfold locate; split <;> rfl
  have wanted : ((c.known? k).getD {}).phase.isIdle = true ↔ c.Wants k := by
    unfold Wants
    cases known : c.known? k with
    | none => simp [Phase.isIdle]
    | some e => simpa using isIdle_iff (filled e known)
  rw [← wanted, snapshot_eq h k]
  dsimp only
  rw [note_tasks, spawn?_tasks, put_tasks, tasks, h.entry_locate]
  refine ⟨_, ?_, ?_, ?_, rfl⟩
  · cases ((c.known? k).getD {}).demand.2 <;> simp
  · intro u mem
    rw [Option.mem_toList, Option.map_eq_some_iff] at mem
    obtain ⟨l, -, rfl⟩ := mem
    exact key
  · rw [Entry.demand_eq]
    split
    next idle => simp [Entry.launch, idle]
    next busy => simp [busy]

end Cache

namespace TimedCache

open Cache (Coherent Forsaken)

variable {κ ε α : Type} [DecidableEq κ] {t : TimedCache κ ε α} {lossy : Prop}
  {settings : Settings} {ttl : Option Nat}

/-- A snapshot, the first poll of a new subscription and the first poll of a new wait see the same
view, and launch the same computation if the key wants one. A reader who goes after that leaves the
state that a snapshot leaves, unless it was the only one where entries are kept only while they are
observed: then the entry is forsaken. -/
theorem read_paths_agree (h : Reached lossy settings ttl t) {x : Holder κ}
    (free : t.cache.observers.find? x = none) (k : κ) :
    let c := t.cache
    let shown := c.snapshot k
    let got := (c.observe x k).poll x
    let asked := c.await (some x) k
    got.2 = some shown.2 ∧ asked.2 = shown.2.settled? ∧
    (∃ new : List (Task κ), new.length ≤ 1 ∧ (∀ u ∈ new, u.id.key = k) ∧
      (new ≠ [] ↔ c.Wants k) ∧
      shown.1.tasks = c.tasks ++ new ∧ got.1.tasks = c.tasks ++ new ∧
      asked.1.tasks = c.tasks ++ new) ∧
    asked.1.release x = got.1.release x ∧ (c.await none k).1 = got.1.release x ∧
    ((settings.retention = .whileObserved → 0 < c.subscriberCount k) →
      got.1.release x = shown.1) ∧
    (settings.retention = .whileObserved → c.subscriberCount k = 0 →
      (∃ i, shown.1.current? k = some i ∧ Forsaken shown.1 (got.1.release x) i) ∧
      (got.1.release x).current? k = none ∧
      ∀ u ∈ shown.1.tasks, u.id.key = k → (got.1.release x).isAborted u = true) := by
  intro c shown got asked
  have coherent : Coherent c [] := h.coherent
  have filled : ∀ e, c.known? k = some e → e.phase ≠ .empty := by
    intro e known
    obtain ⟨i, found, rfl⟩ := Option.map_eq_some_iff.1 known
    exact h.ne_empty (Cache.holds_of_current? found)
  have polled : got = (_, _) := Cache.poll_observe free k
  have left : got.1.release x = c.visit k := Cache.release_poll_observe free k
  refine ⟨?_, ?_, ?_, ?_, ?_, ?_, ?_⟩
  · rw [polled, ← Cache.subscribe_view coherent k]
  · rw [Cache.await_answer, Cache.subscribe_view coherent k]
  · obtain ⟨new, single, keys, wanted, tasks⟩ := Cache.snapshot_tasks coherent k filled
    refine ⟨new, single, keys, wanted, tasks, ?_, ?_⟩
    · rw [polled, ← tasks]
      exact Cache.asking_tasks coherent k
    · rw [Cache.await_tasks coherent free k, tasks]
  · rw [left, Cache.release_await free k]
  · rw [left, Cache.await_none]
  · intro lasts
    rw [left]
    exact Cache.visit_of_lasting coherent (h.same_settings ▸ lasts)
  · intro forgets alone
    rw [left]
    have forsaken := Cache.forsaken_visit coherent (h.same_settings ▸ forgets) alone
    have absent : (c.visit k).current? k = none := by
      rw [Cache.current?, forsaken.table, (Cache.subscribe_held coherent k).2,
        Registry.find?_erase_self]
      rfl
    refine ⟨⟨_, Cache.snapshot_held coherent k, forsaken⟩, absent, fun u listed key => ?_⟩
    have after : Coherent (c.visit k) [] := by
      have course : Cache.Course (fun _ => True) c _ [] := coherent.await none k
      rw [← Cache.await_none]
      exact course.coherent
    have listed' : u ∈ (c.visit k).tasks := by rwa [forsaken.tasks]
    have gone := Cache.not_holds_of_current?_none absent ((after.named u listed').1.symm.trans key)
    refine after.aborted_of_not_computing listed' fun previous hp => ?_
    have calm := (after.gone gone).2
    simp [hp, Phase.isComputing] at calm

/-- A value that was set and outdated is read by somebody who goes at once. The computation that the
reader has launched is stopped, and the key is forgotten. -/
theorem read_paths_agree_outdated :
    let settings : Settings := { retention := .whileObserved }
    let t : TimedCache Nat Nat Nat := ((opened settings none).set 0 5).expire 0
    let got := (t.cache.observe (.reader "r") 0).poll (.reader "r")
    t.cache.observers.find? (.reader "r") = none ∧ t.cache.subscriberCount 0 = 0 ∧
      got.2 = some (.known (.success 5) .loading) ∧
      (t.cache.snapshot 0).1.tasks = [⟨⟨0, 0⟩, ⟨0, 0⟩, ⟨0, 2⟩⟩] ∧
      (got.1.release (.reader "r")).current? 0 = none ∧
      (got.1.release (.reader "r")).isAborted ⟨⟨0, 0⟩, ⟨0, 0⟩, ⟨0, 2⟩⟩ = true := by
  intro settings t got
  have reached : Reached False settings none t :=
    (Reached.single (.deed (.set 0 5))).tail (.deed (.expire 0))
  have free : t.cache.observers.find? (.reader "r") = none := by decide
  have alone : t.cache.subscriberCount 0 = 0 := by decide
  have shown : (t.cache.snapshot 0).2 = .known (.success 5) .loading := by decide
  have tasks : (t.cache.snapshot 0).1.tasks = [⟨⟨0, 0⟩, ⟨0, 0⟩, ⟨0, 2⟩⟩] := by decide
  have agree := read_paths_agree reached free 0
  have left := agree.2.2.2.2.2.2 rfl alone
  refine ⟨free, alone, ?_, tasks, left.2.1, left.2.2 _ ?_ rfl⟩
  · rw [agree.1, shown]
  · rw [tasks]
    exact List.mem_cons_self

end TimedCache

end LiveCache
