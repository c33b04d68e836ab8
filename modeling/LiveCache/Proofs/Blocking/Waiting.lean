import LiveCache.Proofs.Blocking.Tracking

/-! # Reads that wait

A blocking read subscribes, waits for the computation that it has launched or met, and lets go
again. Seen from outside it asks for the key, and forgets it where nobody else holds it.
-/

namespace LiveCache

open Session (Key Name Value Poised Concludes Spares)
open TimedCache (Deed)
open Cache (Coherent Course)

variable {s : Session} {m m' : Memo} {k : Key}

/-! ## Standing subscriptions -/

namespace Attends

variable {c : Cache Key Failure Value} {warm : Registry Key Unit}

theorem observe (h : Attends c warm) (hc : Coherent c []) (k : Key) :
    Attends (c.observe (.reader k) k) (warm.insert k ()) where
  readers := by
    intro x sub found
    have key := (Cache.subscribe_held hc k).2
    rw [Cache.observe, Cache.hold_observers, Cache.subscribe_observers, Registry.find?_insert]
      at found
    split at found
    next same => rw [← same, ← Option.some.inj found, key]
    next => exact h.readers x sub found
  warm := by
    intro k'
    rw [Cache.observe, Cache.hold_observers, Cache.subscribe_observers, Registry.contains,
      Registry.contains, Registry.find?_insert, Registry.find?_insert]
    by_cases same : k = k'
    · rw [if_pos same, if_pos (congrArg _ same)]
      rfl
    · rw [if_neg same, if_neg fun eq => same (Holder.reader.inj eq)]
      exact h.warm k'

/-- A warm key that is read again stays as it is. -/
theorem rewarm (h : Attends c warm) {k : Key} (already : warm.contains k = true) :
    Attends c (warm.insert k ()) where
  readers := h.readers
  warm := by
    intro k'
    rw [h.warm, Registry.contains, Registry.contains, Registry.find?_insert]
    split
    next same => rwa [← same]
    next => rfl

theorem release (h : Attends c warm) (k : Key) :
    Attends (c.release (.reader k)) (warm.erase k) where
  readers := by
    intro x sub found
    rw [Cache.find?_release] at found
    split at found
    next => cases found
    next => exact h.readers x sub found
  warm := by
    intro k'
    rw [Registry.contains, Registry.contains, Cache.find?_release, Registry.find?_erase]
    by_cases same : k = k'
    · rw [if_pos same, if_pos (congrArg _ same)]
      rfl
    · rw [if_neg same, if_neg fun eq => same (Holder.reader.inj eq)]
      exact h.warm k'

theorem waiter_free (h : Attends c warm) (n : Name) : c.observers.find? (.waiter n) = none := by
  cases found : c.observers.find? (.waiter n) with
  | none => rfl
  | some sub => cases h.readers _ sub found

end Attends

namespace Tracks

theorem observe (h : Tracks s m) {n : Name}
    (free : s.cache.observers.find? (.reader n) = none) (k : Key) :
    Tracks { s with timed := s.timed.observe (.reader n) k } (m.fetch k).1 := by
  have known : (s.timed.observe (.reader n) k).cache.known? = (s.cache.subscribe k).1.known? := by
    unfold TimedCache.observe
    rw [TimedCache.armIfAbsent_of_untimed h.poised.untimed]
    exact Cache.known?_observe free k
  refine h.change k (.observe _ k) (Session.Does.observe n k).effect.spares (m.frame_fetch k)
    (Cell.asked (m.compute k)) ?_ ?_ (m.cell_fetch k)
  · intro k' other
    rw [known, h.poised.coherent.known?_subscribe, if_neg other]
  · unfold Session.cell
    dsimp only [Session.cache]
    rw [known, h.poised.coherent.known?_subscribe, if_pos rfl, Option.map_some]
    exact Entry.cell_demand _

theorem rewarm (h : Tracks s m) (warm : Registry Key Unit) : Tracks s { m with warm := warm } :=
  ⟨h.poised, h.settings, h.cells⟩

/-- A standing subscription is the only one of its key when nobody waits. -/
theorem held_of_warm (h : Tracks s m) (attends : Attends s.cache m.warm) {sub : Subscription Key}
    (found : s.cache.observers.find? (.reader k) = some sub) :
    sub.entry.key = k ∧ s.cache.known? k = some (s.cache.entry sub.entry) ∧
      (s.cache.entry sub.entry).subscribers = 1 := by
  have key : sub.entry.key = k := (Holder.reader.inj (attends.readers _ sub found)).symm
  have known := Cache.known?_of_holds (h.poised.coherent.holds_of_find? found)
  have count := attends.subscriberCount h.poised.coherent k
  rw [key] at known
  rw [Cache.subscriberCount_eq, known, ← attends.warm, Registry.contains, found] at count
  exact ⟨key, known, count⟩

theorem letGo_eq (h : Tracks s m) (k : Key) :
    s.letGo (.reader k) = { s with timed := s.timed.release (.reader k) } :=
  Session.closeIfUnowned_of_handle h.poised.handle

theorem letGo (h : Tracks s m) (attends : Attends s.cache m.warm) (idle : s.cache.tasks = [])
    (k : Key) : Tracks (s.letGo (.reader k)) (m.release k).1 := by
  have alone := h.letGo_eq k
  have spares := (Session.Does.letGo (s := s) (.reader k) (by simp)).effect.spares
  have cold := h.rewarm (m.warm.erase k)
  have listed := attends.warm k
  rw [alone] at spares ⊢
  unfold Memo.release Memo.isWarm
  cases found : s.cache.observers.find? (.reader k) with
  | none =>
      rw [Registry.contains, found] at listed
      have same : s.timed.release (.reader k) = s.timed := by
        simp only [TimedCache.release, Cache.release, found]
      rw [same, ← listed]
      exact cold
  | some sub =>
      rw [Registry.contains, found] at listed
      rw [← listed]
      obtain ⟨key, held, one⟩ := h.held_of_warm attends found
      have calm := h.poised.calm_of_idle idle held
      have known := h.poised.coherent.known?_release found
      rw [key] at known
      have left : (s.timed.release (.reader k)).cache.known? k =
          if m.settings.retention = .whileObserved then none
          else some (s.cache.entry sub.entry).unsubscribe := by
        refine (known k).trans ?_
        simp [Entry.unsubscribe, one, h.settings]
      refine cold.change k (.release _) spares (Memo.frame_forget _ k)
        (Cell.leave (m.settings.retention = .whileObserved)) ?_ ?_ fun k' => ?_
      · intro k' other
        exact (known k').trans (if_neg other)
      · rw [cold.cells]
        change Phase.cell _ _ (((s.timed.release (.reader k)).cache.known? k).map _) =
          Cell.leave _ (m.cell k)
        rw [left, h.cell_of_idle idle, held]
        exact Entry.cell_unsubscribed calm _
      · refine (Memo.cell_forget _ k k').trans ?_
        simp [Memo.isWarm, Registry.contains]

/-! ## One wait -/

/-- The entry of a key with one subscription more. -/
abbrev asked (s : Session) (k : Key) : Entry Failure Value :=
  (s.cache.subscribe k).1.entry (s.cache.subscribe k).2.entry

theorem cell_asked (h : Tracks s m) (k : Key) :
    Phase.cell (m.compute k) (Tally.count s.called k) (some (asked s k).phase) =
      (m.fetch k).1.cell k := by
  rw [asked, h.poised.coherent.entry_subscribe, m.cell_fetch, if_pos rfl, ← h.cells]
  exact Entry.cell_demand _

theorem settled_asked (h : Tracks s m) (k : Key) (o : Outcome Failure Value) :
    (asked s k).latest.settled? = some o ↔ (asked s k).phase = .settled o := by
  have made : Course (fun _ => True) s.cache _ _ := h.poised.coherent.subscribe k
  exact (made.coherent.sound _).settled?_latest o

theorem await_eq (h : Tracks s m) (x : Option (Holder Key)) (k : Key) :
    s.timed.await x k =
      ({ s.timed with cache := (s.cache.await x k).1 }, (s.cache.await x k).2) := by
  unfold TimedCache.await
  rw [TimedCache.armIfAbsent_of_untimed h.poised.untimed]

/-- The subscribers of a key while one more waits for it. -/
theorem subscribers_asked (h : Tracks s m) (attends : Attends s.cache m.warm) (k : Key) :
    (asked s k).subscribers = (if m.isWarm k then 1 else 0) + 1 := by
  have count := attends.subscriberCount h.poised.coherent k
  rw [Cache.subscriberCount_eq] at count
  rw [asked, h.poised.coherent.entry_subscribe]
  dsimp only
  rw [count, Memo.isWarm]

/-- When a wait ends, its key is forgotten unless it is warm. -/
theorem cell_left {e : Entry Failure Value}
    (count : e.subscribers = (if m.isWarm k then 1 else 0) + 1)
    (calm : e.phase.isComputing = false) (retention : Retention) (n : Nat) :
    Phase.cell (m.compute k) n ((if retention = .whileObserved ∧ e.unsubscribe.subscribers = 0
      then none else some e.unsubscribe).map (·.phase)) =
    Cell.leave (retention = .whileObserved ∧ m.isWarm k = false) (some e.phase, n) := by
  have last : e.unsubscribe.subscribers = 0 ↔ m.isWarm k = false := by
    rw [Entry.unsubscribe_subscribers, count]
    cases m.isWarm k <;> simp
  rw [Entry.cell_unsubscribed calm]
  unfold Cell.leave
  simp only [last]

theorem await_settled (h : Tracks s m) (attends : Attends s.cache m.warm) (k : Key)
    {o : Outcome Failure Value} (settled : (asked s k).phase = .settled o) (n : Name) :
    Tracks { s with timed := (s.timed.await (some (.waiter n)) k).1 } ((m.fetch k).1.forget k) ∧
      (s.timed.await (some (.waiter n)) k).2 = some (m.fetch k).2 ∧
      (s.timed.await (some (.waiter n)) k).1.cache.observers = s.cache.observers := by
  have hc := h.poised.coherent
  have made : Course (fun _ => True) s.cache _ _ := hc.subscribe k
  have key := (Cache.subscribe_held hc k).2
  have answer := Cache.await_of_settled ((h.settled_asked k o).2 settled) (some (.waiter n))
  have cell := h.cell_asked k
  rw [settled] at cell
  have fetched := m.fetch_cell k
  rw [← cell] at fetched
  obtain rfl : o = (m.fetch k).2 := by simpa [Phase.cell] using fetched
  have asking : Coherent (s.cache.asking k) [(s.cache.subscribe k).2.entry] := made.coherent.note _
  have left := asking.known?_unsubscribe
  have awaited : (s.timed.await (some (.waiter n)) k).1.cache =
      (s.cache.asking k).unsubscribe (s.cache.subscribe k).2.entry := by rw [h.await_eq, answer]
  rw [key] at left
  refine ⟨?_, by rw [h.await_eq, answer], by
    rw [awaited, Cache.unsubscribe_observers]; exact Cache.subscribe_observers _ _⟩
  refine h.change k (.await _ k) (Session.Does.await (some n) k).effect.spares (m.frame_read k)
    (fun x => (x.asked (m.compute k)).leave
      (m.settings.retention = .whileObserved ∧ m.isWarm k = false)) ?_ ?_ fun k' => ?_
  · intro k' other
    rw [awaited, left, if_neg other]
    exact (hc.known?_subscribe k k').trans (if_neg other)
  · have count := h.subscribers_asked attends k
    have calm : (asked s k).phase.isComputing = false := by rw [settled]; rfl
    change Phase.cell _ _ (((s.timed.await (some (.waiter n)) k).1.cache.known? k).map _) = _
    rw [awaited, left, if_pos rfl]
    refine (cell_left count calm _ _).trans ?_
    have settings : (s.cache.asking k).settings = m.settings := made.settings.trans h.settings
    rw [← Phase.cell_of_calm calm, h.cell_asked, m.cell_fetch, if_pos rfl, settings, h.cells]
  · exact m.cell_fetch_forget k k'

theorem await_pending (h : Tracks s m) {k : Key}
    (pending : ∀ o, (asked s k).phase ≠ .settled o) {n : Name}
    (free : s.cache.observers.find? (.waiter n) = none) :
    let t := (s.timed.await (some (.waiter n)) k).1
    Tracks { s with timed := t } (m.fetch k).1 ∧
      (s.timed.await (some (.waiter n)) k).2 = none ∧
      t.cache.observers = s.cache.observers.insert (.waiter n)
        ⟨(s.cache.subscribe k).2.entry, some (asked s k).channel.version⟩ ∧
      t.cache.known? k = some (asked s k) := by
  have hc := h.poised.coherent
  have unanswered : (asked s k).latest.settled? = none := by
    cases answer : (asked s k).latest.settled? with
    | none => rfl
    | some o => exact absurd ((h.settled_asked k o).1 answer) (pending o)
  have held := Cache.await_of_pending free unanswered
  have known : (s.timed.await (some (.waiter n)) k).1.cache.known? =
      (s.cache.subscribe k).1.known? := by
    rw [h.await_eq, held]
    rfl
  obtain ⟨holds, key⟩ := Cache.subscribe_held hc k
  refine ⟨?_, by rw [h.await_eq, held], by rw [h.await_eq, held], ?_⟩
  · refine h.change k (.await _ k) (Session.Does.await (some n) k).effect.spares
      (m.frame_fetch k) (Cell.asked (m.compute k)) ?_ ?_ (m.cell_fetch k)
    · intro k' other
      rw [known, hc.known?_subscribe, if_neg other]
    · change Phase.cell _ _ (((s.timed.await (some (.waiter n)) k).1.cache.known? k).map _) = _
      rw [known, hc.known?_subscribe, if_pos rfl, Option.map_some]
      exact Entry.cell_demand _
  · have own := Cache.known?_of_holds holds
    rwa [key, ← known] at own

/-- A wait whose computation has ended is answered and lets go. -/
theorem resume_settled (h : Tracks s m) (idle : s.cache.tasks = []) {n : Name}
    {sub : Subscription Key} (found : s.cache.observers.find? (.waiter n) = some sub)
    {o : Outcome Failure Value} (current : (m.cell sub.entry.key).1 = some (.settled o))
    (unseen : sub.seen ≠ some (s.cache.entry sub.entry).channel.version)
    (count : (s.cache.entry sub.entry).subscribers =
      (if m.isWarm sub.entry.key then 1 else 0) + 1) :
    Tracks { s with timed := (s.timed.resume (.waiter n)).1 } (m.forget sub.entry.key) ∧
      (s.timed.resume (.waiter n)).2 = some o ∧
      ∀ y, (s.timed.resume (.waiter n)).1.cache.observers.find? y =
        if .waiter n = y then none else s.cache.observers.find? y := by
  have hc := h.poised.coherent
  have known := Cache.known?_of_holds (hc.holds_of_find? found)
  have phase : (s.cache.entry sub.entry).phase = .settled o := by
    rw [h.cell_of_idle idle, known] at current
    exact Option.some.inj current
  have latest : (s.cache.entry sub.entry).channel.latest = o.withProgress .done := by
    have shown := (hc.sound sub.entry).shown
    rw [phase] at shown
    exact shown
  have given : (s.cache.entry sub.entry).channel.unseen sub.seen = some (o.withProgress .done) := by
    rw [Channel.unseen, if_neg unseen, latest]
  obtain ⟨view, entry, seen⟩ := Cache.poll_of_unseen found given
  have polled : Course (fun _ => True) s.cache (s.cache.poll (.waiter n)).1 [] := hc.poll _
  have resumed : s.timed.resume (.waiter n) =
      ({ s.timed with cache := (s.cache.poll (.waiter n)).1.release (.waiter n) }, some o) := by
    unfold TimedCache.resume
    rw [TimedCache.poll_of_untimed h.poised.untimed, view]
    rfl
  have left := polled.coherent.known?_release seen
  rw [entry, polled.settings, h.settings] at left
  have alone : ({ s with timed := (s.timed.resume (.waiter n)).1 } : Session).closeIfUnowned =
      { s with timed := (s.timed.resume (.waiter n)).1 } :=
    Session.closeIfUnowned_of_handle h.poised.handle
  have spares := (Session.Does.resume (s := s) n).effect.spares
  rw [alone] at spares
  have cache : (s.timed.resume (.waiter n)).1.cache =
      (s.cache.poll (.waiter n)).1.release (.waiter n) := by rw [resumed]
  refine ⟨?_, by rw [resumed], fun y => ?_⟩
  · refine h.change sub.entry.key (.resume _) spares (m.frame_forget _)
      (Cell.leave (m.settings.retention = .whileObserved ∧ m.isWarm sub.entry.key = false))
      ?_ ?_ fun k' => m.cell_forget _ k'
    · intro k' other
      rw [cache, left, if_neg other, Cache.known?_poll]
    · have calm : (s.cache.entry sub.entry).phase.isComputing = false := by rw [phase]; rfl
      change Phase.cell _ _ (((s.timed.resume (.waiter n)).1.cache.known? _).map _) = _
      rw [cache, left, if_pos rfl, h.cells, h.cell_of_idle idle, known]
      exact cell_left count calm _ _
  · rw [cache, Cache.find?_release]
    split
    next => rfl
    next other => exact Cache.find?_poll_of_ne _ _ _ other

/-- Whoever asks for a key that has no current outcome launches a computation or meets one. -/
theorem computing_asked (h : Tracks s m) {k : Key} (pending : ∀ o, (asked s k).phase ≠ .settled o) :
    (asked s k).phase.isComputing = true := by
  have busy : (asked s k).phase.isIdle = false := by
    rw [asked, h.poised.coherent.entry_subscribe]
    exact Entry.demand_not_idle _
  cases hp : (asked s k).phase with
  | computing l previous => rfl
  | settled o => exact absurd hp (pending o)
  | empty | stale previous => rw [hp] at busy; cases busy

/-- The wait and the computation that it waits for, which ends before the wait goes on. -/
theorem wait_pending (h : Tracks s m) (attends : Attends s.cache m.warm) {k : Key}
    (pending : ∀ o, (asked s k).phase ≠ .settled o) (n : Name) :
    let s₁ : Session := { s with timed := (s.timed.await (some (.waiter n)) k).1 }
    let s₂ := (s₁.pollEach s₁.cache.tasks).1
    Session.Ended m.compute s₂ →
      (s₂.timed.resume (.waiter n)).2 = some (m.fetch k).2 ∧
      Tracks { s₂ with timed := (s₂.timed.resume (.waiter n)).1 } ((m.fetch k).1.forget k) ∧
      Attends (s₂.timed.resume (.waiter n)).1.cache m.warm := by
  intro s₁ s₂ ended
  obtain ⟨waits, -, observers, known⟩ := h.await_pending pending (attends.waiter_free n)
  have waits : Tracks s₁ (m.fetch k).1 := waits
  obtain ⟨-, -, compute, warming⟩ := Memo.of_frame (m.frame_fetch k)
  rw [← compute] at ended
  obtain ⟨done, idle⟩ := waits.poised.pollEach s₁.cache.tasks rfl ended
  have after : Tracks s₂ (m.fetch k).1 := waits.concludes done
  have key := (Cache.subscribe_held h.poised.coherent k).2
  have busy := h.computing_asked pending
  let sub : Subscription Key :=
    ⟨(s.cache.subscribe k).2.entry, some (asked s k).channel.version⟩
  have held : s₂.cache.observers = s.cache.observers.insert (.waiter n) sub :=
    done.observers.trans observers
  have found : s₂.cache.observers.find? (.waiter n) = some sub := by
    rw [held, Registry.find?_insert_self]
  -- The entry has published the outcome since the waiter looked at it.
  have entry : s₂.cache.entry sub.entry =
      (asked s k).concluded s₁.cache.settings.stale (Session.next (m.fetch k).1.compute s₁ k) := by
    have own := Cache.known?_of_holds (after.poised.coherent.holds_of_find? found)
    have computes : s₁.computes k = true := by
      unfold Session.computes
      rw [show s₁.cache.known? k = _ from known, Option.any_some, busy]
    rw [show sub.entry.key = k from key, done.known, if_pos computes,
      show s₁.cache.known? k = _ from known, Option.map_some,
      Entry.finished_of_computing busy] at own
    exact (Option.some.inj own).symm
  have warm : (m.fetch k).1.isWarm k = m.isWarm k := by rw [Memo.isWarm, warming, Memo.isWarm]
  obtain ⟨tracks, answer, rest⟩ := after.resume_settled idle found (o := (m.fetch k).2)
    (by rw [show sub.entry.key = k from key]; exact m.fetch_cell k)
    (by
      rw [entry]
      exact fun same => Nat.succ_ne_self _ (Option.some.inj same).symm)
    (by
      rw [entry, show sub.entry.key = k from key, warm]
      exact h.subscribers_asked attends k)
  rw [show sub.entry.key = k from key] at tracks
  refine ⟨answer, tracks, attends.congr fun y => ?_⟩
  rw [rest, held, Registry.find?_insert]
  split
  next same => rw [← same, attends.waiter_free n]
  next => rfl

end Tracks

end LiveCache
