import LiveCache.Proofs.Session.Plans
import LiveCache.Proofs.Session.Polls
import LiveCache.Proofs.Timed.Counting
import LiveCache.Proofs.Timed.Subscriptions

/-! # The subscriptions of computations

A computation holds a subscription while it awaits a key and at no other time. It holds it until it
is polled again or its task is dropped, also when the task was told to stop in the meantime.
-/

namespace LiveCache

namespace Cache

variable {κ ε α : Type} [DecidableEq κ] (c : Cache κ ε α)

/-- The holder has a subscription. -/
def holds? (x : Holder κ) : Bool := (c.observers.find? x).isSome

variable {c} {d : Cache κ ε α}

theorem holds?_congr {x : Holder κ} (same : d.observers.find? x = c.observers.find? x) :
    d.holds? x = c.holds? x := by
  rw [holds?, holds?, same]

theorem holds?_await {x : Holder κ} {k : κ} (free : c.holds? x = false) :
    (c.await (some x) k).1.holds? x = (c.await (some x) k).2.isNone := by
  rw [holds?, await_observers]
  cases (c.await (some x) k).2 with
  | none => simp
  | some o => exact free

end Cache

namespace TimedCache

variable {κ ε α : Type} [DecidableEq κ] {t : TimedCache κ ε α} {x y : Holder κ}

theorem holds?_await {k : κ} (free : t.cache.holds? x = false) :
    (t.await (some x) k).1.cache.holds? x = (t.await (some x) k).2.isNone := by
  have free' : (t.armIfAbsent k).cache.holds? x = false := by
    rw [← free]
    exact Cache.holds?_congr (by rw [armIfAbsent_observers])
  exact Cache.holds?_await free'

theorem find?_await_of_ne (k : κ) (other : x ≠ y) :
    (t.await (some x) k).1.cache.observers.find? y = t.cache.observers.find? y := by
  rw [TimedCache.await, Cache.await_observers, ← armIfAbsent_observers t k]
  split
  next => exact Registry.find?_insert_of_ne _ _ _ _ other
  next => rfl

/-- A wait that is taken up again is given up when its outcome is there. -/
theorem holds?_resume (t : TimedCache κ ε α) (x : Holder κ) :
    (t.resume x).1.cache.holds? x = ((t.resume x).2.isNone && t.cache.holds? x) := by
  have polled : (t.poll x).1.cache.holds? x = t.cache.holds? x := by
    rw [Cache.holds?, poll_observers, Cache.isSome_find?_poll, Cache.holds?]
  unfold resume
  dsimp only
  split
  next => simpa using polled
  next => simp [TimedCache.release, Cache.holds?, Cache.find?_release]

theorem find?_resume_of_ne (other : x ≠ y) :
    (t.resume x).1.cache.observers.find? y = t.cache.observers.find? y := by
  have polled : (t.poll x).1.cache.observers.find? y = t.cache.observers.find? y := by
    rw [poll_observers, Cache.find?_poll_of_ne _ _ _ other]
  unfold resume
  dsimp only
  split
  next => exact polled
  next => simpa [TimedCache.release, Cache.find?_release, other] using polled

end TimedCache

namespace Session

variable {lossy : Prop} {settings : Settings} {ttl : Option Nat} {busy : Option (TaskId Key)}
  {s s' : Session}

/-! ## One poll of a computation -/

def Stage.awaits : Stage → Bool
  | .awaiting _ _ => true
  | _ => false

def Halt.awaits : Halt → Bool
  | .suspended stage => stage.awaits
  | .finished _ => false

/-- What a poll of the computation of a task makes of the subscriptions of computations. -/
structure Resumed (s s' : Session) (x : TaskId Key) (halt : Halt) : Prop where
  own : s'.cache.holds? (.computation x) = halt.awaits
  others : ∀ y, x ≠ y →
    s'.cache.observers.find? (.computation y) = s.cache.observers.find? (.computation y)

theorem resumed_of_same {x : TaskId Key} {halt : Halt}
    (own : s.cache.holds? (.computation x) = halt.awaits) : Resumed s s x halt :=
  ⟨own, fun _ _ => rfl⟩

theorem Resumed.after {s'' : Session} {x : TaskId Key} {halt : Halt} (h : Resumed s' s'' x halt)
    (others : ∀ y, x ≠ y →
      s'.cache.observers.find? (.computation y) = s.cache.observers.find? (.computation y)) :
    Resumed s s'' x halt :=
  ⟨h.own, fun y other => (h.others y other).trans (others y other)⟩

theorem awaits_conclude (b : Behaviour) (k : Key) (call : Nat) (sum : Value) :
    (b.conclude k call sum).awaits = false := by
  unfold Behaviour.conclude
  split <;> [rfl; rfl; rfl; rfl; (split <;> rfl); rfl; rfl]

theorem awaitNeeds_resumed (x : TaskId Key) (r : Running) (needs : List Key) :
    ∀ {s : Session} (sum : Value), s.cache.holds? (.computation x) = false →
      Resumed s (s.awaitNeeds x r needs sum).1 x (s.awaitNeeds x r needs sum).2 := by
  induction needs with
  | nil => exact fun sum free => resumed_of_same (by rw [free, awaitNeeds, awaits_conclude])
  | cons k rest ih =>
      intro s sum free
      unfold awaitNeeds
      split
      next => exact resumed_of_same free
      next =>
        have own := TimedCache.holds?_await (t := s.timed) (k := k) free
        have others : ∀ y, x ≠ y →
            (s.timed.await (some (.computation x)) k).1.cache.observers.find? (.computation y) =
              s.cache.observers.find? (.computation y) := by
          intro y other
          exact TimedCache.find?_await_of_ne k (by simpa using other)
        dsimp only
        split
        next answer =>
          rw [answer] at own
          exact ⟨own, others⟩
        next f answer =>
          rw [answer] at own
          exact ⟨own, others⟩
        next v answer =>
          rw [answer] at own
          let next : Session := { s with timed := (s.timed.await (some (.computation x)) k).1 }
          exact (ih (s := next) (sum + v) own).after others

theorem foldl_carryOut_spares (steps : List Step) :
    ∀ s : Session, Spares s (steps.foldl carryOut s) := by
  induction steps with
  | nil => exact fun s => spares_of_same rfl
  | cons a rest ih =>
      intro s
      have first : Spares s (s.carryOut a) := by
        unfold carryOut
        split
        next c => exact (execute_effect s c).spares
        next => exact spares_of_same rfl
      exact first.trans (ih _)

/-- A computation holds a subscription when it is suspended because it awaits a key. -/
theorem resume_resumed {x : TaskId Key} {r : Running}
    (own : s.cache.holds? (.computation x) = r.stage.awaits) :
    Resumed s (s.resume x r).1 x (s.resume x r).2 := by
  unfold resume
  split
  next left stage =>
    rw [stage] at own
    exact ⟨own, fun _ _ => rfl⟩
  next stage =>
    rw [stage] at own
    have spares := foldl_carryOut_spares r.behaviour.steps s
    have free := (Cache.holds?_congr (spares x)).trans own
    exact (awaitNeeds_resumed x r _ 0 free).after fun y _ => spares y
  next rest sum stage =>
    rw [stage] at own
    have closed := closeIfUnowned_observers { s with timed := (s.timed.resume (.computation x)).1 }
    have held := TimedCache.holds?_resume s.timed (.computation x)
    have others : ∀ y, x ≠ y →
        ({ s with timed := (s.timed.resume (.computation x)).1 } :
          Session).closeIfUnowned.cache.observers.find? (.computation y) =
            s.cache.observers.find? (.computation y) := by
      intro y other
      rw [closed]
      exact TimedCache.find?_resume_of_ne (by simpa using other)
    rw [show s.timed.cache.holds? (.computation x) = true from own, Bool.and_true] at held
    have now := (Cache.holds?_congr (x := .computation x) (by rw [closed])).trans held
    dsimp only
    split
    next answer =>
      rw [answer] at now
      refine ⟨now.trans ?_, others⟩
      rw [Halt.awaits, stage]
      rfl
    next f answer =>
      rw [answer] at now
      exact ⟨now, others⟩
    next v answer =>
      rw [answer] at now
      exact (awaitNeeds_resumed x r rest _ now).after others
  next stage =>
    rw [stage] at own
    exact resumed_of_same own

/-! ## The tasks of computations -/

/-- The computation of a task was begun, and awaits a key. -/
def awaits (s : Session) (x : TaskId Key) : Bool := (s.running.find? x).any (·.stage.awaits)

/-- Between polls the computations that await a key hold a subscription, and no others do. A
computation that was begun and has not ended has its task in the list. -/
structure Holding (s : Session) : Prop where
  waits : ∀ x, s.cache.holds? (.computation x) = s.awaits x
  listed : ∀ x, s.running.contains x = true → ∃ u ∈ s.cache.tasks, u.id = x

theorem holding_start (settings : Settings) (ttl : Option Nat) (plan : Plan) :
    Holding (start settings ttl plan) where
  waits := fun _ => rfl
  listed := by
    intro x began
    cases began

theorem Holding.spared (h : Holding s) (spares : Spares s s') (running : s'.running = s.running)
    (tasks : ∀ u ∈ s.cache.tasks, u ∈ s'.cache.tasks) : Holding s' where
  waits := by
    intro x
    rw [awaits, running]
    exact (Cache.holds?_congr (spares x)).trans (h.waits x)
  listed := by
    intro x began
    rw [running] at began
    obtain ⟨u, hu, rfl⟩ := h.listed x began
    exact ⟨u, tasks u hu, rfl⟩

/-- The task of a computation leaves the list together with the computation and its subscription. -/
theorem Holding.part (h : Holding s) {u : TaskId Key} (running : s'.running = s.running.erase u)
    (own : s'.cache.holds? (.computation u) = false)
    (others : ∀ y, u ≠ y →
      s'.cache.observers.find? (.computation y) = s.cache.observers.find? (.computation y))
    (tasks : ∀ v ∈ s.cache.tasks, v.id ≠ u → v ∈ s'.cache.tasks) : Holding s' where
  waits := by
    intro x
    rw [awaits, running, Registry.find?_erase]
    by_cases same : u = x
    · rw [if_pos same, ← same, own]
      rfl
    · rw [if_neg same, Cache.holds?_congr (others x same)]
      exact h.waits x
  listed := by
    intro x began
    rw [running] at began
    obtain ⟨v, hv, rfl⟩ := h.listed x (contains_of_erase began)
    refine ⟨v, tasks v hv ?_, rfl⟩
    rintro rfl
    simp [Registry.contains] at began

theorem discard_observers (s : Session) (u : TaskId Key) (y : Holder Key) :
    (s.discard u).cache.observers.find? y =
      if .computation u = y then none else s.cache.observers.find? y := by
  unfold discard letGo
  rw [closeIfUnowned_observers]
  exact Cache.find?_release (s.cache.removeTask u) (.computation u) y

theorem Holding.discard (h : Holding s) {u : TaskId Key}
    (tasks : ∀ v ∈ s.cache.tasks, v.id ≠ u → v ∈ (s.discard u).cache.tasks) :
    Holding (s.discard u) := by
  apply h.part (congrArg Prod.snd (discard_work s u))
  · simp [Cache.holds?, discard_observers]
  · intro y other
    rw [discard_observers, if_neg (by simpa using other)]
  · exact tasks

/-! ## Polls -/

theorem afterPoll_finished (s : Session) (u : Task Key) (r : Option Running) (c : Conclusion) :
    (s.afterPoll u r (.finished c)).1.cache.observers = s.cache.observers ∧
      (s.afterPoll u r (.finished c)).1.running = s.running.erase u.id := by
  cases alive : s.cache.alive with
  | true =>
      obtain ⟨o, report, eq⟩ := afterPoll_finished_of_alive alive u r c
      rw [eq]
      exact ⟨by rw [cache, Cache.settle_observers, TimedCache.withdraw_observers], rfl⟩
  | false =>
      rw [afterPoll_finished_of_dead alive]
      exact ⟨rfl, rfl⟩

/-- What is left after a poll, whether it has ended the computation or suspended it. -/
theorem Holding.afterPoll (h : Holding s) {u : Task Key} {r : Running} {halt : Halt}
    (resumed : Resumed s s' u.id halt) (running : s'.running = s.running)
    (kept : ∀ v ∈ s.cache.tasks, v ∈ s'.cache.tasks) (listed : u ∈ s.cache.tasks)
    (tasks : ∀ v ∈ s'.cache.tasks, v.id ≠ u.id → v ∈ (s'.afterPoll u (some r) halt).1.cache.tasks) :
    Holding (s'.afterPoll u (some r) halt).1 := by
  cases halt with
  | finished c =>
      obtain ⟨observers, erased⟩ := afterPoll_finished s' u (some r) c
      apply h.part (u := u.id)
      · rw [erased, running]
      · rw [Cache.holds?_congr (c := s'.cache) (by rw [observers])]
        exact resumed.own
      · intro y other
        rw [observers]
        exact resumed.others y other
      · exact fun v hv other => tasks v (kept v hv) other
  | suspended stage =>
      have suspended : Holding { s' with
          running := s'.running.insert u.id { r with stage := stage } } := by
        constructor
        · intro x
          rw [awaits, Registry.find?_insert]
          by_cases same : u.id = x
          · rw [if_pos same, ← same]
            exact resumed.own
          · rw [if_neg same, running]
            exact (Cache.holds?_congr (resumed.others x same)).trans (h.waits x)
        · intro x began
          by_cases same : u.id = x
          · exact ⟨u, kept u listed, same⟩
          · rw [Registry.contains, Registry.find?_insert, if_neg same, running] at began
            obtain ⟨v, hv, rfl⟩ := h.listed x began
            exact ⟨v, kept v hv, rfl⟩
      unfold Session.afterPoll at tasks ⊢
      dsimp only at tasks ⊢
      split
      next stopped =>
        rw [if_pos stopped] at tasks
        exact suspended.discard tasks
      next => exact suspended

theorem Holding.goOn (h : Holding s) (ordered : Ordered lossy settings ttl busy s) {u : Task Key}
    (own : ∀ x, busy = some x → x = u.id) (listed : u ∈ s.cache.tasks)
    (called : .called u.id ∈ s.cache.history) {r : Running}
    (waits : s.cache.holds? (.computation u.id) = r.stage.awaits) :
    Holding ((s.resume u.id r).1.afterPoll u (some r) (s.resume u.id r).2).1 := by
  have acted := resume_acted ordered.coherent ordered.owned u.id r
  have after := (ordered.acted acted).afterPoll own (acted.keeps.tasks u listed)
    ((acted.keeps.called u.id).2 called) r (s.resume u.id r).2
  exact h.afterPoll (resume_resumed waits) acted.running acted.keeps.tasks listed after.2

theorem Holding.pollTask (h : Holding s) (ordered : Ordered lossy settings ttl none s)
    {u : Task Key} (listed : u ∈ s.cache.tasks) : Holding (s.pollTask u).1 := by
  unfold Session.pollTask
  split
  next stopped => exact h.discard (ordered.discard (by simp) listed (.inl stopped)).2
  next spared =>
    have waits := h.waits u.id
    split
    next new =>
      have begun := ordered.calling listed (by simpa using spared) new
      have calling : Holding (s.calling u) := ⟨h.waits, h.listed⟩
      rw [awaits, new] at waits
      unfold begin
      dsimp only
      split
      next text _ =>
        have after := begun.finish (by simp) listed List.mem_cons_self none (.panic (.text text))
        obtain ⟨observers, erased⟩ :=
          afterPoll_finished (s.calling u) u none (.panic (.text text))
        apply calling.part erased
        · rw [Cache.holds?_congr (c := s.cache) (by rw [observers]; rfl)]
          exact waits
        · intro y _
          rw [observers]
        · exact after.2
      next => exact calling.goOn begun (by simp) listed List.mem_cons_self waits
    next r kept =>
      have called := ordered.called u.id (by rw [Registry.contains, kept]; rfl)
      rw [awaits, kept] at waits
      exact h.goOn ordered (by simp) listed called waits

/-! ## Runs -/

theorem holding_kept : Kept lossy fun s => Ordered lossy settings ttl none s ∧ Holding s where
  distinct := fun h => h.1.coherent.distinct
  fresh := fun h => ⟨ordered_kept.fresh h.1, h.2.waits, h.2.listed⟩
  command := by
    intro s c h
    have acted := execute_acted h.1.coherent h.1.owned c
    exact ⟨h.1.acted acted,
      h.2.spared (execute_effect s c).spares acted.running acted.keeps.tasks⟩
  poll := fun u listed h =>
    ⟨⟨(h.1.pollTask listed).1, h.2.pollTask h.1 listed⟩, (h.1.pollTask listed).2⟩
  drop := by
    intro loses s u listed h
    obtain ⟨ordered, tasks⟩ := h.1.discard (by simp) listed (.inr loses)
    exact ⟨ordered, h.2.discard tasks⟩
  pass := fun time h => ⟨ordered_kept.pass time h.1, h.2.waits, h.2.listed⟩
  fire := by
    intro s h
    have acted := fireDue_acted h.1.coherent h.1.owned
    exact ⟨h.1.acted acted, h.2.spared (spares_of_same (TimedCache.fireDue_observers s.timed))
      acted.running acted.keeps.tasks⟩

end Session

namespace TimedCache

open Session (start)

variable {κ ε α : Type} [DecidableEq κ] {t : TimedCache κ ε α} {lossy : Prop}
  {settings : Settings} {ttl : Option Nat}

/-- Subscriptions stay attached and are counted exactly. The subscribers of a key are its
subscriptions. A subscription is never counted off where there is none: not in the midst of an
operation, and a move takes no operations that end a subscription but at most one, on an entry that
has one. Every subscription belongs to the entry that the table holds for its key, so what is set,
outdated or settled next is told to it; an entry outside the table has no subscription. In a run,
the subscriptions of computations are those of the listed tasks whose computation awaits a key. -/
theorem subscriptions_attached (h : Reached lossy settings ttl t) :
    (∀ k, t.cache.subscriberCount k = t.cache.observers.count fun s => s.entry.key = k) ∧
    t.Exact ∧
    (∀ t', Move lossy t t' →
      Cache.Passes (· ≠ .unsubscribe) t.cache t'.cache ∨
      ∃ (c : Cache κ ε α) (i : EntryId κ), Cache.Passes Entry.Act.asks t.cache c ∧
        0 < (c.entry i).subscribers ∧ t'.cache = c.unsubscribe i) ∧
    (∀ x s, t.cache.observers.find? x = some s →
      t.cache.current? s.entry.key = some s.entry ∧
      (∀ value, ((t.set s.entry.key value).poll x).2 = some (.known (.success value) .done)) ∧
      ((t.expire s.entry.key).cache.entry s.entry).generation =
        (t.cache.entry s.entry).generation + 1 ∧
      (t.expireAll.cache.entry s.entry).generation = (t.cache.entry s.entry).generation + 1 ∧
      (∀ o, (t.cache.entry s.entry).phase = .settled o →
        ((t.expire s.entry.key).poll x).2 = some (View.ofPrevious settings.stale (some o)) ∧
        (t.expireAll.poll x).2 = some (View.ofPrevious settings.stale (some o))) ∧
      (∀ u ∈ t.cache.tasks, u.entry.key = s.entry.key → t.cache.isAborted u = false →
        ∀ o report, (((t.cache.withdraw u report).settle u o).poll x).2 =
          some (.known o .done))) ∧
    (∀ i, ¬ t.cache.Holds i → (t.cache.entry i).subscribers = 0 ∧
      ∀ x s, t.cache.observers.find? x = some s → s.entry ≠ i) ∧
    (∀ (plan : Session.Plan) (steps : List Session.Step),
      let s := (start settings ttl plan).after steps
      ∀ x, s.cache.holds? (.computation x) = s.awaits x ∧
        (s.running.contains x = true → ∃ u ∈ s.cache.tasks, u.id = x)) := by
  have coherent := h.coherent
  refine ⟨coherent.subscriberCount, exact_of_coherent coherent,
    fun t' move => move.unsubscribes coherent, ?_, ?_, ?_⟩
  · intro x s found
    have held := coherent.holds_of_find? found
    refine ⟨held, h.told_set found, ?_, ?_, ?_, ?_⟩
    · rw [TimedCache.expire, coherent.expire_entry held, Entry.renewed_generation]
    · rw [TimedCache.expireAll, coherent.expireAll_entry held, Entry.renewed_generation]
    · exact fun o settled => ⟨h.told_expire found settled, h.told_expireAll found settled⟩
    · exact fun u listed key spared => h.told_settle found listed key spared
  · intro i out
    refine ⟨(coherent.gone out).1, fun x s found here => ?_⟩
    exact out (here ▸ coherent.holds_of_find? found)
  · intro plan steps s x
    have kept : Session.Kept True fun s =>
        Session.Ordered True settings ttl none s ∧ Session.Holding s := Session.holding_kept
    have last := kept.steps steps (fun _ _ _ => trivial)
      ⟨Session.ordered_start settings ttl plan, Session.holding_start settings ttl plan⟩
    exact ⟨last.2.waits x, last.2.listed x⟩

/-- The value of a key that somebody follows is set. -/
theorem subscriptions_attached_set :
    let asked : TimedCache Nat Nat Nat := (opened {} none).observe (.reader "r") 0
    asked.cache.subscriberCount 0 = 1 ∧ asked.cache.current? 0 = some ⟨0, 0⟩ ∧
      ((asked.set 0 5).poll (.reader "r")).2 = some (.known (.success 5) .done) := by
  intro asked
  have reached : Reached False {} none asked := .single (.deed (.observe (.reader "r") 0))
  have count : asked.cache.subscriberCount 0 = 1 :=
    ((subscriptions_attached reached).1 0).trans (by decide)
  have attached :=
    (subscriptions_attached reached).2.2.2.1 (.reader "r") ⟨⟨0, 0⟩, none⟩ (by decide)
  dsimp only at attached
  exact ⟨count, attached.1, attached.2.1 5⟩

end TimedCache

end LiveCache
