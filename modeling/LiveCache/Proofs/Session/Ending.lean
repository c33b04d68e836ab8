import LiveCache.Proofs.Session.Holding
import LiveCache.Proofs.Session.Ticks

/-! # The end of a session

A cache lives exactly as long as somebody owns it. When the last owner is gone every task that is
still listed has been told to stop, and from then on nothing happens but that these tasks leave the
list.
-/

namespace LiveCache

namespace Cache

variable {κ ε α : Type} [DecidableEq κ] {c : Cache κ ε α} {loose : List (EntryId κ)}

theorem foldl_abort_entry (l : List (EntryId κ)) (nodup : l.Nodup) (c : Cache κ ε α)
    (j : EntryId κ) :
    (l.foldl (fun c i => c.put i (c.entry i).abort) c).entry j =
      if j ∈ l then (c.entry j).abort else c.entry j := by
  induction l generalizing c with
  | nil => simp
  | cons i rest ih =>
      obtain ⟨new, nodup⟩ := List.nodup_cons.1 nodup
      rw [List.foldl_cons, ih nodup]
      by_cases here : i = j
      · subst here
        simp [new]
      · rw [entry_put_of_ne _ _ here]
        simp [Ne.symm here]

theorem close_entry (c : Cache κ ε α) (j : EntryId κ) :
    c.close.entry j = if j ∈ c.ids then (c.entry j).abort else c.entry j :=
  foldl_abort_entry c.ids (.of_map _ (nodup_ids_keys c)) c j

theorem close_tasks (c : Cache κ ε α) : c.close.tasks = c.tasks := by
  unfold close
  generalize c.ids = l
  induction l generalizing c with
  | nil => rfl
  | cons i rest ih => exact ih _

/-- When the cache ends every task is told to stop that was not told so before. -/
theorem Coherent.isAborted_close (h : Coherent c loose) {u : Task κ} (listed : u ∈ c.tasks) :
    c.close.isAborted u = true := by
  rw [isAborted, close_entry, decide_eq_true_eq]
  cases stopped : c.isAborted u with
  | true =>
      have before : u.launch.number ∈ (c.entry u.entry).aborted := of_decide_eq_true stopped
      split
      next => exact Entry.aborted_subset_abort _ before
      next => exact before
  | false =>
      obtain ⟨previous, hp⟩ := h.live u listed stopped
      rw [if_pos ((mem_ids_iff c _).2 (h.holds_of_computing hp))]
      exact Entry.abort_ended hp

end Cache

namespace TimedCache

variable {κ ε α : Type} [DecidableEq κ] (t : TimedCache κ ε α) (x : Holder κ) (k : κ)

theorem size_observers_observe :
    t.cache.observers.size ≤ (t.observe x k).cache.observers.size := by
  simp only [observe, Cache.observe, Cache.hold_observers, Cache.subscribe_observers,
    armIfAbsent_observers]
  exact Registry.size_le_insert _ _ _

theorem size_observers_poll : (t.poll x).1.cache.observers.size = t.cache.observers.size := by
  rw [poll_observers]
  unfold Cache.poll
  cases found : t.cache.observers.find? x with
  | none => rfl
  | some s =>
      dsimp only
      split
      next => rfl
      next => exact Registry.size_insert_of_some found _

theorem passes_resume {P : Entry.Act ε α → Prop} (kinds : ∀ a : Entry.Act ε α, a.parts → P a) :
    Cache.Passes P t.cache (t.resume x).1.cache := by
  unfold TimedCache.resume
  dsimp only
  split
  next => exact passes_poll t x
  next => exact (passes_poll t x).trans (Cache.passes_release kinds _ x)

theorem size_observers_await (x : Option (Holder κ)) :
    t.cache.observers.size ≤ (t.await x k).1.cache.observers.size := by
  cases x with
  | none => simp [await, Cache.await_none_observers]
  | some x =>
      simp only [await, Cache.await_observers, armIfAbsent_observers]
      split
      next => exact Registry.size_le_insert _ _ _
      next => exact Nat.le_refl _

end TimedCache

namespace Session

open Cache (Coherent Passes Routine)
open Entry (Act)
open TimedCache (Deed)

variable {s s' : Session}

/-! ## Who keeps the cache alive -/

structure Governed (s : Session) : Prop where
  coherent : Coherent s.cache []
  living : s.cache.alive = true ↔ 0 < s.owners
  stopped : s.cache.alive = false → ∀ u ∈ s.cache.tasks, s.cache.isAborted u = true

theorem Governed.owned (h : Governed s) : Owned s := by
  intro dead
  have none := mt h.living.2 (by simp [dead])
  omega

theorem Governed.alive (h : Governed s) (owned : 0 < s.owners) : s.cache.alive = true :=
  h.living.2 owned

theorem Governed.dead (h : Governed s) (unowned : s.owners = 0) : s.cache.alive = false := by
  have := h.living
  cases alive : s.cache.alive with
  | false => rfl
  | true => exact absurd (this.1 alive) (by omega)

theorem governed_start (settings : Settings) (ttl : Option Nat) (plan : Plan) :
    Governed (start settings ttl plan) where
  coherent := Cache.coherent_ofSettings settings
  living := by simp [start, cache, owners, Cache.ofSettings, Registry.size, Registry.insert,
    Registry.insertIn, Registry.empty]
  stopped := by simp [start, cache, Cache.ofSettings]

/-- What concerns neither the cache nor its owners. -/
theorem Governed.congr (h : Governed s) (cache : s'.cache = s.cache)
    (owners : s'.owners = s.owners) : Governed s' := by
  obtain ⟨coherent, living, stopped⟩ := h
  exact ⟨by rwa [cache], by rwa [cache, owners], by rwa [cache]⟩

theorem governed_of_alive (coherent : Coherent s.cache []) (alive : s.cache.alive = true)
    (owned : 0 < s.owners) : Governed s where
  coherent := coherent
  living := by simp [alive, owned]
  stopped := by simp [alive]

theorem closeIfUnowned_of_owned (owned : 0 < s.owners) : s.closeIfUnowned = s := by
  unfold closeIfUnowned
  rw [if_neg]
  omega

theorem closeIfUnowned_of_dead (dead : s.cache.alive = false) : s.closeIfUnowned = s := by
  unfold closeIfUnowned
  rw [if_neg (by simp [dead])]

theorem owners_closeIfUnowned (s : Session) : s.closeIfUnowned.owners = s.owners := by
  have observers := closeIfUnowned_observers s
  have objects : s.closeIfUnowned.handles = s.handles ∧ s.closeIfUnowned.backbones = s.backbones ∧
      s.closeIfUnowned.refs = s.refs := by
    unfold closeIfUnowned
    split <;> exact ⟨rfl, rfl, rfl⟩
  simp only [owners, observers, objects]

/-- A session that may have lost its last owner is looked after. -/
theorem governed_closeIfUnowned (coherent : Coherent s.cache []) (alive : s.cache.alive = true) :
    Governed s.closeIfUnowned := by
  rcases Nat.eq_zero_or_pos s.owners with none | owned
  · have none' : s.closeIfUnowned.owners = 0 := (owners_closeIfUnowned s).trans none
    have ended : s.closeIfUnowned.cache = s.cache.close := by
      unfold closeIfUnowned
      rw [if_pos ⟨alive, none⟩]
    have close : Cache.Course (fun _ => True) { s.cache with alive := false } s.cache.close [] :=
      coherent.close
    refine ⟨by rw [ended]; exact close.coherent, ?_, ?_⟩
    · rw [ended, close.alive, none']
      simp
    · rw [ended]
      intro _ u listed
      rw [Cache.close_tasks] at listed
      exact coherent.isAborted_close listed
  · rw [closeIfUnowned_of_owned owned]
    exact governed_of_alive coherent alive owned

/-- What is done with a cache that goes on. -/
theorem Governed.deed (h : Governed s) (owned : 0 < s.owners)
    {t : TimedCache Key Failure Value} (deed : Deed s.timed t)
    (more : s.cache.observers.size ≤ t.cache.observers.size) : Governed { s with timed := t } :=
  governed_of_alive ((deed.paces h.coherent).coherent h.coherent)
    ((deed.paces h.coherent).keeps.2.trans (h.alive owned))
    (Nat.lt_of_lt_of_le owned (Nat.add_le_add_left more _))

theorem Governed.deed_of_same (h : Governed s) (owned : 0 < s.owners)
    {t : TimedCache Key Failure Value} (deed : Deed s.timed t)
    (same : t.cache.observers = s.cache.observers) : Governed { s with timed := t } :=
  h.deed owned deed (Nat.le_of_eq (congrArg Registry.size same.symm))

theorem Governed.close (h : Governed s) (owned : 0 < s.owners) (deed : Deed s.timed s'.timed) :
    Governed s'.closeIfUnowned :=
  governed_closeIfUnowned ((deed.paces h.coherent).coherent h.coherent)
    ((deed.paces h.coherent).keeps.2.trans (h.alive owned))

theorem Governed.does (h : Governed s) (owned : 0 < s.owners) (does : Does s s') :
    Governed s' := by
  cases does with
  | gains timed work called inner owners =>
      refine governed_of_alive ?_ ?_ (Nat.lt_of_lt_of_le owned owners)
      · rw [cache, timed]
        exact h.coherent
      · rw [cache, timed]
        exact h.alive owned
  | drops timed work called inner =>
      refine governed_closeIfUnowned ?_ ?_
      · rw [cache, timed]
        exact h.coherent
      · rw [cache, timed]
        exact h.alive owned
  | observe n k =>
      exact h.deed owned (.observe _ k) (TimedCache.size_observers_observe s.timed _ k)
  | glance k => exact h.deed_of_same owned (.glance k) (by simp [TimedCache.glance])
  | snapshot k => exact h.deed_of_same owned (.snapshot k) (by simp [TimedCache.snapshot])
  | poll n =>
      exact h.deed owned (.poll _) (Nat.le_of_eq (TimedCache.size_observers_poll s.timed _).symm)
  | await keep k => exact h.deed owned (.await _ k) (TimedCache.size_observers_await s.timed k _)
  | resume n => exact h.close owned (.resume (.waiter n))
  | letGo x other => exact h.close owned (.release x)
  | set k v => exact h.deed_of_same owned (.set k v) (by simp [TimedCache.set])
  | expire k => exact h.deed_of_same owned (.expire k) (by simp [TimedCache.expire])
  | expireAll =>
      exact h.deed_of_same owned (deed_expireAll s) (Cache.expireAll_observers s.cache)
  | sweep => exact h.deed_of_same owned (.sweep _) (Cache.sweep_observers s.cache)

/-! ## Sessions without owners -/

/-- Nothing has happened but that tasks have left the list. -/
structure Inert (s s' : Session) : Prop where
  cache : s'.cache = { s.cache with tasks := s'.cache.tasks }
  tasks : s'.cache.tasks.Sublist s.cache.tasks
  called : s'.called = s.called
  owners : s'.owners = s.owners

theorem inert_of_same (cache : s'.cache = s.cache) (called : s'.called = s.called)
    (owners : s'.owners = s.owners) : Inert s s' where
  cache := by rw [cache]
  tasks := by rw [cache]
  called := called
  owners := owners

theorem Inert.trans {s'' : Session} (h₁ : Inert s s') (h₂ : Inert s' s'') : Inert s s'' where
  cache := by
    rw [h₂.cache, h₁.cache]
  tasks := h₂.tasks.trans h₁.tasks
  called := h₂.called.trans h₁.called
  owners := h₂.owners.trans h₁.owners

/-- In a session without owners a task leaves with its computation, and nothing follows. -/
theorem discard_of_unowned (unowned : s.owners = 0) (dead : s.cache.alive = false)
    (x : TaskId Key) : s.discard x = s.without x := by
  rw [discard_of_unheld (find?_of_unowned unowned _)]
  exact closeIfUnowned_of_dead dead

/-- What may happen when nobody owns the cache. -/
structure Fades (s s' : Session) : Prop where
  cache : s'.cache = s.cache ∨ ∃ x, s'.cache = s.cache.removeTask x
  called : s'.called = s.called
  owners : s'.owners = s.owners

theorem Governed.fades (h : Governed s) (unowned : s.owners = 0) (tick : Tick s s') :
    Fades s s' := by
  have dead := h.dead unowned
  have free := fun x => find?_of_unowned unowned (.computation x)
  have stays : ∀ s' : Session, s'.cache = s.cache → s'.called = s.called → s'.owners = s.owners →
      Fades s s' := fun _ cache called owners => ⟨.inl cache, called, owners⟩
  cases tick with
  | stir stir =>
      cases stir with
      | command c =>
          rw [execute_of_unowned unowned c]
          exact stays s rfl rfl rfl
      | answer | pause => exact stays _ rfl rfl rfl
      | await x k handle =>
          rw [alive_of_handle h.owned handle] at dead
          cases dead
      | resume x =>
          rw [resume_of_unheld (free x), closeIfUnowned_of_dead dead]
          exact stays _ rfl rfl rfl
  | call u listed spared =>
      rw [h.stopped dead u listed] at spared
      cases spared
  | keep x r => exact stays _ rfl rfl rfl
  | finish u listed r c =>
      rw [afterPoll_finished_of_dead dead]
      exact ⟨.inr ⟨u.id, rfl⟩, rfl, rfl⟩
  | leave u listed =>
      rw [discard_of_unowned unowned dead]
      exact ⟨.inr ⟨u.id, rfl⟩, rfl, rfl⟩
  | pass time => exact stays _ rfl rfl rfl
  | fire timer =>
      rw [fire_of_dead dead]
      exact stays _ rfl rfl rfl
  | fireDue =>
      have same : s.timed.fireDue.cache = s.cache := fireDue_of_dead dead
      refine stays _ same rfl ?_
      simp only [owners, Session.cache, same]

theorem Fades.inert (fades : Fades s s') : Inert s s' where
  cache := by
    rcases fades.cache with same | ⟨x, same⟩ <;> rw [same]
    rfl
  tasks := by
    rcases fades.cache with same | ⟨x, same⟩ <;> rw [same]
    exact List.filter_sublist
  called := fades.called
  owners := fades.owners

theorem Fades.governed (fades : Fades s s') (h : Governed s) : Governed s' := by
  rcases fades.cache with same | ⟨x, same⟩
  · exact h.congr same fades.owners
  · have living := h.living
    refine ⟨by rw [same]; exact h.coherent.removeTask x,
      by rw [same, fades.owners]; exact living, ?_⟩
    rw [same]
    exact fun dead u listed => h.stopped dead u ((Cache.mem_removeTask _ _ _).1 listed).1

/-! ## Ticks -/

theorem Governed.discard (h : Governed s) (owned : 0 < s.owners) (x : TaskId Key) :
    Governed (s.discard x) := by
  have removed := h.coherent.removeTask x
  have released : Cache.Course (fun _ => True) (s.cache.removeTask x)
      ((s.cache.removeTask x).release (.computation x)) [] := removed.release _
  exact governed_closeIfUnowned released.coherent (released.alive.trans (h.alive owned))

theorem owners_afterPoll_finished (s : Session) (u : Task Key) (r : Option Running)
    (c : Conclusion) : (s.afterPoll u r (.finished c)).1.owners = s.owners := by
  have observers := (afterPoll_finished s u r c).1
  unfold owners
  rw [observers]
  cases alive : s.cache.alive with
  | true =>
      obtain ⟨o, report, eq⟩ := afterPoll_finished_of_alive alive u r c
      rw [eq]
  | false => rw [afterPoll_finished_of_dead alive]

theorem Governed.finish (h : Governed s) (owned : 0 < s.owners) {u : Task Key}
    (listed : u ∈ s.cache.tasks) (r : Option Running) (c : Conclusion) :
    Governed (s.afterPoll u r (.finished c)).1 := by
  have alive := h.alive owned
  have owners := owners_afterPoll_finished s u r c
  obtain ⟨o, report, eq⟩ := afterPoll_finished_of_alive alive u r c
  have ending := h.coherent.ending listed report
  have settled := ending.settle o
  refine governed_of_alive ?_ ?_ ?_
  · rw [eq]
    exact settled.coherent
  · rw [eq]
    exact settled.alive.trans (ending.alive.trans alive)
  · rwa [owners]

theorem Governed.tick (h : Governed s) (tick : Tick s s') : Governed s' := by
  rcases Nat.eq_zero_or_pos s.owners with unowned | owned
  · exact (h.fades unowned tick).governed h
  · cases tick with
    | stir stir =>
        cases stir with
        | command c => exact h.does owned (execute_does s c)
        | answer | pause => exact h.congr rfl rfl
        | await x k handle =>
            exact h.deed owned (.await _ k) (TimedCache.size_observers_await s.timed k _)
        | resume x => exact h.close owned (.resume (.computation x))
    | call u listed spared => exact governed_of_alive (h.coherent.note _) (h.alive owned) owned
    | keep x r => exact h.congr rfl rfl
    | finish u listed r c => exact h.finish owned listed r c
    | leave u listed => exact h.discard owned u.id
    | pass time => exact h.congr rfl rfl
    | fire timer =>
        have paces := TimedCache.paces_fire h.coherent timer
        have alive := paces.keeps.2.trans (h.alive owned)
        refine governed_of_alive (paces.coherent h.coherent) alive ?_
        have observers := TimedCache.fire_observers s.timed timer
        simp only [owners, cache, observers]
        exact owned
    | fireDue => exact h.deed_of_same owned .fireDue (TimedCache.fireDue_observers s.timed)

theorem Governed.ticks (h : Governed s) (ticks : Ticks s s') : Governed s' := by
  induction ticks with
  | refl => exact h
  | tail _ last ih => exact ih.tick last

/-- Nothing happens any more when the last owner is gone. -/
theorem Governed.inert (h : Governed s) (unowned : s.owners = 0) (ticks : Ticks s s') :
    Inert s s' := by
  induction ticks with
  | refl => exact inert_of_same rfl rfl rfl
  | tail before last ih =>
      exact ih.trans ((h.ticks before).fades (ih.owners.trans unowned) last).inert

/-! ## As long as somebody owns the cache -/

variable {P : Act Failure Value → Prop}

theorem passes_closeIfUnowned (ends : s.owners = 0 → P .abort) :
    Passes P s.cache s.closeIfUnowned.cache := by
  unfold closeIfUnowned
  split
  next may => exact Cache.passes_close (ends may.2) s.cache
  next => exact .refl _

/-- Commands hand in no results, and the cache ends only with its last owner. -/
theorem Does.passes (does : Does s s') (kinds : ∀ a : Act Failure Value, a.serves → P a)
    (ends : s'.owners = 0 → P .abort) : Passes P s.cache s'.cache := by
  have parts : ∀ a : Act Failure Value, a.parts → P a := fun a h => kinds a (Act.serves_of_parts h)
  cases does with
  | gains timed work called inner owners =>
      rw [cache, cache, timed]
      exact .refl _
  | @drops s₁ timed work called inner =>
      rw [owners_closeIfUnowned] at ends
      have closed := passes_closeIfUnowned ends
      rwa [show s₁.cache = s.cache from congrArg TimedCache.cache timed] at closed
  | observe n k =>
      exact ((TimedCache.passes_armIfAbsent s.timed k).trans
        (Cache.passes_subscribe (kinds _ trivial) _ k)).trans (Cache.passes_hold parts _ _ _)
  | glance k =>
      exact ((TimedCache.passes_armIfAbsent s.timed k).trans
        (Cache.passes_subscribe (kinds _ trivial) _ k)).trans (Cache.passes_unsubscribe parts _ _)
  | snapshot k =>
      exact (TimedCache.passes_armIfAbsent s.timed k).trans
        (Cache.passes_snapshot (kinds _ trivial) _ k)
  | poll n => exact TimedCache.passes_poll s.timed _
  | await keep k =>
      exact (TimedCache.passes_armIfAbsent s.timed k).trans
        (Cache.passes_await (kinds _ trivial) parts _ _ k)
  | resume n =>
      rw [owners_closeIfUnowned] at ends
      exact (TimedCache.passes_resume s.timed _ parts).trans (passes_closeIfUnowned ends)
  | letGo x other =>
      rw [Session.letGo, owners_closeIfUnowned] at ends
      exact (Cache.passes_release parts s.cache x).trans (passes_closeIfUnowned ends)
  | set k v =>
      exact (Cache.passes_set s.cache k v (kinds _ trivial)).trans
        (TimedCache.passes_arm { s.timed with cache := s.cache.set k v } k)
  | expire k => exact Cache.passes_expire (kinds _ trivial) s.cache k
  | expireAll => exact (Cache.passes_expireAll (kinds _ trivial) s.cache).congr rfl rfl rfl
  | sweep => exact (Cache.passes_sweep (kinds _ trivial) s.cache).congr rfl rfl rfl

theorem Stir.passes (stir : Stir s s') (kinds : ∀ a : Act Failure Value, a.serves → P a)
    (ends : s'.owners = 0 → P .abort) : Passes P s.cache s'.cache := by
  have parts : ∀ a : Act Failure Value, a.parts → P a := fun a h => kinds a (Act.serves_of_parts h)
  cases stir with
  | command c => exact (execute_does s c).passes kinds ends
  | answer | pause => exact .refl _
  | await x k handle =>
      exact (TimedCache.passes_armIfAbsent s.timed k).trans
        (Cache.passes_await (kinds _ trivial) parts _ _ k)
  | resume x =>
      rw [owners_closeIfUnowned] at ends
      exact (TimedCache.passes_resume s.timed _ parts).trans (passes_closeIfUnowned ends)

theorem passes_discard (s : Session) (x : TaskId Key)
    (kinds : ∀ a : Act Failure Value, a.parts → P a) (ends : (s.discard x).owners = 0 → P .abort) :
    Passes P s.cache (s.discard x).cache := by
  unfold discard letGo at ends ⊢
  rw [owners_closeIfUnowned] at ends
  have removed : Passes P s.cache (s.cache.removeTask x) := Cache.passes_of_same rfl rfl rfl
  exact (removed.trans (Cache.passes_release kinds _ _)).trans (passes_closeIfUnowned ends)

/-- As long as somebody owns the cache no computation is told to stop because it ends. -/
theorem Governed.passes (h : Governed s) (tick : Tick s s') (owned : 0 < s'.owners) :
    Passes (· ≠ .abort) s.cache s'.cache := by
  have kinds : ∀ a : Act Failure Value, a.serves → a ≠ .abort := by
    rintro a serves rfl
    exact serves
  have ends : s'.owners = 0 → Act.abort ≠ (Act.abort : Act Failure Value) := fun none => by omega
  cases tick with
  | stir stir => exact stir.passes kinds ends
  | call u listed spared => exact Cache.passes_of_same rfl rfl rfl
  | keep | pass => exact .refl _
  | finish u listed r c =>
      cases alive : s.cache.alive with
      | true =>
          obtain ⟨o, report, eq⟩ := afterPoll_finished_of_alive alive u r c
          have ending := h.coherent.ending listed report
          rw [eq]
          refine (Cache.passes_of_same ending.settings ending.entry ending.table).trans ?_
          exact Cache.passes_settle (ending.handed) o (by simp)
      | false =>
          rw [afterPoll_finished_of_dead alive]
          exact Cache.passes_of_same rfl rfl rfl
  | leave u listed =>
      exact passes_discard s u.id (fun a parts => kinds a (Act.serves_of_parts parts)) ends
  | fire timer => exact TimedCache.passes_fire (kinds .expire trivial) s.timed timer
  | fireDue => exact TimedCache.passes_fireDue (kinds .expire trivial) s.timed

/-! ## The poll in which the last owner goes -/

theorem Stirs.passes (stirs : Stirs s s') (kinds : ∀ a : Act Failure Value, a.serves → P a)
    (ends : P .abort) : Passes P s.cache s'.cache := by
  induction stirs with
  | refl => exact .refl _
  | tail _ last ih => exact ih.trans (last.passes kinds fun _ => ends)

theorem Stirs.routine (h : Governed s) (stirs : Stirs s s') : Routine s.cache s'.cache := by
  induction stirs with
  | refl => exact .refl _
  | tail before last ih => exact ih.trans (last.routine (h.ticks (Stirs.ticks before)).coherent)

theorem routine_discard (s : Session) (x : TaskId Key) :
    Routine s.cache (s.discard x).cache := by
  have removed : Routine s.cache (s.without x).cache := Cache.routine_removeTask x
  exact (removed.trans (Cache.routine_release _ _)).trans (routine_closeIfUnowned
    { s.without x with timed := (s.without x).timed.release (.computation x) })

/-- A task has left the list with its computation, and no entry has got a result. -/
structure Forfeits (s : Session) (u : Task Key) (s' : Session) : Prop where
  gone : u ∉ s'.cache.tasks
  dropped : s'.running.find? u.id = none
  passes : Passes (fun a => ∀ l o, a ≠ .settle l o) s.cache s'.cache
  routine : Routine s.cache s'.cache

theorem Forfeits.after_stirs {s₁ : Session} {u : Task Key} (h : Governed s) (stirs : Stirs s s₁)
    (forfeits : Forfeits s₁ u s') : Forfeits s u s' where
  gone := forfeits.gone
  dropped := forfeits.dropped
  passes := by
    refine (stirs.passes ?_ (by simp)).trans forfeits.passes
    rintro a serves l o rfl
    exact serves
  routine := (stirs.routine h).trans forfeits.routine

theorem Governed.forfeits_discard (h : Governed s) {u : Task Key} (listed : u ∈ s.cache.tasks) :
    Forfeits s u (s.discard u.id) where
  gone := by
    intro left
    have acted := letGo_acted (s := s.without u.id) (h.coherent.removeTask u.id) h.owned
      (.computation u.id)
    have out : u ∉ (s.without u.id).cache.tasks := by simp [without, cache, Cache.removeTask]
    -- A task that the end of a subscription adds has a number that was not given before.
    have late := acted.keeps.begun u left out
    have early := (h.coherent.named u listed).2
    exact absurd early (Nat.not_lt.2 late)
  dropped := by
    have work := congrArg Prod.snd (closeIfUnowned_work
      { s.without u.id with timed := (s.without u.id).timed.release (.computation u.id) })
    rw [show (s.discard u.id).running = s.running.erase u.id from work]
    simp
  passes := by
    refine passes_discard s u.id ?_ (by simp)
    rintro a parts l o rfl
    exact parts
  routine := routine_discard s u.id

theorem Governed.forfeits_afterPoll (h : Governed s) {u : Task Key} (listed : u ∈ s.cache.tasks)
    (r : Running) (halt : Halt) (unowned : (s.afterPoll u (some r) halt).1.owners = 0) :
    (s.afterPoll u (some r) halt).2 = true ∧ Forfeits s u (s.afterPoll u (some r) halt).1 := by
  cases halt with
  | finished c =>
      have dead : s.cache.alive = false := by
        refine h.dead ?_
        rw [← unowned]
        exact (owners_afterPoll_finished s u (some r) c).symm
      refine ⟨rfl, ?_⟩
      rw [afterPoll_finished_of_dead dead]
      exact ⟨by simp [cache, Cache.removeTask], by simp,
        Cache.passes_of_same rfl rfl rfl, Cache.routine_removeTask _⟩
  | suspended stage =>
      have kept : Governed { s with running := s.running.insert u.id { r with stage := stage } } :=
        h.congr rfl rfl
      unfold afterPoll at unowned ⊢
      dsimp only at unowned ⊢
      split at unowned
      next stopped =>
        rw [if_pos stopped]
        have discarded := kept.forfeits_discard listed
        exact ⟨rfl, discarded.gone, discarded.dropped, discarded.passes, discarded.routine⟩
      next spared => exact absurd (kept.stopped (kept.dead unowned) u listed) spared

theorem Governed.forfeits_goOn (h : Governed s) {u : Task Key} (listed : u ∈ s.cache.tasks)
    (r : Running)
    (unowned : ((s.resume u.id r).1.afterPoll u (some r) (s.resume u.id r).2).1.owners = 0) :
    ((s.resume u.id r).1.afterPoll u (some r) (s.resume u.id r).2).2 = true ∧
      Forfeits s u ((s.resume u.id r).1.afterPoll u (some r) (s.resume u.id r).2).1 := by
  have stirs := resume_stirs s u.id r
  have listed' := (resume_acted h.coherent h.owned u.id r).keeps.tasks u listed
  obtain ⟨finished, forfeits⟩ := (h.ticks stirs.ticks).forfeits_afterPoll listed' r _ unowned
  exact ⟨finished, forfeits.after_stirs h stirs⟩

theorem Forfeits.of_calling {u : Task Key} (h : Forfeits (s.calling u) u s') : Forfeits s u s' where
  gone := h.gone
  dropped := h.dropped
  passes := by
    have noted : Passes (fun a => ∀ l o, a ≠ .settle l o) s.cache (s.calling u).cache :=
      Cache.passes_of_same rfl rfl rfl
    exact noted.trans h.passes
  routine := (Cache.routine_note (by simp)).trans h.routine

/-- Whoever drops the last owner while it is polled gets no result across. -/
theorem Governed.forfeits (h : Governed s) {u : Task Key} (listed : u ∈ s.cache.tasks)
    (unowned : (s.pollTask u).1.owners = 0) :
    (s.pollTask u).2 = true ∧ Forfeits s u (s.pollTask u).1 := by
  unfold Session.pollTask at unowned ⊢
  split
  next => exact ⟨rfl, h.forfeits_discard listed⟩
  next spared =>
    rw [if_neg spared] at unowned
    split
    next new =>
      have called : Governed (s.calling u) := h.tick (.call u listed (by simpa using spared))
      rw [new] at unowned
      unfold begin at unowned ⊢
      dsimp only at unowned ⊢
      split at unowned
      next text _ =>
        -- The end of a task takes no owner away, and one was left when this task was called.
        have same := owners_afterPoll_finished (s.calling u) u none (.panic (.text text))
        have dead := called.dead (same.symm.trans unowned)
        rw [h.stopped dead u listed] at spared
        exact absurd rfl spared
      next =>
        obtain ⟨finished, forfeits⟩ := called.forfeits_goOn listed _ unowned
        exact ⟨finished, forfeits.of_calling⟩
    next r kept =>
      rw [kept] at unowned
      exact h.forfeits_goOn listed r unowned

/-! ## Whole runs -/

theorem Inert.report {a : Step} (inert : Inert s (s.step a).1) :
    (s.step a).2.events = [] ∧ (s.step a).2.status.calls = s.calls ∧
      (s.step a).2.status.tasks.Sublist (s.cache.tasks.map (·.id)) := by
  have log : (s.step a).1.cache.log = s.cache.log := by rw [inert.cache]
  refine ⟨?_, congrArg Tally.total inert.called, inert.tasks.map _⟩
  exact (congrArg (·.drop s.cache.log.length) log).trans List.drop_length

variable {settings : Settings} {ttl : Option Nat} {plan : Plan}

theorem Governed.reports (h : Governed s) (ordered : Ordered True settings ttl none s)
    (unowned : s.owners = 0) (rest : List Step) : ∀ r ∈ s.run rest,
      r.events = [] ∧ r.status.calls = s.calls ∧
        r.status.tasks.Sublist (s.cache.tasks.map (·.id)) := by
  induction rest generalizing s with
  | nil => simp [run]
  | cons a rest ih =>
      obtain ⟨next, ticks⟩ := ordered.ticks [a]
      have inert := h.inert unowned ticks
      have first := Inert.report inert
      intro r mem
      rcases List.mem_cons.1 mem with rfl | later
      · exact first
      · obtain ⟨events, calls, tasks⟩ :=
          ih (h.ticks ticks) next (inert.owners.trans unowned) r later
        exact ⟨events, calls.trans (congrArg Tally.total inert.called),
          tasks.trans (inert.tasks.map _)⟩

/-- A cache lives as long as it has owners. When the last one is gone, in every continuation tasks
leave the list and nothing else happens; a task that is left finishes at its next poll, and its
computation is dropped. A computation that drops the last owner itself gets no result across. As
long as there is an owner no computation is told to stop for want of one. -/
theorem inert_without_owners (settings : Settings) (ttl : Option Nat) (plan : Plan) :
    (∀ m, Ticks (start settings ttl plan) m →
      (m.cache.alive = true ↔ 0 < m.owners) ∧
      (m.owners = 0 → (∀ m', Ticks m m' → Inert m m') ∧
        ∀ u ∈ m.cache.tasks, m.pollTask u = (m.without u.id, true)) ∧
      (∀ u ∈ m.cache.tasks, (m.pollTask u).1.owners = 0 →
        (m.pollTask u).2 = true ∧ Forfeits m u (m.pollTask u).1) ∧
      (0 < m.owners → ∀ i l previous, (m.cache.entry i).phase = .computing l previous →
        l.number ∉ (m.cache.entry i).aborted) ∧
      ∀ m', Tick m m' → 0 < m'.owners → Passes (· ≠ .abort) m.cache m'.cache) ∧
    ∀ steps rest, let s := (start settings ttl plan).after steps
      Ticks (start settings ttl plan) s ∧
        (s.owners = 0 → ∀ r ∈ s.run rest, r.events = [] ∧ r.status.calls = s.calls ∧
          r.status.tasks.Sublist (s.cache.tasks.map (·.id))) := by
  have governed : ∀ {m}, Ticks (start settings ttl plan) m → Governed m :=
    fun ticks => (governed_start settings ttl plan).ticks ticks
  refine ⟨fun m ticks => ?_, fun steps rest => ?_⟩
  · have h := governed ticks
    refine ⟨h.living, fun unowned => ⟨fun m' later => h.inert unowned later, fun u listed => ?_⟩,
      fun u listed unowned => h.forfeits listed unowned,
      fun owned => h.coherent.running (h.alive owned), fun m' tick owned => h.passes tick owned⟩
    have dead := h.dead unowned
    rw [pollTask, if_pos (h.stopped dead u listed), discard_of_unowned unowned dead]
  · obtain ⟨ordered, ticks⟩ := (ordered_start settings ttl plan).ticks steps
    exact ⟨ticks, fun unowned => (governed ticks).reports ordered unowned rest⟩

/-- A computation drops the only handle: the task it runs in ends without a result, and the other
task that is left, which was never polled, ends when it is polled, without being called. -/
theorem inert_without_owners_dropped :
    let plan : Plan := { fallback := { steps := [.command (.dropHandle (some "main"))] } }
    let s := (start {} none plan).after
      [.command (.cache "main" (.snapshot (some "a"))),
        .command (.cache "main" (.snapshot (some "b")))]
    let first : Task Key := ⟨⟨"a", 0⟩, ⟨"a", 0⟩, ⟨0, 0⟩⟩
    let left := (s.pollTask first).1
    Ticks (start {} none plan) left ∧ left.owners = 0 ∧ left.called = s.called.bump "a" ∧
      left.cache.tasks.map (·.id) = [⟨"b", 0⟩] ∧ Forfeits s first left ∧
      ∀ u ∈ left.cache.tasks, left.pollTask u = (left.without u.id, true) := by
  intro plan s first left
  obtain ⟨ordered, before⟩ := (ordered_start {} none plan).ticks
    [.command (.cache "main" (.snapshot (some "a"))),
      .command (.cache "main" (.snapshot (some "b")))]
  have listed : first ∈ s.cache.tasks := by decide +kernel
  have unowned : left.owners = 0 := by decide +kernel
  have ticks := before.trans (pollTask_ticks ordered.coherent ordered.owned listed)
  have polled := ((inert_without_owners {} none plan).1 s before).2.2.1 first listed unowned
  have ended := ((inert_without_owners {} none plan).1 left ticks).2.1 unowned
  exact ⟨ticks, unowned, by decide +kernel, by decide +kernel, polled.2, ended.2⟩

end Session

end LiveCache
