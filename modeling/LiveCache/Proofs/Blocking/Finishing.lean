import LiveCache.Blocking
import LiveCache.Proofs.Cache.Known
import LiveCache.Proofs.Session.Plans
import LiveCache.Proofs.Timed.Coalescing
import LiveCache.Proofs.Timed.Turns

/-! # Computations that come to an end

A computation of a blocking cache that ends at all is over after one poll. When every computation
that is called ends, one poll of every task concludes whatever is being computed, and what is
concluded depends on nothing but the key and the number of the call.
-/

namespace LiveCache

namespace Entry

variable {ε α : Type}

/-- The entry once the computation under way, if there is one, has ended with an outcome. -/
def finished (policy : StalePolicy) (o : Outcome ε α) (e : Entry ε α) : Entry ε α :=
  if e.phase.isComputing then e.concluded policy o else e

variable {policy : StalePolicy} {o : Outcome ε α} {e : Entry ε α}

theorem finished_of_computing (busy : e.phase.isComputing = true) :
    e.finished policy o = e.concluded policy o :=
  if_pos busy

theorem finished_calm (e : Entry ε α) : (e.finished policy o).phase.isComputing = false := by
  unfold finished
  split
  next => rfl
  next calm => simpa using calm

end Entry

namespace BlockingCache

open Session (Conclusion Key Value)

/-- What a computation comes to, if it ends. -/
def Computation.outcome? (c : Computation) (k : Key) (call : Nat) :
    Option (Outcome Failure Value) :=
  match c.panicEarly with
  | some text => some (Conclusion.panic (.text text)).result
  | none =>
      match c.behaviour.conclude k call 0 with
      | .finished c => some c.result
      | .suspended _ => none

end BlockingCache

namespace Session

open BlockingCache (Computation)
open Cache (Coherent Staffed)
open TimedCache (Deed)

variable {s s' : Session} {u : Task Key} {o : Outcome Failure Value}
  {f : Key → Nat → Outcome Failure Value}

/-- Every computation that was called so far is one that ends, with the outcome that `f` gives for
the key and the number of the call. -/
def Ended (f : Key → Nat → Outcome Failure Value) (s : Session) : Prop :=
  ∀ k call, call < Tally.count s.called k → ∃ c : Computation,
    s.plan.behaviour k call = c.behaviour ∧ c.outcome? k call = some (f k call)

theorem Ended.of_grows (h : Ended f s') (grows : Grows s s') : Ended f s := by
  intro k call made
  rw [← grows.plan]
  exact h k call (Nat.lt_of_lt_of_le made (grows.called k))

/-- The session when the result of a task was handed in. -/
abbrev concluding (s : Session) (u : Task Key) (report : Option String)
    (o : Outcome Failure Value) : Session :=
  { s.calling u with
    timed := { s.timed with cache := ((s.calling u).cache.withdraw u report).settle u o }
    running := s.running.erase u.id }

theorem concluding_observers (report : Option String) :
    (s.concluding u report o).cache.observers = s.cache.observers :=
  (Cache.settle_observers _ _ _).trans (TimedCache.withdraw_observers _ _ _)

/-- A computation has nothing to do before it ends. -/
theorem resume_computation (s : Session) (t : TaskId Key) (c : Computation) (call : Nat) :
    s.resume t ⟨c.behaviour, call, .pausing c.behaviour.pauses⟩ =
      (s, c.behaviour.conclude t.key call 0) := rfl

/-- A computation that ends is concluded when it is begun. -/
theorem begin_of_outcome? (alive : s.cache.alive = true) {c : Computation}
    (planned : s.plan.behaviour u.id.key (Tally.count s.called u.id.key) = c.behaviour)
    (ends : c.outcome? u.id.key (Tally.count s.called u.id.key) = some o) :
    ∃ report, s.begin u = (s.concluding u report o, true) := by
  have lives : (s.calling u).cache.alive = true := alive
  unfold begin
  dsimp only
  rw [planned]
  unfold Computation.outcome? at ends
  cases early : c.panicEarly with
  | some text =>
      rw [early] at ends
      obtain rfl := Option.some.inj ends
      rw [show c.behaviour.panicEarly = some text from early]
      exact ⟨_, afterPoll_concluded lives u none (.panic (.text text))⟩
  | none =>
      rw [early] at ends
      rw [show c.behaviour.panicEarly = none from early]
      dsimp only at ends ⊢
      rw [resume_computation]
      cases concluded : c.behaviour.conclude u.id.key (Tally.count s.called u.id.key) 0 with
      | finished c =>
          rw [concluded] at ends
          obtain rfl := Option.some.inj ends
          exact ⟨_, afterPoll_concluded lives u _ c⟩
      | suspended stage =>
          rw [concluded] at ends
          cases ends

theorem closeIfUnowned_of_handle (handle : s.handles.isEmpty = false) : s.closeIfUnowned = s := by
  unfold closeIfUnowned
  rw [if_neg]
  rintro ⟨-, unowned⟩
  unfold owners at unowned
  rw [s.handles.size_eq_zero_iff.1 (by omega)] at handle
  cases handle

/-! ## One task -/

/-- A session of a blocking cache between polls: no computation is halfway. -/
structure Poised (s : Session) : Prop where
  coherent : Coherent s.cache []
  alive : s.cache.alive = true
  staffed : Staffed False s.cache
  untimed : s.timed.expiration = none
  handle : s.handles.isEmpty = false
  running : ∀ x, s.running.find? x = none
  unheld : ∀ x, s.cache.observers.find? (.computation x) = none

/-- The outcome of the next call for a key. -/
abbrev next (f : Key → Nat → Outcome Failure Value) (s : Session) (k : Key) :
    Outcome Failure Value :=
  f k (Tally.count s.called k)

/-- What readers do sets no computation going. -/
theorem Poised.deed (h : Poised s) {t : TimedCache Key Failure Value} (deed : Deed s.timed t)
    (spares : Spares s { s with timed := t }) : Poised { s with timed := t } where
  coherent := (deed.paces h.coherent).coherent h.coherent
  alive := (deed.paces h.coherent).keeps.2.trans h.alive
  staffed := (deed.paces h.coherent).staffed h.staffed
  untimed := (deed.turns h.coherent).untimed h.untimed
  handle := h.handle
  running := h.running
  unheld := fun x => (spares x).trans (h.unheld x)

/-- What a session keeps while its tasks are polled. -/
structure Steady (s s' : Session) : Prop where
  settings : s'.cache.settings = s.cache.settings
  observers : s'.cache.observers = s.cache.observers

/-- The computations of the keys that are done are concluded, each by one call. -/
structure Concludes (f : Key → Nat → Outcome Failure Value) (done : Key → Bool) (s s' : Session) :
    Prop extends Steady s s' where
  poised : Poised s'
  known : ∀ k, s'.cache.known? k = if done k
    then (s.cache.known? k).map (Entry.finished s.cache.settings.stale (next f s k))
    else s.cache.known? k
  called : ∀ k, Tally.count s'.called k = Tally.count s.called k + if done k then 1 else 0

theorem Concludes.trans {done done' : Key → Bool} {s₁ s₂ : Session}
    (h₁ : Concludes f done s s₁) (h₂ : Concludes f done' s₁ s₂)
    (apart : ∀ k, done k = true → done' k = false) :
    Concludes f (fun k => done k || done' k) s s₂ where
  settings := h₂.settings.trans h₁.settings
  observers := h₂.observers.trans h₁.observers
  poised := h₂.poised
  known := by
    intro k
    rw [h₂.known, h₁.known, h₁.settings, next, h₁.called]
    cases first : done k with
    | true => simp [apart k first]
    | false => simp
  called := by
    intro k
    rw [h₂.called, h₁.called]
    cases first : done k with
    | true => simp [apart k first]
    | false => simp

/-- The key of a task that was not told to stop is being computed. -/
theorem Poised.known_of_live (h : Poised s) (listed : u ∈ s.cache.tasks)
    (live : s.cache.isAborted u = false) :
    s.cache.Holds u.entry ∧ (s.cache.entry u.entry).owns u.launch.generation = true ∧
      (s.cache.entry u.entry).phase.isComputing = true := by
  obtain ⟨previous, hp⟩ := h.coherent.live u listed live
  exact ⟨h.coherent.holds_of_computing hp, Cache.owns_of_computing hp, by rw [hp]; rfl⟩

theorem Poised.discard (h : Poised s) (listed : u ∈ s.cache.tasks)
    (aborted : s.cache.isAborted u = true) : Poised (s.without u.id) where
  coherent := h.coherent.removeTask u.id
  alive := h.alive
  staffed := h.staffed.stride h.coherent (.leave u listed (.inl aborted) rfl)
  untimed := h.untimed
  handle := h.handle
  running := by
    intro x
    rw [without, Registry.erase_of_none (h.running _)]
    exact h.running x
  unheld := h.unheld

theorem Poised.concluded (h : Poised s) (listed : u ∈ s.cache.tasks) (report : Option String)
    (o : Outcome Failure Value) : Poised (s.concluding u report o) := by
  have noted : Coherent (s.calling u).cache [] := h.coherent.note _
  have ending := noted.ending listed report
  have settled := ending.settle o
  exact {
    coherent := settled.coherent
    alive := settled.alive.trans (ending.alive.trans h.alive)
    staffed := ending.staffed noted h.staffed listed h.alive o
    untimed := h.untimed
    handle := h.handle
    running := fun x => (congrArg (·.find? x) (Registry.erase_of_none (h.running _))).trans
      (h.running x)
    unheld := fun x => by
      rw [concluding_observers]
      exact h.unheld x }

theorem Poised.conclude (h : Poised s) (listed : u ∈ s.cache.tasks)
    (live : s.cache.isAborted u = false) (ended : Ended f (s.pollTask u).1) :
    Concludes f (fun k => u.entry.key = k) s (s.pollTask u).1 ∧
      (s.pollTask u).1.cache.tasks = (s.cache.removeTask u.id).tasks := by
  obtain ⟨held, owned, busy⟩ := h.known_of_live listed live
  have key : u.id.key = u.entry.key := (h.coherent.named u listed).1
  have polled : s.pollTask u = s.begin u := by
    unfold Session.pollTask
    rw [live, h.running]
    rfl
  rw [polled] at ended ⊢
  have made : Tally.count s.called u.id.key < Tally.count (s.calling u).called u.id.key := by
    rw [calling, Tally.count_bump, if_pos rfl]
    exact Nat.lt_succ_self _
  obtain ⟨c, planned, ends⟩ := ended.of_grows (begin_grows s u) _ _ made
  obtain ⟨report, begun⟩ := begin_of_outcome? (u := u) h.alive planned ends
  rw [begun]
  generalize outcome : f u.id.key (Tally.count s.called u.id.key) = o
  have noted : Coherent (s.calling u).cache [] := h.coherent.note _
  have ending := noted.ending listed report
  have entry : ((s.calling u).cache.withdraw u report).entry = s.cache.entry := ending.entry
  have table : ((s.calling u).cache.withdraw u report).table = s.cache.table := ending.table
  have settings : ((s.calling u).cache.withdraw u report).settings = s.cache.settings :=
    ending.settings
  refine ⟨{
    settings := (ending.settle o).settings.trans settings
    observers := concluding_observers report
    poised := h.concluded listed report o
    known := fun k => ?_
    called := fun k => ?_ }, ?_⟩
  · rw [cache, Cache.known?_settle (by rwa [Cache.holds_iff, table, ← Cache.holds_iff])
      (by rwa [entry]), entry, settings, Cache.known?_congr table entry]
    by_cases here : u.entry.key = k
    · subst here
      rw [Cache.known?_of_holds held, Option.map_some, Entry.finished_of_computing busy, next,
        ← key, outcome]
      simp
    · simp [here]
  · rw [concluding, calling, Tally.count_bump, key]
    by_cases here : u.entry.key = k <;> simp [here]
  · exact (Cache.settle_tasks ending.coherent u o).trans ending.tasks

/-- A poll concludes the computation of a task, unless it was told to stop. -/
theorem Poised.pollTask (h : Poised s) (listed : u ∈ s.cache.tasks)
    (ended : Ended f (s.pollTask u).1) :
    Concludes f (fun k => u.entry.key = k && !s.cache.isAborted u) s (s.pollTask u).1 ∧
      (s.pollTask u).1.cache.tasks = (s.cache.removeTask u.id).tasks := by
  cases aborted : s.cache.isAborted u with
  | false => simpa using h.conclude listed aborted ended
  | true =>
      have polled : (s.pollTask u).1 = s.without u.id := by
        unfold Session.pollTask
        rw [if_pos aborted, discard_of_unheld (h.unheld u.id)]
        exact closeIfUnowned_of_handle h.handle
      rw [polled]
      refine ⟨?_, rfl⟩
      exact {
        settings := rfl
        observers := rfl
        poised := h.discard listed aborted
        known := fun k => by simp; rfl
        called := fun k => by simp; rfl }

/-! ## All tasks -/

/-- A computation is under way for the key. -/
def computes (s : Session) (k : Key) : Bool := (s.cache.known? k).any fun e => e.phase.isComputing

theorem Poised.computes_of_idle (h : Poised s) (idle : s.cache.tasks = []) (k : Key) :
    s.computes k = false := by
  unfold computes Cache.known?
  cases found : s.cache.current? k with
  | none => rfl
  | some i =>
      rw [Option.map_some, Option.any_some]
      cases hp : (s.cache.entry i).phase with
      | computing l previous =>
          obtain ⟨t, listed, -⟩ := h.staffed id h.alive i l previous hp
          rw [idle] at listed
          cases listed
      | empty | settled o | stale previous => rfl

theorem Poised.calm_of_idle (h : Poised s) (idle : s.cache.tasks = []) {k : Key}
    {e : Entry Failure Value} (known : s.cache.known? k = some e) :
    e.phase.isComputing = false := by
  have calm := h.computes_of_idle idle k
  rwa [computes, known, Option.any_some] at calm

theorem Concludes.computes {done : Key → Bool} (h : Concludes f done s s')
    (k : Key) : s'.computes k = (s.computes k && !done k) := by
  unfold Session.computes
  rw [h.known]
  cases first : done k with
  | false => simp
  | true =>
      rw [if_pos rfl, Bool.not_true, Bool.and_false]
      cases s.cache.known? k with
      | none => rfl
      | some e => exact e.finished_calm

/-- When the calls made by it end, a poll of every task concludes what is being computed, and leaves
no task. -/
theorem Poised.pollEach (tasks : List (Task Key)) :
    ∀ {s : Session}, Poised s → s.cache.tasks = tasks → Ended f (s.pollEach tasks).1 →
      Concludes f s.computes s (s.pollEach tasks).1 ∧ (s.pollEach tasks).1.cache.tasks = [] := by
  induction tasks with
  | nil =>
      intro s h none _
      have idle := h.computes_of_idle none
      refine ⟨⟨⟨rfl, rfl⟩, h, fun k => ?_, fun k => ?_⟩, none⟩
      · rw [idle, if_neg Bool.false_ne_true]
        rfl
      · rw [idle]
        rfl
  | cons u rest ih =>
      intro s h tasks ended
      have listed : u ∈ s.cache.tasks := by rw [tasks]; exact List.mem_cons_self
      obtain ⟨first, left⟩ := h.pollTask listed (ended.of_grows (pollEach_grows rest _))
      have distinct := h.coherent.distinct
      rw [tasks, List.map_cons, List.nodup_cons] at distinct
      have rest_eq : (s.pollTask u).1.cache.tasks = rest := by
        rw [left, Cache.removeTask, tasks]
        dsimp only
        rw [List.filter_cons_of_neg (by simp), List.filter_eq_self]
        intro v hv
        have other : v.id ≠ u.id := fun same => distinct.1 (same ▸ List.mem_map_of_mem hv)
        simpa using other
      obtain ⟨others, none⟩ := ih first.poised rest_eq ended
      refine ⟨?_, none⟩
      have all := first.trans others fun k done => by rw [first.computes, done]; simp
      refine (?_ : (fun k => _ || _) = s.computes) ▸ all
      funext k
      rw [first.computes]
      cases done : decide (u.entry.key = k) && !s.cache.isAborted u with
      | false => simp
      | true =>
          simp only [Bool.and_eq_true, decide_eq_true_eq, Bool.not_eq_eq_eq_not, Bool.not_true]
            at done
          obtain ⟨held, -, busy⟩ := h.known_of_live listed done.2
          rw [computes, ← done.1, Cache.known?_of_holds held, Option.any_some, busy]
          rfl

end Session

end LiveCache
