import LiveCache.Proofs.Cache.Accounts
import LiveCache.Proofs.Session.Polls

/-! # The ticks of a session

A `Tick` is the least that can happen in a session: a command, a key that a computation awaits, a
task that is called, ends or leaves the list, a timer that fires. Every run is a series of ticks,
and so is every part of one, down to what happens while a task is polled. Ticks may come in any
order, so what they keep does not depend on how the tasks and the timers are driven.
-/

namespace LiveCache

open Cache (Coherent Routine)

/-! ## What a cache and its timers write down -/

namespace TimedCache

variable {κ ε α : Type} [DecidableEq κ] {t : TimedCache κ ε α}

theorem routine_arm (t : TimedCache κ ε α) (k : κ) : Routine t.cache (t.arm k).cache := by
  unfold arm
  split
  next => exact .refl _
  next => exact Cache.routine_note (by simp)

theorem routine_armIfAbsent (t : TimedCache κ ε α) (k : κ) :
    Routine t.cache (t.armIfAbsent k).cache := by
  unfold armIfAbsent
  split
  next => exact .refl _
  next => exact routine_arm t k

theorem routine_poll (t : TimedCache κ ε α) (x : Holder κ) :
    Routine t.cache (t.poll x).1.cache := by
  have polled := Cache.routine_poll t.cache x
  unfold poll
  dsimp only
  split
  next s v _ _ =>
    split
    next => exact polled.trans (routine_arm { t with cache := (t.cache.poll x).1 } s.entry.key)
    next => exact polled
  next => exact polled

theorem routine_resume (t : TimedCache κ ε α) (x : Holder κ) :
    Routine t.cache (t.resume x).1.cache := by
  unfold TimedCache.resume
  dsimp only
  split
  next => exact routine_poll t x
  next => exact (routine_poll t x).trans (Cache.routine_release _ x)

theorem routine_await (h : Coherent t.cache []) (x : Option (Holder κ)) (k : κ) :
    Routine t.cache (t.await x k).1.cache :=
  (routine_armIfAbsent t k).trans ((coherent_armIfAbsent h k).routine_await x k)

theorem routine_fire (h : Coherent t.cache []) (timer : Timer κ) :
    Routine t.cache (t.fire timer).cache := by
  unfold fire
  split
  next => exact .refl _
  next =>
    split
    next => exact h.routine_expire timer.key
    next => exact .refl _

theorem routine_foldl_fire (due : List (Timer κ)) :
    ∀ {t : TimedCache κ ε α}, Coherent t.cache [] → Routine t.cache (due.foldl fire t).cache := by
  induction due with
  | nil => exact fun _ => .refl _
  | cons timer rest ih =>
      intro t h
      exact (routine_fire h timer).trans (ih ((paces_fire h timer).coherent h))

theorem routine_fireDue (h : Coherent t.cache []) : Routine t.cache t.fireDue.cache := by
  unfold TimedCache.fireDue
  split
  next => exact .refl _
  next x _ =>
    let waiting := x.timers.filter fun timer => t.clock < timer.deadline
    let rest : TimedCache κ ε α := { t with expiration := some { x with timers := waiting } }
    exact routine_foldl_fire (t := rest) _ h

end TimedCache

namespace Session

variable {s s' : Session}

theorem routine_closeIfUnowned (s : Session) : Routine s.cache s.closeIfUnowned.cache := by
  unfold closeIfUnowned
  split
  next => exact Cache.routine_close s.cache
  next => exact .refl _

theorem routine_expireAll (h : Coherent s.cache []) : Routine s.cache s.expireAll.1.cache := by
  obtain ⟨rest, tasks⟩ := Cache.expireAll_tasks s.cache
  refine h.routine_expireAll.rearrange ?_
    (fun events => events.take 1 ++ Event.orderExpired (events.drop 1)) orderExpiry_perm ?_
  · rw [show s.timed.expireAll.cache = s.cache.expireAll from rfl, ← tasks, List.drop_left]
    exact (orderTasks_perm rest).append_left _
  · exact List.append_assoc _ _ _

theorem Does.routine (h : Coherent s.cache []) (does : Does s s') : Routine s.cache s'.cache := by
  cases does with
  | gains timed work called inner owners =>
      rw [cache, cache, timed]
      exact .refl _
  | @drops s₁ timed work called inner =>
      have closed := routine_closeIfUnowned s₁
      rwa [show s₁.cache = s.cache from congrArg TimedCache.cache timed] at closed
  | observe n k =>
      exact (TimedCache.routine_armIfAbsent s.timed k).trans
        ((TimedCache.coherent_armIfAbsent h k).routine_observe _ k)
  | glance k =>
      exact (TimedCache.routine_armIfAbsent s.timed k).trans
        ((TimedCache.coherent_armIfAbsent h k).routine_glance k)
  | snapshot k =>
      exact (TimedCache.routine_armIfAbsent s.timed k).trans
        ((TimedCache.coherent_armIfAbsent h k).routine_snapshot k)
  | poll n => exact TimedCache.routine_poll s.timed _
  | await keep k => exact TimedCache.routine_await h _ k
  | resume n =>
      exact (TimedCache.routine_resume s.timed _).trans
        (routine_closeIfUnowned { s with timed := (s.timed.resume (.waiter n)).1 })
  | letGo x other =>
      exact (Cache.routine_release s.cache x).trans
        (routine_closeIfUnowned { s with timed := s.timed.release x })
  | set k v =>
      exact (h.routine_set k v).trans
        (TimedCache.routine_arm { s.timed with cache := s.cache.set k v } k)
  | expire k => exact h.routine_expire k
  | expireAll => exact routine_expireAll h
  | sweep =>
      exact (Cache.routine_sweep s.cache).rearrange (List.Perm.refl _) Event.orderReclaimed
        Event.orderReclaimed_perm rfl

/-! ## Ticks -/

inductive Tick (s : Session) : Session → Prop where
  | stir {s' : Session} (stir : Stir s s') : Tick s s'
  /-- The computation of a task is called, and may take any course from then on. -/
  | call (u : Task Key) (listed : u ∈ s.cache.tasks) (spared : s.cache.isAborted u = false) :
      Tick s (s.calling u)
  | keep (x : TaskId Key) (r : Running) : Tick s { s with running := s.running.insert x r }
  | finish (u : Task Key) (listed : u ∈ s.cache.tasks) (r : Option Running) (c : Conclusion) :
      Tick s (s.afterPoll u r (.finished c)).1
  | leave (u : Task Key) (listed : u ∈ s.cache.tasks) : Tick s (s.discard u.id)
  | pass (time : Nat) : Tick s { s with timed := { s.timed with clock := s.timed.clock + time } }
  | fire (timer : Timer Key) : Tick s { s with timed := s.timed.fire timer }
  | fireDue : Tick s { s with timed := s.timed.fireDue }

abbrev Ticks : Session → Session → Prop := Relation.ReflTransGen Tick

theorem Stirs.ticks (stirs : Stirs s s') : Ticks s s' :=
  Relation.ReflTransGen.mono (fun _ _ => .stir) _ _ stirs

/-! ## Polls and steps are ticks -/

theorem afterPoll_ticks {u : Task Key} (listed : u ∈ s.cache.tasks) (r : Running) (halt : Halt) :
    Ticks s (s.afterPoll u (some r) halt).1 := by
  cases halt with
  | finished c => exact .single (.finish u listed (some r) c)
  | suspended stage =>
      have kept : Tick s { s with running := s.running.insert u.id { r with stage := stage } } :=
        .keep u.id _
      unfold afterPoll
      dsimp only
      split
      next => exact (Relation.ReflTransGen.single kept).tail (.leave u listed)
      next => exact .single kept

theorem goOn_ticks (h : Coherent s.cache []) (owned : Owned s) {u : Task Key}
    (listed : u ∈ s.cache.tasks) (r : Running) :
    Ticks s ((s.resume u.id r).1.afterPoll u (some r) (s.resume u.id r).2).1 :=
  (resume_stirs s u.id r).ticks.trans
    (afterPoll_ticks ((resume_acted h owned u.id r).keeps.tasks u listed) r _)

theorem pollTask_ticks (h : Coherent s.cache []) (owned : Owned s) {u : Task Key}
    (listed : u ∈ s.cache.tasks) : Ticks s (s.pollTask u).1 := by
  unfold Session.pollTask
  split
  next => exact .single (.leave u listed)
  next spared =>
    split
    next =>
      have called : Tick s (s.calling u) := .call u listed (by simpa using spared)
      refine (Relation.ReflTransGen.single called).trans ?_
      unfold begin
      dsimp only
      split
      next => exact .single (.finish (s := s.calling u) u listed none _)
      next => exact goOn_ticks (s := s.calling u) (h.note _) owned listed _
    next r _ => exact goOn_ticks h owned listed r

/-! ## What is kept by every tick -/

theorem Stir.routine (h : Coherent s.cache []) (stir : Stir s s') : Routine s.cache s'.cache := by
  cases stir with
  | command c => exact (execute_does s c).routine h
  | answer | pause => exact .refl _
  | await x k handle => exact TimedCache.routine_await h _ k
  | resume x =>
      exact (TimedCache.routine_resume s.timed _).trans
        (routine_closeIfUnowned { s with timed := (s.timed.resume (.computation x)).1 })

variable {settings : Settings} {ttl : Option Nat} {plan : Plan}

theorem ticks_kept (s₀ : Session) :
    Kept True fun s => Ordered True settings ttl none s ∧ Ticks s₀ s where
  distinct := fun h => ordered_kept.distinct h.1
  fresh := fun h => ⟨ordered_kept.fresh h.1, h.2.tail (.stir (.answer []))⟩
  command := fun c h => ⟨ordered_kept.command c h.1, h.2.tail (.stir (.command c))⟩
  poll := by
    intro s u listed h
    obtain ⟨ordered, tasks⟩ := ordered_kept.poll u listed h.1
    exact ⟨⟨ordered, h.2.trans (pollTask_ticks h.1.coherent h.1.owned listed)⟩, tasks⟩
  drop := fun loses _ u listed h =>
    ⟨ordered_kept.drop loses u listed h.1, h.2.tail (.leave u listed)⟩
  pass := fun time h => ⟨ordered_kept.pass time h.1, h.2.tail (.pass time)⟩
  fire := fun h => ⟨ordered_kept.fire h.1, h.2.tail .fireDue⟩

/-- The steps of a script are ticks. -/
theorem Ordered.ticks (h : Ordered True settings ttl none s) (steps : List Step) :
    Ordered True settings ttl none (s.after steps) ∧ Ticks s (s.after steps) :=
  (ticks_kept s).steps steps (fun _ _ _ => trivial) ⟨h, .refl⟩

end Session

end LiveCache
