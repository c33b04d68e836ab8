import LiveCache.Proofs.Cache.Evolution
import LiveCache.Timed
import Mathlib.Logic.Relation

/-! # The moves of a cache and its surroundings

A `Deed` is one thing that an owner does with a cache, or the passing of time. A `Move` is a deed,
the end of the cache, or what the executor does with a task. Moves may come in any order: what a
computation does while it runs are deeds between the call of its task and its end. A cache without a
time to live makes the same moves, and its timers are never started.
-/

namespace LiveCache.TimedCache

variable {κ ε α : Type} [DecidableEq κ]

/-- A cache that was just made. -/
def opened (settings : Settings) (ttl : Option Nat) (wakes : Nat → Nat → Nat := Timer.wakes) :
    TimedCache κ ε α :=
  { cache := .ofSettings settings,
    expiration := ttl.map fun time => { ttl := time, wakes := wakes } }

/-- The table of a cache is walked in no particular order, so what a walk launches may come in any
order, and nothing depends on the order in which it reports. -/
inductive Deed (t : TimedCache κ ε α) : TimedCache κ ε α → Prop where
  | observe (x : Holder κ) (k : κ) : Deed t (t.observe x k)
  | glance (k : κ) : Deed t (t.glance k)
  | snapshot (k : κ) : Deed t (t.snapshot k).1
  | poll (x : Holder κ) : Deed t (t.poll x).1
  | await (x : Option (Holder κ)) (k : κ) : Deed t (t.await x k).1
  | resume (x : Holder κ) : Deed t (t.resume x).1
  | release (x : Holder κ) : Deed t (t.release x)
  | set (k : κ) (value : α) : Deed t (t.set k value)
  | expire (k : κ) : Deed t (t.expire k)
  | expireAll (tasks : List (Task κ)) (listed : tasks.Perm t.expireAll.cache.tasks)
      (log : List Event) :
      Deed t { t.expireAll with cache := { t.expireAll.cache with tasks := tasks, log := log } }
  | sweep (log : List Event) : Deed t { t with cache := { t.cache.sweep.1 with log := log } }
  | pass (time : Nat) : Deed t { t with clock := t.clock + time }
  | fireDue : Deed t t.fireDue

/-- The executor of a cache is lossy when it may drop any task. -/
inductive Move (lossy : Prop) (t : TimedCache κ ε α) : TimedCache κ ε α → Prop where
  | deed {t' : TimedCache κ ε α} (deed : Deed t t') : Move lossy t t'
  | close : Move lossy t { t with cache := t.cache.close }
  /-- A task is polled for the first time. -/
  | call (u : Task κ) (listed : u ∈ t.cache.tasks) (spared : t.cache.isAborted u = false)
      (first : .called u.id ∉ t.cache.history) :
      Move lossy t { t with cache := t.cache.note (.called u.id) }
  /-- The computation of a task ends, and the cache takes the result. -/
  | finish (u : Task κ) (listed : u ∈ t.cache.tasks) (called : .called u.id ∈ t.cache.history)
      (alive : t.cache.alive = true) (o : Outcome ε α) (report : Option String) :
      Move lossy t { t with cache := (t.cache.withdraw u report).settle u o }
  | leave (u : Task κ) (listed : u ∈ t.cache.tasks)
      (why : t.cache.isAborted u = true ∨ t.cache.alive = false ∨ lossy) :
      Move lossy t { t with cache := t.cache.removeTask u.id }

/-- The moves from one cache to another. -/
abbrev Moves (lossy : Prop) : TimedCache κ ε α → TimedCache κ ε α → Prop :=
  Relation.ReflTransGen (Move lossy)

/-- What a cache may come to, on any runtime: its sleeps may be over whenever. -/
def Reached (lossy : Prop) (settings : Settings) (ttl : Option Nat) (t : TimedCache κ ε α) : Prop :=
  ∃ wakes, Moves lossy (opened settings ttl wakes) t

section Reached

variable {lossy : Prop} {settings : Settings} {ttl : Option Nat} {t t' : TimedCache κ ε α}

theorem Reached.refl : Reached lossy settings ttl (opened settings ttl : TimedCache κ ε α) :=
  ⟨_, .refl⟩

theorem Reached.trans (h : Reached lossy settings ttl t) (moves : Moves lossy t t') :
    Reached lossy settings ttl t' :=
  h.imp fun _ before => before.trans moves

theorem Reached.tail (h : Reached lossy settings ttl t) (move : Move lossy t t') :
    Reached lossy settings ttl t' :=
  h.trans (.single move)

theorem Reached.single (move : Move lossy (opened settings ttl) t) : Reached lossy settings ttl t :=
  Reached.refl.tail move

end Reached

/-! ## What arming leaves alone -/

@[simp] theorem armIfAbsent_entry (t : TimedCache κ ε α) (k : κ) :
    (t.armIfAbsent k).cache.entry = t.cache.entry := by
  unfold armIfAbsent arm
  split <;> [rfl; split <;> rfl]

@[simp] theorem armIfAbsent_table (t : TimedCache κ ε α) (k : κ) :
    (t.armIfAbsent k).cache.table = t.cache.table := by
  unfold armIfAbsent arm
  split <;> [rfl; split <;> rfl]

@[simp] theorem armIfAbsent_settings (t : TimedCache κ ε α) (k : κ) :
    (t.armIfAbsent k).cache.settings = t.cache.settings := by
  unfold armIfAbsent arm
  split <;> [rfl; split <;> rfl]

@[simp] theorem arm_entry (t : TimedCache κ ε α) (k : κ) :
    (t.arm k).cache.entry = t.cache.entry := by
  unfold arm
  split <;> rfl

@[simp] theorem arm_observers (t : TimedCache κ ε α) (k : κ) :
    (t.arm k).cache.observers = t.cache.observers := by
  unfold arm
  split <;> rfl

@[simp] theorem armIfAbsent_observers (t : TimedCache κ ε α) (k : κ) :
    (t.armIfAbsent k).cache.observers = t.cache.observers := by
  unfold armIfAbsent
  split
  next => rfl
  next => exact arm_observers t k

theorem poll_observers (t : TimedCache κ ε α) (x : Holder κ) :
    (t.poll x).1.cache.observers = (t.cache.poll x).1.observers := by
  unfold poll
  dsimp only
  split <;> [split <;> simp; rfl]

/-! ## Caches without a time to live -/

section Untimed

variable {t : TimedCache κ ε α} (untimed : t.expiration = none)

include untimed

theorem arm_of_untimed (k : κ) : t.arm k = t := by
  unfold arm
  rw [untimed]

theorem armIfAbsent_of_untimed (k : κ) : t.armIfAbsent k = t := by
  unfold armIfAbsent
  rw [arm_of_untimed untimed, ite_self]

theorem poll_of_untimed (x : Holder κ) :
    t.poll x = ({ t with cache := (t.cache.poll x).1 }, (t.cache.poll x).2) := by
  let polled : TimedCache κ ε α := { t with cache := (t.cache.poll x).1 }
  have same : ∀ k, polled.arm k = polled := arm_of_untimed untimed
  unfold poll
  dsimp only
  split
  next s v _ shown => rw [same, ite_self, shown]
  next => rfl

end Untimed

/-! ## The paces of a deed -/

open Cache (Coherent Course Pace Stride)

/-- The strides of owners by which one cache becomes another. -/
abbrev Paces : Cache κ ε α → Cache κ ε α → Prop := Relation.ReflTransGen Pace

variable {t t' : TimedCache κ ε α} {c d : Cache κ ε α} {lossy : Prop}

theorem Paces.coherent (h : Coherent c []) (paces : Paces c d) : Coherent d [] := by
  induction paces with
  | refl => exact h
  | tail _ last ih => exact last.coherent ih

theorem paces_of_course (course : ∀ spared, Course spared c d []) : Paces c d :=
  .single (.read course)

theorem paces_arm (t : TimedCache κ ε α) (k : κ) : Paces t.cache (t.arm k).cache := by
  unfold arm
  split
  next => exact .refl
  next => exact .single (.arm k t.clock rfl)

theorem paces_armIfAbsent (t : TimedCache κ ε α) (k : κ) :
    Paces t.cache (t.armIfAbsent k).cache := by
  unfold armIfAbsent
  split
  next => exact .refl
  next => exact paces_arm t k

theorem coherent_armIfAbsent (h : Coherent t.cache []) (k : κ) :
    Coherent (t.armIfAbsent k).cache [] :=
  Paces.coherent h (paces_armIfAbsent t k)

/-- What is read after the key was armed. -/
theorem paces_armed (h : Coherent t.cache []) (k : κ)
    (course : Coherent (t.armIfAbsent k).cache [] →
      ∀ spared, Course spared (t.armIfAbsent k).cache d []) : Paces t.cache d :=
  (paces_armIfAbsent t k).trans (paces_of_course (course (coherent_armIfAbsent h k)))

theorem pace_expire (h : Coherent c []) (k : κ) : Pace c (c.expire k) := by
  have own : ∀ k', (Happening.expired k : Happening κ ε α).writes k' = false ↔ k' ≠ k := by
    simp [Happening.writes, eq_comm]
  obtain ⟨course, renewed⟩ := h.expire k
  refine .expire (.expired k) (.inr ⟨k, rfl⟩) (Cache.expire_history c k) (course.mono ?_) ?_
  · exact fun k' free => (own k').1 free
  · intro k' write
    have same : k' = k := by
      by_contra other
      rw [(own k').2 other] at write
      cases write
    exact same ▸ renewed

theorem paces_poll (h : Coherent t.cache []) (x : Holder κ) :
    Paces t.cache (t.poll x).1.cache := by
  have polled : Paces t.cache (t.cache.poll x).1 := paces_of_course fun _ => h.poll x
  unfold poll
  dsimp only
  split
  next s v _ _ =>
    split
    next => exact polled.trans (paces_arm { t with cache := (t.cache.poll x).1 } s.entry.key)
    next => exact polled
  next => exact polled

theorem paces_fire (h : Coherent t.cache []) (timer : Timer κ) :
    Paces t.cache (t.fire timer).cache := by
  unfold fire
  split
  next => exact .refl
  next =>
    split
    next => exact .single (pace_expire h timer.key)
    next => exact .refl

theorem paces_foldl_fire (due : List (Timer κ)) :
    ∀ {t : TimedCache κ ε α}, Coherent t.cache [] → Paces t.cache (due.foldl fire t).cache := by
  induction due with
  | nil => exact fun _ => .refl
  | cons timer rest ih =>
      intro t h
      have first := paces_fire h timer
      exact first.trans (ih (first.coherent h))

theorem Deed.paces (h : Coherent t.cache []) (deed : Deed t t') : Paces t.cache t'.cache := by
  cases deed with
  | observe x k => exact paces_armed h k fun h' _ => h'.observe x k
  | glance k => exact paces_armed h k fun h' _ => h'.glance k
  | snapshot k => exact paces_armed h k fun h' _ => h'.snapshot k
  | poll x => exact paces_poll h x
  | await x k => exact paces_armed h k fun h' _ => h'.await x k
  | resume x =>
      have polled := paces_poll h x
      unfold TimedCache.resume
      dsimp only
      split
      next => exact polled
      next => exact polled.trans (paces_of_course fun _ => (polled.coherent h).release x)
  | release x => exact paces_of_course fun _ => h.release x
  | set k value =>
      obtain ⟨course, held⟩ := h.set k value
      have install : Pace t.cache (t.cache.set k value) :=
        .install k value (Cache.set_history h k value) course held
      exact (Relation.ReflTransGen.single install).trans
        (paces_arm { t with cache := t.cache.set k value } k)
  | expire k => exact .single (pace_expire h k)
  | expireAll tasks listed log =>
      obtain ⟨course, renewed⟩ := h.expireAll
      refine .single (.expire .expiredAll (.inl rfl) (Cache.expireAll_history t.cache) ?_ ?_)
      · exact (course.mono (by simp [Happening.writes])).rearrange listed log
      · exact fun k _ => ⟨(renewed k).outcome, (renewed k).computation⟩
  | sweep log => exact paces_of_course fun _ => h.sweep.rearrange (List.Perm.refl _) log
  | pass time => exact .refl
  | fireDue =>
      unfold TimedCache.fireDue
      split
      next => exact .refl
      next x _ =>
        let waiting := x.timers.filter fun timer => t.clock < timer.deadline
        let rest : TimedCache κ ε α := { t with expiration := some { x with timers := waiting } }
        exact paces_foldl_fire (t := rest) _ h

theorem Paces.keeps (paces : Paces c d) : Cache.Keeps c d ∧ d.alive = c.alive := by
  induction paces with
  | refl => exact ⟨.refl c, rfl⟩
  | tail _ last ih => exact ⟨ih.1.trans last.keeps, last.alive.trans ih.2⟩

/-! ## The strides of a move -/

abbrev Strides (lossy : Prop) : Cache κ ε α → Cache κ ε α → Prop :=
  Relation.ReflTransGen (Stride lossy)

theorem Paces.strides (paces : Paces c d) : Strides lossy c d := by
  induction paces with
  | refl => exact .refl
  | tail _ last ih => exact ih.tail (.pace last)

theorem Strides.coherent (h : Coherent c []) (strides : Strides lossy c d) : Coherent d [] := by
  induction strides with
  | refl => exact h
  | tail _ last ih => exact last.coherent ih

theorem Move.strides (h : Coherent t.cache []) (move : Move lossy t t') :
    Strides lossy t.cache t'.cache := by
  cases move with
  | deed deed => exact Paces.strides (deed.paces h)
  | close => exact .single (.close fun _ => h.close)
  | call u listed spared first => exact .single (.call u listed spared first rfl)
  | finish u listed called alive o report =>
      exact .single (.finish u listed called alive o report rfl)
  | leave u listed why => exact .single (.leave u listed why rfl)

variable {settings : Settings} {ttl : Option Nat}

theorem Reached.strides (h : Reached lossy settings ttl t) :
    Strides lossy (Cache.ofSettings settings) t.cache := by
  obtain ⟨wakes, moves⟩ := h
  induction moves with
  | refl => exact .refl
  | tail _ move ih =>
      exact ih.trans (move.strides (ih.coherent (Cache.coherent_ofSettings settings)))

theorem Reached.coherent (h : Reached lossy settings ttl t) : Coherent t.cache [] :=
  h.strides.coherent (Cache.coherent_ofSettings settings)

/-- What each move keeps is kept by any number of moves. -/
theorem Moves.keep {P : TimedCache κ ε α → Prop} (h : Reached lossy settings ttl t)
    (moves : Moves lossy t t') (start : P t)
    (keep : ∀ {u u' : TimedCache κ ε α}, Coherent u.cache [] → Move lossy u u' → P u → P u') :
    P t' := by
  induction moves with
  | refl => exact start
  | tail before move ih => exact keep (Reached.coherent (h.trans before)) move ih

/-- What holds at first and is kept by each move holds of every cache that is reached. -/
theorem Reached.keep {P : TimedCache κ ε α → Prop} (h : Reached lossy settings ttl t)
    (start : ∀ wakes, P (opened settings ttl wakes))
    (keep : ∀ {u u' : TimedCache κ ε α}, Coherent u.cache [] → Move lossy u u' → P u → P u') :
    P t := by
  obtain ⟨wakes, moves⟩ := h
  exact moves.keep ⟨wakes, .refl⟩ (start wakes) keep

/-- The same of caches and their strides. -/
theorem Reached.invariant {P : Cache κ ε α → Prop} (h : Reached lossy settings ttl t)
    (start : P (Cache.ofSettings settings))
    (keep : ∀ {c d : Cache κ ε α}, Coherent c [] → P c → Stride lossy c d → P d) : P t.cache := by
  have strides := h.strides
  generalize t.cache = d at strides
  induction strides with
  | refl => exact start
  | tail before last ih =>
      exact keep (Strides.coherent (Cache.coherent_ofSettings settings) before) ih last

theorem Reached.same_settings (h : Reached lossy settings ttl t) : t.cache.settings = settings := by
  refine h.invariant (P := fun c => c.settings = settings) rfl ?_
  intro c d hc same stride
  rw [stride.settings hc, same]

/-! ## How entries evolve -/

open Cache (Evolves Parting Passes evolves_of_same passes_of_same)
open Entry (Act)

theorem passes_arm {P : Act ε α → Prop} (t : TimedCache κ ε α) (k : κ) :
    Passes P t.cache (t.arm k).cache := by
  unfold arm
  split
  next => exact .refl t.cache
  next => exact passes_of_same rfl rfl rfl

theorem passes_armIfAbsent {P : Act ε α → Prop} (t : TimedCache κ ε α) (k : κ) :
    Passes P t.cache (t.armIfAbsent k).cache :=
  passes_of_same (armIfAbsent_settings t k) (armIfAbsent_entry t k) (armIfAbsent_table t k)

theorem passes_poll {P : Act ε α → Prop} (t : TimedCache κ ε α) (x : Holder κ) :
    Passes P t.cache (t.poll x).1.cache := by
  have polled : Passes P t.cache (t.cache.poll x).1 := Cache.passes_poll t.cache x
  unfold poll
  dsimp only
  split
  next s v _ _ =>
    split
    next => exact polled.trans (passes_arm { t with cache := (t.cache.poll x).1 } s.entry.key)
    next => exact polled
  next => exact polled

theorem passes_fire {P : Act ε α → Prop} (kind : P .expire) (t : TimedCache κ ε α)
    (timer : Timer κ) : Passes P t.cache (t.fire timer).cache := by
  unfold fire
  split
  next => exact .refl t.cache
  next =>
    split
    next => exact Cache.passes_expire kind t.cache timer.key
    next => exact .refl t.cache

theorem passes_foldl_fire {P : Act ε α → Prop} (kind : P .expire) (due : List (Timer κ))
    (t : TimedCache κ ε α) : Passes P t.cache (due.foldl fire t).cache := by
  induction due generalizing t with
  | nil => exact .refl t.cache
  | cons timer rest ih => exact (passes_fire kind t timer).trans (ih (t.fire timer))

theorem passes_fireDue {P : Act ε α → Prop} (kind : P .expire) (t : TimedCache κ ε α) :
    Passes P t.cache t.fireDue.cache := by
  unfold TimedCache.fireDue
  split
  next => exact .refl t.cache
  next x _ =>
    let waiting := x.timers.filter fun timer => t.clock < timer.deadline
    let rest : TimedCache κ ε α := { t with expiration := some { x with timers := waiting } }
    exact passes_foldl_fire kind _ rest

/-- What is read after the key was armed. -/
theorem parting_armed (h : Coherent t.cache []) (k : κ)
    (next : Coherent (t.armIfAbsent k).cache [] → Parting (t.armIfAbsent k).cache d) :
    Parting t.cache d :=
  (passes_armIfAbsent t k).parting (next (coherent_armIfAbsent h k))

/-- Only a sweep retires entries that nobody has let go. -/
def Sweeps (t t' : TimedCache κ ε α) : Prop :=
  ∃ log, t' = { t with cache := { t.cache.sweep.1 with log := log } }

theorem Deed.parting (h : Coherent t.cache []) (deed : Deed t t') :
    Parting t.cache t'.cache ∨ Sweeps t t' := by
  cases deed with
  | observe x k => exact .inl (parting_armed h k fun h' => h'.parting_observe x k)
  | glance k => exact .inl (parting_armed h k fun h' => h'.parting_glance k)
  | snapshot k => exact .inl (parting_armed h k fun _ => .stays (Cache.passes_snapshot trivial _ k))
  | poll x => exact .inl (.stays (passes_poll t x))
  | await x k => exact .inl (parting_armed h k fun h' => h'.parting_await x k)
  | resume x =>
      have polled := passes_poll (P := Act.asks) t x
      unfold TimedCache.resume
      dsimp only
      split
      next => exact .inl (polled.parting (.stays (.refl _)))
      next =>
        have coherent := (paces_poll h x).coherent h
        exact .inl (polled.parting (coherent.parting_release x))
  | release x => exact .inl (h.parting_release x)
  | set k value =>
      have written : Passes Act.lasts t.cache _ := Cache.passes_set t.cache k value trivial
      exact .inl (.stays (written.trans (passes_arm { t with cache := t.cache.set k value } k)))
  | expire k => exact .inl (.stays (Cache.passes_expire trivial t.cache k))
  | expireAll tasks listed log =>
      exact .inl (.stays ((Cache.passes_expireAll trivial t.cache).congr rfl rfl rfl))
  | sweep log => exact .inr ⟨log, rfl⟩
  | pass time => exact .inl (.stays (.refl _))
  | fireDue => exact .inl (.stays (passes_fireDue trivial t))

theorem Move.parting (h : Coherent t.cache []) (move : Move lossy t t') :
    Parting t.cache t'.cache ∨ Sweeps t t' := by
  cases move with
  | deed deed => exact deed.parting h
  | close => exact .inl (.stays (Cache.passes_close trivial t.cache))
  | call u listed spared first => exact .inl (.stays (passes_of_same rfl rfl rfl))
  | finish u listed called alive o report =>
      have ending := h.ending listed report
      have withdrawn : Passes Act.lasts t.cache (t.cache.withdraw u report) :=
        passes_of_same ending.settings ending.entry ending.table
      exact .inl (.stays (withdrawn.trans (Cache.passes_settle ending.handed o trivial)))
  | leave u listed why => exact .inl (.stays (passes_of_same rfl rfl rfl))

theorem Move.evolves (h : Coherent t.cache []) (move : Move lossy t t') :
    Evolves t.cache t'.cache := by
  rcases move.parting h with parting | ⟨log, rfl⟩
  · exact parting.evolves
  · exact (Cache.passes_sweep (by simp) t.cache).evolves.congr rfl rfl

/-- What an entry has come to, it has come to by operations of its own. -/
theorem Reached.leads (h : Reached lossy settings ttl t) (i : EntryId κ) :
    Entry.Leads settings.stale {} (t.cache.entry i) := by
  have evolved : Evolves (Cache.ofSettings settings : Cache κ ε α) t.cache :=
    h.keep (P := fun u => Evolves _ u.cache) (fun _ => evolves_of_same rfl rfl)
      fun hc move before => before.trans (move.evolves hc)
  exact evolved.leads i

end LiveCache.TimedCache
