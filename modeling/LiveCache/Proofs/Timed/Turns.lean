import LiveCache.Proofs.Timed.Moves

/-! # What a move does to the timers

A move starts and ends timers in turns: it arms a key or disarms one, disarms them all, fires what
is due, or leaves the timers alone. Each turn but a quiet one is a happening, so the history tells
which keys are armed and since when.
-/

namespace LiveCache

variable {κ ε α : Type} [DecidableEq κ]

/-- The happening starts or ends a timer of the key. -/
def Happening.times (k : κ) : Happening κ ε α → Bool
  | armed k' _ => k' = k
  | expired k' => k' = k
  | expiredAll => true
  | _ => false

namespace Cache

/-- When the key was armed, if it has not expired since. -/
def armedSince? (k : κ) (past : List (Happening κ ε α)) : Option Nat :=
  match past.find? fun x => x.times k with
  | some (.armed _ time) => some time
  | _ => none

/-- The key was armed and has not expired since. -/
def pending (k : κ) (past : List (Happening κ ε α)) : Bool :=
  match past.find? fun x => x.times k with
  | some (.armed _ _) => true
  | _ => false

variable {k : κ} {past : List (Happening κ ε α)}

theorem times_of_minor {x : Happening κ ε α} (minor : x.isMinor = true) (k : κ) :
    x.times k = false := by
  cases x <;> simp_all [Happening.isMinor, Happening.times]

theorem isSome_armedSince? (k : κ) (past : List (Happening κ ε α)) :
    (armedSince? k past).isSome = pending k past := by
  unfold armedSince? pending
  split <;> simp_all

/-- The moment since which a key is armed is that of one of its armings. -/
theorem mem_of_armedSince? {time : Nat} (since : armedSince? k past = some time) :
    .armed k time ∈ past := by
  unfold armedSince? at since
  split at since
  next k' time' found =>
    cases since
    have own : k' = k := by simpa [Happening.times] using List.find?_some found
    exact own ▸ List.mem_of_find?_eq_some found
  next => cases since

theorem armedSince?_append (new : List (Happening κ ε α)) (quiet : ∀ x ∈ new, x.times k = false) :
    armedSince? k (new ++ past) = armedSince? k past := by
  unfold armedSince?
  rw [List.find?_append, List.find?_eq_none.2 (by simpa using quiet), Option.none_or]

theorem armedSince?_cons {x : Happening κ ε α} (quiet : x.times k = false) :
    armedSince? k (x :: past) = armedSince? k past :=
  armedSince?_append [x] (by simpa using quiet)

theorem armedSince?_armed (k k' : κ) (time : Nat) (past : List (Happening κ ε α)) :
    armedSince? k' (.armed k time :: past) =
      if k = k' then some time else armedSince? k' past := by
  by_cases same : k = k' <;> simp [armedSince?, Happening.times, same]

theorem armedSince?_expired (k k' : κ) (past : List (Happening κ ε α)) :
    armedSince? k' (.expired k :: past) = if k = k' then none else armedSince? k' past := by
  by_cases same : k = k' <;> simp [armedSince?, Happening.times, same]

theorem armedSince?_expiredAll (k : κ) (past : List (Happening κ ε α)) :
    armedSince? k (.expiredAll :: past) = none := by
  simp [armedSince?, Happening.times]

end Cache

namespace TimedCache

open Cache (Coherent Course armedSince?)

variable {t t' : TimedCache κ ε α} {c : Cache κ ε α} {lossy : Prop} {settings : Settings}
  {loose : List (EntryId κ)}

/-- One turn of the timers. -/
inductive Turn (t t' : TimedCache κ ε α) : Prop where
  | quiet (expiration : t'.expiration = t.expiration)
      (past : ∀ k, armedSince? k t'.cache.history = armedSince? k t.cache.history)
      (alive : t'.cache.alive = true → t.cache.alive = true)
  | arm (k : κ) (expiration : t'.expiration = t.expiration.map fun x => x.arm t.clock k)
      (past : t'.cache.history = .armed k t.clock :: t.cache.history)
      (alive : t'.cache.alive = t.cache.alive)
  | disarm (k : κ) (expiration : t'.expiration = t.expiration.map fun x => x.disarm k)
      (past : t'.cache.history = .expired k :: t.cache.history)
      (alive : t'.cache.alive = t.cache.alive)
  | disarmAll (expiration : t'.expiration = t.expiration.map Expiration.disarmAll)
      (past : t'.cache.history = .expiredAll :: t.cache.history)
      (alive : t'.cache.alive = t.cache.alive)
  | fireDue (coherent : Coherent t.cache []) (eq : t' = t.fireDue)

abbrev Turns : TimedCache κ ε α → TimedCache κ ε α → Prop := Relation.ReflTransGen Turn

theorem Turn.alive (turn : Turn t t') (lives : t'.cache.alive = true) : t.cache.alive = true := by
  cases turn with
  | quiet expiration past alive => exact alive lives
  | arm k expiration past alive => exact alive.symm.trans lives
  | disarm k expiration past alive => exact alive.symm.trans lives
  | disarmAll expiration past alive => exact alive.symm.trans lives
  | fireDue coherent eq =>
      subst eq
      exact (Deed.fireDue.paces coherent).keeps.2.symm.trans lives

/-- What is kept when timers are taken off the list and when one fires is kept when those that are
due are fired. -/
theorem fireDue_keeps {P : TimedCache κ ε α → Prop} (h : P t)
    (drop : ∀ x timers, t.expiration = some x →
      P { t with expiration := some { x with timers := timers } })
    (fire : ∀ u timer, P u → P (u.fire timer)) : P t.fireDue := by
  unfold fireDue
  split
  next => exact h
  next x timed =>
    dsimp only
    generalize x.timers.filter (fun timer => timer.deadline ≤ t.clock) = due
    have held := drop x (x.timers.filter fun timer => t.clock < timer.deadline) timed
    generalize ({ t with expiration := some { x with
      timers := x.timers.filter fun timer => t.clock < timer.deadline } } : TimedCache κ ε α) = u
      at held ⊢
    induction due generalizing u with
    | nil => exact held
    | cons timer rest ih => exact ih _ (fire u timer held)

/-! ## The turns of a deed -/

theorem Turns.read (turns : Turns t t') (course : Course (fun _ => True) t'.cache c loose) :
    Turns t { t' with cache := c } := by
  refine turns.tail (.quiet rfl (fun k => ?_) fun lives => course.alive.symm.trans lives)
  dsimp only
  rw [course.past]
  exact Cache.armedSince?_append _ fun x hx => Cache.times_of_minor (course.minor x hx) k

theorem turns_arm (t : TimedCache κ ε α) (k : κ) : Turns t (t.arm k) := by
  unfold arm
  split
  next => exact .refl
  next x timed => exact .single (.arm k (by simp [timed]) rfl rfl)

theorem turns_armIfAbsent (t : TimedCache κ ε α) (k : κ) : Turns t (t.armIfAbsent k) := by
  unfold armIfAbsent
  split
  next => exact .refl
  next => exact turns_arm t k

theorem turns_poll (h : Coherent t.cache []) (x : Holder κ) : Turns t (t.poll x).1 := by
  have polled : Turns t { t with cache := (t.cache.poll x).1 } := .read .refl (h.poll x)
  unfold poll
  dsimp only
  split
  next s v _ _ =>
    split
    next => exact polled.trans (turns_arm _ s.entry.key)
    next => exact polled
  next => exact polled

theorem Deed.turns (h : Coherent t.cache []) (deed : Deed t t') : Turns t t' := by
  have armed := fun k => coherent_armIfAbsent h k
  cases deed with
  | observe x k => exact (turns_armIfAbsent t k).read ((armed k).observe x k)
  | glance k => exact (turns_armIfAbsent t k).read ((armed k).glance k)
  | snapshot k => exact (turns_armIfAbsent t k).read ((armed k).snapshot k)
  | poll x => exact turns_poll h x
  | await x k => exact (turns_armIfAbsent t k).read ((armed k).await x k)
  | resume x =>
      have polled := turns_poll h x
      have coherent := Paces.coherent h (paces_poll h x)
      unfold TimedCache.resume
      dsimp only
      split
      next => exact polled
      next => exact polled.read (coherent.release x)
  | release x => exact Turns.read .refl (h.release x)
  | set k value =>
      have written : Turn t { t with cache := t.cache.set k value } := by
        obtain ⟨course, -⟩ := h.set k value
        refine .quiet rfl (fun k' => ?_) fun lives => course.alive.symm.trans lives
        dsimp only
        rw [Cache.set_history h, Cache.armedSince?_cons rfl]
      exact (Relation.ReflTransGen.single written).trans (turns_arm _ k)
  | expire k =>
      obtain ⟨course, -⟩ := h.expire k
      exact .single (.disarm k rfl (Cache.expire_history t.cache k) course.alive)
  | expireAll tasks listed log =>
      obtain ⟨course, -⟩ := h.expireAll
      exact .single (.disarmAll rfl (Cache.expireAll_history t.cache) course.alive)
  | sweep log =>
      have swept : Turns t { t with cache := t.cache.sweep.1 } := .read .refl h.sweep
      exact swept.tail (.quiet rfl (fun _ => rfl) id)
  | pass time => exact .single (.quiet rfl (fun _ => rfl) id)
  | fireDue => exact .single (.fireDue h rfl)

theorem Move.turns (h : Coherent t.cache []) (move : Move lossy t t') : Turns t t' := by
  cases move with
  | deed deed => exact deed.turns h
  | close =>
      have dead : Turns t { t with cache := { t.cache with alive := false } } :=
        .single (.quiet rfl (fun _ => rfl) (by simp))
      exact dead.read h.close
  | call u listed spared first =>
      refine .single (.quiet rfl (fun k => ?_) id)
      exact Cache.armedSince?_cons rfl
  | finish u listed called alive o report =>
      have ending := h.ending listed report
      refine .single (.quiet rfl (fun k => ?_) fun _ => alive)
      rw [Cache.settle_history ending.coherent, ending.history]
      exact Cache.armedSince?_cons rfl
  | leave u listed why => exact .single (.quiet rfl (fun _ => rfl) id)

theorem Moves.turns {ttl : Option Nat} (h : Reached lossy settings ttl t)
    (moves : Moves lossy t t') : Turns t t' :=
  moves.keep (P := Turns t) h .refl fun hc move before => before.trans (move.turns hc)

theorem Reached.turns {ttl : Option Nat} (h : Reached lossy settings ttl t) :
    ∃ wakes, Turns (opened settings ttl wakes) t :=
  h.imp fun wakes moves => moves.turns ⟨wakes, .refl⟩

theorem Turn.untimed (turn : Turn t t') (untimed : t.expiration = none) :
    t'.expiration = none := by
  cases turn with
  | quiet expiration => rw [expiration, untimed]
  | arm k expiration => rw [expiration, untimed, Option.map_none]
  | disarm k expiration => rw [expiration, untimed, Option.map_none]
  | disarmAll expiration => rw [expiration, untimed, Option.map_none]
  | fireDue coherent eq =>
      rw [eq]
      unfold TimedCache.fireDue
      rw [untimed]
      exact untimed

theorem Turns.untimed (turns : Turns t t') (untimed : t.expiration = none) :
    t'.expiration = none := by
  induction turns with
  | refl => exact untimed
  | tail _ last ih => exact last.untimed ih

/-- Where keys do not expire there are no timers. -/
theorem Reached.untimed (h : Reached lossy settings none t) : t.expiration = none := by
  obtain ⟨wakes, turns⟩ := h.turns
  exact turns.untimed rfl

end TimedCache

end LiveCache
