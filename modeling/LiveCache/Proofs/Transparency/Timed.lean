import LiveCache.Timed
import LiveCache.Proofs.Transparency.Cache

/-! # Timed caches as long as no timer fires

What expires is a cache with timers beside it. Without them the cache is left, and an operation on
the whole is the operation on that cache. Only a timer that is due makes a difference, and only if
its key is armed with it.
-/

namespace LiveCache.TimedCache

variable {κ ε α : Type}

/-- The cache without its timers. -/
def bare (t : TimedCache κ ε α) : TimedCache κ ε α :=
  { t with cache := t.cache.unarmed, expiration := none }

variable (t : TimedCache κ ε α)

theorem bare_bare : t.bare.bare = t.bare := by
  unfold bare
  rw [Cache.unarmed_unarmed]

theorem bare_cache : t.bare.cache = t.cache.unarmed := rfl

variable [DecidableEq κ]

theorem bare_arm (k : κ) : (t.arm k).bare = t.bare := by
  unfold arm
  split <;> rfl

theorem bare_armIfAbsent (k : κ) : (t.armIfAbsent k).bare = t.bare := by
  unfold armIfAbsent
  split
  next => rfl
  next => exact bare_arm t k

/-- What is done after the key was armed is done without its timer. -/
theorem bare_after_arming (k : κ) (f : Cache κ ε α → Cache κ ε α)
    (hom : ∀ c, f c.unarmed = (f c).unarmed) :
    ({ t.armIfAbsent k with cache := f (t.armIfAbsent k).cache } : TimedCache κ ε α).bare =
      { t.bare with cache := f t.bare.cache } := by
  rw [← bare_armIfAbsent t k, bare_cache, hom]
  rfl

/-! ## Operations -/

theorem observe_bare (h : Holder κ) (k : κ) : t.bare.observe h k = (t.observe h k).bare :=
  (bare_after_arming t k (·.observe h k) fun c => Cache.observe_unarmed c h k).symm

theorem glance_bare (k : κ) : t.bare.glance k = (t.glance k).bare :=
  (bare_after_arming t k (·.glance k) fun c => Cache.glance_unarmed c k).symm

theorem release_bare (h : Holder κ) : t.bare.release h = (t.release h).bare :=
  congrArg (fun c => { t.bare with cache := c }) (Cache.release_unarmed t.cache h)

theorem snapshot_bare (k : κ) : t.bare.snapshot k = ((t.snapshot k).1.bare, (t.snapshot k).2) := by
  have taken := Cache.snapshot_unarmed (t.armIfAbsent k).cache k
  have hom : ∀ c : Cache κ ε α, (c.unarmed.snapshot k).1 = (c.snapshot k).1.unarmed :=
    fun c => congrArg Prod.fst (Cache.snapshot_unarmed c k)
  rw [← bare_cache, bare_armIfAbsent] at taken
  exact Prod.ext (bare_after_arming t k (fun c => (c.snapshot k).1) hom).symm
    (congrArg Prod.snd taken :)

theorem await_bare (h : Option (Holder κ)) (k : κ) :
    t.bare.await h k = ((t.await h k).1.bare, (t.await h k).2) := by
  have awaited := Cache.await_unarmed (t.armIfAbsent k).cache h k
  have hom : ∀ c : Cache κ ε α, (c.unarmed.await h k).1 = (c.await h k).1.unarmed :=
    fun c => congrArg Prod.fst (Cache.await_unarmed c h k)
  rw [← bare_cache, bare_armIfAbsent] at awaited
  exact Prod.ext (bare_after_arming t k (fun c => (c.await h k).1) hom).symm
    (congrArg Prod.snd awaited :)

theorem poll_bare (h : Holder κ) : t.bare.poll h = ((t.poll h).1.bare, (t.poll h).2) := by
  unfold poll
  rw [bare_cache, Cache.poll_unarmed, show t.cache.unarmed.observers = t.cache.observers from rfl]
  dsimp only
  cases t.cache.observers.find? h with
  | none => rfl
  | some s =>
      cases (t.cache.poll h).2 with
      | none => rfl
      | some v =>
          dsimp only
          split
          next => exact Prod.ext (bare_arm { t with cache := (t.cache.poll h).1 } _).symm rfl
          next => rfl

theorem resume_bare (h : Holder κ) : t.bare.resume h = ((t.resume h).1.bare, (t.resume h).2) := by
  unfold resume
  rw [poll_bare]
  dsimp only
  cases (t.poll h).2.bind View.settled? with
  | none => rfl
  | some o => exact Prod.ext (release_bare _ h) rfl

theorem set_bare (k : κ) (value : α) : t.bare.set k value = (t.set k value).bare := by
  unfold set
  rw [bare_arm]
  exact congrArg (fun c => { t.bare with cache := c }) (Cache.set_unarmed t.cache k value)

theorem expire_bare (k : κ) : t.bare.expire k = (t.expire k).bare :=
  congrArg (fun c => { t.bare with cache := c }) (Cache.expire_unarmed t.cache k)

theorem expireAll_bare : t.bare.expireAll = t.expireAll.bare :=
  congrArg (fun c => { t.bare with cache := c }) (Cache.expireAll_unarmed t.cache)

/-! ## Time -/

/-- No key is armed with a timer that is due. -/
def Calm (t : TimedCache κ ε α) : Prop :=
  ∀ x, t.expiration = some x → ∀ timer ∈ x.timers, x.isCurrent timer = true →
    t.clock < timer.deadline

theorem calm_of_none {t : TimedCache κ ε α} (none : t.expiration = none) : t.Calm := by
  intro x found
  rw [none] at found
  cases found

instance (t : TimedCache κ ε α) : Decidable t.Calm :=
  match timed : t.expiration with
  | none => .isTrue (calm_of_none timed)
  | some x =>
      decidable_of_iff
        (∀ timer ∈ x.timers, x.isCurrent timer = true → t.clock < timer.deadline)
        ⟨fun calm _ found => Option.some.inj (timed.symm.trans found) ▸ calm,
          fun calm => calm x timed⟩

theorem foldl_fire_of_past {x : Expiration κ} (due : List (Timer κ)) {t : TimedCache κ ε α}
    (expires : t.expiration = some x) (past : ∀ timer ∈ due, x.isCurrent timer = false) :
    due.foldl fire t = t := by
  induction due with
  | nil => rfl
  | cons timer rest ih =>
      have idle : t.fire timer = t := by
        unfold fire
        rw [expires]
        dsimp only
        rw [if_neg (by simp [past timer List.mem_cons_self])]
      rw [List.foldl_cons, idle, ih fun u mem => past u (List.mem_cons_of_mem _ mem)]

/-- Timers that are due and that no key is armed with are forgotten. -/
theorem fireDue_of_calm {t : TimedCache κ ε α} (calm : t.Calm) :
    t.fireDue = { t with expiration := t.expiration.map fun x =>
      { x with timers := x.timers.filter fun timer => t.clock < timer.deadline } } := by
  cases expires : t.expiration with
  | none =>
      unfold fireDue
      rw [expires]
      obtain ⟨cache, clock, expiration⟩ := t
      cases expires
      rfl
  | some x =>
      unfold fireDue
      rw [expires]
      dsimp only [Option.map_some]
      refine foldl_fire_of_past (x := { x with
        timers := x.timers.filter fun timer => t.clock < timer.deadline }) _ rfl ?_
      intro timer mem
      obtain ⟨listed, due⟩ := List.mem_filter.1 mem
      refine Bool.eq_false_iff.2 fun current => ?_
      exact Nat.not_lt.2 (of_decide_eq_true due) (calm x expires timer listed current)

theorem bare_fireDue_of_calm {t : TimedCache κ ε α} (calm : t.Calm) :
    t.fireDue.bare = t.bare := by
  rw [fireDue_of_calm calm]
  rfl

/-- The timers that are left are not due. -/
theorem Calm.fireDue {t : TimedCache κ ε α} (calm : t.Calm) : t.fireDue.Calm := by
  rw [fireDue_of_calm calm]
  intro y found timer listed _
  obtain ⟨x, -, rfl⟩ := Option.map_eq_some_iff.1 found
  simpa using (List.mem_filter.1 listed).2

end LiveCache.TimedCache
