import LiveCache.Proofs.Recast.Cache
import LiveCache.Timed

/-! # Timed caches that are recast

Timers are started when an operation is asked for, or when a reader is given a current outcome. A
recast changes neither, so the timers of a recast cache are those of the cache itself.
-/

namespace LiveCache.TimedCache

variable {κ ε α : Type} (φ : Recast ε α)

def recast (t : TimedCache κ ε α) : TimedCache κ ε α := { t with cache := t.cache.recast φ }

variable (t : TimedCache κ ε α)

@[simp] theorem recast_cache : (t.recast φ).cache = t.cache.recast φ := rfl

@[simp] theorem recast_expiration : (t.recast φ).expiration = t.expiration := rfl

variable [DecidableEq κ]

theorem arm_recast (k : κ) : (t.recast φ).arm k = (t.arm k).recast φ := by
  unfold arm
  rw [recast_expiration]
  split <;> rfl

theorem armIfAbsent_recast (k : κ) : (t.recast φ).armIfAbsent k = (t.armIfAbsent k).recast φ := by
  unfold armIfAbsent
  rw [arm_recast, show (t.recast φ).isArmed k = t.isArmed k from rfl]
  split <;> rfl

/-! ## Operations -/

theorem observe_recast (h : Holder κ) (k : κ) :
    (t.recast φ).observe h k = (t.observe h k).recast φ := by
  unfold observe
  rw [armIfAbsent_recast]
  exact congrArg (fun c => { t.armIfAbsent k with cache := c }) (Cache.observe_recast φ _ h k)

theorem glance_recast (k : κ) : (t.recast φ).glance k = (t.glance k).recast φ := by
  unfold glance
  rw [armIfAbsent_recast]
  exact congrArg (fun c => { t.armIfAbsent k with cache := c }) (Cache.glance_recast φ _ k)

theorem release_recast (h : Holder κ) : (t.recast φ).release h = (t.release h).recast φ :=
  congrArg (fun c => { t with cache := c }) (Cache.release_recast φ t.cache h)

theorem snapshot_recast (k : κ) :
    (t.recast φ).snapshot k = ((t.snapshot k).1.recast φ, φ.view (t.snapshot k).2) := by
  unfold snapshot
  rw [armIfAbsent_recast]
  dsimp only
  rw [recast_cache, Cache.snapshot_recast]
  rfl

theorem poll_recast (h : Holder κ) :
    (t.recast φ).poll h = ((t.poll h).1.recast φ, (t.poll h).2.map φ.view) := by
  unfold poll
  rw [recast_cache, Cache.poll_recast, Cache.recast_observers]
  dsimp only
  cases t.cache.observers.find? h with
  | none => rfl
  | some s =>
      cases (t.cache.poll h).2 with
      | none => rfl
      | some v =>
          dsimp only [Option.map_some]
          rw [φ.isDone_view]
          split
          next => exact Prod.ext (arm_recast φ { t with cache := (t.cache.poll h).1 } _) rfl
          next => rfl

theorem await_recast (h : Option (Holder κ)) (k : κ) :
    (t.recast φ).await h k = ((t.await h k).1.recast φ, (t.await h k).2.map φ.outcome) := by
  unfold await
  rw [armIfAbsent_recast]
  dsimp only
  rw [recast_cache, Cache.await_recast]
  rfl

theorem resume_recast (h : Holder κ) :
    (t.recast φ).resume h = ((t.resume h).1.recast φ, (t.resume h).2.map φ.outcome) := by
  unfold resume
  rw [poll_recast]
  dsimp only
  have answer : ((t.poll h).2.map φ.view).bind View.settled? =
      ((t.poll h).2.bind View.settled?).map φ.outcome := by
    cases (t.poll h).2 with
    | none => rfl
    | some v => exact φ.settled?_view v
  rw [answer]
  cases (t.poll h).2.bind View.settled? with
  | none => rfl
  | some o => exact Prod.ext (release_recast φ _ h) rfl

theorem set_recast (k : κ) (value : α) : (t.recast φ).set k value = (t.set k value).recast φ := by
  unfold set
  rw [recast_cache, Cache.set_recast]
  exact arm_recast φ { t with cache := t.cache.set k value } k

theorem expire_recast (k : κ) : (t.recast φ).expire k = (t.expire k).recast φ := by
  unfold expire
  rw [recast_cache, Cache.expire_recast]
  rfl

theorem expireAll_recast : (t.recast φ).expireAll = t.expireAll.recast φ := by
  unfold expireAll
  rw [recast_cache, Cache.expireAll_recast]
  rfl

/-! ## Time -/

theorem fire_recast (timer : Timer κ) : (t.recast φ).fire timer = (t.fire timer).recast φ := by
  unfold fire
  rw [recast_expiration]
  cases t.expiration with
  | none => rfl
  | some x =>
      dsimp only
      rw [recast_cache, Cache.recast_alive, Cache.expire_recast]
      split <;> rfl

theorem foldl_fire_recast (due : List (Timer κ)) :
    due.foldl fire (t.recast φ) = (due.foldl fire t).recast φ :=
  List.foldl_hom (recast φ) fun t timer => fire_recast φ t timer

theorem fireDue_recast : (t.recast φ).fireDue = t.fireDue.recast φ := by
  unfold fireDue
  rw [recast_expiration]
  cases t.expiration with
  | none => rfl
  | some x =>
      let waiting := x.timers.filter fun timer => t.clock < timer.deadline
      exact foldl_fire_recast φ { t with expiration := some { x with timers := waiting } } _

theorem advance_recast (time : Nat) : (t.recast φ).advance time = (t.advance time).recast φ :=
  fireDue_recast φ { t with clock := t.clock + time }

end LiveCache.TimedCache
