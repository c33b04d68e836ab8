import LiveCache.Proofs.Timed.Freshness
import LiveCache.Proofs.Timed.Turns

/-! # Which keys have a timer

A key has a timer when it was armed and has not expired since. A snapshot, and a wait that is over
at once, leave the key armed. So does a subscription that gives a newer outcome than it gave before.
The first view of a subscription arms nothing: if the key has expired since it was asked for, a
current outcome is given and nothing will end it.
-/

namespace LiveCache

variable {κ ε α : Type} [DecidableEq κ]

namespace Cache

theorem pending_armed (k k' : κ) (time : Nat) (past : List (Happening κ ε α)) :
    pending k' (.armed k time :: past) = (decide (k = k') || pending k' past) := by
  by_cases same : k = k' <;> simp [pending, Happening.times, same]

theorem pending_expired (k k' : κ) (past : List (Happening κ ε α)) :
    pending k' (.expired k :: past) = (!decide (k = k') && pending k' past) := by
  by_cases same : k = k' <;> simp [pending, Happening.times, same]

theorem pending_expiredAll (k : κ) (past : List (Happening κ ε α)) :
    pending k (.expiredAll :: past) = false := by
  simp [pending, Happening.times]

end Cache

namespace TimedCache

open Cache (armedSince? pending)

variable {t t' : TimedCache κ ε α} {lossy : Prop} {settings : Settings}

/-- The armed keys are those of which the history says so. -/
structure Timely (t : TimedCache κ ε α) : Prop where
  timed : t.expiration.isSome = true
  armed : ∀ k, t.isArmed k = pending k t.cache.history

/-- Whatever starts and ends no timer. -/
theorem Timely.quiet (h : Timely t) (same : t'.expiration = t.expiration)
    (past : ∀ k, armedSince? k t'.cache.history = armedSince? k t.cache.history) : Timely t' where
  timed := by rw [same, h.timed]
  armed := by
    intro k
    rw [← Cache.isSome_armedSince?, past, Cache.isSome_armedSince?, ← h.armed]
    unfold isArmed
    rw [same]

/-! ## Timers -/

theorem isArmed_arm {x : Expiration κ} (timed : t.expiration = some x) (k k' : κ) :
    (t.arm k).isArmed k' = (decide (k = k') || t.isArmed k') := by
  by_cases same : k = k' <;>
    simp [arm, isArmed, timed, Expiration.arm, Registry.contains, Registry.find?_insert, same]

/-- Whoever asks for a key leaves it armed. -/
theorem Timely.isArmed_armIfAbsent (h : Timely t) (k : κ) :
    (t.armIfAbsent k).isArmed k = true := by
  obtain ⟨x, timed⟩ := Option.isSome_iff_exists.1 h.timed
  unfold TimedCache.armIfAbsent
  split
  next armed => exact armed
  next => rw [isArmed_arm timed]; simp

theorem Timely.disarm (h : Timely t) {k : κ}
    (expiration : t'.expiration = t.expiration.map fun x => x.disarm k)
    (past : t'.cache.history = .expired k :: t.cache.history) : Timely t' := by
  obtain ⟨x, timed⟩ := Option.isSome_iff_exists.1 h.timed
  rw [timed, Option.map_some] at expiration
  refine ⟨by rw [expiration]; rfl, fun k' => ?_⟩
  have before := h.armed k'
  rw [past, Cache.pending_expired, ← before]
  by_cases same : k = k' <;>
    simp [isArmed, timed, expiration, Expiration.disarm, Registry.contains, Registry.find?_erase,
      same]

theorem Timely.fire (h : Timely t) (timer : Timer κ) : Timely (t.fire timer) := by
  obtain ⟨x, timed⟩ := Option.isSome_iff_exists.1 h.timed
  simp only [TimedCache.fire, timed]
  split
  next => exact h.disarm (by simp [timed]) (Cache.expire_history t.cache timer.key)
  next => exact h

theorem Timely.fireDue (h : Timely t) : Timely t.fireDue := by
  refine fireDue_keeps h ?_ fun _ timer held => held.fire timer
  intro x timers timed
  refine ⟨rfl, fun k => ?_⟩
  rw [← h.armed k]
  simp [isArmed, timed]

theorem Turn.timely (h : Timely t) (turn : Turn t t') : Timely t' := by
  obtain ⟨x, timed⟩ := Option.isSome_iff_exists.1 h.timed
  cases turn with
  | quiet expiration past alive => exact h.quiet expiration past
  | arm k expiration past alive =>
      rw [timed, Option.map_some] at expiration
      refine ⟨by rw [expiration]; rfl, fun k' => ?_⟩
      have before := h.armed k'
      rw [past, Cache.pending_armed, ← before]
      by_cases same : k = k' <;>
        simp [isArmed, timed, expiration, Expiration.arm, Registry.contains, Registry.find?_insert,
          same]
  | disarm k expiration past alive => exact h.disarm expiration past
  | disarmAll expiration past alive =>
      rw [timed, Option.map_some] at expiration
      refine ⟨by rw [expiration]; rfl, fun k => ?_⟩
      rw [past, Cache.pending_expiredAll]
      simp [isArmed, expiration, Expiration.disarmAll, Registry.contains]
  | fireDue coherent eq => exact eq ▸ h.fireDue

theorem Reached.timely {ttl : Nat} (h : Reached lossy settings (some ttl) t) : Timely t := by
  obtain ⟨wakes, turns⟩ := h.turns
  generalize t = u at turns
  induction turns with
  | refl => exact ⟨rfl, fun _ => rfl⟩
  | tail _ turn ih => exact turn.timely ih

/-! ## Deliveries -/

theorem isArmed_poll {x : Expiration κ} (timed : t.expiration = some x) {y : Holder κ}
    {s : Subscription κ} (found : t.cache.observers.find? y = some s) {o : Outcome ε α}
    (given : (t.poll y).2 = some (.known o .done)) :
    (t.poll y).1.isArmed s.entry.key = (s.seen.isSome || t.isArmed s.entry.key) := by
  rw [poll_view] at given
  unfold poll
  dsimp only
  rw [found, given]
  dsimp only
  cases seen : s.seen with
  | none =>
      rw [if_neg (by simp)]
      rfl
  | some version =>
      rw [if_pos (by simp [View.isDone])]
      have armed := isArmed_arm (t := { t with cache := (t.cache.poll y).1 }) timed s.entry.key
        s.entry.key
      rw [armed]
      simp

/-- After a snapshot or a finished wait the key has a timer. After a subscription has given a
current outcome it has one if and only if this was not the first view that it gave, or the key has
not expired since it was last armed. -/
theorem delivered_armed_iff {ttl : Nat} (h : Reached lossy settings (some ttl) t) :
    (∀ k, (t.snapshot k).1.isArmed k = true) ∧
    (∀ x k, (t.await x k).1.isArmed k = true) ∧
    (∀ x s o, t.cache.observers.find? x = some s → (t.poll x).2 = some (.known o .done) →
      ((t.poll x).1.isArmed s.entry.key = true ↔
        s.seen.isSome = true ∨ pending s.entry.key t.cache.history = true)) ∧
    (∀ x s o, t.cache.observers.find? x = some s → (t.resume x).2 = some o →
      ((t.resume x).1.isArmed s.entry.key = true ↔
        s.seen.isSome = true ∨ pending s.entry.key t.cache.history = true)) := by
  have timely := h.timely
  obtain ⟨x, timed⟩ := Option.isSome_iff_exists.1 timely.timed
  have polled : ∀ y s o, t.cache.observers.find? y = some s →
      (t.poll y).2 = some (.known o .done) →
      ((t.poll y).1.isArmed s.entry.key = true ↔
        s.seen.isSome = true ∨ pending s.entry.key t.cache.history = true) := by
    intro y s o found given
    rw [isArmed_poll timed found given, timely.armed, Bool.or_eq_true]
  have asked := fun k => timely.isArmed_armIfAbsent k
  refine ⟨asked, fun _ => asked, polled, ?_⟩
  intro y s o found given
  have view : (t.poll y).2 = some (.known o .done) := by
    rw [poll_view]
    rw [resume_answer, Option.bind_eq_some_iff] at given
    obtain ⟨v, shown, settled⟩ := given
    rw [shown, (View.settled?_eq_some_iff v o).1 settled]
  have resumed : (t.resume y).1.isArmed = (t.poll y).1.isArmed := by
    unfold resume
    dsimp only
    split <;> rfl
  rw [resumed]
  exact polled y s o found view

/-- A key is asked for and computed at once. Its timer still runs when the outcome is read. -/
theorem delivered_armed_iff_in_time :
    let asked : TimedCache Nat Nat Nat := (opened {} (some 10)).observe (.reader "r") 0
    let u : Task Nat := ⟨⟨0, 0⟩, ⟨0, 0⟩, ⟨0, 0⟩⟩
    let called := { asked with cache := asked.cache.note (.called u.id) }
    let done := { called with cache := (called.cache.withdraw u none).settle u (.success 7) }
    (done.poll (.reader "r")).2 = some (.known (.success 7) .done) ∧
      (done.poll (.reader "r")).1.isArmed 0 = true := by
  intro asked u called done
  have first : Reached False {} (some 10) asked := .single (.deed (.observe (.reader "r") 0))
  have second : Reached False {} (some 10) called :=
    first.tail (.call u (by decide) (by decide) (by decide))
  have third : Reached False {} (some 10) done :=
    second.tail (.finish u (by decide) (by decide) rfl (.success 7) none)
  have given : (done.poll (.reader "r")).2 = some (.known (.success 7) .done) := by decide
  have armed := (delivered_armed_iff third).2.2.1 (.reader "r") ⟨⟨0, 0⟩, none⟩ (.success 7)
    (by decide) given
  exact ⟨given, armed.2 (.inr (by decide))⟩

/-- A key is asked for, expires before the reader looks, and is computed anew. What the reader is
then given as current has no timer. -/
theorem first_view_unarmed :
    let asked : TimedCache Nat Nat Nat := (opened {} (some 10)).observe (.reader "r") 0
    let late := { asked with clock := asked.clock + 10 }
    let expired := late.fireDue
    let u : Task Nat := ⟨⟨0, 1⟩, ⟨0, 0⟩, ⟨1, 1⟩⟩
    let called := { expired with cache := expired.cache.note (.called u.id) }
    let done := { called with cache := (called.cache.withdraw u none).settle u (.success 7) }
    Reached False {} (some 10) done ∧
      (done.poll (.reader "r")).2 = some (.known (.success 7) .done) ∧
      (done.poll (.reader "r")).1.isArmed 0 = false := by
  intro asked late expired u called done
  have first : Reached False {} (some 10) asked := .single (.deed (.observe (.reader "r") 0))
  have second : Reached False {} (some 10) expired :=
    (first.tail (.deed (.pass 10))).tail (.deed .fireDue)
  have third : Reached False {} (some 10) called :=
    second.tail (.call u (by decide) (by decide) (by decide))
  exact ⟨third.tail (.finish u (by decide) (by decide) rfl (.success 7) none), by decide,
    by decide⟩

end TimedCache

end LiveCache
