import LiveCache.Proofs.Timed.Freshness
import LiveCache.Proofs.Timed.Turns

/-! # What arms a key

Each arming of a key gives it a new token, so a key was armed by a move exactly if its token is one
that was not given before. `Arms` lists the moves that do it: asking for a key that is not armed,
setting it, and reading a current outcome from a subscription that has given a view before.
-/

namespace LiveCache.TimedCache

variable {κ ε α : Type} [DecidableEq κ] {t t' : TimedCache κ ε α} {x : Expiration κ}
  {lossy : Prop} {k : κ} {y : Holder κ}

/-- The token that the key is armed with. -/
def token? (t : TimedCache κ ε α) (k : κ) : Option Nat :=
  t.expiration.bind fun x => x.armed.find? k

/-- The subscription has given a view before and gives a current outcome of the key now. -/
def GivesAnew (t : TimedCache κ ε α) (y : Holder κ) (k : κ) : Prop :=
  ∃ s o, t.cache.observers.find? y = some s ∧ s.entry.key = k ∧ s.seen.isSome = true ∧
    (t.poll y).2 = some (.known o .done)

/-- The moves that arm a key. -/
inductive Arms (t : TimedCache κ ε α) (k : κ) : TimedCache κ ε α → Prop where
  | observe (y : Holder κ) (unarmed : t.isArmed k = false) : Arms t k (t.observe y k)
  | glance (unarmed : t.isArmed k = false) : Arms t k (t.glance k)
  | snapshot (unarmed : t.isArmed k = false) : Arms t k (t.snapshot k).1
  | await (y : Option (Holder κ)) (unarmed : t.isArmed k = false) : Arms t k (t.await y k).1
  | set (value : α) : Arms t k (t.set k value)
  | poll (y : Holder κ) (gives : t.GivesAnew y k) : Arms t k (t.poll y).1
  | resume (y : Holder κ) (gives : t.GivesAnew y k) : Arms t k (t.resume y).1

/-! ## Tokens -/

theorem token?_congr (same : t'.expiration = t.expiration) (k : κ) : t'.token? k = t.token? k := by
  unfold token?
  rw [same]

theorem isSome_token? (t : TimedCache κ ε α) (k : κ) : (t.token? k).isSome = t.isArmed k := by
  unfold token? isArmed
  cases t.expiration <;> rfl

theorem token?_arm (timed : t.expiration = some x) (k k' : κ) :
    (t.arm k).token? k' = if k = k' then some x.nextToken else t.token? k' := by
  simp [token?, arm, timed, Expiration.arm, Registry.find?_insert]

theorem token?_armIfAbsent (timed : t.expiration = some x) (k k' : κ) :
    (t.armIfAbsent k).token? k' =
      if k = k' ∧ t.isArmed k = false then some x.nextToken else t.token? k' := by
  unfold armIfAbsent
  split
  next armed => rw [if_neg (by simp [armed])]
  next unarmed =>
    rw [token?_arm timed]
    simp [unarmed]

theorem token?_poll (timed : t.expiration = some x) (gives : t.GivesAnew y k) :
    (t.poll y).1.token? k = some x.nextToken := by
  obtain ⟨s, o, found, rfl, late, given⟩ := gives
  rw [poll_view] at given
  have armed : (t.poll y).1 = ({ t with cache := (t.cache.poll y).1 } : TimedCache κ ε α).arm
      s.entry.key := by
    simp [poll, found, given, late, View.isDone]
  rw [armed, token?_arm (t := { t with cache := (t.cache.poll y).1 }) timed, if_pos rfl]

theorem token?_poll_of_not (timed : t.expiration = some x) (keeps : ¬ t.GivesAnew y k) :
    (t.poll y).1.token? k = t.token? k := by
  unfold poll
  dsimp only
  split
  next s v found polled =>
    split
    next gives =>
      rw [token?_arm (t := { t with cache := (t.cache.poll y).1 }) timed, if_neg]
      · rfl
      · intro same
        obtain ⟨o, rfl⟩ := (View.isDone_iff v).1 gives.1
        exact keeps ⟨s, o, found, same, gives.2, (poll_view t y).trans polled⟩
    next => rfl
  next => rfl

theorem resume_expiration (t : TimedCache κ ε α) (y : Holder κ) :
    (t.resume y).1.expiration = (t.poll y).1.expiration := by
  unfold resume
  dsimp only
  split <;> rfl

theorem token?_of_disarm (k' : κ) {n : Nat}
    (expiration : t'.expiration = t.expiration.map fun x => x.disarm k')
    (armed : t'.token? k = some n) : t.token? k = some n := by
  unfold token? at armed ⊢
  rw [expiration] at armed
  cases timed : t.expiration with
  | none => simp [timed] at armed
  | some x =>
      simp only [timed, Option.map_some, Option.bind_some, Expiration.disarm,
        Registry.find?_erase] at armed
      split at armed
      next => cases armed
      next => exact armed

/-- Firing arms nothing. -/
theorem token?_of_fireDue {n : Nat} (armed : t.fireDue.token? k = some n) :
    t.token? k = some n := by
  refine fireDue_keeps (P := fun u => u.token? k = some n → t.token? k = some n) id ?_ ?_ armed
  · intro x timers timed armed
    rw [← armed]
    simp [token?, timed]
  · intro u timer held armed
    refine held ?_
    unfold fire at armed
    split at armed
    next => exact armed
    next x timed =>
      split at armed
      next => exact token?_of_disarm timer.key (by simp [timed]) armed
      next => exact armed

/-! ## Arming -/

/-- A key that is armed by a move has the next token. -/
theorem Arms.token? (timed : t.expiration = some x) (arms : Arms t k t') :
    t'.token? k = some x.nextToken := by
  have asked : t.isArmed k = false → (t.armIfAbsent k).token? k = some x.nextToken := by
    intro unarmed
    rw [token?_armIfAbsent timed, if_pos ⟨rfl, unarmed⟩]
  cases arms with
  | observe y unarmed => exact asked unarmed
  | glance unarmed => exact asked unarmed
  | snapshot unarmed => exact asked unarmed
  | await y unarmed => exact asked unarmed
  | set value =>
      rw [TimedCache.set, token?_arm (t := { t with cache := t.cache.set k value }) timed,
        if_pos rfl]
  | poll y gives => exact token?_poll timed gives
  | resume y gives =>
      rw [token?_congr (resume_expiration t y)]
      exact token?_poll timed gives

theorem arms_of_armIfAbsent (timed : t.expiration = some x) {k' : κ}
    (anew : t.token? k ≠ some x.nextToken)
    (armed : (t.armIfAbsent k').token? k = some x.nextToken) : k' = k ∧ t.isArmed k = false := by
  rw [token?_armIfAbsent timed] at armed
  split at armed
  next asked => exact ⟨asked.1, asked.1 ▸ asked.2⟩
  next => exact absurd armed anew

/-- A key is armed by the moves that arm it, and by no others. -/
theorem Move.token?_iff (timed : t.expiration = some x) (fresh : t.token? k ≠ some x.nextToken)
    (move : Move lossy t t') : t'.token? k = some x.nextToken ↔ Arms t k t' := by
  refine ⟨fun armed => ?_, fun arms => arms.token? timed⟩
  cases move with
  | deed deed =>
      cases deed with
      | observe y k' =>
          obtain ⟨rfl, unarmed⟩ := arms_of_armIfAbsent timed fresh armed
          exact .observe y unarmed
      | glance k' =>
          obtain ⟨rfl, unarmed⟩ := arms_of_armIfAbsent timed fresh armed
          exact .glance unarmed
      | snapshot k' =>
          obtain ⟨rfl, unarmed⟩ := arms_of_armIfAbsent timed fresh armed
          exact .snapshot unarmed
      | poll y =>
          by_cases gives : t.GivesAnew y k
          · exact .poll y gives
          · rw [token?_poll_of_not timed gives] at armed
            exact absurd armed fresh
      | await y k' =>
          obtain ⟨rfl, unarmed⟩ := arms_of_armIfAbsent timed fresh armed
          exact .await y unarmed
      | resume y =>
          by_cases gives : t.GivesAnew y k
          · exact .resume y gives
          · rw [token?_congr (resume_expiration t y), token?_poll_of_not timed gives] at armed
            exact absurd armed fresh
      | release y => exact absurd armed fresh
      | set k' value =>
          rw [TimedCache.set, token?_arm (t := { t with cache := t.cache.set k' value }) timed]
            at armed
          split at armed
          next same => exact same ▸ .set value
          next => exact absurd armed fresh
      | expire k' => exact absurd (token?_of_disarm k' rfl armed) fresh
      | expireAll tasks listed log =>
          unfold TimedCache.token? TimedCache.expireAll at armed
          simp [timed, Expiration.disarmAll] at armed
      | sweep log => exact absurd armed fresh
      | pass time => exact absurd armed fresh
      | fireDue => exact absurd (token?_of_fireDue armed) fresh
  | close => exact absurd armed fresh
  | call u listed spared first => exact absurd armed fresh
  | finish u listed called alive o report => exact absurd armed fresh
  | leave u listed why => exact absurd armed fresh

end LiveCache.TimedCache
