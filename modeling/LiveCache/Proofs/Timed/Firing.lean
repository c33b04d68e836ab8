import LiveCache.Proofs.Timed.Tokens

/-! # Which timers fire

Each arming takes a new token and starts one timer with it. The armed table holds the token of the
latest arming of each key, so of the timers that wait exactly one belongs to each armed key, and the
others are spent: their token is not given again, and they do nothing whenever they fire. When the
due timers are fired, the keys that expire are those whose latest arming was early enough.
-/

namespace LiveCache

namespace Expiration

open Cache (armedSince?)

variable {κ ε α : Type} [DecidableEq κ] {x : Expiration κ} {past : List (Happening κ ε α)}
  {timer : Timer κ} {waiting : List (Timer κ)}

/-- The keys whose timer is due, in the order of arming. -/
def firing (x : Expiration κ) (clock : Nat) : List κ :=
  (x.timers.filter fun timer => timer.deadline ≤ clock ∧ x.isCurrent timer).map (·.key)

/-- The timers that wait fit the armed keys and the history. -/
structure Scheduled (x : Expiration κ) (past : List (Happening κ ε α))
    (waiting : List (Timer κ)) : Prop where
  fresh : ∀ timer ∈ waiting, timer.token < x.nextToken
  distinct : (waiting.map (·.token)).Nodup
  armed : ∀ k n, x.armed.find? k = some n →
    ∃ time, armedSince? k past = some time ∧ ⟨k, n, x.deadline time⟩ ∈ waiting
  unarmed : ∀ k, x.armed.find? k = none → armedSince? k past = none

theorem isCurrent_iff (x : Expiration κ) (timer : Timer κ) :
    x.isCurrent timer = true ↔ x.armed.find? timer.key = some timer.token := by
  simp [isCurrent]

/-! ## Arming and disarming -/

theorem Scheduled.arm (h : x.Scheduled past waiting) (clock : Nat) (k : κ) :
    (x.arm clock k).Scheduled (.armed k clock :: past)
      (waiting ++ [⟨k, x.nextToken, x.deadline clock⟩]) where
  fresh := by
    intro timer mem
    rcases List.mem_append.1 mem with old | new
    · exact Nat.lt_succ_of_lt (h.fresh timer old)
    · rw [List.mem_singleton.1 new]
      exact Nat.lt_succ_self _
  distinct := by
    rw [List.map_append, List.nodup_append]
    refine ⟨h.distinct, by simp, ?_⟩
    intro n old m new same
    obtain ⟨timer, mem, rfl⟩ := List.mem_map.1 old
    have bound := h.fresh timer mem
    simp at new
    omega
  armed := by
    intro k' n found
    rw [Cache.armedSince?_armed]
    simp only [Expiration.arm, Registry.find?_insert] at found
    by_cases same : k = k'
    · rw [if_pos same] at found ⊢
      cases found
      exact ⟨clock, rfl, by simp [same, deadline, Expiration.arm]⟩
    · rw [if_neg same] at found ⊢
      obtain ⟨time, since, mem⟩ := h.armed k' n found
      exact ⟨time, since, List.mem_append_left _ mem⟩
  unarmed := by
    intro k' found
    rw [Cache.armedSince?_armed]
    simp only [Expiration.arm, Registry.find?_insert] at found
    by_cases same : k = k'
    · rw [if_pos same] at found
      cases found
    · rw [if_neg same] at found ⊢
      exact h.unarmed k' found

theorem Scheduled.disarm (h : x.Scheduled past waiting) (k : κ) :
    (x.disarm k).Scheduled (.expired k :: past) waiting where
  fresh := h.fresh
  distinct := h.distinct
  armed := by
    intro k' n found
    rw [Cache.armedSince?_expired]
    simp only [Expiration.disarm, Registry.find?_erase] at found
    by_cases same : k = k'
    · rw [if_pos same] at found
      cases found
    · rw [if_neg same] at found ⊢
      exact h.armed k' n found
  unarmed := by
    intro k' found
    rw [Cache.armedSince?_expired]
    simp only [Expiration.disarm, Registry.find?_erase] at found
    by_cases same : k = k'
    · rw [if_pos same]
    · rw [if_neg same] at found ⊢
      exact h.unarmed k' found

theorem Scheduled.disarmAll (h : x.Scheduled past waiting) :
    x.disarmAll.Scheduled (.expiredAll :: past) waiting where
  fresh := h.fresh
  distinct := h.distinct
  armed := by
    intro k n found
    cases found
  unarmed := fun k _ => Cache.armedSince?_expiredAll k past

theorem Scheduled.quiet {past' : List (Happening κ ε α)} (h : x.Scheduled past waiting)
    (same : ∀ k, armedSince? k past' = armedSince? k past) : x.Scheduled past' waiting where
  fresh := h.fresh
  distinct := h.distinct
  armed := by
    intro k n found
    rw [same]
    exact h.armed k n found
  unarmed := by
    intro k found
    rw [same]
    exact h.unarmed k found

theorem Scheduled.perm {waiting' : List (Timer κ)} (h : x.Scheduled past waiting)
    (perm : waiting.Perm waiting') : x.Scheduled past waiting' where
  fresh := fun timer mem => h.fresh timer (perm.mem_iff.2 mem)
  distinct := (perm.map _).nodup_iff.1 h.distinct
  armed := by
    intro k n found
    obtain ⟨time, since, mem⟩ := h.armed k n found
    exact ⟨time, since, perm.mem_iff.1 mem⟩
  unarmed := h.unarmed

/-- A timer that no key is armed with is not missed. -/
theorem Scheduled.drop (h : x.Scheduled past (timer :: waiting))
    (spent : x.isCurrent timer = false) : x.Scheduled past waiting where
  fresh := fun other mem => h.fresh other (List.mem_cons_of_mem _ mem)
  distinct := (List.nodup_cons.1 h.distinct).2
  armed := by
    intro k n found
    obtain ⟨time, since, mem⟩ := h.armed k n found
    rcases List.mem_cons.1 mem with here | mem
    · rw [← here] at spent
      simp [isCurrent, found] at spent
    · exact ⟨time, since, mem⟩
  unarmed := h.unarmed

/-! ## Tokens -/

theorem Scheduled.eq_of_token (h : x.Scheduled past waiting) {timer' : Timer κ}
    (mem : timer ∈ waiting) (mem' : timer' ∈ waiting) (same : timer.token = timer'.token) :
    timer = timer' :=
  List.inj_on_of_nodup_map h.distinct mem mem' same

/-- The timer of an armed key is due when the time of its arming says so. -/
theorem Scheduled.deadline_of_isCurrent (h : x.Scheduled past waiting) (mem : timer ∈ waiting)
    (current : x.isCurrent timer = true) :
    ∃ time, armedSince? timer.key past = some time ∧ timer.deadline = x.deadline time := by
  obtain ⟨time, since, mem'⟩ := h.armed _ _ ((isCurrent_iff x timer).1 current)
  have same := h.eq_of_token mem mem' rfl
  exact ⟨time, since, congrArg Timer.deadline same⟩

theorem Scheduled.filter_token (h : x.Scheduled past waiting) (mem : timer ∈ waiting) :
    (waiting.filter fun other => other.token = timer.token) = [timer] := by
  have nodup := (List.Nodup.of_map _ h.distinct).filter fun other => other.token = timer.token
  apply List.perm_singleton.1
  rw [List.perm_ext_iff_of_nodup nodup (List.nodup_singleton timer)]
  intro other
  simp only [List.mem_filter, decide_eq_true_eq, List.mem_singleton]
  constructor
  · rintro ⟨mem', same⟩
    exact h.eq_of_token mem' mem same
  · rintro rfl
    exact ⟨mem, rfl⟩

theorem Scheduled.mem_firing_iff (h : x.Scheduled past x.timers) (clock : Nat) (k : κ) :
    k ∈ x.firing clock ↔
      ∃ time, armedSince? k past = some time ∧ x.deadline time ≤ clock := by
  simp only [firing, List.mem_map, List.mem_filter, decide_eq_true_eq]
  constructor
  · rintro ⟨timer, ⟨mem, due, current⟩, rfl⟩
    obtain ⟨time, since, same⟩ := h.deadline_of_isCurrent mem current
    exact ⟨time, since, same ▸ due⟩
  · rintro ⟨time, since, due⟩
    cases found : x.armed.find? k with
    | none =>
        rw [h.unarmed k found] at since
        cases since
    | some n =>
        obtain ⟨time', since', mem⟩ := h.armed k n found
        rw [since] at since'
        cases since'
        exact ⟨_, ⟨mem, due, (isCurrent_iff x _).2 found⟩, rfl⟩

/-- No key is armed with two timers. -/
theorem Scheduled.nodup_keys (h : x.Scheduled past waiting) :
    ((waiting.filter x.isCurrent).map (·.key)).Nodup := by
  have distinct := h.distinct
  rw [List.Nodup, List.pairwise_map] at distinct ⊢
  refine (distinct.filter x.isCurrent).imp_of_mem fun mem mem' other same => other ?_
  have current := (isCurrent_iff x _).1 (List.mem_filter.1 mem).2
  have current' := (isCurrent_iff x _).1 (List.mem_filter.1 mem').2
  rw [same, current'] at current
  exact (Option.some.inj current).symm

/-! ## Several keys -/

/-- Disarming changes the armed table only. -/
theorem foldl_disarm_eq (keys : List κ) (x : Expiration κ) :
    keys.foldl disarm x = { x with armed := (keys.foldl disarm x).armed } := by
  induction keys generalizing x with
  | nil => rfl
  | cons k rest ih => exact ih (x.disarm k)

@[simp] theorem foldl_disarm_timers (keys : List κ) (x : Expiration κ) :
    (keys.foldl disarm x).timers = x.timers := by
  rw [foldl_disarm_eq]

@[simp] theorem foldl_disarm_nextToken (keys : List κ) (x : Expiration κ) :
    (keys.foldl disarm x).nextToken = x.nextToken := by
  rw [foldl_disarm_eq]

@[simp] theorem foldl_disarm_ttl (keys : List κ) (x : Expiration κ) :
    (keys.foldl disarm x).ttl = x.ttl := by
  rw [foldl_disarm_eq]

@[simp] theorem foldl_disarm_wakes (keys : List κ) (x : Expiration κ) :
    (keys.foldl disarm x).wakes = x.wakes := by
  rw [foldl_disarm_eq]

theorem find?_foldl_disarm (keys : List κ) (x : Expiration κ) (k : κ) :
    (keys.foldl disarm x).armed.find? k = if k ∈ keys then none else x.armed.find? k := by
  induction keys generalizing x with
  | nil => rfl
  | cons k' rest ih =>
      rw [List.foldl_cons, ih, Expiration.disarm, Registry.find?_erase]
      by_cases mem : k ∈ rest
      · simp [mem]
      · by_cases same : k' = k
        · simp [same]
        · simp [mem, same, Ne.symm same]

/-- A timer that fires is not the current one of any other timer's key. -/
theorem Scheduled.isCurrent_disarm (h : x.Scheduled past (timer :: waiting))
    (current : x.isCurrent timer = true) {other : Timer κ} (mem : other ∈ waiting) :
    (x.disarm timer.key).isCurrent other = x.isCurrent other := by
  have distinct := List.nodup_cons.1 h.distinct
  have differ : other.token ≠ timer.token :=
    fun same => distinct.1 (List.mem_map.2 ⟨other, mem, same⟩)
  have armed := (isCurrent_iff x timer).1 current
  unfold isCurrent
  rw [Expiration.disarm, Registry.find?_erase]
  by_cases same : timer.key = other.key
  · rw [if_pos same, ← same, armed]
    simp [Ne.symm differ]
  · rw [if_neg same]

end Expiration

namespace TimedCache

open Cache (armedSince? Coherent)

variable {κ ε α : Type} [DecidableEq κ] {t t' : TimedCache κ ε α} {x : Expiration κ}
  {lossy : Prop} {settings : Settings} {ttl : Nat} {wakes : Nat → Nat → Nat}

/-! ## Firing -/

theorem fire_eq (timed : t.expiration = some x) (alive : t.cache.alive = true)
    (timer : Timer κ) :
    t.fire timer = if x.isCurrent timer then t.expire timer.key else t := by
  simp [fire, expire, timed, alive]

theorem foldl_expire_cache (keys : List κ) (t : TimedCache κ ε α) :
    (keys.foldl expire t).cache = keys.foldl Cache.expire t.cache := by
  induction keys generalizing t with
  | nil => rfl
  | cons k rest ih => exact ih (t.expire k)

theorem foldl_expire_expiration (keys : List κ) (timed : t.expiration = some x) :
    (keys.foldl expire t).expiration = some (keys.foldl Expiration.disarm x) := by
  induction keys generalizing t x with
  | nil => exact timed
  | cons k rest ih => exact ih (by simp [expire, timed])

/-- The keys of the current ones among due timers expire one after the other. -/
theorem foldl_fire (due waiting : List (Timer κ)) :
    ∀ {t : TimedCache κ ε α} {x : Expiration κ}, t.expiration = some x → t.cache.alive = true →
      x.Scheduled t.cache.history (due ++ waiting) →
      let keys := (due.filter x.isCurrent).map (·.key)
      due.foldl fire t = keys.foldl expire t ∧
        (keys.foldl Expiration.disarm x).Scheduled (keys.foldl expire t).cache.history waiting := by
  induction due with
  | nil => exact fun _ _ h => ⟨rfl, h⟩
  | cons timer rest ih =>
      intro t x timed alive h
      rw [List.foldl_cons, fire_eq timed alive]
      cases current : x.isCurrent timer with
      | true =>
          have same : rest.filter (x.disarm timer.key).isCurrent = rest.filter x.isCurrent := by
            refine List.filter_congr fun other mem => ?_
            exact h.isCurrent_disarm current (List.mem_append_left _ mem)
          have disarmed : (t.expire timer.key).expiration = some (x.disarm timer.key) := by
            simp [expire, timed]
          have spent : (x.disarm timer.key).isCurrent timer = false := by
            simp [Expiration.isCurrent, Expiration.disarm]
          have next := (h.disarm timer.key).drop spent
          rw [← Cache.expire_history] at next
          have after := ih disarmed ((Cache.expire_alive t.cache timer.key).trans alive) next
          rw [same] at after
          simpa [current] using after
      | false =>
          have after := ih timed alive (h.drop current)
          simpa [current] using after

/-- What firing the due timers does to a cache that lives. -/
theorem fireDue_eq (timed : t.expiration = some x) (alive : t.cache.alive = true)
    (h : x.Scheduled t.cache.history x.timers) :
    let waiting := x.timers.filter fun timer => t.clock < timer.deadline
    let keys := x.firing t.clock
    t.fireDue = keys.foldl expire { t with expiration := some { x with timers := waiting } } ∧
      (keys.foldl Expiration.disarm { x with timers := waiting }).Scheduled
        t.fireDue.cache.history waiting := by
  intro waiting keys
  let due := x.timers.filter fun timer => timer.deadline ≤ t.clock
  let held : TimedCache κ ε α := { t with expiration := some { x with timers := waiting } }
  have parts : x.timers.Perm (due ++ waiting) := by
    have rest : waiting = x.timers.filter fun timer => !decide (timer.deadline ≤ t.clock) :=
      List.filter_congr fun timer _ => by rw [← decide_not, decide_eq_decide, Nat.not_le]
    rw [rest]
    exact (List.filter_append_perm _ _).symm
  have scheduled : ({ x with timers := waiting } : Expiration κ).Scheduled t.cache.history
      (due ++ waiting) := by
    have parted := h.perm parts
    exact ⟨parted.fresh, parted.distinct, parted.armed, parted.unarmed⟩
  have same : (due.filter x.isCurrent).map (·.key) = keys := by
    simp [due, keys, Expiration.firing, List.filter_filter, Bool.and_comm]
  have fired : t.fireDue = due.foldl fire held := by
    simp only [fireDue, timed]
    rfl
  obtain ⟨eq, after⟩ := foldl_fire due waiting (t := held) rfl alive scheduled
  rw [show due.filter ({ x with timers := waiting } : Expiration κ).isCurrent =
    due.filter x.isCurrent from rfl, same] at eq after
  rw [← eq, ← fired] at after
  exact ⟨fired.trans eq, after⟩

/-! ## Every turn -/

/-- The keys of the cache expire, and its timers fit the keys that are armed. -/
def Punctual (wakes : Nat → Nat → Nat) (ttl : Nat) (t : TimedCache κ ε α) : Prop :=
  ∃ x, t.expiration = some x ∧ (x.wakes = wakes ∧ x.ttl = ttl) ∧
    x.Scheduled t.cache.history x.timers

theorem Turn.punctual (turn : Turn t t') (alive : t.cache.alive = true)
    (h : Punctual wakes ttl t) : Punctual wakes ttl t' := by
  obtain ⟨x, timed, same, scheduled⟩ := h
  cases turn with
  | quiet expiration past _ =>
      exact ⟨x, by rw [expiration, timed], same, scheduled.quiet past⟩
  | arm k expiration past _ =>
      refine ⟨x.arm t.clock k, by simp [expiration, timed], same, ?_⟩
      rw [past]
      exact scheduled.arm t.clock k
  | disarm k expiration past _ =>
      refine ⟨x.disarm k, by simp [expiration, timed], same, ?_⟩
      rw [past]
      exact scheduled.disarm k
  | disarmAll expiration past _ =>
      refine ⟨x.disarmAll, by simp [expiration, timed], same, ?_⟩
      rw [past]
      exact scheduled.disarmAll
  | fireDue _ eq =>
      subst eq
      obtain ⟨eq, after⟩ := fireDue_eq timed alive scheduled
      refine ⟨_, by rw [eq]; exact foldl_expire_expiration _ rfl, by simpa using same, ?_⟩
      simpa using after

theorem Moves.punctual (moves : Moves lossy (opened settings (some ttl) wakes) t)
    (alive : t.cache.alive = true) : Punctual wakes ttl t := by
  have turns := moves.turns ⟨wakes, .refl⟩
  generalize t = u at turns alive
  induction turns with
  | refl =>
      refine ⟨{ ttl := ttl, wakes := wakes }, rfl, ⟨rfl, rfl⟩, ?_⟩
      exact ⟨by simp, List.nodup_nil, by simp [Registry.find?, Registry.findIn], fun _ _ => rfl⟩
  | tail _ turn ih => exact turn.punctual (turn.alive alive) (ih (turn.alive alive))

theorem Reached.punctual (h : Reached lossy settings (some ttl) t) (alive : t.cache.alive = true) :
    ∃ wakes, Punctual wakes ttl t :=
  h.imp fun _ moves => moves.punctual alive

theorem Turns.dead (turns : Turns t t') (dead : t.cache.alive = false) :
    t'.cache.alive = false := by
  induction turns with
  | refl => exact dead
  | tail _ turn ih =>
      rw [← Bool.not_eq_true] at ih ⊢
      exact mt turn.alive ih

/-! ## Spent timers -/

/-- The timer has fired, or its key was armed anew or disarmed since. -/
def Spent (t : TimedCache κ ε α) (timer : Timer κ) : Prop :=
  ∀ x, t.expiration = some x → timer.token < x.nextToken ∧ x.isCurrent timer = false

variable {timer : Timer κ}

theorem Spent.fire (h : Spent t timer) : t.fire timer = t := by
  unfold TimedCache.fire
  split
  next => rfl
  next x timed =>
    rw [if_neg]
    simp [(h x timed).2]

theorem Spent.disarm (h : Spent t timer) {k : κ}
    (expiration : t'.expiration = t.expiration.map fun x => x.disarm k) : Spent t' timer := by
  intro x' timed'
  rw [expiration, Option.map_eq_some_iff] at timed'
  obtain ⟨x, timed, rfl⟩ := timed'
  obtain ⟨given, spent⟩ := h x timed
  refine ⟨given, ?_⟩
  rw [Expiration.isCurrent, Expiration.disarm, Registry.find?_erase]
  split
  next => rfl
  next => exact spent

theorem Spent.fireDue (h : Spent t timer) : Spent t.fireDue timer := by
  apply fireDue_keeps (P := fun u => u.Spent timer) h
  · intro x timers timed x' timed'
    cases timed'
    exact h x timed
  · intro u other held
    unfold TimedCache.fire
    split
    next => exact held
    next x timed =>
      split
      next => exact held.disarm (k := other.key) (by simp [timed])
      next => exact held

theorem Turn.spent (turn : Turn t t') (h : Spent t timer) : Spent t' timer := by
  cases turn with
  | quiet expiration past _ =>
      intro x timed
      exact h x (expiration ▸ timed)
  | arm k expiration past _ =>
      intro x' timed'
      rw [expiration, Option.map_eq_some_iff] at timed'
      obtain ⟨x, timed, rfl⟩ := timed'
      obtain ⟨given, spent⟩ := h x timed
      refine ⟨Nat.lt_succ_of_lt given, ?_⟩
      rw [Expiration.isCurrent, Expiration.arm, Registry.find?_insert]
      split
      next => simpa using Nat.ne_of_gt given
      next => exact spent
  | disarm k expiration past _ => exact h.disarm expiration
  | disarmAll expiration past _ =>
      intro x' timed'
      rw [expiration, Option.map_eq_some_iff] at timed'
      obtain ⟨x, timed, rfl⟩ := timed'
      exact ⟨(h x timed).1, rfl⟩
  | fireDue _ eq => exact eq ▸ h.fireDue

theorem Turns.spent (turns : Turns t t') (h : Spent t timer) : Spent t' timer := by
  induction turns with
  | refl => exact h
  | tail _ turn ih => exact turn.spent ih

theorem Moves.spent {ttl : Option Nat} (h : Reached lossy settings ttl t)
    (spent : Spent t timer) (moves : Moves lossy t t') : Spent t' timer :=
  moves.keep (P := fun u => u.Spent timer) h spent fun hc move before =>
    (move.turns hc).spent before

/-! ## Exact firing -/

theorem spent_of_not_current (timed : t.expiration = some x)
    (h : x.Scheduled t.cache.history x.timers) (mem : timer ∈ x.timers)
    (other : x.isCurrent timer = false) : Spent t timer := by
  intro x' timed'
  rw [timed] at timed'
  cases timed'
  exact ⟨h.fresh timer mem, other⟩

theorem fireDue_expiration (timed : t.expiration = some x) (alive : t.cache.alive = true)
    (h : x.Scheduled t.cache.history x.timers) :
    t.fireDue.expiration = some ((x.firing t.clock).foldl Expiration.disarm
      { x with timers := x.timers.filter fun timer => t.clock < timer.deadline }) := by
  rw [(fireDue_eq timed alive h).1]
  exact foldl_expire_expiration _ rfl

/-- A timer that was due is spent after the firing. -/
theorem spent_fireDue (timed : t.expiration = some x) (alive : t.cache.alive = true)
    (h : x.Scheduled t.cache.history x.timers) (mem : timer ∈ x.timers)
    (due : timer.deadline ≤ t.clock) : Spent t.fireDue timer := by
  intro x' timed'
  rw [fireDue_expiration timed alive h] at timed'
  cases timed'
  refine ⟨by simpa using h.fresh timer mem, ?_⟩
  rw [Expiration.isCurrent, Expiration.find?_foldl_disarm]
  split
  next => rfl
  next absent =>
    cases current : x.isCurrent timer with
    | false => exact current
    | true =>
        refine absurd ?_ absent
        exact List.mem_map.2 ⟨timer, List.mem_filter.2 ⟨mem, by simp [due, current]⟩, rfl⟩

theorem token?_fireDue (timed : t.expiration = some x) (alive : t.cache.alive = true)
    (h : x.Scheduled t.cache.history x.timers) (k : κ) :
    t.fireDue.token? k = if k ∈ x.firing t.clock then none else t.token? k := by
  unfold token?
  rw [fireDue_expiration timed alive h, timed]
  exact Expiration.find?_foldl_disarm _ _ k

/-- A timer of a cache that is gone does nothing. -/
theorem fire_of_dead (dead : t.cache.alive = false) (timer : Timer κ) : t.fire timer = t := by
  unfold TimedCache.fire
  split
  next => rfl
  next => simp [dead]

/-- Let each sleep be over as long after its beginning as the time to live says. As long as the
cache has an owner, each armed key has exactly one of the timers that wait, and the others never do
anything. When the due timers are fired, the keys that expire are those whose latest arming, after
which they have not expired, lies at least the time to live back. No timer fires twice, and a key is
armed anew only as `Arms` says. With the last owner the armed keys are gone, and no timer does
anything. -/
theorem timers_fire_exactly (moves : Moves lossy (opened settings (some ttl) wakes) t)
    (sleeps : ∀ k time, .armed k time ∈ t.cache.history → wakes time ttl = time + ttl) :
    (t.cache.alive = true → ∃ x, t.expiration = some x ∧ x.ttl = ttl ∧
      (∀ k k' n, t.token? k = some n → t.token? k' = some n → k = k') ∧
      (∀ k n, t.token? k = some n → ∃ time, armedSince? k t.cache.history = some time ∧
        (x.timers.filter fun timer => timer.token = n) = [⟨k, n, time + ttl⟩]) ∧
      (∀ timer ∈ x.timers, t.token? timer.key ≠ some timer.token →
        ∀ t', Moves lossy t t' → t'.fire timer = t') ∧
      (x.firing t.clock).Nodup ∧
      (∀ k, k ∈ x.firing t.clock ↔
        ∃ time, armedSince? k t.cache.history = some time ∧ time + ttl ≤ t.clock) ∧
      t.fireDue.cache = (x.firing t.clock).foldl Cache.expire t.cache ∧
      (∀ k, t.fireDue.token? k = if k ∈ x.firing t.clock then none else t.token? k) ∧
      (∀ timer ∈ x.timers, timer.deadline ≤ t.clock →
        ∀ t', Moves lossy t.fireDue t' → t'.fire timer = t') ∧
      (∀ k, (t.token? k).isSome = (armedSince? k t.cache.history).isSome) ∧
      (∀ t' k, Move lossy t t' → (t'.token? k = some x.nextToken ↔ Arms t k t'))) ∧
    (t.cache.alive = false → ∀ timer t', Moves lossy t t' → t'.fire timer = t') := by
  have reached : Reached lossy settings (some ttl) t := ⟨wakes, moves⟩
  refine ⟨fun alive => ?_, fun dead timer t' later =>
    fire_of_dead ((later.turns reached).dead dead) timer⟩
  obtain ⟨x, timed, ⟨clocked, same⟩, scheduled⟩ := moves.punctual alive
  have token : ∀ k, t.token? k = x.armed.find? k := fun k => by simp [token?, timed]
  have deadline : ∀ k time, armedSince? k t.cache.history = some time →
      x.deadline time = time + ttl := by
    intro k time since
    rw [Expiration.deadline, clocked, same]
    exact sleeps k time (Cache.mem_of_armedSince? since)
  refine ⟨x, timed, same, ?_, ?_, ?_, ?_, ?_, ?_, token?_fireDue timed alive scheduled, ?_, ?_, ?_⟩
  · intro k k' n armed armed'
    rw [token] at armed armed'
    obtain ⟨time, -, mem⟩ := scheduled.armed k n armed
    obtain ⟨time', -, mem'⟩ := scheduled.armed k' n armed'
    exact congrArg Timer.key (scheduled.eq_of_token mem mem' rfl)
  · intro k n armed
    rw [token] at armed
    obtain ⟨time, since, mem⟩ := scheduled.armed k n armed
    exact ⟨time, since, deadline k time since ▸ scheduled.filter_token mem⟩
  · intro timer mem other t' later
    have spent : x.isCurrent timer = false := by
      rw [token] at other
      simpa [Expiration.isCurrent] using other
    exact (later.spent reached (spent_of_not_current timed scheduled mem spent)).fire
  · have nodup := scheduled.nodup_keys
    have sub := (List.monotone_filter_right x.timers (p := fun timer =>
      decide (timer.deadline ≤ t.clock ∧ x.isCurrent timer = true)) (q := x.isCurrent)
      (by simp)).map (·.key)
    exact nodup.sublist sub
  · intro k
    rw [scheduled.mem_firing_iff]
    refine exists_congr fun time => and_congr_right fun since => ?_
    rw [deadline k time since]
  · rw [(fireDue_eq timed alive scheduled).1, foldl_expire_cache]
  · intro timer mem due t' later
    have fired : Reached lossy settings (some ttl) t.fireDue := reached.tail (.deed .fireDue)
    exact (later.spent fired (spent_fireDue timed alive scheduled mem due)).fire
  · intro k
    rw [token]
    cases armed : x.armed.find? k with
    | none => rw [scheduled.unarmed k armed]
    | some n =>
        obtain ⟨time, since, -⟩ := scheduled.armed k n armed
        rw [since]
        rfl
  · intro t' k move
    refine move.token?_iff timed ?_
    rw [token]
    intro armed
    obtain ⟨time, -, mem⟩ := scheduled.armed k _ armed
    exact Nat.lt_irrefl _ (scheduled.fresh _ mem)

/-- A key is set twice, and both timers are due at once. Only the second one expires the key. -/
theorem timers_fire_exactly_rearmed :
    let first : TimedCache Nat Nat Nat := (opened {} (some 10)).set 0 5
    let second := { first with clock := first.clock + 4 }.set 0 6
    let t := { second with clock := second.clock + 10 }
    t.cache.alive = true ∧ (t.expiration.map fun x => x.timers) = some [⟨0, 0, 10⟩, ⟨0, 1, 14⟩] ∧
      t.fireDue.cache = t.cache.expire 0 ∧ t.fireDue.token? 0 = none ∧
      t.fire ⟨0, 0, 10⟩ = t := by
  intro first second t
  have moves : Moves False (opened {} (some 10) : TimedCache Nat Nat Nat) t :=
    (((Relation.ReflTransGen.single (.deed (.set 0 5))).tail (.deed (.pass 4))).tail
      (.deed (.set 0 6))).tail (.deed (.pass 10))
  have sleeps : ∀ k time, .armed k time ∈ t.cache.history → Timer.wakes time 10 = time + 10 := by
    intro k time mem
    have past : t.cache.history =
        [.armed 0 4, .installed 0 6, .armed 0 0, .installed 0 5] := rfl
    have early : time ≤ 4 := by
      rw [past] at mem
      simp at mem
      omega
    exact Timer.wakes_eq (by decide) (by simp only [Timer.lastMoment]; omega)
  have alive : t.cache.alive = true := by decide
  have timers : (t.expiration.map fun x => x.timers) = some [⟨0, 0, 10⟩, ⟨0, 1, 14⟩] := by decide
  have keys : (t.expiration.map fun x => x.firing t.clock) = some [0] := by decide
  obtain ⟨x, timed, exactly⟩ := (timers_fire_exactly moves sleeps).1 alive
  rw [timed, Option.map_some, Option.some.injEq] at keys
  have listed : ⟨0, 0, 10⟩ ∈ x.timers := by
    have both := timers
    rw [timed, Option.map_some, Option.some.injEq] at both
    rw [both]
    exact List.mem_cons_self
  have spent := exactly.2.2.2.1 ⟨0, 0, 10⟩ listed (by decide) t .refl
  have fired := exactly.2.2.2.2.2.2.1
  have after := exactly.2.2.2.2.2.2.2.1 0
  rw [keys] at fired after
  exact ⟨alive, timers, fired, after, spent⟩

end TimedCache

end LiveCache
