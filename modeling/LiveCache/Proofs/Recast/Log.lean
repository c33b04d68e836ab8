import LiveCache.Proofs.Recast.Timed

/-! # The log of a cache

A log is written and never read, so an operation of a cache with another log leaves the same cache
with the same lines added. Other logs are recasts, and what the operations of a cache add to its log
follows from there.
-/

namespace LiveCache

variable {κ ε α : Type}

/-- The recast that changes nothing but the log: events are left out of it, and others come before
it. -/
def Recast.onLog (logs faults : Bool) (earlier : List Event) : Recast ε α where
  view := id
  logs := logs
  faults := faults
  earlier := earlier
  view_incomplete := rfl
  view_phase := fun p phase => by rw [Phase.mapFailure_id, id, id]
  settled?_view := fun v => by
    have outcome : (Outcome.mapFailure id : Outcome ε α → Outcome ε α) = id :=
      funext Outcome.mapFailure_id
    rw [outcome, Option.map_id, id, id]
  isDone_view := fun _ => rfl
  whileObserved := whileObserved_id

/-! ## Recasts that keep failures or views -/

section Same

variable {φ : Recast ε α}

theorem Recast.outcome_of_same (same : φ.failure = id) (o : Outcome ε α) : φ.outcome o = o := by
  rw [outcome, same, Outcome.mapFailure_id]

theorem Channel.map_of_same {f : α → α} (same : ∀ v, f v = v) (c : Channel α) : c.map f = c := by
  unfold map
  rw [same, List.map_id'' same]

theorem Entry.recast_of_failure (failure : φ.failure = id) (e : Entry ε α) :
    e.recast φ = { e with channel := e.channel.map φ.view } := by
  unfold recast Recast.phase
  rw [failure, Phase.mapFailure_id]

theorem Entry.recast_of_same (failure : φ.failure = id) (view : ∀ v, φ.view v = v)
    (e : Entry ε α) : e.recast φ = e := by
  rw [recast_of_failure failure, Channel.map_of_same view]

theorem Happening.recast_of_same (failure : φ.failure = id) (view : ∀ v, φ.view v = v)
    (x : Happening κ ε α) : x.recast φ = x := by
  cases x with
  | delivered i v => exact congrArg (delivered i) (view v)
  | returned t o => exact congrArg (returned t) (φ.outcome_of_same failure o)
  | _ => rfl

end Same

namespace Cache

variable (c : Cache κ ε α)

theorem recast_onLog (logs faults : Bool) (earlier : List Event) :
    c.recast (.onLog logs faults earlier) =
      { c with
        settings := { c.settings with logs := c.settings.logs && logs }
        log := earlier ++ c.log.filter (Recast.onLog logs faults earlier : Recast ε α).tells } := by
  unfold recast
  rw [Registry.map_of_same (Entry.recast_of_same rfl fun _ => rfl),
    List.map_id'' (Happening.recast_of_same rfl fun _ => rfl)]
  rfl

/-! ## What is added to a log -/

/-- Events that are no faults were added to the log. -/
def Adds (c d : Cache κ ε α) : Prop :=
  ∃ new, d.log = c.log ++ new ∧ ∀ e ∈ new, e.activity.isFault = false

/-- What goes its way whatever the log is adds to it, and it adds nothing to a log that is not kept.
So the faults of what it adds would be all of a log that keeps only faults, and there are none. -/
theorem adds_of_blind (f : Cache κ ε α → Cache κ ε α)
    (blind : ∀ logs faults earlier (c : Cache κ ε α),
      f (c.recast (.onLog logs faults earlier)) = (f c).recast (.onLog logs faults earlier)) :
    c.Adds (f c) := by
  let empty : Cache κ ε α := { c with log := [] }
  let mute : Cache κ ε α := { empty with settings := { c.settings with logs := false } }
  refine ⟨(f empty).log, ?_, ?_⟩
  · have same : c = empty.recast (.onLog true true c.log) := by
      rw [recast_onLog]
      simp [empty]
    have told : ∀ e, (Recast.onLog true true c.log : Recast ε α).tells e = true := by
      simp [Recast.tells, Recast.onLog]
    have grown := congrArg Cache.log (blind true true c.log empty)
    rw [← same, recast_onLog, List.filter_eq_self.2 fun e _ => told e] at grown
    exact grown
  · have silent : (f mute).log = [] := by
      have same : mute = mute.recast (.onLog false false []) := by
        rw [recast_onLog]
        simp [mute, empty]
      have told : ∀ e, ¬ (Recast.onLog false false [] : Recast ε α).tells e = true := by
        simp [Recast.tells, Recast.onLog]
      have left := congrArg Cache.log (blind false false [] mute)
      rw [← same, recast_onLog, List.filter_eq_nil_iff.2 fun e _ => told e] at left
      exact left
    have same : mute = empty.recast (.onLog false true []) := by
      rw [recast_onLog]
      simp [mute, empty]
    have faults := congrArg Cache.log (blind false true [] empty)
    rw [← same, silent, recast_onLog] at faults
    have none := List.filter_eq_nil_iff.1 (List.append_eq_nil_iff.1 faults.symm).2
    intro e mem
    have untold := none e mem
    cases kind : e.activity.isFault with
    | false => rfl
    | true => simp [Recast.tells, Recast.onLog, kind] at untold

variable [DecidableEq κ]

theorem adds_expireAll : c.Adds c.expireAll :=
  c.adds_of_blind expireAll fun _ _ _ c => c.expireAll_recast _

theorem adds_sweep : c.Adds c.sweep.1 :=
  c.adds_of_blind (fun c => c.sweep.1) fun _ _ _ c =>
    congrArg Prod.fst (c.sweep_recast _ Iff.rfl)

end Cache

end LiveCache
