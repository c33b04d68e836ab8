import LiveCache.Proofs.Recast.Log

/-! # Guises

Some settings of a cache decide only how it looks. With a guise a cache hides the outcomes that are
outdated, reports nothing, or never gives up an entry that it would keep until a sweep. A guise is a
recast that keeps all failures.
-/

namespace LiveCache

structure Guise where
  /-- Outdated outcomes are not shown. -/
  hides : Bool := false
  /-- No events are logged. -/
  silent : Bool := false
  /-- What is kept until a sweep is kept forever. -/
  keeps : Bool := false
deriving DecidableEq, Repr

namespace Guise

variable (g : Guise)

def policy (p : StalePolicy) : StalePolicy := if g.hides then .hide else p

def retention (r : Retention) : Retention :=
  if g.keeps ∧ r = .untilSweep then .forever else r

def settings (s : Settings) : Settings :=
  { s with
    retention := g.retention s.retention
    stale := g.policy s.stale
    logs := s.logs && !g.silent }

def events (l : List Event) : List Event := if g.silent then [] else l

/-- What is shown in the place of a view. -/
def view {ε α : Type} : View ε α → View ε α
  | .known o .loading => if g.hides then .incomplete else .known o .loading
  | v => v

/-- No guise makes entries go when their last subscription ends, or stay. -/
theorem retention_eq_whileObserved_iff (r : Retention) :
    g.retention r = .whileObserved ↔ r = .whileObserved := by
  unfold retention
  split
  next h => simp [h.2]
  next => exact Iff.rfl

theorem retention_eq_forever_iff (spares : g.keeps = false) (r : Retention) :
    g.retention r = .forever ↔ r = .forever := by
  simp [retention, spares]

/-! ## Views -/

variable {ε α : Type}

/-- A guise that hides nothing shows the views as they are. -/
theorem view_of_open {g : Guise} (shows : g.hides = false) (v : View ε α) : g.view v = v := by
  unfold view
  split
  next => rw [shows]; rfl
  next => rfl

theorem settled?_view (v : View ε α) : (g.view v).settled? = v.settled? := by
  unfold view
  split
  next => split <;> rfl
  next => rfl

theorem isDone_view (v : View ε α) : (g.view v).isDone = v.isDone := by
  unfold view
  split
  next => split <;> rfl
  next => rfl

theorem view_ofPrevious (p : StalePolicy) (previous : Option (Outcome ε α)) :
    g.view (View.ofPrevious p previous) = View.ofPrevious (g.policy p) previous := by
  unfold policy
  cases hides : g.hides <;> cases p <;> cases previous <;>
    simp [View.ofPrevious, view, Outcome.withProgress, hides]

theorem view_phase (p : StalePolicy) (phase : Phase ε α) :
    g.view (phase.view p) = phase.view (g.policy p) := by
  cases phase with
  | computing l previous => exact g.view_ofPrevious p previous
  | stale previous => exact g.view_ofPrevious p previous
  | _ => rfl

/-! ## The recast of a guise -/

def recast : Recast ε α where
  view := g.view
  policy := g.policy
  retention := g.retention
  logs := !g.silent
  faults := !g.silent
  view_incomplete := rfl
  view_phase := fun p phase => by rw [Phase.mapFailure_id, view_phase]
  settled?_view := fun v => by
    have outcome : (Outcome.mapFailure id : Outcome ε α → Outcome ε α) = id :=
      funext Outcome.mapFailure_id
    rw [outcome, Option.map_id, id, settled?_view]
  isDone_view := g.isDone_view
  whileObserved := g.retention_eq_whileObserved_iff

theorem filter_tells (l : List Event) :
    l.filter (g.recast : Recast ε α).tells = g.events l := by
  have each : ∀ e, (g.recast : Recast ε α).tells e = !g.silent := fun e => by
    simp [Recast.tells, recast]
  unfold events
  cases silent : g.silent with
  | true => exact List.filter_eq_nil_iff.2 fun e _ => by simp [each e, silent]
  | false => exact List.filter_eq_self.2 fun e _ => by simp [each e, silent]

end Guise

/-! ## States under a guise -/

variable {κ ε α : Type} (g : Guise)

def Entry.under (e : Entry ε α) : Entry ε α := { e with channel := e.channel.map g.view }

def Happening.under (g : Guise) : Happening κ ε α → Happening κ ε α
  | .delivered i v => .delivered i (g.view v)
  | h => h

def Cache.under (c : Cache κ ε α) : Cache κ ε α :=
  { c with
    settings := g.settings c.settings
    entries := c.entries.map (Entry.under g)
    log := g.events c.log
    history := c.history.map (Happening.under g) }

def TimedCache.under (t : TimedCache κ ε α) : TimedCache κ ε α :=
  { t with cache := t.cache.under g }

theorem Entry.recast_guise (e : Entry ε α) : e.recast g.recast = e.under g :=
  Entry.recast_of_failure rfl e

theorem Happening.recast_guise (x : Happening κ ε α) : x.recast g.recast = x.under g := by
  cases x with
  | returned t o => exact congrArg (returned t) (Recast.outcome_of_same rfl o)
  | _ => rfl

theorem Cache.recast_guise (c : Cache κ ε α) : c.recast g.recast = c.under g := by
  unfold recast under Recast.events
  rw [funext (Entry.recast_guise g), funext (Happening.recast_guise g), g.filter_tells]
  rfl

theorem TimedCache.recast_guise (t : TimedCache κ ε α) : t.recast g.recast = t.under g :=
  congrArg (fun c => { t with cache := c }) (Cache.recast_guise g t.cache)

/-! ## Guises that hide nothing -/

section Open

variable {g} (shows : g.hides = false)

include shows

theorem Entry.under_of_open (e : Entry ε α) : e.under g = e := by
  unfold under
  rw [Channel.map_of_same (Guise.view_of_open shows)]

theorem Happening.under_of_open (x : Happening κ ε α) : x.under g = x := by
  cases x with
  | delivered i v => exact congrArg (delivered i) (Guise.view_of_open shows v)
  | _ => rfl

end Open

end LiveCache
