import LiveCache.Proofs.Guise.Cache
import LiveCache.Proofs.Recast.Run

/-! # Runs under a guise

A session under a guise answers every step as the session itself does, except that the views it
tells of are those of the guise. Only a description of the cache would spell its settings, and only
a sweep would tell a cache that keeps its entries until then from one that keeps them forever. What
a guise admits, the recast of the guise admits, so this is what is known of recasts.
-/

namespace LiveCache

open Session

namespace Guise

/-- The step does not see through the guise. -/
structure Admits (g : Guise) (a : Step) : Prop where
  describe : a.describes = true → g.hides = false ∧ g.keeps = false
  sweep : a.sweeps = true → g.keeps = false

/-- Nothing that a computation may do sees through the guise. -/
def AdmitsPlan (g : Guise) (p : Plan) : Prop :=
  ∀ b ∈ p.behaviours, ∀ a ∈ b.steps, g.Admits a

variable {g : Guise}

theorem Admits.recast {a : Step} (admits : g.Admits a) :
    (g.recast : Recast Failure Value).Admits a where
  describe := by
    intro describes s len
    obtain ⟨shows, spares⟩ := admits.describe describes
    have same : (g.recast : Recast Failure Value).settings s =
        { s with logs := s.logs && !g.silent } := by
      simp only [Recast.settings, Guise.recast, Guise.policy, Guise.retention, shows, spares]
      rfl
    rw [same]
    rfl
  sweep := fun sweeps => g.retention_eq_forever_iff (admits.sweep sweeps)

theorem AdmitsPlan.recast {p : Plan} (admits : g.AdmitsPlan p) :
    (g.recast : Recast Failure Value).AdmitsPlan p :=
  fun b hb a ha => (admits b hb a ha).recast

end Guise

namespace Session

variable (g : Guise)

def Reply.under : Reply → Reply
  | .view v => .view (g.view v)
  | .views l => .views (l.map g.view)
  | r => r

variable {g} in
theorem Reply.under_of_open (shows : g.hides = false) (r : Reply) : r.under g = r := by
  cases r with
  | view v => exact congrArg Reply.view (Guise.view_of_open shows v)
  | views l => exact congrArg Reply.views (List.map_id'' (Guise.view_of_open shows) l)
  | _ => rfl

def Report.under (r : Report) : Report where
  reply := r.reply.under g
  inner := r.inner.map (Reply.under g)
  events := g.events r.events
  status := r.status

def under (s : Session) : Session :=
  { s with timed := s.timed.under g, inner := s.inner.map (Reply.under g) }

/-- Under a guise panics stay panics. -/
def Rendition.ofGuise : Rendition where
  toRecast := g.recast
  domain := fun _ => rfl
  stays := fun _ => ⟨fun _ => rfl, rfl⟩
  stands := fun _ returns => by cases returns

theorem Reply.recast_guise (r : Reply) : r.recast g.recast = r.under g := by
  cases r with
  | ready o => exact congrArg Reply.ready (Recast.outcome_of_same rfl o)
  | _ => rfl

theorem Report.recast_guise (r : Report) : r.recast g.recast = r.under g := by
  unfold recast under
  rw [Reply.recast_guise, funext (Reply.recast_guise g), g.filter_tells]

theorem recast_guise (s : Session) : s.recast (.ofGuise g) = s.under g := by
  rw [recast_of_stays rfl]
  unfold under
  rw [← TimedCache.recast_guise, ← funext (Reply.recast_guise g)]
  rfl

/-! ## Runs -/

variable {g} {p : Plan} (admitted : g.AdmitsPlan p) (steps : List Step) {s : Session}

include admitted

theorem after_under (planned : Planned p s) (each : ∀ a ∈ steps, g.Admits a) :
    (s.under g).after steps = (s.after steps).under g := by
  rw [← recast_guise, ← recast_guise]
  exact after_recast admitted.recast steps planned fun a ha => (each a ha).recast

theorem run_under (planned : Planned p s) (each : ∀ a ∈ steps, g.Admits a) :
    (s.under g).run steps = (s.run steps).map (Report.under g) := by
  rw [← recast_guise, ← funext (Report.recast_guise g)]
  exact run_recast admitted.recast steps planned fun a ha => (each a ha).recast

omit admitted in
/-- A new cache under a guise is a new cache with other settings. -/
theorem start_under (g : Guise) (settings : Settings) (ttl : Option Nat) (plan : Plan) :
    (start settings ttl plan).under g = start (g.settings settings) ttl plan := by
  rw [← recast_guise, start_recast _ rfl]
  rfl

end Session

end LiveCache
