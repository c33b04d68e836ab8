import LiveCache.Proofs.Guise.Run

/-! # What the settings decide in a run

Whether outdated outcomes are shown again or hidden changes the views that are shown meanwhile, and
nothing else that a cache does. Where nobody sweeps, what is kept until a sweep is kept forever.
-/

namespace LiveCache

/-- The guise in which no outdated outcome is shown. -/
def Guise.curtain : Guise := { hides := true }

/-- The guise in which nothing is given up in a sweep. -/
def Guise.hoard : Guise := { keeps := true }

namespace Session

open Guise (curtain hoard)

/-! ## Outdated outcomes -/

theorem curtain_admits {a : Step} (quiet : a.describes = false) : curtain.Admits a where
  describe := fun describes => by simp [quiet] at describes
  sweep := fun _ => rfl

theorem start_hide (settings : Settings) (ttl : Option Nat) (plan : Plan) :
    start { settings with stale := .hide } ttl plan =
      (start { settings with stale := .replay } ttl plan).under curtain := by
  rw [start_under]
  simp [Guise.settings, Guise.policy, Guise.retention, curtain]

/-- With hidden outdated outcomes a cache goes through the same states and gives the same answers as
with replayed ones: in the channels and in what readers are given, a view that is still loading is
replaced by an incomplete one. Nobody may ask for the description of the cache, which spells the
policy. -/
theorem stale_policy_hides_views (settings : Settings) (ttl : Option Nat) (plan : Plan)
    (steps : List Step) (quiet : ∀ a ∈ steps, a.describes = false)
    (planned : ∀ b ∈ plan.behaviours, ∀ a ∈ b.steps, a.describes = false) :
    let replay := start { settings with stale := .replay } ttl plan
    let hide := start { settings with stale := .hide } ttl plan
    hide.run steps = (replay.run steps).map (Report.under curtain) ∧
      hide.after steps = (replay.after steps).under curtain := by
  intro replay hide
  have start : hide = replay.under curtain := start_hide settings ttl plan
  have follows : Planned plan replay := planned_start _ ttl plan
  have admitted : curtain.AdmitsPlan plan := fun b hb a ha => curtain_admits (planned b hb a ha)
  have each : ∀ a ∈ steps, curtain.Admits a := fun a ha => curtain_admits (quiet a ha)
  rw [start]
  exact ⟨run_under admitted steps follows each, after_under admitted steps follows each⟩

/-- A reader of a key that expires while its computation sets another key. -/
theorem stale_policy_hides_views_expired :
    let plan : Plan :=
      { fallback := { steps := [.command (.cache "main" (.set (some "b") (some 7)))] } }
    let script : List Step := [
      .command (.cache "main" (.get (some "a") (some "r"))), .runAll 1,
      .command (.cache "main" (.expire (some "a"))),
      .command (.subscription (some "r") .next)]
    (∀ a ∈ script, a.describes = false) ∧
    (∀ b ∈ plan.behaviours, ∀ a ∈ b.steps, a.describes = false) ∧
    ((start {} none plan).run script).map (·.reply) =
      [.nothing, .rounds 1 [⟨"a", 0⟩], .nothing, .view (.known (.success 0) .loading)] ∧
    (start { stale := .hide } none plan).run script =
      ((start {} none plan).run script).map (Report.under curtain) := by
  intro plan script
  have quiet : ∀ a ∈ script, a.describes = false := by decide
  have planned : ∀ b ∈ plan.behaviours, ∀ a ∈ b.steps, a.describes = false := by decide
  exact ⟨quiet, planned, by decide +kernel,
    (stale_policy_hides_views {} none plan script quiet planned).1⟩

/-! ## Kept entries -/

theorem hoard_admits {a : Step} (quiet : a.describes = false) (stays : a.sweeps = false) :
    hoard.Admits a where
  describe := fun describes => by simp [quiet] at describes
  sweep := fun sweeps => by simp [stays] at sweeps

theorem Report.under_hoard (r : Report) : r.under hoard = r := by
  unfold Report.under
  rw [Reply.under_of_open rfl, List.map_id'' (Reply.under_of_open rfl)]
  rfl

/-- A run in which nobody sweeps does not tell whether entries are kept until then or forever. -/
theorem run_untilSweep (settings : Settings) (ttl : Option Nat) (plan : Plan) (steps : List Step)
    (stays : ∀ a ∈ steps, a.describes = false ∧ a.sweeps = false)
    (planned : ∀ b ∈ plan.behaviours, ∀ a ∈ b.steps, a.describes = false ∧ a.sweeps = false) :
    (start { settings with retention := .untilSweep } ttl plan).run steps =
      (start { settings with retention := .forever } ttl plan).run steps := by
  have start : start { settings with retention := .forever } ttl plan =
      (start { settings with retention := .untilSweep } ttl plan).under hoard := by
    rw [start_under]
    simp [Guise.settings, Guise.policy, Guise.retention, hoard]
  have admitted : hoard.AdmitsPlan plan := fun b hb a ha =>
    hoard_admits (planned b hb a ha).1 (planned b hb a ha).2
  rw [start, run_under admitted steps (planned_start _ ttl plan) fun a ha =>
    hoard_admits (stays a ha).1 (stays a ha).2]
  exact (List.map_id'' Report.under_hoard _).symm

end Session

end LiveCache
