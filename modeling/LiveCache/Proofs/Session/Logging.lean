import LiveCache.Proofs.Guise.Run

/-! # What is logged in a run

A cache writes its log and never reads it. A cache that logs nothing goes through the same states as
one that logs, and answers everybody alike; only the events are missing.
-/

namespace LiveCache

variable {κ ε α : Type}

/-- The guise in which nothing is logged. -/
def Guise.muffle : Guise := { silent := true }

/-- The cache as it is without its log. -/
def Cache.muted (c : Cache κ ε α) : Cache κ ε α :=
  { c with settings := { c.settings with logs := false }, log := [] }

theorem Cache.under_muffle (c : Cache κ ε α) : c.under Guise.muffle = c.muted := by
  have entries : c.entries.map (Entry.under Guise.muffle) = c.entries :=
    Registry.map_of_same (fun e => e.under_of_open rfl) c.entries
  have history : c.history.map (Happening.under Guise.muffle) = c.history :=
    List.map_id'' (Happening.under_of_open rfl) c.history
  have settings : Guise.muffle.settings c.settings = { c.settings with logs := false } := by
    simp [Guise.settings, Guise.policy, Guise.retention, Guise.muffle]
  unfold under
  rw [entries, history, settings]
  rfl

namespace Session

open Guise (muffle)

/-- The report as it is without its events. -/
def Report.muted (r : Report) : Report := { r with events := [] }

theorem Report.under_muffle (r : Report) : r.under muffle = r.muted := by
  unfold Report.under
  rw [Reply.under_of_open rfl, List.map_id'' (Reply.under_of_open rfl)]
  rfl

/-- The session as it is without the log of its cache. -/
def muted (s : Session) : Session :=
  { s with timed := { s.timed with cache := s.cache.muted } }

theorem under_muffle (s : Session) : s.under muffle = s.muted := by
  unfold under TimedCache.under
  rw [Cache.under_muffle, List.map_id'' (Reply.under_of_open rfl)]
  rfl

theorem muffle_admits (a : Step) : muffle.Admits a where
  describe := fun _ => ⟨rfl, rfl⟩
  sweep := fun _ => rfl

theorem start_mute (settings : Settings) (logs : Bool) (ttl : Option Nat) (plan : Plan) :
    start { settings with logs := false } ttl plan =
      (start { settings with logs := logs } ttl plan).muted := by
  rw [← under_muffle, start_under]
  simp [Guise.settings, Guise.policy, Guise.retention, muffle]

/-- Whether a cache logs or not, without its events its run is that of the cache that does not. -/
theorem run_mute (settings : Settings) (logs : Bool) (ttl : Option Nat) (plan : Plan)
    (steps : List Step) :
    let mute := start { settings with logs := false } ttl plan
    let any := start { settings with logs := logs } ttl plan
    mute.run steps = (any.run steps).map Report.muted ∧
      mute.after steps = (any.after steps).muted := by
  intro mute any
  have start : mute = any.under muffle := by
    rw [under_muffle]
    exact start_mute settings logs ttl plan
  have follows : Planned plan any := planned_start _ ttl plan
  have admitted : muffle.AdmitsPlan plan := fun _ _ a _ => muffle_admits a
  have run := run_under admitted steps follows fun a _ => muffle_admits a
  have after := after_under admitted steps follows fun a _ => muffle_admits a
  rw [start, run, after, under_muffle, funext Report.under_muffle]
  exact ⟨rfl, rfl⟩

/-- The log of a cache is written and never read. Of two caches that differ only in whether they
log, the runs of a script give the same answers, those to the steps of computations among them, and
the same states after each step; and whatever is done, a cache that does not log emits nothing. -/
theorem logs_never_read (settings : Settings) (ttl : Option Nat) (plan : Plan)
    (steps : List Step) :
    let session := fun logs : Bool => start { settings with logs := logs } ttl plan
    (∀ logs logs', ((session logs).run steps).map Report.muted =
      ((session logs').run steps).map Report.muted) ∧
    (∀ logs logs', ((session logs).after steps).muted = ((session logs').after steps).muted) ∧
    (∀ r ∈ (session false).run steps, r.events = []) ∧
    ((session false).after steps).cache.log = [] := by
  intro session
  have canonical := fun logs => run_mute settings logs ttl plan steps
  refine ⟨fun logs logs' => ?_, fun logs logs' => ?_, fun r hr => ?_, ?_⟩
  · rw [← (canonical logs).1, (canonical logs').1]
  · rw [← (canonical logs).2, (canonical logs').2]
  · rw [(canonical false).1] at hr
    obtain ⟨_, -, rfl⟩ := List.mem_map.1 hr
    rfl
  · rw [(canonical false).2]
    rfl

/-- The key of a reader expires and its computation panics. -/
example :
    let plan : Plan := { fallback := { ending := .panic (.text "bad") } }
    let script : List Step := [
      .command (.cache "main" (.get (some "a") (some "r"))),
      .command (.cache "main" (.expire (some "a"))), .runAll 3]
    (((start {} none plan).run script).map (·.events.length) = [1, 3, 2]) ∧
      ((start { logs := false } none plan).run script).map (·.events.length) = [0, 0, 0] := by
  decide +kernel

end Session

end LiveCache
