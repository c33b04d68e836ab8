import LiveCache.Proofs.Recast.Run
import LiveCache.Proofs.Timed.Cancelling

/-! # Computations that panic

A panic is a failure of another kind. It ends its task, settles its key and is passed on to the keys
that need it as a failure would be that the computation had returned at the same point; only the
report of the fault tells them apart.
-/

namespace LiveCache

/-- The failure that is returned in the place of a panic. -/
def Failure.returned (f : String → String) : Failure → Failure
  | .fault ⟨.panicked text⟩ => .domain (f text)
  | x => x

namespace Session

open Cache (Coherent)

/-- The rendition of a session in which panics are returned as failures. Its log has no faults. -/
def Rendition.returning (f : String → String) : Rendition where
  failure := Failure.returned f
  view := View.mapFailure (Failure.returned f)
  faults := false
  returns := some f
  view_incomplete := rfl
  view_phase := Phase.mapFailure_view _
  settled?_view := View.settled?_mapFailure _
  isDone_view := View.isDone_mapFailure _
  whileObserved := Recast.whileObserved_id
  domain := fun _ => rfl
  stays := fun stays => by cases stays
  stands := fun g returns => by
    cases returns
    exact ⟨fun _ => rfl, rfl⟩

theorem returning_admits (f : String → String) (a : Step) : (Rendition.returning f).Admits a where
  describe := fun _ _ _ => rfl
  sweep := fun _ _ => Iff.rfl

/-! ## The end of a computation -/

/-- How far the next poll takes the computation of a task, if the task was not told to stop. -/
def progress (s : Session) (u : Task Key) : Session × Halt :=
  match s.running.find? u.id with
  | some r => s.resume u.id r
  | none =>
      let call := Tally.count s.called u.id.key
      let b := s.plan.behaviour u.id.key call
      match b.panicEarly with
      | some text => (s.calling u, .finished (.panic (.text text)))
      | none => (s.calling u).resume u.id ⟨b, call, .pausing b.pauses⟩

variable {lossy : Prop} {settings : Settings} {ttl : Option Nat} {s m : Session} {u : Task Key}
  {c : Conclusion}

/-- A poll that ends the computation hands in what it has come to. -/
theorem pollTask_of_finished (spared : s.cache.isAborted u = false)
    (ends : s.progress u = (m, .finished c)) : s.pollTask u = m.afterPoll u none (.finished c) := by
  have handed : ∀ r p, p = (m, Halt.finished c) →
      p.1.afterPoll u r p.2 = m.afterPoll u none (.finished c) := by
    rintro r p rfl
    rfl
  unfold progress at ends
  unfold Session.pollTask
  rw [spared]
  cases found : s.running.find? u.id with
  | some r =>
      rw [found] at ends
      exact handed (some r) _ ends
  | none =>
      rw [found] at ends
      dsimp only [Bool.false_eq_true, if_false] at ends ⊢
      rw [begin_eq]
      unfold started
      cases early : (s.plan.behaviour u.id.key (Tally.count s.called u.id.key)).panicEarly with
      | some text =>
          rw [early] at ends
          exact handed none _ ends
      | none =>
          rw [early] at ends
          exact handed (some _) _ ends

/-- The task is still listed when its computation ends, whatever that has done. -/
theorem Ordered.progress (h : Ordered lossy settings ttl none s) (listed : u ∈ s.cache.tasks)
    (spared : s.cache.isAborted u = false) :
    Coherent (s.progress u).1.cache [] ∧ u ∈ (s.progress u).1.cache.tasks := by
  unfold Session.progress
  cases found : s.running.find? u.id with
  | some r =>
      have acted := resume_acted h.coherent h.owned u.id r
      exact ⟨acted.coherent, acted.keeps.tasks u listed⟩
  | none =>
      have called := h.calling listed spared found
      dsimp only
      split
      next => exact ⟨called.coherent, listed⟩
      next =>
        have acted := fun r : Running => resume_acted called.coherent called.owned u.id r
        exact ⟨(acted _).coherent, (acted _).keeps.tasks u listed⟩

/-- A computation that panics before anything else. -/
theorem progress_of_panicEarly (new : s.running.find? u.id = none) {text : String}
    (early : (s.plan.behaviour u.id.key (Tally.count s.called u.id.key)).panicEarly = some text) :
    s.progress u = (s.calling u, .finished (.panic (.text text))) := by
  unfold progress
  rw [new]
  dsimp only
  rw [early]

/-- What becomes of a task whose computation ends in a poll: it is gone, and its entry is settled.
If it was told to stop before it has ended, the entry is left as it is. Either way the entry does
not go on computing for it. -/
structure Settles (m polled : Session) (u : Task Key) (c : Conclusion) : Prop where
  ended : ∀ t ∈ polled.cache.tasks, t.id ≠ u.id
  dropped : polled.running.contains u.id = false
  alive : polled.cache.alive = m.cache.alive
  settled : m.cache.alive = true → m.cache.isAborted u = false →
    (polled.cache.entry u.entry).phase = .settled c.result
  discarded : m.cache.alive = true → m.cache.isAborted u = true →
    polled.cache.entry = m.cache.entry
  calm : m.cache.alive = true →
    ∀ previous, (polled.cache.entry u.entry).phase ≠ .computing u.launch previous

theorem settles_of_dead (dead : m.cache.alive = false) (u : Task Key) (r : Option Running)
    (c : Conclusion) : Settles m (m.afterPoll u r (.finished c)).1 u c := by
  have lives : ¬ m.cache.alive = true := by simp [dead]
  rw [afterPoll_finished_of_dead dead]
  exact {
    ended := fun t ht => ((Cache.mem_removeTask _ _ t).1 ht).2
    dropped := by
      rw [Registry.contains, Registry.find?_erase_self]
      rfl
    alive := rfl
    settled := fun alive => absurd alive lives
    discarded := fun alive => absurd alive lives
    calm := fun alive => absurd alive lives }

theorem settles_of_alive (alive : m.cache.alive = true) (coherent : Coherent m.cache [])
    (listed : u ∈ m.cache.tasks) (r : Option Running) (c : Conclusion) :
    Settles m (m.afterPoll u r (.finished c)).1 u c := by
  have ending : Cache.Ending m.cache u (m.cache.withdraw u c.report?) := coherent.ending listed _
  have settled : m.cache.isAborted u = false →
      (((m.cache.withdraw u c.report?).settle u c.result).entry u.entry).phase =
        .settled c.result := by
    intro spared
    obtain ⟨previous, hp⟩ := coherent.live u listed spared
    refine Cache.settle_phase ((Entry.owns_iff _ _).2 ⟨u.launch, previous, ?_, rfl⟩) _
    rw [ending.entry, hp]
  have discarded : m.cache.isAborted u = true →
      ((m.cache.withdraw u c.report?).settle u c.result).entry = m.cache.entry := fun stopped =>
    (ending.settle_of_aborted alive stopped c.result).1
  rw [afterPoll_concluded alive]
  exact {
    ended := by
      intro t ht
      have tasks : ((m.cache.withdraw u c.report?).settle u c.result).tasks =
          (m.cache.removeTask u.id).tasks := by
        rw [Cache.settle_tasks ending.coherent, ending.tasks]
      exact ((Cache.mem_removeTask m.cache u.id t).1 (tasks ▸ ht)).2
    dropped := by
      rw [Registry.contains, Registry.find?_erase_self]
      rfl
    alive := (ending.settle c.result).alive.trans ending.alive
    settled := fun _ => settled
    discarded := fun _ => discarded
    calm := by
      intro _ previous hp
      cases stopped : m.cache.isAborted u with
      | false =>
          rw [settled stopped] at hp
          cases hp
      | true =>
          have disowned := coherent.disowned alive (coherent.handed u listed) stopped
          rw [← discarded stopped] at disowned
          have owned := (Entry.owns_iff _ u.launch.generation).2 ⟨u.launch, previous, hp, rfl⟩
          rw [disowned] at owned
          cases owned }

theorem Ordered.settles (h : Ordered lossy settings ttl none s) (listed : u ∈ s.cache.tasks)
    (spared : s.cache.isAborted u = false) (ends : s.progress u = (m, .finished c)) :
    (s.pollTask u).2 = true ∧ Settles m (s.pollTask u).1 u c := by
  obtain ⟨coherent, still⟩ := h.progress listed spared
  rw [ends] at coherent still
  rw [pollTask_of_finished spared ends]
  refine ⟨rfl, ?_⟩
  cases alive : m.cache.alive with
  | true => exact settles_of_alive alive coherent still none c
  | false => exact settles_of_dead alive u none c

/-! ## Runs -/

/-- Let each computation that panics return a failure instead, at the same point. Then the answers
and the states are those of the run with panics, where the failures that are returned take the place
of the faults, also where they were passed on to keys in need; the events are those that report no
fault. A panic ends its task. It settles the key of the task with the fault, also when it comes
before anything else, unless the computation was told to stop; and no key goes on being computed by
a computation that has panicked. -/
theorem panics_are_failures (f : String → String) (settings : Settings) (ttl : Option Nat)
    (plan : Plan) (steps : List Step) :
    let panicking := start settings ttl plan
    let returning := start settings ttl (plan.returning f)
    let s := panicking.after steps
    returning.run steps =
      (panicking.run steps).map (Report.recast (Rendition.returning f).toRecast) ∧
    returning.after steps = s.recast (.returning f) ∧
    ∀ u ∈ s.cache.tasks, s.cache.isAborted u = false →
      (∀ m p, s.progress u = (m, .finished (.panic p)) →
        (s.pollTask u).2 = true ∧ Settles m (s.pollTask u).1 u (.panic p)) ∧
      ∀ text, s.running.find? u.id = none →
        (s.plan.behaviour u.id.key (Tally.count s.called u.id.key)).panicEarly = some text →
        s.cache.alive = true → ((s.pollTask u).1.cache.entry u.entry).phase =
          .settled (.failure (.fault (.ofPanic (.text text)))) := by
  intro panicking returning s
  let v : Rendition := .returning f
  have recast : returning = panicking.recast v := by
    rw [start_recast v rfl]
    simp [Recast.settings, v, Rendition.returning, Rendition.plan, returning]
  have follows : Planned plan panicking := planned_start settings ttl plan
  have admitted : v.AdmitsPlan plan := fun _ _ a _ => returning_admits f a
  have each : ∀ a ∈ steps, v.Admits a := fun a _ => returning_admits f a
  have ordered : Ordered True settings ttl none s :=
    ordered_kept.steps steps (fun _ _ _ => trivial) (ordered_start settings ttl plan)
  refine ⟨?_, ?_, fun u listed spared => ⟨fun m p ends => ?_, fun text new early alive => ?_⟩⟩
  · rw [recast]
    exact run_recast admitted steps follows each
  · rw [recast]
    exact after_recast admitted steps follows each
  · exact ordered.settles listed spared ends
  · have ends := progress_of_panicEarly new early
    exact (ordered.settles listed spared ends).2.settled alive spared

/-- The computation of one key panics after a pause, and a reader of the key that needs it is given
the failure. Then another computation is called, and panics at once. -/
theorem panics_are_failures_needed :
    let plan : Plan := {
      calls := [("a", [{ pauses := 1, ending := .panic .other }]), ("b", [{ needs := ["a"] }])]
      fallback := { panicEarly := some "no" } }
    let script : List Step := [
      .command (.cache "main" (.get (some "b") (some "r"))), .runAll 4,
      .command (.subscription (some "r") .next), .command (.cache "main" (.snapshot (some "c")))]
    let u : Task Key := ⟨⟨"c", 0⟩, ⟨"c", 0⟩, ⟨0, 0⟩⟩
    ((start {} none plan).run script).map (·.reply) = [.nothing, .rounds 6 [⟨"a", 0⟩, ⟨"b", 0⟩],
      .view (.known (.failure (.fault (.ofPanic .other))) .done), .view .incomplete] ∧
    (start {} none (plan.returning id)).run script =
      ((start {} none plan).run script).map (Report.recast (Rendition.returning id).toRecast) ∧
    ((((start {} none plan).after script).pollTask u).1.cache.entry u.entry).phase =
      .settled (.failure (.fault (.ofPanic (.text "no")))) := by
  intro plan script u
  have facts := panics_are_failures id {} none plan script
  have settles := facts.2.2 u (by decide +kernel) (by decide +kernel)
  exact ⟨by decide +kernel, facts.1,
    settles.2 "no" (by decide +kernel) (by decide +kernel) (by decide +kernel)⟩

end Session

end LiveCache
