import LiveCache.Proofs.Session.Policies
import LiveCache.Proofs.Timed.Retention

/-! # Which entries a cache keeps

The retention of a cache decides which entries it keeps, and a key that it has given up starts anew.
-/

namespace LiveCache.TimedCache

open Cache (LetGo)
open Session (Plan Step start)

variable {κ ε α : Type} [DecidableEq κ] {t : TimedCache κ ε α} {lossy : Prop}
  {settings : Settings} {ttl : Option Nat}

/-- The retention decides which entries there are. Kept forever, none goes, and a sweep does
nothing. Kept until a sweep, none goes in anything else, and a run without sweeps is a run in which
all are kept forever. Kept while they are observed, an entry goes with its last subscription, and
with it what is computed for it and no other computation; so one without subscribers never had any.
A sweep takes what is idle and leaves the rest as it is. A key that has no entry is given one that
was never touched. -/
theorem retention_decides (h : Reached lossy settings ttl t) :
    (settings.retention = .forever →
      (∀ t', Moves lossy t t' → ∀ i, t.cache.Holds i → t'.cache.Holds i) ∧
      t.cache.sweep = (t.cache, 0)) ∧
    (settings.retention = .untilSweep →
      (∀ t', Move lossy t t' → ∀ i, t.cache.Holds i → ¬ t'.cache.Holds i → Sweeps t t') ∧
      ∀ (plan : Plan) (steps : List Step),
        (∀ a ∈ steps, a.describes = false ∧ a.sweeps = false) →
        (∀ b ∈ plan.behaviours, ∀ a ∈ b.steps, a.describes = false ∧ a.sweeps = false) →
        (start settings ttl plan).run steps =
          (start { settings with retention := .forever } ttl plan).run steps) ∧
    (settings.retention = .whileObserved →
      (∀ u, Reached lossy settings ttl u → Moves lossy u t → ∀ i, t.cache.Holds i →
        (t.cache.entry i).subscribers = 0 → (u.cache.entry i).subscribers = 0) ∧
      (∀ t', Move lossy t t' → ∀ i, 0 < (t.cache.entry i).subscribers →
        (t'.cache.entry i).subscribers = 0 → LetGo t.cache t'.cache i) ∧
      (∀ k, ((t.cache.glance k).entry (t.cache.locate k).2).subscribers = 0 →
        LetGo t.cache (t.cache.glance k) (t.cache.locate k).2) ∧
      ∀ x k, ((t.cache.await x k).1.entry (t.cache.locate k).2).subscribers = 0 →
        LetGo t.cache (t.cache.await x k).1 (t.cache.locate k).2) ∧
    (settings.retention ≠ .forever →
      (∀ i, t.cache.sweep.1.Holds i ↔ t.cache.Holds i ∧ ¬ t.cache.Idle i) ∧
      t.cache.sweep.2 = (t.cache.ids.filter fun i => t.cache.Idle i).length ∧
      (∀ i, t.cache.sweep.1.Holds i → t.cache.sweep.1.entry i = t.cache.entry i) ∧
      t.cache.sweep.1.observers = t.cache.observers ∧ t.cache.sweep.1.tasks = t.cache.tasks ∧
      t.cache.sweep.1.sweep = (t.cache.sweep.1, 0)) ∧
    (∀ k, t.cache.current? k = none →
      (t.cache.locate k).1.entry (t.cache.locate k).2 = {} ∧
      (t.cache.subscribe k).1.entry (t.cache.locate k).2 =
        { phase := .computing ⟨0, 0⟩ none, subscribers := 1, launches := [⟨0, 0⟩] } ∧
      (t.cache.snapshot k).2 = .incomplete ∧
      (t.cache.snapshot k).1.entry (t.cache.locate k).2 =
        { phase := .computing ⟨0, 0⟩ none, launches := [⟨0, 0⟩] }) := by
  have coherent := h.coherent
  have same := h.same_settings
  refine ⟨fun forever => ?_, fun waits => ?_, fun forgets => ?_, fun sweeps => ?_, ?_⟩
  · exact ⟨fun t' moves i held => moves.holds_of_forever h forever held,
      sweep_of_forever (same ▸ forever)⟩
  · refine ⟨fun t' move i held gone => ?_, fun plan steps stays planned => ?_⟩
    · refine (move.holds_or_sweeps coherent ?_ held).resolve_left gone
      rw [same, waits]
      decide
    · have eq : { settings with retention := .untilSweep } = settings := by rw [← waits]
      rw [← eq]
      exact Session.run_untilSweep settings ttl plan steps stays planned
  · have forgets' : t.cache.settings.retention = .whileObserved := same ▸ forgets
    refine ⟨fun u reached moves i held none => ?_, ?_, ?_, ?_⟩
    · by_contra observed
      exact moves.absent_of_forsaken reached forgets (Nat.pos_of_ne_zero observed) none held
    · exact fun t' move i observed none => move.letGo coherent forgets' observed none
    · exact fun k none => coherent.letGo_glance forgets' k none
    · exact fun x k none => coherent.letGo_await forgets' x k none
  · have swept := coherent.pruned_sweep (same ▸ sweeps)
    exact ⟨fun i => swept.holds_iff, coherent.sweep_count (same ▸ sweeps),
      fun i left => swept.entry_of_holds left, swept.observers, swept.tasks, coherent.sweep_sweep⟩
  · intro k absent
    exact ⟨coherent.locate_absent absent, coherent.subscribe_absent absent,
      coherent.snapshot_absent absent⟩

/-- A reader lets go of the only entry while it is computed. -/
theorem retention_decides_released :
    let settings : Settings := { retention := .whileObserved }
    let asked : TimedCache Nat String Nat := (opened settings none).observe (.reader "r") 0
    let left := asked.release (.reader "r")
    Reached False settings none asked ∧
    (asked.cache.entry ⟨0, 0⟩).phase = .computing ⟨0, 0⟩ none ∧
    LetGo asked.cache left.cache ⟨0, 0⟩ ∧
    (left.cache.locate 0).1.entry (left.cache.locate 0).2 = {} := by
  intro settings asked left
  have first : Reached False settings none asked := .single (.deed (.observe (.reader "r") 0))
  have move : Move False asked left := .deed (.release (.reader "r"))
  have kept := (retention_decides first).2.2.1 rfl
  have anew := (retention_decides (first.tail move)).2.2.2.2 0 (by decide)
  exact ⟨first, by decide, kept.2.1 left move ⟨0, 0⟩ (by decide) (by decide), anew.1⟩

end LiveCache.TimedCache
