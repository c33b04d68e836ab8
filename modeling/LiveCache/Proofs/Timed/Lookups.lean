import LiveCache.Proofs.Entry.Resting
import LiveCache.Proofs.Timed.Moves

/-! # Looking up the entry of a key

An entry is retired and leaves the table in one go, so whoever looks a key up finds an entry that
serves him, and whoever still knows a retired entry finds it as it was left. A reader that would
look again as long as it is refused is therefore served by the entry that it finds first.
-/

namespace LiveCache

namespace Cache

variable {κ ε α : Type} [DecidableEq κ] {c : Cache κ ε α} {loose : List (EntryId κ)}

/-- Looks a key up until an entry takes the operation: the number of passes, the cache that they
leave, and the entry with its answer. An entry that refuses is looked up again, and nothing bounds
how often. -/
inductive Serves {ρ : Type} (k : κ) (operation : Entry ε α → Option ρ) :
    Cache κ ε α → Nat → Cache κ ε α → EntryId κ → ρ → Prop where
  | taken {c : Cache κ ε α} {r : ρ}
      (answer : operation ((c.locate k).1.entry (c.locate k).2) = some r) :
      Serves k operation c 1 (c.locate k).1 (c.locate k).2 r
  | refused {c d : Cache κ ε α} {passes : Nat} {i : EntryId κ} {r : ρ}
      (answer : operation ((c.locate k).1.entry (c.locate k).2) = none)
      (again : Serves k operation (c.locate k).1 passes d i r) :
      Serves k operation c (passes + 1) d i r

/-- The entry that is found first takes the operation, so looking it up ends with the first pass. -/
structure ServedAtOnce {ρ : Type} (c : Cache κ ε α) (k : κ) (operation : Entry ε α → Option ρ)
    (r : ρ) : Prop where
  answer : operation ((c.locate k).1.entry (c.locate k).2) = some r
  ends : Serves k operation c 1 (c.locate k).1 (c.locate k).2 r
  only : ∀ passes d i r', Serves k operation c passes d i r' → passes = 1

theorem servedAtOnce_of_some {ρ : Type} {k : κ} {operation : Entry ε α → Option ρ} {r : ρ}
    (answer : operation ((c.locate k).1.entry (c.locate k).2) = some r) :
    c.ServedAtOnce k operation r where
  answer := answer
  ends := .taken answer
  only := by
    intro passes d i r' serves
    cases serves with
    | taken => rfl
    | refused refusal =>
        rw [answer] at refusal
        cases refusal

/-! ## What the cache does with the entry -/

theorem ServedAtOnce.subscribe_eq {k : κ} {r : Entry ε α × Option Launch}
    (served : c.ServedAtOnce k Entry.subscribe? r) :
    c.subscribe k = (((c.locate k).1.put (c.locate k).2 r.1).spawn? (c.locate k).2 r.2,
      ⟨(c.locate k).2, none⟩) := by
  simp only [subscribe, served.answer]

theorem ServedAtOnce.snapshot_eq {k : κ} {r : Entry ε α × Option Launch}
    (served : c.ServedAtOnce k Entry.snapshot? r) :
    c.snapshot k = ((((c.locate k).1.put (c.locate k).2 r.1).spawn? (c.locate k).2 r.2).note
      (.delivered (c.locate k).2 r.1.latest), r.1.latest) := by
  simp only [snapshot, served.answer]

theorem ServedAtOnce.set_eq {k : κ} {value : α} {r : Entry ε α × Transition}
    (served : (c.note (.installed k value)).ServedAtOnce k (·.set? c.settings.stale value) r) :
    c.set k value =
      let found := (c.note (.installed k value)).locate k
      (found.1.put found.2 r.1).recordTransition .installed r.2 := by
  simp only [set, served.answer]

/-! ## What the table holds -/

theorem Coherent.present_of_locate (h : Coherent c loose) (k : κ) :
    ((c.locate k).1.entry (c.locate k).2).retired = false := by
  obtain ⟨coherent, held, -⟩ := h.locate k
  exact (coherent.present _ held).1

/-- Of the entries that were made, the table holds those that were not retired. -/
theorem Coherent.holds_iff_present (h : Coherent c loose) {i : EntryId κ}
    (made : i.ordinal < Tally.count c.created i.key) :
    c.Holds i ↔ (c.entry i).retired = false := by
  refine ⟨fun held => (h.present i held).1, fun present => ?_⟩
  by_contra out
  rw [h.retired i made out] at present
  cases present

end Cache

namespace TimedCache

open Cache (Coherent ServedAtOnce servedAtOnce_of_some)
open Entry (Act)

variable {κ ε α : Type} [DecidableEq κ] {t t' : TimedCache κ ε α} {lossy : Prop}
  {settings : Settings} {ttl : Option Nat}

theorem Moves.leads (h : Reached lossy settings ttl t) (moves : Moves lossy t t') (i : EntryId κ) :
    Entry.Leads settings.stale (t.cache.entry i) (t'.cache.entry i) := by
  have evolved : Cache.Evolves t.cache t'.cache :=
    moves.keep (P := fun u => Cache.Evolves t.cache u.cache) h (Cache.evolves_of_same rfl rfl)
      fun hc move before => before.trans (move.evolves hc)
  rw [← h.same_settings]
  exact evolved.leads i

/-- Once an entry was retired, nobody depends on it, and whatever is done to it leaves it as it is.
In a cache that is reached such an entry is not in the table and stays as it is from then on, and
the entries that were made and not retired are what the table holds, each for the key that it was
made for. So nobody who looks a key up, to read it or to write it, is refused. -/
theorem retired_never_found (policy : StalePolicy) (acts : List (Act ε α))
    (h : Reached lossy settings ttl t) :
    let retiring := (acts.foldl (Entry.perform policy) {}).retire
    (retiring.2 = true → retiring.1.subscribers = 0 ∧
      retiring.1.phase.isComputing = false ∧ retiring.1.Frozen policy) ∧
    (∀ k i, t.cache.current? k = some i →
      i.key = k ∧ i.ordinal < Tally.count t.cache.created k ∧ (t.cache.entry i).retired = false) ∧
    (∀ i, i.ordinal < Tally.count t.cache.created i.key → (t.cache.entry i).retired = false →
      t.cache.current? i.key = some i) ∧
    (∀ i, (t.cache.entry i).retired = true →
      t.cache.current? i.key ≠ some i ∧ (t.cache.entry i).Frozen settings.stale ∧
      ∀ t' : TimedCache κ ε α, Moves lossy t t' → t'.cache.entry i = t.cache.entry i) ∧
    ∀ k, (∃ r, t.cache.ServedAtOnce k Entry.subscribe? r) ∧
      (∃ r, t.cache.ServedAtOnce k Entry.snapshot? r) ∧
      ∀ value, ∃ r, (t.cache.note (.installed k value)).ServedAtOnce k
        (·.set? t.cache.settings.stale value) r := by
  intro retiring
  have coherent : Coherent t.cache [] := h.coherent
  refine ⟨fun may => ?_, fun k i found => ?_, fun i made present => ?_, fun i gone => ?_,
    fun k => ⟨?_, ?_, fun value => ?_⟩⟩
  · have rest := Entry.atRest_of_retire may
    exact ⟨rest.unobserved, rest.calm, rest.frozen policy⟩
  · have own : i.key = k := Cache.current?_key found
    have held : t.cache.Holds i := Cache.holds_of_current? found
    exact ⟨own, own ▸ coherent.located i held, (coherent.present i held).1⟩
  · exact (coherent.holds_iff_present made).2 present
  · have rest := (coherent.sound i).atRest gone
    refine ⟨fun held => ?_, rest.frozen settings.stale, fun t' moves => ?_⟩
    · have present := (coherent.present i held).1
      rw [gone] at present
      cases present
    · exact rest.leads (moves.leads h i)
  · exact ⟨_, servedAtOnce_of_some (Entry.subscribe?_eq (coherent.present_of_locate k))⟩
  · exact ⟨_, servedAtOnce_of_some (Entry.snapshot?_eq (coherent.present_of_locate k))⟩
  · have noted : Coherent (t.cache.note (.installed k value)) [] := coherent.note _
    exact ⟨_, servedAtOnce_of_some (Entry.set?_eq (noted.present_of_locate k) value)⟩

/-- A value is set, removed by a sweep and asked for again: a second entry of the key serves the
reader, and the first one is left as it was. -/
theorem retired_never_found_swept :
    let start : TimedCache Nat Nat Nat := opened { retention := .untilSweep } none
    let swept : TimedCache Nat Nat Nat := { start with cache := (start.set 3 7).cache.sweep.1 }
    let asked := swept.observe (.reader "") 3
    Reached False { retention := .untilSweep } none swept ∧ swept.cache.current? 3 = none ∧
      (swept.cache.entry ⟨3, 0⟩).retired = true ∧
      (∃ r, swept.cache.ServedAtOnce 3 Entry.subscribe? r) ∧
      asked.cache.current? 3 = some ⟨3, 1⟩ ∧
      asked.cache.entry ⟨3, 0⟩ = swept.cache.entry ⟨3, 0⟩ := by
  intro start swept asked
  have set : Move False start (start.set 3 7) := .deed (.set 3 7)
  have sweep : Move False (start.set 3 7) swept := .deed (.sweep swept.cache.log)
  have reached : Reached False { retention := .untilSweep } none swept :=
    .tail (.single set) sweep
  have facts := retired_never_found .replay [] reached
  have gone : (swept.cache.entry ⟨3, 0⟩).retired = true := by decide
  have observe : Move False swept asked := .deed (.observe (.reader "") 3)
  exact ⟨reached, by decide, gone, (facts.2.2.2.2 3).1, by decide,
    (facts.2.2.2.1 ⟨3, 0⟩ gone).2.2 asked (.single observe)⟩

end TimedCache

end LiveCache
