import LiveCache.Proofs.Blocking.Finishing
import LiveCache.Proofs.Blocking.Memo
import Mathlib.Data.Finset.Basic
import Mathlib.Algebra.BigOperators.Group.Finset.Basic

/-! # The cells of a table

All that matters about a key is what is held for it once every computation has ended, and how many
calls were made for it by then. This is its cell. A request acts on a cell in the same way whether
the cell belongs to a memo table or to a session.
-/

namespace LiveCache

/-! ## Registries with the same keys -/

namespace Registry

variable {κ ν μ : Type} [DecidableEq κ]

theorem keys_perm {r : Registry κ ν} {q : Registry κ μ}
    (same : ∀ k, (r.find? k).isSome = (q.find? k).isSome) : r.keys.Perm q.keys := by
  refine (List.perm_ext_iff_of_nodup r.nodup_keys q.nodup_keys).2 fun k => ?_
  rw [mem_keys_iff, mem_keys_iff, same]

theorem size_congr {r : Registry κ ν} {q : Registry κ μ}
    (same : ∀ k, (r.find? k).isSome = (q.find? k).isSome) : r.size = q.size := by
  simpa [size, keys] using (keys_perm same).length_eq

theorem find?_foldl_erase (l : List κ) (r : Registry κ ν) (k : κ) :
    (l.foldl erase r).find? k = if k ∈ l then none else r.find? k := by
  induction l generalizing r with
  | nil => rfl
  | cons k' rest ih =>
      rw [List.foldl_cons, ih, find?_erase]
      by_cases first : k' = k
      · simp [first]
      · simp [first, Ne.symm first]

end Registry

namespace Tally

variable {κ : Type} [DecidableEq κ]

theorem total_eq_sum (t : Tally κ) (s : Finset κ) (all : ∀ k ∈ t.keys, k ∈ s) :
    total t = ∑ k ∈ s, Tally.count t k := by
  have counts : t.keys.map (Tally.count t) = t.values := by
    rw [Registry.keys, Registry.values, List.map_map]
    refine List.map_congr_left fun p listed => ?_
    obtain ⟨k, n⟩ := p
    have found : t.find? k = some n := (Registry.find?_eq_some_iff _ _ _).2 listed
    simp [Tally.count, found]
  have rest : ∀ k ∈ s, k ∉ t.keys.toFinset → Tally.count t k = 0 := by
    intro k _ out
    have absent : t.find? k = none := by
      simpa [Registry.mem_keys_iff] using out
    simp [Tally.count, absent]
  calc total t = (t.keys.map (Tally.count t)).sum := by rw [counts]; rfl
    _ = ∑ k ∈ t.keys.toFinset, Tally.count t k := (List.sum_toFinset _ t.nodup_keys).symm
    _ = ∑ k ∈ s, Tally.count t k :=
      Finset.sum_subset (fun k mem => all k (List.mem_toFinset.1 mem)) rest

theorem total_congr {t u : Tally κ} (same : ∀ k, Tally.count t k = Tally.count u k) :
    total t = total u := by
  have left := total_eq_sum t (t.keys ++ u.keys).toFinset (by simp +contextual)
  have right := total_eq_sum u (t.keys ++ u.keys).toFinset (by simp +contextual)
  rw [left, right]
  exact Finset.sum_congr rfl fun k _ => same k

end Tally

open Session (Key Value)

/-! ## Cells -/

/-- What is held for a key, and the number of calls that were made for it. -/
abbrev Cell := Option (Phase Failure Value) × Nat

namespace Cell

/-- A current outcome is there, after one more call if it was not. -/
def asked (compute : Nat → Outcome Failure Value) : Cell → Cell
  | (some (.settled o), n) => (some (.settled o), n)
  | (_, n) => (some (.settled (compute n)), n + 1)

def outdated : Cell → Cell
  | (some (.settled o), n) => (some (.stale (some o)), n)
  | x => x

/-- What is outdated is computed anew at once where somebody waits for it. -/
def expired (awaited : Bool) (compute : Nat → Outcome Failure Value) : Cell → Cell
  | (none, n) => (none, n)
  | x => if awaited then x.outdated.asked compute else x.outdated

def installed (v : Value) (x : Cell) : Cell := (some (.settled (.success v)), x.2)

def forgotten (x : Cell) : Cell := (none, x.2)

/-- The cell is forgotten if nothing keeps it. -/
def leave (forgets : Prop) [Decidable forgets] (x : Cell) : Cell :=
  if forgets then x.forgotten else x

theorem asked_outdated (compute : Nat → Outcome Failure Value) (x : Cell) :
    x.outdated.asked compute = (some (.settled (compute x.2)), x.2 + 1) := by
  obtain ⟨_ | p, n⟩ := x
  · rfl
  · cases p <;> rfl

theorem expired_of_some (awaited : Bool) (compute : Nat → Outcome Failure Value)
    (p : Phase Failure Value) (n : Nat) : Cell.expired awaited compute (some p, n) =
      if awaited then (some (.settled (compute n)), n + 1) else Cell.outdated (some p, n) := by
  rw [expired]
  · rw [asked_outdated]
  · simp

end Cell

/-! ## Cells of a memo table -/

def Held.phase (h : Held) : Phase Failure Value :=
  if h.current then .settled h.outcome else .stale (some h.outcome)

namespace Memo

variable (m : Memo) (k k' : Key)

def cell (k : Key) : Cell := ((m.held.find? k).map Held.phase, Tally.count m.called k)

theorem cell_hold (h : Held) :
    (m.hold k h).cell k' = if k = k' then (some h.phase, (m.cell k).2) else m.cell k' := by
  unfold cell hold
  rw [Registry.find?_insert]
  by_cases same : k = k' <;> simp [same]

theorem cell_renew : (m.renew k).cell k' =
    if k = k' then (some (.settled (m.next k)), (m.cell k).2 + 1) else m.cell k' := by
  unfold renew cell hold
  dsimp only
  rw [Registry.find?_insert, Tally.count_bump]
  by_cases same : k = k' <;> simp [same, Held.phase]

theorem cell_fetch : (m.fetch k).1.cell k' =
    if k = k' then (m.cell k).asked (m.compute k) else m.cell k' := by
  unfold fetch
  split
  next o found =>
    have cell : m.cell k = (some (.settled o), Tally.count m.called k) := by
      rw [Memo.cell, found]
      rfl
    by_cases same : k = k'
    · rw [if_pos same, ← same, cell]
      rfl
    · rw [if_neg same]
  next missing =>
    rw [cell_renew]
    by_cases same : k = k'
    · rw [if_pos same, if_pos same]
      unfold cell
      cases found : m.held.find? k with
      | none => rfl
      | some h =>
          obtain ⟨o, current⟩ := h
          cases current with
          | true => exact absurd found (missing o)
          | false => rfl
    · rw [if_neg same, if_neg same]

/-- What is fetched is the current outcome that is held afterwards. -/
theorem fetch_cell : ((m.fetch k).1.cell k).1 = some (.settled (m.fetch k).2) := by
  unfold fetch
  split
  next o found => rw [cell, found]; rfl
  next => rw [cell_renew, if_pos rfl]

theorem fetch_fetch : (m.fetch k).1.fetch k = m.fetch k := by
  have held : (m.fetch k).1.held.find? k = some ⟨(m.fetch k).2, true⟩ := by
    unfold fetch
    split
    next o found => exact found
    next => exact Registry.find?_insert_self _ _ _
  conv_lhs => rw [fetch, held]

theorem cell_forget : (m.forget k).cell k' =
    if k = k' then
      (m.cell k).leave (m.settings.retention = .whileObserved ∧ m.isWarm k = false)
    else m.cell k' := by
  unfold forget Cell.leave
  by_cases leaves : m.settings.retention = .whileObserved ∧ m.isWarm k = false
  · rw [if_pos leaves, if_pos leaves]
    unfold cell
    rw [Registry.find?_erase]
    by_cases same : k = k'
    · rw [if_pos same, if_pos same, ← same]
      rfl
    · rw [if_neg same, if_neg same]
  · rw [if_neg leaves, if_neg leaves]
    split
    next same => rw [same]
    next => rfl

theorem cell_expire : (m.expire k).cell k' =
    if k = k' then (m.cell k).expired (m.isWarm k) (m.compute k) else m.cell k' := by
  unfold expire
  split
  next absent =>
    by_cases same : k = k'
    · rw [if_pos same, ← same, cell, absent]
      rfl
    · rw [if_neg same]
  next h found =>
    have before : m.cell k = (some h.phase, Tally.count m.called k) := by
      rw [cell, found]
      rfl
    rw [before, Cell.expired_of_some]
    dsimp only
    cases warm : m.isWarm k with
    | true =>
        rw [if_pos rfl, if_pos rfl, cell_renew, cell_hold, cell_hold, if_pos rfl]
        by_cases same : k = k'
        · rw [if_pos same, if_pos same]
          rfl
        · rw [if_neg same, if_neg same, if_neg same]
    | false =>
        rw [if_neg Bool.false_ne_true, if_neg Bool.false_ne_true, cell_hold]
        obtain ⟨o, current⟩ := h
        cases current <;> rfl

/-! ### What requests leave alone -/

/-- All that is not said about single keys by their cells. -/
def frame (m : Memo) : Settings × Bool × (Key → Nat → Outcome Failure Value) × Registry Key Unit :=
  (m.settings, m.warming, m.compute, m.warm)

theorem of_frame {m m' : Memo} (same : m'.frame = m.frame) :
    m'.settings = m.settings ∧ m'.warming = m.warming ∧ m'.compute = m.compute ∧
      m'.warm = m.warm := by
  simpa [frame] using same

@[simp] theorem frame_fetch : (m.fetch k).1.frame = m.frame := by
  unfold fetch
  split <;> rfl

@[simp] theorem frame_forget : (m.forget k).frame = m.frame := by
  unfold forget
  split <;> rfl

theorem frame_read : ((m.fetch k).1.forget k).frame = m.frame :=
  (frame_forget _ k).trans (frame_fetch m k)

theorem frame_release :
    (m.release k).1.frame = { m with warm := m.warm.erase k }.frame := by
  unfold release
  dsimp only
  split
  next => exact frame_forget _ k
  next => rfl

@[simp] theorem frame_expire : (m.expire k).frame = m.frame := by
  unfold expire
  split
  next => rfl
  next => dsimp only; split <;> rfl

/-- What a read leaves of a key. -/
theorem cell_fetch_forget : ((m.fetch k).1.forget k).cell k' =
    if k = k' then
      ((m.cell k).asked (m.compute k)).leave
        (m.settings.retention = .whileObserved ∧ m.isWarm k = false)
    else m.cell k' := by
  obtain ⟨settings, -, -, warm⟩ := of_frame (frame_fetch m k)
  rw [cell_forget, cell_fetch, cell_fetch, if_pos rfl, settings, isWarm, warm, ← isWarm]
  by_cases same : k = k'
  · rw [if_pos same, if_pos same]
  · rw [if_neg same, if_neg same, if_neg same]

theorem frame_foldl_expire (l : List Key) : (l.foldl expire m).frame = m.frame := by
  induction l generalizing m with
  | nil => rfl
  | cons k rest ih => rw [List.foldl_cons, ih, frame_expire]

@[simp] theorem frame_expireAll : m.expireAll.frame = m.frame := frame_foldl_expire m _

@[simp] theorem frame_sweep : m.sweep.1.frame = m.frame := by
  unfold sweep
  split <;> rfl

/-! ### Whole tables -/

theorem cell_foldl_expire (l : List Key) (distinct : l.Nodup) : (l.foldl expire m).cell k =
    if k ∈ l then (m.cell k).expired (m.isWarm k) (m.compute k) else m.cell k := by
  induction l generalizing m with
  | nil => rfl
  | cons k' rest ih =>
      obtain ⟨fresh, rest'⟩ := List.nodup_cons.1 distinct
      obtain ⟨-, -, compute, warm⟩ := of_frame (frame_expire m k')
      have same : (m.expire k').isWarm k = m.isWarm k := by rw [isWarm, warm, isWarm]
      rw [List.foldl_cons, ih _ rest', cell_expire, same, compute]
      by_cases here : k' = k
      · subst here
        rw [if_neg fresh, if_pos rfl, if_pos List.mem_cons_self]
      · simp [here, Ne.symm here]

theorem cell_expireAll :
    m.expireAll.cell k = (m.cell k).expired (m.isWarm k) (m.compute k) := by
  unfold expireAll
  rw [cell_foldl_expire m k _ m.held.nodup_keys]
  split
  next => rfl
  next out =>
    have absent : m.held.find? k = none := by simpa [Registry.mem_keys_iff] using out
    rw [cell, absent]
    rfl

theorem cell_sweep (forgets : m.settings.retention ≠ .forever) :
    m.sweep.1.cell k = if m.isWarm k then m.cell k else (m.cell k).forgotten := by
  unfold sweep
  rw [if_neg forgets]
  unfold cell
  dsimp only
  rw [Registry.find?_foldl_erase]
  cases warm : m.isWarm k with
  | true => simp [warm]
  | false =>
      cases found : m.held.find? k with
      | none => simp [Cell.forgotten]
      | some h => simp [Cell.forgotten, Registry.mem_keys_iff, found, warm]

end Memo

/-! ## Cells of a session -/

/-- What becomes of a phase when its computation ends as the next call of its key. -/
def Phase.cell (compute : Nat → Outcome Failure Value) (n : Nat) :
    Option (Phase Failure Value) → Cell
  | some (.computing _ _) => (some (.settled (compute n)), n + 1)
  | p => (p, n)

theorem Phase.cell_of_calm {compute : Nat → Outcome Failure Value} {n : Nat}
    {p : Phase Failure Value} (calm : p.isComputing = false) :
    Phase.cell compute n (some p) = (some p, n) := by
  cases p with
  | computing l previous => cases calm
  | empty | settled o | stale previous => rfl

namespace Entry

variable {compute : Nat → Outcome Failure Value} {n : Nat} {policy : StalePolicy}

/-- Whoever asks for a key will have its current outcome, after one call if there was none. -/
theorem cell_demand (e : Option (Entry Failure Value)) :
    Phase.cell compute n (some (e.getD {}).demand.1.phase) =
      (Phase.cell compute n (e.map (·.phase))).asked compute := by
  cases e with
  | none => rfl
  | some e =>
      rw [Option.getD_some, demand_eq]
      cases hp : e.phase <;> simp [Phase.isIdle, launch, Phase.cell, hp, Cell.asked]

/-- What nobody computes is outdated, and computed anew at once where there are subscribers. -/
theorem cell_renewed {e : Entry Failure Value} (calm : e.phase.isComputing = false) :
    Phase.cell compute n (some (e.renewed policy).1.phase) =
      (Phase.cell compute n (some e.phase)).expired (e.subscribers ≠ 0) compute := by
  have outdated : Phase.cell compute n (some (e.outdated policy).phase) =
      Cell.outdated (some e.phase, n) := by
    unfold Entry.outdated outdate
    cases hp : e.phase with
    | computing l previous => simp [hp, Phase.isComputing] at calm
    | empty | stale previous => simp only [hp]; rfl
    | settled o => rfl
  rw [Phase.cell_of_calm calm, Cell.expired_of_some]
  unfold renewed
  by_cases none : e.subscribers = 0
  · rw [if_pos none, outdated, if_neg (by simpa using none)]
  · have demanded : Phase.cell compute n (some (e.outdated policy).demand.1.phase) = _ :=
      cell_demand (some (e.outdated policy))
    rw [if_neg none, demanded, Option.map_some, outdated, Cell.asked_outdated,
      if_pos (by simpa using none)]

/-- An entry whose last subscription has ended is forgotten where only observed ones are kept. -/
theorem cell_unsubscribed {e : Entry Failure Value} (calm : e.phase.isComputing = false)
    (forgets : Prop) [Decidable forgets] :
    Phase.cell compute n ((if forgets then none else some e.unsubscribe).map (·.phase)) =
      Cell.leave forgets (some e.phase, n) := by
  unfold Cell.leave
  split
  next => rfl
  next => exact Phase.cell_of_calm calm

theorem cell_finished (policy : StalePolicy) (compute : Nat → Outcome Failure Value) (n : Nat)
    (e : Option (Entry Failure Value)) :
    Phase.cell compute (n + if e.any (·.phase.isComputing) then 1 else 0)
      ((e.map (finished policy (compute n))).map (·.phase)) =
        Phase.cell compute n (e.map (·.phase)) := by
  cases e with
  | none => rfl
  | some e =>
      cases hp : e.phase <;>
        simp [hp, Phase.isComputing, finished, concluded, Phase.cell]

end Entry

namespace Session

/-- What is held for a key of the session once all computations have ended. -/
def cell (f : Key → Nat → Outcome Failure Value) (s : Session) (k : Key) : Cell :=
  Phase.cell (f k) (Tally.count s.called k) ((s.cache.known? k).map (·.phase))

end Session

end LiveCache
