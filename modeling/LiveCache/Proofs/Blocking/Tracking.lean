import LiveCache.Proofs.Blocking.Cells

/-! # Sessions that follow a memo table

A session tracks a memo table when both have the same cells. What a blocking cache does with its
session is shown here to do to the cells what the table does to them.
-/

namespace LiveCache

namespace Registry

variable {κ ν : Type} [DecidableEq κ] {r : Registry κ ν} {p : ν → Bool}

theorem count_eq_zero (none : ∀ k v, r.find? k = some v → p v = false) : r.count p = 0 := by
  refine List.countP_eq_zero.2 fun v listed => ?_
  obtain ⟨⟨k, v⟩, pair, rfl⟩ := List.mem_map.1 listed
  simp [none k v ((find?_eq_some_iff _ _ _).2 pair)]

/-- A kind of values that can be found under one key only. -/
theorem count_of_only {k : κ} (only : ∀ k' v, r.find? k' = some v → p v = true → k' = k) :
    r.count p = if (r.find? k).any p then 1 else 0 := by
  cases found : r.find? k with
  | none =>
      refine count_eq_zero fun k' v other => ?_
      by_contra kind
      rw [only k' v other (by simpa using kind), found] at other
      cases other
  | some w =>
      have rest : (r.erase k).count p = 0 := by
        refine count_eq_zero fun k' v other => ?_
        rw [find?_erase] at other
        split at other
        next => cases other
        next ne =>
          by_contra kind
          exact ne (only k' v other (by simpa using kind)).symm
      have count := count_erase_of_some found p
      rw [rest, Nat.zero_add] at count
      rw [← count, Option.any_some]

end Registry

open Session (Key Value Poised Concludes Spares)
open TimedCache (Deed)
open Cache (Coherent)

variable {s : Session} {m m' : Memo} {k : Key}

/-! ## Who subscribes -/

/-- The only subscriptions are the standing ones of the warm keys. -/
structure Attends (c : Cache Key Failure Value) (warm : Registry Key Unit) : Prop where
  readers : ∀ x sub, c.observers.find? x = some sub → x = .reader sub.entry.key
  warm : ∀ k, c.observers.contains (.reader k) = warm.contains k

namespace Attends

variable {c d : Cache Key Failure Value} {warm : Registry Key Unit}

theorem congr (h : Attends c warm) (same : ∀ x, d.observers.find? x = c.observers.find? x) :
    Attends d warm where
  readers := by
    intro x sub found
    exact h.readers x sub (same x ▸ found)
  warm := by
    intro k
    rw [← h.warm, Registry.contains, Registry.contains, same]

theorem subscriberCount (h : Attends c warm) (hc : Coherent c []) (k : Key) :
    c.subscriberCount k = if warm.contains k then 1 else 0 := by
  have own : ∀ x sub, c.observers.find? x = some sub → decide (sub.entry.key = k) = true →
      x = .reader k := by
    intro x sub found key
    rw [h.readers x sub found, of_decide_eq_true key]
  rw [hc.subscriberCount, Registry.count_of_only own, ← h.warm, Registry.contains]
  cases found : c.observers.find? (.reader k) with
  | none => rfl
  | some sub =>
      have key := Holder.reader.inj (h.readers _ sub found)
      simp [← key]

theorem size (h : Attends c warm) : c.observers.size = warm.size := by
  have perm : c.observers.keys.Perm (warm.keys.map .reader) := by
    refine (List.perm_ext_iff_of_nodup c.observers.nodup_keys
      (warm.nodup_keys.map fun _ _ => Holder.reader.inj)).2 fun x => ?_
    rw [Registry.mem_keys_iff, List.mem_map]
    constructor
    · intro held
      obtain ⟨sub, found⟩ := Option.isSome_iff_exists.1 held
      have own := h.readers x sub found
      refine ⟨sub.entry.key, ?_, own.symm⟩
      rw [Registry.mem_keys_iff]
      rw [own] at held
      exact (h.warm _).symm.trans held
    · rintro ⟨k, mem, rfl⟩
      rw [Registry.mem_keys_iff] at mem
      exact (h.warm k).trans mem
  simpa [Registry.size, Registry.keys] using perm.length_eq

end Attends

/-! ## Cells -/

/-- The session has the cells of the memo table. -/
structure Tracks (s : Session) (m : Memo) : Prop where
  poised : Poised s
  settings : s.cache.settings = m.settings
  cells : ∀ k, s.cell m.compute k = m.cell k

namespace Tracks

/-! ## Computations under way -/

theorem concludes (h : Tracks s m) {s' : Session}
    (done : Concludes m.compute s.computes s s') : Tracks s' m where
  poised := done.poised
  settings := done.settings.trans h.settings
  cells := by
    intro k
    rw [← h.cells, Session.cell, Session.cell, done.known, done.called]
    cases busy : s.computes k with
    | false => rfl
    | true =>
        have one : (s.cache.known? k).any (fun e => e.phase.isComputing) = true := busy
        have finished := Entry.cell_finished s.cache.settings.stale (m.compute k)
          (Tally.count s.called k) (s.cache.known? k)
        rwa [one] at finished

/-- When nothing is under way the session holds what its cells say. -/
theorem cell_of_idle (h : Tracks s m) (idle : s.cache.tasks = []) (k : Key) :
    m.cell k = ((s.cache.known? k).map (·.phase), Tally.count s.called k) := by
  rw [← h.cells, Session.cell]
  cases known : s.cache.known? k with
  | none => rfl
  | some e => exact Phase.cell_of_calm (h.poised.calm_of_idle idle known)

/-! ## What readers do -/

theorem deed (h : Tracks s m) {t : TimedCache Key Failure Value} (deed : Deed s.timed t)
    (spares : Spares s { s with timed := t }) (frame : m'.frame = m.frame)
    (cells : ∀ k, ({ s with timed := t } : Session).cell m.compute k = m'.cell k) :
    Tracks { s with timed := t } m' := by
  have move : TimedCache.Move False s.timed t := .deed deed
  obtain ⟨settings, -, compute, -⟩ := Memo.of_frame frame
  exact {
    poised := h.poised.deed deed spares
    settings := (move.evolves h.poised.coherent).settings.trans (h.settings.trans settings.symm)
    cells := by rw [compute]; exact cells }

/-- Something is done about one key. -/
theorem change (h : Tracks s m) (k : Key) {t : TimedCache Key Failure Value}
    (deed : Deed s.timed t) (spares : Spares s { s with timed := t }) (frame : m'.frame = m.frame)
    (act : Cell → Cell)
    (others : ∀ k', k ≠ k' → t.cache.known? k' = s.cache.known? k')
    (here : ({ s with timed := t } : Session).cell m.compute k = act (s.cell m.compute k))
    (cells : ∀ k', m'.cell k' = if k = k' then act (m.cell k) else m.cell k') :
    Tracks { s with timed := t } m' := by
  refine h.deed deed spares frame fun k' => ?_
  rw [cells]
  by_cases same : k = k'
  · rw [if_pos same, ← same, here, h.cells]
  · rw [if_neg same, ← h.cells]
    unfold Session.cell
    dsimp only [Session.cache]
    rw [others k' same]

theorem snapshot (h : Tracks s m) (k : Key) :
    Tracks { s with timed := (s.timed.snapshot k).1 } (m.fetch k).1 := by
  have hc := h.poised.coherent
  have untimed := TimedCache.armIfAbsent_of_untimed h.poised.untimed k
  have cache : (s.timed.snapshot k).1.cache = (s.cache.snapshot k).1 := by
    unfold TimedCache.snapshot
    rw [untimed]
  refine h.change k (.snapshot k) (Session.Does.snapshot k).effect.spares (m.frame_fetch k)
    (Cell.asked (m.compute k)) ?_ ?_ (m.cell_fetch k)
  · intro k' other
    rw [cache, hc.known?_snapshot, if_neg other]
  · unfold Session.cell
    dsimp only [Session.cache]
    rw [cache, hc.known?_snapshot, if_pos rfl, Option.map_some, Entry.cell_demand]

/-- Held is what the session knows, as soon as nothing is computed. -/
theorem held_of_idle (h : Tracks s m) (idle : s.cache.tasks = []) (k : Key) :
    (s.cache.known? k).map (·.phase) = (m.held.find? k).map Held.phase :=
  (congrArg Prod.fst (h.cell_of_idle idle k)).symm

theorem snapshot_view (h : Tracks s m) (idle : s.cache.tasks = []) (k : Key) :
    (s.timed.snapshot k).2 = m.view k := by
  have held := h.held_of_idle idle k
  have view : (s.timed.snapshot k).2 = ((s.cache.known? k).getD {}).latest := by
    unfold TimedCache.snapshot
    rw [TimedCache.armIfAbsent_of_untimed h.poised.untimed]
    exact h.poised.coherent.snapshot_view k
  rw [view]
  unfold Memo.view
  rw [← h.settings]
  cases known : s.cache.known? k with
  | none =>
      rw [known, Option.map_none, eq_comm, Option.map_eq_none_iff] at held
      rw [held]
      rfl
  | some e =>
      rw [known, Option.map_some, eq_comm, Option.map_eq_some_iff] at held
      obtain ⟨⟨o, current⟩, found, phase⟩ := held
      rw [found, Option.getD_some, (h.poised.coherent.known?_sound known).shown, ← phase]
      cases current <;> cases s.cache.settings.stale <;> rfl

theorem set (h : Tracks s m) (idle : s.cache.tasks = []) (k : Key) (v : Value) :
    Tracks { s with timed := s.timed.set k v } (m.hold k ⟨.success v, true⟩) := by
  have cache : (s.timed.set k v).cache = s.cache.set k v := by
    unfold TimedCache.set TimedCache.arm
    rw [h.poised.untimed]
  refine h.change k (.set k v) (Session.Does.set k v).effect.spares rfl (Cell.installed v)
    ?_ ?_ fun k' => ?_
  · intro k' other
    rw [cache, h.poised.coherent.known?_set, if_neg other]
  · rw [h.cells, h.cell_of_idle idle]
    unfold Session.cell
    dsimp only [Session.cache]
    rw [cache, h.poised.coherent.known?_set, if_pos rfl]
    rfl
  · rw [m.cell_hold]
    rfl

theorem cell_renewed (h : Tracks s m) (attends : Attends s.cache m.warm)
    (idle : s.cache.tasks = []) (k : Key) :
    Phase.cell (m.compute k) (Tally.count s.called k)
      (((s.cache.known? k).map fun e => (e.renewed s.cache.settings.stale).1).map (·.phase)) =
    (m.cell k).expired (m.isWarm k) (m.compute k) := by
  have count := attends.subscriberCount h.poised.coherent k
  rw [Cache.subscriberCount_eq] at count
  rw [h.cell_of_idle idle]
  cases known : s.cache.known? k with
  | none => rfl
  | some e =>
      have calm := h.poised.calm_of_idle idle known
      rw [known] at count
      have warm : decide (e.subscribers ≠ 0) = m.isWarm k := by
        rw [show e.subscribers = _ from count, Memo.isWarm]
        cases m.warm.contains k <;> rfl
      rw [Option.map_some, Option.map_some, Entry.cell_renewed calm, warm,
        Phase.cell_of_calm calm]
      rfl

theorem expire (h : Tracks s m) (attends : Attends s.cache m.warm) (idle : s.cache.tasks = [])
    (k : Key) : Tracks { s with timed := s.timed.expire k } (m.expire k) := by
  have known := h.poised.coherent.known?_expire k
  refine h.change k (.expire k) (Session.Does.expire k).effect.spares (m.frame_expire k)
    (Cell.expired (m.isWarm k) (m.compute k)) ?_ ?_ (m.cell_expire k)
  · intro k' other
    exact (known k').trans (if_neg other)
  · rw [h.cells, ← h.cell_renewed attends idle]
    unfold Session.cell
    rw [show (s.timed.expire k).cache.known? k = _ from (known k).trans (if_pos rfl)]

theorem expireAll (h : Tracks s m) (attends : Attends s.cache m.warm)
    (idle : s.cache.tasks = []) : Tracks s.expireAll.1 m.expireAll := by
  have walked : s.expireAll.1.cache.known? = s.cache.expireAll.known? :=
    Cache.known?_congr rfl rfl
  refine h.deed (Session.deed_expireAll s) Session.Does.expireAll.effect.spares m.frame_expireAll
    fun k => ?_
  have known := (congrFun walked k).trans (h.poised.coherent.known?_expireAll k)
  rw [m.cell_expireAll, ← h.cell_renewed attends idle, ← known]
  rfl

/-! ## Sweeps -/

/-- When nothing is computed, what may be removed is what is not warm. -/
theorem retirable_eq (h : Tracks s m) (attends : Attends s.cache m.warm)
    (idle : s.cache.tasks = []) {k : Key} {e : Entry Failure Value}
    (known : s.cache.known? k = some e) : e.retirable = !m.isWarm k := by
  have calm := h.poised.calm_of_idle idle known
  have count := attends.subscriberCount h.poised.coherent k
  rw [Cache.subscriberCount_eq, known, Option.getD_some] at count
  rw [Entry.retirable, h.poised.coherent.known?_present known, calm, count, Memo.isWarm]
  cases m.warm.contains k <;> rfl

theorem sweep (h : Tracks s m) (attends : Attends s.cache m.warm) (idle : s.cache.tasks = []) :
    Tracks s.sweep.1 m.sweep.1 := by
  have swept : s.sweep.1.cache.known? = s.cache.sweep.1.known? := Cache.known?_congr rfl rfl
  refine h.deed (.sweep _) Session.Does.sweep.effect.spares m.frame_sweep fun k => ?_
  by_cases keeps : s.cache.settings.retention = .forever
  · have same : s.cache.sweep.1 = s.cache := congrArg Prod.fst (TimedCache.sweep_of_forever keeps)
    have nothing : m.sweep.1 = m := by
      unfold Memo.sweep
      rw [if_pos (h.settings ▸ keeps)]
    have known : s.sweep.1.cache.known? k = s.cache.known? k := by rw [swept, same]
    rw [nothing, ← h.cells]
    change Phase.cell _ _ ((s.sweep.1.cache.known? k).map (·.phase)) = _
    rw [known]
    rfl
  · have known := (congrFun swept k).trans (h.poised.coherent.known?_sweep keeps k)
    rw [m.cell_sweep k (h.settings ▸ keeps), h.cell_of_idle idle]
    change Phase.cell _ _ ((s.sweep.1.cache.known? k).map (·.phase)) = _
    rw [known]
    cases before : s.cache.known? k with
    | none => cases m.isWarm k <;> rfl
    | some e =>
        rw [Option.filter_some, h.retirable_eq attends idle before, Bool.not_not]
        cases m.isWarm k with
        | false => rfl
        | true => exact Phase.cell_of_calm (h.poised.calm_of_idle idle before)

theorem sweep_count (h : Tracks s m) (attends : Attends s.cache m.warm)
    (idle : s.cache.tasks = []) : s.cache.sweep.2 = m.sweep.2 := by
  by_cases keeps : s.cache.settings.retention = .forever
  · rw [show s.cache.sweep = (s.cache, 0) from TimedCache.sweep_of_forever keeps]
    unfold Memo.sweep
    rw [if_pos (h.settings ▸ keeps)]
  · rw [h.poised.coherent.sweep_count keeps]
    unfold Memo.sweep
    rw [if_neg (h.settings ▸ keeps)]
    have perm : ((s.cache.ids.filter fun i => s.cache.Idle i).map (·.key)).Perm
        (m.held.keys.filter fun k => !m.isWarm k) := by
      refine (List.perm_ext_iff_of_nodup ?_ (m.held.nodup_keys.filter _)).2 fun k => ?_
      · exact s.cache.nodup_ids_keys.sublist (List.filter_sublist.map _)
      · have held := congrArg Option.isSome (h.held_of_idle idle k)
        rw [Option.isSome_map, Option.isSome_map] at held
        rw [h.poised.coherent.mem_swept_iff, List.mem_filter, Registry.mem_keys_iff, ← held]
        constructor
        · rintro ⟨e, known, may⟩
          exact ⟨by rw [known]; rfl, by rwa [← h.retirable_eq attends idle known]⟩
        · rintro ⟨some, cold⟩
          obtain ⟨e, known⟩ := Option.isSome_iff_exists.1 some
          exact ⟨e, known, by rwa [h.retirable_eq attends idle known]⟩
    simpa using perm.length_eq

end Tracks

end LiveCache
