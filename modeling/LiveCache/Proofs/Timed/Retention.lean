import LiveCache.Proofs.Cache.Holders
import LiveCache.Proofs.Cache.Sweeping
import LiveCache.Proofs.Timed.Cancelling

/-! # What the retention decides

An entry leaves the table in a sweep, or together with its last subscription where entries are kept
only while they are observed. Nothing else that can be done to a cache removes one.
-/

namespace LiveCache

namespace Entry

variable {ε α : Type} {policy : StalePolicy} {e e' : Entry ε α}

/-- Readers that come stop no computation. -/
theorem Via.aborted_of_asks (h : Via Act.asks policy e e') : e'.aborted = e.aborted := by
  induction h with
  | refl => rfl
  | @tail e e' _ last ih =>
      obtain ⟨a, asks, -, rfl⟩ := last
      rw [← ih]
      cases a with
      | subscribe =>
          cases gone : e.retired with
          | true => simp [perform, subscribe?, gone]
          | false => simp [perform, subscribe?_eq gone]
      | snapshot =>
          cases gone : e.retired with
          | true => simp [perform, snapshot?, gone]
          | false => simp [perform, snapshot?_eq gone]
      | _ => exact asks.elim

end Entry

namespace Cache

variable {κ ε α : Type} [DecidableEq κ] {c d m : Cache κ ε α} {loose : List (EntryId κ)}
  {i j : EntryId κ}

open Entry (Act)

/-! ## Entries that stay -/

theorem Passes.holds (h : Coherent c loose) (passes : Passes Act.lasts c d) (held : c.Holds i) :
    d.Holds i := by
  refine passes.kept i held ?_
  rw [(passes.via i).retired fun a => Act.ne_retire_of_lasts]
  exact (h.present i held).1

theorem Passes.holds_of_asks (h : Coherent c loose) (asked : Passes Act.asks c d)
    (held : c.Holds i) : d.Holds i :=
  (asked.mono fun _ => Act.lasts_of_asks).holds h held

theorem Parting.holds (h : Coherent c loose) (parting : Parting c d)
    (lasting : c.settings.retention ≠ .whileObserved) (held : c.Holds i) : d.Holds i := by
  cases parting with
  | stays passes => exact passes.holds h held
  | ends m j asked coherent eq =>
      have still : m.Holds i := asked.holds_of_asks h held
      rw [eq, unsubscribe_of_lasting fun forgets => absurd (asked.settings ▸ forgets) lasting]
      exact still

/-! ## The last subscription -/

/-- What becomes of an entry when its last subscription ends: it leaves the table, and what is
computed for it is told to stop, and nothing else. -/
structure LetGo (c d : Cache κ ε α) (i : EntryId κ) : Prop where
  absent : d.current? i.key = none
  stopped : d.Stopped i
  spared : ∀ t : Task κ, t.entry ≠ i → d.isAborted t = c.isAborted t
  others : ∀ j, j.key ≠ i.key → c.Holds j → d.Holds j

/-- A subscription ends after what readers have asked for. -/
theorem Coherent.letGo (h : Coherent c []) (forgets : c.settings.retention = .whileObserved)
    (asked : Passes Act.asks c m) (coherent : Coherent m [i])
    (none : ((m.unsubscribe i).entry i).subscribers = 0) : LetGo c (m.unsubscribe i) i := by
  have forgets' : m.settings.retention = .whileObserved := asked.settings ▸ forgets
  have last : (m.entry i).unsubscribe.subscribers = 0 := by
    by_contra more
    rw [unsubscribe_of_lasting fun _ => more, entry_put_self] at none
    exact more none
  have forgotten := coherent.forgotten forgets' last
  have ended : Course (fun _ => True) m (m.unsubscribe i) [] := coherent.unsubscribe
  refine ⟨?_, ?_, ?_, ?_⟩
  · rw [current?, forgotten.table, Registry.find?_erase_self]
    rfl
  · exact ended.coherent.stopped_of_retired (by rw [forgotten.self])
  · intro t other
    rw [isAborted, forgotten.others _ other, (asked.via t.entry).aborted_of_asks]
    rfl
  · intro j other held
    rw [holds_iff, forgotten.table, Registry.find?_erase_of_ne _ _ _ (Ne.symm other), ← holds_iff]
    exact asked.holds_of_asks h held

theorem Parting.letGo (h : Coherent c []) (forgets : c.settings.retention = .whileObserved)
    (parting : Parting c d) (observed : 0 < (c.entry i).subscribers)
    (none : (d.entry i).subscribers = 0) : LetGo c d i := by
  cases parting with
  | stays passes =>
      have kept := (passes.via i).subscribers fun a => Act.ne_unsubscribe_of_lasts
      omega
  | ends m j asked coherent eq =>
      subst eq
      have kept := (asked.via i).subscribers fun a asks =>
        Act.ne_unsubscribe_of_lasts (Act.lasts_of_asks asks)
      by_cases same : i = j
      · subst same
        exact h.letGo forgets asked coherent none
      · -- The subscription that has ended is one of another entry.
        have still : (m.unsubscribe j).entry i = m.entry i := by
          by_cases last : (m.entry j).unsubscribe.subscribers = 0
          · exact (coherent.forgotten (asked.settings ▸ forgets) last).others i same
          · rw [unsubscribe_of_lasting fun _ => last, entry_put_of_ne _ _ (Ne.symm same)]
        rw [still] at none
        omega

/-- A subscription that ends in the operation that has made it. -/
theorem Coherent.letGo_glance (h : Coherent c []) (forgets : c.settings.retention = .whileObserved)
    (k : κ) (none : ((c.glance k).entry (c.locate k).2).subscribers = 0) :
    LetGo c (c.glance k) (c.locate k).2 := by
  have made : Course (fun _ => True) c _ _ := h.subscribe k
  have entry : (c.subscribe k).2.entry = (c.locate k).2 := by rw [subscribe_eq h k]
  rw [← entry] at none ⊢
  exact h.letGo forgets (passes_subscribe trivial c k) made.coherent none

theorem Coherent.letGo_await (h : Coherent c []) (forgets : c.settings.retention = .whileObserved)
    (x : Option (Holder κ)) (k : κ)
    (none : ((c.await x k).1.entry (c.locate k).2).subscribers = 0) :
    LetGo c (c.await x k).1 (c.locate k).2 := by
  have made : Course (fun _ => True) c _ _ := h.subscribe k
  have entry : (c.subscribe k).2.entry = (c.locate k).2 := by rw [subscribe_eq h k]
  let channel := ((c.subscribe k).1.entry (c.subscribe k).2.entry).channel
  let shown := (c.subscribe k).1.note (.delivered (c.subscribe k).2.entry channel.latest)
  have noted : Passes Act.asks (c.subscribe k).1 shown := passes_of_same rfl rfl rfl
  have asked : Passes Act.asks c shown := (passes_subscribe trivial c k).trans noted
  have coherent : Coherent shown [(c.subscribe k).2.entry] := made.coherent.note _
  rw [← entry] at none ⊢
  by_cases waits : ∃ y, x = some y ∧ channel.latest.settled? = Option.none
  · -- The wait goes on, so its subscription has not ended.
    obtain ⟨y, rfl, pending⟩ := waits
    let held : Subscription κ := { (c.subscribe k).2 with seen := some channel.version }
    have waiting : (c.await (some y) k).1 = shown.hold y held := by
      unfold Cache.await
      dsimp only
      rw [pending]
    have given : Course (fun _ => True) shown (shown.hold y held) [] :=
      Coherent.hold (s := held) coherent y
    have found : (shown.hold y held).observers.find? y = some held := by
      rw [hold_observers, Registry.find?_insert_self]
    have observed := given.coherent.observed_of_find? found
    rw [waiting] at none
    exact absurd none (Nat.ne_of_gt observed)
  · have ended : (c.await x k).1 = shown.unsubscribe (c.subscribe k).2.entry := by
      unfold Cache.await
      dsimp only
      split
      next y pending => exact absurd ⟨y, rfl, pending⟩ waits
      next => rfl
    rw [ended] at none ⊢
    exact h.letGo forgets asked coherent none

/-! ## Keys that come back -/

/-- A key that the table does not hold is given an entry that was never touched. -/
theorem Coherent.locate_absent (h : Coherent c loose) {k : κ} (absent : c.current? k = none) :
    (c.locate k).1.entry (c.locate k).2 = {} := by
  rw [locate_entry, locate_of_none absent]
  exact h.unmade _ (Nat.le_refl _)

theorem Coherent.subscribe_absent (h : Coherent c loose) {k : κ} (absent : c.current? k = none) :
    (c.subscribe k).1.entry (c.locate k).2 =
      { phase := .computing ⟨0, 0⟩ none, subscribers := 1, launches := [⟨0, 0⟩] } := by
  rw [subscribe_eq h k]
  dsimp only
  rw [h.locate_absent absent, spawn?_entry, entry_put_self]
  rfl

theorem Coherent.snapshot_absent (h : Coherent c loose) {k : κ} (absent : c.current? k = none) :
    (c.snapshot k).2 = .incomplete ∧ (c.snapshot k).1.entry (c.locate k).2 =
      { phase := .computing ⟨0, 0⟩ none, launches := [⟨0, 0⟩] } := by
  rw [snapshot_eq h k]
  dsimp only
  rw [h.locate_absent absent, note_entry, spawn?_entry, entry_put_self]
  exact ⟨rfl, rfl⟩

end Cache

namespace TimedCache

open Cache (Coherent Evolves Idle LetGo Parting Passes Pruned)
open Entry (Act)

variable {κ ε α : Type} [DecidableEq κ] {t t' : TimedCache κ ε α} {lossy : Prop}
  {settings : Settings} {ttl : Option Nat} {i : EntryId κ}

theorem Move.holds_or_sweeps (h : Coherent t.cache []) (move : Move lossy t t')
    (lasting : t.cache.settings.retention ≠ .whileObserved) (held : t.cache.Holds i) :
    t'.cache.Holds i ∨ Sweeps t t' :=
  (move.parting h).imp_left fun parting => parting.holds h lasting held

theorem sweep_of_forever (forever : t.cache.settings.retention = .forever) :
    t.cache.sweep = (t.cache, 0) :=
  if_pos forever

theorem Moves.holds_of_forever (h : Reached lossy settings ttl t)
    (forever : settings.retention = .forever) (moves : Moves lossy t t')
    (held : t.cache.Holds i) : t'.cache.Holds i := by
  refine (moves.keep (P := fun u => u.cache.settings = settings ∧ u.cache.Holds i) h
    ⟨h.same_settings, held⟩ ?_).2
  rintro u u' hc move ⟨same, held⟩
  refine ⟨(move.evolves hc).settings.trans same, ?_⟩
  rcases move.holds_or_sweeps hc (by rw [same, forever]; decide) held with stays | ⟨log, rfl⟩
  · exact stays
  · rw [sweep_of_forever (same ▸ forever)]
    exact held

/-- Whatever happens in between, an entry that has lost all its subscribers is gone. -/
theorem Moves.absent_of_forsaken (h : Reached lossy settings ttl t)
    (forgets : settings.retention = .whileObserved) (moves : Moves lossy t t')
    (observed : 0 < (t.cache.entry i).subscribers) (none : (t'.cache.entry i).subscribers = 0) :
    ¬ t'.cache.Holds i := by
  have evolves : Evolves t.cache t'.cache :=
    moves.keep (P := fun u => Evolves t.cache u.cache) h (Cache.evolves_of_same rfl rfl)
      fun hc move before => before.trans (move.evolves hc)
  intro held
  have retired := evolves.forsaken (h.same_settings ▸ forgets) i observed none
  have present := (Reached.coherent (h.trans moves)).present i held
  rw [retired] at present
  cases present.1

theorem Move.letGo (h : Coherent t.cache []) (forgets : t.cache.settings.retention = .whileObserved)
    (move : Move lossy t t') (observed : 0 < (t.cache.entry i).subscribers)
    (none : (t'.cache.entry i).subscribers = 0) : LetGo t.cache t'.cache i := by
  rcases move.parting h with parting | ⟨log, rfl⟩
  · exact parting.letGo h forgets observed none
  · have swept : Passes (· ≠ .unsubscribe) t.cache t.cache.sweep.1 :=
      Cache.passes_sweep (by simp) t.cache
    have kept := (swept.via i).subscribers fun _ => id
    exact absurd none (Nat.ne_of_gt (Nat.lt_of_lt_of_le observed kept))

end TimedCache

end LiveCache
