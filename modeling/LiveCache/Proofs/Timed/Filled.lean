import LiveCache.Proofs.Cache.Ledger
import LiveCache.Proofs.Timed.Subscriptions

/-! # Entries of which something is known

An entry is made by an operation that asks for its value or sets it, so none is left blank. No
operation makes one blank again.
-/

namespace LiveCache

namespace Entry

variable {ε α : Type} {policy : StalePolicy} {e e' : Entry ε α}

theorem ne_empty_of_busy (busy : e.phase.isIdle = false) : e.phase ≠ .empty := by
  intro blank
  rw [blank] at busy
  cases busy

theorem outdate_ne_empty (policy : StalePolicy) (h : e.phase ≠ .empty) :
    (e.outdate policy).phase ≠ .empty := by
  unfold outdate
  split
  next blank => exact absurd blank h
  next => exact h
  next => simp
  next => simp

theorem Becomes.ne_empty {settled : Option (Outcome ε α)} (becomes : Becomes policy e settled e')
    (h : e.phase ≠ .empty) : e'.phase ≠ .empty := by
  cases becomes with
  | same => exact h
  | counted n => exact h
  | demanded n => exact ne_empty_of_busy (demand_not_idle _)
  | installed value => exact fun blank => by cases blank
  | renewed =>
      unfold Entry.renewed
      split
      next => exact outdate_ne_empty policy h
      next => exact ne_empty_of_busy (demand_not_idle _)
  | abandoned =>
      unfold Entry.abandoned
      split
      next => simp
      next => exact h
  | retired => exact h
  | aborted => rwa [abort_phase]
  | concluded o => exact fun blank => by cases blank

theorem Leads.ne_empty (leads : Leads policy e e') (h : e.phase ≠ .empty) : e'.phase ≠ .empty := by
  induction leads with
  | refl => exact h
  | tail _ last ih =>
      obtain ⟨a, -, rfl⟩ := last
      exact (becomes_perform policy _ a).ne_empty ih

end Entry

namespace Cache

variable {κ ε α : Type} [DecidableEq κ] (c : Cache κ ε α) (i : EntryId κ)

/-! ## What makes no entry -/

@[simp] theorem reclaim_created : (c.reclaim i).created = c.created := by
  unfold reclaim
  split
  next =>
    dsimp only
    split <;> simp
  next => rfl

@[simp] theorem unsubscribe_created : (c.unsubscribe i).created = c.created := by
  unfold unsubscribe unobserved
  dsimp only
  split
  next =>
    split
    next =>
      rw [reclaim_created]
      split <;> simp
    next => rfl
  next => rfl

@[simp] theorem hold_created (x : Holder κ) (s : Subscription κ) :
    (c.hold x s).created = c.created := by
  unfold hold
  dsimp only
  split <;> simp

@[simp] theorem release_created (x : Holder κ) : (c.release x).created = c.created := by
  unfold release
  split <;> simp

@[simp] theorem poll_created (x : Holder κ) : (c.poll x).1.created = c.created := by
  unfold poll
  split
  next => rfl
  next => dsimp only; split <;> rfl

omit [DecidableEq κ] in
theorem foldl_created {β : Type} {f : Cache κ ε α → β → Cache κ ε α}
    (step : ∀ c x, (f c x).created = c.created) (l : List β) :
    (l.foldl f c).created = c.created := by
  induction l generalizing c with
  | nil => rfl
  | cons x rest ih => rw [List.foldl_cons, ih, step]

@[simp] theorem sweep_created : c.sweep.1.created = c.created := by
  unfold sweep
  split
  next => rfl
  next => exact foldl_created c reclaim_created c.ids

@[simp] theorem expireEntry_created : (c.expireEntry i).created = c.created := by
  unfold expireEntry
  split <;> simp

@[simp] theorem expire_created (k : κ) : (c.expire k).created = c.created := by
  unfold expire
  dsimp only
  split <;> simp

@[simp] theorem expireAll_created : c.expireAll.created = c.created := by
  unfold expireAll
  rw [foldl_created _ expireEntry_created]
  simp

@[simp] theorem settle_created (t : Task κ) (o : Outcome ε α) :
    (c.settle t o).created = c.created := by
  unfold settle
  dsimp only
  split <;> simp

@[simp] theorem close_created : c.close.created = c.created :=
  foldl_created c (f := fun c i => c.put i (c.entry i).abort) (fun _ _ => rfl) c.ids

/-! ## Filled entries -/

/-- No entry that was made is blank. -/
def Filled (c : Cache κ ε α) : Prop :=
  ∀ i, i.ordinal < Tally.count c.created i.key → (c.entry i).phase ≠ .empty

variable {c i} {d : Cache κ ε α} {loose : List (EntryId κ)}

theorem filled_ofSettings (s : Settings) : Filled (ofSettings s : Cache κ ε α) := by
  intro i made
  cases made

theorem Filled.evolves (h : Filled c) (evolves : Evolves c d) (created : d.created = c.created) :
    Filled d := by
  intro i made
  rw [created] at made
  exact (evolves.leads i).ne_empty (h i made)

theorem Filled.congr (h : Filled c) (entry : d.entry = c.entry) (created : d.created = c.created) :
    Filled d := by
  intro i made
  rw [created] at made
  rw [entry]
  exact h i made

/-- The entry of a key is made and filled at once. -/
theorem Filled.located (h : Filled c) (k : κ) {e : Entry ε α} (filled : e.phase ≠ .empty) :
    Filled ((c.locate k).1.put (c.locate k).2 e) := by
  intro j made
  by_cases here : (c.locate k).2 = j
  · rwa [← here, entry_put_self]
  · rw [entry_put_of_ne _ _ here, locate_entry]
    refine h j ?_
    cases found : c.current? k with
    | some i => rwa [locate_of_some found] at made
    | none =>
        rw [locate_of_none found] at made here
        rw [put_created, show (c.enrol k).created = Tally.bump c.created k from rfl,
          Tally.count_bump] at made
        split at made
        next key =>
          subst key
          exact Nat.lt_of_le_of_ne (Nat.le_of_lt_succ made) fun same => here (by rw [← same])
        next => exact made

theorem Filled.subscribe (h : Filled c) (coherent : Coherent c loose) (k : κ) :
    Filled (c.subscribe k).1 := by
  rw [subscribe_eq coherent k]
  dsimp only
  exact (h.located k (Entry.ne_empty_of_busy (Entry.demand_not_idle _))).congr
    (spawn?_entry _ _ _) (spawn?_created _ _ _)

theorem Filled.snapshot (h : Filled c) (coherent : Coherent c loose) (k : κ) :
    Filled (c.snapshot k).1 := by
  rw [snapshot_eq coherent k]
  dsimp only
  exact (h.located k (Entry.ne_empty_of_busy (Entry.demand_not_idle _))).congr
    (spawn?_entry _ _ _) (spawn?_created _ _ _)

theorem Filled.set (h : Filled c) (coherent : Coherent c loose) (k : κ) (value : α) :
    Filled (c.set k value) := by
  rw [set_eq coherent k value]
  have noted : Filled (c.note (.installed k value)) := h
  have settled : ∀ e : Entry ε α, (e.installed c.settings.stale value).phase ≠ .empty :=
    fun e blank => by cases blank
  exact (noted.located k (settled _)).congr (recordTransition_entry _ _ _)
    (recordTransition_created _ _ _)

/-- What is left of a subscription after it was made. -/
theorem Filled.subscribed (h : Filled c) (coherent : Coherent c []) (k : κ)
    (evolves : Coherent (c.subscribe k).1 [(c.subscribe k).2.entry] →
      Evolves (c.subscribe k).1 d) (created : d.created = (c.subscribe k).1.created) :
    Filled d := by
  have made : Course (fun _ => True) c _ _ := coherent.subscribe k
  exact (h.subscribe coherent k).evolves (evolves made.coherent) created

theorem await_created (c : Cache κ ε α) (x : Option (Holder κ)) (k : κ) :
    (c.await x k).1.created = (c.subscribe k).1.created := by
  unfold await
  dsimp only
  split <;> simp

end Cache

namespace TimedCache

open Cache (Coherent Filled)

variable {κ ε α : Type} [DecidableEq κ] {t t' : TimedCache κ ε α} {lossy : Prop}
  {settings : Settings} {ttl : Option Nat}

@[simp] theorem arm_created (t : TimedCache κ ε α) (k : κ) :
    (t.arm k).cache.created = t.cache.created := by
  unfold arm
  split <;> rfl

@[simp] theorem armIfAbsent_created (t : TimedCache κ ε α) (k : κ) :
    (t.armIfAbsent k).cache.created = t.cache.created := by
  unfold armIfAbsent
  split <;> simp

theorem poll_created (t : TimedCache κ ε α) (x : Holder κ) :
    (t.poll x).1.cache.created = t.cache.created := by
  unfold poll
  dsimp only
  split <;> [split <;> simp; simp]

theorem foldl_fire_created (due : List (Timer κ)) (t : TimedCache κ ε α) :
    (due.foldl fire t).cache.created = t.cache.created := by
  induction due generalizing t with
  | nil => rfl
  | cons timer rest ih =>
      rw [List.foldl_cons, ih]
      unfold fire
      split <;> [rfl; split <;> simp]

theorem filled_armIfAbsent (h : Filled t.cache) (k : κ) : Filled (t.armIfAbsent k).cache :=
  h.congr (armIfAbsent_entry t k) (armIfAbsent_created t k)

theorem Move.filled (hc : Coherent t.cache []) (h : Filled t.cache) (move : Move lossy t t') :
    Filled t'.cache := by
  have evolves := move.evolves hc
  cases move with
  | deed deed =>
      cases deed with
      | observe x k =>
          have armed := coherent_armIfAbsent hc k
          exact (filled_armIfAbsent h k).subscribed armed k
            (fun made => (made.parting_hold x).evolves) (Cache.hold_created _ _ _)
      | glance k =>
          have armed := coherent_armIfAbsent hc k
          exact (filled_armIfAbsent h k).subscribed armed k
            (fun made => made.evolves_unsubscribe) (Cache.unsubscribe_created _ _)
      | snapshot k => exact (filled_armIfAbsent h k).snapshot (coherent_armIfAbsent hc k) k
      | poll x => exact h.evolves evolves (poll_created t x)
      | await x k =>
          have armed := coherent_armIfAbsent hc k
          exact (filled_armIfAbsent h k).subscribed armed k
            (fun made => (made.parting_awaited x).evolves) (Cache.await_created _ _ _)
      | resume x =>
          refine h.evolves evolves ?_
          unfold TimedCache.resume
          dsimp only
          split
          next => exact poll_created t x
          next => exact (Cache.release_created _ x).trans (poll_created t x)
      | release x => exact h.evolves evolves (Cache.release_created _ x)
      | set k value =>
          have written : Filled (t.cache.set k value) := h.set hc k value
          exact written.congr (arm_entry _ k) (arm_created _ k)
      | expire k => exact h.evolves evolves (Cache.expire_created _ k)
      | expireAll tasks listed log => exact h.evolves evolves (Cache.expireAll_created _)
      | sweep log => exact h.evolves evolves (Cache.sweep_created _)
      | pass time => exact h
      | fireDue =>
          refine h.evolves evolves ?_
          unfold TimedCache.fireDue
          split
          next => rfl
          next => rw [foldl_fire_created]
  | close => exact h.evolves evolves (Cache.close_created _)
  | call u listed spared first => exact h
  | finish u listed called alive o report =>
      refine h.evolves evolves ?_
      rw [Cache.settle_created]
      cases report <;> simp [Cache.withdraw, Cache.removeTask]
  | leave u listed why => exact h

theorem Reached.filled (h : Reached lossy settings ttl t) : Filled t.cache :=
  h.keep (P := fun u => Filled u.cache) (fun _ => Cache.filled_ofSettings settings)
    fun hc move filled => move.filled hc filled

/-- An entry that the table holds is not blank. -/
theorem Reached.ne_empty (h : Reached lossy settings ttl t) {i : EntryId κ}
    (held : t.cache.Holds i) : (t.cache.entry i).phase ≠ .empty :=
  h.filled i (h.coherent.located i held)

end TimedCache

end LiveCache
