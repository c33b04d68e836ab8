import LiveCache.Proofs.Cache.Freshness
import LiveCache.Proofs.Timed.Moves

/-! # Every delivery is fresh

Whatever the owners of a cache and its executor have done so far, a reader or a waiter is given as
the current outcome of a key only what the latest write of the key allows.
-/

namespace LiveCache

namespace Cache

variable {κ ε α : Type} [DecidableEq κ] {c : Cache κ ε α} {loose : List (EntryId κ)}

/-! ## Where a current outcome comes from -/

theorem settled_of_snapshot (h : Coherent c loose) {k : κ} {o : Outcome ε α}
    (given : (c.snapshot k).2 = .known o .done) :
    ∃ i, c.Holds i ∧ i.key = k ∧ (c.entry i).phase = .settled o := by
  obtain ⟨coherent, held, key⟩ := h.locate k
  have course : Course (fun _ => True) c (c.locate k).1 loose := h.course_locate k
  rw [snapshot_eq h k] at given
  have latest : ((c.locate k).1.entry (c.locate k).2).latest = .known o .done := by
    rw [← given]
    simp [Entry.latest]
  have phase := ((coherent.sound _).settled?_latest o).1 (by rw [latest]; rfl)
  obtain ⟨before, hp⟩ := course.settled _ o trivial held phase
  exact ⟨_, before, key, hp⟩

theorem settled_of_await (h : Coherent c loose) {x : Option (Holder κ)} {k : κ} {o : Outcome ε α}
    (given : (c.await x k).2 = some o) :
    ∃ i, c.Holds i ∧ i.key = k ∧ (c.entry i).phase = .settled o := by
  have course : Course (fun _ => True) c (c.subscribe k).1 _ := h.subscribe k
  obtain ⟨held, key⟩ := subscribe_held h k
  have latest : ((c.subscribe k).1.entry (c.subscribe k).2.entry).latest.settled? = some o := by
    unfold await at given
    dsimp only at given
    split at given
    next => cases given
    next => exact given
  have phase := ((course.coherent.sound _).settled?_latest o).1 latest
  obtain ⟨before, hp⟩ := course.settled _ o trivial held phase
  exact ⟨_, before, key, hp⟩

theorem poll_latest {x : Holder κ} {s : Subscription κ} {v : View ε α}
    (found : c.observers.find? x = some s) (given : (c.poll x).2 = some v) :
    (c.entry s.entry).latest = v := by
  simp only [poll, found] at given
  cases unseen : (c.entry s.entry).channel.unseen s.seen with
  | none => simp [unseen] at given
  | some v' =>
      simp only [unseen, Option.some.injEq] at given
      exact given ▸ Channel.latest_of_unseen unseen

theorem settled_of_poll (h : Coherent c loose) {x : Holder κ} {s : Subscription κ}
    (found : c.observers.find? x = some s) {o : Outcome ε α}
    (given : (c.poll x).2 = some (.known o .done)) : (c.entry s.entry).phase = .settled o := by
  apply ((h.sound _).settled?_latest o).1
  rw [poll_latest found given]
  rfl

end Cache

namespace TimedCache

open Cache (Coherent Faithful Fresh lastWrite?)

variable {κ ε α : Type} [DecidableEq κ] {t : TimedCache κ ε α} {lossy : Prop}
  {settings : Settings} {ttl : Option Nat}

/-! ## The latest write -/

theorem lastWrite?_arm (t : TimedCache κ ε α) (k k' : κ) :
    lastWrite? k' (t.arm k).cache.history = lastWrite? k' t.cache.history := by
  unfold arm
  split
  next => rfl
  next => exact Cache.lastWrite?_cons rfl

/-- What is set is the latest write of its key, and no write of another one. -/
theorem lastWrite?_set (h : Coherent t.cache []) (k k' : κ) (value : α) :
    lastWrite? k' (t.set k value).cache.history =
      if k = k' then some (.installed k value) else lastWrite? k' t.cache.history := by
  have written : (t.cache.set k value).history = .installed k value :: t.cache.history :=
    Cache.set_history h k value
  rw [TimedCache.set, lastWrite?_arm, written]
  split
  next same => exact Cache.lastWrite?_cons_of_writes (by simp [Happening.writes, same])
  next other => exact Cache.lastWrite?_cons (by simp [Happening.writes, other])

/-- An expiration is the latest write of its key, and no write of another one. -/
theorem lastWrite?_expire (t : TimedCache κ ε α) (k k' : κ) :
    lastWrite? k' (t.expire k).cache.history =
      if k = k' then some (.expired k) else lastWrite? k' t.cache.history := by
  rw [TimedCache.expire, Cache.expire_history]
  split
  next same => exact Cache.lastWrite?_cons_of_writes (by simp [Happening.writes, same])
  next other => exact Cache.lastWrite?_cons (by simp [Happening.writes, other])

/-- An expiration of all keys is the latest write of each. -/
theorem lastWrite?_expireAll (t : TimedCache κ ε α) (k : κ) :
    lastWrite? k t.expireAll.cache.history = some .expiredAll := by
  rw [TimedCache.expireAll, Cache.expireAll_history]
  exact Cache.lastWrite?_cons_of_writes rfl

/-! ## Deliveries -/

theorem poll_view (t : TimedCache κ ε α) (x : Holder κ) : (t.poll x).2 = (t.cache.poll x).2 := by
  unfold poll
  dsimp only
  split
  next s v _ given => rw [given]; split <;> rfl
  next => rfl

theorem resume_answer (t : TimedCache κ ε α) (x : Holder κ) :
    (t.resume x).2 = (t.cache.poll x).2.bind View.settled? := by
  unfold resume
  dsimp only
  rw [poll_view]
  split
  next none => rw [none]
  next o given => rw [given]

theorem Reached.faithful (h : Reached lossy settings ttl t) : Faithful t.cache :=
  h.invariant (Cache.faithful_ofSettings settings) fun hc kept stride => kept.stride hc stride

/-- A reader or a waiter is given what is fresh, and so was everybody before. -/
theorem deliveries_fresh (h : Reached lossy settings ttl t) :
    (∀ k o, (t.snapshot k).2 = .known o .done →
      Fresh settings.retention k t.cache.history o) ∧
    (∀ x s o, t.cache.observers.find? x = some s → (t.poll x).2 = some (.known o .done) →
      Fresh settings.retention s.entry.key t.cache.history o) ∧
    (∀ x k o, (t.await x k).2 = some o → Fresh settings.retention k t.cache.history o) ∧
    (∀ x s o, t.cache.observers.find? x = some s → (t.resume x).2 = some o →
      Fresh settings.retention s.entry.key t.cache.history o) ∧
    (∀ later i o earlier, t.cache.history = later ++ .delivered i (.known o .done) :: earlier →
      Fresh settings.retention i.key earlier o) := by
  have coherent := h.coherent
  have faithful := h.faithful
  have fresh : ∀ i o, t.cache.Holds i → (t.cache.entry i).phase = .settled o →
      Fresh settings.retention i.key t.cache.history o := by
    intro i o hi hp
    rw [← h.same_settings]
    exact (faithful.tracked i.key).current i o hi rfl hp
  have armed := fun k => coherent_armIfAbsent coherent k
  have back : ∀ k o, (∃ i, (t.armIfAbsent k).cache.Holds i ∧ i.key = k ∧
      ((t.armIfAbsent k).cache.entry i).phase = .settled o) →
      Fresh settings.retention k t.cache.history o := by
    rintro k o ⟨i, hi, rfl, hp⟩
    rw [Cache.holds_iff, armIfAbsent_table, ← Cache.holds_iff] at hi
    rw [armIfAbsent_entry] at hp
    exact fresh i o hi hp
  refine ⟨?_, ?_, ?_, ?_, ?_⟩
  · intro k o given
    exact back k o (Cache.settled_of_snapshot (armed k) given)
  · intro x s o found given
    rw [poll_view] at given
    exact fresh _ o (coherent.holds_of_find? found)
      (Cache.settled_of_poll coherent found given)
  · intro x k o given
    exact back k o (Cache.settled_of_await (armed k) given)
  · intro x s o found given
    rw [resume_answer, Option.bind_eq_some_iff] at given
    obtain ⟨v, given, settled⟩ := given
    rw [(View.settled?_eq_some_iff v o).1 settled] at given
    exact fresh _ o (coherent.holds_of_find? found)
      (Cache.settled_of_poll coherent found given)
  · intro later i o earlier past
    rw [← h.same_settings]
    exact faithful.told i o earlier ⟨later, past.symm⟩

/-- A key is asked for, computed and read. -/
theorem deliveries_fresh_computed :
    let asked : TimedCache Nat Nat Nat := (opened {} none).observe (.reader "r") 0
    let u : Task Nat := ⟨⟨0, 0⟩, ⟨0, 0⟩, ⟨0, 0⟩⟩
    let called := { asked with cache := asked.cache.note (.called u.id) }
    let done := { called with cache := (called.cache.withdraw u none).settle u (.success 7) }
    (done.snapshot 0).2 = .known (.success 7) .done ∧
      Fresh .forever 0 done.cache.history (.success 7) := by
  intro asked u called done
  have first : Reached False {} none asked := .single (.deed (.observe (.reader "r") 0))
  have second : Reached False {} none called :=
    first.tail (.call u (by decide) (by decide) (by decide))
  have third : Reached False {} none done :=
    second.tail (.finish u (by decide) (by decide) rfl (.success 7) none)
  have given : (done.snapshot 0).2 = .known (.success 7) .done := by decide
  exact ⟨given, (deliveries_fresh third).1 0 (.success 7) given⟩

end TimedCache

end LiveCache
