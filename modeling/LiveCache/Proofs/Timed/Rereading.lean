import LiveCache.Proofs.Cache.Perusal
import LiveCache.Proofs.Timed.Firing

/-! # Reading what is current already

A current outcome whose key is armed keeps its timer as long as no subscription of the key lags
behind: one that has given an earlier view and not yet the present one. Each subscription that lags
arms the key anew when it is read, although the outcome was current before and its timer was
running, and so puts the expiration off.
-/

namespace LiveCache.TimedCache

open Cache (armedSince? Coherent Course Perusal)

variable {κ ε α : Type} [DecidableEq κ] {t t' : TimedCache κ ε α} {x : Expiration κ}
  {lossy : Prop} {settings : Settings} {ttl n : Nat} {k : κ} {y : Holder κ}

/-- One read of a key, by somebody who asks for it or by one of its subscriptions. -/
inductive Rereads (k : κ) (t : TimedCache κ ε α) : TimedCache κ ε α → Prop where
  | observe (y : Holder κ) : Rereads k t (t.observe y k)
  | glance : Rereads k t (t.glance k)
  | snapshot : Rereads k t (t.snapshot k).1
  | await (y : Option (Holder κ)) : Rereads k t (t.await y k).1
  | poll (y : Holder κ) (s : Subscription κ) (found : t.cache.observers.find? y = some s)
      (key : s.entry.key = k) : Rereads k t (t.poll y).1
  | resume (y : Holder κ) (s : Subscription κ) (found : t.cache.observers.find? y = some s)
      (key : s.entry.key = k) : Rereads k t (t.resume y).1

/-- The key is armed, and no subscription of a current outcome of it lags behind. -/
structure Steady (k : κ) (n : Nat) (t : TimedCache κ ε α) : Prop where
  armed : t.token? k = some n
  upToDate : ∀ y s, t.cache.observers.find? y = some s → s.entry.key = k →
    (∃ o, (t.cache.entry s.entry).phase = .settled o) →
    s.seen = none ∨ s.seen = some (t.cache.entry s.entry).channel.version

theorem Steady.not_givesAnew (h : Steady k n t) (coherent : Coherent t.cache [])
    (y : Holder κ) : ¬ t.GivesAnew y k := by
  rintro ⟨s, o, found, key, late, given⟩
  rw [poll_view] at given
  have settled := Cache.settled_of_poll coherent found given
  rcases h.upToDate y s found key ⟨o, settled⟩ with fresh | latest
  · simp [fresh] at late
  · simp [Cache.poll, found, latest] at given

theorem armIfAbsent_of_armed (armed : t.token? k = some n) : t.armIfAbsent k = t := by
  unfold armIfAbsent
  rw [← isSome_token?, armed]
  rfl

theorem poll_of_not_givesAnew {s : Subscription κ} (found : t.cache.observers.find? y = some s)
    (keeps : ¬ t.GivesAnew y s.entry.key) :
    (t.poll y).1 = { t with cache := (t.cache.poll y).1 } := by
  have view := poll_view t y
  cases given : (t.cache.poll y).2 with
  | none => simp [poll, found, given]
  | some v =>
      rw [given] at view
      have first : ¬ (v.isDone = true ∧ s.seen.isSome = true) := by
        rintro ⟨done, late⟩
        obtain ⟨o, rfl⟩ := (View.isDone_iff v).1 done
        exact keeps ⟨s, o, found, rfl, late, view⟩
      simp [poll, found, given, first]

/-- A read that arms nothing leaves the timers alone. -/
theorem Rereads.quiet (step : Rereads k t t') (coherent : Coherent t.cache [])
    (h : Steady k n t) :
    ∃ c, t' = { t with cache := c } ∧ Course (fun _ => True) t.cache c [] ∧ Perusal t.cache c := by
  have same := armIfAbsent_of_armed h.armed
  cases step with
  | observe y =>
      refine ⟨t.cache.observe y k, ?_, coherent.observe y k, Cache.perusal_observe _ y k⟩
      simp only [TimedCache.observe, same]
  | glance =>
      refine ⟨t.cache.glance k, ?_, coherent.glance k, Cache.perusal_glance _ k⟩
      simp only [TimedCache.glance, same]
  | snapshot =>
      refine ⟨(t.cache.snapshot k).1, ?_, coherent.snapshot k, Cache.perusal_snapshot _ k⟩
      simp only [TimedCache.snapshot, same]
  | await y =>
      refine ⟨(t.cache.await y k).1, ?_, coherent.await y k, Cache.perusal_await _ y k⟩
      simp only [TimedCache.await, same]
  | poll y s found key =>
      have keeps := h.not_givesAnew coherent y
      exact ⟨(t.cache.poll y).1, poll_of_not_givesAnew found (key ▸ keeps), coherent.poll y,
        Cache.perusal_poll _ y⟩
  | resume y s found key =>
      have keeps := h.not_givesAnew coherent y
      have polled := poll_of_not_givesAnew found (key ▸ keeps)
      have course : Course (fun _ => True) t.cache (t.cache.poll y).1 [] := coherent.poll y
      have perusal := Cache.perusal_poll t.cache y
      unfold TimedCache.resume
      dsimp only
      split
      next => exact ⟨_, polled, course, perusal⟩
      next =>
        refine ⟨(t.cache.poll y).1.release y, ?_, course.trans (course.coherent.release y),
          perusal.trans (Cache.perusal_release _ y)⟩
        rw [polled]
        rfl

theorem Rereads.steady (step : Rereads k t t') (coherent : Coherent t.cache [])
    (h : Steady k n t) : Steady k n t' ∧ Coherent t'.cache [] ∧
      armedSince? k t'.cache.history = armedSince? k t.cache.history := by
  obtain ⟨c, rfl, course, perusal⟩ := step.quiet coherent h
  refine ⟨⟨h.armed, ?_⟩, course.coherent, ?_⟩
  · rintro y s found key ⟨o, settled⟩
    rcases perusal.observers y s found with old | late
    · have held := course.coherent.holds_of_find? found
      have before := (course.settled s.entry o trivial held settled).2
      dsimp only
      rw [perusal.channel]
      exact h.upToDate y s old key ⟨o, before⟩
    · exact late
  · dsimp only
    rw [course.past]
    exact Cache.armedSince?_append _ fun e he => Cache.times_of_minor (course.minor e he) k

theorem Steady.rereads (h : Steady k n t) (coherent : Coherent t.cache [])
    (reads : Relation.ReflTransGen (Rereads k) t t') : Steady k n t' ∧ Coherent t'.cache [] ∧
      armedSince? k t'.cache.history = armedSince? k t.cache.history := by
  induction reads with
  | refl => exact ⟨h, coherent, rfl⟩
  | tail _ step ih =>
      obtain ⟨steady, coherent', since⟩ := ih
      obtain ⟨steady', coherent'', since'⟩ := step.steady coherent' steady
      exact ⟨steady', coherent'', since'.trans since⟩

/-- A subscription that lags behind a current outcome gives it as a later view. -/
theorem givesAnew_of_lagging (coherent : Coherent t.cache []) {s : Subscription κ}
    (found : t.cache.observers.find? y = some s) {o : Outcome ε α}
    (settled : (t.cache.entry s.entry).phase = .settled o) {v : Nat} (seen : s.seen = some v)
    (lags : v ≠ (t.cache.entry s.entry).channel.version) : t.GivesAnew y s.entry.key := by
  have latest := (View.settled?_eq_some_iff _ _).1 (((coherent.sound s.entry).settled?_latest o).2
    settled)
  refine ⟨s, o, found, rfl, by simp [seen], ?_⟩
  rw [poll_view, ← latest]
  simp [Cache.poll, found, seen, Channel.unseen, lags, Entry.latest]

/-- For a current outcome of an armed key: reads of the key, in any number and order, leave its
timer as it is if and only if no subscription that has given an earlier view has yet to give the
present one. -/
theorem rereads_keep_timer_iff (h : Reached lossy settings (some ttl) t)
    (alive : t.cache.alive = true) {i : EntryId κ} {o : Outcome ε α} (held : t.cache.Holds i)
    (settled : (t.cache.entry i).phase = .settled o) (armed : t.token? i.key = some n) :
    (∀ t', Relation.ReflTransGen (Rereads i.key) t t' → t'.token? i.key = some n ∧
      armedSince? i.key t'.cache.history = armedSince? i.key t.cache.history) ↔
    ∀ y s v, t.cache.observers.find? y = some s → s.entry = i → s.seen = some v →
      v = (t.cache.entry i).channel.version := by
  have coherent := h.coherent
  constructor
  · rintro keeps y s v found rfl seen
    by_contra lags
    obtain ⟨wakes, x, timed, -, scheduled⟩ := h.punctual alive
    have gives := givesAnew_of_lagging coherent found settled seen lags
    have anew := token?_poll timed gives
    have same := (keeps _ (.single (.poll y s found rfl))).1
    rw [anew, Option.some.injEq] at same
    subst same
    simp only [token?, timed, Option.bind_some] at armed
    obtain ⟨time, -, mem⟩ := scheduled.armed _ _ armed
    exact Nat.lt_irrefl _ (scheduled.fresh _ mem)
  · intro upToDate t' reads
    have steady : Steady i.key n t := by
      refine ⟨armed, fun y s found key _ => ?_⟩
      have here := (coherent.holds_of_find? found).unique held key
      cases seen : s.seen with
      | none => exact .inl rfl
      | some v => exact .inr (by rw [upToDate y s v found here seen, here])
    obtain ⟨steady', -, since⟩ := steady.rereads coherent reads
    exact ⟨steady'.armed, since⟩

/-- A reader has been given the value that was set, and looks again. -/
theorem rereads_keep_timer_iff_given :
    let asked : TimedCache Nat Nat Nat := (opened {} (some 10)).observe (.reader "r") 0
    let t := ((asked.set 0 5).poll (.reader "r")).1
    t.token? 0 = some 1 ∧ (t.poll (.reader "r")).1.token? 0 = some 1 ∧
      (t.snapshot 0).1.token? 0 = some 1 := by
  intro asked t
  have first : Reached False {} (some 10) asked := .single (.deed (.observe (.reader "r") 0))
  have reached : Reached False {} (some 10) t :=
    (first.tail (.deed (.set 0 5))).tail (.deed (.poll (.reader "r")))
  have alive : t.cache.alive = true := by decide
  have held : t.cache.Holds ⟨0, 0⟩ := by unfold Cache.Holds; decide
  have settled : (t.cache.entry ⟨0, 0⟩).phase = .settled (.success 5) := by decide
  have armed : t.token? 0 = some 1 := by decide
  have pairs : t.cache.observers.pairs = [(.reader "r", ⟨⟨0, 0⟩, some 1⟩)] := by decide
  have keeps := (rereads_keep_timer_iff reached alive held settled armed).2 (by
    intro y s v found _ seen
    rw [Registry.find?_eq_some_iff, pairs, List.mem_singleton] at found
    cases found
    cases seen
    decide)
  have polled := keeps _ (.single (.poll (.reader "r") ⟨⟨0, 0⟩, some 1⟩ (by decide) rfl))
  exact ⟨armed, polled.1, (keeps _ (.single .snapshot)).1⟩

/-- Two readers wait for a computation. The first is given the outcome, which arms the key; the
second is given the same outcome later, which arms the key anew. -/
theorem second_reader_rearms :
    let asked : TimedCache Nat Nat Nat :=
      ((opened {} (some 10)).observe (.reader "r") 0).observe (.reader "s") 0
    let looked := ((asked.poll (.reader "r")).1.poll (.reader "s")).1
    let u : Task Nat := ⟨⟨0, 0⟩, ⟨0, 0⟩, ⟨0, 0⟩⟩
    let called := { looked with cache := looked.cache.note (.called u.id) }
    let done := { called with cache := (called.cache.withdraw u none).settle u (.success 7) }
    let given := (done.poll (.reader "r")).1
    let t := { given with clock := given.clock + 5 }
    Reached False {} (some 10) t ∧ (done.poll (.reader "r")).2 = some (.known (.success 7) .done) ∧
      (t.cache.entry ⟨0, 0⟩).phase = .settled (.success 7) ∧
      t.token? 0 = some 1 ∧ armedSince? 0 t.cache.history = some 0 ∧
      (t.poll (.reader "s")).1.token? 0 = some 2 ∧
      armedSince? 0 (t.poll (.reader "s")).1.cache.history = some 5 := by
  intro asked looked u called done given t
  have first : Reached False {} (some 10) asked :=
    (Reached.single (.deed (.observe (.reader "r") 0))).tail
      (.deed (.observe (.reader "s") 0))
  have second : Reached False {} (some 10) looked :=
    (first.tail (.deed (.poll (.reader "r")))).tail (.deed (.poll (.reader "s")))
  have third : Reached False {} (some 10) called :=
    second.tail (.call u (by decide) (by decide) (by decide))
  have fourth : Reached False {} (some 10) done :=
    third.tail (.finish u (by decide) (by decide) rfl (.success 7) none)
  have reached : Reached False {} (some 10) t :=
    (fourth.tail (.deed (.poll (.reader "r")))).tail (.deed (.pass 5))
  exact ⟨reached, by decide, by decide, by decide, by decide, by decide, by decide⟩

end LiveCache.TimedCache
