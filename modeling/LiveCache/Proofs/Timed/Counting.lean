import LiveCache.Proofs.Timed.Moves

/-! # Counting off subscriptions

A count of subscribers is a natural number, so counting off where it is nought would go unnoticed.
The checked operations below are the operations once more, except that they fail when they come to
a subscription that ends while the count of its entry is nought. Where the counts are right they
never fail, also where a subscription lasts no longer than the operation.
-/

namespace LiveCache

variable {κ ε α : Type} [DecidableEq κ]

namespace Cache

def tryUnsubscribe (c : Cache κ ε α) (i : EntryId κ) : Option (Cache κ ε α) :=
  if (c.entry i).subscribers = 0 then none else some (c.unsubscribe i)

def tryHold (c : Cache κ ε α) (h : Holder κ) (s : Subscription κ) : Option (Cache κ ε α) :=
  let held := { c with observers := c.observers.insert h s }
  match c.observers.find? h with
  | none => some held
  | some old => held.tryUnsubscribe old.entry

def tryObserve (c : Cache κ ε α) (h : Holder κ) (k : κ) : Option (Cache κ ε α) :=
  let made := c.subscribe k
  made.1.tryHold h made.2

def tryGlance (c : Cache κ ε α) (k : κ) : Option (Cache κ ε α) :=
  let made := c.subscribe k
  made.1.tryUnsubscribe made.2.entry

def tryRelease (c : Cache κ ε α) (h : Holder κ) : Option (Cache κ ε α) :=
  match c.observers.find? h with
  | none => some c
  | some s => { c with observers := c.observers.erase h }.tryUnsubscribe s.entry

def tryAwait (c : Cache κ ε α) (h : Option (Holder κ)) (k : κ) :
    Option (Cache κ ε α × Option (Outcome ε α)) :=
  let made := c.subscribe k
  let channel := (made.1.entry made.2.entry).channel
  let shown := made.1.note (.delivered made.2.entry channel.latest)
  match channel.latest.settled?, h with
  | none, some h =>
      (shown.tryHold h { made.2 with seen := some channel.version }).map fun c => (c, none)
  | answer, _ => (shown.tryUnsubscribe made.2.entry).map fun c => (c, answer)

variable {c : Cache κ ε α} {loose : List (EntryId κ)}

/-- A loose subscription is counted. -/
theorem Coherent.tryUnsubscribe_eq {i : EntryId κ} (h : Coherent c (i :: loose)) :
    c.tryUnsubscribe i = some (c.unsubscribe i) := by
  unfold tryUnsubscribe
  rw [if_neg]
  rw [h.counted, List.count_cons_self]
  exact Nat.succ_ne_zero _

theorem Coherent.tryHold_eq {s : Subscription κ} (h : Coherent c [s.entry]) (x : Holder κ) :
    c.tryHold x s = some (c.hold x s) := by
  unfold Cache.tryHold Cache.hold
  cases found : c.observers.find? x with
  | none => rfl
  | some old =>
      have replaced : Course (fun _ => True) c _ _ := h.replaced found
      exact replaced.coherent.tryUnsubscribe_eq

theorem Coherent.tryObserve_eq (h : Coherent c []) (x : Holder κ) (k : κ) :
    c.tryObserve x k = some (c.observe x k) :=
  (h.subscribed k).tryHold_eq x

theorem Coherent.tryGlance_eq (h : Coherent c []) (k : κ) : c.tryGlance k = some (c.glance k) :=
  (h.subscribed k).tryUnsubscribe_eq

theorem Coherent.tryRelease_eq (h : Coherent c []) (x : Holder κ) :
    c.tryRelease x = some (c.release x) := by
  unfold Cache.tryRelease Cache.release
  cases found : c.observers.find? x with
  | none => rfl
  | some s =>
      have taken : Course (fun _ => True) c _ _ := h.taken found
      exact taken.coherent.tryUnsubscribe_eq

theorem Coherent.tryAwait_eq (h : Coherent c []) (x : Option (Holder κ)) (k : κ) :
    c.tryAwait x k = some (c.await x k) := by
  let channel := ((c.subscribe k).1.entry (c.subscribe k).2.entry).channel
  let shown := (c.subscribe k).1.note (.delivered (c.subscribe k).2.entry channel.latest)
  have coherent : Coherent shown [(c.subscribe k).2.entry] := (h.subscribed k).note _
  have ended := coherent.tryUnsubscribe_eq
  unfold Cache.tryAwait Cache.await
  dsimp only
  cases channel.latest.settled? with
  | some o => exact congrArg (Option.map fun c => (c, some o)) ended
  | none =>
      cases x with
      | none => exact congrArg (Option.map fun c => (c, none)) ended
      | some x =>
          let held : Subscription κ := { (c.subscribe k).2 with seen := some channel.version }
          have given := Coherent.tryHold_eq (s := held) coherent x
          exact congrArg (Option.map fun c => (c, none)) given

end Cache

namespace TimedCache

open Cache (Coherent)

def tryObserve (t : TimedCache κ ε α) (h : Holder κ) (k : κ) : Option (TimedCache κ ε α) :=
  let t := t.armIfAbsent k
  (t.cache.tryObserve h k).map fun c => { t with cache := c }

def tryGlance (t : TimedCache κ ε α) (k : κ) : Option (TimedCache κ ε α) :=
  let t := t.armIfAbsent k
  (t.cache.tryGlance k).map fun c => { t with cache := c }

def tryRelease (t : TimedCache κ ε α) (h : Holder κ) : Option (TimedCache κ ε α) :=
  (t.cache.tryRelease h).map fun c => { t with cache := c }

def tryAwait (t : TimedCache κ ε α) (h : Option (Holder κ)) (k : κ) :
    Option (TimedCache κ ε α × Option (Outcome ε α)) :=
  let t := t.armIfAbsent k
  (t.cache.tryAwait h k).map fun awaited => ({ t with cache := awaited.1 }, awaited.2)

def tryResume (t : TimedCache κ ε α) (h : Holder κ) :
    Option (TimedCache κ ε α × Option (Outcome ε α)) :=
  let polled := t.poll h
  match polled.2.bind View.settled? with
  | none => some (polled.1, none)
  | some o => (polled.1.tryRelease h).map fun t => (t, some o)

variable {t : TimedCache κ ε α} {lossy : Prop} {settings : Settings} {ttl : Option Nat}

/-- No operation counts off a subscription where there is none. -/
structure Exact (t : TimedCache κ ε α) : Prop where
  observe : ∀ x k, t.tryObserve x k = some (t.observe x k)
  glance : ∀ k, t.tryGlance k = some (t.glance k)
  await : ∀ x k, t.tryAwait x k = some (t.await x k)
  resume : ∀ x, t.tryResume x = some (t.resume x)
  release : ∀ x, t.tryRelease x = some (t.release x)

theorem tryRelease_eq (h : Coherent t.cache []) (x : Holder κ) :
    t.tryRelease x = some (t.release x) := by
  unfold tryRelease release
  rw [h.tryRelease_eq x]
  rfl

theorem exact_of_coherent (h : Coherent t.cache []) : t.Exact where
  observe := by
    intro x k
    unfold tryObserve observe
    dsimp only
    rw [(coherent_armIfAbsent h k).tryObserve_eq x k]
    rfl
  glance := by
    intro k
    unfold tryGlance glance
    dsimp only
    rw [(coherent_armIfAbsent h k).tryGlance_eq k]
    rfl
  await := by
    intro x k
    unfold tryAwait await
    dsimp only
    rw [(coherent_armIfAbsent h k).tryAwait_eq x k]
    rfl
  resume := by
    intro x
    have polled := (paces_poll h x).coherent h
    unfold tryResume resume
    dsimp only
    cases (t.poll x).2.bind View.settled? with
    | none => rfl
    | some o =>
        dsimp only
        rw [tryRelease_eq polled x]
        rfl
  release := tryRelease_eq h

/-- Every subscription that ends is counted when it does: a move only takes operations that end
none, or it ends one of an entry that has at least one, after operations that readers ask for. -/
theorem Move.unsubscribes {t' : TimedCache κ ε α} (h : Coherent t.cache [])
    (move : Move lossy t t') :
    Cache.Passes (· ≠ .unsubscribe) t.cache t'.cache ∨
    ∃ (c : Cache κ ε α) (i : EntryId κ), Cache.Passes Entry.Act.asks t.cache c ∧
      0 < (c.entry i).subscribers ∧ t'.cache = c.unsubscribe i := by
  rcases move.parting h with parting | ⟨log, rfl⟩
  · cases parting with
    | stays passes => exact .inl (passes.mono fun _ => Entry.Act.ne_unsubscribe_of_lasts)
    | ends c i asked coherent eq =>
        refine .inr ⟨c, i, asked, ?_, eq⟩
        rw [coherent.counted, List.count_cons_self]
        exact Nat.succ_pos _
  · have swept : Cache.Passes (· ≠ .unsubscribe) t.cache t.cache.sweep.1 :=
      Cache.passes_sweep (by simp) t.cache
    exact .inl (swept.congr rfl rfl rfl)

end TimedCache

end LiveCache
