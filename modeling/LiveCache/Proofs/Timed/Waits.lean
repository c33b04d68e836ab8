import LiveCache.Proofs.Timed.Deliveries

/-! # Waits for a current outcome

A wait polls a subscription until it is given a current outcome. A view that a wait has seen was not
current, and the entry of the wait stays the one of its key. So the wait ends at a poll exactly when
the entry of its key is settled then. A wait that has ended leaves no subscription.
-/

namespace LiveCache.TimedCache

open Cache (Coherent)

variable {κ ε α : Type} [DecidableEq κ] {t t' : TimedCache κ ε α} {lossy : Prop}
  {settings : Settings} {ttl : Option Nat} {x : Holder κ} {s : Subscription κ} {k : κ}

/-- A wait of a holder for a key that was not given an outcome yet, however often it was polled. Its
first poll may follow later than its subscription. -/
inductive Waiting (lossy : Prop) (settings : Settings) (ttl : Option Nat) (x : Holder κ) (k : κ) :
    TimedCache κ ε α → Prop where
  | asked {t : TimedCache κ ε α} (h : Reached lossy settings ttl t) :
      Waiting lossy settings ttl x k (t.observe x k)
  | begun {t : TimedCache κ ε α} (h : Reached lossy settings ttl t)
      (pending : (t.await (some x) k).2 = none) :
      Waiting lossy settings ttl x k (t.await (some x) k).1
  | resumed {t : TimedCache κ ε α} (before : Waiting lossy settings ttl x k t)
      (pending : (t.resume x).2 = none) : Waiting lossy settings ttl x k (t.resume x).1
  | spared {t t' : TimedCache κ ε α} (before : Waiting lossy settings ttl x k t)
      (move : Move lossy t t')
      (same : t'.cache.observers.find? x = t.cache.observers.find? x) :
      Waiting lossy settings ttl x k t'

theorem Waiting.reached (h : Waiting lossy settings ttl x k t) : Reached lossy settings ttl t := by
  induction h with
  | asked h => exact h.tail (.deed (.observe x k))
  | begun h pending => exact h.tail (.deed (.await (some x) k))
  | resumed before pending ih => exact ih.tail (.deed (.resume x))
  | spared before move same ih => exact ih.tail move

/-- What a wait holds: a subscription of its key that has seen no current outcome last. -/
structure Unanswered (t : TimedCache κ ε α) (x : Holder κ) (k : κ) (s : Subscription κ) : Prop where
  found : t.cache.observers.find? x = some s
  key : s.entry.key = k
  unsettled : ∀ n, s.seen = some n →
    ∃ v, (t.cache.channelOf x).history[n]? = some v ∧ v.settled? = none

/-- A wait that was given no outcome has seen the latest view, which is not current. -/
theorem Unanswered.of_latest {i : EntryId κ}
    (found : t.cache.observers.find? x = some ⟨i, some (t.cache.channelOf x).version⟩)
    (unsettled : (t.cache.channelOf x).latest.settled? = none) :
    Unanswered t x i.key ⟨i, some (t.cache.channelOf x).version⟩ where
  found := found
  key := rfl
  unsettled := by
    rintro n ⟨⟩
    exact ⟨_, Channel.history_version _, unsettled⟩

theorem Unanswered.spared (h : Unanswered t x k s)
    (same : t'.cache.observers.find? x = t.cache.observers.find? x)
    (history : ∀ i,
      (t.cache.entry i).channel.history <+: (t'.cache.entry i).channel.history) :
    Unanswered t' x k s where
  found := same.trans h.found
  key := h.key
  unsettled := by
    intro n seen
    obtain ⟨v, shown, unsettled⟩ := h.unsettled n seen
    exact ⟨v, Channel.kept_of_prefix (history_channelOf h.found same history) shown, unsettled⟩

/-- A poll of a wait gives an outcome exactly when the latest view is a current one. -/
theorem Unanswered.resume (h : Unanswered t x k s) :
    (t.resume x).2 = (t.cache.channelOf x).latest.settled? := by
  rw [resume_answer]
  by_cases seen : s.seen = some (t.cache.channelOf x).version
  · obtain ⟨v, shown, unsettled⟩ := h.unsettled _ seen
    rw [Channel.history_version, Option.some.injEq] at shown
    rw [Cache.poll_of_seen h.found seen, shown, unsettled]
    rfl
  · rw [(Cache.poll_of_lag h.found seen).1]
    rfl

theorem resume_of_pending (pending : (t.resume x).2 = none) : (t.resume x).1 = (t.poll x).1 := by
  unfold TimedCache.resume at pending ⊢
  dsimp only at pending ⊢
  split at pending
  next => rfl
  next => cases pending

theorem Unanswered.resumed (h : Unanswered t x k s) (pending : (t.resume x).2 = none) :
    ∃ s', Unanswered (t.resume x).1 x k s' := by
  have unsettled := h.resume.symm.trans pending
  rw [resume_of_pending pending]
  by_cases seen : s.seen = some (t.cache.channelOf x).version
  · have same : (t.poll x).1 = t := by
      unfold TimedCache.poll
      simp [h.found, Cache.poll_of_seen h.found seen]
    rw [same]
    exact ⟨s, h⟩
  · have found := (Cache.poll_of_lag h.found seen).2.2
    rw [← poll_observers, ← channelOf_poll] at found
    rw [← channelOf_poll] at unsettled
    obtain rfl := h.key
    exact ⟨_, .of_latest found unsettled⟩

theorem Waiting.unanswered (h : Waiting lossy settings ttl x k t) : ∃ s, Unanswered t x k s := by
  induction h with
  | asked h =>
      obtain ⟨i, key, found⟩ := find?_observe h.coherent x k
      exact ⟨_, found, key, by simp⟩
  | @begun t h pending =>
      obtain ⟨i, rfl, found, unsettled⟩ := find?_await h.coherent pending
      rw [Entry.latest, ← Cache.channelOf_of_find? found] at unsettled
      rw [← Cache.channelOf_of_find? found] at found
      exact ⟨_, .of_latest found unsettled⟩
  | resumed before pending ih =>
      obtain ⟨s, unanswered⟩ := ih
      exact unanswered.resumed pending
  | spared before move same ih =>
      obtain ⟨s, unanswered⟩ := ih
      exact ⟨s, unanswered.spared same (move.history before.reached.coherent)⟩

/-! ## The entry that a wait belongs to -/

/-- The entry of a key holds a current outcome. -/
def SettledFor (t : TimedCache κ ε α) (k : κ) (o : Outcome ε α) : Prop :=
  ∃ e, t.cache.known? k = some e ∧ e.phase = .settled o

theorem settledFor_iff (h : Coherent t.cache []) (found : t.cache.observers.find? x = some s)
    (o : Outcome ε α) :
    t.SettledFor s.entry.key o ↔ (t.cache.channelOf x).latest.settled? = some o := by
  have known := Cache.known?_of_holds (h.holds_of_find? found)
  rw [Cache.channelOf_of_find? found]
  refine Iff.trans ?_ ((h.sound s.entry).settled?_latest o).symm
  simp [SettledFor, known]

theorem known?_armIfAbsent (t : TimedCache κ ε α) (k : κ) :
    (t.armIfAbsent k).cache.known? = t.cache.known? :=
  Cache.known?_congr (armIfAbsent_table t k) (armIfAbsent_entry t k)

/-- A wait ends at its first poll if there is a current outcome already. -/
theorem await_answer_iff (h : Coherent t.cache []) (y : Option (Holder κ)) (o : Outcome ε α) :
    (t.await y k).2 = some o ↔ t.SettledFor k o := by
  have armed := coherent_armIfAbsent h k
  have made : Cache.Course (fun _ => True) _ _ _ := armed.subscribe k
  rw [show (t.await y k).2 = ((t.armIfAbsent k).cache.await y k).2 from rfl, Cache.await_answer,
    (made.coherent.sound _).settled?_latest, armed.entry_subscribe, known?_armIfAbsent]
  dsimp only
  rw [Entry.demand_settled_iff, SettledFor]
  cases t.cache.known? k <;> simp

/-! ## Ending -/

/-- A subscription of the key has ended, and no other. -/
structure Leaves (x : Holder κ) (k : κ) (t t' : TimedCache κ ε α) : Prop where
  gone : t'.cache.observers.find? x = none
  others : ∀ y, y ≠ x → t'.cache.observers.find? y = t.cache.observers.find? y
  count : t'.cache.subscriberCount k + 1 = t.cache.subscriberCount k
  counts : ∀ k', k' ≠ k → t'.cache.subscriberCount k' = t.cache.subscriberCount k'

theorem leaves_release (h : Reached lossy settings ttl t)
    (found : t.cache.observers.find? x = some s) : Leaves x s.entry.key t (t.release x) := by
  have after : Reached lossy settings ttl (t.release x) := h.tail (.deed (.release x))
  have observers : (t.release x).cache.observers = t.cache.observers.erase x := by
    simp [TimedCache.release, Cache.release, found]
  have counts : ∀ k', (t.release x).cache.subscriberCount k' +
      (if s.entry.key = k' then 1 else 0) = t.cache.subscriberCount k' := by
    intro k'
    have erased := Registry.count_erase_of_some found fun s => s.entry.key = k'
    rw [after.coherent.subscriberCount, h.coherent.subscriberCount, observers]
    simpa using erased
  refine ⟨?_, fun y other => ?_, ?_, fun k' other => ?_⟩
  · rw [observers, Registry.find?_erase_self]
  · rw [observers, Registry.find?_erase_of_ne _ _ _ (Ne.symm other)]
  · simpa using counts s.entry.key
  · simpa [Ne.symm other] using counts k'

/-- A wait that is given its outcome ends. -/
theorem leaves_resume (h : Reached lossy settings ttl t)
    (found : t.cache.observers.find? x = some s) (ready : (t.resume x).2 ≠ none) :
    Leaves x s.entry.key t (t.resume x).1 := by
  have ended : (t.resume x).1 = (t.poll x).1.release x := by
    unfold TimedCache.resume at ready ⊢
    dsimp only at ready ⊢
    split at ready
    next => exact absurd rfl ready
    next => rfl
  have polled : Reached lossy settings ttl (t.poll x).1 := h.tail (.deed (.poll x))
  have known : (t.poll x).1.cache.known? = t.cache.known? := by
    rw [← Cache.known?_poll t.cache x]
    unfold TimedCache.poll
    dsimp only
    split <;> [skip; rfl]
    split <;> [skip; rfl]
    unfold TimedCache.arm
    split <;> rfl
  have counts : ∀ k', (t.poll x).1.cache.subscriberCount k' = t.cache.subscriberCount k' := by
    intro k'
    rw [Cache.subscriberCount_eq, known, Cache.subscriberCount_eq]
  obtain ⟨s', found', entry⟩ : ∃ s', (t.poll x).1.cache.observers.find? x = some s' ∧
      s'.entry = s.entry := by
    rw [poll_observers]
    by_cases seen : s.seen = some (t.cache.channelOf x).version
    · exact ⟨s, by rw [Cache.poll_of_seen found seen, found], rfl⟩
    · exact ⟨_, (Cache.poll_of_lag found seen).2.2, rfl⟩
  have left := leaves_release polled found'
  rw [ended]
  rw [entry] at left
  refine ⟨left.gone, fun y other => ?_, ?_, fun k' other => ?_⟩
  · rw [left.others y other, find?_poll_of_ne (Ne.symm other)]
  · rw [left.count, counts]
  · rw [left.counts k' other, counts]

/-- A wait that ends at its first poll, or is given up right after it, leaves all as it was. -/
theorem await_observers_of_ended {y : Option (Holder κ)}
    (ended : (t.await y k).2 ≠ none ∨ y = none) :
    (t.await y k).1.cache.observers = t.cache.observers := by
  cases y with
  | none => simp [await, Cache.await_none_observers]
  | some x =>
      have ready := ended.resolve_right (by simp)
      obtain ⟨o, answer⟩ := Option.ne_none_iff_exists'.1 ready
      have after := Cache.await_observers (t.armIfAbsent k).cache x k
      rw [show ((t.armIfAbsent k).cache.await (some x) k).2 = some o from answer,
        armIfAbsent_observers] at after
      exact after

/-- Nothing that is published is withheld from a subscription, given twice or given late. A poll gives
the latest view of the entry unless that was given before, so the views that a subscription is given
stand in the history of its entry in their order, and are all of them if it is polled after each. A
wait ends at the poll at which the entry of its key is settled, and leaves no subscription. -/
theorem subscriptions_deliver (h : Reached lossy settings ttl t) :
    (∀ x s, t.cache.observers.find? x = some s →
      t.cache.Holds s.entry ∧ t.cache.channelOf x = (t.cache.entry s.entry).channel ∧
      (∃ born looks, Followed lossy settings ttl x t born looks) ∧
      (∀ v, (t.poll x).2 = some v → v = (t.cache.entry s.entry).latest) ∧
      ((t.poll x).1.poll x).2 = none) ∧
    (∀ x born looks, Followed lossy settings ttl x t born looks →
      let channel := t.cache.channelOf x
      ((t.poll x).2.isSome = true ↔
        looks = [] ∨ ∃ n, lastGiven? looks = some n ∧ n < channel.version) ∧
      ((deliveries looks).map (·.2)).Sublist (channel.history.drop born) ∧
      ((deliveries (looks ++ [⟨channel.version, (t.poll x).2⟩])).map (·.2)).getLast? =
        some channel.latest ∧
      ((∀ n, born ≤ n → n ≤ channel.version → ∃ look ∈ looks, look.version = n) →
        (deliveries looks).map (·.2) = channel.history.drop born)) ∧
    (∀ x k, Waiting lossy settings ttl x k t →
      (∀ o, (t.resume x).2 = some o ↔ t.SettledFor k o) ∧
      ((t.resume x).2 ≠ none → Leaves x k t (t.resume x).1) ∧ Leaves x k t (t.release x)) ∧
    (∀ y k, (∀ o, (t.await y k).2 = some o ↔ t.SettledFor k o) ∧
      ((t.await y k).2 ≠ none ∨ y = none →
        (t.await y k).1.cache.observers = t.cache.observers ∧
        ∀ k', (t.await y k).1.cache.subscriberCount k' = t.cache.subscriberCount k')) := by
  have coherent := h.coherent
  refine ⟨?_, ?_, ?_, ?_⟩
  · intro x s found
    obtain ⟨born, looks, followed⟩ := h.followed found
    obtain ⟨s', recorded⟩ := followed.recorded
    refine ⟨coherent.holds_of_find? found, Cache.channelOf_of_find? found, ⟨_, _, followed⟩, ?_,
      recorded.poll_poll⟩
    intro v given
    rw [poll_view] at given
    exact (Cache.poll_latest found given).symm
  · intro x born looks followed channel
    obtain ⟨s, recorded⟩ := followed.recorded
    exact ⟨recorded.isSome_poll_iff, recorded.items_sublist, recorded.last_item,
      recorded.items_eq⟩
  · intro x k waiting
    obtain ⟨s, unanswered⟩ := waiting.unanswered
    obtain rfl := unanswered.key
    refine ⟨fun o => ?_, leaves_resume h unanswered.found, leaves_release h unanswered.found⟩
    rw [unanswered.resume, settledFor_iff coherent unanswered.found]
  · intro y k
    refine ⟨await_answer_iff coherent y, fun ended => ?_⟩
    have observers := await_observers_of_ended ended
    have after : Reached lossy settings ttl (t.await y k).1 := h.tail (.deed (.await y k))
    refine ⟨observers, fun k' => ?_⟩
    rw [after.coherent.subscriberCount, observers, coherent.subscriberCount]

/-- A reader has looked before its key is set twice, and a wait for another key goes on until that is
set. -/
theorem subscriptions_deliver_set :
    let asked : TimedCache Nat Nat Nat := (opened {} none).observe (.reader "r") 0
    let begun := ((asked.poll (.reader "r")).1.await (some (.waiter "w")) 1).1
    let t := (begun.set 0 5).set 0 6
    Followed False {} none (.reader "r") t 0 [⟨0, some .incomplete⟩] ∧
      (t.cache.channelOf (.reader "r")).history =
        [.incomplete, .known (.success 5) .done, .known (.success 6) .done] ∧
      (t.poll (.reader "r")).2.isSome = true ∧
      ((t.poll (.reader "r")).1.poll (.reader "r")).2 = none ∧
      Waiting False {} none (.waiter "w") 1 t ∧ (t.resume (.waiter "w")).2 = none ∧
      ((t.set 1 7).resume (.waiter "w")).2 = some (.success 7) ∧
      Leaves (.waiter "w") 1 (t.set 1 7) ((t.set 1 7).resume (.waiter "w")).1 := by
  intro asked begun t
  have empty : Reached False {} none (opened {} none : TimedCache Nat Nat Nat) := .refl
  have first : Followed False {} none (.reader "r") asked
      (asked.cache.channelOf (.reader "r")).version [] := .observed empty 0
  have version : (asked.cache.channelOf (.reader "r")).version = 0 := by decide
  have view : (asked.poll (.reader "r")).2 = some .incomplete := by decide
  have looked := first.polled
  rw [version, view, List.nil_append] at looked
  have followed : Followed False {} none (.reader "r") t 0 [⟨0, some .incomplete⟩] :=
    ((looked.spared (.deed (.await (some (.waiter "w")) 1)) (by decide)).spared
      (.deed (.set 0 5)) (by decide)).spared (.deed (.set 0 6)) (by decide)
  have waiting : Waiting False {} none (.waiter "w") 1 t :=
    ((Waiting.begun looked.reached (by decide)).spared (.deed (.set 0 5)) (by decide)).spared
      (.deed (.set 0 6)) (by decide)
  have later : Waiting False {} none (.waiter "w") 1 (t.set 1 7) :=
    waiting.spared (.deed (.set 1 7)) (by decide)
  have found : t.cache.observers.find? (.reader "r") = some ⟨⟨0, 0⟩, some 0⟩ := by decide
  have told := subscriptions_deliver followed.reached
  have behind : (0 : Nat) < (t.cache.channelOf (.reader "r")).version := by decide
  have held : (t.set 1 7).cache.Holds ⟨1, 0⟩ := by unfold Cache.Holds; decide
  have phase : ((t.set 1 7).cache.entry ⟨1, 0⟩).phase = .settled (.success 7) := by decide
  have known := Cache.known?_of_holds held
  have settled : (t.set 1 7).SettledFor 1 (.success 7) := Exists.intro _ (And.intro known phase)
  have ended := (subscriptions_deliver later.reached).2.2.1 _ _ later
  have answer := (ended.1 (.success 7)).2 settled
  refine ⟨followed, by decide, ?_, ?_, waiting, by decide, answer, ended.2.1 ?_⟩
  · exact (told.2.1 _ _ _ followed).1.2 (.inr ⟨0, rfl, behind⟩)
  · exact (told.1 _ _ found).2.2.2.2
  · rw [answer]
    exact Option.some_ne_none _

end LiveCache.TimedCache
