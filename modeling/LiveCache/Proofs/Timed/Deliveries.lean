import LiveCache.Proofs.Cache.Known
import LiveCache.Proofs.Timed.Observing
import Mathlib.Data.List.Perm.Subperm

/-! # What a subscription is given

A subscription is followed through everything that is done to its cache, with a record of its polls.
The views it was given stand in the history of its entry at increasing positions, and the position of
the last one is what it remembers. So a poll gives something unless nothing was published since.
-/

namespace LiveCache

namespace Channel

variable {α : Type} {c d : Channel α}

theorem history_length (c : Channel α) : c.history.length = c.version + 1 := by
  simp [history, version]

theorem history_version (c : Channel α) : c.history[c.version]? = some c.latest := by
  rw [history, List.reverse_cons, List.getElem?_append_right (by simp [version])]
  simp [version]

theorem le_version {n : Nat} {a : α} (shown : c.history[n]? = some a) : n ≤ c.version := by
  have bound := (List.getElem?_eq_some_iff.1 shown).1
  rw [history_length] at bound
  exact Nat.le_of_lt_succ bound

/-- In a history that has grown each view is where it was. -/
theorem kept_of_prefix (grown : c.history <+: d.history) {n : Nat} {a : α}
    (shown : c.history[n]? = some a) : d.history[n]? = some a := by
  obtain ⟨bound, rfl⟩ := List.getElem?_eq_some_iff.1 shown
  exact List.prefix_iff_getElem?.1 grown n bound

theorem version_le_of_prefix (grown : c.history <+: d.history) : c.version ≤ d.version := by
  have longer := grown.length_le
  rw [history_length, history_length] at longer
  exact Nat.le_of_succ_le_succ longer

end Channel

namespace Entry

variable {ε α : Type} {policy : StalePolicy} {e e' : Entry ε α}

theorem Publishes.history {settled : Option (Outcome ε α)} (h : Publishes policy e e' settled) :
    e.channel.history <+: e'.channel.history := by
  cases h with
  | nothing same => exact same ▸ List.prefix_rfl
  | current o anew => rw [anew, Channel.history_publish]; exact List.prefix_append _ _
  | outdated o shown anew => rw [anew, Channel.history_publish]; exact List.prefix_append _ _

/-- What was published stays in its place. -/
theorem Leads.history (leads : Leads policy e e') (h : e.Sound policy) :
    e.channel.history <+: e'.channel.history := by
  induction leads with
  | refl => exact List.prefix_rfl
  | tail before last ih =>
      obtain ⟨a, -, rfl⟩ := last
      have sound := (Leads.kept before h).1
      exact ih.trans (sound.publishes (becomes_perform policy _ a)).history

end Entry

/-! ## Views in their places -/

section Places

variable {β : Type} {l : List β}

/-- What stands in a list at increasing positions is a part of it. -/
theorem sublist_of_places {ps : List (Nat × β)} :
    ∀ {n : Nat}, (ps.map (·.1)).Pairwise (· < ·) →
      (∀ p ∈ ps, n ≤ p.1 ∧ l[p.1]? = some p.2) → (ps.map (·.2)).Sublist (l.drop n) := by
  induction ps with
  | nil => exact fun _ _ => List.nil_sublist _
  | cons p rest ih =>
      intro n ordered places
      rw [List.map_cons, List.pairwise_cons] at ordered
      obtain ⟨le, here⟩ := places p List.mem_cons_self
      obtain ⟨bound, value⟩ := List.getElem?_eq_some_iff.1 here
      have later : (rest.map (·.2)).Sublist (l.drop (p.1 + 1)) := by
        refine ih ordered.2 fun q mem => ⟨?_, (places q (List.mem_cons_of_mem _ mem)).2⟩
        exact ordered.1 q.1 (List.mem_map_of_mem mem)
      have split : l.drop p.1 = p.2 :: l.drop (p.1 + 1) := by
        rw [← value]
        exact List.drop_eq_getElem_cons bound
      refine List.Sublist.trans ?_ (List.drop_sublist_drop_left l le)
      rw [split, List.map_cons]
      exact later.cons_cons p.2

/-- If no position is left out it is all of it. -/
theorem eq_drop_of_places {ps : List (Nat × β)} {n : Nat}
    (ordered : (ps.map (·.1)).Pairwise (· < ·))
    (places : ∀ p ∈ ps, n ≤ p.1 ∧ l[p.1]? = some p.2)
    (full : ∀ m, n ≤ m → m < l.length → m ∈ ps.map (·.1)) : ps.map (·.2) = l.drop n := by
  refine (sublist_of_places ordered places).eq_of_length_le ?_
  have covered : List.range' n (l.length - n) ⊆ ps.map (·.1) := by
    intro m mem
    rw [List.mem_range'_1] at mem
    exact full m mem.1 (by omega)
  have bound := (List.subperm_of_subset (List.nodup_range' 1) covered).length_le
  simpa using bound

end Places

namespace Cache

variable {κ ε α : Type} [DecidableEq κ]

/-- The channel that a holder's subscription reads. -/
def channelOf (c : Cache κ ε α) (x : Holder κ) : Channel (View ε α) :=
  ((c.observers.find? x).map fun s => (c.entry s.entry).channel).getD { latest := .incomplete }

variable {c d : Cache κ ε α} {x : Holder κ} {s : Subscription κ}

theorem channelOf_of_find? (found : c.observers.find? x = some s) :
    c.channelOf x = (c.entry s.entry).channel := by
  rw [channelOf, found]
  rfl

/-- A poll gives the latest view unless the subscription has seen it. -/
theorem poll_of_seen (found : c.observers.find? x = some s)
    (seen : s.seen = some (c.channelOf x).version) : c.poll x = (c, none) := by
  rw [channelOf_of_find? found] at seen
  simp [poll, found, seen]

theorem poll_of_lag (found : c.observers.find? x = some s)
    (lags : s.seen ≠ some (c.channelOf x).version) :
    (c.poll x).2 = some (c.channelOf x).latest ∧ (c.poll x).1.entry = c.entry ∧
      (c.poll x).1.observers.find? x = some ⟨s.entry, some (c.channelOf x).version⟩ := by
  rw [channelOf_of_find? found] at lags ⊢
  exact poll_of_unseen found (by rw [Channel.unseen, if_neg lags])

end Cache

namespace TimedCache

open Cache (Coherent Evolves)

variable {κ ε α : Type} [DecidableEq κ] {t t' : TimedCache κ ε α} {lossy : Prop}
  {settings : Settings} {ttl : Option Nat} {x : Holder κ} {s : Subscription κ}

/-! ## What a move does to one holder -/

inductive Handles (x : Holder κ) (t t' : TimedCache κ ε α) : Prop where
  | spares (same : t'.cache.observers.find? x = t.cache.observers.find? x)
  | observes (k : κ) (eq : t' = t.observe x k)
  | waits (k : κ) (pending : (t.await (some x) k).2 = none) (eq : t' = (t.await (some x) k).1)
  | polls (eq : t' = (t.poll x).1)
  | ends (gone : t'.cache.observers.find? x = none)

theorem find?_observe_of_ne {y : Holder κ} (other : y ≠ x) (k : κ) :
    (t.observe y k).cache.observers.find? x = t.cache.observers.find? x := by
  simp [observe, Cache.observe, Cache.hold_observers, Registry.find?_insert_of_ne _ _ _ _ other]

theorem find?_poll_of_ne {y : Holder κ} (other : y ≠ x) :
    (t.poll y).1.cache.observers.find? x = t.cache.observers.find? x := by
  rw [poll_observers, Cache.find?_poll_of_ne _ _ _ other]

theorem handles_await (t : TimedCache κ ε α) (y : Option (Holder κ)) (k : κ) :
    Handles x t (t.await y k).1 := by
  cases y with
  | none => exact .spares (by simp [await, Cache.await_none_observers])
  | some y =>
      have after := Cache.await_observers (t.armIfAbsent k).cache y k
      cases answer : ((t.armIfAbsent k).cache.await (some y) k).2 with
      | some o =>
          rw [answer, armIfAbsent_observers] at after
          exact .spares (by rw [await, after])
      | none =>
          by_cases same : y = x
          · subst same
            exact .waits k answer rfl
          · rw [answer, armIfAbsent_observers] at after
            exact .spares (by rw [await, after, Registry.find?_insert_of_ne _ _ _ _ same])

theorem handles_poll (t : TimedCache κ ε α) (y : Holder κ) : Handles x t (t.poll y).1 := by
  by_cases same : y = x
  · subst same
    exact .polls rfl
  · exact .spares (find?_poll_of_ne same)

theorem handles_resume (t : TimedCache κ ε α) (y : Holder κ) :
    Handles x t (t.resume y).1 := by
  unfold resume
  dsimp only
  split
  next => exact handles_poll t y
  next =>
    have released := Cache.find?_release (t.poll y).1.cache y x
    by_cases same : y = x
    · rw [if_pos same] at released
      exact .ends released
    · rw [if_neg same, find?_poll_of_ne same] at released
      exact .spares released

theorem Deed.handles (deed : Deed t t') (x : Holder κ) : Handles x t t' := by
  cases deed with
  | observe y k =>
      by_cases same : y = x
      · subst same
        exact .observes k rfl
      · exact .spares (find?_observe_of_ne same k)
  | glance k => exact .spares (by simp [TimedCache.glance])
  | snapshot k => exact .spares (by simp [TimedCache.snapshot])
  | poll y => exact handles_poll t y
  | await y k => exact handles_await t y k
  | resume y => exact handles_resume t y
  | release y =>
      have released := Cache.find?_release t.cache y x
      by_cases same : y = x
      · exact .ends (released.trans (if_pos same))
      · exact .spares (released.trans (if_neg same))
  | set k value => exact .spares (by simp [TimedCache.set])
  | expire k => exact .spares (by rw [TimedCache.expire, Cache.expire_observers])
  | expireAll tasks listed log =>
      exact .spares (by rw [TimedCache.expireAll, Cache.expireAll_observers])
  | sweep log => exact .spares (by rw [Cache.sweep_observers])
  | pass time => exact .spares rfl
  | fireDue => exact .spares (by rw [fireDue_observers])

theorem Move.handles (move : Move lossy t t') (x : Holder κ) : Handles x t t' := by
  cases move with
  | deed deed => exact deed.handles x
  | close => exact .spares (by rw [Cache.close_observers])
  | call u listed spared first => exact .spares rfl
  | finish u listed called alive o report =>
      exact .spares (by rw [Cache.settle_observers, withdraw_observers])
  | leave u listed why => exact .spares rfl

theorem Move.history (h : Coherent t.cache []) (move : Move lossy t t') (i : EntryId κ) :
    (t.cache.entry i).channel.history <+: (t'.cache.entry i).channel.history :=
  ((move.evolves h).leads i).history (h.sound i)

/-! ## The record of a subscription -/

/-- A poll: the number of views that had been published, and what was given. -/
structure Look (ε α : Type) where
  version : Nat
  given : Option (View ε α)

/-- The views that were given, each with the number of its publication. -/
def deliveries (looks : List (Look ε α)) : List (Nat × View ε α) :=
  looks.filterMap fun look => look.given.map (look.version, ·)

/-- The number of the last view that was given. -/
def lastGiven? (looks : List (Look ε α)) : Option Nat := (deliveries looks).getLast?.map (·.1)

/-- A subscription of a holder, the number of views that had been published when it was made, and its
polls since then. A wait that has just begun was polled once. -/
inductive Followed (lossy : Prop) (settings : Settings) (ttl : Option Nat) (x : Holder κ) :
    TimedCache κ ε α → Nat → List (Look ε α) → Prop where
  | observed {t : TimedCache κ ε α} (h : Reached lossy settings ttl t) (k : κ) :
      Followed lossy settings ttl x (t.observe x k)
        ((t.observe x k).cache.channelOf x).version []
  | awaited {t : TimedCache κ ε α} (h : Reached lossy settings ttl t) (k : κ)
      (pending : (t.await (some x) k).2 = none) :
      Followed lossy settings ttl x (t.await (some x) k).1
        ((t.await (some x) k).1.cache.channelOf x).version
        [⟨((t.await (some x) k).1.cache.channelOf x).version,
          some ((t.await (some x) k).1.cache.channelOf x).latest⟩]
  | polled {t : TimedCache κ ε α} {born : Nat} {looks : List (Look ε α)}
      (before : Followed lossy settings ttl x t born looks) :
      Followed lossy settings ttl x (t.poll x).1 born
        (looks ++ [⟨(t.cache.channelOf x).version, (t.poll x).2⟩])
  | spared {t t' : TimedCache κ ε α} {born : Nat} {looks : List (Look ε α)}
      (before : Followed lossy settings ttl x t born looks) (move : Move lossy t t')
      (same : t'.cache.observers.find? x = t.cache.observers.find? x) :
      Followed lossy settings ttl x t' born looks

/-- How the record of a subscription agrees with the channel it reads. -/
structure Recorded (t : TimedCache κ ε α) (x : Holder κ) (s : Subscription κ) (born : Nat)
    (looks : List (Look ε α)) : Prop where
  found : t.cache.observers.find? x = some s
  seen : s.seen = lastGiven? looks
  ordered : ((deliveries looks).map (·.1)).Pairwise (· < ·)
  bounded : ∀ p ∈ deliveries looks, ∀ n, s.seen = some n → p.1 ≤ n
  placed : ∀ p ∈ deliveries looks,
    born ≤ p.1 ∧ (t.cache.channelOf x).history[p.1]? = some p.2
  /-- Nothing is withheld that was not given before. -/
  pending : ∀ look ∈ looks, look.version ∈ (deliveries looks).map (·.1)
  born_le : born ≤ (t.cache.channelOf x).version

theorem Followed.reached {born : Nat} {looks : List (Look ε α)}
    (h : Followed lossy settings ttl x t born looks) : Reached lossy settings ttl t := by
  induction h with
  | observed h k => exact h.tail (.deed (.observe x k))
  | awaited h k pending => exact h.tail (.deed (.await (some x) k))
  | polled before ih => exact ih.tail (.deed (.poll x))
  | spared before move same ih => exact ih.tail move

/-- Every subscription has a record. -/
theorem Reached.followed (h : Reached lossy settings ttl t)
    (found : t.cache.observers.find? x = some s) :
    ∃ born looks, Followed lossy settings ttl x t born looks := by
  obtain ⟨wakes, moves⟩ := h
  induction moves generalizing s with
  | refl => cases found
  | @tail t t' before move ih =>
      have reached : Reached lossy settings ttl t := ⟨wakes, before⟩
      cases move.handles x with
      | spares same =>
          obtain ⟨born, looks, followed⟩ := ih (same ▸ found)
          exact ⟨born, looks, followed.spared move same⟩
      | observes k eq =>
          subst eq
          exact ⟨_, _, .observed reached k⟩
      | waits k pending eq =>
          subst eq
          exact ⟨_, _, .awaited reached k pending⟩
      | polls eq =>
          subst eq
          have held : (t.cache.observers.find? x).isSome = true := by
            rw [← Cache.isSome_find?_poll t.cache x x, ← poll_observers, found]
            rfl
          obtain ⟨s', found'⟩ := Option.isSome_iff_exists.1 held
          obtain ⟨born, looks, followed⟩ := ih found'
          exact ⟨born, _, followed.polled⟩
      | ends gone =>
          rw [gone] at found
          cases found

/-! ## The record agrees with the channel -/

theorem deliveries_append (looks : List (Look ε α)) (n : Nat) (given : Option (View ε α)) :
    deliveries (looks ++ [⟨n, given⟩]) = deliveries looks ++ given.toList.map (n, ·) := by
  rw [deliveries, List.filterMap_append]
  cases given <;> rfl

variable {born : Nat} {looks : List (Look ε α)}

/-- What an entry publishes is added to what its subscriptions read. -/
theorem history_channelOf (found : t.cache.observers.find? x = some s)
    (same : t'.cache.observers.find? x = t.cache.observers.find? x)
    (history : ∀ i,
      (t.cache.entry i).channel.history <+: (t'.cache.entry i).channel.history) :
    (t.cache.channelOf x).history <+: (t'.cache.channelOf x).history := by
  rw [Cache.channelOf_of_find? found, Cache.channelOf_of_find? (same.trans found)]
  exact history s.entry

theorem Recorded.spared (h : Recorded t x s born looks)
    (same : t'.cache.observers.find? x = t.cache.observers.find? x)
    (history : ∀ i,
      (t.cache.entry i).channel.history <+: (t'.cache.entry i).channel.history) :
    Recorded t' x s born looks := by
  have grown := history_channelOf h.found same history
  exact { h with
    found := same.trans h.found
    placed := fun p mem => ⟨(h.placed p mem).1, Channel.kept_of_prefix grown (h.placed p mem).2⟩
    born_le := Nat.le_trans h.born_le (Channel.version_le_of_prefix grown) }

/-- A subscription that was just made. -/
theorem Recorded.fresh (found : t.cache.observers.find? x = some s) (unseen : s.seen = none) :
    Recorded t x s (t.cache.channelOf x).version [] where
  found := found
  seen := unseen
  ordered := List.Pairwise.nil
  bounded := by simp [deliveries]
  placed := by simp [deliveries]
  pending := by simp
  born_le := Nat.le_refl _

/-- A poll that gives nothing has given the latest view before. -/
theorem Recorded.polled_seen (h : Recorded t x s born looks)
    (seen : s.seen = some (t.cache.channelOf x).version) :
    (t.poll x).1 = t ∧ (t.poll x).2 = none ∧
      Recorded t x s born (looks ++ [⟨(t.cache.channelOf x).version, none⟩]) := by
  have polled := Cache.poll_of_seen h.found seen
  have same : deliveries (looks ++ [⟨(t.cache.channelOf x).version, none⟩]) =
      deliveries looks := by
    rw [deliveries_append, Option.toList_none, List.map_nil, List.append_nil]
  refine ⟨?_, ?_, ?_⟩
  · unfold poll
    simp [h.found, polled]
  · rw [poll_view, polled]
  · refine ⟨h.found, ?_, ?_, ?_, ?_, ?_, h.born_le⟩
    · rw [lastGiven?, same]
      exact h.seen
    · rw [same]
      exact h.ordered
    · rw [same]
      exact h.bounded
    · rw [same]
      exact h.placed
    · rw [same]
      intro look mem
      rcases List.mem_append.1 mem with old | new
      · exact h.pending look old
      · rw [List.mem_singleton.1 new]
        have last := h.seen
        rw [seen, lastGiven?] at last
        obtain ⟨p, at', eq⟩ := Option.map_eq_some_iff.1 last.symm
        exact List.mem_map.2 ⟨p, List.mem_of_getLast? at', eq⟩

/-- A poll publishes nothing. -/
theorem channelOf_poll (t : TimedCache κ ε α) (x : Holder κ) :
    (t.poll x).1.cache.channelOf x = t.cache.channelOf x := by
  have same : (t.poll x).1.cache.channelOf x = (t.cache.poll x).1.channelOf x := by
    have entry : (t.poll x).1.cache.entry = (t.cache.poll x).1.entry := by
      unfold poll
      dsimp only
      split <;> [split <;> simp; rfl]
    rw [Cache.channelOf, Cache.channelOf, poll_observers, entry]
  rw [same]
  cases found : t.cache.observers.find? x with
  | none => simp [Cache.poll, found]
  | some s =>
      by_cases seen : s.seen = some (t.cache.channelOf x).version
      · rw [Cache.poll_of_seen found seen]
      · obtain ⟨-, entry, found'⟩ := Cache.poll_of_lag found seen
        rw [Cache.channelOf_of_find? found', entry, Cache.channelOf_of_find? found]

/-- The latest view is beyond all that was given, since the last of that is remembered. -/
theorem Recorded.lt_version (h : Recorded t x s born looks)
    (lags : s.seen ≠ some (t.cache.channelOf x).version) :
    ∀ p ∈ deliveries looks, p.1 < (t.cache.channelOf x).version := by
  intro p mem
  obtain ⟨last, at'⟩ : ∃ last, (deliveries looks).getLast? = some last :=
    Option.isSome_iff_exists.1 (List.getLast?_isSome.2 (List.ne_nil_of_mem mem))
  have seen : s.seen = some last.1 := by rw [h.seen, lastGiven?, at']; rfl
  have le := h.bounded p mem last.1 seen
  have known := Channel.le_version (h.placed last (List.mem_of_getLast? at')).2
  have other : last.1 ≠ (t.cache.channelOf x).version := fun same => lags (same ▸ seen)
  omega

/-- A poll that gives something gives the latest view, which is remembered. -/
theorem Recorded.polled_lag (h : Recorded t x s born looks)
    (lags : s.seen ≠ some (t.cache.channelOf x).version) :
    (t.poll x).2 = some (t.cache.channelOf x).latest ∧
      Recorded (t.poll x).1 x ⟨s.entry, some (t.cache.channelOf x).version⟩ born
        (looks ++ [⟨(t.cache.channelOf x).version, some (t.cache.channelOf x).latest⟩]) := by
  obtain ⟨view, entry, found⟩ := Cache.poll_of_lag h.found lags
  have found' : (t.poll x).1.cache.observers.find? x =
      some ⟨s.entry, some (t.cache.channelOf x).version⟩ := by
    rw [poll_observers, found]
  have channel := channelOf_poll t x
  have beyond := h.lt_version lags
  have more := deliveries_append looks (t.cache.channelOf x).version
    (some (t.cache.channelOf x).latest)
  rw [Option.toList_some, List.map_singleton] at more
  refine ⟨by rw [poll_view, view], found', ?_, ?_, ?_, ?_, ?_, ?_⟩
  · rw [lastGiven?, more, List.getLast?_concat]
    rfl
  · rw [more, List.map_append, List.map_singleton, List.pairwise_append]
    refine ⟨h.ordered, List.pairwise_singleton _ _, ?_⟩
    intro n mem m new
    obtain ⟨p, old, rfl⟩ := List.mem_map.1 mem
    rw [List.mem_singleton.1 new]
    exact beyond p old
  · intro p mem n seen
    rw [more, List.mem_append, List.mem_singleton] at mem
    cases seen
    rcases mem with old | rfl
    · exact Nat.le_of_lt (beyond p old)
    · exact Nat.le_refl _
  · intro p mem
    rw [more, List.mem_append, List.mem_singleton] at mem
    rw [channel]
    rcases mem with old | rfl
    · exact h.placed p old
    · exact ⟨h.born_le, Channel.history_version _⟩
  · intro look mem
    rw [more, List.map_append, List.mem_append]
    rcases List.mem_append.1 mem with old | new
    · exact .inl (h.pending look old)
    · rw [List.mem_singleton.1 new]
      exact .inr List.mem_cons_self
  · rw [channel]
    exact h.born_le

/-- A wait that has just begun has seen the latest view. -/
theorem Recorded.awaited {n : Nat} (found : t.cache.observers.find? x = some s)
    (version : (t.cache.channelOf x).version = n) (seen : s.seen = some n) :
    Recorded t x s n [⟨n, some (t.cache.channelOf x).latest⟩] where
  found := found
  seen := seen
  ordered := List.pairwise_singleton _ _
  bounded := by simp [deliveries, seen]
  placed := by
    intro p mem
    obtain rfl : p = (n, (t.cache.channelOf x).latest) := by simpa [deliveries] using mem
    exact ⟨Nat.le_refl _, version ▸ Channel.history_version _⟩
  pending := by simp [deliveries]
  born_le := Nat.le_of_eq version.symm

theorem find?_observe (h : Coherent t.cache []) (x : Holder κ) (k : κ) :
    ∃ i, i.key = k ∧ (t.observe x k).cache.observers.find? x = some ⟨i, none⟩ := by
  have armed := coherent_armIfAbsent h k
  refine ⟨((t.armIfAbsent k).cache.subscribe k).2.entry, (Cache.subscribe_held armed k).2, ?_⟩
  rw [observe, Cache.observe, Cache.hold_observers, Registry.find?_insert_self,
    ← Cache.subscribe_seen (t.armIfAbsent k).cache k]

/-- A wait that goes on has seen the latest view of the entry that it belongs to. -/
theorem find?_await (h : Coherent t.cache []) {x : Holder κ} {k : κ}
    (pending : (t.await (some x) k).2 = none) :
    ∃ i, i.key = k ∧
      (t.await (some x) k).1.cache.observers.find? x =
        some ⟨i, some ((t.await (some x) k).1.cache.entry i).channel.version⟩ ∧
      ((t.await (some x) k).1.cache.entry i).latest.settled? = none := by
  have armed := coherent_armIfAbsent h k
  have after := Cache.await_observers (t.armIfAbsent k).cache x k
  have answer : ((t.armIfAbsent k).cache.await (some x) k).2 = none := pending
  have channel : ∀ i, ((t.await (some x) k).1.cache.entry i).channel =
      (((t.armIfAbsent k).cache.subscribe k).1.entry i).channel := by
    intro i
    rw [await, (Cache.perusal_await _ (some x) k).channel, (Cache.perusal_subscribe _ k).channel]
  refine ⟨_, (Cache.subscribe_held armed k).2, ?_, ?_⟩
  · rw [answer] at after
    rw [channel, await, after, Registry.find?_insert_self]
  · rw [Cache.await_answer] at answer
    rwa [Entry.latest, channel]

theorem Followed.recorded (h : Followed lossy settings ttl x t born looks) :
    ∃ s, Recorded t x s born looks := by
  induction h with
  | observed h k =>
      obtain ⟨i, -, found⟩ := find?_observe h.coherent x k
      exact ⟨_, .fresh found rfl⟩
  | @awaited t h k pending =>
      obtain ⟨i, -, found, -⟩ := find?_await h.coherent pending
      refine ⟨_, .awaited found rfl ?_⟩
      rw [Cache.channelOf_of_find? found]
  | @polled t born looks before ih =>
      obtain ⟨s, recorded⟩ := ih
      by_cases seen : s.seen = some (t.cache.channelOf x).version
      · obtain ⟨same, view, polled⟩ := recorded.polled_seen seen
        rw [same, view]
        exact ⟨s, polled⟩
      · obtain ⟨view, polled⟩ := recorded.polled_lag seen
        rw [view]
        exact ⟨_, polled⟩
  | spared before move same ih =>
      obtain ⟨s, recorded⟩ := ih
      exact ⟨s, recorded.spared same (move.history before.reached.coherent)⟩

/-! ## What the record tells -/

section Record

variable (h : Recorded t x s born looks)

include h

theorem Recorded.lastGiven?_eq_none_iff : lastGiven? looks = none ↔ looks = [] := by
  constructor
  · intro none
    rw [lastGiven?, Option.map_eq_none_iff, List.getLast?_eq_none_iff] at none
    refine List.eq_nil_iff_forall_not_mem.2 fun look mem => ?_
    have given := h.pending look mem
    rw [none] at given
    cases given
  · rintro rfl
    rfl

theorem Recorded.lastGiven?_le {n : Nat} (last : lastGiven? looks = some n) :
    n ≤ (t.cache.channelOf x).version := by
  obtain ⟨p, at', rfl⟩ := Option.map_eq_some_iff.1 last
  exact Channel.le_version (h.placed p (List.mem_of_getLast? at')).2

/-- A poll gives something unless nothing was published since something was given. -/
theorem Recorded.isSome_poll_iff :
    (t.poll x).2.isSome = true ↔ looks = [] ∨
      ∃ n, lastGiven? looks = some n ∧ n < (t.cache.channelOf x).version := by
  rw [← h.lastGiven?_eq_none_iff]
  by_cases seen : s.seen = some (t.cache.channelOf x).version
  · rw [(h.polled_seen seen).2.1, ← h.seen, seen]
    simp
  · rw [(h.polled_lag seen).1]
    simp only [Option.isSome_some, true_iff]
    cases last : lastGiven? looks with
    | none => exact .inl rfl
    | some n =>
        refine .inr ⟨n, rfl, Nat.lt_of_le_of_ne (h.lastGiven?_le last) fun same => seen ?_⟩
        rw [h.seen, last, same]

/-- Polling until nothing is given takes one more poll at most. -/
theorem Recorded.poll_poll : ((t.poll x).1.poll x).2 = none := by
  by_cases seen : s.seen = some (t.cache.channelOf x).version
  · obtain ⟨same, view, -⟩ := h.polled_seen seen
    rw [same, view]
  · refine ((h.polled_lag seen).2.polled_seen ?_).2.1
    rw [channelOf_poll]

theorem Recorded.items_sublist :
    ((deliveries looks).map (·.2)).Sublist ((t.cache.channelOf x).history.drop born) :=
  sublist_of_places h.ordered h.placed

/-- A subscription that was polled after each publication was given all of them. -/
theorem Recorded.items_eq
    (each : ∀ n, born ≤ n → n ≤ (t.cache.channelOf x).version → ∃ look ∈ looks, look.version = n) :
    (deliveries looks).map (·.2) = (t.cache.channelOf x).history.drop born := by
  refine eq_drop_of_places h.ordered h.placed fun n le lt => ?_
  rw [Channel.history_length] at lt
  obtain ⟨look, mem, rfl⟩ := each n le (Nat.le_of_lt_succ lt)
  exact h.pending look mem

/-- The last view that was given is the latest one once the subscription is polled. -/
theorem Recorded.last_item :
    ((deliveries (looks ++ [⟨(t.cache.channelOf x).version, (t.poll x).2⟩])).map (·.2)).getLast? =
      some (t.cache.channelOf x).latest := by
  by_cases seen : s.seen = some (t.cache.channelOf x).version
  · have last := h.seen
    rw [seen, lastGiven?] at last
    obtain ⟨p, at', eq⟩ := Option.map_eq_some_iff.1 last.symm
    have shown := (h.placed p (List.mem_of_getLast? at')).2
    rw [eq, Channel.history_version] at shown
    rw [(h.polled_seen seen).2.1, deliveries_append, Option.toList_none, List.map_nil,
      List.append_nil, List.getLast?_map, at', Option.map_some, shown]
  · rw [(h.polled_lag seen).1, deliveries_append, Option.toList_some, List.map_singleton,
      List.map_append, List.map_singleton, List.getLast?_concat]

end Record

end TimedCache

end LiveCache
