import LiveCache.Proofs.Cache.Holders
import LiveCache.Proofs.Entry.Publication
import LiveCache.Proofs.Timed.Freshness

/-! # What becomes of a subscription

A subscription belongs to the entry that the table holds for its key, from when it is made until it
ends, so the subscribers of a key are its subscriptions. No subscription has seen more views than
its entry has published. Whatever the entry publishes next is therefore given to it.
-/

namespace LiveCache

namespace Entry

variable {ε α : Type} {policy : StalePolicy} {e e' : Entry ε α}

/-- Views are only ever added. -/
theorem Publishes.version {settled : Option (Outcome ε α)} (h : Publishes policy e e' settled) :
    e.channel.version ≤ e'.channel.version := by
  cases h with
  | nothing same => exact Nat.le_of_eq (by rw [same])
  | current o anew => rw [anew]; exact Nat.le_succ _
  | outdated o shown anew => rw [anew]; exact Nat.le_succ _

theorem Leads.version (leads : Leads policy e e') (h : e.Sound policy) :
    e.channel.version ≤ e'.channel.version := by
  induction leads with
  | refl => exact Nat.le_refl _
  | tail before last ih =>
      obtain ⟨a, -, rfl⟩ := last
      have sound := (Leads.kept before h).1
      exact Nat.le_trans ih (sound.publishes (becomes_perform policy _ a)).version

end Entry

namespace Cache

variable {κ ε α : Type} [DecidableEq κ] {c d : Cache κ ε α} {x : Holder κ} {s : Subscription κ}
  {loose : List (EntryId κ)}

/-! ## Counting -/

theorem Coherent.subscriberCount (h : Coherent c []) (k : κ) :
    c.subscriberCount k = c.observers.count fun s => s.entry.key = k := by
  unfold Cache.subscriberCount
  cases found : c.current? k with
  | none =>
      refine (List.countP_eq_zero.2 fun s mem => ?_).symm
      obtain ⟨⟨x, s'⟩, pair, rfl⟩ := List.mem_map.1 mem
      have held := h.holds_of_find? ((Registry.find?_eq_some_iff _ x s').2 pair)
      simpa using fun key => not_holds_of_current?_none found key held
  | some i =>
      have own := holds_of_current? found
      rw [Option.map_some, Option.getD_some, h.counted, List.count_nil, Nat.add_zero]
      refine List.countP_congr fun s mem => ?_
      obtain ⟨⟨x, s'⟩, pair, rfl⟩ := List.mem_map.1 mem
      have held := h.holds_of_find? ((Registry.find?_eq_some_iff _ x s').2 pair)
      simp only [decide_eq_true_eq]
      constructor
      · rintro rfl
        exact current?_key found
      · exact fun key => held.unique own (key.trans (current?_key found).symm)

/-! ## Views not yet seen -/

/-- No subscription has seen more views than its entry has published. -/
def Abreast (c : Cache κ ε α) : Prop :=
  ∀ x s n, c.observers.find? x = some s → s.seen = some n → n ≤ (c.entry s.entry).channel.version

/-- A subscription that is there afterwards was there before, has seen nothing, or has seen all. -/
def Retains (c d : Cache κ ε α) : Prop :=
  ∀ x s, d.observers.find? x = some s → c.observers.find? x = some s ∨ s.seen = none ∨
    s.seen = some (d.entry s.entry).channel.version

theorem retains_of_same (observers : d.observers = c.observers) : Retains c d := by
  intro x s found
  exact .inl (observers ▸ found)

theorem Abreast.retains (h : Abreast c) (retains : Retains c d)
    (grows : ∀ i, (c.entry i).channel.version ≤ (d.entry i).channel.version) : Abreast d := by
  intro x s n found seen
  rcases retains x s found with old | fresh | latest
  · exact Nat.le_trans (h x s n old seen) (grows s.entry)
  · rw [fresh] at seen
    cases seen
  · rw [latest] at seen
    exact Nat.le_of_eq (Option.some.inj seen).symm

/-- What an entry publishes is given to each of its subscriptions. -/
theorem Abreast.poll (h : Abreast c) (found : c.observers.find? x = some s)
    (observers : d.observers = c.observers) {v : View ε α}
    (anew : (d.entry s.entry).channel = (c.entry s.entry).channel.publish v) :
    (d.poll x).2 = some v := by
  have late : s.seen ≠ some ((c.entry s.entry).channel.version + 1) := by
    intro seen
    have bound := h x s _ found seen
    omega
  simp [Cache.poll, observers, found, anew, Channel.unseen, late]

/-! ## Writes -/

theorem Coherent.set_entry (h : Coherent c loose) {i : EntryId κ} (held : c.Holds i) (value : α) :
    (c.set i.key value).entry i = (c.entry i).installed c.settings.stale value := by
  have found : (c.note (.installed i.key value)).locate i.key =
      (c.note (.installed i.key value), i) :=
    locate_of_some held
  rw [set_eq h, found]
  simp

theorem Coherent.expire_entry (h : Coherent c loose) {i : EntryId κ} (held : c.Holds i) :
    (c.expire i.key).entry i = ((c.entry i).renewed c.settings.stale).1 := by
  rw [expire_of_some held]
  exact expireEntry_entry (c := c.note (.expired i.key)) (h.present i held).1

theorem expireEntry_entry_of_ne {i j : EntryId κ} (other : j ≠ i) :
    (c.expireEntry i).entry j = c.entry j := by
  unfold expireEntry
  split
  next => rfl
  next => rw [spawn?_entry, recordTransition_entry, entry_put_of_ne _ _ (Ne.symm other)]

theorem expireEntry_settings (i : EntryId κ) : (c.expireEntry i).settings = c.settings := by
  unfold expireEntry
  split <;> simp

/-- A walk outdates each entry once. -/
theorem foldl_expireEntry_entry {i : EntryId κ} (l : List (EntryId κ)) :
    ∀ {c : Cache κ ε α}, l.Nodup → (c.entry i).retired = false →
      (l.foldl expireEntry c).entry i =
        if i ∈ l then ((c.entry i).renewed c.settings.stale).1 else c.entry i := by
  induction l with
  | nil => exact fun _ _ => rfl
  | cons j rest ih =>
      intro c distinct present
      obtain ⟨fresh, rest'⟩ := List.nodup_cons.1 distinct
      by_cases here : i = j
      · subst here
        have renewed := expireEntry_entry (c := c) present
        rw [List.foldl_cons, ih rest' (by rw [renewed]; simpa using present), if_neg fresh,
          if_pos List.mem_cons_self, renewed]
      · have kept := expireEntry_entry_of_ne (c := c) here
        rw [List.foldl_cons, ih rest' (by rwa [kept]), kept, expireEntry_settings]
        simp [here]

theorem Coherent.expireAll_entry (h : Coherent c loose) {i : EntryId κ} (held : c.Holds i) :
    c.expireAll.entry i = ((c.entry i).renewed c.settings.stale).1 := by
  have present := (h.present i held).1
  have nodup : c.ids.Nodup := List.Nodup.of_map _ (nodup_ids_keys c)
  unfold Cache.expireAll
  rw [foldl_expireEntry_entry c.ids nodup (by simpa using present)]
  simp [(mem_ids_iff c i).2 held]

end Cache

namespace TimedCache

open Cache (Abreast Coherent Perusal Retains perusal_of_same retains_of_same)

variable {κ ε α : Type} [DecidableEq κ] {t t' : TimedCache κ ε α} {lossy : Prop}
  {settings : Settings} {ttl : Option Nat}

/-! ## Moves -/

theorem perusal_armIfAbsent (t : TimedCache κ ε α) (k : κ) :
    Perusal t.cache (t.armIfAbsent k).cache :=
  perusal_of_same (armIfAbsent_entry t k) (armIfAbsent_observers t k)

theorem perusal_poll (t : TimedCache κ ε α) (x : Holder κ) :
    Perusal t.cache (t.poll x).1.cache := by
  have polled := Cache.perusal_poll t.cache x
  unfold poll
  dsimp only
  split
  next =>
    split
    next =>
      unfold arm
      split <;> exact polled.trans (perusal_of_same rfl rfl)
    next => exact polled
  next => exact polled

theorem fire_observers (t : TimedCache κ ε α) (timer : Timer κ) :
    (t.fire timer).cache.observers = t.cache.observers := by
  unfold fire
  split
  next => rfl
  next => split <;> simp

theorem foldl_fire_observers (due : List (Timer κ)) (t : TimedCache κ ε α) :
    (due.foldl fire t).cache.observers = t.cache.observers := by
  induction due generalizing t with
  | nil => rfl
  | cons timer rest ih => rw [List.foldl_cons, ih, fire_observers]

@[simp] theorem fireDue_observers (t : TimedCache κ ε α) :
    t.fireDue.cache.observers = t.cache.observers := by
  unfold fireDue
  split
  next => rfl
  next => rw [foldl_fire_observers]

theorem Deed.retains (deed : Deed t t') : Retains t.cache t'.cache := by
  cases deed with
  | observe x k => exact ((perusal_armIfAbsent t k).trans (Cache.perusal_observe _ x k)).observers
  | glance k => exact ((perusal_armIfAbsent t k).trans (Cache.perusal_glance _ k)).observers
  | snapshot k => exact ((perusal_armIfAbsent t k).trans (Cache.perusal_snapshot _ k)).observers
  | poll x => exact (perusal_poll t x).observers
  | await x k => exact ((perusal_armIfAbsent t k).trans (Cache.perusal_await _ x k)).observers
  | resume x =>
      unfold TimedCache.resume
      dsimp only
      split
      next => exact (perusal_poll t x).observers
      next => exact ((perusal_poll t x).trans (Cache.perusal_release _ x)).observers
  | release x => exact (Cache.perusal_release t.cache x).observers
  | set k value => exact retains_of_same (by simp [TimedCache.set])
  | expire k => exact retains_of_same (Cache.expire_observers t.cache k)
  | expireAll tasks listed log => exact retains_of_same (Cache.expireAll_observers t.cache)
  | sweep log => exact retains_of_same (Cache.sweep_observers t.cache)
  | pass time => exact retains_of_same rfl
  | fireDue => exact retains_of_same (fireDue_observers t)

theorem withdraw_observers (c : Cache κ ε α) (u : Task κ) (report : Option String) :
    (c.withdraw u report).observers = c.observers := by
  cases report with
  | none => rfl
  | some text => exact Cache.record_observers _ _ _

theorem Move.retains (move : Move lossy t t') : Retains t.cache t'.cache := by
  cases move with
  | deed deed => exact deed.retains
  | close => exact retains_of_same (Cache.close_observers t.cache)
  | call u listed spared first => exact retains_of_same rfl
  | finish u listed called alive o report =>
      exact retains_of_same (by rw [Cache.settle_observers, withdraw_observers])
  | leave u listed why => exact retains_of_same rfl

theorem Reached.abreast (h : Reached lossy settings ttl t) : Abreast t.cache := by
  refine h.keep (P := fun u => Abreast u.cache) ?_ ?_
  · intro _ x s n found
    cases found
  · intro u u' hc move kept
    exact kept.retains move.retains fun i => ((move.evolves hc).leads i).version (hc.sound i)

/-! ## What is told -/

section Told

variable {x : Holder κ} {s : Subscription κ} (h : Reached lossy settings ttl t)
  (found : t.cache.observers.find? x = some s)

include h found

theorem Reached.told_set (value : α) :
    ((t.set s.entry.key value).poll x).2 = some (.known (.success value) .done) := by
  have entry := h.coherent.set_entry (h.coherent.holds_of_find? found) value
  rw [poll_view]
  apply h.abreast.poll found (by simp [TimedCache.set])
  rw [TimedCache.set, arm_entry, entry]
  simp [Entry.installed, Entry.publish, Phase.view, Outcome.withProgress]

theorem Reached.told_expire {o : Outcome ε α}
    (settled : (t.cache.entry s.entry).phase = .settled o) :
    ((t.expire s.entry.key).poll x).2 = some (View.ofPrevious settings.stale (some o)) := by
  have entry := h.coherent.expire_entry (h.coherent.holds_of_find? found)
  rw [poll_view]
  apply h.abreast.poll found (Cache.expire_observers t.cache s.entry.key)
  rw [entry, h.same_settings, Entry.renewed_channel_of_settled settled]

theorem Reached.told_expireAll {o : Outcome ε α}
    (settled : (t.cache.entry s.entry).phase = .settled o) :
    (t.expireAll.poll x).2 = some (View.ofPrevious settings.stale (some o)) := by
  have entry := h.coherent.expireAll_entry (h.coherent.holds_of_find? found)
  rw [poll_view]
  apply h.abreast.poll found (Cache.expireAll_observers t.cache)
  rw [entry, h.same_settings, Entry.renewed_channel_of_settled settled]

/-- A task of the key that was not told to stop computes the entry of the subscription. -/
theorem Reached.told_settle {u : Task κ} (listed : u ∈ t.cache.tasks)
    (key : u.entry.key = s.entry.key) (spared : t.cache.isAborted u = false) (o : Outcome ε α)
    (report : Option String) :
    (((t.cache.withdraw u report).settle u o).poll x).2 = some (.known o .done) := by
  have ending := h.coherent.ending listed report
  obtain ⟨previous, hp⟩ := h.coherent.live u listed spared
  have here : u.entry = s.entry :=
    (h.coherent.holds_of_computing hp).unique (h.coherent.holds_of_find? found) key
  have owned : ((t.cache.withdraw u report).entry u.entry).owns u.launch.generation = true := by
    rw [ending.entry, Entry.owns_iff]
    exact ⟨u.launch, previous, hp, rfl⟩
  apply h.abreast.poll found (by rw [Cache.settle_observers, withdraw_observers])
  rw [Cache.settle_of_owns owned, Cache.record_entry, ← here, Cache.entry_put_self, ending.entry]
  rfl

end Told

end TimedCache

end LiveCache
