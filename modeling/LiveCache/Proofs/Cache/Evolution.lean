import LiveCache.Proofs.Cache.Passage

/-! # How the entries of a cache evolve

What holds of an entry after any operations in any order holds of every entry of a cache. Where
entries are kept only while they are observed, one that has lost its last subscriber is retired.
-/

namespace LiveCache.Cache

variable {κ ε α : Type} [DecidableEq κ]

open Entry (Act Leads)

/-- Each entry went through operations of its own. -/
structure Evolves (c d : Cache κ ε α) : Prop where
  settings : d.settings = c.settings
  leads : ∀ i, Leads c.settings.stale (c.entry i) (d.entry i)
  forsaken : c.settings.retention = .whileObserved → ∀ i, 0 < (c.entry i).subscribers →
    (d.entry i).subscribers = 0 → (d.entry i).retired = true

variable {c d e : Cache κ ε α} {loose : List (EntryId κ)}

theorem evolves_of_same (settings : d.settings = c.settings) (entry : d.entry = c.entry) :
    Evolves c d where
  settings := settings
  leads := fun i => entry ▸ .refl
  forsaken := by
    intro _ i observed none
    rw [entry] at none
    omega

theorem Evolves.trans (h₁ : Evolves c d) (h₂ : Evolves d e) : Evolves c e where
  settings := h₂.settings.trans h₁.settings
  leads := fun i => (h₁.leads i).trans (h₁.settings ▸ h₂.leads i)
  forsaken := by
    intro forgets i observed none
    rcases Nat.eq_zero_or_pos (d.entry i).subscribers with lost | kept
    · exact (h₂.leads i).resting (h₁.forsaken forgets i observed lost)
    · exact h₂.forsaken (h₁.settings ▸ forgets) i kept none

/-- Nothing but the entries and the settings counts. -/
theorem Evolves.congr (h : Evolves c d) (settings : e.settings = d.settings)
    (entry : e.entry = d.entry) : Evolves c e :=
  h.trans (evolves_of_same settings entry)

/-- Where no subscription ends, no entry loses its last subscriber. -/
theorem Passes.evolves (h : Passes (· ≠ .unsubscribe) c d) : Evolves c d where
  settings := h.settings
  leads := fun i => (h.via i).leads
  forsaken := by
    intro _ i observed none
    have kept := (h.via i).subscribers fun _ => id
    omega

/-! ## One entry -/

theorem leads_perform {policy : StalePolicy} {e : Entry ε α} {a : Act ε α} (allowed : a.allowed e) :
    Leads policy e (e.perform policy a) :=
  .single ⟨a, allowed, rfl⟩

theorem evolves_put {i : EntryId κ} {e : Entry ε α} (leads : Leads c.settings.stale (c.entry i) e)
    (forsaken : c.settings.retention = .whileObserved → 0 < (c.entry i).subscribers →
      e.subscribers = 0 → e.retired = true) : Evolves c (c.put i e) where
  settings := rfl
  leads := by
    intro j
    by_cases same : i = j
    · subst same
      rwa [entry_put_self]
    · rw [entry_put_of_ne c e same]
      exact .refl
  forsaken := by
    intro forgets j observed none
    by_cases same : i = j
    · subst same
      rw [entry_put_self] at none ⊢
      exact forsaken forgets observed none
    · rw [entry_put_of_ne c e same] at none
      omega

/-! ## Reading -/

theorem evolves_subscribe (c : Cache κ ε α) (k : κ) : Evolves c (c.subscribe k).1 :=
  (passes_subscribe (by simp) c k).evolves

/-! ## Ending -/

/-- What is given up and retired when the last subscriber is gone. -/
theorem leads_forgotten {policy : StalePolicy} {e : Entry ε α}
    (none : e.unsubscribe.subscribers = 0) (present : e.retired = false) :
    Leads policy e { e.unsubscribe.abandoned with retired := true } := by
  have left : Leads policy e e.unsubscribe := leads_perform (a := .unsubscribe) trivial
  have given : Leads policy e.unsubscribe (e.unsubscribe.perform policy .abandon) :=
    leads_perform trivial
  rw [Entry.perform, Entry.abandon_eq none] at given
  have retired : Leads policy e.unsubscribe.abandoned
      (e.unsubscribe.abandoned.perform policy .retire) := leads_perform trivial
  have may : e.unsubscribe.abandoned.retirable = true :=
    (Entry.retirable_iff _).2 ⟨by rw [Entry.abandoned_retired]; exact present,
      by rw [Entry.abandoned_subscribers]; exact none, Entry.abandoned_not_computing _⟩
  rw [Entry.perform, Entry.retire, if_pos may] at retired
  exact (left.trans given).trans retired

/-- An entry is given up and leaves the table together with its last subscription. -/
structure Forgotten (c d : Cache κ ε α) (i : EntryId κ) : Prop where
  settings : d.settings = c.settings
  self : d.entry i = { (c.entry i).unsubscribe.abandoned with retired := true }
  others : ∀ j, j ≠ i → d.entry j = c.entry j
  table : d.table = c.table.erase i.key

/-- The last subscription of an entry ends where entries are kept only while they are observed. -/
theorem Coherent.forgotten {i : EntryId κ} (h : Coherent c (i :: loose))
    (forgets : c.settings.retention = .whileObserved)
    (none : (c.entry i).unsubscribe.subscribers = 0) :
    Forgotten c (c.unsubscribe i) i := by
  have held : c.Holds i := h.holds_of_observed (by rw [List.count_cons_self]; omega)
  obtain ⟨c', step, eq⟩ := unobserved_eq (c := c.put i (c.entry i).unsubscribe) held forgets
    (by rw [entry_put_self]; exact none) (by rw [entry_put_self]; exact (h.present i held).1)
  have same : c'.settings = c.settings ∧ c'.table = c.table ∧
      c'.entry = (c.put i (c.entry i).unsubscribe).entry := by
    rcases step with rfl | ⟨n, rfl⟩ <;> simp
  have ended : c.unsubscribe i = (c.put i (c.entry i).unsubscribe).unobserved i := if_pos none
  rw [ended, eq, entry_put_self]
  refine ⟨?_, ?_, fun j other => ?_, ?_⟩
  · rw [record_settings]
    exact same.1
  · rw [record_entry, note_entry, dismiss_entry_self]
  · rw [record_entry, note_entry, dismiss_entry_of_ne _ other, same.2.2,
      entry_put_of_ne _ _ (Ne.symm other)]
  · rw [record_table, note_table, Cache.dismiss, same.2.1]

/-- Elsewhere, or if it was not the last one, nothing but the number of subscribers changes. -/
theorem unsubscribe_of_lasting {i : EntryId κ} (lasts : c.settings.retention = .whileObserved →
    (c.entry i).unsubscribe.subscribers ≠ 0) :
    c.unsubscribe i = c.put i (c.entry i).unsubscribe := by
  unfold Cache.unsubscribe
  dsimp only
  split
  next none =>
    unfold Cache.unobserved
    rw [if_neg]
    exact fun forgets => lasts forgets none
  next => rfl

theorem Coherent.evolves_unsubscribe {i : EntryId κ} (h : Coherent c (i :: loose)) :
    Evolves c (c.unsubscribe i) := by
  by_cases last : c.settings.retention = .whileObserved ∧ (c.entry i).unsubscribe.subscribers = 0
  · obtain ⟨forgets, none⟩ := last
    have forgotten := h.forgotten forgets none
    have held : c.Holds i := h.holds_of_observed (by rw [List.count_cons_self]; omega)
    refine (evolves_put (leads_forgotten none (h.present i held).1) fun _ _ _ => rfl).congr
      forgotten.settings ?_
    funext j
    by_cases this : j = i
    · rw [this, forgotten.self, entry_put_self]
    · rw [forgotten.others j this, entry_put_of_ne _ _ (Ne.symm this)]
  · rw [unsubscribe_of_lasting fun forgets none => last ⟨forgets, none⟩]
    exact evolves_put (leads_perform (a := .unsubscribe) trivial) fun forgets _ none =>
      absurd ⟨forgets, none⟩ last

/-! ## The end of a subscription -/

/-- How the subscriptions of a cache become fewer: not at all, or by one, after anything that
readers ask for. -/
inductive Parting (c d : Cache κ ε α) : Prop where
  | stays (passes : Passes Act.lasts c d)
  | ends (m : Cache κ ε α) (i : EntryId κ) (asked : Passes Act.asks c m)
      (coherent : Coherent m [i]) (eq : d = m.unsubscribe i)

theorem Parting.evolves (h : Parting c d) : Evolves c d := by
  cases h with
  | stays passes => exact (passes.mono fun a => Entry.Act.ne_unsubscribe_of_lasts).evolves
  | ends m i asked coherent eq =>
      have before := (asked.mono fun a kind =>
        Entry.Act.ne_unsubscribe_of_lasts (Entry.Act.lasts_of_asks kind)).evolves
      exact eq ▸ before.trans coherent.evolves_unsubscribe

theorem Passes.parting (asked : Passes Act.asks c d) (h : Parting d e) : Parting c e := by
  cases h with
  | stays passes => exact .stays ((asked.mono fun a => Entry.Act.lasts_of_asks).trans passes)
  | ends m i asked' coherent eq => exact .ends m i (asked.trans asked') coherent eq

theorem Coherent.parting_unsubscribe {i : EntryId κ} (h : Coherent c [i]) :
    Parting c (c.unsubscribe i) :=
  .ends c i (.refl c) h rfl

theorem Coherent.parting_hold {s : Subscription κ} (h : Coherent c [s.entry]) (x : Holder κ) :
    Parting c (c.hold x s) := by
  unfold Cache.hold
  cases found : c.observers.find? x with
  | none => exact .stays (passes_of_same rfl rfl rfl)
  | some old =>
      have replaced : Course (fun _ => True) c _ _ := h.replaced found
      exact .ends { c with observers := c.observers.insert x s } old.entry
        (passes_of_same rfl rfl rfl) replaced.coherent rfl

theorem Coherent.parting_release (h : Coherent c []) (x : Holder κ) : Parting c (c.release x) := by
  unfold Cache.release
  cases found : c.observers.find? x with
  | none => exact .stays (.refl c)
  | some s =>
      have taken : Course (fun _ => True) c _ _ := h.taken found
      exact .ends { c with observers := c.observers.erase x } s.entry (passes_of_same rfl rfl rfl)
        taken.coherent rfl

/-- A new subscription is loose until somebody holds it. -/
theorem Coherent.subscribed (h : Coherent c []) (k : κ) :
    Coherent (c.subscribe k).1 [(c.subscribe k).2.entry] := by
  have made : Course (fun _ => True) c _ _ := h.subscribe k
  exact made.coherent

/-- What follows a new subscription. -/
theorem Coherent.parting_subscribed (h : Coherent c []) (k : κ)
    (next : Coherent (c.subscribe k).1 [(c.subscribe k).2.entry] →
      Parting (c.subscribe k).1 d) : Parting c d :=
  (passes_subscribe trivial c k).parting (next (h.subscribed k))

theorem Coherent.parting_observe (h : Coherent c []) (x : Holder κ) (k : κ) :
    Parting c (c.observe x k) :=
  h.parting_subscribed k fun made => made.parting_hold x

theorem Coherent.parting_glance (h : Coherent c []) (k : κ) : Parting c (c.glance k) :=
  h.parting_subscribed k fun made => made.parting_unsubscribe

theorem Coherent.parting_awaited {k : κ}
    (made : Coherent (c.subscribe k).1 [(c.subscribe k).2.entry]) (x : Option (Holder κ)) :
    Parting (c.subscribe k).1 (c.await x k).1 := by
  let shown := (c.subscribe k).1.note (.delivered (c.subscribe k).2.entry
    ((c.subscribe k).1.entry (c.subscribe k).2.entry).channel.latest)
  have noted : Passes Act.asks (c.subscribe k).1 shown := passes_of_same rfl rfl rfl
  have coherent : Coherent shown [(c.subscribe k).2.entry] := made.note _
  unfold Cache.await
  dsimp only
  split
  next x _ =>
    let held : Subscription κ := { (c.subscribe k).2 with
      seen := some ((c.subscribe k).1.entry (c.subscribe k).2.entry).channel.version }
    exact noted.parting (Coherent.parting_hold (s := held) coherent x)
  next => exact noted.parting coherent.parting_unsubscribe

theorem Coherent.parting_await (h : Coherent c []) (x : Option (Holder κ)) (k : κ) :
    Parting c (c.await x k).1 :=
  h.parting_subscribed k fun made => made.parting_awaited x

end LiveCache.Cache
