import LiveCache.Proofs.Entry.Lateness

/-! # What an entry remembers

An entry is settled by a value that is set and by a result that it accepts, and by nothing else.
Each time the outcome is published as current, so the outcome that an entry was settled with last is
the newest current one among its views. The phases hand the same outcome on to each other, whatever
the operations are and in whatever order they come: it is what a reader is shown while the next one
is computed.
-/

namespace LiveCache.Entry

variable {ε α : Type} {policy : StalePolicy} {e e' : Entry ε α}

/-- The outcome that an operation settles the entry with. -/
def settledBy (e : Entry ε α) : Act ε α → Option (Outcome ε α)
  | .set value => if e.retired then none else some (.success value)
  | .settle l o => if e.owns l.generation then some o else none
  | _ => none

/-- The outcome that the entry was settled with last. -/
def lastSettled? (e : Entry ε α) : Option (Outcome ε α) :=
  (e.channel.latest :: e.channel.earlier).findSome? View.settled?

/-! ## Publications -/

theorem lastSettled?_congr (same : e'.channel = e.channel) :
    e'.lastSettled? = e.lastSettled? := by
  unfold lastSettled?
  rw [same]

/-- A published outcome that is current is the last one. -/
theorem lastSettled?_publish (e : Entry ε α) :
    (e.publish policy).lastSettled? = (e.phase.view policy).settled?.or e.lastSettled? := by
  unfold lastSettled? publish Channel.publish
  rw [List.findSome?_cons]
  cases (e.phase.view policy).settled? <;> rfl

theorem settled?_ofPrevious (policy : StalePolicy) (previous : Option (Outcome ε α)) :
    (View.ofPrevious policy previous).settled? = none := by
  cases policy <;> cases previous <;> rfl

/-! ## The parts of an operation -/

@[simp] theorem demand_lastSettled? (e : Entry ε α) :
    e.demand.1.lastSettled? = e.lastSettled? :=
  lastSettled?_congr (demand_channel e)

@[simp] theorem demand_previous (e : Entry ε α) :
    e.demand.1.phase.previous = e.phase.previous := by
  rw [demand_eq]
  split <;> rfl

@[simp] theorem outdate_lastSettled? (e : Entry ε α) :
    (e.outdate policy).lastSettled? = e.lastSettled? := by
  unfold outdate
  split
  next => rfl
  next => rfl
  next => exact lastSettled?_congr (abort_channel e)
  next =>
    rw [lastSettled?_publish]
    simp only [Phase.view, settled?_ofPrevious, Option.none_or]
    exact lastSettled?_congr rfl

@[simp] theorem outdate_previous (e : Entry ε α) :
    (e.outdate policy).phase.previous = e.phase.previous := by
  unfold outdate
  split
  next => rfl
  next => rfl
  next hp => rw [hp]; rfl
  next hp => rw [hp]; rfl

theorem renewed_lastSettled? (e : Entry ε α) :
    (e.renewed policy).1.lastSettled? = e.lastSettled? := by
  have outdated : (e.outdated policy).lastSettled? = e.lastSettled? := outdate_lastSettled? e
  unfold renewed
  split
  next => exact outdated
  next => rw [demand_lastSettled?, outdated]

theorem renewed_previous (e : Entry ε α) :
    (e.renewed policy).1.phase.previous = e.phase.previous := by
  have outdated : (e.outdated policy).phase.previous = e.phase.previous := outdate_previous e
  unfold renewed
  split
  next => exact outdated
  next => rw [demand_previous, outdated]

@[simp] theorem demand_aborted (e : Entry ε α) : e.demand.1.aborted = e.aborted := by
  rw [demand_eq]
  split <;> rfl

theorem renewed_aborted (e : Entry ε α) : e.aborted ⊆ (e.renewed policy).1.aborted := by
  have outdated : (e.outdated policy).aborted = e.abort.aborted := outdate_aborted e
  unfold renewed
  split
  next => exact outdated ▸ aborted_subset_abort e
  next => rw [demand_aborted]; exact outdated ▸ aborted_subset_abort e

theorem abandoned_channel (e : Entry ε α) : e.abandoned.channel = e.channel := by
  unfold abandoned
  split
  next => exact abort_channel e
  next => rfl

theorem abandoned_previous (e : Entry ε α) : e.abandoned.phase.previous = e.phase.previous := by
  unfold abandoned
  split
  next hp => rw [hp]; rfl
  next => rfl

/-! ## Operations -/

/-- What an operation may make of an entry, and the outcome that it settles the entry with. -/
inductive Becomes (policy : StalePolicy) (e : Entry ε α) :
    Option (Outcome ε α) → Entry ε α → Prop where
  | same : Becomes policy e none e
  | counted (n : Nat) : Becomes policy e none { e with subscribers := n }
  | demanded (n : Nat) : Becomes policy e none { e with subscribers := n }.demand.1
  | installed (value : α) : Becomes policy e (some (.success value)) (e.installed policy value)
  | renewed : Becomes policy e none (e.renewed policy).1
  | abandoned : Becomes policy e none e.abandoned
  | retired : Becomes policy e none { e with retired := true }
  | aborted : Becomes policy e none e.abort
  | concluded (o : Outcome ε α) : Becomes policy e (some o) (e.concluded policy o)

theorem becomes_perform (policy : StalePolicy) (e : Entry ε α) (a : Act ε α) :
    Becomes policy e (e.settledBy a) (e.perform policy a) := by
  cases a with
  | subscribe =>
      cases present : e.retired with
      | true => simpa [perform, settledBy, subscribe?, present] using Becomes.same
      | false =>
          simp only [perform, subscribe?_eq present, Option.map_some, Option.getD_some]
          exact .demanded _
  | unsubscribe => exact .counted _
  | snapshot =>
      cases present : e.retired with
      | true => simpa [perform, settledBy, snapshot?, present] using Becomes.same
      | false =>
          simp only [perform, snapshot?_eq present, Option.map_some, Option.getD_some]
          exact .demanded e.subscribers
  | set value =>
      cases present : e.retired with
      | true => simpa [perform, settledBy, set?, present] using Becomes.same
      | false =>
          simp only [perform, set?_eq present, Option.map_some, Option.getD_some, settledBy,
            present]
          exact .installed value
  | expire =>
      cases present : e.retired with
      | true => simpa [perform, settledBy, expire?, present] using Becomes.same
      | false =>
          simp only [perform, expire?_eq present, Option.map_some, Option.getD_some]
          exact .renewed
  | abandon =>
      by_cases unobserved : e.subscribers = 0
      · simp only [perform, abandon_eq unobserved]
        exact .abandoned
      · simp only [perform, abandon_of_observed unobserved]
        exact .same
  | retire =>
      simp only [perform, retire]
      split
      next => exact .retired
      next => exact .same
  | abort => exact .aborted
  | settle l o =>
      cases owned : e.owns l.generation with
      | true =>
          simp only [perform, settle_of_owns owned, settledBy, owned, if_true]
          exact .concluded o
      | false =>
          simp only [perform, settle, settledBy, owned, Bool.false_eq_true, if_false]
          split
          next => exact .demanded e.subscribers
          next => exact .same

variable {settled : Option (Outcome ε α)}

theorem Becomes.lastSettled? (h : Becomes policy e settled e') :
    e'.lastSettled? = settled.or e.lastSettled? := by
  cases h with
  | same => rfl
  | counted n => rfl
  | demanded n => exact demand_lastSettled? _
  | installed value => exact lastSettled?_publish _
  | renewed => exact renewed_lastSettled? e
  | abandoned => exact lastSettled?_congr (abandoned_channel e)
  | retired => rfl
  | aborted => exact lastSettled?_congr (abort_channel e)
  | concluded o => exact lastSettled?_publish _

theorem Becomes.previous (h : Becomes policy e settled e') :
    e'.phase.previous = settled.or e.phase.previous := by
  cases h with
  | same => rfl
  | counted n => rfl
  | demanded n => exact demand_previous _
  | installed value => rfl
  | renewed => exact renewed_previous e
  | abandoned => exact abandoned_previous e
  | retired => rfl
  | aborted => rw [abort_phase]; rfl
  | concluded o => rfl

/-- What was told to stop stays so. -/
theorem Becomes.stopped (h : Becomes policy e settled e') : e.aborted ⊆ e'.aborted := by
  cases h with
  | same => exact List.Subset.refl _
  | counted n => exact List.Subset.refl _
  | demanded n => rw [demand_aborted]; exact List.Subset.refl _
  | installed value => exact (shift_installed policy e value).aborted
  | renewed => exact renewed_aborted e
  | abandoned => exact (shift_abandoned e).aborted
  | retired => exact List.Subset.refl _
  | aborted => exact aborted_subset_abort e
  | concluded o => exact List.Subset.refl _

/-- What was retired stays so. -/
theorem Becomes.resting (h : Becomes policy e settled e') (retired : e.retired = true) :
    e'.retired = true := by
  cases h with
  | same => exact retired
  | counted n => exact retired
  | demanded n => rw [demand_retired]; exact retired
  | installed value => simpa [Entry.installed] using retired
  | renewed => simpa using retired
  | abandoned => simpa using retired
  | retired => rfl
  | aborted => simpa using retired
  | concluded o => exact retired

/-- Only the end of a subscription makes subscribers fewer. -/
theorem subscribers_perform (policy : StalePolicy) (e : Entry ε α) {a : Act ε α}
    (other : a ≠ .unsubscribe) :
    e.subscribers ≤ (e.perform policy a).subscribers := by
  cases a with
  | subscribe =>
      cases present : e.retired with
      | true => simp [perform, subscribe?, present]
      | false => simp [perform, subscribe?_eq present]
  | unsubscribe => exact absurd rfl other
  | snapshot =>
      cases present : e.retired with
      | true => simp [perform, snapshot?, present]
      | false => simp [perform, snapshot?_eq present]
  | set value =>
      cases present : e.retired with
      | true => simp [perform, set?, present]
      | false => simp [perform, set?_eq present, Entry.installed]
  | expire =>
      cases present : e.retired with
      | true => simp [perform, expire?, present]
      | false => simp [perform, expire?_eq present]
  | abandon =>
      simp only [perform, abandon]
      split <;> [split <;> simp; simp]
  | retire =>
      simp only [perform, retire]
      split <;> simp
  | abort => simp [perform]
  | settle l o =>
      simp only [perform, settle]
      split <;> [simp; split <;> simp]

/-- The last outcome is that of the last operation that settled the entry. -/
theorem lastSettled?_perform (e : Entry ε α) (a : Act ε α) :
    (e.perform policy a).lastSettled? = (e.settledBy a).or e.lastSettled? :=
  (becomes_perform policy e a).lastSettled?

/-! ## Operations in any order -/

/-- Whatever was done to an entry, its phase holds the outcome that it was settled with last. -/
theorem Leads.previous (leads : Leads policy e e')
    (start : e.phase.previous = e.lastSettled?) : e'.phase.previous = e'.lastSettled? := by
  induction leads with
  | refl => exact start
  | tail _ last ih =>
      obtain ⟨a, -, rfl⟩ := last
      rw [(becomes_perform policy _ a).previous, lastSettled?_perform, ih]

theorem Leads.stopped (leads : Leads policy e e') : e.aborted ⊆ e'.aborted := by
  induction leads with
  | refl => exact List.Subset.refl _
  | tail _ last ih =>
      obtain ⟨a, -, rfl⟩ := last
      exact List.Subset.trans ih (becomes_perform policy _ a).stopped

theorem Leads.resting (leads : Leads policy e e') (retired : e.retired = true) :
    e'.retired = true := by
  induction leads with
  | refl => exact retired
  | tail _ last ih =>
      obtain ⟨a, -, rfl⟩ := last
      exact (becomes_perform policy _ a).resting ih

end LiveCache.Entry
