import LiveCache.Proofs.Entry.Lateness

/-! # Entries that are observed and entries that were retired

An entry that somebody observes computes its outcome or has a current one, whatever was done to it,
so a result that comes too late never has to be answered by a new launch. An entry that was retired
has nobody left to serve: it refuses its readers and writers, and nothing changes it any more.
-/

namespace LiveCache.Entry

variable {ε α : Type} {policy : StalePolicy} {e : Entry ε α}

/-- Results may be handed in on behalf of launches that were never handed out. -/
theorem Sound.foldl_perform (h : e.Sound policy) (acts : List (Act ε α)) :
    (acts.foldl (Entry.perform policy) e).Sound policy := by
  induction acts generalizing e with
  | nil => exact h
  | cons a rest ih => exact ih (h.perform a).1

/-! ## Observed entries -/

theorem Sound.busy_of_observed (h : e.Sound policy) (observed : 0 < e.subscribers) :
    (∃ l previous, e.phase = .computing l previous) ∨ ∃ o, e.phase = .settled o := by
  have busy := h.attended observed
  cases hp : e.phase with
  | computing l previous => exact .inl ⟨l, previous, rfl⟩
  | settled o => exact .inr ⟨o, rfl⟩
  | empty | stale => simp [hp, Phase.isIdle] at busy

/-- Whatever is done to an entry, in any order and with results of any generation, it is never idle
while somebody observes it. A result is accepted, or it is discarded and leaves the entry as it is:
the condition for a launch in its place is never met. -/
theorem observed_never_idle (policy : StalePolicy) (acts : List (Act ε α)) :
    let e := acts.foldl (perform policy) {}
    (0 < e.subscribers →
      (∃ l previous, e.phase = .computing l previous) ∨ ∃ o, e.phase = .settled o) ∧
    ¬ (0 < e.subscribers ∧ e.retired = false ∧ e.isStale = true) ∧
    ∀ generation o, (e.settle policy generation o).2 = .accepted ∨
      e.settle policy generation o = (e, .discarded none) := by
  intro e
  have sound : e.Sound policy := sound_fresh.foldl_perform acts
  refine ⟨sound.busy_of_observed, ?_, ?_⟩
  · rintro ⟨observed, -, stale⟩
    rcases sound.busy_of_observed observed with ⟨l, previous, hp⟩ | ⟨o, hp⟩ <;>
      simp [isStale, hp] at stale
  · intro generation o
    cases owned : e.owns generation with
    | true => exact .inl (by rw [settle_of_owns owned])
    | false => exact .inr (sound.settle_of_not_owns owned o)

/-- The key of an observed entry expires twice, and the first computation comes too late. -/
theorem observed_never_idle_late :
    let e : Entry Nat Nat := [Act.subscribe, .expire, .expire].foldl (perform .replay) {}
    0 < e.subscribers ∧ e.phase = .computing ⟨2, 2⟩ none ∧
      e.settle .replay 0 (.success 7) = (e, .discarded none) ∧
      ((∃ l previous, e.phase = .computing l previous) ∨ ∃ o, e.phase = .settled o) := by
  intro e
  have attended := observed_never_idle (ε := Nat) (α := Nat) .replay [.subscribe, .expire, .expire]
  have observed : 0 < e.subscribers := by decide
  have late := (attended.2.2 0 (.success 7)).resolve_left (by decide)
  exact ⟨observed, by decide, late, attended.1 observed⟩

/-! ## Retired entries -/

/-- The launch that an operation hands out. -/
def handsOut (policy : StalePolicy) (e : Entry ε α) : Act ε α → Option Launch
  | .subscribe => e.subscribe?.bind (·.2)
  | .snapshot => e.snapshot?.bind (·.2)
  | .set value => (e.set? policy value).bind (·.2.launch)
  | .expire => (e.expire? policy).bind (·.2.launch)
  | .settle l o =>
      match (e.settle policy l.generation o).2 with
      | .accepted => none
      | .discarded relaunch => relaunch
  | _ => none

/-- The entry was retired, and nobody depends on it. -/
structure AtRest (e : Entry ε α) : Prop where
  retired : e.retired = true
  unobserved : e.subscribers = 0
  calm : e.phase.isComputing = false

theorem Sound.atRest (h : e.Sound policy) (retired : e.retired = true) : e.AtRest :=
  ⟨retired, (h.resting retired).1, (h.resting retired).2⟩

theorem atRest_of_retire (may : e.retire.2 = true) : e.retire.1.AtRest := by
  unfold retire at may ⊢
  split at may
  next retirable =>
    obtain ⟨-, unobserved, calm⟩ := (retirable_iff e).1 retirable
    rw [if_pos retirable]
    exact ⟨rfl, unobserved, calm⟩
  next => cases may

/-- A retired entry owns no result, and one that it does not own is not answered by a launch. -/
theorem AtRest.settle (h : e.AtRest) (generation : Nat) (o : Outcome ε α) :
    e.settle policy generation o = (e, .discarded none) := by
  have disowned : e.owns generation = false := by
    have calm := h.calm
    unfold owns
    cases hp : e.phase <;> simp_all [Phase.isComputing]
  simp [Entry.settle, disowned, h.retired]

theorem AtRest.perform (h : e.AtRest) (policy : StalePolicy) (a : Act ε α) :
    e.perform policy a = e ∧ e.handsOut policy a = none := by
  have calm := h.calm
  cases a with
  | subscribe | snapshot | set | expire =>
      simp [Entry.perform, handsOut, subscribe?, snapshot?, set?, expire?, h.retired]
  | unsubscribe =>
      have same : ({ e with subscribers := 0 } : Entry ε α) = e := by rw [← h.unobserved]
      exact ⟨by simpa [Entry.perform, Entry.unsubscribe, h.unobserved] using same, rfl⟩
  | abandon =>
      refine ⟨?_, rfl⟩
      simp only [Entry.perform, abandon]
      split
      next hp => simp [hp, Phase.isComputing] at calm
      next => rfl
  | retire => simp [Entry.perform, handsOut, retire, retirable, h.retired]
  | abort =>
      refine ⟨?_, rfl⟩
      simp only [Entry.perform, abort]
      split
      next hp => simp [hp, Phase.isComputing] at calm
      next => rfl
  | settle l o => simp only [Entry.perform, handsOut, h.settle, and_self]

theorem AtRest.foldl_perform (h : e.AtRest) (acts : List (Act ε α)) :
    acts.foldl (Entry.perform policy) e = e := by
  induction acts with
  | nil => rfl
  | cons a rest ih => rw [List.foldl_cons, (h.perform policy a).1, ih]

/-- Whatever is done to the entry, in any order, it stays as it is and hands out no launch. -/
def Frozen (policy : StalePolicy) (e : Entry ε α) : Prop :=
  ∀ (acts : List (Act ε α)) (a : Act ε α),
    acts.foldl (Entry.perform policy) e = e ∧ e.handsOut policy a = none

theorem AtRest.frozen (h : e.AtRest) (policy : StalePolicy) : e.Frozen policy :=
  fun acts a => ⟨h.foldl_perform acts, (h.perform policy a).2⟩

theorem AtRest.leads {e' : Entry ε α} (h : e.AtRest) (leads : Leads policy e e') : e' = e := by
  induction leads with
  | refl => rfl
  | tail _ last ih =>
      obtain ⟨a, -, rfl⟩ := last
      rw [ih, (h.perform policy a).1]

end LiveCache.Entry
