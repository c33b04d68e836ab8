import LiveCache.Entry
import Mathlib.Data.List.Nodup

/-! # What every operation keeps of an entry

`Sound` holds of a fresh entry and is kept by each operation in any order, also by a result that is
handed in late. `Shift` says what an operation may do to the computations of an entry: it hands out
at most one launch, which is the one computed from then on, and a computation that does not go on
was told to stop. Only an accepted result, which is a `Change`, ends a computation without that.
-/

namespace LiveCache

namespace Phase

variable {ε α : Type}

/-- Nothing is current and nobody computes anything. -/
def isIdle : Phase ε α → Bool
  | empty => true
  | stale _ => true
  | _ => false

/-- The outcome that the next computation will replace. -/
def previous : Phase ε α → Option (Outcome ε α)
  | empty => none
  | computing _ previous => previous
  | settled o => some o
  | stale previous => previous

theorem view_computing_previous (policy : StalePolicy) (p : Phase ε α) (l : Launch)
    (h : p.isIdle = true) : (computing l p.previous).view policy = p.view policy := by
  cases p with
  | empty => cases policy <;> rfl
  | stale previous => rfl
  | computing l' previous => simp [isIdle] at h
  | settled o => simp [isIdle] at h

theorem settled?_view (policy : StalePolicy) (p : Phase ε α) (o : Outcome ε α) :
    (p.view policy).settled? = some o ↔ p = settled o := by
  cases p with
  | settled o' => simp [view]
  | empty => simp [view, View.settled?]
  | computing l previous =>
      cases policy <;> cases previous <;> simp [view, View.ofPrevious, View.settled?,
        Outcome.withProgress]
  | stale previous =>
      cases policy <;> cases previous <;> simp [view, View.ofPrevious, View.settled?,
        Outcome.withProgress]

end Phase

namespace Entry

variable {ε α : Type} {policy : StalePolicy} {e e' : Entry ε α}

/-! ## The parts that an operation leaves alone -/

section Parts

variable (e)

@[simp] theorem publish_phase : (e.publish policy).phase = e.phase := rfl

@[simp] theorem publish_generation : (e.publish policy).generation = e.generation := rfl

@[simp] theorem publish_subscribers : (e.publish policy).subscribers = e.subscribers := rfl

@[simp] theorem publish_retired : (e.publish policy).retired = e.retired := rfl

@[simp] theorem publish_launches : (e.publish policy).launches = e.launches := rfl

@[simp] theorem publish_aborted : (e.publish policy).aborted = e.aborted := rfl

@[simp] theorem abort_phase : e.abort.phase = e.phase := by unfold abort; split <;> rfl

@[simp] theorem abort_generation : e.abort.generation = e.generation := by
  unfold abort; split <;> rfl

@[simp] theorem abort_subscribers : e.abort.subscribers = e.subscribers := by
  unfold abort; split <;> rfl

@[simp] theorem abort_retired : e.abort.retired = e.retired := by unfold abort; split <;> rfl

@[simp] theorem abort_launches : e.abort.launches = e.launches := by unfold abort; split <;> rfl

@[simp] theorem abort_channel : e.abort.channel = e.channel := by unfold abort; split <;> rfl

theorem abort_of_computing {l : Launch} {previous : Option (Outcome ε α)}
    (h : e.phase = .computing l previous) : e.abort.aborted = l.number :: e.aborted := by
  simp [abort, h]

theorem aborted_subset_abort : e.aborted ⊆ e.abort.aborted := by
  unfold abort
  split
  · exact List.subset_cons_self _ _
  · exact List.Subset.refl _

@[simp] theorem unsubscribe_subscribers : e.unsubscribe.subscribers = e.subscribers - 1 := rfl

end Parts

/-! ## Soundness -/

structure Sound (policy : StalePolicy) (e : Entry ε α) : Prop where
  /-- The latest view is the one of the phase. -/
  shown : e.latest = e.phase.view policy
  /-- Launches are numbered in the order in which they were made. -/
  numbered : e.launches.map (·.number) = (List.range e.launches.length).reverse
  /-- What is computed is the newest launch, on behalf of the present generation. -/
  newest : ∀ l previous, e.phase = .computing l previous →
    e.launches.head? = some l ∧ l.generation = e.generation
  bounded : ∀ l ∈ e.launches, l.generation ≤ e.generation
  stopped : ∀ n ∈ e.aborted, n < e.launches.length
  /-- An observed entry is never idle. -/
  attended : 0 < e.subscribers → e.phase.isIdle = false
  resting : e.retired = true → e.subscribers = 0 ∧ e.phase.isComputing = false

theorem sound_fresh : ({} : Entry ε α).Sound policy where
  shown := rfl
  numbered := rfl
  newest := by simp
  bounded := by simp
  stopped := by simp
  attended := by simp
  resting := by simp

theorem Sound.number_lt (h : e.Sound policy) {l : Launch} (hl : l ∈ e.launches) :
    l.number < e.launches.length := by
  have mem : l.number ∈ e.launches.map (·.number) := List.mem_map_of_mem hl
  rw [h.numbered] at mem
  simpa using mem

theorem Sound.mem_of_computing (h : e.Sound policy) {l : Launch}
    {previous : Option (Outcome ε α)} (hp : e.phase = .computing l previous) :
    l ∈ e.launches := by
  have head := (h.newest l previous hp).1
  exact List.mem_of_mem_head? (by simp [head])

/-- A reader is given a current outcome only by a settled entry. -/
theorem Sound.settled?_latest (h : e.Sound policy) (o : Outcome ε α) :
    e.latest.settled? = some o ↔ e.phase = .settled o := by
  rw [h.shown]
  exact Phase.settled?_view policy e.phase o

/-! ## What an operation does to the computations -/

/-- At most one launch is handed out, and what is computed afterwards was not told to stop. -/
structure Change (e e' : Entry ε α) (handed : Option Launch) : Prop where
  launches : e'.launches = handed.toList ++ e.launches
  generation : e.generation ≤ e'.generation
  aborted : e.aborted ⊆ e'.aborted
  /-- A launch that is handed out is computed. -/
  begun : ∀ l, handed = some l → l.generation = e'.generation ∧ l.number ∉ e'.aborted ∧
    ∃ previous, e'.phase = .computing l previous
  /-- Without one, what is computed was computed before, and has not been told to stop. -/
  kept : handed = none → ∀ l previous, e'.phase = .computing l previous →
    e.phase = .computing l previous ∧ (l.number ∈ e'.aborted → l.number ∈ e.aborted)

/-- A change that ends a computation only by telling it to stop. -/
structure Shift (e e' : Entry ε α) (handed : Option Launch) : Prop
    extends Change e e' handed where
  ended : ∀ l previous, e.phase = .computing l previous →
    e'.phase = .computing l previous ∨ l.number ∈ e'.aborted

theorem Shift.refl (e : Entry ε α) : Shift e e none where
  launches := rfl
  generation := Nat.le_refl _
  aborted := List.Subset.refl _
  begun := by simp
  kept := fun _ _ _ h => ⟨h, id⟩
  ended := fun _ _ h => .inl h

theorem Shift.trans {e₁ e₂ e₃ : Entry ε α} {handed : Option Launch} (h₁ : Shift e₁ e₂ none)
    (h₂ : Shift e₂ e₃ handed) : Shift e₁ e₃ handed where
  launches := by rw [h₂.launches, h₁.launches]; rfl
  generation := Nat.le_trans h₁.generation h₂.generation
  aborted := List.Subset.trans h₁.aborted h₂.aborted
  begun := h₂.begun
  kept := by
    intro none l previous hp
    obtain ⟨mid, spared⟩ := h₂.kept none l previous hp
    obtain ⟨first, spared'⟩ := h₁.kept rfl l previous mid
    exact ⟨first, fun hl => spared' (spared hl)⟩
  ended := by
    intro l previous hp
    rcases h₁.ended l previous hp with mid | mid
    · exact h₂.ended l previous mid
    · exact .inr (h₂.aborted mid)

/-! ## Demand -/

/-- Demand launches a computation in an idle entry and does nothing else. -/
theorem demand_eq (e : Entry ε α) :
    e.demand = if e.phase.isIdle then e.launch e.phase.previous else (e, none) := by
  unfold demand
  cases e.phase <;> rfl

theorem Sound.launch (h : e.Sound policy) (idle : e.phase.isIdle = true)
    (present : e.retired = false) : (e.launch e.phase.previous).1.Sound policy where
  shown := by
    have shown := h.shown
    rw [← Phase.view_computing_previous policy e.phase _ idle] at shown
    exact shown
  numbered := by simp [Entry.launch, h.numbered, List.range_succ]
  newest := by
    intro l previous hp
    simp only [Entry.launch, Phase.computing.injEq] at hp
    simp [Entry.launch, ← hp.1]
  bounded := by
    intro l hl
    rcases List.mem_cons.1 hl with rfl | hl
    · exact Nat.le_refl _
    · exact h.bounded l hl
  stopped := fun n hn => Nat.lt_succ_of_lt (h.stopped n hn)
  attended := fun _ => rfl
  resting := by
    intro retired
    rw [show (e.launch e.phase.previous).1.retired = e.retired from rfl, present] at retired
    cases retired

theorem shift_launch (h : e.Sound policy) (idle : e.phase.isIdle = true) :
    Shift e (e.launch e.phase.previous).1 (e.launch e.phase.previous).2 where
  launches := rfl
  generation := Nat.le_refl _
  aborted := List.Subset.refl _
  begun := by
    intro l hl
    cases hl
    refine ⟨rfl, ?_, _, rfl⟩
    intro hn
    exact Nat.lt_irrefl _ (h.stopped _ hn)
  kept := by simp [Entry.launch]
  ended := by
    intro l previous hp
    rw [hp] at idle
    cases idle

theorem Sound.demand (h : e.Sound policy) (present : e.retired = false) :
    e.demand.1.Sound policy := by
  rw [demand_eq]
  split
  next idle => exact h.launch idle present
  next => exact h

theorem shift_demand (h : e.Sound policy) : Shift e e.demand.1 e.demand.2 := by
  rw [demand_eq]
  split
  next idle => exact shift_launch h idle
  next => exact Shift.refl e

theorem demand_not_idle (e : Entry ε α) : e.demand.1.phase.isIdle = false := by
  rw [demand_eq]
  split
  next => rfl
  next h => simpa using h

@[simp] theorem demand_subscribers (e : Entry ε α) : e.demand.1.subscribers = e.subscribers := by
  rw [demand_eq]; split <;> rfl

@[simp] theorem demand_retired (e : Entry ε α) : e.demand.1.retired = e.retired := by
  rw [demand_eq]; split <;> rfl

@[simp] theorem demand_generation (e : Entry ε α) : e.demand.1.generation = e.generation := by
  rw [demand_eq]; split <;> rfl

@[simp] theorem demand_channel (e : Entry ε α) : e.demand.1.channel = e.channel := by
  rw [demand_eq]; split <;> rfl

/-- Demand never touches a current outcome. -/
theorem demand_settled_iff (e : Entry ε α) (o : Outcome ε α) :
    e.demand.1.phase = .settled o ↔ e.phase = .settled o := by
  rw [demand_eq]
  cases hp : e.phase <;> simp [Phase.isIdle, Entry.launch, hp]

/-! ## Subscribing -/

theorem subscribe?_eq (present : e.retired = false) :
    e.subscribe? = some ({ e with subscribers := e.subscribers + 1 }.demand) := by
  simp [subscribe?, present]

theorem snapshot?_eq (present : e.retired = false) : e.snapshot? = some e.demand := by
  simp [snapshot?, present]

/-- Demand does not look at the subscribers. -/
theorem demand_with_subscribers (e : Entry ε α) (n : Nat) :
    { e with subscribers := n }.demand = ({ e.demand.1 with subscribers := n }, e.demand.2) := by
  rw [demand_eq, demand_eq]
  dsimp only
  split <;> rfl

/-- After demand an entry may have any number of subscribers. -/
theorem Sound.with_subscribers (h : e.Sound policy) (present : e.retired = false)
    (busy : e.phase.isIdle = false) (n : Nat) : { e with subscribers := n }.Sound policy where
  shown := h.shown
  numbered := h.numbered
  newest := h.newest
  bounded := h.bounded
  stopped := h.stopped
  attended := fun _ => busy
  resting := by
    intro retired
    dsimp only at retired
    rw [present] at retired
    cases retired

theorem Shift.with_subscribers {handed : Option Launch} (h : Shift e e' handed) (n : Nat) :
    Shift e { e' with subscribers := n } handed where
  launches := h.launches
  generation := h.generation
  aborted := h.aborted
  begun := h.begun
  kept := h.kept
  ended := h.ended

theorem Sound.unsubscribe (h : e.Sound policy) : e.unsubscribe.Sound policy where
  shown := h.shown
  numbered := h.numbered
  newest := h.newest
  bounded := h.bounded
  stopped := h.stopped
  attended := by
    intro observed
    exact h.attended (Nat.lt_of_lt_of_le observed (Nat.sub_le _ _))
  resting := by
    intro retired
    obtain ⟨none, rest⟩ := h.resting retired
    exact ⟨by simp [none], rest⟩

/-! ## Writing -/

/-- The entry that a set leaves. -/
def installed (policy : StalePolicy) (e : Entry ε α) (value : α) : Entry ε α :=
  { e.abort with
    phase := .settled (.success value), generation := e.generation + 1 }.publish policy

theorem set?_eq (present : e.retired = false) (value : α) :
    e.set? policy value =
      some (e.installed policy value, ⟨e.generation + 1, e.phase.isComputing, none⟩) := by
  simp [set?, present, installed]

/-- Whoever is told to stop is known. -/
theorem Sound.abort_lt (h : e.Sound policy) : ∀ n ∈ e.abort.aborted, n < e.launches.length := by
  intro n hn
  cases hp : e.phase with
  | computing l previous =>
      rw [abort_of_computing e hp] at hn
      rcases List.mem_cons.1 hn with rfl | hn
      · exact h.number_lt (h.mem_of_computing hp)
      · exact h.stopped n hn
  | empty => exact h.stopped n (by simpa [abort, hp] using hn)
  | settled o => exact h.stopped n (by simpa [abort, hp] using hn)
  | stale previous => exact h.stopped n (by simpa [abort, hp] using hn)

/-- Whatever is computed is told to stop. -/
theorem abort_ended {l : Launch} {previous : Option (Outcome ε α)}
    (hp : e.phase = .computing l previous) : l.number ∈ e.abort.aborted := by
  rw [abort_of_computing e hp]
  exact List.mem_cons_self

theorem Sound.installed (h : e.Sound policy) (present : e.retired = false) (value : α) :
    (e.installed policy value).Sound policy where
  shown := rfl
  numbered := by simpa [Entry.installed] using h.numbered
  newest := by simp [Entry.installed]
  bounded := by
    intro l hl
    have := h.bounded l (by simpa [Entry.installed] using hl)
    exact Nat.le_succ_of_le this
  stopped := by simpa [Entry.installed] using h.abort_lt
  attended := fun _ => rfl
  resting := by simp [Entry.installed, present]

theorem shift_installed (policy : StalePolicy) (e : Entry ε α) (value : α) :
    Shift e (e.installed policy value) none where
  launches := by simp [installed]
  generation := Nat.le_succ _
  aborted := by simpa [installed] using aborted_subset_abort e
  begun := by simp
  kept := by simp [installed]
  ended := fun _ _ hp => .inr (by simpa [installed] using abort_ended hp)

@[simp] theorem outdate_subscribers (e : Entry ε α) :
    (e.outdate policy).subscribers = e.subscribers := by
  unfold outdate; split <;> simp

@[simp] theorem outdate_retired (e : Entry ε α) : (e.outdate policy).retired = e.retired := by
  unfold outdate; split <;> simp

@[simp] theorem outdate_launches (e : Entry ε α) : (e.outdate policy).launches = e.launches := by
  unfold outdate; split <;> simp

theorem outdate_aborted (e : Entry ε α) : (e.outdate policy).aborted = e.abort.aborted := by
  unfold outdate abort; split <;> simp_all

theorem outdate_idle (policy : StalePolicy) (e : Entry ε α) :
    (e.outdate policy).phase.isIdle = true := by
  unfold outdate; split <;> simp_all [Phase.isIdle]

/-- The end of a computation keeps the view, and the end of a current outcome is published. -/
theorem Sound.outdate_latest (h : e.Sound policy) :
    (e.outdate policy).latest = (e.outdate policy).phase.view policy := by
  have shown := h.shown
  unfold outdate
  split
  next => exact shown
  next => exact shown
  next l previous hp =>
    rw [hp] at shown
    simpa [latest, Phase.view] using shown
  next => rfl

/-- The entry that an expiration leaves to be computed anew, if somebody observes it. -/
def outdated (policy : StalePolicy) (e : Entry ε α) : Entry ε α :=
  { e.outdate policy with generation := e.generation + 1 }

/-- The entry that an expiration leaves, and the launch that it causes. -/
def renewed (policy : StalePolicy) (e : Entry ε α) : Entry ε α × Option Launch :=
  if e.subscribers = 0 then (e.outdated policy, none) else (e.outdated policy).demand

theorem expire?_eq (present : e.retired = false) :
    e.expire? policy = some ((e.renewed policy).1,
      ⟨e.generation + 1, e.phase.isComputing, (e.renewed policy).2⟩) := by
  simp [expire?, present, renewed, outdated]

/-- But for its subscribers an outdated entry is sound. -/
theorem Sound.outdated (h : e.Sound policy) (present : e.retired = false) :
    { e.outdated policy with subscribers := 0 }.Sound policy where
  shown := h.outdate_latest
  numbered := by simpa [Entry.outdated] using h.numbered
  newest := by
    intro l previous hp
    have idle := outdate_idle policy e
    rw [show (e.outdate policy).phase = .computing l previous from hp] at idle
    cases idle
  bounded := by
    intro l hl
    have := h.bounded l (by simpa [Entry.outdated] using hl)
    exact Nat.le_succ_of_le this
  stopped := by
    intro n hn
    have := h.abort_lt n (by simpa [Entry.outdated, outdate_aborted] using hn)
    simpa [Entry.outdated] using this
  attended := by simp
  resting := by simp [Entry.outdated, present]

theorem shift_outdated (e : Entry ε α) : Shift e (e.outdated policy) none where
  launches := by simp [outdated]
  generation := Nat.le_succ _
  aborted := by simpa [outdated, outdate_aborted] using aborted_subset_abort e
  begun := by simp
  kept := by
    intro _ l previous hp
    have idle := outdate_idle policy e
    rw [show (e.outdate policy).phase = .computing l previous from hp] at idle
    cases idle
  ended := fun _ _ hp => .inr (by simpa [outdated, outdate_aborted] using abort_ended hp)

/-- What is outdated and observed is launched again. -/
theorem outdated_demand (e : Entry ε α) :
    (e.outdated policy).demand =
      ({ ({ e.outdated policy with subscribers := 0 } : Entry ε α).demand.1 with
          subscribers := e.subscribers },
        ({ e.outdated policy with subscribers := 0 } : Entry ε α).demand.2) := by
  rw [← demand_with_subscribers]
  congr 1
  simp [outdated]

theorem Sound.renewed (h : e.Sound policy) (present : e.retired = false) :
    (e.renewed policy).1.Sound policy := by
  have outdated := h.outdated present
  unfold Entry.renewed
  split
  next none =>
    rw [show ({ e.outdated policy with subscribers := 0 } : Entry ε α) = e.outdated policy by
      simp [Entry.outdated, ← none]] at outdated
    exact outdated
  next =>
    rw [outdated_demand]
    have present' : (e.outdated policy).retired = false := by simp [Entry.outdated, present]
    exact (outdated.demand present').with_subscribers (by simpa using present')
      (demand_not_idle _) _

theorem shift_renewed (h : e.Sound policy) (present : e.retired = false) :
    Shift e (e.renewed policy).1 (e.renewed policy).2 := by
  unfold renewed
  split
  next => exact shift_outdated e
  next =>
    rw [outdated_demand]
    have demanded := shift_demand (h.outdated present)
    have first : Shift e { e.outdated policy with subscribers := 0 } none :=
      (shift_outdated e).with_subscribers 0
    exact (first.trans demanded).with_subscribers e.subscribers

@[simp] theorem renewed_subscribers (e : Entry ε α) :
    (e.renewed policy).1.subscribers = e.subscribers := by
  unfold renewed; split <;> simp [outdated]

@[simp] theorem renewed_retired (e : Entry ε α) :
    (e.renewed policy).1.retired = e.retired := by
  unfold renewed; split <;> simp [outdated]

@[simp] theorem renewed_generation (e : Entry ε α) :
    (e.renewed policy).1.generation = e.generation + 1 := by
  unfold renewed; split <;> simp [outdated]

/-- An expiration leaves no current outcome. -/
theorem renewed_not_settled (e : Entry ε α) (o : Outcome ε α) :
    (e.renewed policy).1.phase ≠ .settled o := by
  have idle : (e.outdated policy).phase.isIdle = true := outdate_idle policy e
  have unsettled : (e.outdated policy).phase ≠ .settled o := by
    intro hp
    rw [hp] at idle
    cases idle
  unfold renewed
  split
  next => exact unsettled
  next => rwa [ne_eq, demand_settled_iff]

/-! ## Results -/

theorem owns_iff (e : Entry ε α) (generation : Nat) :
    e.owns generation = true ↔
      ∃ l previous, e.phase = .computing l previous ∧ l.generation = generation := by
  unfold owns
  cases e.phase <;> simp

/-- The entry that an accepted result leaves. -/
def concluded (policy : StalePolicy) (e : Entry ε α) (o : Outcome ε α) : Entry ε α :=
  { e with phase := .settled o }.publish policy

theorem settle_of_owns {generation : Nat} (owned : e.owns generation = true) (o : Outcome ε α) :
    e.settle policy generation o = (e.concluded policy o, .accepted) := by
  simp [settle, owned, concluded]

/-- A result that is not accepted leaves the entry as it is: an observed entry is never idle, so
nothing has to be launched anew. -/
theorem Sound.settle_of_not_owns (h : e.Sound policy) {generation : Nat}
    (disowned : e.owns generation = false) (o : Outcome ε α) :
    e.settle policy generation o = (e, .discarded none) := by
  have calm : ¬ (0 < e.subscribers ∧ e.retired = false ∧ e.isStale = true) := by
    rintro ⟨observed, -, stale⟩
    have busy := h.attended observed
    unfold isStale at stale
    cases hp : e.phase <;> simp [hp, Phase.isIdle] at stale busy
  simp only [settle, disowned, Bool.false_eq_true, if_false, calm]

theorem Sound.present_of_computing (h : e.Sound policy) {l : Launch}
    {previous : Option (Outcome ε α)} (hp : e.phase = .computing l previous) :
    e.retired = false := by
  cases retired : e.retired with
  | false => rfl
  | true =>
      have rest := (h.resting retired).2
      simp [hp, Phase.isComputing] at rest

/-- An accepted result ends a computation that nobody has told to stop. -/
theorem change_concluded (policy : StalePolicy) (e : Entry ε α) (o : Outcome ε α) :
    Change e (e.concluded policy o) none where
  launches := rfl
  generation := Nat.le_refl _
  aborted := List.Subset.refl _
  begun := by simp
  kept := by simp [concluded]

theorem Sound.concluded (h : e.Sound policy) (present : e.retired = false) (o : Outcome ε α) :
    (e.concluded policy o).Sound policy where
  shown := rfl
  numbered := h.numbered
  newest := by simp [Entry.concluded]
  bounded := h.bounded
  stopped := h.stopped
  attended := fun _ => rfl
  resting := by simp [Entry.concluded, present]

/-! ## Ending -/

/-- The entry whose computation was given up. -/
def abandoned (e : Entry ε α) : Entry ε α :=
  match e.phase with
  | .computing _ previous => { e.abort with phase := .stale previous }
  | _ => e

theorem abandon_eq (unobserved : e.subscribers = 0) :
    e.abandon.1 = e.abandoned := by
  unfold abandon abandoned
  cases e.phase <;> simp [unobserved]

theorem abandon_of_observed (observed : e.subscribers ≠ 0) : e.abandon = (e, none) := by
  unfold abandon
  cases e.phase <;> simp [observed]

theorem Sound.abandoned (h : e.Sound policy) (unobserved : e.subscribers = 0) :
    e.abandoned.Sound policy := by
  unfold Entry.abandoned
  split
  next l previous hp =>
    have shown := h.shown
    rw [hp] at shown
    exact {
      shown := by simpa [latest, Phase.view] using shown
      numbered := by simpa using h.numbered
      newest := by simp
      bounded := by simpa using h.bounded
      stopped := by simpa using h.abort_lt
      attended := by simp [unobserved]
      resting := by simp [unobserved, Phase.isComputing] }
  next => exact h

theorem shift_abandoned (e : Entry ε α) : Shift e e.abandoned none := by
  unfold abandoned
  split
  next l previous hp =>
    exact {
      launches := by simp
      generation := by simp
      aborted := aborted_subset_abort e
      begun := by simp
      kept := by simp
      ended := fun l' previous' hp' => .inr (abort_ended hp') }
  next => exact Shift.refl e

@[simp] theorem abandoned_subscribers (e : Entry ε α) :
    e.abandoned.subscribers = e.subscribers := by
  unfold abandoned; split <;> simp

@[simp] theorem abandoned_retired (e : Entry ε α) : e.abandoned.retired = e.retired := by
  unfold abandoned; split <;> simp

theorem abandoned_not_computing (e : Entry ε α) : e.abandoned.phase.isComputing = false := by
  unfold abandoned
  split
  next => rfl
  next h => cases hp : e.phase <;> simp_all [Phase.isComputing]

theorem retirable_iff (e : Entry ε α) :
    e.retirable = true ↔
      e.retired = false ∧ e.subscribers = 0 ∧ e.phase.isComputing = false := by
  simp [retirable, and_assoc]

theorem Sound.retired (h : e.Sound policy) (unobserved : e.subscribers = 0)
    (calm : e.phase.isComputing = false) : { e with retired := true }.Sound policy where
  shown := h.shown
  numbered := h.numbered
  newest := h.newest
  bounded := h.bounded
  stopped := h.stopped
  attended := h.attended
  resting := fun _ => ⟨unobserved, calm⟩

/-- At the end of the cache a computation is stopped, and the phase is left as it is. -/
theorem Sound.abort (h : e.Sound policy) : e.abort.Sound policy where
  shown := by simpa [latest] using h.shown
  numbered := by simpa using h.numbered
  newest := by simpa using h.newest
  bounded := by simpa using h.bounded
  stopped := by simpa using h.abort_lt
  attended := by simpa using h.attended
  resting := by simpa using h.resting

/-! ## Generations -/

/-- No generation was launched twice, and one at which nothing was launched is at hand when the
entry is idle. -/
structure Unrepeated (e : Entry ε α) : Prop where
  ordered : e.launches.Pairwise fun l l' => l'.generation < l.generation
  fresh : e.phase.isIdle = true → ∀ l ∈ e.launches, l.generation < e.generation

theorem unrepeated_fresh : ({} : Entry ε α).Unrepeated where
  ordered := List.Pairwise.nil
  fresh := by simp

theorem Unrepeated.demand (h : e.Unrepeated) : e.demand.1.Unrepeated := by
  rw [demand_eq]
  split
  next idle =>
    exact {
      ordered := List.Pairwise.cons (h.fresh idle) h.ordered
      fresh := by simp [Entry.launch, Phase.isIdle] }
  next => exact h

theorem Unrepeated.with_subscribers (h : e.Unrepeated) (n : Nat) :
    { e with subscribers := n }.Unrepeated := ⟨h.ordered, h.fresh⟩

theorem Unrepeated.installed (h : e.Unrepeated) (value : α) :
    (e.installed policy value).Unrepeated where
  ordered := by simpa [Entry.installed] using h.ordered
  fresh := by simp [Entry.installed, Phase.isIdle]

/-- An expiration makes a generation at which nothing was launched. -/
theorem Unrepeated.outdated (h : e.Unrepeated) (sound : e.Sound policy) :
    (e.outdated policy).Unrepeated where
  ordered := by simpa [Entry.outdated] using h.ordered
  fresh := by
    intro _ l hl
    have := sound.bounded l (by simpa [Entry.outdated] using hl)
    exact Nat.lt_succ_of_le this

theorem Unrepeated.renewed (h : e.Unrepeated) (sound : e.Sound policy) :
    (e.renewed policy).1.Unrepeated := by
  unfold Entry.renewed
  split
  next => exact h.outdated sound
  next => exact (h.outdated sound).demand

theorem Unrepeated.abort (h : e.Unrepeated) : e.abort.Unrepeated where
  ordered := by simpa using h.ordered
  fresh := by simpa using h.fresh

theorem Unrepeated.concluded (h : e.Unrepeated) (o : Outcome ε α) :
    (e.concluded policy o).Unrepeated where
  ordered := h.ordered
  fresh := by simp [Entry.concluded, Phase.isIdle]

end Entry

end LiveCache
