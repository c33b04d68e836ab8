import LiveCache.Proofs.Entry.Soundness
import Mathlib.Logic.Relation

/-! # Results that come too late

The operations of an entry may come in any order, and a result may be handed in on behalf of any
launch at any time. A launch that was cancelled by a write never settles its entry. A launch that
was given up because nobody waited keeps its generation, so its result is discarded only until
somebody asks again: the next launch is of the same generation, and the entry cannot tell the two
apart.
-/

namespace LiveCache.Entry

variable {ε α : Type} {policy : StalePolicy} {e e' : Entry ε α}

/-- One operation on an entry. What a retired entry refuses leaves it as it is. -/
inductive Act (ε α : Type) where
  | subscribe
  | unsubscribe
  | snapshot
  | set (value : α)
  | expire
  | abandon
  | retire
  | abort
  | settle (launch : Launch) (outcome : Outcome ε α)
deriving DecidableEq, Repr

def perform (policy : StalePolicy) (e : Entry ε α) : Act ε α → Entry ε α
  | .subscribe => (e.subscribe?.map (·.1)).getD e
  | .unsubscribe => e.unsubscribe
  | .snapshot => (e.snapshot?.map (·.1)).getD e
  | .set value => ((e.set? policy value).map (·.1)).getD e
  | .expire => ((e.expire? policy).map (·.1)).getD e
  | .abandon => e.abandon.1
  | .retire => e.retire.1
  | .abort => e.abort
  | .settle l o => (e.settle policy l.generation o).1

/-- A result is handed in only on behalf of a launch that was handed out. -/
def Act.allowed (e : Entry ε α) : Act ε α → Prop
  | .settle l _ => l ∈ e.launches
  | _ => True

/-- The entry may come to another by operations in any order. -/
def Leads (policy : StalePolicy) : Entry ε α → Entry ε α → Prop :=
  Relation.ReflTransGen fun e e' => ∃ a : Act ε α, a.allowed e ∧ e' = e.perform policy a

/-- What holds after any operations: no generation comes back, and what is computed later was
computed before or is launched later. -/
structure Later (e e' : Entry ε α) : Prop where
  generation : e.generation ≤ e'.generation
  length : e.launches.length ≤ e'.launches.length
  computing : ∀ l previous, e'.phase = .computing l previous →
    (∃ previous, e.phase = .computing l previous) ∨ e.launches.length ≤ l.number

theorem Later.refl (e : Entry ε α) : Later e e where
  generation := Nat.le_refl _
  length := Nat.le_refl _
  computing := fun _ previous hp => .inl ⟨previous, hp⟩

theorem Later.trans {e₁ e₂ e₃ : Entry ε α} (h₁ : Later e₁ e₂) (h₂ : Later e₂ e₃) :
    Later e₁ e₃ where
  generation := Nat.le_trans h₁.generation h₂.generation
  length := Nat.le_trans h₁.length h₂.length
  computing := by
    intro l previous hp
    rcases h₂.computing l previous hp with ⟨previous', mid⟩ | new
    · exact h₁.computing l previous' mid
    · exact .inr (Nat.le_trans h₁.length new)

/-- A launch that is handed out has the next number. -/
theorem Change.later {handed : Option Launch} (h : Change e e' handed) (sound : e'.Sound policy) :
    Later e e' where
  generation := h.generation
  length := by
    rw [h.launches, List.length_append]
    exact Nat.le_add_left _ _
  computing := by
    intro l previous hp
    cases handed with
    | none => exact .inl ⟨previous, (h.kept rfl l previous hp).1⟩
    | some l' =>
        obtain ⟨-, -, previous', hp'⟩ := h.begun l' rfl
        rw [hp] at hp'
        cases hp'
        have numbered := sound.numbered
        rw [h.launches, Option.toList_some, List.singleton_append, List.length_cons,
          List.range_succ, List.map_cons, List.reverse_append] at numbered
        exact .inr (Nat.le_of_eq (List.cons.inj numbered).1.symm)

theorem later_of_same (generation : e'.generation = e.generation)
    (launches : e'.launches = e.launches) (phase : e'.phase = e.phase) : Later e e' where
  generation := Nat.le_of_eq generation.symm
  length := Nat.le_of_eq (by rw [launches])
  computing := by
    intro l previous hp
    rw [phase] at hp
    exact .inl ⟨previous, hp⟩

/-- Each operation keeps an entry sound, also one that comes late. -/
theorem Sound.perform (h : e.Sound policy) (a : Act ε α) :
    (e.perform policy a).Sound policy ∧ Later e (e.perform policy a) := by
  cases a with
  | subscribe =>
      cases present : e.retired with
      | true => simpa [Entry.perform, subscribe?, present] using ⟨h, Later.refl e⟩
      | false =>
          have sound := (h.demand present).with_subscribers (by simpa using present)
            (demand_not_idle e) (e.subscribers + 1)
          have shift := (shift_demand h).with_subscribers (e.subscribers + 1)
          simp only [Entry.perform, subscribe?_eq present, Option.map_some, Option.getD_some]
          rw [demand_with_subscribers]
          exact ⟨sound, shift.toChange.later sound⟩
  | unsubscribe =>
      exact ⟨h.unsubscribe, later_of_same rfl rfl rfl⟩
  | snapshot =>
      cases present : e.retired with
      | true => simpa [Entry.perform, snapshot?, present] using ⟨h, Later.refl e⟩
      | false =>
          simp only [Entry.perform, snapshot?_eq present, Option.map_some, Option.getD_some]
          exact ⟨h.demand present, (shift_demand h).toChange.later (h.demand present)⟩
  | set value =>
      cases present : e.retired with
      | true => simpa [Entry.perform, set?, present] using ⟨h, Later.refl e⟩
      | false =>
          simp only [Entry.perform, set?_eq present, Option.map_some, Option.getD_some]
          have sound := h.installed present value
          exact ⟨sound, (shift_installed policy e value).toChange.later sound⟩
  | expire =>
      cases present : e.retired with
      | true => simpa [Entry.perform, expire?, present] using ⟨h, Later.refl e⟩
      | false =>
          simp only [Entry.perform, expire?_eq present, Option.map_some, Option.getD_some]
          have sound := h.renewed present
          exact ⟨sound, (shift_renewed h present).toChange.later sound⟩
  | abandon =>
      by_cases unobserved : e.subscribers = 0
      · simp only [Entry.perform, abandon_eq unobserved]
        have sound := h.abandoned unobserved
        exact ⟨sound, (shift_abandoned e).toChange.later sound⟩
      · simp only [Entry.perform, abandon_of_observed unobserved]
        exact ⟨h, Later.refl e⟩
  | retire =>
      simp only [Entry.perform, Entry.retire]
      split
      next may =>
        obtain ⟨-, unobserved, calm⟩ := (retirable_iff e).1 may
        exact ⟨h.retired unobserved calm, later_of_same rfl rfl rfl⟩
      next => exact ⟨h, Later.refl e⟩
  | abort =>
      exact ⟨h.abort, later_of_same (abort_generation e) (abort_launches e) (abort_phase e)⟩
  | settle l o =>
      simp only [Entry.perform]
      cases owned : e.owns l.generation with
      | true =>
          obtain ⟨l', previous, hp, -⟩ := (owns_iff e _).1 owned
          have sound := h.concluded (h.present_of_computing hp) o
          rw [settle_of_owns owned]
          exact ⟨sound, (change_concluded policy e o).later sound⟩
      | false =>
          rw [h.settle_of_not_owns owned]
          exact ⟨h, Later.refl e⟩

theorem Leads.kept (leads : Leads policy e e') (h : e.Sound policy) :
    e'.Sound policy ∧ Later e e' := by
  induction leads with
  | refl => exact ⟨h, Later.refl e⟩
  | tail _ last ih =>
      obtain ⟨a, -, rfl⟩ := last
      obtain ⟨sound, later⟩ := ih
      obtain ⟨sound', next⟩ := sound.perform a
      exact ⟨sound', later.trans next⟩

/-- What a write stops is of an earlier generation than whatever is computed afterwards. -/
theorem Sound.settle_after_write (h : e.Sound policy) {l : Launch}
    {previous : Option (Outcome ε α)} (hp : e.phase = .computing l previous) {a : Act ε α}
    (write : (∃ value, a = .set value) ∨ a = .expire)
    (leads : Leads policy (e.perform policy a) e') (o : Outcome ε α) :
    e'.settle policy l.generation o = (e', .discarded none) := by
  have present := h.present_of_computing hp
  have advanced : (e.perform policy a).generation = e.generation + 1 := by
    rcases write with ⟨value, rfl⟩ | rfl
    · simp [Entry.perform, set?_eq present, Entry.installed]
    · simp [Entry.perform, expire?_eq present]
  obtain ⟨sound, later⟩ := leads.kept (h.perform a).1
  apply sound.settle_of_not_owns
  cases owned : e'.owns l.generation with
  | false => rfl
  | true =>
      obtain ⟨l', previous', hp', same⟩ := (owns_iff e' _).1 owned
      have now := (sound.newest l' previous' hp').2
      have then' := (h.newest l previous hp).2
      have grown := later.generation
      omega

/-- What was given up is not taken up again unless a later launch is of its generation. -/
theorem Sound.settle_after_abandon (h : e.Sound policy) {l : Launch}
    (unobserved : e.subscribers = 0) (leads : Leads policy e.abandon.1 e')
    (unrepeated : ∀ l' ∈ e'.launches, e.launches.length ≤ l'.number →
      l'.generation ≠ l.generation) (o : Outcome ε α) :
    e'.settle policy l.generation o = (e', .discarded none) := by
  rw [abandon_eq unobserved] at leads
  obtain ⟨sound, later⟩ := leads.kept (h.abandoned unobserved)
  apply sound.settle_of_not_owns
  cases owned : e'.owns l.generation with
  | false => rfl
  | true =>
      obtain ⟨l', previous, hp, same⟩ := (owns_iff e' _).1 owned
      have calm := abandoned_not_computing e
      rcases later.computing l' previous hp with ⟨previous', before⟩ | new
      · simp [before, Phase.isComputing] at calm
      · rw [(shift_abandoned e).launches] at new
        exact absurd same (unrepeated l' (sound.mem_of_computing hp) new)

/-- A cancelled launch settles nothing, unless it was given up for want of readers and its
generation was launched again. A result is accepted exactly on behalf of the generation that is
computed, and that is the one of the launch that was handed out last. -/
theorem cancelled_launch_discarded (reached : Leads policy {} e) :
    (∀ l previous, e.phase = .computing l previous → ∀ a : Act ε α,
      (∃ value, a = .set value) ∨ a = .expire → ∀ e' o, Leads policy (e.perform policy a) e' →
      e'.settle policy l.generation o = (e', .discarded none)) ∧
    (∀ l previous, e.phase = .computing l previous → e.subscribers = 0 →
      ∀ e' o, Leads policy (e.perform policy .abandon) e' →
      (∀ l' ∈ e'.launches, e.launches.length ≤ l'.number → l'.generation ≠ l.generation) →
      e'.settle policy l.generation o = (e', .discarded none)) ∧
    (∀ (l : Launch) (o : Outcome ε α), (e.settle policy l.generation o).2 = .accepted ↔
      ∃ l' previous, e.phase = .computing l' previous ∧ e.launches.head? = some l' ∧
        l'.generation = l.generation) := by
  obtain ⟨sound, -⟩ := reached.kept sound_fresh
  refine ⟨?_, ?_, ?_⟩
  · intro l previous hp a write e' o leads
    exact sound.settle_after_write hp write leads o
  · intro l previous _ unobserved e' o leads unrepeated
    exact sound.settle_after_abandon unobserved leads unrepeated o
  · intro l o
    cases owned : e.owns l.generation with
    | true =>
        obtain ⟨l', previous, hp, same⟩ := (owns_iff e _).1 owned
        rw [settle_of_owns owned]
        exact ⟨fun _ => ⟨l', previous, hp, (sound.newest l' previous hp).1, same⟩, fun _ => rfl⟩
    | false =>
        rw [sound.settle_of_not_owns owned]
        constructor
        · intro accepted
          cases accepted
        · rintro ⟨l', previous, hp, -, same⟩
          rw [(owns_iff e _).2 ⟨l', previous, hp, same⟩] at owned
          cases owned

/-- A reader comes, the key is set, and the result of the computation comes late. -/
theorem cancelled_launch_discarded_set :
    let e : Entry Nat Nat := ({} : Entry Nat Nat).perform .replay .subscribe
    let later := e.perform .replay (.set 5)
    e.phase = .computing ⟨0, 0⟩ none ∧
      later.settle .replay 0 (.success 7) = (later, .discarded none) := by
  intro e later
  have reached : Leads .replay {} e := .single ⟨.subscribe, trivial, rfl⟩
  have phase : e.phase = .computing ⟨0, 0⟩ none := by decide
  exact ⟨phase, (cancelled_launch_discarded reached).1 ⟨0, 0⟩ none phase (.set 5) (.inl ⟨5, rfl⟩)
    later (.success 7) .refl⟩

/-- The only reader goes and the computation is given up. When another reader asks for the key, a
result of the computation that was given up is accepted. -/
theorem abandoned_launch_accepted :
    let given : Entry Nat Nat :=
      ((({} : Entry Nat Nat).perform .replay .subscribe).perform .replay .unsubscribe).perform
        .replay .abandon
    let asked := given.perform .replay .snapshot
    0 ∈ given.aborted ∧ given.phase = .stale none ∧ asked.launches = [⟨1, 0⟩, ⟨0, 0⟩] ∧
      (asked.settle .replay 0 (.success 7)).2 = .accepted ∧
      (asked.settle .replay 0 (.success 7)).1.phase = .settled (.success 7) := by
  decide

end LiveCache.Entry
