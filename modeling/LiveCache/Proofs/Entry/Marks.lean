import LiveCache.Activity
import LiveCache.Proofs.Entry.Soundness

/-! # What is written down about an entry

A `Mark` is an event of an entry together with the launch that it is about, which the event itself
does not tell. The marks of an operation account for what it has done: as many computations as were
launched are closed or still under way, and the generation has grown with each write.
-/

namespace LiveCache

inductive Mark where
  | computing (l : Launch)
  | settled (l : Launch)
  | cancelled (l : Launch)
  | discarded (l : Launch)
  | faulted (l : Launch) (text : String)
  | installed (generation : Nat)
  | expired (generation : Nat)
  | reclaimed (generation : Nat)
deriving DecidableEq, Repr

namespace Mark

/-- The event as which a mark is logged. -/
def event : Mark → Event
  | computing l => ⟨.computing, l.generation⟩
  | settled l => ⟨.settled, l.generation⟩
  | cancelled l => ⟨.cancelled, l.generation⟩
  | discarded l => ⟨.discarded, l.generation⟩
  | faulted l text => ⟨.faulted text, l.generation⟩
  | installed generation => ⟨.installed, generation⟩
  | expired generation => ⟨.expired, generation⟩
  | reclaimed generation => ⟨.reclaimed, generation⟩

/-- The mark of a write, which starts a new generation. -/
def writes : Mark → Bool
  | installed _ => true
  | expired _ => true
  | _ => false

def removes : Mark → Bool
  | reclaimed _ => true
  | _ => false

/-- The mark is not about a result. -/
def isRoutine : Mark → Bool
  | settled _ => false
  | discarded _ => false
  | faulted _ _ => false
  | _ => true

/-- The mark of a launch, of a stopped computation or of a write. -/
def isPlain (m : Mark) : Bool := m.isRoutine && !m.removes

theorem isPlain_iff (m : Mark) : m.isPlain = true ↔ m.isRoutine = true ∧ m.removes = false := by
  simp [isPlain]

end Mark

namespace Entry

variable {ε α : Type} {policy : StalePolicy} {e e' e'' : Entry ε α} {marks marks' : List Mark}

/-- The launch that the entry computes, if it computes one. -/
def underway (e : Entry ε α) : List Launch :=
  match e.phase with
  | .computing l _ => [l]
  | _ => []

theorem underway_of_computing {l : Launch} {previous : Option (Outcome ε α)}
    (hp : e.phase = .computing l previous) : e.underway = [l] := by
  simp [underway, hp]

theorem underway_of_calm (calm : e.phase.isComputing = false) : e.underway = [] := by
  unfold underway
  split
  next hp => simp [hp, Phase.isComputing] at calm
  next => rfl

theorem mem_underway {l : Launch} :
    l ∈ e.underway ↔ ∃ previous, e.phase = .computing l previous := by
  unfold underway
  cases e.phase <;> simp [eq_comm]

/-- What an operation has made of an entry is what its marks say. -/
structure Balance (e e' : Entry ε α) (marks : List Mark) : Prop where
  opened : ∀ l, marks.count (.computing l) + e.launches.count l = e'.launches.count l
  closed : ∀ l, marks.count (.settled l) + marks.count (.cancelled l) + e'.underway.count l =
    e.underway.count l + marks.count (.computing l)
  grown : e.generation + marks.countP Mark.writes = e'.generation
  /-- No launch is handed out twice. -/
  fresh : ∀ l, .computing l ∈ marks → l ∉ e.launches

theorem balance_of_same (launches : e'.launches = e.launches) (underway : e'.underway = e.underway)
    (generation : e'.generation = e.generation) : Balance e e' [] where
  opened := by simp [launches]
  closed := by simp [underway]
  grown := by simp [generation]
  fresh := by simp

theorem Balance.trans (h₁ : Balance e e' marks) (h₂ : Balance e' e'' marks') :
    Balance e e'' (marks ++ marks') where
  opened := by
    intro l
    have first := h₁.opened l
    have second := h₂.opened l
    rw [List.count_append]
    omega
  closed := by
    intro l
    have first := h₁.closed l
    have second := h₂.closed l
    simp only [List.count_append]
    omega
  grown := by
    rw [List.countP_append, ← h₂.grown, ← h₁.grown, Nat.add_assoc]
  fresh := by
    intro l mem old
    rcases List.mem_append.1 mem with mem | mem
    · exact h₁.fresh l mem old
    · refine h₂.fresh l mem (List.count_pos_iff.1 ?_)
      have first := h₁.opened l
      have before : 0 < e.launches.count l := List.count_pos_iff.2 old
      omega

/-! ## What stops a computation -/

/-- The marks of the computation that a write has stopped. -/
def stopped (e : Entry ε α) : List Mark := e.underway.map .cancelled

theorem count_stopped (e : Entry ε α) (l : Launch) :
    e.stopped.count (.cancelled l) = e.underway.count l := by
  unfold stopped underway
  cases e.phase <;> simp [List.count_cons]

/-- A mark of another kind does not occur among those of stopped computations. -/
theorem count_stopped_of_ne {m : Mark} (other : ∀ l, m ≠ .cancelled l) : e.stopped.count m = 0 := by
  rw [List.count_eq_zero]
  intro mem
  obtain ⟨l, -, here⟩ := List.mem_map.1 mem
  exact other l here.symm

theorem writes_stopped (e : Entry ε α) : e.stopped.countP Mark.writes = 0 := by
  simp [stopped, List.countP_map, Function.comp_def, Mark.writes]

theorem isPlain_stopped : ∀ m ∈ e.stopped, m.isPlain = true := by
  intro m mem
  obtain ⟨l, -, rfl⟩ := List.mem_map.1 mem
  rfl

/-- A computation that was under way is stopped and none is begun. -/
theorem balance_of_stopped (launches : e'.launches = e.launches) (idle : e'.underway = [])
    (written : List Mark) (writes : ∀ m ∈ written, m.writes = true)
    (generation : e'.generation = e.generation + written.length) :
    Balance e e' (written ++ e.stopped) := by
  have other : ∀ m : Mark, m.writes = false → written.count m = 0 := by
    intro m reads
    rw [List.count_eq_zero]
    intro mem
    rw [writes m mem] at reads
    cases reads
  have computing : ∀ l, (written ++ e.stopped).count (.computing l) = 0 := by
    intro l
    rw [List.count_append, other (.computing l) rfl, count_stopped_of_ne (by simp)]
  have settled : ∀ l, (written ++ e.stopped).count (.settled l) = 0 := by
    intro l
    rw [List.count_append, other (.settled l) rfl, count_stopped_of_ne (by simp)]
  have cancelled : ∀ l, (written ++ e.stopped).count (.cancelled l) = e.underway.count l := by
    intro l
    rw [List.count_append, other (.cancelled l) rfl, count_stopped, Nat.zero_add]
  exact {
    opened := by
      intro l
      rw [computing, launches, Nat.zero_add]
    closed := by
      intro l
      rw [computing, settled, cancelled, idle]
      simp
    grown := by
      rw [List.countP_append, writes_stopped, List.countP_eq_length.2 writes, generation]
      rfl
    fresh := by
      intro l mem
      have none := List.count_pos_iff.2 mem
      rw [computing] at none
      cases none }

theorem balance_installed (policy : StalePolicy) (e : Entry ε α) (value : α) :
    Balance e (e.installed policy value) (.installed (e.generation + 1) :: e.stopped) :=
  balance_of_stopped (by simp [installed]) rfl [.installed (e.generation + 1)]
    (by simp [Mark.writes]) rfl

theorem underway_of_idle (idle : e.phase.isIdle = true) : e.underway = [] := by
  unfold underway
  cases hp : e.phase <;> simp_all [Phase.isIdle]

theorem balance_outdated (policy : StalePolicy) (e : Entry ε α) :
    Balance e (e.outdated policy) (.expired (e.generation + 1) :: e.stopped) := by
  have launches : (e.outdated policy).launches = e.launches := outdate_launches e
  exact balance_of_stopped launches (underway_of_idle (outdate_idle policy e))
    [.expired (e.generation + 1)] (by simp [Mark.writes]) rfl

theorem balance_abandoned (e : Entry ε α) : Balance e e.abandoned e.stopped := by
  refine balance_of_stopped ?_ ?_ [] (by simp) ?_ <;> unfold abandoned <;> split <;>
    simp_all [underway]

/-! ## What launches a computation -/

/-- The marks of a launch that is handed out. -/
def begun (handed : Option Launch) : List Mark := handed.toList.map .computing

theorem isPlain_begun {handed : Option Launch} : ∀ m ∈ begun handed, m.isPlain = true := by
  intro m mem
  obtain ⟨l, -, rfl⟩ := List.mem_map.1 mem
  rfl

theorem balance_launch (h : ∀ l ∈ e.launches, l.number < e.launches.length)
    (idle : e.underway = []) (previous : Option (Outcome ε α)) :
    Balance e (e.launch previous).1 (begun (e.launch previous).2) where
  opened := by
    intro l
    simp only [begun, launch, Option.toList_some, List.map_cons, List.map_nil, List.count_cons,
      List.count_nil, beq_iff_eq, Mark.computing.injEq]
    omega
  closed := by
    intro l
    rw [idle]
    simp [begun, launch, underway, List.count_cons]
  grown := rfl
  fresh := by
    intro l mem old
    obtain rfl : l = ⟨e.launches.length, e.generation⟩ := by simpa [begun, launch] using mem
    exact Nat.lt_irrefl _ (h _ old)

theorem balance_demand (h : ∀ l ∈ e.launches, l.number < e.launches.length) :
    Balance e e.demand.1 (begun e.demand.2) := by
  rw [demand_eq]
  split
  next idle => exact balance_launch h (underway_of_idle idle) _
  next => exact balance_of_same rfl rfl rfl

/-- The marks of an expiration. -/
def renewal (policy : StalePolicy) (e : Entry ε α) : List Mark :=
  .expired (e.generation + 1) :: e.stopped ++ begun (e.renewed policy).2

theorem isPlain_renewal : ∀ m ∈ e.renewal policy, m.isPlain = true := by
  intro m mem
  rcases List.mem_append.1 mem with mem | mem
  · rcases List.mem_cons.1 mem with rfl | mem
    · rfl
    · exact isPlain_stopped m mem
  · exact isPlain_begun m mem

theorem balance_renewed (h : e.Sound policy) :
    Balance e (e.renewed policy).1 (e.renewal policy) := by
  have outdated := balance_outdated policy e
  refine outdated.trans ?_
  unfold renewed
  split
  next => exact balance_of_same rfl rfl rfl
  next =>
    refine balance_demand fun l mem => ?_
    have launches : (e.outdated policy).launches = e.launches := outdate_launches e
    rw [launches] at mem ⊢
    exact h.number_lt mem

/-! ## Results and the end -/

theorem balance_concluded {l : Launch} {previous : Option (Outcome ε α)}
    (hp : e.phase = .computing l previous) (o : Outcome ε α) :
    Balance e (e.concluded policy o) [.settled l] where
  opened := by simp [concluded]
  closed := by
    intro l'
    rw [underway_of_computing hp]
    simp [concluded, underway, List.count_cons]
  grown := rfl
  fresh := by simp

/-- A result that comes too late leaves the entry as it is. -/
theorem balance_discarded (e : Entry ε α) (l : Launch) : Balance e e [.discarded l] where
  opened := by simp
  closed := by simp
  grown := rfl
  fresh := by simp

end Entry

end LiveCache
