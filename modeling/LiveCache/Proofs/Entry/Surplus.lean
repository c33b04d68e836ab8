import LiveCache.Proofs.Entry.Soundness
import Mathlib.Data.Option.Basic

/-! # Entries that differ in what came to nothing

An entry that was outdated once more than another one has a later generation. If somebody observes
it, it has one launch more as well, which was told to stop. From then on its generations and the
numbers of its launches are later than those of the other entry, and that is all: every operation
answers the same for both and keeps the difference as it is.
-/

namespace LiveCache

namespace Phase

/-- What a phase is, whatever it is about. -/
inductive Kind where
  | empty
  | computing
  | settled
  | stale
deriving DecidableEq, Repr

def kind {ε α : Type} : Phase ε α → Kind
  | .empty => .empty
  | .computing _ _ => .computing
  | .settled _ => .settled
  | .stale _ => .stale

end Phase

/-! ## Numbers with a gap -/

/-- Numbers with a gap of `more` numbers that begins at `first`. -/
def skip (first more n : Nat) : Nat := if n < first then n else n + more

section Skip

variable {first more m n : Nat}

theorem skip_of_lt (early : n < first) : skip first more n = n := if_pos early

theorem skip_of_le (late : first ≤ n) : skip first more n = n + more := if_neg (Nat.not_lt.2 late)

@[simp] theorem skip_zero : skip first 0 n = n := by simp [skip]

theorem skip_inj : skip first more m = skip first more n ↔ m = n := by
  unfold skip
  split <;> split <;> omega

/-- No number falls into the gap. -/
theorem skip_not_mem : ¬ (first ≤ skip first more n ∧ skip first more n < first + more) := by
  unfold skip
  split <;> omega

end Skip

/-! ## The difference -/

/-- What an entry has in excess of another one. Its generations are later by `raised` from `since`
on. Of its launches, `more` are its own, and the first of these has the number `first`. -/
structure Surplus where
  since : Nat := 0
  raised : Nat := 0
  first : Nat := 0
  more : Nat := 0
deriving DecidableEq, Repr

namespace Surplus

variable {ε α : Type} (s : Surplus)

def generation (n : Nat) : Nat := skip s.since s.raised n

def number (n : Nat) : Nat := skip s.first s.more n

def launch (l : Launch) : Launch := ⟨s.number l.number, s.generation l.generation⟩

/-- The launch with that number is one that the other entry has not made. -/
def Spare (n : Nat) : Prop := s.first ≤ n ∧ n < s.first + s.more

instance (n : Nat) : Decidable (s.Spare n) := inferInstanceAs (Decidable (_ ∧ _))

def phase : Phase ε α → Phase ε α
  | .computing l previous => .computing (s.launch l) previous
  | .empty => .empty
  | .settled o => .settled o
  | .stale previous => .stale previous

/-- What a write brings about in the entry with the excess. -/
def transition (t : Transition) : Transition :=
  ⟨t.generation + s.raised, t.cancelled, t.launch.map s.launch⟩

/-- How the entry with the excess receives a result. -/
def settlement : Settlement → Settlement
  | .accepted => .accepted
  | .discarded relaunch => .discarded (relaunch.map s.launch)

variable {s}

theorem generation_inj {m n : Nat} : s.generation m = s.generation n ↔ m = n := skip_inj

theorem number_inj {m n : Nat} : s.number m = s.number n ↔ m = n := skip_inj

theorem not_spare_number (n : Nat) : ¬ s.Spare (s.number n) := skip_not_mem

theorem launch_injective : Function.Injective s.launch := by
  rintro ⟨m, g⟩ ⟨n, g'⟩ same
  obtain ⟨number, generation⟩ := Launch.mk.inj same
  exact congrArg₂ Launch.mk (number_inj.1 number) (generation_inj.1 generation)

@[simp] theorem phase_view (policy : StalePolicy) (p : Phase ε α) :
    (s.phase p).view policy = p.view policy := by
  cases p <;> rfl

@[simp] theorem phase_isComputing (p : Phase ε α) : (s.phase p).isComputing = p.isComputing := by
  cases p <;> rfl

@[simp] theorem phase_kind (p : Phase ε α) : (s.phase p).kind = p.kind := by
  cases p <;> rfl

@[simp] theorem phase_previous (p : Phase ε α) : (s.phase p).previous = p.previous := by
  cases p <;> rfl

theorem phase_of_idle {p : Phase ε α} (idle : p.isIdle = true) : s.phase p = p := by
  cases p with
  | computing l previous => simp [Phase.isIdle] at idle
  | empty => rfl
  | settled o => rfl
  | stale previous => rfl

/-! ### No difference -/

@[simp] theorem number_default (n : Nat) : ({} : Surplus).number n = n := skip_zero

@[simp] theorem generation_default (n : Nat) : ({} : Surplus).generation n = n := skip_zero

@[simp] theorem launch_default (l : Launch) : ({} : Surplus).launch l = l := by simp [launch]

@[simp] theorem phase_default (p : Phase ε α) : ({} : Surplus).phase p = p := by
  cases p <;> simp [phase]

theorem not_spare_default (n : Nat) : ¬ ({} : Surplus).Spare n := by simp [Spare]

end Surplus

namespace Entry

variable {ε α : Type} {policy : StalePolicy} {s : Surplus} {e e' : Entry ε α}

/-- The entry `e'` differs from `e` by what it has in excess, and that was told to stop. -/
structure Exceeds (s : Surplus) (e e' : Entry ε α) : Prop where
  phase : e'.phase = s.phase e.phase
  generation : e'.generation = e.generation + s.raised
  since : s.since ≤ e.generation
  subscribers : e'.subscribers = e.subscribers
  retired : e'.retired = e.retired
  channel : e'.channel = e.channel
  launches : (e'.launches.filter fun l => ¬ s.Spare l.number) = e.launches.map s.launch
  count : e'.launches.length = e.launches.length + s.more
  first : s.first ≤ e.launches.length
  aborted : (e'.aborted.filter fun n => ¬ s.Spare n) = e.aborted.map s.number
  stopped : ∀ n, s.Spare n → n ∈ e'.aborted

theorem Exceeds.refl (e : Entry ε α) : Exceeds {} e e where
  phase := (Surplus.phase_default _).symm
  generation := rfl
  since := Nat.zero_le _
  subscribers := rfl
  retired := rfl
  channel := rfl
  launches := by simp [Surplus.not_spare_default, funext Surplus.launch_default]
  count := rfl
  first := Nat.zero_le _
  aborted := by simp [Surplus.not_spare_default, funext Surplus.number_default]
  stopped := fun n spare => absurd spare (Surplus.not_spare_default n)

/-- Entries without a difference are the same. -/
theorem Exceeds.eq (h : Exceeds {} e e') : e' = e := by
  have launches : e'.launches = e.launches := by
    simpa [Surplus.not_spare_default, funext Surplus.launch_default] using h.launches
  have aborted : e'.aborted = e.aborted := by
    simpa [Surplus.not_spare_default, funext Surplus.number_default] using h.aborted
  obtain ⟨phase, generation, subscribers, retired, channel, _, _⟩ := e'
  obtain rfl : phase = e.phase := h.phase.trans (Surplus.phase_default _)
  obtain rfl : generation = e.generation := h.generation
  obtain rfl : subscribers = e.subscribers := h.subscribers
  obtain rfl : retired = e.retired := h.retired
  obtain rfl : channel = e.channel := h.channel
  subst launches aborted
  rfl

theorem Exceeds.number_mem_aborted (h : Exceeds s e e') (n : Nat) :
    s.number n ∈ e'.aborted ↔ n ∈ e.aborted := by
  have kept : s.number n ∈ e'.aborted ↔
      s.number n ∈ e'.aborted.filter fun m => ¬ s.Spare m := by
    simp [Surplus.not_spare_number]
  rw [kept, h.aborted, List.mem_map]
  constructor
  · rintro ⟨m, mem, same⟩
    exact Surplus.number_inj.1 same ▸ mem
  · exact fun mem => ⟨n, mem, rfl⟩

/-- The present generation is among the later ones. -/
theorem Exceeds.generation_eq (h : Exceeds s e e') : s.generation e.generation = e'.generation :=
  (skip_of_le h.since).trans h.generation.symm

theorem Exceeds.with_subscribers (h : Exceeds s e e') (n : Nat) :
    Exceeds s { e with subscribers := n } { e' with subscribers := n } :=
  { h with subscribers := rfl }

theorem Exceeds.publish (h : Exceeds s e e') : Exceeds s (e.publish policy) (e'.publish policy) :=
  { h with
    channel := by
      change e'.channel.publish _ = e.channel.publish _
      rw [h.phase, h.channel, Surplus.phase_view] }

theorem Exceeds.abort (h : Exceeds s e e') : Exceeds s e.abort e'.abort := by
  have phase := h.phase
  unfold Entry.abort
  rw [phase]
  cases hp : e.phase with
  | empty => exact h
  | settled o => exact h
  | stale previous => exact h
  | computing l previous =>
      have aborted : (s.number l.number :: e'.aborted).filter (fun n => ¬ s.Spare n) =
          (l.number :: e.aborted).map s.number := by
        rw [List.filter_cons_of_pos (by simp [Surplus.not_spare_number]), h.aborted]
        rfl
      exact { h with
        phase := rfl
        aborted := aborted
        stopped := fun n spare => List.mem_cons_of_mem _ (h.stopped n spare) }

/-! ## Launching -/

theorem Exceeds.launch (h : Exceeds s e e') (previous : Option (Outcome ε α)) :
    Exceeds s (e.launch previous).1 (e'.launch previous).1 ∧
      (e'.launch previous).2 = (e.launch previous).2.map s.launch := by
  have launched : (⟨e'.launches.length, e'.generation⟩ : Launch) =
      s.launch ⟨e.launches.length, e.generation⟩ := by
    rw [Surplus.launch, h.generation_eq, h.count, Surplus.number, skip_of_le h.first]
  refine ⟨?_, congrArg some launched⟩
  exact { h with
    phase := congrArg (Phase.computing · previous) launched
    launches := by
      change List.filter _ (Launch.mk _ _ :: e'.launches) = _
      rw [launched, List.filter_cons_of_pos (by simp [Surplus.launch, Surplus.not_spare_number]),
        h.launches]
      rfl
    count := by
      change e'.launches.length + 1 = e.launches.length + 1 + s.more
      rw [h.count, Nat.add_right_comm]
    first := Nat.le_succ_of_le h.first }

theorem Exceeds.demand (h : Exceeds s e e') :
    Exceeds s e.demand.1 e'.demand.1 ∧ e'.demand.2 = e.demand.2.map s.launch := by
  unfold Entry.demand
  rw [h.phase]
  cases e.phase with
  | empty => exact h.launch none
  | stale previous => exact h.launch previous
  | computing l previous => exact ⟨h, rfl⟩
  | settled o => exact ⟨h, rfl⟩

theorem Exceeds.subscribe? (h : Exceeds s e e') :
    Option.Rel (fun m m' => Exceeds s m.1 m'.1 ∧ m'.2 = m.2.map s.launch)
      e.subscribe? e'.subscribe? := by
  unfold Entry.subscribe?
  by_cases gone : e.retired
  · rw [if_pos gone, if_pos (h.retired.trans gone)]
    exact .none
  · rw [if_neg gone, if_neg (by rwa [h.retired]), h.subscribers]
    exact .some (h.with_subscribers _).demand

theorem Exceeds.snapshot? (h : Exceeds s e e') :
    Option.Rel (fun m m' => Exceeds s m.1 m'.1 ∧ m'.2 = m.2.map s.launch)
      e.snapshot? e'.snapshot? := by
  unfold Entry.snapshot?
  by_cases gone : e.retired
  · rw [if_pos gone, if_pos (h.retired.trans gone)]
    exact .none
  · rw [if_neg gone, if_neg (by rwa [h.retired])]
    exact .some h.demand

theorem Exceeds.unsubscribe (h : Exceeds s e e') : Exceeds s e.unsubscribe e'.unsubscribe := by
  unfold Entry.unsubscribe
  rw [h.subscribers]
  exact h.with_subscribers _

theorem Exceeds.latest (h : Exceeds s e e') : e'.latest = e.latest :=
  congrArg Channel.latest h.channel

/-! ## Writing -/

theorem Exceeds.with_phase (h : Exceeds s e e') (p : Phase ε α) :
    Exceeds s { e with phase := p } { e' with phase := s.phase p } :=
  { h with phase := rfl }

theorem Exceeds.with_generation (h : Exceeds s e e') {n : Nat} (late : s.since ≤ n) :
    Exceeds s { e with generation := n } { e' with generation := n + s.raised } :=
  { h with
    generation := rfl
    since := late }

/-- The generation that a write leaves. -/
theorem Exceeds.next_generation (h : Exceeds s e e') :
    e'.generation + 1 = e.generation + 1 + s.raised := by
  rw [h.generation, Nat.add_right_comm]

theorem Exceeds.set? (h : Exceeds s e e') (policy : StalePolicy) (value : α) :
    Option.Rel (fun m m' => Exceeds s m.1 m'.1 ∧ m'.2 = s.transition m.2 ∧
        s.since < m.2.generation)
      (e.set? policy value) (e'.set? policy value) := by
  unfold Entry.set?
  by_cases gone : e.retired
  · rw [if_pos gone, if_pos (h.retired.trans gone)]
    exact .none
  · rw [if_neg gone, if_neg (by rwa [h.retired])]
    have stopped := (h.abort.with_phase (.settled (.success value))).with_generation
      (Nat.le_succ_of_le h.since)
    rw [h.next_generation, h.phase, Surplus.phase_isComputing]
    exact .some ⟨stopped.publish, rfl, Nat.lt_succ_of_le h.since⟩

theorem Exceeds.outdate (h : Exceeds s e e') :
    Exceeds s (e.outdate policy) (e'.outdate policy) := by
  unfold Entry.outdate
  have phase := h.phase
  rw [phase]
  cases hp : e.phase with
  | empty => exact h
  | stale previous => exact h
  | computing l previous => exact h.abort.with_phase (.stale previous)
  | settled o => exact (h.with_phase (.stale (some o))).publish

theorem Exceeds.renewed (h : Exceeds s e e') :
    Exceeds s (e.renewed policy).1 (e'.renewed policy).1 ∧
      (e'.renewed policy).2 = (e.renewed policy).2.map s.launch := by
  have outdated : Exceeds s (e.outdated policy) (e'.outdated policy) := by
    rw [Entry.outdated, Entry.outdated, h.next_generation]
    exact h.outdate.with_generation (Nat.le_succ_of_le h.since)
  unfold Entry.renewed
  by_cases alone : e.subscribers = 0
  · rw [if_pos alone, if_pos (h.subscribers.trans alone)]
    exact ⟨outdated, rfl⟩
  · rw [if_neg alone, if_neg (by rwa [h.subscribers])]
    exact outdated.demand

theorem Exceeds.expire? (h : Exceeds s e e') (policy : StalePolicy) :
    Option.Rel (fun m m' => Exceeds s m.1 m'.1 ∧ m'.2 = s.transition m.2 ∧
        s.since < m.2.generation)
      (e.expire? policy) (e'.expire? policy) := by
  cases gone : e.retired with
  | true =>
      unfold Entry.expire?
      rw [if_pos gone, if_pos (h.retired.trans gone)]
      exact .none
  | false =>
      have renewed : Exceeds s (e.renewed policy).1 (e'.renewed policy).1 ∧ _ := h.renewed
      rw [expire?_eq gone, expire?_eq (h.retired.trans gone), renewed.2, h.next_generation,
        h.phase, Surplus.phase_isComputing]
      exact .some ⟨renewed.1, rfl, Nat.lt_succ_of_le h.since⟩

/-! ## Results -/

theorem Exceeds.owns (h : Exceeds s e e') (n : Nat) : e'.owns (s.generation n) = e.owns n := by
  unfold Entry.owns
  rw [h.phase]
  cases e.phase with
  | empty => rfl
  | settled o => rfl
  | stale previous => rfl
  | computing l previous =>
      exact Bool.eq_iff_iff.2 (by simp [Surplus.phase, Surplus.launch, Surplus.generation_inj])

theorem Exceeds.isStale (h : Exceeds s e e') : e'.isStale = e.isStale := by
  unfold Entry.isStale
  rw [h.phase]
  cases e.phase <;> rfl

/-- A result counts for the one exactly if that of the launch in its place counts for the other. -/
theorem Exceeds.settle (h : Exceeds s e e') (policy : StalePolicy) (n : Nat) (o : Outcome ε α) :
    Exceeds s (e.settle policy n o).1 (e'.settle policy (s.generation n) o).1 ∧
      (e'.settle policy (s.generation n) o).2 = s.settlement (e.settle policy n o).2 := by
  unfold Entry.settle
  rw [h.owns]
  by_cases current : e.owns n
  · rw [if_pos current, if_pos current]
    exact ⟨(h.with_phase (.settled o)).publish, rfl⟩
  · rw [if_neg current, if_neg current]
    by_cases wanted : 0 < e.subscribers ∧ e.retired = false ∧ e.isStale
    · rw [if_pos wanted, if_pos (by rwa [h.subscribers, h.retired, h.isStale])]
      exact ⟨h.demand.1, congrArg Settlement.discarded h.demand.2⟩
    · rw [if_neg wanted, if_neg (by rwa [h.subscribers, h.retired, h.isStale])]
      exact ⟨h, rfl⟩

/-! ## Ending -/

theorem Exceeds.abandon (h : Exceeds s e e') :
    Exceeds s e.abandon.1 e'.abandon.1 ∧ e'.abandon.2 = e.abandon.2.map s.generation := by
  unfold Entry.abandon
  rw [h.phase, h.subscribers]
  cases e.phase with
  | empty => exact ⟨h, rfl⟩
  | stale previous => exact ⟨h, rfl⟩
  | settled o => exact ⟨h, rfl⟩
  | computing l previous =>
      dsimp only [Surplus.phase]
      split
      next => exact ⟨h.abort.with_phase (.stale previous), rfl⟩
      next => exact ⟨h, rfl⟩

theorem Exceeds.retire (h : Exceeds s e e') :
    Exceeds s e.retire.1 e'.retire.1 ∧ e'.retire.2 = e.retire.2 := by
  have retirable : e'.retirable = e.retirable := by
    rw [Entry.retirable, h.retired, h.subscribers, h.phase, Surplus.phase_isComputing]
    rfl
  unfold Entry.retire
  rw [retirable]
  split
  next => exact ⟨{ h with retired := rfl }, rfl⟩
  next => exact ⟨h, rfl⟩

/-! ## Where the difference comes from -/

/-- The launch that the first of two expirations causes and the second stops. -/
def spent (e : Entry ε α) : List Launch :=
  if e.subscribers = 0 then [] else [⟨e.launches.length, e.generation + 1⟩]

/-- What an entry that is outdated twice has in excess of one that is outdated once. -/
def surplus (e : Entry ε α) : Surplus where
  since := e.generation + 1
  raised := 1
  first := e.launches.length
  more := e.spent.length

/-- The entry that two expirations leave to be computed anew. -/
def outdatedTwice (policy : StalePolicy) (e : Entry ε α) : Entry ε α :=
  { e.outdated policy with
    generation := e.generation + 2
    launches := e.spent ++ e.launches
    aborted := e.spent.map (·.number) ++ e.abort.aborted }

theorem spare_surplus_iff (e : Entry ε α) (n : Nat) :
    e.surplus.Spare n ↔ n ∈ e.spent.map (·.number) := by
  unfold Surplus.Spare surplus spent
  split
  next => simp
  next =>
    simp
    omega

theorem Sound.launch_surplus (h : e.Sound policy) {l : Launch} (mem : l ∈ e.launches) :
    e.surplus.launch l = l := by
  have number : e.surplus.number l.number = l.number := skip_of_lt (h.number_lt mem)
  have generation : e.surplus.generation l.generation = l.generation :=
    skip_of_lt (Nat.lt_succ_of_le (h.bounded l mem))
  rw [Surplus.launch, number, generation]

/-- What was there before the first expiration is no part of the difference. -/
theorem Sound.before_surplus (h : e.Sound policy) :
    e.launches.map e.surplus.launch = e.launches ∧
      (e.launches.filter fun l => ¬ e.surplus.Spare l.number) = e.launches ∧
      e.abort.aborted.map e.surplus.number = e.abort.aborted ∧
      (e.abort.aborted.filter fun n => ¬ e.surplus.Spare n) = e.abort.aborted := by
  have early : ∀ n, n < e.launches.length → e.surplus.number n = n ∧ ¬ e.surplus.Spare n :=
    fun n lt => ⟨skip_of_lt lt, fun spare => Nat.not_lt.2 spare.1 lt⟩
  refine ⟨?_, ?_, ?_, ?_⟩
  · exact (List.map_congr_left fun l mem => h.launch_surplus mem).trans (List.map_id _)
  · exact List.filter_eq_self.2 fun l mem => by simpa using (early _ (h.number_lt mem)).2
  · exact (List.map_congr_left fun n mem => (early n (h.abort_lt n mem)).1).trans (List.map_id _)
  · exact List.filter_eq_self.2 fun n mem => by simpa using (early n (h.abort_lt n mem)).2

theorem Sound.exceeds_outdatedTwice (h : e.Sound policy) :
    Exceeds e.surplus (e.outdated policy) (e.outdatedTwice policy) := by
  obtain ⟨launches, listed, aborted, kept⟩ := h.before_surplus
  have none : e.spent.filter (fun l => ¬ e.surplus.Spare l.number) = [] :=
    List.filter_eq_nil_iff.2 fun l mem => by
      simpa using (spare_surplus_iff e l.number).2 (List.mem_map_of_mem mem)
  have none' : (e.spent.map (·.number)).filter (fun n => ¬ e.surplus.Spare n) = [] :=
    List.filter_eq_nil_iff.2 fun n mem => by simpa using (spare_surplus_iff e n).2 mem
  have idle : (e.outdated policy).phase.isIdle = true := outdate_idle policy e
  exact {
    phase := (Surplus.phase_of_idle idle).symm
    generation := rfl
    since := Nat.le_refl _
    subscribers := rfl
    retired := rfl
    channel := rfl
    launches := by
      rw [outdatedTwice, List.filter_append, none, listed, Entry.outdated, outdate_launches,
        launches]
      rfl
    count := by
      rw [outdatedTwice, List.length_append, Entry.outdated, outdate_launches]
      exact Nat.add_comm _ _
    first := by rw [Entry.outdated, outdate_launches]; exact Nat.le_refl _
    aborted := by
      rw [outdatedTwice, List.filter_append, none', kept, Entry.outdated, outdate_aborted, aborted]
      rfl
    stopped := fun n spare =>
      List.mem_append_left _ ((spare_surplus_iff e n).1 spare) }

theorem outdate_of_idle (idle : e.phase.isIdle = true) : e.outdate policy = e := by
  unfold outdate
  cases hp : e.phase with
  | empty => rfl
  | stale previous => rfl
  | computing l previous => simp [hp, Phase.isIdle] at idle
  | settled o => simp [hp, Phase.isIdle] at idle

/-- The second expiration leaves all but the generation as it is, or it stops the launch that the
first has caused and launches once more. -/
theorem renewed_renewed (e : Entry ε α) :
    (e.renewed policy).1.renewed policy =
      if e.subscribers = 0 then (e.outdatedTwice policy, none)
      else (e.outdatedTwice policy).demand := by
  have idle : (e.outdated policy).phase.isIdle = true := outdate_idle policy e
  by_cases alone : e.subscribers = 0
  · have first : e.renewed policy = (e.outdated policy, none) := if_pos alone
    have spent : e.spent = [] := if_pos alone
    have unobserved : (e.outdated policy).subscribers = 0 := (outdate_subscribers e).trans alone
    rw [first, if_pos alone, Entry.renewed, if_pos unobserved, outdatedTwice, spent,
      ← outdate_aborted, ← outdate_launches]
    nth_rewrite 1 [Entry.outdated]
    rw [outdate_of_idle idle]
    rfl
  · have first : e.renewed policy =
        (e.outdated policy).launch (e.outdated policy).phase.previous := by
      rw [Entry.renewed, if_neg alone, demand_eq, if_pos idle]
    have again : (e.outdatedTwice policy).demand =
        (e.outdatedTwice policy).launch (e.outdated policy).phase.previous := by
      rw [demand_eq]
      exact if_pos idle
    have spent : e.spent = [⟨e.launches.length, e.generation + 1⟩] := if_neg alone
    have observed : ((e.outdated policy).launch (e.outdated policy).phase.previous).1.subscribers
        ≠ 0 := by
      change (e.outdate policy).subscribers ≠ 0
      rwa [outdate_subscribers]
    rw [first, if_neg alone, again, Entry.renewed, if_neg observed, outdatedTwice, spent,
      ← outdate_aborted, ← outdate_launches]
    rfl

/-- An expiration hands out a launch if the entry is observed. -/
theorem renewed_handed (e : Entry ε α) : (e.renewed policy).2.toList = e.spent := by
  have idle : (e.outdated policy).phase.isIdle = true := outdate_idle policy e
  unfold Entry.renewed spent
  split
  next => rfl
  next =>
    rw [demand_eq, if_pos idle, ← outdate_launches]
    rfl

theorem renewed_isComputing (e : Entry ε α) :
    (e.renewed policy).1.phase.isComputing = !e.spent.isEmpty := by
  have idle : (e.outdated policy).phase.isIdle = true := outdate_idle policy e
  unfold Entry.renewed spent
  split
  next =>
    cases hp : (e.outdated policy).phase with
    | computing l previous => simp [hp, Phase.isIdle] at idle
    | empty | settled | stale => simp [Phase.isComputing]
  next =>
    rw [demand_eq, if_pos idle]
    rfl

/-- Outdating an entry twice instead of once leaves the surplus. -/
theorem Sound.surplus (h : e.Sound policy) :
    Exceeds e.surplus (e.renewed policy).1 ((e.renewed policy).1.renewed policy).1 ∧
      ((e.renewed policy).1.renewed policy).2 = (e.renewed policy).2.map e.surplus.launch := by
  have twice : Exceeds e.surplus (e.outdated policy) (e.outdatedTwice policy) :=
    h.exceeds_outdatedTwice
  rw [renewed_renewed, Entry.renewed]
  split
  next => exact ⟨twice, rfl⟩
  next => exact twice.demand

/-- What the second expiration hands out takes the place of what it stops. -/
theorem Sound.spent_renewed (h : e.Sound policy) :
    (e.renewed policy).1.spent = e.spent.map e.surplus.launch := by
  have first : (e.renewed policy).2.toList = e.spent := renewed_handed e
  have second : ((e.renewed policy).1.renewed policy).2.toList = (e.renewed policy).1.spent :=
    renewed_handed _
  rw [← first, ← second, h.surplus.2]
  cases (e.renewed policy).2 <;> rfl

end Entry

end LiveCache
