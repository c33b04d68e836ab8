import LiveCache.Proofs.Session.Ending
import Mathlib.Data.List.Count

/-! # What the log of a session accounts for

The book of the cache of a session grows with every tick, and as long as events are logged the log
is the book without its launches. So the log balances: what was launched was settled or cancelled or
is still computed, and what was written and removed is all that was written and removed.
-/

namespace LiveCache

/-! ## Reading a log -/

/-- The numbers of the events of one kind, in order. -/
def Activity.numbers (a : Activity) (log : List Event) : List Nat :=
  (log.filter (·.activity = a)).map (·.number)

/-- The launch that became of it what the mark says. -/
def Mark.launch? : Mark → Option Launch
  | computing l | settled l | cancelled l | discarded l => some l
  | faulted _ _ | installed _ | expired _ | reclaimed _ => none

/-- What may become of a launch. -/
def Activity.isOfLaunch : Activity → Bool
  | computing | settled | cancelled | discarded => true
  | reclaimed | faulted _ | installed | expired | expiredAll => false

theorem Mark.generation_launch? (m : Mark) (kind : m.event.activity.isOfLaunch = true) :
    m.launch?.map (·.generation) = some m.event.number := by
  cases m <;> first | rfl | cases kind

namespace Line

variable {κ : Type}

/-- The entry and the launch that a line of one kind is about. -/
def only (a : Activity) : Line κ → Option (EntryId κ × Launch)
  | of i m => if m.event.activity = a then m.launch?.map (i, ·) else none
  | all _ => none

theorem map_only {a : Activity} (kind : a.isOfLaunch = true) (x : Line κ) :
    (x.only a).map (·.2.generation) =
      if x.event.activity = a then some x.event.number else none := by
  cases x with
  | all count =>
      rw [if_neg]
      · rfl
      · rintro rfl
        cases kind
  | of i m =>
      by_cases here : m.event.activity = a
      · simpa [only, event, here, Function.comp_def] using m.generation_launch? (here ▸ kind)
      · simp [only, event, here]

theorem numbers_book {a : Activity} (kind : a.isOfLaunch = true) (book : List (Line κ)) :
    a.numbers (book.map event) = (book.filterMap (only a)).map (·.2.generation) := by
  rw [List.map_filterMap, Activity.numbers, List.filter_map, List.map_map,
    ← List.filterMap_eq_map, ← List.filterMap_eq_filter, List.filterMap_filterMap]
  refine List.filterMap_congr fun x _ => ?_
  rw [map_only kind]
  by_cases here : x.event.activity = a <;> simp [Option.guard, here]

theorem numbers_length (a : Activity) (book : List (Line κ)) :
    (a.numbers (book.map event)).length = book.countP (·.event.activity = a) := by
  rw [Activity.numbers, List.length_map, ← List.countP_eq_length_filter, List.countP_map]
  rfl

variable [DecidableEq κ]

theorem count_only {m : Mark} {l : Launch} (about : m.launch? = some l) (i : EntryId κ)
    (book : List (Line κ)) :
    (book.filterMap (only m.event.activity)).count (i, l) = book.count (.of i m) := by
  have same : ∀ x : Line κ, x.only m.event.activity = some (i, l) ↔ x = .of i m := by
    intro x
    cases x with
    | all count => simp [only]
    | of j m' => cases m' <;> cases m <;> simp_all [only, Mark.event, Mark.launch?]
  rw [List.count_filterMap, List.count]
  refine List.countP_congr fun x _ => ?_
  simp only [beq_iff_eq]
  exact same x

end Line

namespace Cache

variable {κ ε α : Type} [DecidableEq κ] {settings : Settings} {c : Cache κ ε α}
  {book : List (Line κ)}

/-- The generations of what the entries of the table compute. -/
def underway (c : Cache κ ε α) : List Nat :=
  c.ids.flatMap fun i => (c.entry i).underway.map (·.generation)

omit [DecidableEq κ] in
theorem count_flatMap_pairs {β γ : Type} [DecidableEq β] [DecidableEq γ] (f : β → List γ)
    (l : List β) (nodup : l.Nodup) (i : β) (x : γ) :
    (l.flatMap fun i => (f i).map (i, ·)).count (i, x) = if i ∈ l then (f i).count x else 0 := by
  induction l with
  | nil => simp
  | cons j rest ih =>
      obtain ⟨new, nodup⟩ := List.nodup_cons.1 nodup
      rw [List.flatMap_cons, List.count_append, ih nodup]
      by_cases here : j = i
      · subst here
        rw [if_neg new, if_pos List.mem_cons_self, Nat.add_zero,
          List.count_map_of_injective _ _ fun _ _ same => (Prod.mk.inj same).2]
      · have other : (i, x) ∉ (f j).map (j, ·) := by
          intro mem
          obtain ⟨y, -, same⟩ := List.mem_map.1 mem
          exact here (Prod.mk.inj same).1
        rw [List.count_eq_zero.2 other, Nat.zero_add]
        simp [Ne.symm here]

theorem Accounts.log (h : Accounts settings c book) (logs : settings.logs = true) :
    c.log = book.map Line.event := h.posts.log logs

theorem Accounts.opened_once (h : Accounts settings c book) (coherent : Coherent c [])
    {i : EntryId κ} {l : Launch} (made : l ∈ (c.entry i).launches) :
    book.count (.of i (.computing l)) = 1 := by
  have nodup : (c.entry i).launches.Nodup :=
    (coherent.ordered i).imp fun lt same => by simp [same] at lt
  rw [h.opened, List.count_eq_one_of_mem nodup made]

/-- Every launch was settled or cancelled or is computed, and only one of these. -/
theorem Accounts.closed_once (h : Accounts settings c book) (coherent : Coherent c [])
    {i : EntryId κ} {l : Launch} (made : l ∈ (c.entry i).launches) :
    book.count (.of i (.settled l)) + book.count (.of i (.cancelled l)) +
      (c.entry i).underway.count l = 1 := by
  rw [h.closed, h.opened_once coherent made]

theorem Accounts.balance (h : Accounts settings c book) (coherent : Coherent c []) :
    (book.filterMap (Line.only .computing)).Perm
      (book.filterMap (Line.only .settled) ++ book.filterMap (Line.only .cancelled) ++
        c.ids.flatMap fun i => (c.entry i).underway.map (i, ·)) := by
  refine List.perm_iff_count.2 fun ⟨i, l⟩ => ?_
  have computing := Line.count_only (m := .computing l) rfl i book
  have settled := Line.count_only (m := .settled l) rfl i book
  have cancelled := Line.count_only (m := .cancelled l) rfl i book
  dsimp only [Mark.event] at computing settled cancelled
  rw [List.count_append, List.count_append, computing, settled, cancelled, ← h.closed,
    count_flatMap_pairs (fun i => (c.entry i).underway) c.ids (.of_map _ (nodup_ids_keys c))]
  split
  next => rfl
  next out =>
    have gone := (coherent.gone (mt (mem_ids_iff c i).2 out)).2
    rw [Entry.underway_of_calm gone]
    rfl

/-- As many generations as were launched were settled or cancelled or are computed. -/
theorem Accounts.generations_balance (h : Accounts settings c book) (coherent : Coherent c [])
    (logs : settings.logs = true) :
    (Activity.computing.numbers c.log).Perm
      (Activity.settled.numbers c.log ++ Activity.cancelled.numbers c.log ++ c.underway) := by
  have balance := (h.balance coherent).map (·.2.generation)
  simp only [List.map_append, List.map_flatMap, List.map_map] at balance
  rw [h.log logs, Line.numbers_book rfl, Line.numbers_book rfl, Line.numbers_book rfl]
  exact balance

/-- The generations of the entries have grown by one with every write. -/
theorem Accounts.writes (h : Accounts settings c book) (logs : settings.logs = true) :
    (Activity.installed.numbers c.log).length + (Activity.expired.numbers c.log).length =
      c.generations := by
  have grown := h.posts.grown
  rw [show (ofSettings settings : Cache κ ε α).generations = 0 from rfl, Nat.zero_add] at grown
  rw [h.log logs, Line.numbers_length, Line.numbers_length, ← grown]
  clear h grown
  induction book with
  | nil => rfl
  | cons x rest ih =>
      simp only [List.countP_cons, ← ih]
      cases x with
      | of i m => cases m <;> simp [Line.event, Line.writes, Mark.event, Mark.writes] <;> omega
      | all count => simp [Line.event, Line.writes]

/-- An entry that was made is in the table or was removed. -/
theorem Accounts.made (h : Accounts settings c book) (logs : settings.logs = true) :
    Tally.total c.created = c.len + (Activity.reclaimed.numbers c.log).length := by
  have made := h.posts.made
  have same : book.countP Line.removes = book.countP (·.event.activity = .reclaimed) := by
    refine List.countP_congr fun x _ => ?_
    cases x with
    | of i m => cases m <;> simp [Line.event, Line.removes, Mark.event, Mark.removes]
    | all count => simp [Line.event, Line.removes]
  rw [show Tally.total (ofSettings settings : Cache κ ε α).created = 0 from rfl,
    show (ofSettings settings : Cache κ ε α).table.size = 0 from rfl] at made
  rw [h.log logs, Line.numbers_length, ← same, len]
  omega

/-- The verdict on a result follows directly on the fault that it reports. -/
theorem Accounts.faults (h : Accounts settings c book) (logs : settings.logs = true) {n : Nat}
    {text : String} {g : Nat} (found : c.log[n]? = some ⟨.faulted text, g⟩) :
    ∃ a, (a = .settled ∨ a = .discarded) ∧ c.log[n + 1]? = some ⟨a, g⟩ := by
  rw [h.log logs, List.getElem?_map] at found ⊢
  obtain ⟨x, listed, event⟩ := Option.map_eq_some_iff.1 found
  obtain ⟨i, l, rfl, rfl⟩ : ∃ i l, x = .of i (.faulted l text) ∧ l.generation = g := by
    cases x with
    | all count => cases event
    | of i m =>
        cases m <;> cases event
        exact ⟨i, _, rfl, rfl⟩
  obtain ⟨m, rfl | rfl, next⟩ := h.reported n i l text listed
  · exact ⟨.settled, .inl rfl, by rw [next]; rfl⟩
  · exact ⟨.discarded, .inr rfl, by rw [next]; rfl⟩

end Cache

theorem Entry.Sound.underway_of_cancelled {ε α : Type} {policy : StalePolicy} {e e' : Entry ε α}
    {t : Transition} (h : e.Sound policy)
    (made : (∃ v, e.set? policy v = some (e', t)) ∨ e.expire? policy = some (e', t))
    (cancelled : t.cancelled = true) : ∃ l ∈ e.underway, t.generation = l.generation + 1 := by
  have computed : e.phase.isComputing = true →
      ∃ l ∈ e.underway, e.generation + 1 = l.generation + 1 := by
    intro computing
    cases hp : e.phase with
    | computing l previous =>
        exact ⟨l, mem_underway.2 ⟨previous, hp⟩, by rw [(h.newest l previous hp).2]⟩
    | _ => simp [hp, Phase.isComputing] at computing
  cases present : e.retired with
  | true => simp [set?, expire?, present] at made
  | false =>
      rcases made with ⟨v, made⟩ | made
      · rw [set?_eq present] at made
        cases made
        exact computed cancelled
      · rw [expire?_eq present] at made
        cases made
        exact computed cancelled

/-! ## The book of a session -/

namespace Session

open Cache (Accounts verdicts)

variable {settings : Settings} {ttl : Option Nat} {plan : Plan} {s s' : Session}
  {book : List (Line Key)}

theorem Tick.accounts (h : Governed s) (accounts : Accounts settings s.cache book)
    (tick : Tick s s') : ∃ lines, Accounts settings s'.cache (book ++ lines) := by
  have same : ∃ lines, Accounts settings s.cache (book ++ lines) :=
    ⟨[], by rwa [List.append_nil]⟩
  cases tick with
  | stir stir => exact accounts.routine (stir.routine h.coherent)
  | call u listed spared => exact accounts.routine (Cache.routine_note (by simp))
  | keep | pass => exact same
  | finish u listed r c =>
      cases alive : s.cache.alive with
      | true =>
          obtain ⟨o, report, eq⟩ := afterPoll_finished_of_alive alive u r c
          rw [eq]
          exact accounts.finish h.coherent listed report o
      | false =>
          rw [afterPoll_finished_of_dead alive]
          exact accounts.routine (Cache.routine_removeTask u.id)
  | leave u listed => exact accounts.routine (routine_discard s u.id)
  | fire timer => exact accounts.routine (TimedCache.routine_fire h.coherent timer)
  | fireDue => exact accounts.routine (TimedCache.routine_fireDue h.coherent)

theorem Ticks.accounts (h : Governed s) (accounts : Accounts settings s.cache book)
    (ticks : Ticks s s') : ∃ lines, Accounts settings s'.cache (book ++ lines) := by
  induction ticks with
  | refl => exact ⟨[], by rwa [List.append_nil]⟩
  | tail before last ih =>
      obtain ⟨lines, before'⟩ := ih
      obtain ⟨more, after⟩ := last.accounts (h.ticks before) before'
      exact ⟨lines ++ more, by rwa [← List.append_assoc]⟩

/-- The events of the reports are what the log has grown by. -/
theorem events_run (logs : settings.logs = true) (h : Governed s)
    (ordered : Ordered True settings ttl none s) (accounts : Accounts settings s.cache book)
    (steps : List Step) :
    s.cache.log ++ (s.run steps).flatMap (·.events) = (s.after steps).cache.log := by
  induction steps generalizing s book with
  | nil => exact List.append_nil _
  | cons a rest ih =>
      obtain ⟨next, ticks⟩ := ordered.ticks [a]
      obtain ⟨lines, after⟩ := Ticks.accounts h accounts ticks
      have later := ih (h.ticks ticks) next after
      have grown : (s.step a).1.cache.log = s.cache.log ++ lines.map Line.event := by
        rw [accounts.log logs, ← List.map_append]
        exact after.log logs
      have events : (s.step a).2.events = lines.map Line.event := by
        rw [show (s.step a).2.events = (s.step a).1.cache.log.drop s.cache.log.length from rfl,
          grown, List.drop_left]
      rw [run, List.flatMap_cons, events, ← List.append_assoc, ← grown]
      exact later

/-- At every moment of a run that logs its events, and so at the end of every step, the generations
of the computations that were launched are those that were settled or cancelled and those that are
still computed, each launch being one of these. A result is discarded only after its computation was
cancelled, and a fault is followed at once by the verdict on its result. The writes and removals
account for the generations and for the entries that have been made. What a write logs as cancelled
is the generation of the computation that it has stopped. -/
theorem log_accounts (settings : Settings) (ttl : Option Nat) (plan : Plan)
    (logs : settings.logs = true) :
    (∀ m, Ticks (start settings ttl plan) m →
      (Activity.computing.numbers m.cache.log).Perm (Activity.settled.numbers m.cache.log ++
        Activity.cancelled.numbers m.cache.log ++ m.cache.underway) ∧
      (∃ book : List (Line Key), m.cache.log = book.map Line.event ∧
        (∀ i, ∀ l ∈ (m.cache.entry i).launches, book.count (.of i (.computing l)) = 1 ∧
          book.count (.of i (.settled l)) + book.count (.of i (.cancelled l)) +
            (m.cache.entry i).underway.count l = 1) ∧
        (∀ i l, Line.of i (.computing l) ∈ book → l ∈ (m.cache.entry i).launches) ∧
        (∀ i l, verdicts book i l ≤ 1) ∧
        ∀ (n : Nat) i l, book[n]? = some (Line.of i (.discarded l)) →
          ∃ k < n, book[k]? = some (Line.of i (.cancelled l))) ∧
      (∀ (n : Nat) text g, m.cache.log[n]? = some ⟨.faulted text, g⟩ →
        ∃ a, (a = .settled ∨ a = .discarded) ∧ m.cache.log[n + 1]? = some ⟨a, g⟩) ∧
      (Activity.installed.numbers m.cache.log).length +
        (Activity.expired.numbers m.cache.log).length = m.cache.generations ∧
      Tally.total m.cache.created =
        m.cache.len + (Activity.reclaimed.numbers m.cache.log).length ∧
      ∀ i e t, ((∃ v, (m.cache.entry i).set? m.cache.settings.stale v = some (e, t)) ∨
          (m.cache.entry i).expire? m.cache.settings.stale = some (e, t)) →
        t.cancelled = true → ∃ l ∈ (m.cache.entry i).underway, t.generation = l.generation + 1) ∧
    ∀ steps, Ticks (start settings ttl plan) ((start settings ttl plan).after steps) ∧
      ((start settings ttl plan).run steps).flatMap (·.events) =
        ((start settings ttl plan).after steps).cache.log := by
  have first : Accounts settings (start settings ttl plan).cache [] :=
    Cache.accounts_ofSettings settings
  have governed := governed_start settings ttl plan
  have ordered : Ordered True settings ttl none (start settings ttl plan) :=
    ordered_start settings ttl plan
  refine ⟨fun m ticks => ?_, fun steps => ⟨(ordered.ticks steps).2, ?_⟩⟩
  · obtain ⟨book, accounts⟩ := Ticks.accounts governed first ticks
    have coherent := (governed.ticks ticks).coherent
    refine ⟨accounts.generations_balance coherent logs, ⟨_, accounts.log logs, ?_, ?_,
      accounts.once, accounts.preceded⟩, fun n text g => accounts.faults logs,
      accounts.writes logs, accounts.made logs, fun i e t made cancelled =>
        (coherent.sound i).underway_of_cancelled made cancelled⟩
    · exact fun i l made => ⟨accounts.opened_once coherent made, accounts.closed_once coherent made⟩
    · intro i l mem
      rw [← List.count_pos_iff, accounts.opened] at mem
      exact List.count_pos_iff.1 mem
  · exact events_run logs governed ordered first steps

/-- A computation sets its own key: it is cancelled, and its result is discarded. -/
theorem log_accounts_discarded :
    let settings : Settings := { logs := true }
    let plan : Plan :=
      { fallback := { steps := [.command (.cache "main" (.set (some "a") (some 7)))] } }
    let s := (start settings none plan).after
      [.command (.cache "main" (.snapshot (some "a"))), .runAll 1]
    settings.logs = true ∧ Ticks (start settings none plan) s ∧
    s.cache.log = [⟨.computing, 0⟩, ⟨.installed, 1⟩, ⟨.cancelled, 0⟩, ⟨.discarded, 0⟩] ∧
    (Activity.computing.numbers s.cache.log).Perm (Activity.settled.numbers s.cache.log ++
      Activity.cancelled.numbers s.cache.log ++ s.cache.underway) := by
  intro settings plan s
  have accounts := log_accounts settings none plan rfl
  have ticks := (accounts.2 [.command (.cache "main" (.snapshot (some "a"))), .runAll 1]).1
  exact ⟨rfl, ticks, by decide +kernel, (accounts.1 s ticks).1⟩

end Session

end LiveCache
