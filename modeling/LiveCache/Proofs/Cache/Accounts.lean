import LiveCache.Proofs.Cache.Ledger
import Mathlib.Data.List.Perm.Basic

/-! # The book of a cache

All that was written down since a cache was made is its book. A launch gets one verdict at most,
when its task hands in a result. The verdict is marked right after the fault that the result
reports, and a result that comes too late is that of a computation that was cancelled before.
-/

namespace LiveCache.Cache

variable {κ ε α : Type} [DecidableEq κ] {settings : Settings} {c d : Cache κ ε α}
  {lines book : List (Line κ)}

/-! ## Walks that are put in order -/

/-- The events of an operation may be put in another order, and so may the tasks that it has
launched. -/
theorem Routine.rearrange (h : Routine c d) {tasks : List (Task κ)} (listed : tasks.Perm d.tasks)
    {log : List Event} (order : List Event → List Event) (perm : ∀ l, (order l).Perm l)
    (ordered : log = c.log ++ order (d.log.drop c.log.length)) :
    Routine c { d with tasks := tasks, log := log } := by
  obtain ⟨lines, posts, routine⟩ := h.posts
  have both : Relation.Comp (· = List.map Line.event ·) List.Perm (order (lines.map Line.event))
      lines := by
    rw [List.eq_map_comp_perm]
    exact perm _
  obtain ⟨lines', same, moved⟩ := both
  refine ⟨⟨lines', ?_, fun x mem => routine x (moved.mem_iff.1 mem)⟩, h.returned⟩
  exact {
    settings := posts.settings
    log := by
      intro logs
      rw [ordered, posts.log logs, List.drop_left, same]
    opened := fun i l => by
      rw [moved.count_eq]
      exact posts.opened i l
    closed := fun i l => by
      rw [moved.count_eq, moved.count_eq, moved.count_eq]
      exact posts.closed i l
    grown := by
      rw [moved.countP_eq]
      exact posts.grown
    made := by
      rw [moved.countP_eq]
      exact posts.made
    tasks := fun t ht => posts.tasks t (listed.mem_iff.1 ht) }

/-! ## Results -/

theorem posts_withdraw (c : Cache κ ε α) (t : Task κ) (report : Option String) :
    Posts c (c.withdraw t report)
      (report.toList.map fun text => .of t.entry (.faulted t.launch text)) := by
  cases report with
  | none =>
      exact posts_of_same rfl rfl rfl rfl rfl fun u hu => ((mem_removeTask c t.id u).1 hu).1
  | some text =>
      refine posts_of_remarks (record_settings _ _ _) (fun logs => ?_) (record_entries _ _ _)
        (record_created _ _ _) (record_table _ _ _) (fun u hu => ?_) (by simp [Line.isRemark])
      · exact record_log (c := c.removeTask t.id) logs _ _
      · rw [withdraw, record_tasks] at hu
        exact ((mem_removeTask c t.id u).1 hu).1

theorem posts_settle_of_owns {t : Task κ} {previous : Option (Outcome ε α)}
    (hp : (c.entry t.entry).phase = .computing t.launch previous) (o : Outcome ε α) :
    Posts c (c.settle t o) [.of t.entry (.settled t.launch)] := by
  have owned : (c.entry t.entry).owns t.launch.generation = true :=
    (Entry.owns_iff _ _).2 ⟨_, _, hp, rfl⟩
  rw [settle_of_owns owned]
  have balance : Entry.Balance (c.entry t.entry) ((c.entry t.entry).concluded c.settings.stale o)
      [.settled t.launch] := Entry.balance_concluded hp o
  refine posts_touch balance ?_ ?_ ?_ ?_ ?_ ?_ ?_
  · simp
  · exact fun logs => record_log (c := (c.note _).put t.entry _) logs _ _
  · simp [put]
  · simp
  · simp
  · exact fun u hu => .inl (by simpa using hu)
  · simp [Mark.removes]

theorem Coherent.posts_settle_of_not_owns (h : Coherent c []) {t : Task κ}
    (disowned : (c.entry t.entry).owns t.launch.generation = false) (o : Outcome ε α) :
    Posts c (c.settle t o) [.of t.entry (.discarded t.launch)] := by
  rw [h.settle_eq disowned]
  refine posts_touch (Entry.balance_discarded (c.entry t.entry) t.launch) ?_ ?_ ?_ ?_ ?_ ?_ ?_
  · simp
  · exact fun logs => record_log (c := (c.note _).put t.entry _) logs _ _
  · simp [put]
  · simp
  · simp
  · exact fun u hu => .inl (by simpa using hu)
  · simp [Mark.removes]

/-! ## Whole books -/

/-- The marks of what became of the result of a launch. -/
def verdicts (book : List (Line κ)) (i : EntryId κ) (l : Launch) : Nat :=
  book.count (.of i (.settled l)) + book.count (.of i (.discarded l))

theorem verdicts_append (book lines : List (Line κ)) (i : EntryId κ) (l : Launch) :
    verdicts (book ++ lines) i l = verdicts book i l + verdicts lines i l := by
  simp only [verdicts, List.count_append]
  omega

structure Accounts (settings : Settings) (c : Cache κ ε α) (book : List (Line κ)) : Prop where
  posts : Posts (ofSettings settings) c book
  once : ∀ i l, verdicts book i l ≤ 1
  /-- The result of a listed task was not handed in. -/
  pending : ∀ t ∈ c.tasks, verdicts book t.entry t.launch = 0
  preceded : ∀ (n : Nat) i l, book[n]? = some (Line.of i (.discarded l)) →
    ∃ m < n, book[m]? = some (Line.of i (.cancelled l))
  reported : ∀ (n : Nat) i l text, book[n]? = some (Line.of i (.faulted l text)) →
    ∃ m, (m = .settled l ∨ m = .discarded l) ∧ book[n + 1]? = some (Line.of i m)

theorem accounts_ofSettings (settings : Settings) :
    Accounts settings (ofSettings settings : Cache κ ε α) [] where
  posts := posts_of_same rfl rfl rfl rfl rfl fun _ => id
  once := by simp [verdicts]
  pending := by simp [verdicts]
  preceded := by simp
  reported := by simp

theorem Accounts.opened (h : Accounts settings c book) (i : EntryId κ) (l : Launch) :
    book.count (.of i (.computing l)) = (c.entry i).launches.count l := by
  have opened := h.posts.opened i l
  rwa [show ((ofSettings settings : Cache κ ε α).entry i).launches.count l = 0 from rfl] at opened

theorem Accounts.closed (h : Accounts settings c book) (i : EntryId κ) (l : Launch) :
    book.count (.of i (.settled l)) + book.count (.of i (.cancelled l)) +
      (c.entry i).underway.count l = book.count (.of i (.computing l)) := by
  have closed := h.posts.closed i l
  rwa [show ((ofSettings settings : Cache κ ε α).entry i).underway.count l = 0 from rfl,
    Nat.zero_add] at closed

/-- A launch that was not made yet has no verdict. -/
theorem Accounts.verdicts_of_new (h : Accounts settings c book) {i : EntryId κ} {l : Launch}
    (new : l ∉ (c.entry i).launches) : verdicts book i l = 0 := by
  have opened := h.opened i l
  have closed := h.closed i l
  rw [List.count_eq_zero.2 new] at opened
  have discarded : Line.of i (.discarded l) ∉ book := by
    intro mem
    obtain ⟨n, found⟩ := List.mem_iff_getElem?.1 mem
    obtain ⟨m, -, before⟩ := h.preceded n i l found
    have cancelled := List.count_pos_iff.2 (List.mem_of_getElem? before)
    omega
  rw [verdicts, List.count_eq_zero.2 discarded]
  omega

theorem Accounts.append (h : Accounts settings c book) (posts : Posts c d lines)
    (once : ∀ i l, 0 < verdicts lines i l → verdicts book i l + verdicts lines i l ≤ 1)
    (pending : ∀ t ∈ d.tasks, verdicts lines t.entry t.launch = 0)
    (preceded : ∀ i l, Line.of i (.discarded l) ∈ lines → Line.of i (.cancelled l) ∈ book)
    (reported : ∀ (n : Nat) i l text, lines[n]? = some (Line.of i (.faulted l text)) →
      ∃ m, (m = .settled l ∨ m = .discarded l) ∧ lines[n + 1]? = some (Line.of i m)) :
    Accounts settings d (book ++ lines) where
  posts := h.posts.trans posts
  once := by
    intro i l
    rw [verdicts_append]
    rcases Nat.eq_zero_or_pos (verdicts lines i l) with none | some
    · rw [none]
      exact h.once i l
    · exact once i l some
  pending := by
    intro t ht
    rw [verdicts_append, pending t ht, Nat.add_zero]
    rcases posts.tasks t ht with before | launched
    · exact h.pending t before
    · exact h.verdicts_of_new launched
  preceded := by
    intro n i l found
    rcases Nat.lt_or_ge n book.length with before | after
    · rw [List.getElem?_append_left before] at found
      obtain ⟨m, lt, cancelled⟩ := h.preceded n i l found
      exact ⟨m, lt, by rw [List.getElem?_append_left (Nat.lt_trans lt before), cancelled]⟩
    · rw [List.getElem?_append_right after] at found
      obtain ⟨m, lt, here⟩ := List.mem_iff_getElem.1 (preceded i l (List.mem_of_getElem? found))
      refine ⟨m, Nat.lt_of_lt_of_le lt after, ?_⟩
      rw [List.getElem?_append_left lt, List.getElem?_eq_getElem lt, here]
  reported := by
    intro n i l text found
    rcases Nat.lt_or_ge n book.length with before | after
    · rw [List.getElem?_append_left before] at found
      obtain ⟨m, kind, next⟩ := h.reported n i l text found
      obtain ⟨inside, -⟩ := List.getElem?_eq_some_iff.1 next
      exact ⟨m, kind, by rw [List.getElem?_append_left inside, next]⟩
    · rw [List.getElem?_append_right after] at found
      obtain ⟨m, kind, next⟩ := reported _ i l text found
      refine ⟨m, kind, ?_⟩
      rw [List.getElem?_append_right (by omega), Nat.sub_add_comm after, next]

theorem Accounts.routine (h : Accounts settings c book) (routine : Routine c d) :
    ∃ lines, Accounts settings d (book ++ lines) := by
  obtain ⟨lines, posts, plain⟩ := routine.posts
  have absent : ∀ x : Line κ, x.isRoutine = false → x ∉ lines := by
    intro x other mem
    rw [plain x mem] at other
    cases other
  have none : ∀ i l, verdicts lines i l = 0 := by
    intro i l
    rw [verdicts, List.count_eq_zero.2 (absent (.of i (.settled l)) rfl),
      List.count_eq_zero.2 (absent (.of i (.discarded l)) rfl)]
  refine ⟨lines, h.append posts (fun i l some => ?_) (fun t _ => none _ _) ?_ ?_⟩
  · rw [none] at some
    cases some
  · exact fun i l mem => absurd mem (absent _ rfl)
  · exact fun n i l text found => absurd (List.mem_of_getElem? found) (absent _ rfl)

/-- The launch of a listed task that is not under way was cancelled. -/
theorem Accounts.cancelled (h : Accounts settings c book) {t : Task κ} (listed : t ∈ c.tasks)
    (handed : t.launch ∈ (c.entry t.entry).launches)
    (idle : t.launch ∉ (c.entry t.entry).underway) :
    Line.of t.entry (.cancelled t.launch) ∈ book := by
  have opened := h.opened t.entry t.launch
  have closed := h.closed t.entry t.launch
  have made := List.count_pos_iff.2 handed
  have pending := h.pending t listed
  rw [List.count_eq_zero.2 idle] at closed
  rw [verdicts] at pending
  exact List.count_pos_iff.1 (by omega)

/-- What is written down when a task hands in its result: its fault, if there is one, and the
verdict on the result. -/
def closing (t : Task κ) (report : Option String) (m : Mark) : List (Line κ) :=
  (report.toList.map fun text => .of t.entry (.faulted t.launch text)) ++ [.of t.entry m]

omit [DecidableEq κ] in
theorem eq_verdict_of_mem_closing {t : Task κ} {report : Option String} {m : Mark} {x : Line κ}
    (mem : x ∈ closing t report m) (other : ∀ i l text, x ≠ .of i (.faulted l text)) :
    x = .of t.entry m := by
  rcases List.mem_append.1 mem with fault | verdict
  · obtain ⟨text, -, rfl⟩ := List.mem_map.1 fault
    exact absurd rfl (other t.entry t.launch text)
  · exact List.mem_singleton.1 verdict

omit [DecidableEq κ] in
theorem reported_closing {t : Task κ} (report : Option String) {m : Mark}
    (verdict : m = .settled t.launch ∨ m = .discarded t.launch) {n : Nat} {i : EntryId κ}
    {l : Launch} {text : String}
    (found : (closing t report m)[n]? = some (Line.of i (.faulted l text))) :
    ∃ m', (m' = .settled l ∨ m' = .discarded l) ∧
      (closing t report m)[n + 1]? = some (Line.of i m') := by
  have last : ∀ n : Nat, [Line.of t.entry m][n]? ≠ some (Line.of i (.faulted l text)) := by
    intro n here
    obtain ⟨-, same⟩ := Line.of.inj (List.mem_singleton.1 (List.mem_of_getElem? here))
    rcases verdict with rfl | rfl <;> cases same
  cases report with
  | none => exact absurd found (last n)
  | some message =>
      cases n with
      | zero =>
          obtain ⟨rfl, same⟩ := Line.of.inj (Option.some.inj found)
          cases same
          exact ⟨m, verdict, rfl⟩
      | succ n => exact absurd found (last n)

theorem verdicts_closing (t : Task κ) (report : Option String) {m : Mark}
    (verdict : m = .settled t.launch ∨ m = .discarded t.launch) (i : EntryId κ) (l : Launch) :
    verdicts (closing t report m) i l = if t.entry = i ∧ t.launch = l then 1 else 0 := by
  have faults : ∀ x, (∀ text, x ≠ Mark.faulted t.launch text) →
      (report.toList.map fun text => Line.of t.entry (.faulted t.launch text)).count
        (.of i x) = 0 := by
    intro x other
    rw [List.count_eq_zero]
    intro mem
    obtain ⟨text, -, same⟩ := List.mem_map.1 mem
    exact other text (Line.of.inj same).2.symm
  simp only [verdicts, closing, List.count_append]
  rw [faults _ (by simp), faults _ (by simp)]
  rcases verdict with rfl | rfl <;> simp [List.count_cons]

/-- A task hands in its result, and reports its fault before, if there is one. -/
theorem Accounts.finish (h : Accounts settings c book) (coherent : Coherent c []) {t : Task κ}
    (listed : t ∈ c.tasks) (report : Option String) (o : Outcome ε α) :
    ∃ lines, Accounts settings ((c.withdraw t report).settle t o) (book ++ lines) := by
  have ending := coherent.ending listed report
  have handed := ending.handed
  have close : ∀ m : Mark, (m = .settled t.launch ∨ m = .discarded t.launch) →
      Posts (c.withdraw t report) ((c.withdraw t report).settle t o) [.of t.entry m] →
      (m = .discarded t.launch → Line.of t.entry (.cancelled t.launch) ∈ book) →
      Accounts settings ((c.withdraw t report).settle t o) (book ++ closing t report m) := by
    intro m verdict posts cancelled
    refine h.append ((posts_withdraw c t report).trans posts) ?_ ?_ ?_ ?_
    · intro i l some
      rw [verdicts_closing t report verdict] at some ⊢
      split at some
      next same =>
        rw [if_pos same, ← same.1, ← same.2]
        exact Nat.le_of_eq (congrArg (· + 1) (h.pending t listed))
      next => cases some
    · intro u hu
      rw [settle_tasks ending.coherent] at hu
      rw [verdicts_closing t report verdict, if_neg]
      exact fun same => ending.alone u hu same.1.symm same.2.symm
    · intro i l mem
      obtain ⟨rfl, same⟩ := Line.of.inj (eq_verdict_of_mem_closing mem (by simp))
      rcases verdict with rfl | rfl
      · cases same
      · cases same
        exact cancelled rfl
    · exact fun n i l text => reported_closing report verdict
  cases owned : ((c.withdraw t report).entry t.entry).owns t.launch.generation with
  | true =>
      obtain ⟨previous, hp⟩ := ending.coherent.computing_of_owns handed owned
      exact ⟨_, close (.settled t.launch) (.inl rfl) (posts_settle_of_owns hp o) (by simp)⟩
  | false =>
      refine ⟨_, close (.discarded t.launch) (.inr rfl)
        (ending.coherent.posts_settle_of_not_owns owned o) fun _ => ?_⟩
      rw [ending.entry] at owned handed
      refine h.cancelled listed handed fun underway => ?_
      obtain ⟨previous, hp⟩ := Entry.mem_underway.1 underway
      rw [(Entry.owns_iff _ _).2 ⟨_, _, hp, rfl⟩] at owned
      cases owned

end LiveCache.Cache
