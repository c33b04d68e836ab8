import LiveCache.Proofs.Cache.Stride

/-! # What readers are shown as current

The latest write of a key decides what a reader of the key may be given as its current outcome.
After a set it is the value that was set; only when the entry was removed since may it be the result
of a computation. Otherwise it is the result of a computation that was begun after the write.
`Faithful` says that all deliveries so far were of this kind, and what the entries and tasks of a
cache have to satisfy for the next ones to be.
-/

namespace LiveCache.Cache

variable {κ ε α : Type} [DecidableEq κ]

/-! ## Histories -/

/-- The latest write of a key. -/
def lastWrite? (k : κ) (past : List (Happening κ ε α)) : Option (Happening κ ε α) :=
  past.find? fun x => x.writes k

/-- What has happened since the latest write of a key. -/
def since (k : κ) (past : List (Happening κ ε α)) : List (Happening κ ε α) :=
  past.takeWhile fun x => !x.writes k

/-- A computation of the key was begun, and has come to the outcome after that. -/
def Computed (k : κ) (o : Outcome ε α) (part : List (Happening κ ε α)) : Prop :=
  ∃ t : TaskId κ, t.key = k ∧ [.returned t o, .called t].Sublist part

/-- A reader may be given the outcome as the current one of the key. -/
def Fresh (r : Retention) (k : κ) (past : List (Happening κ ε α)) (o : Outcome ε α) : Prop :=
  match lastWrite? k past with
  | some (.installed _ v) =>
      o = .success v ∨
        r ≠ .forever ∧ (∃ n, .removed ⟨k, n⟩ ∈ since k past) ∧ Computed k o (since k past)
  | _ => Computed k o (since k past)

/-- Whatever was delivered as current was fresh when it was delivered. -/
def Told (r : Retention) (past : List (Happening κ ε α)) : Prop :=
  ∀ i o earlier, (.delivered i (.known o .done) :: earlier) <:+ past → Fresh r i.key earlier o

variable {k : κ} {r : Retention} {o : Outcome ε α} {new past : List (Happening κ ε α)}

theorem writes_of_minor {x : Happening κ ε α} (minor : x.isMinor = true) (k : κ) :
    x.writes k = false := by
  cases x <;> simp_all [Happening.isMinor, Happening.writes]

theorem lastWrite?_append (new : List (Happening κ ε α)) (quiet : ∀ x ∈ new, x.writes k = false) :
    lastWrite? k (new ++ past) = lastWrite? k past := by
  rw [lastWrite?, List.find?_append, List.find?_eq_none.2 (by simpa using quiet), Option.none_or]
  rfl

theorem since_append (new : List (Happening κ ε α)) (quiet : ∀ x ∈ new, x.writes k = false) :
    since k (new ++ past) = new ++ since k past := by
  unfold since
  rw [List.takeWhile_append_of_pos]
  simpa using quiet

theorem lastWrite?_cons {x : Happening κ ε α} (quiet : x.writes k = false) :
    lastWrite? k (x :: past) = lastWrite? k past :=
  lastWrite?_append [x] (by simpa using quiet)

theorem since_cons {x : Happening κ ε α} (quiet : x.writes k = false) :
    since k (x :: past) = x :: since k past :=
  since_append [x] (by simpa using quiet)

theorem lastWrite?_cons_of_writes {x : Happening κ ε α} (write : x.writes k = true) :
    lastWrite? k (x :: past) = some x := by
  simp [lastWrite?, write]

theorem since_subset : since k past ⊆ past :=
  (List.takeWhile_prefix _).subset

omit [DecidableEq κ] in
theorem Computed.append (h : Computed k o past) (new : List (Happening κ ε α)) :
    Computed k o (new ++ past) := by
  obtain ⟨t, key, sub⟩ := h
  exact ⟨t, key, sub.trans (List.sublist_append_right new past)⟩

/-- What is fresh stays so until the next write. -/
theorem Fresh.append (h : Fresh r k past o) (new : List (Happening κ ε α))
    (quiet : ∀ x ∈ new, x.writes k = false) :
    Fresh r k (new ++ past) o := by
  unfold Fresh at h ⊢
  rw [lastWrite?_append new quiet, since_append new quiet]
  split at h
  next v last =>
    rcases h with same | ⟨forgets, ⟨n, removed⟩, computed⟩
    · exact .inl same
    · exact .inr ⟨forgets, ⟨n, List.mem_append_right _ removed⟩, computed.append new⟩
  next => exact h.append new

theorem Told.append (h : Told r past) (quiet : ∀ x ∈ new, ∀ k, x.writes k = false)
    (fresh : ∀ i o, .delivered i (.known o .done) ∈ new → Fresh r i.key past o) :
    Told r (new ++ past) := by
  induction new with
  | nil => exact h
  | cons x rest ih =>
      have told := ih (fun y hy => quiet y (List.mem_cons_of_mem _ hy))
        fun i o mem => fresh i o (List.mem_cons_of_mem _ mem)
      intro i o earlier suffix
      rw [List.cons_append, List.suffix_cons_iff] at suffix
      rcases suffix with here | before
      · obtain ⟨rfl, rfl⟩ := List.cons.inj here
        refine (fresh i o List.mem_cons_self).append rest fun y hy => ?_
        exact quiet y (List.mem_cons_of_mem _ hy) i.key
      · exact told i o earlier before

/-- Whatever is not a delivery needs no care. -/
theorem Told.cons (h : Told r past) {x : Happening κ ε α}
    (other : ∀ i v, x ≠ .delivered i v) : Told r (x :: past) := by
  intro i o earlier suffix
  rcases List.suffix_cons_iff.1 suffix with here | before
  · exact absurd (List.cons.inj here).1.symm (other i _)
  · exact h i o earlier before

/-! ## The invariant -/

variable {c d : Cache κ ε α} {loose : List (EntryId κ)} {spared : κ → Prop}

/-- What a task may come to, and what an entry shows, is in keeping with the history of the key. -/
structure Tracked (c : Cache κ ε α) (k : κ) : Prop where
  /-- The computation under way was begun after the latest write. -/
  recent : ∀ t ∈ c.tasks, t.entry.key = k → ∀ previous,
    (c.entry t.entry).phase = .computing t.launch previous → .called t.id ∈ c.history →
    .called t.id ∈ since k c.history
  current : ∀ i o, c.Holds i → i.key = k → (c.entry i).phase = .settled o →
    Fresh c.settings.retention k c.history o
  /-- A value that was set lasts until it is written over or removed. -/
  standing : ∀ l v, lastWrite? k c.history = some (.installed l v) →
    (∃ n, .removed ⟨k, n⟩ ∈ since k c.history) ∨
      ∃ i, c.Holds i ∧ i.key = k ∧ (c.entry i).phase = .settled (.success v)

/-- Only tasks that exist were called. -/
def Booked (c : Cache κ ε α) : Prop :=
  ∀ t : TaskId κ, .called t ∈ c.history → t.ordinal < Tally.count c.spawned t.key

/-- A cache that keeps its entries forever has removed none. -/
def Permanent (c : Cache κ ε α) : Prop :=
  c.settings.retention = .forever → ∀ i, .removed i ∉ c.history

structure Faithful (c : Cache κ ε α) : Prop where
  booked : Booked c
  permanent : Permanent c
  tracked : ∀ k, Tracked c k
  told : Told c.settings.retention c.history

theorem faithful_ofSettings (s : Settings) : Faithful (ofSettings s : Cache κ ε α) where
  booked := by
    intro t ht
    cases ht
  permanent := by
    intro _ i hi
    cases hi
  tracked := by
    intro k
    refine ⟨?_, ?_, ?_⟩
    · intro t ht
      cases ht
    · intro i o hi
      rw [holds_iff] at hi
      cases hi
    · intro l v last
      cases last
  told := by
    intro i o earlier suffix
    cases List.suffix_nil.1 suffix

/-! ## Operations that spare a key -/

theorem Course.booked (course : Course spared c d loose) (h : Booked c) : Booked d := by
  intro t called
  rw [course.past, List.mem_append] at called
  rcases called with late | early
  · have minor := course.minor _ late
    cases minor
  · exact Nat.lt_of_lt_of_le (h t early) (course.spawned t.key)

theorem Course.permanent_of (course : Course spared c d loose) (h : Permanent c) : Permanent d := by
  intro keeps i removed
  rw [course.settings] at keeps
  rw [course.past, List.mem_append] at removed
  exact removed.elim (course.permanent keeps i) (h keeps i)

theorem Course.quiet (course : Course spared c d loose) (k : κ) :
    ∀ x ∈ added c d, x.writes k = false := fun x hx => writes_of_minor (course.minor x hx) k

theorem Course.tracked (course : Course spared c d loose) (booked : Booked c) (h : Tracked c k)
    (free : spared k) : Tracked d k where
  recent := by
    intro t ht key previous hp called
    rw [course.past, since_append _ (course.quiet k)]
    have early : .called t.id ∈ c.history := by
      rw [course.past, List.mem_append] at called
      rcases called with late | early
      · have minor := course.minor _ late
        cases minor
      · exact early
    by_cases old : t ∈ c.tasks
    · obtain ⟨previous', hp'⟩ := course.going t old previous hp
      exact List.mem_append_right _ (h.recent t old key previous' hp' early)
    · have bound := booked t.id early
      have number := course.begun t ht old
      omega
  current := by
    intro i o hi key hp
    obtain ⟨hi', hp'⟩ := course.settled i o (key ▸ free) hi hp
    rw [course.settings, course.past]
    exact (h.current i o hi' key hp').append _ (course.quiet k)
  standing := by
    intro l v last
    rw [course.past, lastWrite?_append _ (course.quiet k)] at last
    rw [course.past, since_append _ (course.quiet k)]
    rcases h.standing l v last with ⟨n, removed⟩ | ⟨i, hi, key, hp⟩
    · exact .inl ⟨n, List.mem_append_right _ removed⟩
    · rcases course.lasting i _ (key ▸ free) hi hp with ⟨hi', hp'⟩ | removed
      · exact .inr ⟨i, hi', key, hp'⟩
      · refine .inl ⟨i.ordinal, List.mem_append_left _ ?_⟩
        rwa [← key]

theorem Faithful.course (h : Faithful c) (course : ∀ spared, Course spared c d loose) :
    Faithful d where
  booked := (course fun _ => True).booked h.booked
  permanent := (course fun _ => True).permanent_of h.permanent
  tracked := fun k => (course fun _ => True).tracked h.booked (h.tracked k) trivial
  told := by
    have all := course fun _ => True
    rw [all.settings, all.past]
    refine h.told.append (fun x hx k => all.quiet k x hx) fun i o mem => ?_
    obtain ⟨hi, hp⟩ := all.shown i o trivial mem
    exact (h.tracked i.key).current i o hi rfl hp

/-! ## Notes -/

/-- A happening that is no write of a key keeps it tracked. -/
theorem Tracked.note (h : Tracked c k) {x : Happening κ ε α} (quiet : x.writes k = false) :
    Tracked (c.note x) k where
  recent := by
    intro t ht key previous hp called
    rw [note_history, since_cons quiet]
    rcases List.mem_cons.1 called with here | early
    · rw [here]
      exact List.mem_cons_self
    · exact List.mem_cons_of_mem _ (h.recent t ht key previous hp early)
  current := fun i o hi key hp =>
    (h.current i o hi key hp).append [x] (by simpa using quiet)
  standing := by
    intro l v last
    rw [note_history, lastWrite?_cons quiet] at last
    rw [note_history, since_cons quiet]
    rcases h.standing l v last with ⟨n, removed⟩ | held
    · exact .inl ⟨n, List.mem_cons_of_mem _ removed⟩
    · exact .inr held

theorem Booked.note (h : Booked c) {x : Happening κ ε α}
    (known : ∀ t, x = .called t → t.ordinal < Tally.count c.spawned t.key) :
    Booked (c.note x) := by
  intro t called
  rcases List.mem_cons.1 called with here | early
  · exact known t here.symm
  · exact h t early

omit [DecidableEq κ] in
theorem Permanent.note (h : Permanent c) {x : Happening κ ε α} (stays : ∀ i, x ≠ .removed i) :
    Permanent (c.note x) := by
  intro keeps i removed
  rcases List.mem_cons.1 removed with here | early
  · exact stays i here.symm
  · exact h keeps i early

/-- What is neither a write nor a delivery. -/
theorem Faithful.note (h : Faithful c) {x : Happening κ ε α}
    (known : ∀ t, x = .called t → t.ordinal < Tally.count c.spawned t.key)
    (stays : ∀ i, x ≠ .removed i) (quiet : ∀ k, x.writes k = false)
    (other : ∀ i v, x ≠ .delivered i v) : Faithful (c.note x) where
  booked := h.booked.note known
  permanent := h.permanent.note stays
  tracked := fun k => (h.tracked k).note (quiet k)
  told := h.told.cons other

/-! ## Writes -/

/-- A value that was just set is what readers are shown. -/
theorem tracked_of_installed (h : Coherent d loose) {value : α}
    (past : d.history = .installed k value :: c.history)
    (held : ∃ i, d.Holds i ∧ i.key = k ∧ (d.entry i).phase = .settled (.success value)) :
    Tracked d k := by
  obtain ⟨i, hi, key, hp⟩ := held
  have last : lastWrite? k d.history = some (.installed k value) := by
    rw [past]
    exact lastWrite?_cons_of_writes (by simp [Happening.writes])
  refine ⟨?_, ?_, ?_⟩
  · intro t _ same previous hp'
    have here := (h.holds_of_computing hp').unique hi (same.trans key.symm)
    rw [here, hp] at hp'
    cases hp'
  · intro j o hj same hp'
    rw [hj.unique hi (same.trans key.symm), hp] at hp'
    unfold Fresh
    rw [last]
    exact .inl (Phase.settled.inj hp').symm
  · intro l v last'
    rw [last] at last'
    cases last'
    exact .inr ⟨i, hi, key, hp⟩

/-- After an expiration only a computation that is begun anew can come to an outcome. -/
theorem tracked_of_renewed (course : Course spared c d loose) (booked : Booked c)
    (renewed : Renewed c d k) (last : ∀ l v, lastWrite? k d.history ≠ some (.installed l v)) :
    Tracked d k where
  recent := by
    intro t ht key previous hp called
    by_cases old : t ∈ c.tasks
    · exact absurd hp (renewed.computation t old key previous)
    · rw [course.past, List.mem_append] at called
      rcases called with late | early
      · have minor := course.minor _ late
        cases minor
      · have bound := booked t.id early
        have number := course.begun t ht old
        omega
  current := fun i o hi key hp => absurd hp (renewed.outcome i o hi key)
  standing := fun l v last' => absurd last' (last l v)

theorem Faithful.install (h : Faithful c) {k : κ} {value : α}
    (past : d.history = .installed k value :: c.history)
    (course : Course (· ≠ k) (c.note (.installed k value)) d loose)
    (held : ∃ i, d.Holds i ∧ i.key = k ∧ (d.entry i).phase = .settled (.success value)) :
    Faithful d where
  booked := course.booked (h.booked.note (by simp))
  permanent := course.permanent_of (h.permanent.note (by simp))
  tracked := by
    intro k'
    by_cases same : k' = k
    · rw [same]
      exact tracked_of_installed course.coherent past held
    · have noted : Tracked (c.note (.installed k value)) k' :=
        (h.tracked k').note (by simp [Happening.writes, Ne.symm same])
      exact course.tracked (h.booked.note (by simp)) noted same
  told := by
    rw [course.settings, past]
    exact h.told.cons (by simp)

theorem Faithful.expire (h : Faithful c) {w : Happening κ ε α}
    (kind : w = .expiredAll ∨ ∃ k, w = .expired k) (past : d.history = w :: c.history)
    (course : Course (fun k => w.writes k = false) (c.note w) d loose)
    (renewed : ∀ k, w.writes k = true → Renewed (c.note w) d k) : Faithful d := by
  have plain : (∀ t, w ≠ .called t) ∧ (∀ i, w ≠ .removed i) ∧ (∀ i v, w ≠ .delivered i v) ∧
      ∀ l v, w ≠ .installed l v := by
    rcases kind with rfl | ⟨k, rfl⟩ <;> simp
  obtain ⟨begins, removes, delivers, installs⟩ := plain
  have booked : Booked (c.note w) := h.booked.note fun t eq => absurd eq (begins t)
  exact {
    booked := course.booked booked
    permanent := course.permanent_of (h.permanent.note removes)
    tracked := by
      intro k
      cases write : w.writes k with
      | true =>
          refine tracked_of_renewed course booked (renewed k write) fun l v last => ?_
          rw [past, lastWrite?_cons_of_writes write] at last
          exact installs l v (Option.some.inj last)
      | false => exact course.tracked booked ((h.tracked k).note write) write
    told := by
      rw [course.settings, past]
      exact h.told.cons delivers }

/-! ## Results -/

/-- Nothing that was required of a task is required when it is gone. -/
theorem Ending.tracked {t : Task κ} {e : Cache κ ε α} (ending : Ending c t e)
    (h : Tracked c k) : Tracked e k where
  recent := by
    intro u hu
    rw [ending.tasks] at hu
    rw [ending.entry, ending.history]
    exact h.recent u ((mem_removeTask c t.id u).1 hu).1
  current := by
    intro i o hi
    rw [holds_iff, ending.table, ← holds_iff] at hi
    rw [ending.entry, ending.settings, ending.history]
    exact h.current i o hi
  standing := by
    intro l v last
    rw [ending.history] at last ⊢
    rcases h.standing l v last with removed | ⟨i, hi, key, hp⟩
    · exact .inl removed
    · refine .inr ⟨i, ?_, key, ?_⟩
      · rwa [holds_iff, ending.table, ← holds_iff]
      · rwa [ending.entry]

theorem Ending.faithful {t : Task κ} {e : Cache κ ε α} (ending : Ending c t e)
    (h : Faithful c) : Faithful e where
  booked := by
    intro x called
    rw [ending.history] at called
    rw [ending.spawned]
    exact h.booked x called
  permanent := by
    intro keeps
    rw [ending.settings] at keeps
    rw [ending.history]
    exact h.permanent keeps
  tracked := fun k => ending.tracked (h.tracked k)
  told := by
    rw [ending.settings, ending.history]
    exact h.told

/-- The task whose result is accepted was begun after the latest write of its key. -/
theorem Ending.tracked_settle {t : Task κ} {e : Cache κ ε α} (ending : Ending c t e)
    (hc : Coherent c []) (h : Faithful c) (listed : t ∈ c.tasks)
    (called : .called t.id ∈ c.history)
    (owned : (e.entry t.entry).owns t.launch.generation = true) (o : Outcome ε α) :
    Tracked (e.settle t o) t.entry.key := by
  have phase := settle_phase owned o
  have course := ending.settle o
  obtain ⟨previous, hp⟩ := ending.coherent.computing_of_owns ending.handed owned
  rw [ending.entry] at hp
  have held : c.Holds t.entry := hc.holds_of_computing hp
  have held' : (e.settle t o).Holds t.entry := by
    rw [Cache.settle_of_owns owned o, holds_iff, record_table]
    rwa [holds_iff, ← ending.table] at held
  have past : (e.settle t o).history = .returned t.id o :: c.history := by
    rw [settle_history ending.coherent, ending.history]
  have key := (hc.named t listed).1
  have computed : Computed t.entry.key o (since t.entry.key (e.settle t o).history) := by
    refine ⟨t.id, key, ?_⟩
    rw [past, since_cons rfl]
    refine List.Sublist.cons_cons _ (List.singleton_sublist.2 ?_)
    exact (h.tracked _).recent t listed rfl previous hp called
  -- An entry that computes does not show the value that was set, so the entry that did is gone.
  have removed : ∀ l v, lastWrite? t.entry.key (e.settle t o).history = some (.installed l v) →
      ∃ n, .removed ⟨t.entry.key, n⟩ ∈ since t.entry.key (e.settle t o).history := by
    intro l v last
    rw [past, lastWrite?_cons rfl] at last
    rw [past, since_cons rfl]
    rcases (h.tracked _).standing l v last with ⟨n, removed⟩ | ⟨i, hi, same, hp'⟩
    · exact ⟨n, List.mem_cons_of_mem _ removed⟩
    · rw [hi.unique held same, hp] at hp'
      cases hp'
  refine ⟨?_, ?_, fun l v last => .inl (removed l v last)⟩
  · intro u _ same previous' hp'
    rw [(course.coherent.holds_of_computing hp').unique held' same, phase] at hp'
    cases hp'
  · intro i o' hi same hp'
    rw [hi.unique held' same, phase] at hp'
    cases hp'
    unfold Fresh
    split
    next v last =>
      obtain ⟨n, gone⟩ := removed _ v last
      refine .inr ⟨fun keeps => ?_, ⟨n, gone⟩, computed⟩
      rw [course.settings, ending.settings] at keeps
      have mem := since_subset gone
      rw [past] at mem
      exact h.permanent keeps _ (List.mem_of_ne_of_mem (by simp) mem)
    next => exact computed

theorem Faithful.pace (h : Faithful c) (pace : Pace c d) : Faithful d := by
  cases pace with
  | read course => exact h.course course
  | arm k time eq =>
      subst eq
      exact h.note (by simp) (by simp) (fun _ => rfl) (by simp)
  | install k value past course held => exact h.install past course held
  | expire w kind past course renewed => exact h.expire kind past course renewed

theorem Faithful.stride {lossy : Prop} (hc : Coherent c []) (h : Faithful c)
    (stride : Stride lossy c d) : Faithful d := by
  cases stride with
  | pace pace => exact h.pace pace
  | close course =>
      have dead : Faithful { c with alive := false } :=
        ⟨h.booked, h.permanent, fun k => ⟨(h.tracked k).recent, (h.tracked k).current,
          (h.tracked k).standing⟩, h.told⟩
      exact dead.course course
  | call t listed spared first eq =>
      subst eq
      refine h.note ?_ (by simp) (fun _ => rfl) (by simp)
      rintro x here
      cases here
      exact (hc.named t listed).2
  | finish t listed called alive o report eq =>
      have ending := hc.ending listed report
      subst eq
      have before := ending.faithful h
      have course := ending.settle o
      refine ⟨course.booked before.booked, course.permanent_of before.permanent, ?_, ?_⟩
      · intro k
        by_cases same : k = t.entry.key
        · subst same
          cases owned : ((c.withdraw t report).entry t.entry).owns t.launch.generation with
          | true => exact ending.tracked_settle hc h listed called owned o
          | false =>
              have course : Course (fun _ => True) _ ((c.withdraw t report).settle t o) [] :=
                ending.coherent.settle_of_not_owns owned o
              exact course.tracked before.booked (before.tracked _) trivial
        · exact course.tracked before.booked (before.tracked k) same
      · rw [course.settings, settle_history ending.coherent]
        exact before.told.cons (by simp)
  | leave t listed why eq =>
      subst eq
      exact (hc.ending listed none).faithful h

end LiveCache.Cache
