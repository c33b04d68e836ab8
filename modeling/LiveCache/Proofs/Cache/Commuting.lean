import LiveCache.Proofs.Cache.Apart

/-! # Operations on different keys

Operations on different keys may be exchanged: each finds its own key as it was, so it does and
answers the same. What they add to the list of the executor and to the log comes in another order.
Outdating all keys is outdating each of them, in any order.
-/

namespace LiveCache.Cache

variable {κ ε α : Type} [DecidableEq κ]

/-! ## States up to order -/

/-- The states are the same up to the order of tasks and events. The history, which nothing depends
on, is left out. -/
structure Agree (c d : Cache κ ε α) : Prop where
  settings : d.settings = c.settings
  alive : d.alive = c.alive
  entry : ∀ i, d.entry i = c.entry i
  created : ∀ k, Tally.count d.created k = Tally.count c.created k
  table : ∀ k, d.table.find? k = c.table.find? k
  observers : ∀ x, d.observers.find? x = c.observers.find? x
  tasks : d.tasks.Perm c.tasks
  spawned : ∀ k, Tally.count d.spawned k = Tally.count c.spawned k
  log : d.log.Perm c.log

variable {k k' : κ} {holder holder' : Option (Holder κ)} {c d e c' d' : Cache κ ε α}

theorem Agree.refl (c : Cache κ ε α) : Agree c c :=
  ⟨rfl, rfl, fun _ => rfl, fun _ => rfl, fun _ => rfl, fun _ => rfl, .refl _, fun _ => rfl, .refl _⟩

theorem Agree.trans (h₁ : Agree c d) (h₂ : Agree d e) : Agree c e where
  settings := h₂.settings.trans h₁.settings
  alive := h₂.alive.trans h₁.alive
  entry := fun i => (h₂.entry i).trans (h₁.entry i)
  created := fun k => (h₂.created k).trans (h₁.created k)
  table := fun k => (h₂.table k).trans (h₁.table k)
  observers := fun x => (h₂.observers x).trans (h₁.observers x)
  tasks := h₂.tasks.trans h₁.tasks
  spawned := fun k => (h₂.spawned k).trans (h₁.spawned k)
  log := h₂.log.trans h₁.log

theorem Agree.near (h : Agree c d) : Near k holder c d where
  settings := h.settings
  entry := fun i _ => h.entry i
  created := h.created k
  table := h.table k
  spawned := h.spawned k
  observers := fun x _ => h.observers x

/-- What is changed alike goes on agreeing. -/
theorem Likewise.agree (h : Likewise k holder c d c' d') (agree : Agree c d) : Agree c' d' where
  settings := h.near.settings
  alive := h.right.alive.trans (agree.alive.trans h.left.alive.symm)
  entry := by
    intro i
    by_cases own : i.key = k
    · exact h.near.entry i own
    · rw [h.right.entry i own, agree.entry, h.left.entry i own]
  created := by
    intro k'
    by_cases own : k' = k
    · exact own ▸ h.near.created
    · rw [h.right.created k' own, agree.created, h.left.created k' own]
  table := by
    intro k'
    by_cases own : k' = k
    · exact own ▸ h.near.table
    · rw [h.right.table k' own, agree.table, h.left.table k' own]
  observers := by
    intro x
    by_cases own : holder = some x
    · exact h.near.observers x own
    · rw [h.right.observers x own, agree.observers, h.left.observers x own]
  tasks := by
    obtain ⟨new, eq, eq'⟩ := h.tasks
    rw [eq, eq']
    exact agree.tasks.append_right new
  spawned := by
    intro k'
    by_cases own : k' = k
    · exact own ▸ h.near.spawned
    · rw [h.right.spawned k' own, agree.spawned, h.left.spawned k' own]
  log := by
    obtain ⟨new, eq, eq'⟩ := h.log
    rw [eq, eq']
    exact agree.log.append_right new

omit [DecidableEq κ] in
/-- A part of the state that one of two changes may touch, and never both. -/
theorem exchange {β : Type} {own own' : Prop} {start first second both both' : β}
    (near : own → both' = first) (left : ¬ own → first = start) (right : ¬ own → both' = second)
    (near' : own' → both = second) (left' : ¬ own' → second = start)
    (right' : ¬ own' → both = first) (disjoint : own → ¬ own') : both' = both := by
  by_cases mine : own
  · rw [near mine, right' (disjoint mine)]
  · by_cases yours : own'
    · rw [right mine, near' yours]
    · rw [right mine, left' yours, right' yours, left mine]

section Exchange

variable {first second both both' : Cache κ ε α}
  (h : Likewise k holder c second first both') (h' : Likewise k' holder' c first second both)

include h h'

theorem Likewise.tasks_commute : ∃ new newer, both.tasks = c.tasks ++ (new ++ newer) ∧
    both'.tasks = c.tasks ++ (newer ++ new) := by
  obtain ⟨newer, one, after⟩ := h'.tasks
  obtain ⟨new, two, before⟩ := h.tasks
  exact ⟨new, newer, by rw [after, two, List.append_assoc], by rw [before, one, List.append_assoc]⟩

theorem Likewise.log_commute : ∃ new newer, both.log = c.log ++ (new ++ newer) ∧
    both'.log = c.log ++ (newer ++ new) := by
  obtain ⟨newer, one, after⟩ := h'.log
  obtain ⟨new, two, before⟩ := h.log
  exact ⟨new, newer, by rw [after, two, List.append_assoc], by rw [before, one, List.append_assoc]⟩

/-- The first change is the same whether it is made before or after the second, and the second is
the same after or before the first. -/
theorem Likewise.commute (other : k ≠ k') (others : ∀ x, holder = some x → holder' ≠ some x) :
    Agree both both' where
  settings := h.near.settings.trans h'.right.settings.symm
  alive := by rw [h.right.alive, h'.left.alive, h'.right.alive, h.left.alive]
  entry := fun i => exchange (h.near.entry i) (h.left.entry i) (h.right.entry i) (h'.near.entry i)
    (h'.left.entry i) (h'.right.entry i) fun here there => other (here.symm.trans there)
  created := fun l => exchange (fun own : l = k => own ▸ h.near.created) (h.left.created l)
    (h.right.created l) (fun own : l = k' => own ▸ h'.near.created) (h'.left.created l)
    (h'.right.created l) fun here there => other (here.symm.trans there)
  table := fun l => exchange (fun own : l = k => own ▸ h.near.table) (h.left.table l)
    (h.right.table l) (fun own : l = k' => own ▸ h'.near.table) (h'.left.table l)
    (h'.right.table l) fun here there => other (here.symm.trans there)
  observers := fun x => exchange (h.near.observers x) (h.left.observers x) (h.right.observers x)
    (h'.near.observers x) (h'.left.observers x) (h'.right.observers x) (others x)
  tasks := by
    obtain ⟨new, newer, eq, eq'⟩ := h.tasks_commute h'
    rw [eq, eq']
    exact List.perm_append_comm.append_left _
  spawned := fun l => exchange (fun own : l = k => own ▸ h.near.spawned) (h.left.spawned l)
    (h.right.spawned l) (fun own : l = k' => own ▸ h'.near.spawned) (h'.left.spawned l)
    (h'.right.spawned l) fun here there => other (here.symm.trans there)
  log := by
    obtain ⟨new, newer, eq, eq'⟩ := h.log_commute h'
    rw [eq, eq']
    exact List.perm_append_comm.append_left _

theorem Likewise.history_perm : both'.history.Perm both.history := by
  obtain ⟨new, one, after⟩ := h.history
  obtain ⟨newer, two, before⟩ := h'.history
  rw [after, two, before, one, ← List.append_assoc, ← List.append_assoc]
  exact List.perm_append_comm.append_right _

end Exchange

/-! ## Operations -/

/-- What a reader or an owner does with one key. -/
inductive Operation (κ α : Type) where
  | get (x : Holder κ) (k : κ)
  | snapshot (k : κ)
  | set (k : κ) (value : α)
  | expire (k : κ)
  | drop (x : Holder κ)
deriving DecidableEq, Repr

/-- What an operation gives back. -/
inductive Given (κ ε α : Type) where
  | nothing
  | subscription (s : Subscription κ)
  | view (v : View ε α)
deriving DecidableEq, Repr

def serve (c : Cache κ ε α) : Operation κ α → Cache κ ε α × Given κ ε α
  | .get x k => (c.observe x k, .subscription (c.subscribe k).2)
  | .snapshot k =>
      let taken := c.snapshot k
      (taken.1, .view taken.2)
  | .set k value => (c.set k value, .nothing)
  | .expire k => (c.expire k, .nothing)
  | .drop x => (c.release x, .nothing)

/-- The holder of the subscription that is made or dropped. -/
def Operation.holder? : Operation κ α → Option (Holder κ)
  | .get x _ => some x
  | .drop x => some x
  | _ => none

/-- The operation addresses the key. A new subscription is given to a holder who has none, and a
subscription that is dropped is one of the key. -/
def Addresses (c : Cache κ ε α) (k : κ) : Operation κ α → Prop
  | .get x k' => k' = k ∧ c.observers.find? x = none
  | .snapshot k' => k' = k
  | .set k' _ => k' = k
  | .expire k' => k' = k
  | .drop x => ∃ s, c.observers.find? x = some s ∧ s.entry.key = k

variable {a b : Operation κ α}

/-- Which of two operations comes first makes no difference. -/
structure Commute (c : Cache κ ε α) (a b : Operation κ α) : Prop where
  first : ((c.serve b).1.serve a).2 = (c.serve a).2
  second : ((c.serve a).1.serve b).2 = (c.serve b).2
  agree : Agree ((c.serve a).1.serve b).1 ((c.serve b).1.serve a).1
  /-- Only the new tasks change places. -/
  tasks : ∃ new newer, ((c.serve a).1.serve b).1.tasks = c.tasks ++ (new ++ newer) ∧
    ((c.serve b).1.serve a).1.tasks = c.tasks ++ (newer ++ new)
  log : ∃ new newer, ((c.serve a).1.serve b).1.log = c.log ++ (new ++ newer) ∧
    ((c.serve b).1.serve a).1.log = c.log ++ (newer ++ new)
  history : ((c.serve b).1.serve a).1.history.Perm ((c.serve a).1.serve b).1.history

/-- Nothing has become of a key and of what a holder has. -/
structure Untouched (k : κ) (holder : Option (Holder κ)) (c d : Cache κ ε α) : Prop where
  near : Near k holder c d
  tasks : d.tasksOf k = c.tasksOf k

theorem Apart.untouched (h : Apart k holder c d) (other : k' ≠ k)
    (others : ∀ x, holder' = some x → holder ≠ some x) : Untouched k' holder' c d :=
  ⟨h.near other others, h.tasks k' other⟩

theorem Untouched.trans (h₁ : Untouched k holder c d) (h₂ : Untouched k holder d e) :
    Untouched k holder c e :=
  ⟨h₁.near.trans h₂.near, h₂.tasks.trans h₁.tasks⟩

/-- An operation does and gives the same in caches that agree on its key. -/
theorem Near.serve (h : Near k a.holder? c d) (addressed : c.Addresses k a) :
    Likewise k a.holder? c d (c.serve a).1 (d.serve a).1 ∧ (d.serve a).2 = (c.serve a).2 := by
  cases a with
  | get x _ =>
      obtain ⟨rfl, free⟩ := addressed
      exact ⟨h.observe free, congrArg Given.subscription h.subscribe.2⟩
  | snapshot _ =>
      obtain rfl := addressed
      exact ⟨h.snapshot.1, congrArg Given.view h.snapshot.2⟩
  | set _ value =>
      obtain rfl := addressed
      exact ⟨h.set value, rfl⟩
  | expire _ =>
      obtain rfl := addressed
      exact ⟨h.expire, rfl⟩
  | drop x =>
      obtain ⟨s, found, key⟩ := addressed
      exact ⟨h.release found key, rfl⟩

/-- The operation leaves a key alone that it does not address. -/
theorem Addresses.untouched (addressed : c.Addresses k a) (other : k ≠ k')
    (others : ∀ x, a.holder? = some x → holder' ≠ some x) :
    Untouched k' holder' c (c.serve a).1 :=
  (Near.serve (.refl c) addressed).1.left.untouched (Ne.symm other)
    fun x own => fun same => others x same own

/-- Operations on different keys may be exchanged. -/
theorem Addresses.commute (ha : c.Addresses k a) (hb : c.Addresses k' b) (other : k ≠ k')
    (others : ∀ x, a.holder? = some x → b.holder? ≠ some x) : Commute c a b := by
  have foreign : ∀ x, b.holder? = some x → a.holder? ≠ some x :=
    fun x theirs mine => others x mine theirs
  have first : Near k' b.holder? c (c.serve a).1 := (ha.untouched other others).near
  have second : Near k a.holder? c (c.serve b).1 := (hb.untouched (Ne.symm other) foreign).near
  obtain ⟨after, answer⟩ := second.serve ha
  obtain ⟨before, answer'⟩ := first.serve hb
  exact ⟨answer, answer', after.commute before other others, after.tasks_commute before,
    after.log_commute before, after.history_perm before⟩

/-! ## Expiring one key after another -/

theorem Agree.expire (h : Agree c d) (k : κ) : Agree (c.expire k) (d.expire k) := by
  have near : Near k none c d := h.near
  exact near.expire.agree h

theorem Agree.foldl_expire (l : List κ) :
    ∀ {c d : Cache κ ε α}, Agree c d → Agree (l.foldl Cache.expire c) (l.foldl Cache.expire d) := by
  induction l with
  | nil => exact fun h => h
  | cons k rest ih => exact fun h => ih (h.expire k)

theorem expire_expire (c : Cache κ ε α) (k k' : κ) :
    Agree ((c.expire k).expire k') ((c.expire k').expire k) := by
  by_cases same : k = k'
  · rw [same]
    exact .refl _
  · have own : Near k none c c := .refl c
    have own' : Near k' none c c := .refl c
    have second : Near k none c (c.expire k') := own'.expire.left.near same (by simp)
    have first : Near k' none c (c.expire k) := own.expire.left.near (Ne.symm same) (by simp)
    exact second.expire.commute first.expire same (by simp)

/-- Keys may be outdated in any order. -/
theorem Agree.foldl_expire_perm {l l' : List κ} (perm : l.Perm l') :
    ∀ {c d : Cache κ ε α}, Agree c d → Agree (l.foldl Cache.expire c) (l'.foldl Cache.expire d) := by
  induction perm with
  | nil => exact fun h => h
  | cons k _ ih => exact fun h => ih (h.expire k)
  | swap k k' l =>
      intro c d h
      exact ((expire_expire c k' k).trans ((h.expire k).expire k')).foldl_expire l
  | trans _ _ ih₁ ih₂ => exact fun h => (ih₁ (.refl _)).trans (ih₂ h)

theorem Agree.expireEntry {i : EntryId κ} (h : Agree c d) (held : c.Holds i) :
    Agree (c.expireEntry i) (d.expire i.key) := by
  have near : Near i.key none c d := h.near
  have noted : Agree c (d.note (.expired i.key)) := { h with }
  have near' : Near i.key none c (d.note (.expired i.key)) := noted.near
  rw [expire_of_some (near.current?.trans held)]
  exact (near'.expireEntry rfl).agree noted

/-- A walk over entries of the table outdates their keys. -/
theorem Agree.foldl_expireEntry (l : List (EntryId κ)) :
    ∀ {c d : Cache κ ε α}, (∀ i ∈ l, c.Holds i) → Agree c d →
      Agree (l.foldl Cache.expireEntry c) ((l.map (·.key)).foldl Cache.expire d) := by
  induction l with
  | nil => exact fun _ h => h
  | cons i rest ih =>
      intro c d held h
      refine ih (fun j mem => ?_) (h.expireEntry (held i List.mem_cons_self))
      rw [expireEntry_holds]
      exact held j (List.mem_cons_of_mem _ mem)

/-- A walk over entries of other keys leaves a key as it was. -/
theorem untouched_foldl_expireEntry (l : List (EntryId κ)) :
    ∀ c : Cache κ ε α, (∀ i ∈ l, i.key ≠ k) →
      Untouched k holder c (l.foldl Cache.expireEntry c) := by
  induction l with
  | nil => exact fun c _ => ⟨.refl c, rfl⟩
  | cons i rest ih =>
      intro c foreign
      have own : Near i.key none c c := .refl c
      have other : k ≠ i.key := Ne.symm (foreign i List.mem_cons_self)
      exact ((own.expireEntry rfl).left.untouched other (by simp)).trans
        (ih (c.expireEntry i) fun j mem => foreign j (List.mem_cons_of_mem _ mem))

theorem Agree.record (h : Agree c d) (a : Activity) (n : Nat) :
    Agree (c.record a n) (d.record a n) where
  settings := by rw [record_settings, record_settings, h.settings]
  alive := by rw [record_alive, record_alive, h.alive]
  entry := fun i => by rw [record_entry, record_entry, h.entry]
  created := fun k => by rw [record_created, record_created, h.created]
  table := fun k => by rw [record_table, record_table, h.table]
  observers := fun x => by rw [record_observers, record_observers, h.observers]
  tasks := by rw [record_tasks, record_tasks]; exact h.tasks
  spawned := fun k => by rw [record_spawned, record_spawned, h.spawned]
  log := by
    unfold Cache.record
    rw [h.settings]
    split
    next => exact h.log.append_right _
    next => exact h.log

/-- Outdating all keys is outdating each of them, in any order. -/
theorem agree_expireAll (c : Cache κ ε α) {l : List κ} (all : l.Perm (c.ids.map (·.key))) :
    Agree c.expireAll (l.foldl Cache.expire (c.record .expiredAll l.length)) := by
  have number : l.length = c.len := by simp [all.length_eq, ids, len, Registry.size]
  have noted : Agree (c.note .expiredAll) c := { Agree.refl c with }
  have begun : Agree ((c.note .expiredAll).record .expiredAll c.len)
      (c.record .expiredAll l.length) := number ▸ noted.record .expiredAll c.len
  refine (begun.foldl_expireEntry c.ids fun i mem => ?_).trans (.foldl_expire_perm all.symm (.refl _))
  rw [holds_iff, record_table, note_table, ← holds_iff]
  exact (mem_ids_iff c i).1 mem

/-- Outdating all keys leaves a key alone that is not in the table. -/
theorem untouched_expireAll (c : Cache κ ε α) (absent : c.current? k = none) :
    Untouched k holder c c.expireAll := by
  have begun : Untouched k holder c ((c.note .expiredAll).record .expiredAll c.len) :=
    ⟨⟨by simp, by simp, by simp, by simp, by rw [record_spawned]; rfl, by simp⟩,
      by rw [tasksOf, record_tasks, note_tasks, tasksOf]⟩
  have foreign : ∀ i ∈ c.ids, i.key ≠ k := by
    rintro i mem rfl
    exact absurd (((mem_ids_iff c i).1 mem).symm.trans absent) (by simp)
  exact begun.trans (untouched_foldl_expireEntry c.ids _ foreign)

/-- Operations on different keys may be exchanged, and neither touches the key of the other.
Outdating all keys is outdating each key of the table in any order, and leaves other keys alone. -/
theorem operations_commute (c : Cache κ ε α) :
    (∀ (a b : Operation κ α) (k k' : κ), k ≠ k' → c.Addresses k a → c.Addresses k' b →
      (∀ x, a.holder? = some x → b.holder? ≠ some x) →
      Commute c a b ∧ Untouched k' b.holder? c (c.serve a).1 ∧
        Untouched k a.holder? c (c.serve b).1) ∧
    (∀ l : List κ, l.Perm (c.ids.map (·.key)) →
      Agree c.expireAll (l.foldl Cache.expire (c.record .expiredAll l.length))) ∧
    ∀ k, c.current? k = none → ∀ holder, Untouched k holder c c.expireAll := by
  refine ⟨fun a b k k' other ha hb others => ?_, fun l all => agree_expireAll c all,
    fun k absent holder => untouched_expireAll c absent⟩
  have foreign : ∀ x, b.holder? = some x → a.holder? ≠ some x :=
    fun x theirs mine => others x mine theirs
  exact ⟨ha.commute hb other others, ha.untouched other others, hb.untouched (Ne.symm other) foreign⟩

/-- A value is outdated while its reader leaves another key. Then both keys are outdated at once, in
the other order. -/
theorem operations_commute_outdated :
    let first : Cache Nat Nat Nat := Cache.ofSettings { retention := .whileObserved }
    let c := ((first.observe (.reader "r") 0).set 1 5)
    Commute c (.drop (.reader "r")) (.expire 1) ∧
      Untouched 1 none c (c.release (.reader "r")) ∧
      Agree c.expireAll (((c.record .expiredAll 2).expire 1).expire 0) ∧
      Untouched 2 none c c.expireAll := by
  intro first c
  have held : c.Addresses 0 (.drop (.reader "r")) := ⟨⟨⟨0, 0⟩, none⟩, by decide, by decide⟩
  have keys : c.ids.map (·.key) = [0, 1] := by decide
  have absent : c.current? 2 = none := by decide
  clear_value c
  obtain ⟨exchange, all, rest⟩ := operations_commute c
  obtain ⟨pair, left, -⟩ :=
    exchange (.drop (.reader "r")) (.expire 1) 0 1 (by decide) held rfl (by simp [Operation.holder?])
  exact ⟨pair, left, all [1, 0] (keys ▸ .swap 0 1 []), rest 2 absent none⟩

end LiveCache.Cache
