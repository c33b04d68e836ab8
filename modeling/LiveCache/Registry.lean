/-!
# Registries

A registry maps keys to values and keeps the order in which its keys were first inserted. Every
named collection of the library is one: the table of a cache, the timers of its keys, the handles
and subscriptions of a session. No key occurs twice, so `find?` is the view in which all of it is
specified: a pair belongs to the registry when `find?` gives its value for its key.
-/

namespace LiveCache

structure Registry (κ ν : Type) where
  pairs : List (κ × ν) := []
  nodup : (pairs.map (·.1)).Nodup := by exact List.nodup_nil
deriving DecidableEq, Repr

namespace Registry

variable {κ ν : Type}

/-! ## Lists of pairs -/

section InLists

variable [DecidableEq κ]

def findIn (k : κ) : List (κ × ν) → Option ν
  | [] => none
  | (k', v) :: rest => if k' = k then some v else findIn k rest

/-- Replaces the value in place, or appends a new pair. -/
def insertIn (k : κ) (v : ν) : List (κ × ν) → List (κ × ν)
  | [] => [(k, v)]
  | (k', v') :: rest => if k' = k then (k, v) :: rest else (k', v') :: insertIn k v rest

def eraseIn (k : κ) (l : List (κ × ν)) : List (κ × ν) := l.filter fun p => p.1 ≠ k

theorem findIn_insertIn (k k' : κ) (v : ν) (l : List (κ × ν)) :
    findIn k' (insertIn k v l) = if k = k' then some v else findIn k' l := by
  induction l with
  | nil => rfl
  | cons p rest ih =>
      obtain ⟨a, b⟩ := p
      by_cases h : a = k
      · subst h
        by_cases h' : a = k' <;> simp [insertIn, findIn, h']
      · by_cases h' : a = k'
        · subst h'
          simp [insertIn, findIn, h, Ne.symm h]
        · simp [insertIn, findIn, h, h', ih]

theorem insertIn_insertIn (k : κ) (v w : ν) (l : List (κ × ν)) :
    insertIn k v (insertIn k w l) = insertIn k v l := by
  induction l with
  | nil => simp [insertIn]
  | cons p rest ih =>
      obtain ⟨a, b⟩ := p
      by_cases h : a = k
      · simp [insertIn, h]
      · simp [insertIn, h, ih]

theorem eraseIn_cons (k : κ) (p : κ × ν) (rest : List (κ × ν)) :
    eraseIn k (p :: rest) = if p.1 = k then eraseIn k rest else p :: eraseIn k rest := by
  by_cases h : p.1 = k <;> simp [eraseIn, h]

theorem findIn_eraseIn (k k' : κ) (l : List (κ × ν)) :
    findIn k' (eraseIn k l) = if k = k' then none else findIn k' l := by
  induction l with
  | nil => simp [eraseIn, findIn]
  | cons p rest ih =>
      obtain ⟨a, b⟩ := p
      rw [eraseIn_cons]
      by_cases h : a = k
      · subst h
        by_cases h' : a = k'
        · subst h'
          simpa using ih
        · simp [findIn, ih, h']
      · by_cases h' : a = k'
        · subst h'
          simp [findIn, h, Ne.symm h]
        · simp [findIn, h, h', ih]

theorem mem_keys_insertIn (k k' : κ) (v : ν) (l : List (κ × ν)) :
    k' ∈ (insertIn k v l).map (·.1) ↔ k' = k ∨ k' ∈ l.map (·.1) := by
  induction l with
  | nil => simp [insertIn]
  | cons p rest ih =>
      obtain ⟨a, b⟩ := p
      by_cases h : a = k
      · subst h
        simp [insertIn]
      · rw [insertIn, if_neg h, List.map_cons, List.mem_cons, ih, List.map_cons, List.mem_cons]
        exact or_left_comm

theorem nodup_insertIn (k : κ) (v : ν) {l : List (κ × ν)} (h : (l.map (·.1)).Nodup) :
    ((insertIn k v l).map (·.1)).Nodup := by
  induction l with
  | nil => simp [insertIn]
  | cons p rest ih =>
      obtain ⟨a, b⟩ := p
      rw [List.map_cons, List.nodup_cons] at h
      by_cases hk : a = k
      · subst hk
        rw [insertIn, if_pos rfl, List.map_cons, List.nodup_cons]
        exact h
      · rw [insertIn, if_neg hk, List.map_cons, List.nodup_cons, mem_keys_insertIn]
        exact ⟨fun hm => hm.elim hk h.1, ih h.2⟩

theorem nodup_eraseIn (k : κ) {l : List (κ × ν)} (h : (l.map (·.1)).Nodup) :
    ((eraseIn k l).map (·.1)).Nodup :=
  h.sublist (List.filter_sublist.map _)

theorem findIn_eq_some_iff (k : κ) (v : ν) {l : List (κ × ν)} (h : (l.map (·.1)).Nodup) :
    findIn k l = some v ↔ (k, v) ∈ l := by
  induction l with
  | nil => simp [findIn]
  | cons p rest ih =>
      obtain ⟨a, b⟩ := p
      rw [List.map_cons, List.nodup_cons] at h
      by_cases hk : a = k
      · subst hk
        have fresh : (a, v) ∉ rest := fun hm => h.1 (List.mem_map.2 ⟨_, hm, rfl⟩)
        simp [findIn, fresh, eq_comm]
      · simp [findIn, hk, Ne.symm hk, ih h.2]

end InLists

/-! ## Operations -/

def empty : Registry κ ν := {}

def find? [DecidableEq κ] (r : Registry κ ν) (k : κ) : Option ν := findIn k r.pairs

def insert [DecidableEq κ] (r : Registry κ ν) (k : κ) (v : ν) : Registry κ ν :=
  ⟨insertIn k v r.pairs, nodup_insertIn k v r.nodup⟩

def erase [DecidableEq κ] (r : Registry κ ν) (k : κ) : Registry κ ν :=
  ⟨eraseIn k r.pairs, nodup_eraseIn k r.nodup⟩

def contains [DecidableEq κ] (r : Registry κ ν) (k : κ) : Bool := (r.find? k).isSome

def size (r : Registry κ ν) : Nat := r.pairs.length

def isEmpty (r : Registry κ ν) : Bool := r.pairs.isEmpty

/-- The keys, in the order of their first insertion. -/
def keys (r : Registry κ ν) : List κ := r.pairs.map (·.1)

def values (r : Registry κ ν) : List ν := r.pairs.map (·.2)

/-! ## Laws -/

section Laws

variable [DecidableEq κ] (r : Registry κ ν) (k k' : κ) (v : ν)

@[simp] theorem find?_empty : (empty : Registry κ ν).find? k = none := rfl

theorem find?_insert : (r.insert k v).find? k' = if k = k' then some v else r.find? k' :=
  findIn_insertIn k k' v r.pairs

@[simp] theorem find?_insert_self : (r.insert k v).find? k = some v := by
  simp [find?_insert]

theorem find?_insert_of_ne (h : k ≠ k') : (r.insert k v).find? k' = r.find? k' := by
  simp [find?_insert, h]

@[simp] theorem insert_insert (w : ν) : (r.insert k w).insert k v = r.insert k v := by
  simp [insert, insertIn_insertIn]

theorem find?_erase : (r.erase k).find? k' = if k = k' then none else r.find? k' :=
  findIn_eraseIn k k' r.pairs

@[simp] theorem find?_erase_self : (r.erase k).find? k = none := by
  simp [find?_erase]

theorem find?_erase_of_ne (h : k ≠ k') : (r.erase k).find? k' = r.find? k' := by
  simp [find?_erase, h]

theorem find?_eq_some_iff : r.find? k = some v ↔ (k, v) ∈ r.pairs :=
  findIn_eq_some_iff k v r.nodup

theorem mem_keys_iff : k ∈ r.keys ↔ (r.find? k).isSome := by
  rw [Option.isSome_iff_exists]
  simp only [find?_eq_some_iff, keys, List.mem_map, Prod.exists, exists_and_right,
    exists_eq_right]

end Laws

theorem nodup_keys (r : Registry κ ν) : r.keys.Nodup := r.nodup

/-! ## Pairs

What an operation makes of the pairs, up to their order. -/

section Pairs

variable [DecidableEq κ]

theorem insertIn_of_none {k : κ} {l : List (κ × ν)} (absent : findIn k l = none) (v : ν) :
    insertIn k v l = l ++ [(k, v)] := by
  induction l with
  | nil => rfl
  | cons q rest ih =>
      obtain ⟨a, b⟩ := q
      by_cases ha : a = k
      · simp [findIn, ha] at absent
      · rw [findIn, if_neg ha] at absent
        rw [insertIn, if_neg ha, ih absent, List.cons_append]

theorem insertIn_perm_of_some {k : κ} {l : List (κ × ν)} {w : ν} (found : findIn k l = some w)
    (v : ν) : ((k, w) :: insertIn k v l).Perm ((k, v) :: l) := by
  induction l with
  | nil => simp [findIn] at found
  | cons q rest ih =>
      obtain ⟨a, b⟩ := q
      by_cases ha : a = k
      · subst ha
        rw [findIn, if_pos rfl] at found
        cases found
        rw [insertIn, if_pos rfl]
        exact .swap _ _ _
      · rw [findIn, if_neg ha] at found
        rw [insertIn, if_neg ha]
        exact (List.Perm.swap _ _ _).trans (((ih found).cons _).trans (.swap _ _ _))

theorem eraseIn_of_not_mem {k : κ} {l : List (κ × ν)} (absent : k ∉ l.map (·.1)) :
    eraseIn k l = l := by
  apply List.filter_eq_self.2
  intro p hp
  have : p.1 ≠ k := fun same => absent (same ▸ List.mem_map_of_mem hp)
  simpa using this

theorem eraseIn_perm_of_some {k : κ} {l : List (κ × ν)} {w : ν} (found : findIn k l = some w)
    (nodup : (l.map (·.1)).Nodup) : ((k, w) :: eraseIn k l).Perm l := by
  induction l with
  | nil => simp [findIn] at found
  | cons q rest ih =>
      obtain ⟨a, b⟩ := q
      rw [List.map_cons, List.nodup_cons] at nodup
      rw [eraseIn_cons]
      by_cases ha : a = k
      · subst ha
        rw [findIn, if_pos rfl] at found
        cases found
        rw [if_pos rfl, eraseIn_of_not_mem nodup.1]
      · rw [findIn, if_neg ha] at found
        rw [if_neg ha]
        exact (List.Perm.swap _ _ _).trans ((ih found nodup.2).cons _)

variable {r : Registry κ ν} {k : κ} {w : ν}

theorem pairs_insert_of_none (absent : r.find? k = none) (v : ν) :
    (r.insert k v).pairs = r.pairs ++ [(k, v)] :=
  insertIn_of_none absent v

theorem pairs_insert_of_some (found : r.find? k = some w) (v : ν) :
    ((k, w) :: (r.insert k v).pairs).Perm ((k, v) :: r.pairs) :=
  insertIn_perm_of_some found v

theorem pairs_erase_of_some (found : r.find? k = some w) :
    ((k, w) :: (r.erase k).pairs).Perm r.pairs :=
  eraseIn_perm_of_some found r.nodup

theorem erase_of_none (absent : r.find? k = none) : r.erase k = r := by
  have out : k ∉ r.keys := by
    rw [mem_keys_iff, absent]
    exact Bool.false_ne_true
  obtain ⟨pairs, nodup⟩ := r
  simpa [Registry.erase] using eraseIn_of_not_mem out

theorem size_insert_of_none (absent : r.find? k = none) (v : ν) :
    (r.insert k v).size = r.size + 1 := by
  rw [size, pairs_insert_of_none absent, List.length_append]
  rfl

theorem size_insert_of_some (found : r.find? k = some w) (v : ν) : (r.insert k v).size = r.size :=
  Nat.succ.inj (pairs_insert_of_some found v).length_eq

theorem size_erase_of_some (found : r.find? k = some w) : (r.erase k).size + 1 = r.size :=
  (pairs_erase_of_some found).length_eq

theorem size_le_insert (r : Registry κ ν) (k : κ) (v : ν) : r.size ≤ (r.insert k v).size := by
  cases found : r.find? k with
  | none =>
      rw [size_insert_of_none found]
      exact Nat.le_succ _
  | some w => exact Nat.le_of_eq (size_insert_of_some found v).symm

/-! ## Counting -/

/-- The number of values of a kind. -/
def count (r : Registry κ ν) (p : ν → Bool) : Nat := r.values.countP p

theorem count_insert_of_none (absent : r.find? k = none) (v : ν) (p : ν → Bool) :
    (r.insert k v).count p = r.count p + if p v then 1 else 0 := by
  rw [count, values, pairs_insert_of_none absent, List.map_append, List.countP_append]
  simp [count, values, List.countP_cons]

theorem count_insert_of_some (found : r.find? k = some w) (v : ν) (p : ν → Bool) :
    (r.insert k v).count p + (if p w then 1 else 0) = r.count p + if p v then 1 else 0 := by
  have perm := ((pairs_insert_of_some found v).map (·.2)).countP_eq p
  rwa [List.map_cons, List.map_cons, List.countP_cons, List.countP_cons] at perm

theorem count_erase_of_some (found : r.find? k = some w) (p : ν → Bool) :
    (r.erase k).count p + (if p w then 1 else 0) = r.count p := by
  have perm := ((pairs_erase_of_some found).map (·.2)).countP_eq p
  rwa [List.map_cons, List.countP_cons] at perm

/-! ## Sums -/

/-- The sum of a number that is read off each value. -/
def sum (r : Registry κ ν) (f : ν → Nat) : Nat := (r.values.map f).foldr Nat.add 0

/-- An insertion changes the sum over the values by the new value less the one it replaces. -/
theorem sum_insert (r : Registry κ ν) (k : κ) (v : ν) (f : ν → Nat) :
    (r.insert k v).sum f + ((r.find? k).map f).getD 0 = r.sum f + f v := by
  have sums : ∀ q : Registry κ ν, q.sum f = (q.values.map f).sum := fun _ => rfl
  rw [sums, sums]
  cases found : r.find? k with
  | none => simp [values, pairs_insert_of_none found]
  | some w =>
      have perm := (((pairs_insert_of_some found v).map (·.2)).map f).sum_nat
      simp only [List.map_cons, List.sum_cons] at perm
      simp only [values, Option.map_some, Option.getD_some]
      omega

end Pairs

theorem size_eq_zero_iff (r : Registry κ ν) : r.size = 0 ↔ r.isEmpty = true := by
  simp [size, isEmpty]

theorem find?_of_size_eq_zero [DecidableEq κ] {r : Registry κ ν} (vacant : r.size = 0) (k : κ) :
    r.find? k = none := by
  obtain ⟨pairs, nodup⟩ := r
  obtain rfl : pairs = [] := List.length_eq_zero_iff.1 vacant
  rfl

/-! ## Mapping the values -/

section Map

variable {μ τ : Type} (f : ν → μ) (r : Registry κ ν)

def map : Registry κ μ :=
  ⟨r.pairs.map fun p => (p.1, f p.2), by
    simpa only [List.map_map, Function.comp_def] using r.nodup⟩

theorem map_map (g : μ → τ) : (r.map f).map g = r.map (g ∘ f) := by
  unfold map
  simp only [List.map_map]
  rfl

theorem map_of_same {f : ν → ν} (same : ∀ v, f v = v) (r : Registry κ ν) : r.map f = r := by
  have each : ∀ p : κ × ν, (p.1, f p.2) = p := fun p => by rw [same]
  unfold map
  congr 1
  exact List.map_id'' each r.pairs

@[simp] theorem size_map : (r.map f).size = r.size := List.length_map _

@[simp] theorem isEmpty_map : (r.map f).isEmpty = r.isEmpty := by simp [isEmpty, map]

variable [DecidableEq κ] (k : κ)

theorem findIn_map (l : List (κ × ν)) :
    findIn k (l.map fun p => (p.1, f p.2)) = (findIn k l).map f := by
  induction l with
  | nil => rfl
  | cons p rest ih =>
      rw [List.map_cons, findIn, findIn, ih]
      split <;> rfl

theorem find?_map : (r.map f).find? k = (r.find? k).map f := findIn_map f k r.pairs

theorem insertIn_map (v : ν) (l : List (κ × ν)) :
    insertIn k (f v) (l.map fun p => (p.1, f p.2)) =
      (insertIn k v l).map fun p => (p.1, f p.2) := by
  induction l with
  | nil => rfl
  | cons p rest ih =>
      rw [List.map_cons, insertIn, insertIn, ih]
      split <;> rfl

theorem map_insert (v : ν) : (r.insert k v).map f = (r.map f).insert k (f v) := by
  unfold map insert
  congr 1
  exact (insertIn_map f k v r.pairs).symm

theorem map_erase : (r.erase k).map f = (r.map f).erase k := by
  unfold map erase eraseIn
  congr 1
  exact (List.filter_map (l := r.pairs) (p := fun p : κ × μ => decide (p.1 ≠ k))).symm

end Map

end Registry

/-!
## Tallies

A tally counts, per key, how often something has happened.
-/

abbrev Tally (κ : Type) := Registry κ Nat

namespace Tally

variable {κ : Type} [DecidableEq κ]

def count (t : Tally κ) (k : κ) : Nat := (t.find? k).getD 0

/-- How often anything has happened. -/
def total (t : Tally κ) : Nat := t.values.foldr Nat.add 0

def bump (t : Tally κ) (k : κ) : Tally κ := t.insert k (Tally.count t k + 1)

theorem count_bump (t : Tally κ) (k k' : κ) :
    Tally.count (bump t k) k' = if k = k' then Tally.count t k + 1 else Tally.count t k' := by
  by_cases h : k = k' <;> simp [count, bump, Registry.find?_insert, h]

theorem total_bump (t : Tally κ) (k : κ) : total (bump t k) = total t + 1 := by
  have sum := Registry.sum_insert t k (Tally.count t k + 1) id
  have counted : ((t.find? k).map id).getD 0 = Tally.count t k := by simp [count]
  rw [counted, id] at sum
  have total : ∀ u : Tally κ, total u = Registry.sum u id := fun u => by
    rw [Tally.total, Registry.sum, List.map_id]
  rw [bump, total, total]
  omega

end Tally

end LiveCache
