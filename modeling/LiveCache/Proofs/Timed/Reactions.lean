import LiveCache.Proofs.Cache.Excess
import LiveCache.Proofs.Timed.Moves

/-! # What a cache answers

Everything that can be done with a cache is an input: what readers and owners do, the first poll of
a task, the end of its computation, and its leave. What a computation reads while it runs are inputs
between its call and its end. To the cache a holder is a name, so whoever reads in its place may do
so under the same name. A run is a sequence of inputs with what the cache has answered. These are
the moves of a cache without a time to live.

Caches that differ in what came to nothing have the same runs. What differs are the numbers of the
tasks, and the leaves of the tasks of the surplus.
-/

namespace LiveCache

namespace Cache

variable {κ ε α : Type} [DecidableEq κ]

/-! ## Inputs and answers -/

inductive Input (κ ε α : Type) where
  | serve (o : Operation κ α)
  | glance (k : κ)
  | poll (y : Holder κ)
  | await (y : Option (Holder κ)) (k : κ)
  | expireAll
  | sweep
  | close
  /-- A task is polled for the first time. -/
  | call (u : Task κ)
  /-- The computation of a task ends. -/
  | finish (u : Task κ) (o : Outcome ε α) (report : Option String)
  | leave (u : Task κ)
deriving DecidableEq, Repr

inductive Output (κ ε α : Type) where
  | given (g : Given κ ε α)
  | polled (v : Option (View ε α))
  | awaited (o : Option (Outcome ε α))
  | swept (n : Nat)
deriving DecidableEq, Repr

def react (c : Cache κ ε α) : Input κ ε α → Cache κ ε α × Output κ ε α
  | .serve o =>
      let served := c.serve o
      (served.1, .given served.2)
  | .glance k => (c.glance k, .given .nothing)
  | .poll y =>
      let polled := c.poll y
      (polled.1, .polled polled.2)
  | .await y k =>
      let awaited := c.await y k
      (awaited.1, .awaited awaited.2)
  | .expireAll => (c.expireAll, .given .nothing)
  | .sweep =>
      let swept := c.sweep
      (swept.1, .swept swept.2)
  | .close => (c.close, .given .nothing)
  | .call u => (c.note (.called u.id), .given .nothing)
  | .finish u o report => ((c.withdraw u report).settle u o, .given .nothing)
  | .leave u => (c.removeTask u.id, .given .nothing)

/-- A task does only what is its turn. Readers and owners may do anything. -/
def Admits (lossy : Prop) (c : Cache κ ε α) : Input κ ε α → Prop
  | .call u => u ∈ c.tasks ∧ c.isAborted u = false ∧ .called u.id ∉ c.history
  | .finish u _ _ => u ∈ c.tasks ∧ .called u.id ∈ c.history ∧ c.alive = true
  | .leave u => u ∈ c.tasks ∧ (c.isAborted u = true ∨ c.alive = false ∨ lossy)
  | _ => True

/-- The inputs that lead from one cache to another, each with its answer. -/
inductive Runs (lossy : Prop) :
    Cache κ ε α → List (Input κ ε α × Output κ ε α) → Cache κ ε α → Prop where
  | nil {c : Cache κ ε α} : Runs lossy c [] c
  | cons {c d : Cache κ ε α} {a : Input κ ε α} {rest : List (Input κ ε α × Output κ ε α)}
      (admitted : c.Admits lossy a) (run : Runs lossy (c.react a).1 rest d) :
      Runs lossy c ((a, (c.react a).2) :: rest) d

end Cache

namespace TimedCache

open Cache (Input Output Runs)

variable {κ ε α : Type} [DecidableEq κ] {lossy : Prop} {c d : Cache κ ε α}

/-- What is done with a cache that is left to itself is a move of it. -/
theorem move_react {a : Input κ ε α} (clock : Nat) (admitted : c.Admits lossy a) :
    Move lossy ⟨c, clock, none⟩ ⟨(c.react a).1, clock, none⟩ := by
  let t : TimedCache κ ε α := ⟨c, clock, none⟩
  have bare : ∀ k, t.armIfAbsent k = t := armIfAbsent_of_untimed rfl
  cases a with
  | serve o =>
      cases o with
      | get y k =>
          have deed : Deed t _ := .observe y k
          unfold TimedCache.observe at deed
          rw [bare] at deed
          exact .deed deed
      | snapshot k =>
          have deed : Deed t _ := .snapshot k
          unfold TimedCache.snapshot at deed
          rw [bare] at deed
          exact .deed deed
      | set k value => exact .deed (.set k value)
      | expire k => exact .deed (.expire k)
      | drop y => exact .deed (.release y)
  | glance k =>
      have deed : Deed t _ := .glance k
      unfold TimedCache.glance at deed
      rw [bare] at deed
      exact .deed deed
  | poll y =>
      have deed : Deed t _ := .poll y
      rw [poll_of_untimed rfl] at deed
      exact .deed deed
  | await y k =>
      have deed : Deed t _ := .await y k
      unfold TimedCache.await at deed
      rw [bare] at deed
      exact .deed deed
  | expireAll => exact .deed (.expireAll _ (.refl _) _)
  | sweep => exact .deed (.sweep _)
  | close => exact .close
  | call u => exact .call u admitted.1 admitted.2.1 admitted.2.2
  | finish u o report => exact .finish u admitted.1 admitted.2.1 admitted.2.2 o report
  | leave u => exact .leave u admitted.1 admitted.2

theorem Runs.moves {trace : List (Input κ ε α × Output κ ε α)} (clock : Nat)
    (run : Runs lossy c trace d) : Moves lossy ⟨c, clock, none⟩ ⟨d, clock, none⟩ := by
  induction run with
  | nil => exact .refl
  | cons admitted _ ih => exact .head (move_react clock admitted) ih

end TimedCache

/-! ## The same runs -/

/-- The input that the cache with the excess is given in the place of another. -/
def Excess.input {κ ε α : Type} [DecidableEq κ] (x : Excess κ ε α) :
    Cache.Input κ ε α → Cache.Input κ ε α
  | .call u => .call (x.listed u)
  | .finish u o report => .finish (x.listed u) o report
  | .leave u => .leave (x.listed u)
  | .serve o => .serve o
  | .glance k => .glance k
  | .poll y => .poll y
  | .await y k => .await y k
  | .expireAll => .expireAll
  | .sweep => .sweep
  | .close => .close

/-- A task of the surplus leaves. -/
def Excess.clears {κ ε α : Type} [DecidableEq κ] (x : Excess κ ε α) : Cache.Input κ ε α → Bool
  | .leave u => x.Spare u.id
  | _ => false

namespace Cache

variable {κ ε α : Type} [DecidableEq κ] {x : Excess κ ε α} {lossy : Prop} {c d : Cache κ ε α}

theorem Exceeds.serve (h : Exceeds x c d) (o : Operation κ α) :
    Exceeds x (c.serve o).1 (d.serve o).1 ∧ (d.serve o).2 = (c.serve o).2 := by
  cases o with
  | get y k => exact ⟨h.observe y k, congrArg Given.subscription (h.subscribe k).2⟩
  | snapshot k => exact ⟨(h.snapshot k).1, congrArg Given.view (h.snapshot k).2⟩
  | set k value => exact ⟨h.set k value, rfl⟩
  | expire k => exact ⟨h.expire k, rfl⟩
  | drop y => exact ⟨h.release y, rfl⟩

/-- The answers are the same, and the difference stays as it is. -/
theorem Exceeds.react (h : Exceeds x c d) (a : Input κ ε α) :
    Exceeds x (c.react a).1 (d.react (x.input a)).1 ∧
      (d.react (x.input a)).2 = (c.react a).2 := by
  cases a with
  | serve o => exact ⟨(h.serve o).1, congrArg Output.given (h.serve o).2⟩
  | glance k => exact ⟨h.glance k, rfl⟩
  | poll y => exact ⟨(h.poll y).1, congrArg Output.polled (h.poll y).2⟩
  | await y k => exact ⟨(h.await y k).1, congrArg Output.awaited (h.await y k).2⟩
  | expireAll => exact ⟨h.expireAll, rfl⟩
  | sweep => exact ⟨h.sweep.1, congrArg Output.swept h.sweep.2⟩
  | close => exact ⟨h.close, rfl⟩
  | call u => exact ⟨h.note (.called u.id), rfl⟩
  | finish u o report => exact ⟨(h.withdraw u report).settle u o, rfl⟩
  | leave u => exact ⟨h.removeTask u.id, rfl⟩

theorem Exceeds.admits_iff (h : Exceeds x c d) (a : Input κ ε α) :
    d.Admits lossy (x.input a) ↔ c.Admits lossy a := by
  cases a with
  | call u =>
      exact and_congr (h.listed_mem_iff u)
        (and_congr (by rw [h.isAborted]) (not_congr (h.called_iff u.id)))
  | finish u o report =>
      exact and_congr (h.listed_mem_iff u) (and_congr (h.called_iff u.id) (by rw [h.alive]))
  | leave u =>
      exact and_congr (h.listed_mem_iff u) (by rw [h.isAborted, h.alive])
  | _ => exact Iff.rfl

/-- What the cache with the excess admits besides is that its stopped tasks leave. -/
theorem Exceeds.clears_or_input (h : Exceeds x c d) {a : Input κ ε α}
    (admitted : d.Admits lossy a) : x.clears a = true ∨ ∃ b, a = x.input b := by
  cases a with
  | call u =>
      rcases h.spare_or_listed admitted.1 with spare | ⟨v, -, rfl⟩
      · have stopped := h.isAborted_of_spare admitted.1 spare
        exact absurd (stopped.symm.trans admitted.2.1) (by simp)
      · exact .inr ⟨.call v, rfl⟩
  | finish u o report =>
      rcases h.spare_or_listed admitted.1 with spare | ⟨v, -, rfl⟩
      · exact absurd admitted.2.1 (h.not_called_of_spare spare)
      · exact .inr ⟨.finish v o report, rfl⟩
  | leave u =>
      rcases h.spare_or_listed admitted.1 with spare | ⟨v, -, rfl⟩
      · exact .inl (decide_eq_true spare)
      · exact .inr ⟨.leave v, rfl⟩
  | serve o => exact .inr ⟨.serve o, rfl⟩
  | glance k => exact .inr ⟨.glance k, rfl⟩
  | poll y => exact .inr ⟨.poll y, rfl⟩
  | await y k => exact .inr ⟨.await y k, rfl⟩
  | expireAll => exact .inr ⟨.expireAll, rfl⟩
  | sweep => exact .inr ⟨.sweep, rfl⟩
  | close => exact .inr ⟨.close, rfl⟩

theorem Exceeds.clear (h : Exceeds x c d) {a : Input κ ε α} (clears : x.clears a = true) :
    Exceeds x c (d.react a).1 := by
  cases a with
  | leave u => exact h.removeTask_of_spare (of_decide_eq_true clears)
  | _ => cases clears

/-- What was done with the one cache and answered may be done with the other and is answered. -/
theorem Exceeds.run {c' : Cache κ ε α} {trace : List (Input κ ε α × Output κ ε α)}
    (run : Runs lossy c trace c') : ∀ {d : Cache κ ε α}, Exceeds x c d →
      ∃ d', Runs lossy d (trace.map fun p => (x.input p.1, p.2)) d' ∧ Exceeds x c' d' := by
  induction run with
  | nil => exact fun h => ⟨_, .nil, h⟩
  | @cons c c' a rest admitted run ih =>
      intro d h
      obtain ⟨next, answer⟩ := h.react a
      obtain ⟨d', follows, after⟩ := ih next
      refine ⟨d', ?_, after⟩
      rw [List.map_cons, ← answer]
      exact .cons ((h.admits_iff a).2 admitted) follows

/-- And the other way round, but for the leaves of the tasks of the surplus. -/
theorem Exceeds.run_back {d' : Cache κ ε α} {trace : List (Input κ ε α × Output κ ε α)}
    (run : Runs lossy d trace d') : ∀ {c : Cache κ ε α}, Exceeds x c d →
      ∃ before c', Runs lossy c before c' ∧ Exceeds x c' d' ∧
        before.map (fun p => (x.input p.1, p.2)) = trace.filter fun p => !x.clears p.1 := by
  induction run with
  | nil => exact fun h => ⟨[], _, .nil, h, rfl⟩
  | @cons d d' a rest admitted run ih =>
      intro c h
      rcases h.clears_or_input admitted with clears | ⟨b, rfl⟩
      · obtain ⟨before, c', runs, after, same⟩ := ih (h.clear clears)
        refine ⟨before, c', runs, after, ?_⟩
        rw [List.filter_cons_of_neg (by simpa using clears), same]
      · obtain ⟨next, answer⟩ := h.react b
        obtain ⟨before, c', runs, after, same⟩ := ih next
        have kept : x.clears (x.input b) = false := by
          cases b with
          | leave u => exact decide_eq_false (Excess.not_spare_task u.id)
          | _ => rfl
        refine ⟨_, c', .cons ((h.admits_iff b).1 admitted) runs, after, ?_⟩
        rw [List.filter_cons_of_pos (by simpa using kept), List.map_cons, same, answer]

end Cache

end LiveCache
