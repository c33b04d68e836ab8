import LiveCache.Proofs.Session.Commands
import LiveCache.Session.Computation

/-! # What a computation does while it is polled

A `Stir` is one thing that is done through the objects of a session, by its driver or by a
computation that is polled. It takes no task from the executor's list, calls no computation and
begins none. However far a poll takes a computation, it is a series of stirs.
-/

namespace LiveCache.Session

open Cache (Coherent)

variable {s s' : Session}

/-- What is done on behalf of the driver or of a computation that is polled. -/
inductive Stir (s : Session) : Session → Prop where
  | command (c : Command) : Stir s (s.execute c).1
  /-- The answers to what computations carry out are kept. -/
  | answer (replies : List Reply) : Stir s { s with inner := replies }
  | pause : Stir s { s with paused := s.paused + 1 }
  /-- A computation awaits a key, through a handle. -/
  | await (x : TaskId Key) (k : Key) (handle : s.handles.isEmpty = false) :
      Stir s { s with timed := (s.timed.await (some (.computation x)) k).1 }
  | resume (x : TaskId Key) :
      Stir s { s with timed := (s.timed.resume (.computation x)).1 }.closeIfUnowned

abbrev Stirs : Session → Session → Prop := Relation.ReflTransGen Stir

theorem carryOut_stirs (s : Session) (a : Step) : Stirs s (s.carryOut a) := by
  unfold carryOut
  split
  next c => exact .tail (.single (.command c)) (.answer _)
  next => exact .single (.answer _)

theorem foldl_carryOut_stirs (steps : List Step) (s : Session) :
    Stirs s (steps.foldl carryOut s) := by
  induction steps generalizing s with
  | nil => exact .refl
  | cons a rest ih => exact (carryOut_stirs s a).trans (ih _)

theorem awaitNeeds_stirs (x : TaskId Key) (r : Running) (needs : List Key) (sum : Value)
    (s : Session) : Stirs s (s.awaitNeeds x r needs sum).1 := by
  induction needs generalizing sum s with
  | nil => exact .refl
  | cons k rest ih =>
      unfold awaitNeeds
      split
      next => exact .refl
      next handle =>
        have awaited : Stir s { s with timed := (s.timed.await (some (.computation x)) k).1 } :=
          .await x k (by simpa using handle)
        dsimp only
        split
        next => exact .single awaited
        next => exact .single awaited
        next v _ => exact (Relation.ReflTransGen.single awaited).trans (ih (sum + v) _)

theorem resume_stirs (s : Session) (x : TaskId Key) (r : Running) :
    Stirs s (s.resume x r).1 := by
  unfold resume
  split
  next => exact .single .pause
  next => exact (foldl_carryOut_stirs _ s).trans (awaitNeeds_stirs x r _ 0 _)
  next rest sum _ =>
    have resumed : Stir s { s with timed := (s.timed.resume (.computation x)).1 }.closeIfUnowned :=
      .resume x
    dsimp only
    split
    next => exact .single resumed
    next => exact .single resumed
    next => exact (Relation.ReflTransGen.single resumed).trans (awaitNeeds_stirs x r rest _ _)
  next => exact .refl

/-! ## What stirs keep -/

theorem resume_of_unheld {t : TimedCache Key Failure Value} {x : Holder Key}
    (none : t.cache.observers.find? x = none) : (t.resume x).1 = t := by
  simp [TimedCache.resume, TimedCache.poll, Cache.poll, none]

/-- A computation awaits keys through a handle, so the cache lives when it does. -/
theorem alive_of_handle (owned : Owned s) (handle : s.handles.isEmpty = false) :
    s.cache.alive = true := by
  by_contra dead
  have none : s.handles.size = 0 := by
    have unowned := owned (by simpa using dead)
    unfold owners at unowned
    omega
  rw [s.handles.size_eq_zero_iff.1 none] at handle
  cases handle

theorem Stir.acted (h : Coherent s.cache []) (owned : Owned s) (stir : Stir s s') : Acted s s' := by
  cases stir with
  | command c => exact execute_acted h owned c
  | answer | pause => exact acted_of_same h owned rfl rfl
  | await x k handle => exact acted_of_deed h (alive_of_handle owned handle) (.await _ k) rfl
  | resume x =>
      refine Acted.closeIfUnowned ?_
      cases alive : s.cache.alive with
      | true => exact acted_of_deed h alive (.resume _) rfl
      | false =>
          rw [resume_of_unheld (find?_of_unowned (owned alive) _)]
          exact acted_refl h owned

theorem Stirs.acted (h : Coherent s.cache []) (owned : Owned s) (stirs : Stirs s s') :
    Acted s s' := by
  induction stirs with
  | refl => exact acted_refl h owned
  | tail _ last ih => exact ih.trans (last.acted ih.coherent ih.owned)

theorem resume_acted (h : Coherent s.cache []) (owned : Owned s) (t : TaskId Key) (r : Running) :
    Acted s (s.resume t r).1 :=
  (resume_stirs s t r).acted h owned

theorem Stir.work (stir : Stir s s') : s'.work = s.work := by
  cases stir with
  | command c => exact (execute_effect s c).work
  | resume x => exact closeIfUnowned_work _
  | answer | pause | await => rfl

theorem Stirs.work (stirs : Stirs s s') : s'.work = s.work := by
  induction stirs with
  | refl => rfl
  | tail _ last ih => exact last.work.trans ih

theorem Stir.called (stir : Stir s s') : s'.called = s.called := by
  cases stir with
  | command c => exact (execute_does s c).rest.1
  | resume x => exact (closeIfUnowned_rest _).1
  | answer | pause | await => rfl

theorem Stirs.called (stirs : Stirs s s') : s'.called = s.called := by
  induction stirs with
  | refl => rfl
  | tail _ last ih => exact last.called.trans ih

end LiveCache.Session
