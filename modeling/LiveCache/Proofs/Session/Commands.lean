import LiveCache.Proofs.Cache.Holders
import LiveCache.Proofs.Timed.Moves
import LiveCache.Session.Requests

/-! # What commands do to the cache of a session

A command is a series of deeds on the cache, after which the cache ends if nobody owns it any more.
It takes no task from the executor and begins no computation. A session that nobody owns answers
every command without doing anything.
-/

namespace LiveCache

namespace Cache

variable {κ ε α : Type} [DecidableEq κ]

theorem expireEntry_tasks (c : Cache κ ε α) (i : EntryId κ) :
    c.tasks <+: (c.expireEntry i).tasks := by
  unfold expireEntry
  split
  next => exact List.prefix_refl _
  next => simp [spawn?_tasks]

theorem foldl_expireEntry_tasks (l : List (EntryId κ)) (c : Cache κ ε α) :
    c.tasks <+: (l.foldl expireEntry c).tasks := by
  induction l generalizing c with
  | nil => exact List.prefix_refl _
  | cons i rest ih => exact (expireEntry_tasks c i).trans (ih _)

/-- What an expiration of all keys launches is added at the end. -/
theorem expireAll_tasks (c : Cache κ ε α) : c.tasks <+: c.expireAll.tasks := by
  have tasks := foldl_expireEntry_tasks c.ids ((c.note .expiredAll).record .expiredAll c.len)
  rwa [record_tasks, note_tasks] at tasks

end Cache

namespace Session

open Cache (Coherent Keeps)
open TimedCache (Move Deed Paces)

/-- The cache of a session has ended only if nobody owns it. -/
def Owned (s : Session) : Prop := s.cache.alive = false → s.owners = 0

/-- What follows from a command. -/
structure Acted (s s' : Session) : Prop where
  moves : ∀ lossy, Relation.ReflTransGen (Move lossy) s.timed s'.timed
  coherent : Coherent s'.cache []
  keeps : Keeps s.cache s'.cache
  running : s'.running = s.running
  owned : Owned s'

variable {s s' : Session}

theorem Acted.trans {s'' : Session} (h₁ : Acted s s') (h₂ : Acted s' s'') : Acted s s'' where
  moves := fun lossy => (h₁.moves lossy).trans (h₂.moves lossy)
  coherent := h₂.coherent
  keeps := h₁.keeps.trans h₂.keeps
  running := h₂.running.trans h₁.running
  owned := h₂.owned

theorem acted_of_same (h : Coherent s.cache []) (owned : Owned s') (timed : s'.timed = s.timed)
    (running : s'.running = s.running) : Acted s s' where
  moves := fun _ => by rw [timed]
  coherent := by rwa [cache, timed]
  keeps := by
    unfold cache
    rw [timed]
    exact .refl _
  running := running
  owned := owned

theorem acted_refl (h : Coherent s.cache []) (owned : Owned s) : Acted s s :=
  acted_of_same h owned rfl rfl

/-- As long as the cache lives there is nothing to say about its owners. -/
theorem owned_of_alive (alive : s.cache.alive = true) : Owned s := by
  intro dead
  rw [alive] at dead
  cases dead

theorem acted_of_deed (h : Coherent s.cache []) (alive : s.cache.alive = true)
    (deed : Deed s.timed s'.timed) (running : s'.running = s.running) : Acted s s' where
  moves := fun _ => .single (.deed deed)
  coherent := (deed.paces h).coherent h
  keeps := (deed.paces h).keeps.1
  running := running
  owned := owned_of_alive ((deed.paces h).keeps.2.trans alive)

theorem Acted.closeIfUnowned (h : Acted s s') : Acted s s'.closeIfUnowned := by
  unfold Session.closeIfUnowned
  split
  next may =>
    have close : Cache.Course (fun _ => True) { s'.cache with alive := false } s'.cache.close [] :=
      h.coherent.close
    exact {
      moves := fun lossy => (h.moves lossy).tail .close
      coherent := close.coherent
      keeps := h.keeps.trans ⟨close.tasks, close.spawned, close.begun, close.keeps.called⟩
      running := h.running
      owned := by
        intro _
        have unowned := may.2
        unfold owners at unowned ⊢
        rw [← unowned]
        dsimp only [cache]
        rw [Cache.close_observers] }
  next => exact h

theorem find?_of_unowned (unowned : s.owners = 0) (x : Holder Key) :
    s.cache.observers.find? x = none := by
  unfold owners at unowned
  exact Registry.find?_of_size_eq_zero (by omega) x

theorem letGo_acted (h : Coherent s.cache []) (owned : Owned s) (x : Holder Key) :
    Acted s (s.letGo x) := by
  have released : Acted s { s with timed := s.timed.release x } := by
    cases alive : s.cache.alive with
    | true => exact acted_of_deed h alive (.release x) rfl
    | false =>
        have none := find?_of_unowned (owned alive) x
        have same : s.timed.release x = s.timed := by
          simp only [TimedCache.release, Cache.release, none]
        rw [same]
        exact acted_refl h owned
  exact released.closeIfUnowned

/-! ## What a command consists of -/

/-- No computation has gained or lost a subscription. -/
def Spares (s s' : Session) : Prop :=
  ∀ x, s'.timed.cache.observers.find? (.computation x) =
    s.timed.cache.observers.find? (.computation x)

/-- The computations that a session keeps, and the plan that they follow. -/
def work (s : Session) : Plan × Registry (TaskId Key) Running := (s.plan, s.running)

/-- A command changes the objects of the session or does one thing with the cache, on behalf of a
reader or a waiter, and the cache may end after that. -/
inductive Effect (s : Session) : Session → Prop where
  | objects {s' : Session} (timed : s'.timed = s.timed) (work : s'.work = s.work) : Effect s s'
  | deed {s' : Session} (deed : Deed s.timed s'.timed) (spares : Spares s s')
      (work : s'.work = s.work) : Effect s s'
  | close {s' : Session} (before : Effect s s') : Effect s s'.closeIfUnowned

theorem spares_of_same (observers : s'.timed.cache.observers = s.timed.cache.observers) :
    Spares s s' :=
  fun _ => by rw [observers]

theorem Spares.trans {s'' : Session} (h₁ : Spares s s') (h₂ : Spares s' s'') : Spares s s'' :=
  fun x => (h₂ x).trans (h₁ x)

theorem closeIfUnowned_observers (s : Session) :
    s.closeIfUnowned.cache.observers = s.cache.observers := by
  unfold closeIfUnowned
  split
  next => exact Cache.close_observers s.cache
  next => rfl

theorem closeIfUnowned_work (s : Session) : s.closeIfUnowned.work = s.work := by
  unfold closeIfUnowned
  split <;> rfl

theorem Effect.work (effect : Effect s s') : s'.work = s.work := by
  induction effect with
  | objects timed work => exact work
  | deed deed spares work => exact work
  | close before ih => exact (closeIfUnowned_work _).trans ih

theorem Effect.spares (effect : Effect s s') : Spares s s' := by
  induction effect with
  | objects timed work => exact spares_of_same (by rw [timed])
  | deed deed spares work => exact spares
  | close before ih => exact ih.trans (spares_of_same (closeIfUnowned_observers _))

theorem Effect.acted (effect : Effect s s') (h : Coherent s.cache [])
    (alive : s.cache.alive = true) : Acted s s' := by
  induction effect with
  | objects timed work =>
      exact acted_of_same h (owned_of_alive (by rw [cache, timed]; exact alive)) timed
        (congrArg Prod.snd work)
  | deed deed spares work => exact acted_of_deed h alive deed (congrArg Prod.snd work)
  | close before ih => exact ih.closeIfUnowned

/-! ## Requests -/

/-- What commands do, one by one. -/
inductive Does (s : Session) : Session → Prop where
  /-- Objects are added. -/
  | gains {s' : Session} (timed : s'.timed = s.timed) (work : s'.work = s.work)
      (called : s'.called = s.called) (inner : s'.inner = s.inner)
      (owners : s.owners ≤ s'.owners) : Does s s'
  /-- An object is dropped. -/
  | drops {s' : Session} (timed : s'.timed = s.timed) (work : s'.work = s.work)
      (called : s'.called = s.called) (inner : s'.inner = s.inner) : Does s s'.closeIfUnowned
  | observe (n : Name) (k : Key) : Does s { s with timed := s.timed.observe (.reader n) k }
  | glance (k : Key) : Does s { s with timed := s.timed.glance k }
  | snapshot (k : Key) : Does s { s with timed := (s.timed.snapshot k).1 }
  | poll (n : Name) : Does s { s with timed := (s.timed.poll (.reader n)).1 }
  | await (keep : Option Name) (k : Key) :
      Does s { s with timed := (s.timed.await (keep.map .waiter) k).1 }
  | resume (n : Name) :
      Does s { s with timed := (s.timed.resume (.waiter n)).1 }.closeIfUnowned
  | letGo (x : Holder Key) (other : ∀ y, x ≠ .computation y) : Does s (s.letGo x)
  | set (k : Key) (v : Value) : Does s { s with timed := s.timed.set k v }
  | expire (k : Key) : Does s { s with timed := s.timed.expire k }
  | expireAll : Does s s.expireAll.1
  | sweep : Does s s.sweep.1

theorem Does.refl (s : Session) : Does s s := .gains rfl rfl rfl rfl (Nat.le_refl _)

theorem orderExpiry_perm (events : List Event) :
    (events.take 1 ++ Event.orderExpired (events.drop 1)).Perm events := by
  have rest := (Event.orderExpired_perm (events.drop 1)).append_left (events.take 1)
  rwa [List.take_append_drop] at rest

theorem deed_expireAll (s : Session) : Deed s.timed s.expireAll.1.timed := by
  obtain ⟨rest, tasks⟩ := Cache.expireAll_tasks s.cache
  refine .expireAll _ ?_ _
  rw [show s.timed.expireAll.cache = s.cache.expireAll from rfl, ← tasks, List.drop_left]
  exact (orderTasks_perm rest).append_left _

theorem Does.effect (does : Does s s') : Effect s s' := by
  cases does with
  | gains timed work called inner owners => exact .objects timed work
  | drops timed work called inner => exact .close (.objects timed work)
  | observe n k =>
      refine .deed (.observe (.reader n) k) (fun x => ?_) rfl
      simp [TimedCache.observe, Cache.observe, Cache.hold_observers, Registry.find?_insert]
  | glance k => exact .deed (.glance k) (spares_of_same (by simp [TimedCache.glance])) rfl
  | snapshot k => exact .deed (.snapshot k) (spares_of_same (by simp [TimedCache.snapshot])) rfl
  | poll n =>
      refine .deed (.poll (.reader n)) (fun x => ?_) rfl
      rw [TimedCache.poll_observers, Cache.find?_poll_of_ne _ _ _ (by simp)]
  | await keep k =>
      refine .deed (.await (keep.map .waiter) k) (fun x => ?_) rfl
      cases keep with
      | none => simp [TimedCache.await, Cache.await_none_observers]
      | some n =>
          simp only [TimedCache.await, Option.map_some, Cache.await_observers]
          split <;> simp [Registry.find?_insert]
  | resume n =>
      refine .close (.deed (.resume (.waiter n)) (fun x => ?_) rfl)
      have polled : (s.timed.poll (.waiter n)).1.cache.observers.find? (.computation x) =
          s.cache.observers.find? (.computation x) := by
        rw [TimedCache.poll_observers, Cache.find?_poll_of_ne _ _ _ (by simp)]
      unfold TimedCache.resume
      dsimp only
      split
      next => exact polled
      next => simpa [TimedCache.release, Cache.find?_release] using polled
  | letGo x other =>
      refine .close (.deed (.release x) (fun y => ?_) rfl)
      simp [TimedCache.release, Cache.find?_release, other]
  | set k v => exact .deed (.set k v) (spares_of_same (by simp [TimedCache.set])) rfl
  | expire k => exact .deed (.expire k) (spares_of_same (by simp [TimedCache.expire])) rfl
  | expireAll =>
      exact .deed (deed_expireAll s) (spares_of_same (Cache.expireAll_observers s.cache)) rfl
  | sweep => exact .deed (.sweep _) (spares_of_same (Cache.sweep_observers s.cache)) rfl

theorem closeIfUnowned_rest (s : Session) :
    s.closeIfUnowned.called = s.called ∧ s.closeIfUnowned.inner = s.inner := by
  unfold closeIfUnowned
  split <;> exact ⟨rfl, rfl⟩

/-- A command calls no computation, and the answers given in computations are not touched. -/
theorem Does.rest (does : Does s s') : s'.called = s.called ∧ s'.inner = s.inner := by
  cases does with
  | gains timed work called inner owners => exact ⟨called, inner⟩
  | drops timed work called inner =>
      obtain ⟨called', inner'⟩ := closeIfUnowned_rest _
      exact ⟨called'.trans called, inner'.trans inner⟩
  | resume n => exact closeIfUnowned_rest _
  | letGo x other => exact closeIfUnowned_rest _
  | observe | glance | snapshot | poll | await | set | expire | expireAll | sweep =>
      exact ⟨rfl, rfl⟩

theorem withPart_does {β : Type} (part : Option β) {f : β → Session × Reply}
    (each : ∀ b, Does s (f b).1) : Does s (withPart s part f).1 := by
  cases part with
  | none => exact .refl s
  | some b => exact each b

theorem withObject_does {ν : Type} (objects : Registry Name ν) (id : Option Name)
    {f : Name → ν → Session × Reply} (each : ∀ n v, Does s (f n v).1) :
    Does s (withObject s objects id f).1 := by
  refine withPart_does id fun n => ?_
  split
  next => exact .refl s
  next v _ => exact each n v

theorem observe_does (keep : Option Name) (k : Key) : Does s (s.observe keep k).1 := by
  cases keep with
  | none => exact .glance k
  | some n => exact .observe n k

theorem owners_addHandle (s : Session) (n : Name) (link : Nat) :
    s.owners ≤ (s.addHandle n link).1.owners := by
  have := s.handles.size_le_insert n link
  simp only [owners, cache, addHandle]
  omega

theorem owners_addBackbone (s : Session) (n : Name) (b : Backbone) :
    s.owners ≤ (s.addBackbone n b).1.owners := by
  have := s.backbones.size_le_insert n b
  simp only [owners, cache, addBackbone]
  omega

theorem owners_addRef (s : Session) (n : Name) (r : Ref) :
    s.owners ≤ (s.addRef n r).1.owners := by
  have := s.refs.size_le_insert n r
  simp only [owners, cache, addRef]
  omega

theorem executeOnCache_does (link : Nat) (request : CacheRequest) :
    Does s (s.executeOnCache link request).1 := by
  cases request with
  | get key keep => exact withPart_does key fun k => observe_does keep k
  | snapshot key => exact withPart_does key fun k => .snapshot k
  | now key keep => exact withPart_does key fun k => .await keep k
  | set key value => exact withPart_does value fun v => withPart_does key fun k => .set k v
  | expire key => exact withPart_does key fun k => .expire k
  | expireAll => exact .expireAll
  | sweep => exact .sweep
  | subscriberCount key => exact withPart_does key fun _ => .refl s
  | clone keep =>
      refine withPart_does keep fun n => ?_
      unfold cloneLink
      split <;> exact .gains rfl rfl rfl rfl (owners_addHandle _ n _)
  | backbone title own keep =>
      refine withPart_does title fun t => withPart_does keep fun n => ?_
      unfold cloneLink
      dsimp only
      split <;> [split; skip] <;> exact .gains rfl rfl rfl rfl (owners_addBackbone _ n _)
  | len | isEmpty | name | describe | armed | ttl => exact .refl s

theorem executeOnSubscription_does (n : Name) (sub : Subscription Key)
    (request : SubscriptionRequest) : Does s (s.executeOnSubscription n sub request).1 := by
  cases request with
  | next => exact .poll n
  | drain => exact .poll n
  | settled => exact .poll n
  | describe => exact .refl s
  | drop => exact .letGo _ (by simp)

theorem executeOnWait_does (n : Name) (request : WaitRequest) :
    Does s (s.executeOnWait n request).1 := by
  cases request with
  | poll => exact .resume n
  | cancel => exact .letGo _ (by simp)

theorem executeOnBackbone_does (id : Name) (b : Backbone) (request : BackboneRequest) :
    Does s (s.executeOnBackbone id b request).1 := by
  cases request with
  | clone keep =>
      exact withPart_does keep fun n => .gains rfl rfl rfl rfl (owners_addBackbone s n b)
  | info => exact .refl s
  | drop => exact .drops rfl rfl rfl rfl
  | reference key keep =>
      exact withPart_does key fun k => withPart_does keep fun n =>
        .gains rfl rfl rfl rfl (owners_addRef s n _)

theorem executeOnRef_does (id : Name) (r : Ref) (request : RefRequest) :
    Does s (s.executeOnRef id r request).1 := by
  cases request with
  | clone keep => exact withPart_does keep fun n => .gains rfl rfl rfl rfl (owners_addRef s n r)
  | info => exact .refl s
  | drop => exact .drops rfl rfl rfl rfl
  | request keep => exact observe_does keep r.key
  | now keep => exact .await keep r.key
  | snapshot => exact .snapshot r.key
  | expire => exact .expire r.key
  | same other => exact withObject_does s.refs other fun _ _ => .refl s

theorem execute_does (s : Session) (c : Command) : Does s (s.execute c).1 := by
  cases c with
  | cache handle request =>
      unfold execute
      dsimp only
      split
      next => exact withObject_does s.handles handle fun _ link => executeOnCache_does link request
      next => exact .refl s
  | dropHandle id => exact withObject_does s.handles id fun n _ => .drops rfl rfl rfl rfl
  | subscription id request =>
      refine withPart_does id fun n => ?_
      split
      next => exact .refl s
      next sub _ => exact executeOnSubscription_does n sub request
  | wait id request =>
      refine withPart_does id fun n => ?_
      split
      next => exact .refl s
      next => exact executeOnWait_does n request
  | backbone id request =>
      exact withObject_does s.backbones id fun n b => executeOnBackbone_does n b request
  | ref id request =>
      exact withObject_does s.refs id fun n r => executeOnRef_does n r request
  | distinct refs =>
      refine withPart_does refs fun names => ?_
      split <;> exact .refl s

theorem execute_effect (s : Session) (c : Command) : Effect s (s.execute c).1 :=
  (execute_does s c).effect

/-! ## A session without owners -/

theorem withPart_same {β : Type} (part : Option β) {f : β → Session × Reply}
    (each : ∀ b, (f b).1 = s) : (withPart s part f).1 = s := by
  cases part with
  | none => rfl
  | some b => exact each b

theorem withObject_of_none {ν : Type} {objects : Registry Name ν} (none : objects.size = 0)
    (id : Option Name) (f : Name → ν → Session × Reply) :
    (withObject s objects id f).1 = s := by
  refine withPart_same id fun n => ?_
  rw [Registry.find?_of_size_eq_zero none]

theorem execute_of_unowned (unowned : s.owners = 0) (c : Command) : (s.execute c).1 = s := by
  have sum : s.handles.size + s.backbones.size + s.refs.size + s.cache.observers.size = 0 := unowned
  have handles : s.handles.size = 0 := by omega
  have backbones : s.backbones.size = 0 := by omega
  have refs : s.refs.size = 0 := by omega
  cases c with
  | cache handle request =>
      unfold execute
      dsimp only
      split
      next => exact withObject_of_none handles handle _
      next => rfl
  | dropHandle id => exact withObject_of_none handles id _
  | subscription id request =>
      refine withPart_same id fun n => ?_
      rw [find?_of_unowned unowned]
  | wait id request =>
      refine withPart_same id fun n => ?_
      rw [find?_of_unowned unowned]
  | backbone id request => exact withObject_of_none backbones id _
  | ref id request => exact withObject_of_none refs id _
  | distinct names =>
      refine withPart_same names fun l => ?_
      split <;> rfl

/-- Whatever the state of a session, a command is a series of moves. -/
theorem execute_acted (h : Coherent s.cache []) (owned : Owned s) (c : Command) :
    Acted s (s.execute c).1 := by
  cases alive : s.cache.alive with
  | true => exact (execute_effect s c).acted h alive
  | false =>
      have same := execute_of_unowned (owned alive) c
      exact acted_of_same h (by rwa [same]) (by rw [same]) (by rw [same])

end Session

end LiveCache
