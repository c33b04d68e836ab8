import LiveCache.Proofs.Recast.Log
import LiveCache.Proofs.Session.Plans

/-! # Sessions that are recast

A recast session answers every step as the session itself does, except that the answers tell of
other failures and show other views. Only a description of the cache would spell its settings, and
only a sweep would tell a cache that keeps its entries until then from one that keeps them forever.
-/

namespace LiveCache

namespace Session

/-- The step asks for the description of the cache. -/
def Step.describes : Step → Bool
  | .command (.cache _ .describe) => true
  | _ => false

def Step.sweeps : Step → Bool
  | .command (.cache _ .sweep) => true
  | _ => false

end Session

open Session

/-- The step does not see through the recast. -/
structure Recast.Admits (φ : Recast Failure Value) (a : Step) : Prop where
  describe : a.describes = true → ∀ s len, (φ.settings s).describe len = s.describe len
  sweep : a.sweeps = true → ∀ r, φ.retention r = .forever ↔ r = .forever

theorem Recast.filter_tells {ε α : Type} (φ : Recast ε α) {l : List Event}
    (plain : ∀ e ∈ l, e.activity.isFault = false) :
    l.filter φ.tells = if φ.logs then l else [] := by
  have each : ∀ e ∈ l, φ.tells e = φ.logs := fun e mem => φ.tells_of_plain (plain e mem)
  cases logs : φ.logs with
  | true => exact List.filter_eq_self.2 fun e mem => (each e mem).trans logs
  | false => exact List.filter_eq_nil_iff.2 fun e mem => by simp [each e mem, logs]

namespace Session

/-! ## What is recast -/

/-- The way a computation ends that returns its panics as failures. -/
def Ending.returning (f : String → String) : Ending → Ending
  | .panic p => .fail (f p.message)
  | e => e

/-- The behaviour of a computation that returns its panics as failures. A panic before anything else
is a computation that does nothing but fail. -/
def Behaviour.returning (f : String → String) (b : Behaviour) : Behaviour :=
  match b.panicEarly with
  | some text => { ending := .fail (f text) }
  | none => { b with ending := b.ending.returning f }

def Plan.returning (f : String → String) (p : Plan) : Plan where
  calls := p.calls.map fun entry => (entry.1, entry.2.map (.returning f))
  fallback := p.fallback.returning f

theorem Plan.behaviour_returning (f : String → String) (p : Plan) (k : Key) (call : Nat) :
    (p.returning f).behaviour k call = (p.behaviour k call).returning f := by
  have planned : (p.returning f).calls.find? (fun entry => entry.1 == k) =
      (p.calls.find? fun entry => entry.1 == k).map
        fun entry => (entry.1, entry.2.map (.returning f)) := List.find?_map
  unfold behaviour
  rw [planned]
  cases p.calls.find? fun entry => entry.1 == k with
  | none => rfl
  | some entry =>
      dsimp only [Option.map_some]
      rw [List.getElem?_map]
      cases entry.2[call]? <;> rfl

/-- A recast of a session: a recast of its cache, and what its computations return in the place of
a panic, if they do. A failure that a computation has returned stands for itself. Either panics
stay panics, and their faults are logged as other events are, or they stand for the failures that
are returned, and their faults are not logged. -/
structure Rendition extends Recast Failure Value where
  returns : Option (String → String) := none
  domain : ∀ text, failure (.domain text) = .domain text
  stays : returns = none →
    (∀ p : PanicPayload, failure (.fault (.ofPanic p)) = .fault (.ofPanic p)) ∧ faults = logs
  stands : ∀ f, returns = some f →
    (∀ p : PanicPayload, failure (.fault (.ofPanic p)) = .domain (f p.message)) ∧ faults = false

namespace Rendition

variable (v : Rendition)

def plan (p : Plan) : Plan :=
  match v.returns with
  | none => p
  | some f => p.returning f

def behaviour (b : Behaviour) : Behaviour :=
  match v.returns with
  | none => b
  | some f => b.returning f

def ending (e : Ending) : Ending :=
  match v.returns with
  | none => e
  | some f => e.returning f

/-- A computation that is under way has not panicked at once. -/
def running (r : Running) : Running :=
  { r with behaviour := { r.behaviour with ending := v.ending r.behaviour.ending } }

def conclusion : Conclusion → Conclusion
  | .outcome o => .outcome (v.outcome o)
  | .panic p =>
      match v.returns with
      | none => .panic p
      | some f => .outcome (.failure (.domain (f p.message)))

def halt : Halt → Halt
  | .suspended stage => .suspended stage
  | .finished c => .finished (v.conclusion c)

theorem plan_behaviour (p : Plan) (k : Key) (call : Nat) :
    (v.plan p).behaviour k call = v.behaviour (p.behaviour k call) := by
  unfold plan behaviour
  cases v.returns with
  | none => rfl
  | some f => exact p.behaviour_returning f k call

theorem running_of_stays {v : Rendition} (stays : v.returns = none) (r : Running) :
    v.running r = r := by
  unfold running ending
  rw [stays]

@[simp] theorem halt_domain (text : String) :
    v.halt (.failure (.domain text)) = .failure (.domain text) :=
  congrArg Halt.failure (v.domain text)

theorem conclude_running (r : Running) (k : Key) (call : Nat) (sum : Value) :
    (v.running r).behaviour.conclude k call sum = v.halt (r.behaviour.conclude k call sum) := by
  unfold Behaviour.conclude running ending
  dsimp only
  cases r.behaviour.ending with
  | fail text => cases v.returns <;> exact (v.halt_domain text).symm
  | panic p =>
      dsimp only [halt, conclusion]
      cases v.returns <;> rfl
  | parse =>
      cases v.returns <;> dsimp only [Ending.returning] <;> split <;>
        first | rfl | exact (v.halt_domain _).symm
  | _ => cases v.returns <;> rfl

end Rendition

def Reply.recast (φ : Recast Failure Value) : Reply → Reply
  | .view v => .view (φ.view v)
  | .views l => .views (l.map φ.view)
  | .ready o => .ready (φ.outcome o)
  | r => r

def Report.recast (φ : Recast Failure Value) (r : Report) : Report where
  reply := r.reply.recast φ
  inner := r.inner.map (Reply.recast φ)
  events := r.events.filter φ.tells
  status := r.status

theorem Reply.recast_of_same {φ : Recast Failure Value} (failure : φ.failure = id)
    (view : ∀ v, φ.view v = v) (r : Reply) : r.recast φ = r := by
  cases r with
  | view v => exact congrArg Reply.view (view v)
  | views l => exact congrArg Reply.views (List.map_id'' view l)
  | ready o => exact congrArg Reply.ready (φ.outcome_of_same failure o)
  | _ => rfl

variable (v : Rendition)

def recast (s : Session) : Session :=
  { s with
    timed := s.timed.recast v.toRecast
    plan := v.plan s.plan
    running := s.running.map v.running
    inner := s.inner.map (Reply.recast v.toRecast) }

/-- A session and its answer, both recast. -/
def recasting (p : Session × Reply) : Session × Reply := (p.1.recast v, p.2.recast v.toRecast)

/-- Where panics stay panics the computations do as they did. -/
theorem recast_of_stays {v : Rendition} (stays : v.returns = none) (s : Session) :
    s.recast v = { s with
      timed := s.timed.recast v.toRecast
      inner := s.inner.map (Reply.recast v.toRecast) } := by
  have plan : v.plan s.plan = s.plan := by rw [Rendition.plan, stays]
  unfold recast
  rw [plan, Registry.map_of_same (Rendition.running_of_stays stays)]

variable (s : Session)

@[simp] theorem recast_timed : (s.recast v).timed = s.timed.recast v.toRecast := rfl

theorem recast_cache : (s.recast v).cache = s.cache.recast v.toRecast := rfl

@[simp] theorem recast_observers : (s.recast v).cache.observers = s.cache.observers := rfl

@[simp] theorem recast_owners : (s.recast v).owners = s.owners := rfl

theorem recast_status : (s.recast v).status = s.status := by
  unfold status
  simp only [cache, recast_timed, TimedCache.recast_cache, Cache.subscribed_recast]
  rfl

theorem closeIfUnowned_recast : (s.recast v).closeIfUnowned = s.closeIfUnowned.recast v := by
  unfold closeIfUnowned
  rw [recast_owners, recast_cache, Cache.recast_alive, Cache.close_recast]
  split <;> rfl

theorem letGo_recast (h : Holder Key) : (s.recast v).letGo h = (s.letGo h).recast v := by
  unfold letGo
  rw [recast_timed, TimedCache.release_recast]
  exact closeIfUnowned_recast v { s with timed := s.timed.release h }

/-! ## Objects and parts -/

theorem withPart_recast {β : Type} (part : Option β) {f f' : β → Session × Reply}
    (each : ∀ b, f' b = recasting v (f b)) :
    withPart (s.recast v) part f' = recasting v (withPart s part f) := by
  cases part with
  | none => rfl
  | some b => exact each b

theorem withObject_recast {ν : Type} (objects : Registry Name ν) (id : Option Name)
    {f f' : Name → ν → Session × Reply} (each : ∀ n x, f' n x = recasting v (f n x)) :
    withObject (s.recast v) objects id f' = recasting v (withObject s objects id f) := by
  refine withPart_recast v s id fun n => ?_
  split
  next => rfl
  next x _ => exact each n x

/-! ## Requests -/

theorem observe_recast (keep : Option Name) (k : Key) :
    (s.recast v).observe keep k = recasting v (s.observe keep k) := by
  cases keep with
  | none =>
      unfold observe
      rw [recast_timed, TimedCache.glance_recast]
      rfl
  | some n =>
      unfold observe
      dsimp only
      rw [recast_timed, TimedCache.observe_recast]
      rfl

theorem ofWait_recast (answer : Option (Outcome Failure Value)) :
    Reply.ofWait (answer.map v.outcome) = (Reply.ofWait answer).recast v.toRecast := by
  cases answer <;> rfl

theorem ofCount_recast (count : Option Nat) :
    Reply.ofCount count = (Reply.ofCount count).recast v.toRecast := by
  cases count <;> rfl

theorem await_recast (keep : Option Name) (k : Key) :
    (s.recast v).await keep k = recasting v (s.await keep k) := by
  unfold await recasting
  rw [recast_timed, TimedCache.await_recast]
  dsimp only
  rw [ofWait_recast]
  rfl

theorem snapshot_recast (k : Key) : (s.recast v).snapshot k = recasting v (s.snapshot k) := by
  unfold snapshot
  rw [recast_timed, TimedCache.snapshot_recast]
  rfl

theorem expire_recast (k : Key) : (s.recast v).expire k = recasting v (s.expire k) := by
  unfold expire
  rw [recast_timed, TimedCache.expire_recast]
  rfl

theorem poll_recast (h : Holder Key) :
    (s.recast v).poll h = ((s.poll h).1.recast v, (s.poll h).2.map v.view) := by
  unfold poll
  rw [recast_timed, TimedCache.poll_recast]
  rfl

/-! ## Walks over the table -/

section Walks

variable {before after : Cache Key Failure Value} (φ : Recast Failure Value)

/-- What a walk adds to the log is put in order whether it is told or not. -/
theorem events_ordered (adds : before.Adds after) (order : List Event → List Event)
    (perm : ∀ l, (order l).Perm l) :
    φ.events before.log ++ order ((φ.events after.log).drop (φ.events before.log).length) =
      φ.events (before.log ++ order (after.log.drop before.log.length)) := by
  obtain ⟨new, grown, plain⟩ := adds
  have ordered : ∀ e ∈ order new, e.activity.isFault = false := fun e mem =>
    plain e ((perm new).mem_iff.1 mem)
  rw [φ.drop_events ⟨new, grown.symm⟩, grown, List.drop_left, φ.events_append,
    φ.filter_tells plain, φ.filter_tells ordered]
  cases φ.logs with
  | true => rfl
  | false => simp [List.perm_nil.1 (perm [])]

theorem orderExpiry_recast (adds : before.Adds after) :
    orderExpiry (before.recast φ) (after.recast φ) = (orderExpiry before after).recast φ := by
  have events := events_ordered φ adds
    (fun events => events.take 1 ++ Event.orderExpired (events.drop 1)) orderExpiry_perm
  unfold orderExpiry
  dsimp only [Cache.recast] at events ⊢
  rw [List.append_assoc, events, List.append_assoc]

theorem orderSweep_recast (adds : before.Adds after) :
    orderSweep (before.recast φ) (after.recast φ) = (orderSweep before after).recast φ := by
  have events := events_ordered φ adds Event.orderReclaimed Event.orderReclaimed_perm
  unfold orderSweep
  dsimp only [Cache.recast] at events ⊢
  rw [events]

end Walks

theorem expireAll_recast : (s.recast v).expireAll = recasting v s.expireAll := by
  have adds : s.cache.Adds s.timed.expireAll.cache := s.cache.adds_expireAll
  unfold expireAll
  rw [recast_timed, TimedCache.expireAll_recast]
  dsimp only
  rw [TimedCache.recast_cache, recast_cache, orderExpiry_recast _ adds]
  rfl

theorem sweep_recast (spares : v.retention s.cache.settings.retention = .forever ↔
      s.cache.settings.retention = .forever) :
    (s.recast v).sweep = recasting v s.sweep := by
  unfold sweep
  rw [recast_cache, Cache.sweep_recast _ _ spares]
  dsimp only
  rw [orderSweep_recast _ s.cache.adds_sweep]
  rfl

/-! ## Requests by object -/

theorem describeCache_recast (plain : ∀ s len, (v.settings s).describe len = s.describe len) :
    (s.recast v).describeCache = s.describeCache := by
  unfold describeCache
  rw [recast_cache, Cache.recast_settings, plain]
  rfl

theorem executeOnCache_recast (link : Nat) (handle : Name) (request : CacheRequest)
    (admitted : v.Admits (.command (.cache handle request))) :
    (s.recast v).executeOnCache link request = recasting v (s.executeOnCache link request) := by
  cases request with
  | get key keep => exact withPart_recast v s key fun k => observe_recast v s keep k
  | snapshot key => exact withPart_recast v s key fun k => snapshot_recast v s k
  | now key keep => exact withPart_recast v s key fun k => await_recast v s keep k
  | set key value =>
      refine withPart_recast v s value fun n => withPart_recast v s key fun k => ?_
      rw [recast_timed, TimedCache.set_recast]
      rfl
  | expire key => exact withPart_recast v s key fun k => expire_recast v s k
  | expireAll => exact expireAll_recast v s
  | sweep => exact sweep_recast v s (admitted.sweep rfl _)
  | describe =>
      unfold executeOnCache
      rw [describeCache_recast v s (admitted.describe rfl)]
      rfl
  | subscriberCount key =>
      refine withPart_recast v s key fun k => ?_
      rw [recast_cache, Cache.subscriberCount_recast]
      rfl
  | armed => exact Prod.ext rfl (ofCount_recast v _)
  | ttl => exact Prod.ext rfl (ofCount_recast v _)
  | clone keep =>
      refine withPart_recast v s keep fun n => ?_
      unfold cloneLink
      rw [recast_timed, TimedCache.recast_expiration]
      split <;> rfl
  | backbone title own keep =>
      refine withPart_recast v s title fun t => withPart_recast v s keep fun n => ?_
      unfold cloneLink
      rw [recast_timed, TimedCache.recast_expiration]
      dsimp only
      split <;> [split; skip] <;> rfl
  | len | isEmpty | name => rfl

theorem describeSubscription_recast (sub : Subscription Key) :
    (s.recast v).describeSubscription sub = s.describeSubscription sub := by
  unfold describeSubscription
  rw [recast_cache, Cache.entry_recast]
  rfl

theorem executeOnSubscription_recast (n : Name) (sub : Subscription Key)
    (request : SubscriptionRequest) :
    (s.recast v).executeOnSubscription n sub request =
      recasting v (s.executeOnSubscription n sub request) := by
  cases request with
  | next =>
      unfold executeOnSubscription
      rw [poll_recast]
      dsimp only
      cases (s.poll (.reader n)).2 <;> rfl
  | drain =>
      unfold executeOnSubscription
      rw [poll_recast]
      dsimp only
      cases (s.poll (.reader n)).2 <;> rfl
  | settled =>
      unfold executeOnSubscription recasting
      rw [poll_recast]
      dsimp only
      rw [← ofWait_recast]
      cases (s.poll (.reader n)).2 with
      | none => rfl
      | some shown => exact congrArg (fun o => (_, Reply.ofWait o)) (v.settled?_view shown)
  | describe => exact Prod.ext rfl (congrArg Reply.text (describeSubscription_recast v s sub))
  | drop => exact Prod.ext (letGo_recast v s _) rfl

theorem executeOnWait_recast (n : Name) (request : WaitRequest) :
    (s.recast v).executeOnWait n request = recasting v (s.executeOnWait n request) := by
  cases request with
  | poll =>
      unfold executeOnWait recasting
      rw [recast_timed, TimedCache.resume_recast]
      dsimp only
      rw [ofWait_recast]
      exact Prod.ext
        (closeIfUnowned_recast v { s with timed := (s.timed.resume (.waiter n)).1 }) rfl
  | cancel => exact Prod.ext (letGo_recast v s _) rfl

theorem executeOnBackbone_recast (id : Name) (b : Backbone) (request : BackboneRequest) :
    (s.recast v).executeOnBackbone id b request =
      recasting v (s.executeOnBackbone id b request) := by
  cases request with
  | clone keep => exact withPart_recast v s keep fun n => rfl
  | info => rfl
  | drop =>
      exact Prod.ext (closeIfUnowned_recast v { s with backbones := s.backbones.erase id }) rfl
  | reference key keep =>
      exact withPart_recast v s key fun k => withPart_recast v s keep fun n => rfl

theorem executeOnRef_recast (id : Name) (r : Ref) (request : RefRequest) :
    (s.recast v).executeOnRef id r request = recasting v (s.executeOnRef id r request) := by
  cases request with
  | clone keep => exact withPart_recast v s keep fun n => rfl
  | info => rfl
  | drop => exact Prod.ext (closeIfUnowned_recast v { s with refs := s.refs.erase id }) rfl
  | request keep => exact observe_recast v s keep r.key
  | now keep => exact await_recast v s keep r.key
  | snapshot => exact snapshot_recast v s r.key
  | expire => exact expire_recast v s r.key
  | same other => exact withObject_recast v s s.refs other fun _ _ => rfl

theorem findRefs_recast (names : List (Option Name)) :
    (s.recast v).findRefs names = s.findRefs names := by
  induction names with
  | nil => rfl
  | cons name rest ih =>
      cases name with
      | none => rfl
      | some n =>
          unfold findRefs
          rw [ih]
          rfl

/-- A name without a ref is answered by no outcome and no view. -/
theorem recast_of_findRefs_error {names : List (Option Name)} {e : Reply}
    (failed : s.findRefs names = .error e) : e.recast v.toRecast = e := by
  induction names with
  | nil => cases failed
  | cons name rest ih =>
      cases name with
      | none =>
          cases failed
          rfl
      | some n =>
          unfold findRefs at failed
          split at failed
          next =>
            cases failed
            rfl
          next later =>
            cases failed
            exact ih later
          next => cases failed

theorem execute_recast (c : Command) (admitted : v.Admits (.command c)) :
    (s.recast v).execute c = recasting v (s.execute c) := by
  cases c with
  | cache handle request =>
      unfold execute
      dsimp only
      split
      next =>
        exact withObject_recast v s s.handles handle fun _ link =>
          executeOnCache_recast v s link handle request admitted
      next => rfl
  | dropHandle id =>
      exact withObject_recast v s s.handles id fun n _ =>
        Prod.ext (closeIfUnowned_recast v { s with handles := s.handles.erase n }) rfl
  | subscription id request =>
      refine withPart_recast v s id fun n => ?_
      rw [recast_observers]
      split
      next => rfl
      next sub _ => exact executeOnSubscription_recast v s n sub request
  | wait id request =>
      refine withPart_recast v s id fun n => ?_
      rw [recast_observers]
      split
      next => rfl
      next => exact executeOnWait_recast v s n request
  | backbone id request =>
      exact withObject_recast v s s.backbones id fun n b => executeOnBackbone_recast v s n b request
  | ref id request =>
      exact withObject_recast v s s.refs id fun n r => executeOnRef_recast v s n r request
  | distinct refs =>
      refine withPart_recast v s refs fun names => ?_
      rw [findRefs_recast]
      split
      next e failed => exact Prod.ext rfl (recast_of_findRefs_error v s failed).symm
      next => rfl

end Session

end LiveCache
