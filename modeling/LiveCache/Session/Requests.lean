import LiveCache.Session.State

/-!
# Requests

How a session answers the commands that are addressed to its objects. The object is looked up
first, and the parts of the request are read after that; a command that meets an unknown name or a
missing part changes nothing.
-/

namespace LiveCache.Session

/-! ## Objects and parts -/

/-- Goes on with a part of a request if it is there. -/
def withPart {α : Type} (s : Session) (part : Option α) (f : α → Session × Reply) :
    Session × Reply :=
  match part with
  | none => (s, .illFormed)
  | some a => f a

/-- Goes on with the object of a name if there is one. -/
def withObject {ν : Type} (s : Session) (objects : Registry Name ν) (id : Option Name)
    (f : Name → ν → Session × Reply) : Session × Reply :=
  withPart s id fun n =>
    match objects.find? n with
    | none => (s, .unknownName)
    | some v => f n v

/-! ## Observing -/

/-- A new subscription is kept under a name, or ends at once. -/
def observe (s : Session) (keep : Option Name) (k : Key) : Session × Reply :=
  match keep with
  | none => ({ s with timed := s.timed.glance k }, .nothing)
  | some n => ({ s with timed := s.timed.observe (.reader n) k }, .nothing)

def Reply.ofWait : Option (Outcome Failure Value) → Reply
  | none => .pending
  | some o => .ready o

/-- A new wait is kept under a name, or ends at once, if the outcome is not there. -/
def await (s : Session) (keep : Option Name) (k : Key) : Session × Reply :=
  let awaited := s.timed.await (keep.map .waiter) k
  ({ s with timed := awaited.1 }, .ofWait awaited.2)

def snapshot (s : Session) (k : Key) : Session × Reply :=
  let taken := s.timed.snapshot k
  ({ s with timed := taken.1 }, .view taken.2)

def expire (s : Session) (k : Key) : Session × Reply :=
  ({ s with timed := s.timed.expire k }, .nothing)

def poll (s : Session) (h : Holder Key) : Session × Option (View Failure Value) :=
  let polled := s.timed.poll h
  ({ s with timed := polled.1 }, polled.2)

/-! ## Walks over the table

The table has no order of its own, so what a walk has reported and launched is put in order. -/

def orderTasks (tasks : List (Task Key)) : List (Task Key) :=
  tasks.mergeSort fun t u => decide (¬ u.id.key < t.id.key)

theorem orderTasks_perm (tasks : List (Task Key)) : (orderTasks tasks).Perm tasks :=
  List.mergeSort_perm tasks _

/-- Orders what is new in `after`. The report on the whole walk stays in front. -/
def orderExpiry (before after : Cache Key Failure Value) : Cache Key Failure Value :=
  let events := after.log.drop before.log.length
  { after with
    log := before.log ++ events.take 1 ++ Event.orderExpired (events.drop 1)
    tasks := before.tasks ++ orderTasks (after.tasks.drop before.tasks.length) }

def orderSweep (before after : Cache Key Failure Value) : Cache Key Failure Value :=
  { after with
    log := before.log ++ Event.orderReclaimed (after.log.drop before.log.length) }

def expireAll (s : Session) : Session × Reply :=
  let t := s.timed.expireAll
  ({ s with timed := { t with cache := orderExpiry s.cache t.cache } }, .nothing)

def sweep (s : Session) : Session × Reply :=
  let swept := s.cache.sweep
  ({ s with timed := { s.timed with cache := orderSweep s.cache swept.1 } }, .number swept.2)

/-! ## Links -/

/-- Without a time to live a handle is cloned together with its link; with one the link is shared. -/
def cloneLink (s : Session) (link : Nat) : Session × Nat :=
  match s.timed.expiration with
  | none => ({ s with links := s.links + 1 }, s.links)
  | some _ => (s, link)

def addHandle (s : Session) (n : Name) (link : Nat) : Session × Reply :=
  ({ s with handles := s.handles.insert n link }, .nothing)

def addBackbone (s : Session) (n : Name) (b : Backbone) : Session × Reply :=
  ({ s with backbones := s.backbones.insert n b }, .nothing)

def addRef (s : Session) (n : Name) (r : Ref) : Session × Reply :=
  ({ s with refs := s.refs.insert n r }, .nothing)

/-! ## Requests by object -/

def Reply.ofCount : Option Nat → Reply
  | none => .nothing
  | some n => .number n

def executeOnCache (s : Session) (link : Nat) : CacheRequest → Session × Reply
  | .get key keep => withPart s key (s.observe keep)
  | .snapshot key => withPart s key s.snapshot
  | .now key keep => withPart s key (s.await keep)
  | .set key value =>
      withPart s value fun v => withPart s key fun k =>
        ({ s with timed := s.timed.set k v }, .nothing)
  | .expire key => withPart s key s.expire
  | .expireAll => s.expireAll
  | .sweep => s.sweep
  | .len => (s, .number s.cache.len)
  | .isEmpty => (s, .flag s.cache.isEmpty)
  | .name => (s, .text s.cache.settings.name)
  | .describe => (s, .text s.describeCache)
  | .subscriberCount key => withPart s key fun k => (s, .number (s.cache.subscriberCount k))
  | .armed => (s, .ofCount s.timed.armed?)
  | .ttl => (s, .ofCount s.timed.ttl?)
  | .clone keep =>
      withPart s keep fun n =>
        let cloned := s.cloneLink link
        cloned.1.addHandle n cloned.2
  | .backbone title own keep =>
      withPart s title fun t => withPart s keep fun n =>
        let linked := if own then s.cloneLink link else (s, link)
        linked.1.addBackbone n ⟨t, linked.2⟩

/-- The parts of a request that are read even before its handle is looked up. -/
def CacheRequest.isReadable : CacheRequest → Bool
  | .set _ value => value.isSome
  | .backbone title _ _ => title.isSome
  | _ => true

def executeOnSubscription (s : Session) (n : Name) (sub : Subscription Key) :
    SubscriptionRequest → Session × Reply
  | .next =>
      let polled := s.poll (.reader n)
      (polled.1, (polled.2.map .view).getD .pending)
  | .drain =>
      let polled := s.poll (.reader n)
      (polled.1, .views polled.2.toList)
  | .settled =>
      let polled := s.poll (.reader n)
      (polled.1, .ofWait (polled.2.bind View.settled?))
  | .describe => (s, .text (s.describeSubscription sub))
  | .drop => (s.letGo (.reader n), .nothing)

def executeOnWait (s : Session) (n : Name) : WaitRequest → Session × Reply
  | .poll =>
      let resumed := s.timed.resume (.waiter n)
      ({ s with timed := resumed.1 }.closeIfUnowned, .ofWait resumed.2)
  | .cancel => (s.letGo (.waiter n), .nothing)

def executeOnBackbone (s : Session) (id : Name) (b : Backbone) :
    BackboneRequest → Session × Reply
  | .clone keep => withPart s keep fun n => s.addBackbone n b
  | .info => (s, .backbone b s.cache.len)
  | .drop => ({ s with backbones := s.backbones.erase id }.closeIfUnowned, .nothing)
  | .reference key keep =>
      withPart s key fun k => withPart s keep fun n => s.addRef n ⟨b, k⟩

def executeOnRef (s : Session) (id : Name) (r : Ref) : RefRequest → Session × Reply
  | .clone keep => withPart s keep fun n => s.addRef n r
  | .info => (s, .ref r)
  | .drop => ({ s with refs := s.refs.erase id }.closeIfUnowned, .nothing)
  | .request keep => s.observe keep r.key
  | .now keep => s.await keep r.key
  | .snapshot => s.snapshot r.key
  | .expire => s.expire r.key
  | .same other => withObject s s.refs other fun _ q => (s, .flag (r.same q))

/-- The refs of the given names, or the reply to the first name that has none. -/
def findRefs (s : Session) : List (Option Name) → Except Reply (List Ref)
  | [] => .ok []
  | none :: _ => .error .illFormed
  | some n :: rest =>
      match s.refs.find? n, s.findRefs rest with
      | none, _ => .error .unknownName
      | some _, .error e => .error e
      | some r, .ok rs => .ok (r :: rs)

/-! ## Commands -/

/-- Answers a command. Subscriptions and waits are found under their holders. -/
def execute (s : Session) : Command → Session × Reply
  | .cache handle request =>
      if request.isReadable then
        withObject s s.handles handle fun _ link => s.executeOnCache link request
      else (s, .illFormed)
  | .dropHandle id =>
      withObject s s.handles id fun n _ =>
        ({ s with handles := s.handles.erase n }.closeIfUnowned, .nothing)
  | .subscription id request =>
      withPart s id fun n =>
        match s.cache.observers.find? (.reader n) with
        | none => (s, .unknownName)
        | some sub => s.executeOnSubscription n sub request
  | .wait id request =>
      withPart s id fun n =>
        match s.cache.observers.find? (.waiter n) with
        | none => (s, .unknownName)
        | some _ => s.executeOnWait n request
  | .backbone id request => withObject s s.backbones id fun n b => s.executeOnBackbone n b request
  | .ref id request => withObject s s.refs id fun n r => s.executeOnRef n r request
  | .distinct refs =>
      withPart s refs fun names =>
        match s.findRefs names with
        | .error e => (s, e)
        | .ok rs => (s, .number (Ref.countDistinct rs))

end LiveCache.Session
