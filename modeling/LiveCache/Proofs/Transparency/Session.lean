import LiveCache.Proofs.Transparency.Timed
import LiveCache.Session.Computation

/-! # Sessions without timers

A session without its timers and without the links between its objects is what a session on the
cache itself would be. Every command leaves the two alike, and it is answered alike unless it asks
for what was left out: descriptions, timers, and whether refs are the same.
-/

namespace LiveCache.Session

/-! ## Replies -/

def Backbone.unlinked (b : Backbone) : Backbone := { b with link := 0 }

def Ref.unlinked (r : Ref) : Ref := { r with backbone := r.backbone.unlinked }

/-- The reply without links, which are not told. -/
def Reply.unlinked : Reply → Reply
  | .backbone b len => .backbone b.unlinked len
  | .ref r => .ref r.unlinked
  | r => r

/-- The step asks for a description, for timers, or for whether refs are the same. -/
def Step.reveals : Step → Bool
  | .command (.cache _ .describe) | .command (.cache _ .armed) | .command (.cache _ .ttl) => true
  | .command (.subscription _ .describe) => true
  | .command (.ref _ (.same _)) | .command (.distinct _) => true
  | _ => false

/-- What counts of a reply, if it counts at all. -/
def Reply.muted (silent : Bool) (r : Reply) : Reply := if silent then .nothing else r.unlinked

/-! ## Sessions -/

/-- The session on the cache itself, without links and without the answers given in computations. -/
def bare (s : Session) : Session :=
  { s with
    timed := s.timed.bare
    handles := s.handles.map fun _ => 0
    backbones := s.backbones.map Backbone.unlinked
    refs := s.refs.map Ref.unlinked
    links := 0
    inner := [] }

/-- What is left of a session and its answer. -/
def masked (silent : Bool) (p : Session × Reply) : Session × Reply := (p.1.bare, p.2.muted silent)

variable (s : Session)

theorem bare_bare : s.bare.bare = s.bare := by
  unfold bare
  simp only [TimedCache.bare_bare, Registry.map_map]
  rfl

theorem bare_timed : s.bare.timed = s.timed.bare := rfl

theorem bare_cache : s.bare.cache = s.cache.unarmed := rfl

theorem owners_bare : s.bare.owners = s.owners := by
  simp [owners, bare, cache, TimedCache.bare, Cache.unarmed]

theorem closeIfUnowned_bare : s.bare.closeIfUnowned = s.closeIfUnowned.bare := by
  unfold closeIfUnowned
  rw [owners_bare, bare_cache, Cache.close_unarmed,
    show s.cache.unarmed.alive = s.cache.alive from rfl]
  split <;> rfl

theorem letGo_bare (h : Holder Key) : s.bare.letGo h = (s.letGo h).bare := by
  unfold letGo
  rw [bare_timed, TimedCache.release_bare]
  exact closeIfUnowned_bare { s with timed := s.timed.release h }

/-! ## Requests that see neither timers nor links -/

theorem observe_bare (keep : Option Name) (k : Key) :
    s.bare.observe keep k = ((s.observe keep k).1.bare, (s.observe keep k).2) := by
  cases keep with
  | none =>
      unfold observe
      rw [bare_timed, TimedCache.glance_bare]
      rfl
  | some n =>
      unfold observe
      dsimp only
      rw [bare_timed, TimedCache.observe_bare]
      rfl

theorem await_bare (keep : Option Name) (k : Key) :
    s.bare.await keep k = ((s.await keep k).1.bare, (s.await keep k).2) := by
  unfold await
  rw [bare_timed, TimedCache.await_bare]
  rfl

theorem snapshot_bare (k : Key) :
    s.bare.snapshot k = ((s.snapshot k).1.bare, (s.snapshot k).2) := by
  unfold snapshot
  rw [bare_timed, TimedCache.snapshot_bare]
  rfl

theorem expire_bare (k : Key) :
    s.bare.expire k = ((s.expire k).1.bare, (s.expire k).2) := by
  unfold expire
  rw [bare_timed, TimedCache.expire_bare]
  rfl

theorem poll_bare (h : Holder Key) :
    s.bare.poll h = ((s.poll h).1.bare, (s.poll h).2) := by
  unfold poll
  rw [bare_timed, TimedCache.poll_bare]
  rfl

theorem expireAll_bare :
    s.bare.expireAll = (s.expireAll.1.bare, s.expireAll.2) := by
  unfold expireAll
  rw [bare_timed, TimedCache.expireAll_bare]
  rfl

theorem sweep_bare : s.bare.sweep = (s.sweep.1.bare, s.sweep.2) := by
  unfold sweep
  rw [bare_cache, Cache.sweep_unarmed]
  rfl

/-! ## Commands -/

variable {silent : Bool} {s}

/-- What is done alike leaves alike what it is done to. -/
theorem masked_of_same {p q : Session × Reply} (same : q = (p.1.bare, p.2)) :
    masked silent q = masked silent p := by
  rw [same, masked, bare_bare]
  rfl

/-- A step that asks for what was left out changes nothing. -/
theorem masked_of_revealed {a : Step} (fits : silent = true ∨ a.reveals = false)
    (reveals : a.reveals = true) (r r' : Reply) :
    masked silent (s.bare, r') = masked silent (s, r) := by
  obtain rfl : silent = true := fits.resolve_right (by simp [reveals])
  exact Prod.ext (bare_bare s) rfl

theorem withPart_masked {β : Type} (part : Option β) {f f' : β → Session × Reply}
    (each : ∀ b, masked silent (f' b) = masked silent (f b)) :
    masked silent (withPart s.bare part f') =
      masked silent (withPart s part f) := by
  cases part with
  | none => exact masked_of_same rfl
  | some b => exact each b

theorem withObject_masked {ν : Type} {objects objects' : Registry Name ν} {g : ν → ν}
    (named : objects' = objects.map g) (id : Option Name) {f f' : Name → ν → Session × Reply}
    (each : ∀ n v, masked silent (f' n (g v)) = masked silent (f n v)) :
    masked silent (withObject s.bare objects' id f') =
      masked silent (withObject s objects id f) := by
  refine withPart_masked id fun n => ?_
  rw [named, Registry.find?_map]
  cases objects.find? n with
  | none => exact masked_of_same rfl
  | some v => exact each n v

theorem bare_cloneLink (link : Nat) : (s.cloneLink link).1.bare = s.bare := by
  unfold cloneLink
  split <;> rfl

theorem masked_addHandle (n : Name) (link : Nat) :
    masked silent (s.addHandle n link) =
      ({ s.bare with handles := s.bare.handles.insert n 0 },
        Reply.nothing.muted silent) := by
  simp only [masked, addHandle, bare, Registry.map_insert]

theorem masked_addBackbone (n : Name) (b : Backbone) :
    masked silent (s.addBackbone n b) =
      ({ s.bare with backbones := s.bare.backbones.insert n b.unlinked },
        Reply.nothing.muted silent) := by
  simp only [masked, addBackbone, bare, Registry.map_insert]

theorem masked_addRef (n : Name) (r : Ref) :
    masked silent (s.addRef n r) =
      ({ s.bare with refs := s.bare.refs.insert n r.unlinked },
        Reply.nothing.muted silent) := by
  simp only [masked, addRef, bare, Registry.map_insert]

theorem executeOnCache_masked (handle : Name) (link link' : Nat) (request : CacheRequest)
    (fits : silent = true ∨ (Step.command (.cache handle request)).reveals = false) :
    masked silent (s.bare.executeOnCache link' request) =
      masked silent (s.executeOnCache link request) := by
  cases request with
  | get key keep => exact withPart_masked key fun k => masked_of_same (observe_bare s keep k)
  | snapshot key => exact withPart_masked key fun k => masked_of_same (snapshot_bare s k)
  | now key keep => exact withPart_masked key fun k => masked_of_same (await_bare s keep k)
  | set key value =>
      refine withPart_masked value fun v => withPart_masked key fun k => masked_of_same ?_
      rw [bare_timed, TimedCache.set_bare]
      rfl
  | expire key => exact withPart_masked key fun k => masked_of_same (expire_bare s k)
  | expireAll => exact masked_of_same (expireAll_bare s)
  | sweep => exact masked_of_same (sweep_bare s)
  | subscriberCount key => exact withPart_masked key fun k => masked_of_same rfl
  | describe | armed | ttl => exact masked_of_revealed fits rfl _ _
  | clone keep =>
      refine withPart_masked keep fun n => ?_
      rw [masked_addHandle, masked_addHandle, bare_cloneLink, bare_cloneLink, bare_bare]
  | backbone title own keep =>
      refine withPart_masked title fun t => withPart_masked keep fun n => ?_
      rw [masked_addBackbone, masked_addBackbone]
      cases own with
      | true =>
          simp only [if_true, bare_cloneLink, bare_bare]
          rfl
      | false =>
          simp only [Bool.false_eq_true, if_false, bare_bare]
          rfl
  | len | isEmpty | name => exact masked_of_same rfl

theorem executeOnSubscription_masked (id : Option Name) (n : Name) (sub : Subscription Key)
    (request : SubscriptionRequest)
    (fits : silent = true ∨ (Step.command (.subscription id request)).reveals = false) :
    masked silent (s.bare.executeOnSubscription n sub request) =
      masked silent (s.executeOnSubscription n sub request) := by
  cases request with
  | next | drain | settled =>
      refine masked_of_same ?_
      unfold executeOnSubscription
      rw [poll_bare]
  | describe => exact masked_of_revealed fits rfl _ _
  | drop => exact masked_of_same (Prod.ext (letGo_bare s _) rfl)

theorem executeOnWait_masked (n : Name) (request : WaitRequest) :
    masked silent (s.bare.executeOnWait n request) =
      masked silent (s.executeOnWait n request) := by
  refine masked_of_same ?_
  cases request with
  | poll =>
      unfold executeOnWait
      rw [bare_timed, TimedCache.resume_bare]
      exact Prod.ext
        (closeIfUnowned_bare { s with timed := (s.timed.resume (.waiter n)).1 }) rfl
  | cancel => exact Prod.ext (letGo_bare s _) rfl

theorem executeOnBackbone_masked (id : Name) (b : Backbone) (request : BackboneRequest) :
    masked silent (s.bare.executeOnBackbone id b.unlinked request) =
      masked silent (s.executeOnBackbone id b request) := by
  cases request with
  | clone keep =>
      refine withPart_masked keep fun n => ?_
      rw [masked_addBackbone, masked_addBackbone, bare_bare]
      rfl
  | info =>
      refine Prod.ext (bare_bare s) ?_
      cases silent <;> rfl
  | drop =>
      have erased : { s.bare with backbones := s.bare.backbones.erase id } =
          ({ s with backbones := s.backbones.erase id } : Session).bare := by
        simp only [bare, Registry.map_erase]
      refine masked_of_same (Prod.ext ?_ rfl)
      exact (congrArg closeIfUnowned erased).trans (closeIfUnowned_bare _)
  | reference key keep =>
      refine withPart_masked key fun k => withPart_masked keep fun n => ?_
      rw [masked_addRef, masked_addRef, bare_bare]
      rfl

theorem executeOnRef_masked (name : Option Name) (id : Name) (r : Ref) (request : RefRequest)
    (fits : silent = true ∨ (Step.command (.ref name request)).reveals = false) :
    masked silent (s.bare.executeOnRef id r.unlinked request) =
      masked silent (s.executeOnRef id r request) := by
  cases request with
  | clone keep =>
      refine withPart_masked keep fun n => ?_
      rw [masked_addRef, masked_addRef, bare_bare]
      rfl
  | info =>
      refine Prod.ext (bare_bare s) ?_
      cases silent <;> rfl
  | drop =>
      have erased : { s.bare with refs := s.bare.refs.erase id } =
          ({ s with refs := s.refs.erase id } : Session).bare := by
        simp only [bare, Registry.map_erase]
      refine masked_of_same (Prod.ext ?_ rfl)
      exact (congrArg closeIfUnowned erased).trans (closeIfUnowned_bare _)
  | request keep => exact masked_of_same (observe_bare s keep r.key)
  | now keep => exact masked_of_same (await_bare s keep r.key)
  | snapshot => exact masked_of_same (snapshot_bare s r.key)
  | expire => exact masked_of_same (expire_bare s r.key)
  | same other => exact withObject_masked rfl other fun _ _ => masked_of_revealed fits rfl _ _

theorem findRefs_bare (names : List (Option Name)) :
    s.bare.findRefs names = (s.findRefs names).map (List.map Ref.unlinked) := by
  induction names with
  | nil => rfl
  | cons name rest ih =>
      cases name with
      | none => rfl
      | some n =>
          unfold findRefs
          rw [ih, show s.bare.refs = s.refs.map Ref.unlinked from rfl, Registry.find?_map]
          cases s.refs.find? n with
          | none => rfl
          | some r => cases s.findRefs rest <;> rfl

/-- Every command leaves alike what it finds alike. It is answered alike, too, unless it asks for
what was left out. -/
theorem execute_masked (c : Command)
    (fits : silent = true ∨ (Step.command c).reveals = false) :
    masked silent (s.bare.execute c) = masked silent (s.execute c) := by
  cases c with
  | cache handle request =>
      unfold execute
      dsimp only
      split
      next =>
        exact withObject_masked rfl handle fun _ link =>
          executeOnCache_masked handle link 0 request fits
      next => exact masked_of_same rfl
  | dropHandle id =>
      refine withObject_masked rfl id fun n _ => masked_of_same (Prod.ext ?_ rfl)
      have erased : { s.bare with handles := s.bare.handles.erase n } =
          ({ s with handles := s.handles.erase n } : Session).bare := by
        simp only [bare, Registry.map_erase]
      exact (congrArg closeIfUnowned erased).trans (closeIfUnowned_bare _)
  | subscription id request =>
      refine withPart_masked id fun n => ?_
      rw [show s.bare.cache.observers = s.cache.observers from rfl]
      cases s.cache.observers.find? (.reader n) with
      | none => exact masked_of_same rfl
      | some sub => exact executeOnSubscription_masked id n sub request fits
  | wait id request =>
      refine withPart_masked id fun n => ?_
      rw [show s.bare.cache.observers = s.cache.observers from rfl]
      cases s.cache.observers.find? (.waiter n) with
      | none => exact masked_of_same rfl
      | some => exact executeOnWait_masked n request
  | backbone id request =>
      exact withObject_masked rfl id fun n b => executeOnBackbone_masked n b request
  | ref id request =>
      exact withObject_masked rfl id fun n r => executeOnRef_masked id n r request fits
  | distinct refs =>
      refine withPart_masked refs fun names => ?_
      rw [findRefs_bare]
      cases s.findRefs names with
      | error e => exact masked_of_same rfl
      | ok rs => exact masked_of_revealed fits rfl _ _

end LiveCache.Session
