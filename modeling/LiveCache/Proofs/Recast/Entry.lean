import LiveCache.Activity
import LiveCache.Entry

/-! # Recasts

A recast maps the states of a cache to states: the failures in them stand for others, the views that
are published are others, some settings are others, and some events are missing from the log. An
operation on the image of a state gives the image of what the operation gives on the state itself.
-/

namespace LiveCache

variable {ε ε' α β : Type}

/-! ## What is mapped -/

namespace Outcome

@[simp] theorem mapFailure_id (o : Outcome ε α) : o.mapFailure id = o := by cases o <;> rfl

end Outcome

namespace View

def mapFailure (f : ε → ε') : View ε α → View ε' α
  | incomplete => .incomplete
  | known o p => .known (o.mapFailure f) p

theorem settled?_mapFailure (f : ε → ε') (v : View ε α) :
    (v.mapFailure f).settled? = v.settled?.map (.mapFailure f) := by
  cases v with
  | incomplete => rfl
  | known o p => cases p <;> rfl

theorem isDone_mapFailure (f : ε → ε') (v : View ε α) : (v.mapFailure f).isDone = v.isDone := by
  cases v with
  | incomplete => rfl
  | known o p => cases p <;> rfl

theorem mapFailure_ofPrevious (f : ε → ε') (p : StalePolicy) (previous : Option (Outcome ε α)) :
    (View.ofPrevious p previous).mapFailure f =
      View.ofPrevious p (previous.map (.mapFailure f)) := by
  cases p <;> cases previous <;> rfl

end View

namespace Phase

def mapFailure (f : ε → ε') : Phase ε α → Phase ε' α
  | empty => .empty
  | computing l previous => .computing l (previous.map (.mapFailure f))
  | settled o => .settled (o.mapFailure f)
  | stale previous => .stale (previous.map (.mapFailure f))

@[simp] theorem mapFailure_id (phase : Phase ε α) : phase.mapFailure id = phase := by
  have outcome : (Outcome.mapFailure id : Outcome ε α → Outcome ε α) = id :=
    funext Outcome.mapFailure_id
  cases phase <;> simp [mapFailure, outcome]

theorem isComputing_mapFailure (f : ε → ε') (phase : Phase ε α) :
    (phase.mapFailure f).isComputing = phase.isComputing := by cases phase <;> rfl

theorem mapFailure_view (f : ε → ε') (p : StalePolicy) (phase : Phase ε α) :
    (phase.view p).mapFailure f = (phase.mapFailure f).view p := by
  cases phase with
  | computing l previous => exact View.mapFailure_ofPrevious f p previous
  | stale previous => exact View.mapFailure_ofPrevious f p previous
  | _ => rfl

end Phase

namespace Channel

def map (f : α → β) (c : Channel α) : Channel β := ⟨f c.latest, c.earlier.map f⟩

@[simp] theorem latest_map (f : α → β) (c : Channel α) : (c.map f).latest = f c.latest := rfl

@[simp] theorem version_map (f : α → β) (c : Channel α) : (c.map f).version = c.version :=
  List.length_map f

theorem map_publish (f : α → β) (c : Channel α) (a : α) :
    (c.publish a).map f = (c.map f).publish (f a) := rfl

theorem unseen_map (f : α → β) (c : Channel α) (seen : Option Nat) :
    (c.map f).unseen seen = (c.unseen seen).map f := by
  unfold unseen
  rw [version_map]
  split <;> rfl

end Channel

/-- The event reports the fault of a computation. -/
def Activity.isFault : Activity → Bool
  | faulted _ => true
  | _ => false

/-! ## Recasts -/

/-- The laws say that what is shown follows from what is shown without the recast, and tells of the
same outcomes; and that an entry which goes with its last subscription still does, and no other. -/
structure Recast (ε α : Type) where
  failure : ε → ε := id
  view : View ε α → View ε α
  policy : StalePolicy → StalePolicy := id
  retention : Retention → Retention := id
  /-- Events other than faults are logged. -/
  logs : Bool := true
  faults : Bool := true
  /-- What the log was before. -/
  earlier : List Event := []
  view_incomplete : view .incomplete = .incomplete
  view_phase : ∀ p (phase : Phase ε α),
    view (phase.view p) = (phase.mapFailure failure).view (policy p)
  settled?_view : ∀ v, (view v).settled? = v.settled?.map (.mapFailure failure)
  isDone_view : ∀ v, (view v).isDone = v.isDone
  whileObserved : ∀ r, retention r = .whileObserved ↔ r = .whileObserved

namespace Recast

theorem whileObserved_id (r : Retention) : id r = .whileObserved ↔ r = .whileObserved := Iff.rfl

variable (φ : Recast ε α)

/-- The outcome that stands for another. -/
def outcome (o : Outcome ε α) : Outcome ε α := o.mapFailure φ.failure

def phase (p : Phase ε α) : Phase ε α := p.mapFailure φ.failure

def settings (s : Settings) : Settings :=
  { s with
    retention := φ.retention s.retention
    stale := φ.policy s.stale
    logs := s.logs && φ.logs }

def tells (e : Event) : Bool := if e.activity.isFault then φ.faults else φ.logs

def events (l : List Event) : List Event := φ.earlier ++ l.filter φ.tells

@[simp] theorem phase_computing (l : Launch) (previous : Option (Outcome ε α)) :
    φ.phase (.computing l previous) = .computing l (previous.map φ.outcome) := rfl

@[simp] theorem settings_stale (s : Settings) : (φ.settings s).stale = φ.policy s.stale := rfl

@[simp] theorem settings_retention (s : Settings) :
    (φ.settings s).retention = φ.retention s.retention := rfl

/-! ## Events -/

theorem events_append (l l' : List Event) :
    φ.events (l ++ l') = φ.events l ++ l'.filter φ.tells := by
  unfold events
  rw [List.filter_append, List.append_assoc]

/-- What was added to a log is told as it is in the log. -/
theorem drop_events {l l' : List Event} (grown : l <+: l') :
    (φ.events l').drop (φ.events l).length = (l'.drop l.length).filter φ.tells := by
  obtain ⟨new, rfl⟩ := grown
  rw [φ.events_append, List.drop_left, List.drop_left]

theorem tells_of_plain {e : Event} (plain : e.activity.isFault = false) : φ.tells e = φ.logs := by
  unfold tells
  rw [plain]
  rfl

end Recast

/-! ## Entries -/

namespace Entry

variable (φ : Recast ε α) (e : Entry ε α) (p : StalePolicy)

def recast : Entry ε α := { e with phase := φ.phase e.phase, channel := e.channel.map φ.view }

@[simp] theorem recast_fresh : ({} : Entry ε α).recast φ = {} := by
  simp [recast, Recast.phase, Phase.mapFailure, Channel.map, φ.view_incomplete]

@[simp] theorem recast_phase : (e.recast φ).phase = φ.phase e.phase := rfl

@[simp] theorem recast_subscribers : (e.recast φ).subscribers = e.subscribers := rfl

@[simp] theorem recast_retired : (e.recast φ).retired = e.retired := rfl

@[simp] theorem recast_channel : (e.recast φ).channel = e.channel.map φ.view := rfl

theorem recast_isComputing : (e.recast φ).phase.isComputing = e.phase.isComputing :=
  Phase.isComputing_mapFailure φ.failure e.phase

theorem latest_recast : (e.recast φ).latest = φ.view e.latest := rfl

theorem publish_recast : (e.recast φ).publish (φ.policy p) = (e.publish p).recast φ := by
  unfold publish recast
  rw [Channel.map_publish, φ.view_phase]
  rfl

theorem abort_recast : (e.recast φ).abort = e.abort.recast φ := by
  unfold abort
  cases h : e.phase <;> simp only [recast_phase, h] <;> rfl

theorem demand_recast : (e.recast φ).demand = (e.demand.1.recast φ, e.demand.2) := by
  unfold demand
  cases h : e.phase with
  | computing l previous => simp only [recast_phase, h]; rfl
  | settled o => simp only [recast_phase, h]; rfl
  | empty => simp only [recast_phase, h]; rfl
  | stale previous => simp only [recast_phase, h]; rfl

theorem subscribe?_recast :
    (e.recast φ).subscribe? = e.subscribe?.map fun r => (r.1.recast φ, r.2) := by
  unfold subscribe?
  rw [recast_retired]
  split
  next => rfl
  next => exact congrArg some (demand_recast φ { e with subscribers := e.subscribers + 1 })

theorem unsubscribe_recast : (e.recast φ).unsubscribe = e.unsubscribe.recast φ := rfl

theorem snapshot?_recast :
    (e.recast φ).snapshot? = e.snapshot?.map fun r => (r.1.recast φ, r.2) := by
  unfold snapshot?
  rw [recast_retired]
  split
  next => rfl
  next => exact congrArg some (demand_recast φ e)

theorem set?_recast (value : α) :
    (e.recast φ).set? (φ.policy p) value = (e.set? p value).map fun r => (r.1.recast φ, r.2) := by
  unfold set?
  rw [recast_retired]
  split
  next => rfl
  next =>
    rw [abort_recast, recast_isComputing]
    dsimp only
    rw [Option.map_some, ← publish_recast]
    rfl

theorem outdate_recast : (e.recast φ).outdate (φ.policy p) = (e.outdate p).recast φ := by
  unfold outdate
  cases h : e.phase with
  | empty => simp only [recast_phase, h]; rfl
  | stale previous => simp only [recast_phase, h]; rfl
  | computing l previous =>
      simp only [recast_phase, h, abort_recast]
      rfl
  | settled o =>
      simp only [recast_phase, h, ← publish_recast]
      rfl

/-- An outdated entry asks for a new outcome if it is observed. -/
theorem renew_recast :
    (if (e.recast φ).subscribers = 0 then (e.recast φ, none) else (e.recast φ).demand) =
      ((if e.subscribers = 0 then (e, none) else e.demand).1.recast φ,
        (if e.subscribers = 0 then (e, none) else e.demand).2) := by
  rw [recast_subscribers, demand_recast]
  split <;> rfl

theorem expire?_recast :
    (e.recast φ).expire? (φ.policy p) = (e.expire? p).map fun r => (r.1.recast φ, r.2) := by
  unfold expire?
  rw [recast_retired]
  split
  next => rfl
  next =>
    have renewed := renew_recast φ { e.outdate p with generation := e.generation + 1 }
    rw [outdate_recast, recast_isComputing]
    exact congrArg
      (fun r => some (r.1, (⟨e.generation + 1, e.phase.isComputing, r.2⟩ : Transition))) renewed

theorem owns_recast (generation : Nat) : (e.recast φ).owns generation = e.owns generation := by
  unfold owns
  cases h : e.phase <;> simp only [recast_phase, h] <;> rfl

theorem isStale_recast : (e.recast φ).isStale = e.isStale := by
  unfold isStale
  cases h : e.phase <;> simp only [recast_phase, h] <;> rfl

theorem settle_recast (generation : Nat) (o : Outcome ε α) :
    (e.recast φ).settle (φ.policy p) generation (φ.outcome o) =
      ((e.settle p generation o).1.recast φ, (e.settle p generation o).2) := by
  unfold settle
  rw [owns_recast]
  split
  next => exact Prod.ext (publish_recast φ { e with phase := .settled o } p) rfl
  next =>
    rw [isStale_recast, recast_subscribers, recast_retired, demand_recast]
    split <;> rfl

theorem abandon_recast : (e.recast φ).abandon = (e.abandon.1.recast φ, e.abandon.2) := by
  unfold abandon
  cases h : e.phase with
  | computing l previous =>
      simp only [recast_phase, h, Recast.phase_computing, recast_subscribers, abort_recast]
      split <;> rfl
  | empty => simp only [recast_phase, h]; rfl
  | settled o => simp only [recast_phase, h]; rfl
  | stale previous => simp only [recast_phase, h]; rfl

theorem retire_recast : (e.recast φ).retire = (e.retire.1.recast φ, e.retire.2) := by
  have same : (e.recast φ).retirable = e.retirable := by
    unfold retirable
    rw [recast_isComputing]
    rfl
  unfold retire
  rw [same]
  split <;> rfl

end Entry

end LiveCache
