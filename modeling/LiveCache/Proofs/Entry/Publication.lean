import LiveCache.Proofs.Entry.Memory
import Mathlib.Data.List.Chain

/-! # The views that an entry publishes

An entry publishes a view when it is settled and when a current outcome is outdated. Launches and
the end of a computation publish nothing: they rely on a phase that computes, or that could, having
the same view before and after. So a view that is not current comes right after a current one, and
the current views are the outcomes that the entry was settled with, in that order.
-/

namespace LiveCache.Entry

variable {ε α : Type} {policy : StalePolicy} {e e' : Entry ε α}

/-- The outcomes that operations settle an entry with, one after another. -/
def settlements (policy : StalePolicy) (e : Entry ε α) : List (Act ε α) → List (Outcome ε α)
  | [] => []
  | a :: rest => (e.settledBy a).toList ++ settlements policy (e.perform policy a) rest

/-- A result settles the entry exactly when it is accepted. -/
theorem settledBy_settle_iff (policy : StalePolicy) (e : Entry ε α) (l : Launch)
    (o : Outcome ε α) :
    e.settledBy (.settle l o) = some o ↔ (e.settle policy l.generation o).2 = .accepted := by
  cases owned : e.owns l.generation with
  | true => simp [settledBy, settle, owned]
  | false =>
      simp only [settledBy, settle, owned, Bool.false_eq_true, if_false, reduceCtorEq, false_iff]
      split <;> simp

/-- The view `w` may be published right after `v`. -/
def Follows (policy : StalePolicy) (v w : View ε α) : Prop :=
  w.isDone = true ∨ ∃ o, v = .known o .done ∧ w = View.ofPrevious policy (some o)

/-- What is published when an entry becomes another, given the outcome that it was settled with. -/
inductive Publishes (policy : StalePolicy) (e e' : Entry ε α) : Option (Outcome ε α) → Prop where
  | nothing (same : e'.channel = e.channel) : Publishes policy e e' none
  | current (o : Outcome ε α) (anew : e'.channel = e.channel.publish (.known o .done)) :
      Publishes policy e e' (some o)
  | outdated (o : Outcome ε α) (shown : e.latest = .known o .done)
      (anew : e'.channel = e.channel.publish (View.ofPrevious policy (some o))) :
      Publishes policy e e' none

/-! ## Channels -/

theorem isDone_ofPrevious (policy : StalePolicy) (previous : Option (Outcome ε α)) :
    (View.ofPrevious policy previous).isDone = false := by
  cases policy <;> cases previous <;> rfl

theorem ofPrevious_ne_loading (o : Outcome ε α) (previous : Option (Outcome ε α)) :
    View.ofPrevious .hide previous ≠ .known o .loading := by
  cases previous <;> simp [View.ofPrevious]

theorem outdate_channel (policy : StalePolicy) (e : Entry ε α) :
    (e.outdate policy).channel = e.channel ∨ ∃ o, e.phase = .settled o ∧
      (e.outdate policy).channel = e.channel.publish (View.ofPrevious policy (some o)) := by
  unfold outdate
  split
  next => exact .inl rfl
  next => exact .inl rfl
  next => exact .inl (abort_channel e)
  next o hp => exact .inr ⟨o, hp, rfl⟩

theorem renewed_channel (policy : StalePolicy) (e : Entry ε α) :
    (e.renewed policy).1.channel = (e.outdate policy).channel := by
  unfold renewed
  split
  next => rfl
  next => exact demand_channel _

/-- The end of a current outcome is published. -/
theorem renewed_channel_of_settled {o : Outcome ε α} (settled : e.phase = .settled o) :
    (e.renewed policy).1.channel = e.channel.publish (View.ofPrevious policy (some o)) := by
  rw [renewed_channel, outdate, settled]
  rfl

/-- An entry that computes shows no current outcome. -/
theorem Sound.unsettled_of_owns (h : e.Sound policy) {generation : Nat}
    (owned : e.owns generation = true) : e.latest.isDone = false := by
  obtain ⟨l, previous, hp, -⟩ := (owns_iff e generation).1 owned
  rw [h.shown, hp]
  exact isDone_ofPrevious policy previous

/-- The phases hand the latest view on to each other, so only a settlement and the end of a current
outcome are published. -/
theorem Sound.publishes (h : e.Sound policy) {settled : Option (Outcome ε α)}
    (becomes : Becomes policy e settled e') : Publishes policy e e' settled := by
  cases becomes with
  | same => exact .nothing rfl
  | counted n => exact .nothing rfl
  | demanded n => exact .nothing (demand_channel _)
  | installed value => exact .current _ (by simp [Entry.installed, publish, Phase.view,
      Outcome.withProgress])
  | renewed =>
      rcases outdate_channel policy e with same | ⟨o, hp, anew⟩
      · exact .nothing ((renewed_channel policy e).trans same)
      · exact .outdated o (by rw [h.shown, hp]; rfl) ((renewed_channel policy e).trans anew)
  | abandoned => exact .nothing (abandoned_channel e)
  | retired => exact .nothing rfl
  | aborted => exact .nothing (abort_channel e)
  | concluded o => exact .current o rfl

/-! ## The sequence -/

/-- What holds of the views of an entry that was settled with the given outcomes. -/
structure Grammatical (policy : StalePolicy) (e : Entry ε α) (settled : List (Outcome ε α)) :
    Prop where
  sound : e.Sound policy
  first : e.channel.history.head? = some .incomplete
  chain : e.channel.history.IsChain (Follows policy)
  hidden : policy = .hide → ∀ o, .known o .loading ∉ e.channel.history
  told : e.channel.history.filterMap View.settled? = settled

theorem grammatical_fresh : Grammatical policy ({} : Entry ε α) [] where
  sound := sound_fresh
  first := rfl
  chain := List.IsChain.singleton _
  hidden := by simp [Channel.history]
  told := rfl

theorem history_getLast? (e : Entry ε α) : e.channel.history.getLast? = some e.latest := by
  simp [Channel.history, latest]

variable {settled : List (Outcome ε α)}

/-- A view that may follow the latest one is published. -/
theorem Grammatical.publish (h : Grammatical policy e settled) (sound : e'.Sound policy)
    {w : View ε α} (channel : e'.channel = e.channel.publish w)
    (follows : Follows policy e.latest w)
    (shown : policy = .hide → ∀ o, w ≠ .known o .loading) :
    Grammatical policy e' (settled ++ w.settled?.toList) where
  sound := sound
  first := by rw [channel, Channel.history_publish, List.head?_append, h.first]; rfl
  chain := by
    rw [channel, Channel.history_publish]
    refine h.chain.append (List.IsChain.singleton w) fun v hv w' hw => ?_
    rw [history_getLast?, Option.mem_some] at hv
    rw [List.head?_cons, Option.mem_some] at hw
    exact hv ▸ hw ▸ follows
  hidden := by
    intro hide o mem
    rw [channel, Channel.history_publish, List.mem_append, List.mem_singleton] at mem
    rcases mem with old | new
    · exact h.hidden hide o old
    · exact shown hide o new.symm
  told := by
    rw [channel, Channel.history_publish, List.filterMap_append, h.told]
    cases hw : w.settled? <;> simp [hw]

theorem Grammatical.perform (h : Grammatical policy e settled) (a : Act ε α) :
    Grammatical policy (e.perform policy a) (settled ++ (e.settledBy a).toList) := by
  have sound := (h.sound.perform a).1
  have publishes := h.sound.publishes (becomes_perform policy e a)
  generalize e.settledBy a = outcome at publishes ⊢
  cases publishes with
  | nothing same =>
      have same : (e.perform policy a).channel.history = e.channel.history := by rw [same]
      rw [Option.toList_none, List.append_nil]
      exact ⟨sound, same ▸ h.first, same ▸ h.chain, same ▸ h.hidden, same ▸ h.told⟩
  | current o anew => exact h.publish sound anew (.inl rfl) (by simp)
  | outdated o shown anew =>
      have published := h.publish sound anew (.inr ⟨o, shown, rfl⟩) fun hide o' => by
        rw [hide]
        exact ofPrevious_ne_loading o' (some o)
      rwa [settled?_ofPrevious] at published

theorem Grammatical.foldl_perform (acts : List (Act ε α)) :
    ∀ {e : Entry ε α} {settled : List (Outcome ε α)}, Grammatical policy e settled →
      Grammatical policy (acts.foldl (Entry.perform policy) e)
        (settled ++ settlements policy e acts) := by
  induction acts with
  | nil => intro e settled h; simpa [settlements] using h
  | cons a rest ih =>
      intro e settled h
      have last := ih (h.perform a)
      rwa [List.append_assoc] at last

/-- The grammar of the views that an entry publishes, for operations in any order. The view of the
phase is always the latest one. A view that is not current comes right after a current one and shows
what the policy makes of its outcome, and an accepted result is published right after a view that is
not current. The current views are the outcomes of the settlements, in their order. -/
theorem published_sequence (policy : StalePolicy) (acts : List (Act ε α)) :
    let e := acts.foldl (perform policy) {}
    e.latest = e.phase.view policy ∧
    e.channel.history.head? = some .incomplete ∧
    (∀ past v w rest, e.channel.history = past ++ v :: w :: rest → w.isDone = false →
      ∃ o, v = .known o .done ∧ (policy = .replay → w = .known o .loading) ∧
        (policy = .hide → w = .incomplete)) ∧
    (∀ l o, (e.settle policy l.generation o).2 = .accepted →
      ∃ past v, e.channel.history = past ++ [v] ∧ v.isDone = false ∧
        (e.perform policy (.settle l o)).channel.history = past ++ [v, .known o .done]) ∧
    (policy = .hide → ∀ o, .known o .loading ∉ e.channel.history) ∧
    e.channel.history.filterMap View.settled? = settlements policy {} acts := by
  intro e
  have h : Grammatical policy e (settlements policy {} acts) :=
    Grammatical.foldl_perform acts grammatical_fresh
  refine ⟨h.sound.shown, h.first, ?_, ?_, h.hidden, h.told⟩
  · intro past v w rest split unsettled
    have chain := h.chain
    rw [split, List.isChain_append_cons_cons] at chain
    rcases chain.2.1 with done | ⟨o, rfl, rfl⟩
    · rw [unsettled] at done
      cases done
    · refine ⟨o, rfl, ?_, ?_⟩ <;> rintro rfl <;> rfl
  · intro l o accepted
    have owned : e.owns l.generation = true := by
      have settled := (settledBy_settle_iff policy e l o).2 accepted
      by_contra disowned
      simp [settledBy, disowned] at settled
    have anew : (e.perform policy (.settle l o)).channel = e.channel.publish (.known o .done) := by
      simp only [perform, settle_of_owns owned]
      rfl
    refine ⟨e.channel.earlier.reverse, e.latest, List.reverse_cons,
      h.sound.unsettled_of_owns owned, ?_⟩
    rw [anew, Channel.history_publish, Channel.history, List.reverse_cons, List.append_assoc]
    rfl

/-- A reader comes, the value is set, outdated and computed anew. -/
example :
    let acts : List (Act Nat Nat) :=
      [.subscribe, .set 1, .settle ⟨0, 0⟩ (.success 2), .expire, .settle ⟨1, 2⟩ (.failure 3)]
    (acts.foldl (perform .replay) {}).channel.history =
      [.incomplete, .known (.success 1) .done, .known (.success 1) .loading,
        .known (.failure 3) .done] := by
  decide

end LiveCache.Entry
