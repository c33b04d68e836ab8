import LiveCache.Proofs.Cache.Stride
import LiveCache.Proofs.Entry.Memory

/-! # The operations that entries go through

An operation on a cache does to each entry nothing but operations of the entry itself, and only
those of a few kinds. An entry that the table holds stays there unless it is retired. What an
operation does not do is read off the kinds that it does not use.
-/

namespace LiveCache

namespace Entry

variable {ε α : Type} {policy : StalePolicy} {e e' : Entry ε α} {P Q : Act ε α → Prop}

/-- The entry may come to another by operations of a kind. -/
def Via (P : Act ε α → Prop) (policy : StalePolicy) : Entry ε α → Entry ε α → Prop :=
  Relation.ReflTransGen fun e e' => ∃ a : Act ε α, P a ∧ a.allowed e ∧ e' = e.perform policy a

theorem via_perform {a : Act ε α} (kind : P a) (allowed : a.allowed e) :
    Via P policy e (e.perform policy a) :=
  .single ⟨a, kind, allowed, rfl⟩

theorem Via.mono (h : Via P policy e e') (weaker : ∀ a, P a → Q a) : Via Q policy e e' :=
  Relation.ReflTransGen.mono (fun _ _ ⟨a, kind, rest⟩ => ⟨a, weaker a kind, rest⟩) _ _ h

theorem Via.leads (h : Via P policy e e') : Leads policy e e' :=
  Relation.ReflTransGen.mono (fun _ _ ⟨a, _, rest⟩ => ⟨a, rest⟩) _ _ h

/-- Nothing but the end of a subscription makes subscribers fewer. -/
theorem Via.subscribers (h : Via P policy e e') (other : ∀ a, P a → a ≠ .unsubscribe) :
    e.subscribers ≤ e'.subscribers := by
  induction h with
  | refl => exact Nat.le_refl _
  | tail _ last ih =>
      obtain ⟨a, kind, -, rfl⟩ := last
      exact Nat.le_trans ih (subscribers_perform policy _ (other a kind))

theorem retired_perform (policy : StalePolicy) (e : Entry ε α) {a : Act ε α}
    (other : a ≠ .retire) : (e.perform policy a).retired = e.retired := by
  cases a with
  | subscribe =>
      cases present : e.retired with
      | true => simp [perform, subscribe?, present]
      | false => simpa [perform, subscribe?_eq present] using present
  | unsubscribe => rfl
  | snapshot =>
      cases present : e.retired with
      | true => simp [perform, snapshot?, present]
      | false => simpa [perform, snapshot?_eq present] using present
  | set value =>
      cases present : e.retired with
      | true => simp [perform, set?, present]
      | false => simpa [perform, set?_eq present, Entry.installed] using present
  | expire =>
      cases present : e.retired with
      | true => simp [perform, expire?, present]
      | false => simpa [perform, expire?_eq present] using present
  | abandon =>
      simp only [perform, abandon]
      split <;> [split <;> simp; rfl]
  | retire => exact absurd rfl other
  | abort => exact abort_retired e
  | settle l o =>
      simp only [perform, settle]
      split <;> [rfl; split <;> simp]

/-- An entry is retired by nothing but the operation of that name. -/
theorem Via.retired (h : Via P policy e e') (other : ∀ a, P a → a ≠ .retire) :
    e'.retired = e.retired := by
  induction h with
  | refl => rfl
  | tail _ last ih =>
      obtain ⟨a, kind, -, rfl⟩ := last
      rw [retired_perform policy _ (other a kind), ih]

/-- Operations of readers that come. -/
def Act.asks : Act ε α → Prop
  | .subscribe => True
  | .snapshot => True
  | _ => False

/-- Operations by which neither a subscription ends nor an entry is retired. -/
def Act.lasts : Act ε α → Prop
  | .unsubscribe => False
  | .retire => False
  | _ => True

/-- Operations by which a subscription ends, and what follows from it. -/
def Act.parts : Act ε α → Prop
  | .unsubscribe => True
  | .abandon => True
  | .retire => True
  | _ => False

/-- Operations by which neither a result is handed in nor the cache ends. -/
def Act.serves : Act ε α → Prop
  | .settle _ _ => False
  | .abort => False
  | _ => True

theorem Act.serves_of_parts {a : Act ε α} (parts : a.parts) : a.serves := by
  cases a <;> trivial

theorem Act.lasts_of_asks {a : Act ε α} (asks : a.asks) : a.lasts := by
  cases a <;> trivial

theorem Act.ne_unsubscribe_of_lasts {a : Act ε α} (lasts : a.lasts) : a ≠ .unsubscribe := by
  rintro rfl
  exact lasts

theorem Act.ne_retire_of_lasts {a : Act ε α} (lasts : a.lasts) : a ≠ .retire := by
  rintro rfl
  exact lasts

end Entry

namespace Cache

variable {κ ε α : Type} [DecidableEq κ]

open Entry (Act Via via_perform)

/-- Each entry went through operations of a kind. -/
structure Passes (P : Act ε α → Prop) (c d : Cache κ ε α) : Prop where
  settings : d.settings = c.settings
  via : ∀ i, Via P c.settings.stale (c.entry i) (d.entry i)
  /-- Only retired entries leave the table. -/
  kept : ∀ i, c.Holds i → (d.entry i).retired = false → d.Holds i

variable {c d e : Cache κ ε α} {loose : List (EntryId κ)} {P Q : Act ε α → Prop}

theorem passes_of_same (settings : d.settings = c.settings) (entry : d.entry = c.entry)
    (table : d.table = c.table) : Passes P c d where
  settings := settings
  via := fun i => entry ▸ .refl
  kept := by
    intro i held _
    rw [holds_iff] at held ⊢
    rwa [table]

theorem Passes.refl (c : Cache κ ε α) : Passes P c c := passes_of_same rfl rfl rfl

theorem Passes.mono (h : Passes P c d) (weaker : ∀ a, P a → Q a) : Passes Q c d :=
  ⟨h.settings, fun i => (h.via i).mono weaker, h.kept⟩

theorem Passes.trans (h₁ : Passes P c d) (h₂ : Passes P d e) : Passes P c e where
  settings := h₂.settings.trans h₁.settings
  via := fun i => (h₁.via i).trans (h₁.settings ▸ h₂.via i)
  kept := by
    intro i held present
    refine h₂.kept i (h₁.kept i held ?_) present
    by_contra gone
    rw [(h₂.via i).leads.resting (by simpa using gone)] at present
    cases present

/-- Nothing but the entries, the table and the settings counts. -/
theorem Passes.congr (h : Passes P c d) (settings : e.settings = d.settings)
    (entry : e.entry = d.entry) (table : e.table = d.table) : Passes P c e :=
  h.trans (passes_of_same settings entry table)

theorem passes_foldl {β : Type} {f : Cache κ ε α → β → Cache κ ε α}
    (step : ∀ c x, Passes P c (f c x)) (l : List β) (c : Cache κ ε α) :
    Passes P c (l.foldl f c) := by
  induction l generalizing c with
  | nil => exact .refl c
  | cons x rest ih => exact (step c x).trans (ih (f c x))

/-! ## One entry -/

theorem passes_put {i : EntryId κ} {e : Entry ε α} (via : Via P c.settings.stale (c.entry i) e) :
    Passes P c (c.put i e) where
  settings := rfl
  via := by
    intro j
    by_cases same : i = j
    · subst same
      rwa [entry_put_self]
    · rw [entry_put_of_ne c e same]
      exact .refl
  kept := fun _ held _ => held

theorem passes_perform {i : EntryId κ} {a : Act ε α} (kind : P a)
    (allowed : a.allowed (c.entry i)) :
    Passes P c (c.put i ((c.entry i).perform c.settings.stale a)) :=
  passes_put (via_perform kind allowed)

/-! ## Reading -/

@[simp] theorem locate_settings (c : Cache κ ε α) (k : κ) :
    (c.locate k).1.settings = c.settings := by
  unfold locate; split <;> rfl

@[simp] theorem locate_entry (c : Cache κ ε α) (k : κ) : (c.locate k).1.entry = c.entry := by
  unfold locate; split <;> rfl

theorem passes_locate (c : Cache κ ε α) (k : κ) : Passes P c (c.locate k).1 where
  settings := locate_settings c k
  via := fun i => locate_entry c k ▸ .refl
  kept := by
    intro i held _
    cases found : c.current? k with
    | some j => rwa [locate_of_some found]
    | none =>
        rw [locate_of_none found, enrol_holds, if_neg]
        · exact held
        · exact fun same => not_holds_of_current?_none found same held

theorem passes_subscribe (kind : P .subscribe) (c : Cache κ ε α) (k : κ) :
    Passes P c (c.subscribe k).1 := by
  have found : Passes P c (c.locate k).1 := passes_locate c k
  unfold subscribe
  dsimp only
  generalize (c.locate k).2 = i
  generalize (c.locate k).1 = d at found ⊢
  have step : Passes P d _ := passes_perform (i := i) (a := .subscribe) kind trivial
  cases made : (d.entry i).subscribe? with
  | none => exact found
  | some r =>
      simp only [Entry.perform, made, Option.map_some, Option.getD_some] at step
      exact found.trans (step.congr (by simp) (by simp) (by simp))

theorem passes_snapshot (kind : P .snapshot) (c : Cache κ ε α) (k : κ) :
    Passes P c (c.snapshot k).1 := by
  have found : Passes P c (c.locate k).1 := passes_locate c k
  unfold snapshot
  dsimp only
  generalize (c.locate k).2 = i
  generalize (c.locate k).1 = d at found ⊢
  have step : Passes P d _ := passes_perform (i := i) (a := .snapshot) kind trivial
  cases made : (d.entry i).snapshot? with
  | none => exact found
  | some r =>
      simp only [Entry.perform, made, Option.map_some, Option.getD_some] at step
      exact found.trans (step.congr (by simp) (by simp) (by simp))

theorem passes_poll (c : Cache κ ε α) (x : Holder κ) : Passes P c (c.poll x).1 := by
  unfold poll
  dsimp only
  split
  next => exact .refl c
  next => split <;> exact passes_of_same rfl rfl rfl

/-! ## Ending -/

theorem passes_reclaim (kind : P .retire) (c : Cache κ ε α) (i : EntryId κ) :
    Passes P c (c.reclaim i) := by
  by_cases may : c.Holds i ∧ (c.entry i).retirable = true
  · obtain ⟨held, may⟩ := may
    have retired : Via P c.settings.stale (c.entry i) { c.entry i with retired := true } := by
      have step : Via P c.settings.stale (c.entry i) _ := via_perform kind trivial
      rwa [Entry.perform, Entry.retire, if_pos may] at step
    rw [reclaim_of_retirable held may]
    refine ⟨by rw [record_settings]; rfl, ?_, ?_⟩
    · intro j
      rw [record_entry, note_entry]
      by_cases same : j = i
      · rw [same, dismiss_entry_self]
        exact retired
      · rw [dismiss_entry_of_ne _ same]
        exact .refl
    · intro j hj present
      rw [record_entry, note_entry] at present
      have other : j.key ≠ i.key := by
        intro key
        rw [hj.unique held key, dismiss_entry_self] at present
        cases present
      rw [holds_iff, record_table, note_table, ← holds_iff, dismiss_holds]
      exact ⟨other, hj⟩
  · rw [reclaim_of_not_retirable]
    · exact .refl c
    · intro held
      simpa using fun retirable => may ⟨held, retirable⟩

theorem passes_sweep (kind : P .retire) (c : Cache κ ε α) : Passes P c c.sweep.1 := by
  unfold sweep
  split
  next => exact .refl c
  next => exact passes_foldl (passes_reclaim kind) _ c

theorem passes_forgo (kind : P .abandon) (c : Cache κ ε α) (i : EntryId κ) :
    Passes P c (c.forgo i) := by
  have step : Passes P c (c.put i (c.entry i).abandon.1) :=
    passes_perform (a := .abandon) kind trivial
  unfold forgo
  split
  next => exact step
  next => exact step.congr (by simp) (by simp) (by simp)

theorem passes_unsubscribe (kinds : ∀ a : Act ε α, a.parts → P a) (c : Cache κ ε α)
    (i : EntryId κ) : Passes P c (c.unsubscribe i) := by
  have step : Passes P c (c.put i (c.entry i).unsubscribe) :=
    passes_perform (a := .unsubscribe) (kinds _ trivial) trivial
  unfold unsubscribe
  dsimp only
  split
  next =>
    by_cases forgets : c.settings.retention = .whileObserved
    · rw [unobserved_of_forgetful (by simpa using forgets)]
      exact (step.trans (passes_forgo (kinds _ trivial) _ i)).trans
        (passes_reclaim (kinds _ trivial) _ i)
    · unfold unobserved
      rwa [if_neg (by simpa using forgets)]
  next => exact step

theorem passes_hold (kinds : ∀ a : Act ε α, a.parts → P a) (c : Cache κ ε α) (x : Holder κ)
    (s : Subscription κ) : Passes P c (c.hold x s) := by
  unfold hold
  dsimp only
  split
  next => exact passes_of_same rfl rfl rfl
  next old _ =>
    have held : Passes P c { c with observers := c.observers.insert x s } :=
      passes_of_same rfl rfl rfl
    exact held.trans (passes_unsubscribe kinds _ old.entry)

theorem passes_release (kinds : ∀ a : Act ε α, a.parts → P a) (c : Cache κ ε α) (x : Holder κ) :
    Passes P c (c.release x) := by
  unfold release
  split
  next => exact .refl c
  next s _ =>
    have taken : Passes P c { c with observers := c.observers.erase x } :=
      passes_of_same rfl rfl rfl
    exact taken.trans (passes_unsubscribe kinds _ s.entry)

theorem passes_await (kind : P .subscribe) (kinds : ∀ a : Act ε α, a.parts → P a)
    (c : Cache κ ε α) (x : Option (Holder κ)) (k : κ) : Passes P c (c.await x k).1 := by
  have made : Passes P c (c.subscribe k).1 := passes_subscribe kind c k
  have shown := made.congr (e := (c.subscribe k).1.note (.delivered (c.subscribe k).2.entry
    ((c.subscribe k).1.entry (c.subscribe k).2.entry).channel.latest)) rfl rfl rfl
  unfold await
  dsimp only
  split
  next => exact shown.trans (passes_hold kinds _ _ _)
  next => exact shown.trans (passes_unsubscribe kinds _ _)

/-! ## Writing -/

omit [DecidableEq κ] in
@[simp] theorem recordTransition_settings (c : Cache κ ε α) (a : Activity) (t : Transition) :
    (c.recordTransition a t).settings = c.settings := by
  unfold recordTransition; split <;> simp

theorem passes_set (c : Cache κ ε α) (k : κ) (value : α) (kind : P (.set value)) :
    Passes P c (c.set k value) := by
  have noted : Passes P c (c.note (.installed k value)) := passes_of_same rfl rfl rfl
  have found := noted.trans (passes_locate (c.note (.installed k value)) k)
  unfold set
  dsimp only
  rw [← show (((c.note (.installed k value)).locate k).1).settings = c.settings from found.settings]
  generalize ((c.note (.installed k value)).locate k).2 = i
  generalize ((c.note (.installed k value)).locate k).1 = d at found ⊢
  have step : Passes P d _ := passes_perform (i := i) (a := .set value) kind trivial
  cases made : (d.entry i).set? d.settings.stale value with
  | none => exact found
  | some r =>
      simp only [Entry.perform, made, Option.map_some, Option.getD_some] at step
      exact found.trans (step.congr (by simp) (by simp) (by simp))

theorem passes_expireEntry (kind : P .expire) (c : Cache κ ε α) (i : EntryId κ) :
    Passes P c (c.expireEntry i) := by
  have step : Passes P c _ := passes_perform (i := i) (a := .expire) kind trivial
  unfold expireEntry
  cases made : (c.entry i).expire? c.settings.stale with
  | none => exact .refl c
  | some r =>
      simp only [Entry.perform, made, Option.map_some, Option.getD_some] at step
      exact step.congr (by simp) (by simp) (by simp)

theorem passes_expire (kind : P .expire) (c : Cache κ ε α) (k : κ) : Passes P c (c.expire k) := by
  have noted : Passes P c (c.note (.expired k)) := passes_of_same rfl rfl rfl
  unfold expire
  dsimp only
  split
  next => exact noted
  next => exact noted.trans (passes_expireEntry kind _ _)

theorem passes_expireAll (kind : P .expire) (c : Cache κ ε α) : Passes P c c.expireAll := by
  have noted : Passes P c ((c.note .expiredAll).record .expiredAll c.len) :=
    passes_of_same (by simp) (by simp) (by simp)
  exact noted.trans (passes_foldl (passes_expireEntry kind) _ _)

/-! ## Results -/

theorem passes_settle {t : Task κ} (handed : t.launch ∈ (c.entry t.entry).launches)
    (o : Outcome ε α) (kind : P (.settle t.launch o)) : Passes P c (c.settle t o) := by
  have step : Passes P c _ :=
    passes_perform (i := t.entry) (a := .settle t.launch o) kind handed
  refine step.congr ?_ ?_ ?_ <;> unfold settle <;> dsimp only <;> split <;>
    simp [Entry.perform] <;> rfl

/-- The end of the cache. -/
theorem passes_close (kind : P .abort) (c : Cache κ ε α) : Passes P c c.close := by
  have aborted : Passes P c _ := passes_foldl (f := fun c i => c.put i (c.entry i).abort)
    (fun c i => passes_perform (i := i) (a := .abort) kind trivial) c.ids c
  exact aborted.congr rfl rfl rfl

end Cache

end LiveCache
