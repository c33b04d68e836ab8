import LiveCache.Proofs.Blocking.Waiting

/-! # A blocking cache is a memo table

Between requests a blocking cache with all its subscriptions, generations and tasks is nothing but a
memo table: every request is answered as the table answers it, holds as many keys and has made as
many calls. This is shown for one request and then for a run of them. Of the computations only those
are looked at that the run has called by its end.
-/

namespace LiveCache

open Session (Ended Grows Key Poised Value)
open BlockingCache (Answer Report Request)
open Cache (Coherent)

variable {b : BlockingCache} {m : Memo} {f : Key → Nat → Outcome Failure Value}

namespace BlockingCache

/-- The cache has the cells and the warm keys of the memo table, which computes `f`. -/
structure Follows (f : Key → Nat → Outcome Failure Value) (b : BlockingCache) (m : Memo) :
    Prop where
  tracks : Tracks b.session m
  attends : Attends b.session.cache m.warm
  warming : b.warm = m.warming
  compute : m.compute = f

/-- An answer of the cache is that of the memo table, and both go on alike. -/
structure Agrees (f : Key → Nat → Outcome Failure Value) (p : BlockingCache × Answer)
    (q : Memo × Answer) : Prop where
  follows : Follows f p.1 q.1
  answer : p.2 = q.2

/-! ## Calls

A request only adds calls to those that were made before it.
-/

theorem finish_grows (b : BlockingCache) : Grows b.session b.finish.session :=
  Session.pollEach_grows _ b.session

theorem keepWarm_grows (b : BlockingCache) (k : Key) : Grows b.session (b.keepWarm k).session := by
  unfold keepWarm
  split
  next => exact Session.grows_of_same rfl rfl
  next => exact .refl _

/-- Calls are made only by the computations that a wait lets end. -/
theorem waitFor_grows (b : BlockingCache) (k : Key) : Grows b.session (b.waitFor k).1.session := by
  unfold waitFor
  dsimp only
  split
  next => exact Session.grows_of_same rfl rfl
  next =>
    let waiting : BlockingCache := { b with
      session := { b.session with timed := (b.session.timed.await (some (.waiter k)) k).1 } }
    have finished := finish_grows waiting
    exact ⟨finished.plan, finished.called⟩

theorem get_grows (b : BlockingCache) (k : Key) (site : CallSite) :
    Grows b.session (b.get k site).1.session := by
  unfold get
  split
  next => exact .refl _
  next => exact (keepWarm_grows b k).trans (waitFor_grows _ k)

theorem withPart_grows {β : Type} (part : Option β) {g : β → BlockingCache × Answer}
    (each : ∀ a, Grows b.session (g a).1.session) :
    Grows b.session (b.withPart part g).1.session := by
  cases part with
  | none => exact .refl _
  | some a => exact each a

theorem execute_grows (b : BlockingCache) (r : Request) :
    Grows b.session (b.execute r).1.session := by
  cases r with
  | get key site => exact withPart_grows key fun k => withPart_grows site fun c => get_grows b k c
  | snapshot key => exact withPart_grows key fun _ => Session.grows_of_same rfl rfl
  | set key value =>
      exact withPart_grows key fun _ => withPart_grows value fun _ =>
        Session.grows_of_same rfl rfl
  | expire key => exact withPart_grows key fun _ => Session.grows_of_same rfl rfl
  | release key =>
      refine withPart_grows key fun k => Session.grows_of_same ?_ ?_
      · exact congrArg Prod.fst (Session.closeIfUnowned_work _)
      · exact (Session.closeIfUnowned_rest _).1
  | subscriberCount key => exact withPart_grows key fun _ => .refl _
  | expireAll | sweep => exact Session.grows_of_same rfl rfl
  | name | describe | unknown => exact .refl _

theorem step_grows (b : BlockingCache) (r : Request) :
    Grows (b.execute r).1.session (b.step r).1.session :=
  finish_grows _

namespace Follows

theorem finish (h : Follows f b m) (ended : Ended f b.finish.session) :
    Follows f b.finish m ∧ b.finish.session.cache.tasks = [] := by
  obtain ⟨tracks, attends, warming, rfl⟩ := h
  obtain ⟨done, idle⟩ := tracks.poised.pollEach b.session.cache.tasks rfl ended
  refine ⟨⟨tracks.concludes done, attends.congr fun x => ?_, warming, rfl⟩, idle⟩
  exact congrArg (·.find? x) done.observers

/-! ## Reading -/

theorem waitFor (h : Follows f b m) (k : Key) (ended : Ended f (b.waitFor k).1.session) :
    Agrees f (b.waitFor k) ((m.fetch k).1.forget k, .outcome (m.fetch k).2) := by
  obtain ⟨-, warming, compute, warm⟩ := Memo.of_frame (m.frame_read k)
  obtain ⟨tracked, attending, warmed, rfl⟩ := h
  unfold BlockingCache.waitFor at ended ⊢
  by_cases current : ∃ o, (Tracks.asked b.session k).phase = .settled o
  · obtain ⟨o, settled⟩ := current
    obtain ⟨tracks, answer, observers⟩ := tracked.await_settled attending k settled k
    dsimp only
    rw [answer]
    refine ⟨⟨tracks, ?_, warmed.trans warming.symm, compute⟩, rfl⟩
    rw [warm]
    exact attending.congr fun x => congrArg (·.find? x) observers
  · have pending := fun o settled => current ⟨o, settled⟩
    have silent := (tracked.await_pending pending (attending.waiter_free k)).2.1
    dsimp only at ended ⊢
    rw [silent] at ended ⊢
    obtain ⟨answer, tracks, attends⟩ := tracked.wait_pending attending pending k ended
    dsimp only [BlockingCache.finish]
    rw [answer]
    exact ⟨⟨tracks, warm ▸ attends, warmed.trans warming.symm, compute⟩, rfl⟩

/-- A read key that becomes warm is asked for once, whether on that account or by the read. -/
theorem keepWarm (h : Follows f b m) (k : Key) :
    ∃ m', Follows f (b.keepWarm k) m' ∧ m'.fetch k = (m.warmUp k).fetch k := by
  have listed : b.isWarm k = m.warm.contains k := h.attends.warm k
  unfold BlockingCache.keepWarm Memo.warmUp
  by_cases warms : b.warm = true
  · rw [if_pos (h.warming.symm.trans warms)]
    have warmed := h.tracks.rewarm (m.warm.insert k ())
    cases warm : b.isWarm k with
    | true =>
        rw [if_neg (by simp)]
        have attends := h.attends.rewarm (listed.symm.trans warm)
        exact ⟨_, ⟨warmed, attends, h.warming, h.compute⟩, rfl⟩
    | false =>
        rw [if_pos ⟨warms, by simp⟩]
        have free : b.session.cache.observers.find? (.reader k) = none := by
          simpa [BlockingCache.isWarm, Registry.contains] using warm
        have cache : (b.session.timed.observe (.reader k) k).cache =
            b.session.cache.observe (.reader k) k := by
          unfold TimedCache.observe
          rw [TimedCache.armIfAbsent_of_untimed h.tracks.poised.untimed]
        have attends := h.attends.observe h.tracks.poised.coherent k
        rw [← cache] at attends
        let warmer : Memo := { m with warm := m.warm.insert k () }
        obtain ⟨-, warming, compute, kept⟩ := Memo.of_frame (warmer.frame_fetch k)
        refine ⟨(warmer.fetch k).1, ⟨warmed.observe free k, ?_, h.warming.trans warming.symm,
          compute.trans h.compute⟩, warmer.fetch_fetch k⟩
        rw [kept]
        exact attends
  · rw [if_neg fun all => warms all.1, if_neg (h.warming ▸ warms)]
    exact ⟨m, h, rfl⟩

theorem get (h : Follows f b m) (k : Key) (site : CallSite)
    (ended : Ended f (b.get k site).1.session) : Agrees f (b.get k site) (m.get k site) := by
  unfold BlockingCache.get at ended ⊢
  unfold Memo.get
  cases misused : site.misuse? with
  | some misuse => exact ⟨h, rfl⟩
  | none =>
      rw [misused] at ended
      obtain ⟨m', follows, same⟩ := h.keepWarm k
      have waited := follows.waitFor k ended
      rw [same] at waited
      exact waited

/-! ## Requests -/

/-- Only the parts count that are there. -/
theorem withPart (h : Follows f b m) {β : Type} (part : Option β)
    {g : β → BlockingCache × Answer} {g' : β → Memo × Answer}
    (each : ∀ a, part = some a → Agrees f (g a) (g' a)) :
    Agrees f (b.withPart part g) (m.withPart part g') := by
  cases part with
  | none => exact ⟨h, rfl⟩
  | some a => exact each a rfl

theorem len (h : Follows f b m) (idle : b.session.cache.tasks = []) :
    b.session.cache.len = m.held.size := by
  refine Registry.size_congr fun k => ?_
  have held := congrArg Option.isSome (h.tracks.held_of_idle idle k)
  rw [Option.isSome_map, Option.isSome_map] at held
  rw [← held, Bool.eq_iff_iff, Cache.known?_isSome_iff]

theorem calls (h : Follows f b m) (idle : b.session.cache.tasks = []) :
    b.session.calls = Tally.total m.called :=
  Tally.total_congr fun k => (congrArg Prod.snd (h.tracks.cell_of_idle idle k)).symm

theorem describe (h : Follows f b m) (idle : b.session.cache.tasks = []) :
    b.describe = m.describe := by
  unfold BlockingCache.describe Memo.describe Session.describeCache
  rw [h.tracks.poised.untimed, h.attends.size, h.warming, h.tracks.settings, h.len idle]

/-- The subscriptions are what they were. -/
theorem of_tracks (h : Follows f b m) {s : Session} {m' : Memo} (tracks : Tracks s m')
    (observers : s.cache.observers = b.session.cache.observers) (frame : m'.frame = m.frame) :
    Follows f { b with session := s } m' := by
  obtain ⟨-, warming, compute, warm⟩ := Memo.of_frame frame
  refine ⟨tracks, ?_, h.warming.trans warming.symm, compute.trans h.compute⟩
  rw [warm]
  exact h.attends.congr fun x => congrArg (·.find? x) observers

theorem release (h : Follows f b m) (idle : b.session.cache.tasks = []) (k : Key) :
    Agrees f (b.release k) (m.release k) := by
  have tracks := h.tracks.letGo h.attends idle k
  have attends := h.attends.release k
  obtain ⟨-, warming, compute, warm⟩ := Memo.of_frame (m.frame_release k)
  refine ⟨⟨tracks, ?_, h.warming.trans warming.symm, compute.trans h.compute⟩,
    congrArg Answer.flag (h.attends.warm k)⟩
  rw [warm]
  unfold BlockingCache.release
  rw [h.tracks.letGo_eq]
  exact attends

theorem execute (h : Follows f b m) (idle : b.session.cache.tasks = []) (r : Request)
    (ended : Ended f (b.execute r).1.session) : Agrees f (b.execute r) (m.execute r) := by
  have tracks := h.tracks
  cases r with
  | get key site =>
      refine h.withPart key fun k given => h.withPart site fun c made => ?_
      subst given made
      exact h.get k c ended
  | snapshot key =>
      refine h.withPart key fun k _ => ⟨h.of_tracks (tracks.snapshot k) ?_ (m.frame_fetch k), ?_⟩
      · simp [Session.cache, TimedCache.snapshot]
      · exact congrArg Answer.view (tracks.snapshot_view idle k)
  | set key value =>
      refine h.withPart key fun k _ => h.withPart value fun v _ =>
        ⟨h.of_tracks (tracks.set idle k v) ?_ rfl, rfl⟩
      simp [Session.cache, TimedCache.set]
  | expire key =>
      refine h.withPart key fun k _ =>
        ⟨h.of_tracks (tracks.expire h.attends idle k) ?_ (m.frame_expire k), rfl⟩
      exact Cache.expire_observers _ _
  | expireAll =>
      refine ⟨h.of_tracks (tracks.expireAll h.attends idle) ?_ m.frame_expireAll, rfl⟩
      exact Cache.expireAll_observers _
  | release key => exact h.withPart key fun k _ => h.release idle k
  | subscriberCount key =>
      refine h.withPart key fun k _ => ⟨h, ?_⟩
      exact congrArg Answer.number (h.attends.subscriberCount tracks.poised.coherent k)
  | sweep =>
      refine ⟨h.of_tracks (tracks.sweep h.attends idle) ?_ m.frame_sweep, ?_⟩
      · exact Cache.sweep_observers _
      · exact congrArg Answer.number (tracks.sweep_count h.attends idle)
  | name => exact ⟨h, congrArg (fun s : Settings => Answer.text s.name) tracks.settings⟩
  | describe => exact ⟨h, congrArg Answer.text (h.describe idle)⟩
  | unknown => exact ⟨h, rfl⟩

end Follows

/-! ## Runs -/

/-- What a report says of the cache as a table. -/
def Report.plain (r : Report) : Memo.Report := ⟨r.answer, r.len, r.calls⟩

/-- The cache after some requests. -/
def after (b : BlockingCache) (requests : List Request) : BlockingCache :=
  requests.foldl (fun b r => (b.step r).1) b

theorem after_grows (requests : List Request) (b : BlockingCache) :
    Grows b.session (b.after requests).session := by
  induction requests generalizing b with
  | nil => exact .refl _
  | cons r rest ih => exact (execute_grows b r).trans ((step_grows b r).trans (ih _))

theorem Follows.run (requests : List Request) : ∀ {b : BlockingCache} {m : Memo},
    Follows f b m → b.session.cache.tasks = [] → Ended f (b.after requests).session →
      (b.run requests).map Report.plain = m.run requests := by
  induction requests with
  | nil => exact fun _ _ _ => rfl
  | cons r rest ih =>
      intro b m h idle ended
      have finished : Ended f (b.step r).1.session := ended.of_grows (after_grows rest _)
      have answered := h.execute idle r (finished.of_grows (step_grows b r))
      obtain ⟨next, idle'⟩ := answered.follows.finish finished
      have report : (b.step r).2.plain = (m.step r).2 := by
        unfold Report.plain BlockingCache.step Memo.step
        dsimp only
        rw [answered.answer, next.len idle', next.calls idle']
      rw [BlockingCache.run, Memo.run, List.map_cons, report]
      exact congrArg _ (ih next idle' ended)

theorem follows_start (settings : Settings) (warm : Bool) (plan : Plan)
    (f : Key → Nat → Outcome Failure Value) :
    Follows f (start settings warm plan) (Memo.start settings warm f) where
  tracks := {
    poised := {
      coherent := Cache.coherent_ofSettings settings
      alive := rfl
      staffed := fun _ _ i l previous hp => by cases hp
      untimed := rfl
      handle := rfl
      running := fun _ => rfl
      unheld := fun _ => rfl }
    settings := rfl
    cells := fun _ => rfl }
  attends := {
    readers := fun _ _ found => by cases found
    warm := fun _ => rfl }
  warming := rfl
  compute := rfl

/-- Where every computation that is called comes to an end, a blocking cache cannot be told from a
memo table: for any settings, whether it keeps warm or not, any sequence of requests is answered
alike, with as many keys held and as many calls made after each. -/
theorem run_eq_memo (settings : Settings) (warm : Bool) (plan : Plan)
    (f : Key → Nat → Outcome Failure Value) (requests : List Request)
    (ends : ∀ k call,
      call < Tally.count ((start settings warm plan).after requests).session.called k →
        (plan.computation k call).outcome? k call = some (f k call)) :
    ((start settings warm plan).run requests).map Report.plain =
      (Memo.start settings warm f).run requests := by
  have grows := after_grows requests (start settings warm plan)
  refine (follows_start settings warm plan f).run requests rfl fun k call made => ?_
  refine ⟨plan.computation k call, ?_, ends k call made⟩
  rw [grows.plan]
  exact plan.behaviour_onThreads k call

/-- A key that is read becomes warm, is computed anew when it expires, and is forgotten when it is
released. -/
theorem run_eq_memo_released :
    ((start { retention := .whileObserved } true {}).run
      [.get (some "a") (some .plainThread), .expire (some "a"), .snapshot (some "a"),
        .release (some "a"), .snapshot (some "a")]).map Report.plain =
    [⟨.outcome (.success 0), 1, 1⟩, ⟨.nothing, 1, 2⟩, ⟨.view (.known (.success 1) .done), 1, 2⟩,
      ⟨.flag true, 0, 2⟩, ⟨.view .incomplete, 1, 3⟩] := by
  rw [run_eq_memo _ _ _ (fun _ call => .success (0 + Int64.ofNat call)) _ fun _ _ _ => rfl]
  rfl

end BlockingCache

end LiveCache
