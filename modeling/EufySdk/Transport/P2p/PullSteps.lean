import Mathlib.Tactic
import EufySdk.Lib.Lists
import EufySdk.Lib.History
import EufySdk.Transport.P2p.Pull

/-!
# The steps of a shared live source

How the timers, the stream and the state of a source go together in every run, and what
each step does to the stream: most let it go on as it was, some end it, and three open one
or hear from it.

- `Source.Sound`, `Pull.Sound` — the invariants
- `Pull.Coasts` — the stream goes on as it was
- `attach_warm`, `attach_shared`, `attach_watching` — what a consumer that joins finds
- `mem_since_teardown` — what the end of a stream leaves in the log
-/

namespace EufySdk.SharedLiveSource

/-! ## How a source's timers, stream and state go together -/

namespace Source

structure Sound (s : Source) : Prop where
  deadline : s.warmDeadlineTimer = true → s.stream = true
  retry : s.warmRetryTimer = true → s.warmDeadlineTimer = true
  retained : s.lastKeyframe = true → s.stream = true
  keyframe : s.stream = true → s.delivered.keyframe = true → s.lastKeyframe = true
  awaited : s.stream = true → s.lastKeyframe = false → s.warmDeadlineTimer = true
  reused : s.stream = true → s.reuseWatch = true → s.lastKeyframe = true
  warming : s.state = .warming → s.stream = true ∧ s.lastKeyframe = false
  live : s.state = .live → s.lastKeyframe = true
  lingering : s.state = .lingering ↔ s.lingerTimer = true
  lingers : s.lingerTimer = true → s.consumers = 0
  running : s.stream = true → s.state ≠ .idle ∧ s.state ≠ .stopped
  abandoned : s.stream = true → s.consumers = 0 → s.state = .lingering
  disposed : s.disposed = true → s.stream = false ∧ s.consumers = 0

theorem sound_start : Sound {} := by
  constructor <;> simp

namespace Sound

variable {s : Source}

theorem joined (h : s.Sound) (hopen : s.disposed = false) : s.join.joined.Sound := by
  obtain ⟨deadline, retry, retained, keyframe, awaited, reused, warming, live, lingering, lingers,
    running, abandoned, disposed⟩ := h
  unfold Source.joined Source.join Source.cancelLinger
  constructor <;> grind [Source.warm, Source.watchReusedStream, openStream, armWarmWatch]

theorem leave (h : s.Sound) (hrest : s.consumers - 1 ≠ 0) : s.leave.Sound := by
  obtain ⟨deadline, retry, retained, keyframe, awaited, reused, warming, live, lingering, lingers,
    running, abandoned, disposed⟩ := h
  constructor <;> grind [Source.leave]

theorem arm (h : s.Sound) (hlast : s.consumers - 1 = 0) : s.leave.arm.Sound := by
  obtain ⟨deadline, retry, retained, keyframe, awaited, reused, warming, live, lingering, lingers,
    running, abandoned, disposed⟩ := h
  constructor <;> grind [Source.leave, Source.arm]

theorem teardown (h : s.Sound) : s.teardown.Sound := by
  obtain ⟨deadline, retry, retained, keyframe, awaited, reused, warming, live, lingering, lingers,
    running, abandoned, disposed⟩ := h
  constructor <;> simp_all [Source.teardown, clearWarmWatch]

/-- Whatever the source was before. -/
theorem dispose (s : Source) : s.dispose.Sound := by
  constructor <;> simp [Source.dispose, Source.teardown, clearWarmWatch]

/-- The linger that a disposed source is left in finds nothing to tear down. -/
theorem recycled (s : Source) : s.leave.dispose.arm.Sound := by
  constructor <;> simp [Source.arm, Source.dispose, Source.teardown, clearWarmWatch]

theorem onVideo (h : s.Sound) (hstream : s.stream = true) (keyframe : Bool) :
    (s.onVideo keyframe).Sound := by
  obtain ⟨deadline, retry, retained, kept, awaited, reused, warming, live, lingering, lingers,
    running, abandoned, disposed⟩ := h
  unfold Source.onVideo
  constructor <;> grind [Source.settleReuseWatch, clearWarmWatch]

theorem onAudio (h : s.Sound) (hstream : s.stream = true) : s.onAudio.Sound := by
  obtain ⟨deadline, retry, retained, keyframe, awaited, reused, warming, live, lingering, lingers,
    running, abandoned, disposed⟩ := h
  unfold Source.onAudio
  constructor <;> grind [Source.settleReuseWatch, clearWarmWatch]

theorem askSession (h : s.Sound) : s.askSession.Sound := by
  obtain ⟨deadline, retry, retained, keyframe, awaited, reused, warming, live, lingering, lingers,
    running, abandoned, disposed⟩ := h
  constructor <;> simp_all [Source.askSession]

theorem rewarm (h : s.Sound) : s.rewarm.Sound := by
  obtain ⟨deadline, retry, retained, keyframe, awaited, reused, warming, live, lingering, lingers,
    running, abandoned, disposed⟩ := h
  unfold Source.rewarm
  constructor <;> grind [openStream]

end Sound

end Source

namespace Source

variable (s : Source)

@[simp] theorem teardown_consumers : s.teardown.consumers = s.consumers := rfl

@[simp] theorem cancelLinger_consumers : s.cancelLinger.consumers = s.consumers := by
  unfold cancelLinger
  split <;> rfl

@[simp] theorem watchReusedStream_consumers : s.watchReusedStream.consumers = s.consumers := by
  unfold watchReusedStream
  split <;> rfl

theorem cancelLinger_sessionReplacementAsked :
    s.cancelLinger.sessionReplacementAsked = s.sessionReplacementAsked := by
  unfold cancelLinger
  split <;> rfl

@[simp] theorem settleReuseWatch_consumers : s.settleReuseWatch.consumers = s.consumers := by
  unfold settleReuseWatch
  split <;> rfl

@[simp] theorem cancelLinger_stream : s.cancelLinger.stream = s.stream := by
  unfold cancelLinger
  split <;> rfl

@[simp] theorem cancelLinger_delivered : s.cancelLinger.delivered = s.delivered := by
  unfold cancelLinger
  split <;> rfl

@[simp] theorem cancelLinger_lastKeyframe : s.cancelLinger.lastKeyframe = s.lastKeyframe := by
  unfold cancelLinger
  split <;> rfl

@[simp] theorem cancelLinger_warmDeadlineTimer :
    s.cancelLinger.warmDeadlineTimer = s.warmDeadlineTimer := by
  unfold cancelLinger
  split <;> rfl

@[simp] theorem cancelLinger_warmRetryTimer :
    s.cancelLinger.warmRetryTimer = s.warmRetryTimer := by
  unfold cancelLinger
  split <;> rfl

@[simp] theorem cancelLinger_reuseWatch : s.cancelLinger.reuseWatch = s.reuseWatch := by
  unfold cancelLinger
  split <;> rfl

@[simp] theorem settleReuseWatch_stream : s.settleReuseWatch.stream = s.stream := by
  unfold settleReuseWatch
  split <;> rfl

@[simp] theorem settleReuseWatch_delivered : s.settleReuseWatch.delivered = s.delivered := by
  unfold settleReuseWatch
  split <;> rfl

@[simp] theorem settleReuseWatch_lastKeyframe :
    s.settleReuseWatch.lastKeyframe = s.lastKeyframe := by
  unfold settleReuseWatch
  split <;> rfl

/-- A deadline that a frame leaves pending is that of a stream without a keyframe. -/
theorem settleReuseWatch_waits (h : s.settleReuseWatch.warmDeadlineTimer = true) :
    s.reuseWatch = false ∧ s.warmDeadlineTimer = true := by
  unfold settleReuseWatch at h
  split at h
  · cases h
  · rename_i hreuse
    exact ⟨by simpa using hreuse, h⟩

@[simp] theorem onVideo_stream (keyframe : Bool) : (s.onVideo keyframe).stream = s.stream := by
  unfold onVideo
  dsimp only
  split
  · exact settleReuseWatch_stream _
  · exact settleReuseWatch_stream _

theorem joined_consumers : s.joined.consumers = s.consumers := by
  unfold joined
  dsimp only
  split
  · rw [watchReusedStream_consumers, cancelLinger_consumers]
  · exact s.cancelLinger_consumers

theorem onVideo_consumers (keyframe : Bool) : (s.onVideo keyframe).consumers = s.consumers := by
  unfold onVideo
  dsimp only
  split <;> simp [clearWarmWatch]

theorem onAudio_consumers : s.onAudio.consumers = s.consumers := by
  simp [onAudio]

theorem rewarm_consumers : s.rewarm.consumers = s.consumers := by
  unfold rewarm
  split <;> rfl

end Source

namespace Pull

/-! ## The source behind each operation -/

variable (o : Options) (s : Pull)

@[simp] theorem fail_toSource (err : StreamError) : (s.fail err).toSource = s.toSource := rfl

@[simp] theorem endAll_toSource : s.endAll.toSource = s.toSource := rfl

@[simp] theorem teardown_toSource (report : Bool) :
    (s.teardown report).toSource = s.toSource.teardown := rfl

@[simp] theorem watchReusedStream_toSource :
    (s.watchReusedStream o).toSource = s.toSource.watchReusedStream := by
  unfold watchReusedStream
  split
  · rename_i h
    rw [Source.watchReusedStream, if_pos h]
  · dsimp only
    split <;> rfl

theorem attach_toSource : (s.attach o).toSource = s.toSource.join.joined := by
  unfold attach
  split
  · rename_i h
    rw [watchReusedStream_toSource]
    exact (if_pos h).symm
  · rename_i h
    exact (if_neg h).symm

theorem attach_views :
    (s.attach o).views = s.views ++ [View.mk s.ids false] ∧ (s.attach o).ids = s.ids + 1 := by
  unfold attach
  split
  · unfold watchReusedStream
    split
    · exact ⟨rfl, rfl⟩
    · dsimp only
      split <;> exact ⟨rfl, rfl⟩
  · exact ⟨rfl, rfl⟩

theorem dispose_toSource (hopen : s.disposed = false) : s.dispose.toSource = s.toSource.dispose := by
  unfold dispose
  rw [hopen]
  rfl

theorem onVideo_toSource (keyframe : Bool) :
    (s.onVideo o keyframe).toSource = s.toSource.onVideo keyframe := by
  unfold onVideo
  dsimp only
  split <;> rfl

theorem onVideo_log (keyframe : Bool) : (s.onVideo o keyframe).log = .video keyframe :: s.log := by
  unfold onVideo
  dsimp only
  split <;> rfl

theorem rewarm_toSource : s.rewarm.toSource = s.toSource.rewarm := by
  unfold rewarm
  split
  · rename_i h
    simp only [Source.rewarm, h, if_true]
  · rfl

theorem rewarm_inert (hinert : ¬(s.sessionReplacementAsked = true ∧ s.state = .warming)) :
    s.rewarm = s := by
  apply if_pos
  by_cases hasked : s.sessionReplacementAsked = true
  · have hstate : s.state ≠ .warming := fun hstate => hinert ⟨hasked, hstate⟩
    simp [hstate]
  · simp [hasked]

/-! ## What every run keeps -/

structure Sound (s : Pull) : Prop where
  source : s.toSource.Sound
  count : s.consumers = s.views.length
  nodup : (s.views.map View.id).Nodup
  fresh : ∀ v ∈ s.views, v.id < s.ids

/-- To listen, or to stop, moves nobody. -/
theorem listen_ids (s : Pull) (c : ℕ) (listens : Bool) :
    (s.listen c listens).views.map View.id = s.views.map View.id := by
  have hids : ∀ v : View, (if v.id = c then { v with listens := listens } else v).id = v.id := by
    intro v
    split <;> rfl
  rw [Pull.listen, List.map_map, show View.id ∘ _ = View.id from funext hids]

theorem sound_start : Sound {} where
  source := Source.sound_start
  count := rfl
  nodup := List.nodup_nil
  fresh v hv := by cases hv

namespace Sound

variable {o : Options} {s : Pull}

theorem fresh_ids (h : s.Sound) : ∀ i ∈ s.views.map View.id, i < s.ids :=
  List.forall_mem_map.mpr h.fresh

/-- A step that no consumer joins or leaves in. -/
theorem of_ids {t : Pull} (h : s.Sound) (hsource : t.toSource.Sound)
    (hconsumers : t.consumers = s.consumers) (hviews : t.views.map View.id = s.views.map View.id)
    (hids : t.ids = s.ids) : t.Sound where
  source := hsource
  count := by
    have hlength := congrArg List.length hviews
    rw [List.length_map, List.length_map] at hlength
    rw [hconsumers, h.count, hlength]
  nodup := hviews ▸ h.nodup
  fresh := by
    rw [hids, ← List.forall_mem_map (P := (· < s.ids)), hviews]
    exact h.fresh_ids

/-- A step that leaves the consumers as they are. -/
theorem of_views {t : Pull} (h : s.Sound) (hsource : t.toSource.Sound)
    (hconsumers : t.consumers = s.consumers) (hviews : t.views = s.views) (hids : t.ids = s.ids) :
    t.Sound :=
  h.of_ids hsource hconsumers (hviews ▸ rfl) hids

theorem attach (h : s.Sound) (hopen : s.disposed = false) : (s.attach o).Sound := by
  have hviews := attach_views o s
  have hsource := attach_toSource o s
  refine ⟨?_, ?_, ?_, ?_⟩
  · rw [hsource]
    exact h.source.joined hopen
  · have hcount : (s.attach o).consumers = s.consumers + 1 := by
      rw [hsource, Source.joined_consumers]
      rfl
    rw [hcount, hviews.1, List.length_append, h.count]
    rfl
  · rw [hviews.1, List.map_append]
    exact Lists.nodup_snoc_fresh h.nodup h.fresh_ids
  · rw [hviews.1, hviews.2]
    rw [← List.forall_mem_map (f := View.id) (P := (· < s.ids + 1)), List.map_append]
    exact Lists.forall_snoc_lt_succ h.fresh_ids

theorem dispose (h : s.Sound) : s.dispose.Sound := by
  by_cases hopen : s.disposed = true
  · rw [Pull.dispose, if_pos hopen]
    exact h
  · rw [Bool.not_eq_true] at hopen
    have hsource := dispose_toSource s hopen
    have hviews : s.dispose.views = [] := by simp [Pull.dispose, hopen, clearBudget]
    refine ⟨?_, ?_, ?_, ?_⟩
    · rw [hsource]
      exact .dispose _
    · rw [hsource, hviews]
      rfl
    · rw [hviews]
      exact List.nodup_nil
    · rw [hviews]
      intro v hv
      cases hv

end Sound

variable {o : Options} {s : Pull}

theorem detach_eq_leave {c : ℕ} (recycled : Bool) (hrest : s.consumers - 1 ≠ 0) :
    s.detach c recycled =
      { s with
        toSource := s.toSource.leave
        views := s.views.filter fun v => v.id ≠ c
        log := .left c :: s.log } := by
  have hleft : s.toSource.leave.consumers ≠ 0 := hrest
  simp [detach, hleft]

/-- The last consumer leaves, and the owner disposes of the source. -/
theorem detach_recycled {c : ℕ} (hlast : s.consumers - 1 = 0) (hopen : s.disposed = false) :
    s.detach c true =
      let left := { s with
        toSource := s.toSource.leave
        views := s.views.filter fun v => v.id ≠ c
        log := .idle :: .left c :: s.log }
      { left.dispose with toSource := left.dispose.toSource.arm } := by
  have hleft : s.toSource.leave.consumers = 0 := hlast
  have hstill : s.toSource.leave.disposed = false := hopen
  unfold detach
  dsimp only
  rw [hleft, hstill]
  rfl

/-- The last consumer leaves. -/
theorem detach_last {c : ℕ} (recycled : Bool) (hlast : s.consumers - 1 = 0)
    (hopen : s.disposed = false) :
    (s.detach c recycled).views = (if recycled then [] else s.views.filter fun v => v.id ≠ c) ∧
      (s.detach c recycled).toSource =
        (if recycled then s.toSource.leave.dispose.arm else s.toSource.leave.arm) ∧
      (s.detach c recycled).ids = s.ids := by
  have hleft : s.toSource.leave.consumers = 0 := hlast
  have hstill : s.toSource.leave.disposed = false := hopen
  cases recycled <;>
    simp [detach, dispose, hleft, hstill, clearBudget, endAll]

theorem detach_views {c : ℕ} {recycled : Bool} (hstays : recycled = false ∨ s.consumers - 1 ≠ 0) :
    (s.detach c recycled).views = s.views.filter fun v => v.id ≠ c := by
  cases recycled with
  | false =>
    unfold detach
    dsimp only
    split <;> rfl
  | true => rw [detach_eq_leave true (hstays.resolve_left (by decide))]

namespace Sound

theorem open_of_view (h : s.Sound) {v : View} (hv : v ∈ s.views) : s.disposed = false := by
  by_contra hdisposed
  rw [Bool.not_eq_false] at hdisposed
  have hempty : s.views.length = 0 := by rw [← h.count, (h.source.disposed hdisposed).2]
  rw [List.eq_nil_of_length_eq_zero hempty] at hv
  cases hv

theorem open_of_stream (h : s.Sound) (hstream : s.stream = true) : s.disposed = false := by
  by_contra hdisposed
  rw [Bool.not_eq_false] at hdisposed
  rw [(h.source.disposed hdisposed).1] at hstream
  cases hstream

theorem detach (h : s.Sound) {c : ℕ} (hc : ∃ v ∈ s.views, v.id = c) (recycled : Bool) :
    (s.detach c recycled).Sound := by
  have hmem : c ∈ s.views.map View.id := List.mem_map.mpr hc
  have hlength : (s.views.filter fun v => v.id ≠ c).length = s.consumers - 1 := by
    rw [Lists.length_filter_key_ne h.nodup hmem, h.count]
  have hnodup : ((s.views.filter fun v => v.id ≠ c).map View.id).Nodup :=
    h.nodup.sublist (List.filter_sublist.map _)
  have hfresh : ∀ v ∈ s.views.filter fun v => v.id ≠ c, v.id < s.ids :=
    fun v hv => h.fresh v (List.mem_of_mem_filter hv)
  by_cases hlast : s.consumers - 1 = 0
  · obtain ⟨v, hv, -⟩ := hc
    have hopen := h.open_of_view hv
    obtain ⟨hviews, hsource, hids⟩ := detach_last (c := c) recycled hlast hopen
    cases recycled with
    | true =>
      refine ⟨?_, ?_, ?_, ?_⟩
      · rw [hsource]
        exact .recycled _
      · rw [hsource, hviews]
        rfl
      · rw [hviews]
        exact List.nodup_nil
      · rw [hviews]
        intro v hv
        cases hv
    | false =>
      refine ⟨?_, ?_, ?_, ?_⟩
      · rw [hsource]
        exact h.source.arm hlast
      · rw [hsource, hviews]
        exact hlength.symm
      · rw [hviews]
        exact hnodup
      · rw [hviews, hids]
        exact hfresh
  · rw [detach_eq_leave recycled hlast]
    exact ⟨h.source.leave hlast, hlength.symm, hnodup, hfresh⟩

theorem listen (h : s.Sound) (c : ℕ) (listens : Bool) : (s.listen c listens).Sound :=
  h.of_ids h.source rfl (listen_ids s c listens) rfl

theorem teardown (h : s.Sound) (report : Bool) : (s.teardown report).Sound :=
  h.of_views h.source.teardown rfl rfl rfl

theorem fail (h : s.Sound) (err : StreamError) : (s.fail err).Sound :=
  h.of_views h.source rfl rfl rfl

theorem endAll (h : s.Sound) : s.endAll.Sound := h.of_views h.source rfl rfl rfl

/-- A deadline that expires has a stream to end. -/
theorem act_deadline (h : s.Sound) (hpending : s.warmDeadlineTimer = true) :
    s.act o .deadline =
      ({ s with warmDeadlineTimer := false }.fail (s.startFailure o .warmTimeout none)).teardown
        true := by
  have hstream := h.source.deadline hpending
  have hopen := h.open_of_stream hstream
  have hserved : ¬(s.disposed || !s.stream) = true := by rw [hopen, hstream]; decide
  exact if_neg hserved

theorem act_upstreamEnd (h : s.Sound) (hstream : s.stream = true) :
    s.act o .upstreamEnd =
      (if s.delivered.keyframe then s
        else s.fail (s.startFailure o .sourceEnded none)).endAll.teardown true := by
  have hserved : ¬(s.disposed || !s.stream) = true := by
    rw [h.open_of_stream hstream, hstream]
    decide
  exact if_neg hserved

theorem act_upstreamError (h : s.Sound) (hstream : s.stream = true) (err : String) :
    s.act o (.upstreamError err) =
      (s.fail (if s.delivered.keyframe then .upstream err
        else s.startFailure o .sourceError (some err))).teardown true := by
  have hopen : ¬s.disposed = true := by
    rw [h.open_of_stream hstream]
    decide
  exact if_neg hopen

/-- A source that asked for a session and is warming still. -/
theorem rewarm_warming (h : s.Sound) (hasked : s.sessionReplacementAsked = true)
    (hstate : s.state = .warming) :
    s.rewarm.toSource = { s.toSource with warmRetryTimer := true } ∧
      s.rewarm.log = .opened :: .discarded :: s.log ∧ s.rewarm.views = s.views := by
  obtain ⟨hstream, -⟩ := h.source.warming hstate
  have hopen := h.open_of_stream hstream
  have hacts : ¬(s.disposed || !s.sessionReplacementAsked || s.state ≠ .warming) = true := by
    simp [hopen, hasked, hstate]
  have hlog : s.rewarm.log = .opened :: (if s.stream then .discarded :: s.log else s.log) := by
    rw [Pull.rewarm, if_neg hacts]
  refine ⟨?_, ?_, ?_⟩
  · rw [rewarm_toSource, Source.rewarm, if_neg hacts, Source.openStream, ← hstream]
  · rw [hlog, if_pos hstream]
  · rw [Pull.rewarm, if_neg hacts]

/-- The last consumer leaves, and the owner disposes of the source. -/
theorem recycled_stream (h : s.Sound) {c : ℕ} (hc : ∃ v ∈ s.views, v.id = c)
    (hlast : s.consumers - 1 = 0) : (s.detach c true).stream = false := by
  obtain ⟨v, hv, -⟩ := hc
  obtain ⟨-, hsource, -⟩ := detach_last (c := c) true hlast (h.open_of_view hv)
  rw [hsource]
  rfl

/-- **What one step keeps.** -/
theorem act (h : s.Sound) {label : Label} (hcan : s.can label = true) :
    (s.act o label).Sound := by
  cases label with
  | attach => exact h.attach (by simpa [can] using hcan)
  | detach c recycled => exact h.detach (by simpa [can] using hcan) recycled
  | listen c listens => exact h.listen c listens
  | video keyframe =>
    have hkept : (s.onVideo o keyframe).views = s.views ∧ (s.onVideo o keyframe).ids = s.ids := by
      unfold Pull.onVideo
      dsimp only
      split <;> exact ⟨rfl, rfl⟩
    apply h.of_views ?_ ?_ hkept.1 hkept.2
    · show (s.onVideo o keyframe).toSource.Sound
      rw [onVideo_toSource]
      exact h.source.onVideo hcan keyframe
    · show (s.onVideo o keyframe).toSource.consumers = s.consumers
      rw [onVideo_toSource, Source.onVideo_consumers]
  | audio => exact h.of_views (h.source.onAudio hcan) s.toSource.onAudio_consumers rfl rfl
  | unacknowledged =>
    simp only [Pull.act, onStartUnacknowledged]
    split
    · exact h.of_views h.source.askSession rfl rfl rfl
    · exact h
  | upstreamEnd =>
    simp only [Pull.act, onUpstreamEnd]
    split
    · exact h
    · split
      · exact h.endAll.teardown true
      · exact (h.fail _).endAll.teardown true
  | upstreamError err =>
    simp only [Pull.act, onUpstreamError]
    split
    · exact h
    · exact (h.fail _).teardown true
  | reissue =>
    simp only [Pull.act, reissueStart]
    split
    · exact h.of_views h.source rfl rfl rfl
    · exact h
  | deadline =>
    rw [h.act_deadline hcan]
    exact h.of_views h.source.teardown rfl rfl rfl
  | lingerElapses => exact h.teardown true
  | budgetElapses =>
    simp only [Pull.act, onBudgetExpire]
    split <;> exact h.of_views h.source rfl rfl rfl
  | extend =>
    simp only [Pull.act, extendBudget]
    split
    · exact h
    · exact h.of_views h.source rfl rfl rfl
  | graceElapses => exact h.endAll.teardown true
  | rewarm =>
    have hkept : s.rewarm.views = s.views ∧ s.rewarm.ids = s.ids := by
      unfold Pull.rewarm
      split <;> exact ⟨rfl, rfl⟩
    apply h.of_views ?_ ?_ hkept.1 hkept.2
    · show s.rewarm.toSource.Sound
      rw [rewarm_toSource]
      exact h.source.rewarm
    · show s.rewarm.toSource.consumers = s.consumers
      rw [rewarm_toSource, Source.rewarm_consumers]
  | dispose => exact h.dispose

theorem step {t : Pull} {label : Label} (h : s.Sound) (hstep : Pull.step o s label = some t) :
    t.Sound := by
  obtain ⟨hcan, rfl⟩ := step_eq_some.mp hstep
  exact h.act hcan

end Sound

/-! ## What the steps do to the stream -/

/-- The log behind a teardown of what was told before it. -/
theorem mem_since_teardown {s : Pull} {old es : List Event} (hlog : s.log = es ++ old) {e : Event} :
    e ∈ History.since old (s.teardown true).log ↔
      (e = .startFailed ∧ s.startFailed = true) ∨ e = .closed ∨
        (e = .discarded ∧ s.stream = true) ∨ e ∈ es := by
  have heq : (s.teardown true).log =
      ((if s.startFailed then [.startFailed] else []) ++
        .closed :: ((if s.stream then [.discarded] else []) ++ es)) ++ old := by
    unfold teardown
    rw [hlog, Bool.and_true]
    dsimp only
    split <;> split <;> rfl
  rw [heq, History.since_append]
  cases s.startFailed <;> cases s.stream <;> simp

/-- The stream goes on as it was; at most a new consumer joins it. -/
structure Coasts (s t : Pull) : Prop where
  stream : t.stream = s.stream
  delivered : t.delivered = s.delivered
  lastKeyframe : t.lastKeyframe = s.lastKeyframe
  warmDeadlineTimer : t.warmDeadlineTimer = s.warmDeadlineTimer
  reuseWatch : t.reuseWatch = s.reuseWatch
  log : ∃ es, t.log = es ++ s.log ∧ ∀ e ∈ es, e.note = true ∧ ∀ c, e = .joined c → c = s.ids

namespace Coasts

variable {o : Options} {s : Pull}

/-- Only what is no field of the source changes, and at most one thing is logged. -/
theorem of_toSource {t : Pull} (hsource : t.toSource = s.toSource) (es : List Event)
    (hlog : t.log = es ++ s.log) (hes : ∀ e ∈ es, e.note = true ∧ ∀ c, e ≠ .joined c) :
    Coasts s t := by
  refine ⟨?_, ?_, ?_, ?_, ?_, es, hlog, fun e he => ⟨(hes e he).1, fun c hc => ?_⟩⟩
  · rw [hsource]
  · rw [hsource]
  · rw [hsource]
  · rw [hsource]
  · rw [hsource]
  · exact absurd hc ((hes e he).2 c)

variable (o s)

theorem refl : Coasts s s := of_toSource rfl [] rfl fun e he => by cases he

theorem detach (c : ℕ) {recycled : Bool} (hstays : recycled = false ∨ s.consumers - 1 ≠ 0) :
    Coasts s (s.detach c recycled) := by
  cases recycled with
  | false =>
    unfold Pull.detach
    dsimp only
    split
    · exact ⟨rfl, rfl, rfl, rfl, rfl, [.idle, .left c], rfl, by simp [Event.note]⟩
    · exact ⟨rfl, rfl, rfl, rfl, rfl, [.left c], rfl, by simp [Event.note]⟩
  | true =>
    rw [detach_eq_leave true (hstays.resolve_left (by decide))]
    exact ⟨rfl, rfl, rfl, rfl, rfl, [.left c], rfl, by simp [Event.note]⟩

theorem listen (c : ℕ) (listens : Bool) : Coasts s (s.listen c listens) :=
  of_toSource rfl [] rfl fun e he => by cases he

theorem onStartUnacknowledged : Coasts s (s.onStartUnacknowledged o) := by
  unfold Pull.onStartUnacknowledged
  split
  · exact ⟨rfl, rfl, rfl, rfl, rfl, [.asked], rfl, by simp [Event.note]⟩
  · exact refl s

theorem reissueStart : Coasts s (s.reissueStart o) := by
  unfold Pull.reissueStart
  split
  · exact of_toSource rfl [_] rfl (by simp [Event.note])
  · exact refl s

theorem onBudgetExpire : Coasts s { s with budgetTimer := false }.onBudgetExpire := by
  unfold Pull.onBudgetExpire
  split
  · exact of_toSource rfl [] rfl fun e he => by cases he
  · refine of_toSource rfl _ rfl fun e he => ?_
    obtain ⟨v, -, rfl⟩ := List.mem_map.mp he
    exact ⟨rfl, by simp⟩

theorem extendBudget : Coasts s s.extendBudget := by
  unfold Pull.extendBudget
  split
  · exact refl s
  · exact of_toSource rfl [] rfl fun e he => by cases he

/-- The steps in which the stream goes on and nobody joins or leaves. -/
theorem act {label : Label} (h : label.coasts = true) : Coasts s (s.act o label) := by
  cases label with
  | listen c listens => exact .listen s c listens
  | unacknowledged => exact .onStartUnacknowledged o s
  | reissue => exact .reissueStart o s
  | budgetElapses => exact .onBudgetExpire s
  | extend => exact .extendBudget s
  | _ => cases h

end Coasts

theorem act_views {o : Options} {s : Pull} {label : Label} (h : label.coasts = true) :
    ∀ v ∈ (s.act o label).views, ∃ u ∈ s.views, u.id = v.id := by
  have hsame : ∀ {t : Pull}, t.views = s.views → ∀ v ∈ t.views, ∃ u ∈ s.views, u.id = v.id :=
    fun hviews v hv => ⟨v, hviews ▸ hv, rfl⟩
  cases label with
  | listen c listens =>
    intro v hv
    obtain ⟨u, hu, rfl⟩ := List.mem_map.mp hv
    exact ⟨u, hu, by split <;> rfl⟩
  | unacknowledged =>
    apply hsame
    show (s.onStartUnacknowledged o).views = s.views
    unfold onStartUnacknowledged
    split <;> rfl
  | reissue =>
    apply hsame
    show (s.reissueStart o).views = s.views
    unfold reissueStart
    dsimp only
    split <;> rfl
  | budgetElapses =>
    apply hsame
    show { s with budgetTimer := false }.onBudgetExpire.views = s.views
    unfold onBudgetExpire
    split <;> rfl
  | extend =>
    apply hsame
    show s.extendBudget.views = s.views
    unfold extendBudget
    split <;> rfl
  | _ => cases h

theorem note_joinedLog (s : Pull) :
    ∀ e ∈ s.joinedLog, e.note = true ∧ ∀ c, e = .joined c → c = s.ids := by
  intro e he
  unfold joinedLog at he
  split at he <;> simp only [List.mem_cons, List.not_mem_nil, or_false] at he
  · rcases he with rfl | rfl <;> simp [Event.note]
  · simp [he, Event.note]

variable (o : Options) (s : Pull)

@[simp] theorem join_stream : s.join.stream = s.stream := s.toSource.join.cancelLinger_stream

theorem join_asked : s.join.sessionReplacementAsked = s.sessionReplacementAsked :=
  s.toSource.join.cancelLinger_sessionReplacementAsked

theorem join_pending :
    (s.join.warmDeadlineTimer || s.join.warmRetryTimer) =
      (s.warmDeadlineTimer || s.warmRetryTimer) := by
  simp [join, Source.join]

/-- Without a stream, a consumer that joins has one opened. -/
theorem attach_warm (hstream : s.stream = false) : s.attach o = s.join.warm := by
  rw [attach, join_stream, hstream]
  rfl

/-- A watch that is pending serves the consumer that joins as well. -/
theorem attach_shared (hstream : s.stream = true)
    (hpending : (s.warmDeadlineTimer || s.warmRetryTimer) = true) : s.attach o = s.join := by
  rw [attach, join_stream, hstream, if_pos rfl, watchReusedStream, join_pending, if_pos hpending]

theorem coasts_join : Coasts s s.join := by
  refine ⟨s.join_stream, ?_, ?_, ?_, ?_, s.joinedLog, rfl, note_joinedLog s⟩ <;>
    simp [join, Source.join]

/-- A consumer that joins a stream without one has a watch armed. -/
theorem attach_watching (hstream : s.stream = true)
    (hpending : (s.warmDeadlineTimer || s.warmRetryTimer) = false) :
    (s.attach o).toSource =
        { s.join.toSource with delivered := {}, reuseWatch := true }.armWarmWatch ∧
      ∃ es, (s.attach o).log = es ++ .watching :: s.join.log ∧ ∀ e ∈ es, e = .nudged false := by
  have hjoin : s.attach o = s.join.watchReusedStream o := by
    rw [attach, join_stream, hstream, if_pos rfl]
  rw [hjoin]
  refine ⟨?_, if o.nudges then [.nudged false] else [], ?_, ?_⟩
  · rw [watchReusedStream_toSource, Source.watchReusedStream, join_pending,
      if_neg (by rw [hpending]; decide)]
  · rw [watchReusedStream, join_pending, if_neg (by rw [hpending]; decide)]
    dsimp only
    split <;> rfl
  · intro e he
    split at he
    · exact List.mem_singleton.mp he
    · cases he

end Pull

end EufySdk.SharedLiveSource
