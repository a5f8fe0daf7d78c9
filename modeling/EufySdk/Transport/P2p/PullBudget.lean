import Mathlib.Tactic
import EufySdk.Lib.History
import EufySdk.Lib.Machine
import EufySdk.Transport.P2p.AttachFailure

/-!
# The battery budget of a pull

On a battery source the first keyframe of a stream arms the budget timer; its expiry arms the
grace timer, and `extend` arms the budget timer again. In every run exactly one of the two is
pending from that keyframe until the stream is gone.

Main definitions:

- `streamKeyframe` — whether the current stream has delivered a keyframe, as a question to
  the log
- `pullStep` — a step of the source, or an attach whose `makeStream` throws
- `OnTheClock` — the invariant
-/

namespace EufySdk.SharedLiveSource

/-! ## A stream before its first keyframe -/

/-- A stream without a keyframe is watched, and the watch is not that of a reuse. -/
structure Source.Watched (s : Source) : Prop where
  awaited : s.stream = true → s.lastKeyframe = false →
    s.warmDeadlineTimer = true ∧ s.reuseWatch = false
  retained : s.lastKeyframe = true → s.stream = true
  asking : s.state = .warming → s.sessionReplacementAsked = true → s.stream = true
  disposed : s.disposed = true → s.stream = false

namespace Source.Watched

variable {s : Source}

theorem joined (h : s.Watched) (hopen : s.disposed = false) : s.join.joined.Watched := by
  obtain ⟨awaited, retained, asking, disposed⟩ := h
  unfold Source.joined Source.join Source.cancelLinger
  constructor <;> grind [Source.warm, Source.watchReusedStream, openStream, armWarmWatch]

/-- An attach whose stream is not made. -/
theorem refused (h : s.Watched) (hstream : s.stream = false) :
    s.join.cancelLinger.beginWarm.Watched := by
  obtain ⟨awaited, retained, asking, disposed⟩ := h
  unfold Source.join Source.cancelLinger
  constructor <;> grind [Source.beginWarm]

theorem leave (h : s.Watched) : s.leave.Watched :=
  ⟨h.awaited, h.retained, h.asking, h.disposed⟩

theorem arm (h : s.Watched) : s.arm.Watched := ⟨h.awaited, h.retained, nofun, h.disposed⟩

/-- Whatever the source was before. -/
theorem teardown (s : Source) : s.teardown.Watched := by
  constructor <;> simp [Source.teardown, clearWarmWatch]

theorem dispose (s : Source) : s.dispose.Watched := teardown _

/-- A deadline that expires without a stream awaits nothing. -/
theorem expired (h : s.Watched) (hstream : s.stream = false) :
    { s with warmDeadlineTimer := false }.Watched where
  awaited hs := by rw [hstream] at hs; cases hs
  retained := h.retained
  asking := h.asking
  disposed := h.disposed

theorem onVideo (h : s.Watched) (hstream : s.stream = true) (keyframe : Bool) :
    (s.onVideo keyframe).Watched := by
  obtain ⟨awaited, retained, asking, disposed⟩ := h
  unfold Source.onVideo
  constructor <;> grind [Source.settleReuseWatch, clearWarmWatch]

theorem onAudio (h : s.Watched) (hstream : s.stream = true) : s.onAudio.Watched := by
  obtain ⟨awaited, retained, asking, disposed⟩ := h
  unfold Source.onAudio
  constructor <;> grind [Source.settleReuseWatch, clearWarmWatch]

theorem askSession (h : s.Watched) (hstream : s.stream = true) : s.askSession.Watched :=
  ⟨h.awaited, h.retained, fun _ _ => hstream, h.disposed⟩

theorem rewarm (h : s.Watched) : s.rewarm.Watched := by
  obtain ⟨awaited, retained, asking, disposed⟩ := h
  unfold Source.rewarm
  constructor <;> grind [openStream]

end Source.Watched

namespace Pull

/-! ## The clock -/

/-- Whether the current stream has delivered a keyframe. -/
def streamKeyframe : Event → Option Bool
  | .video true => some true
  | .opened | .discarded | .closed => some false
  | _ => none

/-- Exactly one of the two timers is pending. -/
def ticking (s : Pull) : Prop := s.budgetTimer ≠ s.budgetGraceTimer

structure OnTheClock (s : Pull) : Prop where
  source : s.toSource.Watched
  clock : s.stream = true → s.lastKeyframe = true → s.ticking
  seen : History.newest streamKeyframe s.log = true → s.stream = true ∧ s.lastKeyframe = true

/-- What the log of a call says of the stream's keyframe. -/
theorem newest_log {s t : Pull} (es : List Event) (h : t.log = es ++ s.log)
    (hes : ∀ e ∈ es, streamKeyframe e = none) :
    History.newest streamKeyframe t.log = History.newest streamKeyframe s.log := by
  rw [h]
  exact History.newest_append hes

/-- After a teardown no stream has delivered anything. -/
theorem newest_teardown (s : Pull) (report : Bool) :
    History.newest streamKeyframe (s.teardown report).log = false := by
  unfold teardown
  dsimp only
  split <;> simp [streamKeyframe]

namespace OnTheClock

variable {o : Options} {s : Pull}

theorem start : OnTheClock {} := by
  refine ⟨?_, nofun, nofun⟩
  constructor <;> simp

/-- The source's stream, keyframe and timers are as they were. -/
theorem kept {t : Pull} (h : s.OnTheClock) (hsource : t.toSource.Watched)
    (hstream : t.stream = s.stream) (hkeyframe : t.lastKeyframe = s.lastKeyframe)
    (htimers : s.ticking → t.ticking)
    (hlog : History.newest streamKeyframe t.log = History.newest streamKeyframe s.log) :
    t.OnTheClock where
  source := hsource
  clock hs hk := htimers (h.clock (hstream ▸ hs) (hkeyframe ▸ hk))
  seen := by
    rw [hlog, hstream, hkeyframe]
    exact h.seen

/-- There is no stream. -/
theorem of_stopped {t : Pull} (hsource : t.toSource.Watched) (hstream : t.stream = false)
    (hlog : History.newest streamKeyframe t.log = false) : t.OnTheClock where
  source := hsource
  clock hs := by rw [hstream] at hs; cases hs
  seen hseen := by rw [hlog] at hseen; cases hseen

theorem stopped (s : Pull) (report : Bool) : (s.teardown report).OnTheClock :=
  of_stopped (.teardown _) rfl (newest_teardown s report)

/-! ### What each step keeps -/

theorem dispose (h : s.OnTheClock) : s.dispose.OnTheClock := by
  by_cases hopen : s.disposed = true
  · rw [Pull.dispose, if_pos hopen]
    exact h
  · rw [Bool.not_eq_true] at hopen
    have hsource := dispose_toSource s hopen
    refine of_stopped (hsource ▸ .dispose _) (by rw [hsource]; rfl) ?_
    unfold Pull.dispose
    rw [if_neg (by rw [hopen]; exact Bool.false_ne_true)]
    dsimp only
    split <;> simp [streamKeyframe]

theorem leave (h : s.OnTheClock) (es : List Event) (hes : ∀ e ∈ es, streamKeyframe e = none)
    (views : List View) :
    { s with toSource := s.toSource.leave, views := views, log := es ++ s.log }.OnTheClock :=
  h.kept h.source.leave rfl rfl id (newest_log es rfl hes)

theorem arm (h : s.OnTheClock) : { s with toSource := s.toSource.arm }.OnTheClock :=
  h.kept h.source.arm rfl rfl id rfl

theorem detach (h : s.OnTheClock) (c : ℕ) (recycled : Bool) :
    (s.detach c recycled).OnTheClock := by
  unfold Pull.detach
  dsimp only
  split
  · have hidle := h.leave [.idle, .left c] (by simp [streamKeyframe])
      (s.views.filter fun v => v.id ≠ c)
    cases recycled with
    | true => exact hidle.dispose.arm
    | false => exact hidle.arm
  · exact h.leave [.left c] (by simp [streamKeyframe]) _

theorem joinedLog_silent (s : Pull) : ∀ e ∈ s.joinedLog, streamKeyframe e = none := by
  intro e he
  unfold joinedLog at he
  split at he <;> simp only [List.mem_cons, List.not_mem_nil, or_false] at he
  · rcases he with rfl | rfl <;> rfl
  · rw [he]
    rfl

/-- A consumer that joins a stream has it watched, which arms and cancels no budget. -/
theorem attach_stream (h : s.OnTheClock) (hopen : s.disposed = false)
    (hstream : s.stream = true) : (s.attach o).OnTheClock := by
  have hsource : (s.attach o).toSource.Watched := attach_toSource o s ▸ h.source.joined hopen
  have heq : s.attach o = s.join.watchReusedStream o := by
    rw [attach, join_stream, hstream, if_pos rfl]
  have hlog : ∃ es, (s.attach o).log = es ++ s.log ∧ ∀ e ∈ es, streamKeyframe e = none := by
    have hjoined := joinedLog_silent s
    rw [heq]
    unfold watchReusedStream
    split
    · exact ⟨s.joinedLog, rfl, hjoined⟩
    · dsimp only
      split
      · refine ⟨.nudged false :: .watching :: s.joinedLog, rfl, ?_⟩
        simpa [streamKeyframe] using hjoined
      · refine ⟨.watching :: s.joinedLog, rfl, ?_⟩
        simpa [streamKeyframe] using hjoined
  have hkept : (s.attach o).stream = s.stream ∧ (s.attach o).lastKeyframe = s.lastKeyframe ∧
      (s.attach o).budgetTimer = s.budgetTimer ∧
        (s.attach o).budgetGraceTimer = s.budgetGraceTimer := by
    have hjoin := coasts_join s
    rw [heq]
    unfold watchReusedStream
    split
    · exact ⟨hjoin.stream, hjoin.lastKeyframe, rfl, rfl⟩
    · have hwatch : s.join.toSource.watchReusedStream.stream = s.stream ∧
          s.join.toSource.watchReusedStream.lastKeyframe = s.lastKeyframe := by
        unfold Source.watchReusedStream
        split <;> exact ⟨hjoin.stream, hjoin.lastKeyframe⟩
      dsimp only
      split <;> exact ⟨hwatch.1, hwatch.2, rfl, rfl⟩
  obtain ⟨es, hes, hsilent⟩ := hlog
  obtain ⟨hs, hk, hbudget, hgrace⟩ := hkept
  refine h.kept hsource hs hk (fun ht => ?_) (newest_log es hes hsilent)
  rwa [ticking, hbudget, hgrace]

theorem attach (h : s.OnTheClock) (hopen : s.disposed = false) :
    (s.attach o).OnTheClock := by
  by_cases hstream : s.stream = true
  · exact h.attach_stream hopen hstream
  · rw [Bool.not_eq_true] at hstream
    have hsource : (s.attach o).toSource.Watched := attach_toSource o s ▸ h.source.joined hopen
    have hkeyframe : s.lastKeyframe = false := by
      by_contra hkept
      rw [h.source.retained (by simpa using hkept)] at hstream
      cases hstream
    rw [attach_warm o s hstream] at hsource ⊢
    have hnone : s.join.warm.lastKeyframe = false :=
      s.toSource.join.cancelLinger_lastKeyframe.trans hkeyframe
    have hlog : History.newest streamKeyframe s.join.warm.log = false := by
      simp [Pull.warm, streamKeyframe]
    refine ⟨hsource, fun _ hk => ?_, fun hseen => ?_⟩
    · rw [hnone] at hk
      cases hk
    · rw [hlog] at hseen
      cases hseen

/-- An attach whose stream is not made. -/
theorem refused (h : s.OnTheClock) (hopen : s.disposed = false) (hstream : s.stream = false)
    (message : String) :
    (s.attachConsumer o (some (.makeStream message))).state.OnTheClock := by
  have heq : (s.attachConsumer o (some (.makeStream message))).state =
      { s.join with
        toSource := s.join.toSource.beginWarm
        fruitlessReissues := 0
        warmAttempts := 1 } := by
    rw [attachConsumer, hopen, join_stream, hstream]
    rfl
  rw [heq]
  refine h.kept (h.source.refused hstream) s.join_stream ?_ id
    (newest_log s.joinedLog rfl (joinedLog_silent s))
  exact s.toSource.join.cancelLinger_lastKeyframe

/-- **The first keyframe.** A stream that has none yet is watched, so this one finds the watch
pending and arms the budget; a later one finds a timer pending. -/
theorem onVideo (hbattery : o.battery = true) (h : s.OnTheClock) (hstream : s.stream = true)
    (keyframe : Bool) : (s.onVideo o keyframe).OnTheClock := by
  have hsource : (s.onVideo o keyframe).toSource.Watched :=
    onVideo_toSource o s keyframe ▸ h.source.onVideo hstream keyframe
  have hstill : (s.onVideo o keyframe).stream = true := by
    rw [onVideo_toSource, Source.onVideo_stream, hstream]
  cases keyframe with
  | false =>
    have hkeyframe : (s.onVideo o false).lastKeyframe = s.lastKeyframe := by
      rw [onVideo_toSource]
      exact Source.settleReuseWatch_lastKeyframe _
    refine h.kept hsource (hstill.trans hstream.symm) hkeyframe id ?_
    rw [onVideo_log]
    rfl
  | true =>
    have hkeyframe : (s.onVideo o true).lastKeyframe = true := by
      rw [onVideo_toSource]
      rfl
    have hticking : (s.onVideo o true).ticking := by
      unfold Pull.onVideo
      dsimp only
      split
      · exact Bool.false_ne_true.symm
      · rename_i hquiet
        by_cases hfirst : s.lastKeyframe = true
        · exact h.clock hstream hfirst
        · obtain ⟨hdeadline, hreuse⟩ := h.source.awaited hstream (by simpa using hfirst)
          simp [Source.settleReuseWatch, hreuse, hdeadline, hbattery] at hquiet
    exact ⟨hsource, fun _ _ => hticking, fun _ => ⟨hstill, hkeyframe⟩⟩

theorem onAudio (h : s.OnTheClock) (hstream : s.stream = true) : s.onAudio.OnTheClock :=
  h.kept (h.source.onAudio hstream) (Source.settleReuseWatch_stream _)
    (Source.settleReuseWatch_lastKeyframe _) id rfl

theorem onUpstreamEnd (h : s.OnTheClock) : (s.onUpstreamEnd o).OnTheClock := by
  unfold Pull.onUpstreamEnd
  split
  · exact h
  · exact stopped _ true

theorem onUpstreamError (h : s.OnTheClock) (err : String) :
    (s.onUpstreamError o err).OnTheClock := by
  unfold Pull.onUpstreamError
  split
  · exact h
  · exact stopped _ true

/-- What makes an expiry do nothing is that there is no stream. -/
theorem no_stream (h : s.OnTheClock) (hinert : (s.disposed || !s.stream) = true) :
    s.stream = false := by
  rcases Bool.or_eq_true_iff.mp hinert with hdisposed | hnone
  · exact h.source.disposed hdisposed
  · simpa using hnone

theorem onWarmTimeout (h : s.OnTheClock) :
    ({ s with warmDeadlineTimer := false }.onWarmTimeout o).OnTheClock := by
  unfold Pull.onWarmTimeout
  split
  · exact h.kept (h.source.expired (h.no_stream ‹_›)) rfl rfl id rfl
  · exact stopped _ true

theorem onBudgetExpire (h : s.OnTheClock) :
    { s with budgetTimer := false }.onBudgetExpire.OnTheClock := by
  unfold Pull.onBudgetExpire
  split
  · refine ⟨h.source, fun hs => ?_, h.seen⟩
    exact absurd (h.no_stream ‹_›) (Bool.ne_false_iff.mpr hs)
  · refine h.kept h.source rfl rfl (fun _ => Bool.false_ne_true) (newest_log _ rfl fun e he => ?_)
    obtain ⟨v, -, rfl⟩ := List.mem_map.mp he
    rfl

theorem extendBudget (h : s.OnTheClock) : s.extendBudget.OnTheClock := by
  unfold Pull.extendBudget
  split
  · exact h
  · exact h.kept h.source rfl rfl (fun _ => Bool.false_ne_true.symm) rfl

theorem rewarm (h : s.OnTheClock) : s.rewarm.OnTheClock := by
  by_cases hacts : (s.disposed || !s.sessionReplacementAsked || s.state ≠ .warming) = true
  · rw [Pull.rewarm, if_pos hacts]
    exact h
  · have hsource : s.rewarm.toSource.Watched := rewarm_toSource s ▸ h.source.rewarm
    rw [Pull.rewarm, if_neg hacts] at hsource ⊢
    have hwarming : s.disposed = false ∧ s.sessionReplacementAsked = true ∧
        s.state = .warming := by simpa [and_assoc] using hacts
    have hstream := h.source.asking hwarming.2.2 hwarming.2.1
    have hsame : s.toSource.rewarm.lastKeyframe = s.lastKeyframe := by
      unfold Source.rewarm
      split <;> rfl
    refine ⟨hsource, fun _ hkeyframe => h.clock hstream (hsame ▸ hkeyframe), fun hseen => ?_⟩
    rw [History.newest_cons] at hseen
    cases hseen

/-- **What one step keeps.** -/
theorem act (hbattery : o.battery = true) (h : s.OnTheClock) {label : Label}
    (hcan : s.can label = true) : (s.act o label).OnTheClock := by
  cases label with
  | attach => exact h.attach (by simpa [can] using hcan)
  | detach c recycled => exact h.detach c recycled
  | listen c listens => exact h.kept h.source rfl rfl id rfl
  | video keyframe => exact h.onVideo hbattery hcan keyframe
  | audio => exact h.onAudio hcan
  | unacknowledged =>
    simp only [Pull.act, onStartUnacknowledged]
    split
    · exact h.kept (h.source.askSession hcan) rfl rfl id
        (newest_log [.asked] rfl (by simp [streamKeyframe]))
    · exact h
  | upstreamEnd => exact h.onUpstreamEnd
  | upstreamError err => exact h.onUpstreamError err
  | reissue =>
    simp only [Pull.act, reissueStart]
    split
    · exact h.kept h.source rfl rfl id
        (newest_log [.nudged _] rfl (by simp [streamKeyframe]))
    · exact h
  | deadline => exact h.onWarmTimeout
  | lingerElapses => exact stopped s true
  | budgetElapses => exact h.onBudgetExpire
  | extend => exact h.extendBudget
  | graceElapses => exact stopped _ true
  | rewarm => exact h.rewarm
  | dispose => exact h.dispose

end OnTheClock

/-! ## Runs -/

/-- A step of the source, or an attach whose `makeStream` throws. A `start` of a
`LiveStream` catches what its session throws. -/
def pullStep (o : Options) (s : Pull) : Label ⊕ String → Option Pull
  | .inl label => s.step o label
  | .inr message => s.call o (.failedAttach (.makeStream message))

theorem OnTheClock.pullStep {o : Options} {s t : Pull} {a : Label ⊕ String}
    (hbattery : o.battery = true) (h : s.OnTheClock) (hstep : Pull.pullStep o s a = some t) :
    t.OnTheClock := by
  cases a with
  | inl label =>
    obtain ⟨hcan, rfl⟩ := step_eq_some.mp hstep
    exact h.act hbattery hcan
  | inr message =>
    simp only [Pull.pullStep, call, Option.ite_none_left_eq_some, Bool.or_eq_true, not_or,
      Bool.not_eq_true] at hstep
    obtain ⟨⟨hopen, hstream⟩, hstate⟩ := hstep
    obtain rfl := Option.some.inj hstate
    exact h.refused hopen hstream message

/-- **A battery pull is on the clock.** In every run, from the first keyframe of a stream
until that stream is gone, there is the stream, and exactly one of the budget timer and the
grace timer is pending. -/
theorem battery_on_the_clock {o : Options} (hbattery : o.battery = true)
    {calls : List (Label ⊕ String)} {s : Pull} (hrun : Machine.Run (pullStep o) {} calls s)
    (hseen : History.newest streamKeyframe s.log = true) :
    s.stream = true ∧ s.budgetTimer ≠ s.budgetGraceTimer := by
  have hclock : s.OnTheClock :=
    hrun.invariant .start fun _ _ _ h hstep => h.pullStep hbattery hstep
  obtain ⟨hstream, hkeyframe⟩ := hclock.seen hseen
  exact ⟨hstream, hclock.clock hstream hkeyframe⟩

/-- A refused attach, one that is served, the first keyframe, the budget, and `extend`. -/
theorem battery_on_the_clock_extended :
    let o : Options := { battery := true }
    let pulled := (((({} : Pull).attachConsumer o (some (.makeStream "no key"))).state.attach o).onVideo
      o true)
    let s := { pulled with budgetTimer := false }.onBudgetExpire.extendBudget
    s.stream = true ∧ s.budgetTimer ≠ s.budgetGraceTimer :=
  battery_on_the_clock (o := { battery := true }) rfl
    (Machine.run_of_exec (show Machine.exec (pullStep { battery := true }) {} [.inr "no key",
      .inl .attach, .inl (.video true), .inl .budgetElapses, .inl .extend] = some _ from rfl))
    (by decide)

/-- A source that is not told how its camera is powered takes it to be wired. -/
theorem wired_by_default :
    ¬∀ (calls : List (Label ⊕ String)) (s : Pull),
      Machine.Run (pullStep {}) {} calls s → History.newest streamKeyframe s.log = true →
      s.budgetTimer ≠ s.budgetGraceTimer := by
  intro h
  exact h [.inl .attach, .inl (.video true)] ((({} : Pull).attach {}).onVideo {} true)
    (Machine.run_of_exec rfl) (by decide) rfl

end Pull

end EufySdk.SharedLiveSource
