import Mathlib.Tactic
import EufySdk.Transport.P2p.StartFailure

/-!
# A source on a replaced session

A source whose start nothing acknowledged asks its owner for another session and stops its
retry ticker. When the session is there the owner has it warm again, which it does while
its state is `warming`: a source that asked from the watch on a stream that was live before,
or that lingers by then, stays on the session that was replaced.

- `owed` — a session was asked for, and no frame or teardown came since
- `usesReplacement_iff` — the runs in which a replaced session is used
-/

namespace EufySdk.SharedLiveSource

open Machine History

def asks : Event → Option Bool
  | .asked => some true
  | .video _ | .audio | .closed => some false
  | _ => none

/-- The source has asked for a session, and since then no frame arrived and nothing was torn
down. -/
def owed (log : List Event) : Bool := newest asks log

namespace Pull

/-- The old stream is discarded, another one is opened, and its start is retried. -/
structure Rewarmed (s t : Pull) : Prop where
  log : t.log = .opened :: .discarded :: s.log
  stream : t.stream = true
  retries : t.warmRetryTimer = true

def UsesReplacement (o : Options) (s : Pull) (label : Label) : Prop :=
  label = .rewarm → owed s.log = true → ∀ t, step o s label = some t → Rewarmed s t

/-- The stream the source asked for has not delivered a keyframe, and a consumer is attached. -/
def WarmsForSomeone (s : Pull) (label : Label) : Prop :=
  label = .rewarm → owed s.log = true → keyframed s.log = false ∧ s.views ≠ []

/-- What is owed is owed on a stream. -/
structure Owes (s : Pull) : Prop where
  classified : s.Classified
  asked : owed s.log = true → s.stream = true ∧ s.sessionReplacementAsked = true

namespace Owes

variable {o : Options} {s t : Pull}

theorem start : Owes {} := ⟨.start, fun h => by cases h⟩

/-- A step that asks for nothing, on a source that goes on. -/
theorem pass (h : s.Owes) (hclassified : t.Classified) (hlog : owed t.log = owed s.log)
    (hstream : s.stream = true → t.stream = true)
    (hasked : s.stream = true → s.sessionReplacementAsked = true → t.sessionReplacementAsked = true) :
    t.Owes := by
  refine ⟨hclassified, fun howed => ?_⟩
  obtain ⟨hs, ha⟩ := h.asked (hlog ▸ howed)
  exact ⟨hstream hs, hasked hs ha⟩

/-- A frame or a teardown is what was waited for. -/
theorem settled (hclassified : t.Classified) (hlog : owed t.log = false) : t.Owes :=
  ⟨hclassified, fun howed => by rw [hlog] at howed; cases howed⟩

theorem owed_teardown (u : Pull) : owed (u.teardown true).log = false := by
  unfold Pull.teardown
  dsimp only
  split <;> rfl

theorem owed_dispose {u : Pull} (hopen : u.disposed = false) : owed u.dispose.log = false := by
  unfold Pull.dispose
  rw [hopen]
  simp only [Bool.false_eq_true, if_false]
  split <;> rfl

theorem owed_joinedLog (s : Pull) (log : List Event) : owed (s.joinedLog ++ log) = owed log := by
  unfold Pull.joinedLog
  split <;> rfl

theorem attach (h : s.Owes) (hclassified : (s.attach o).Classified) : (s.attach o).Owes := by
  cases hstream : s.stream with
  | false =>
    have hnone : owed s.log = false := by
      by_contra howed
      rw [(h.asked (by simpa using howed)).1] at hstream
      cases hstream
    apply settled hclassified
    rw [attach_warm o s hstream]
    exact (owed_joinedLog s s.log).trans hnone
  | true =>
    cases hpending : s.warmDeadlineTimer || s.warmRetryTimer with
    | true =>
      apply h.pass hclassified
      · rw [attach_shared o s hstream hpending]
        exact owed_joinedLog s s.log
      · rw [attach_shared o s hstream hpending]
        exact s.join_stream.trans
      · rw [attach_shared o s hstream hpending]
        exact fun _ => s.join_asked.trans
    | false =>
      obtain ⟨hsource, es, hlog, hes⟩ := attach_watching o s hstream hpending
      apply h.pass hclassified
      · rw [hlog, owed, newest_append fun e he => by rw [hes e he]; rfl]
        exact owed_joinedLog s s.log
      · rw [hsource]
        exact s.join_stream.trans
      · rw [hsource]
        exact fun _ => s.join_asked.trans

theorem detach (h : s.Owes) {c : ℕ} (hc : ∃ v ∈ s.views, v.id = c) (recycled : Bool)
    (hclassified : (s.detach c recycled).Classified) : (s.detach c recycled).Owes := by
  by_cases hstays : recycled = false ∨ s.consumers - 1 ≠ 0
  · cases recycled with
    | false =>
      unfold Pull.detach at hclassified ⊢
      dsimp only at hclassified ⊢
      split at hclassified
      · rename_i hlast
        rw [if_pos hlast]
        exact h.pass hclassified rfl id fun _ => id
      · rename_i hlast
        rw [if_neg hlast]
        exact h.pass hclassified rfl id fun _ => id
    | true =>
      rw [detach_eq_leave true (hstays.resolve_left (by decide))] at hclassified ⊢
      exact h.pass hclassified rfl id fun _ => id
  · rw [not_or, Bool.not_eq_false, not_not] at hstays
    obtain ⟨rfl, hlast⟩ := hstays
    obtain ⟨v, hv, -⟩ := hc
    apply settled hclassified
    rw [detach_recycled hlast (h.classified.sound.open_of_view hv)]
    apply owed_dispose
    exact h.classified.sound.open_of_view hv

theorem act (h : s.Owes) {label : Label} (hcan : s.can label = true) : (s.act o label).Owes := by
  have hsound := h.classified.sound
  have hclassified : (s.act o label).Classified := h.classified.act hcan
  cases label with
  | attach => exact h.attach hclassified
  | detach c recycled => exact h.detach (by simpa [can] using hcan) recycled hclassified
  | listen c listens => exact h.pass hclassified rfl id fun _ => id
  | video keyframe =>
    apply settled hclassified
    rw [Pull.act, onVideo_log]
    rfl
  | audio => exact settled hclassified rfl
  | unacknowledged =>
    refine ⟨hclassified, ?_⟩
    simp only [Pull.act, onStartUnacknowledged]
    split
    · exact fun _ => ⟨hcan, rfl⟩
    · exact h.asked
  | upstreamEnd =>
    apply settled hclassified
    rw [hsound.act_upstreamEnd hcan, owed_teardown]
  | upstreamError err =>
    apply settled hclassified
    rw [hsound.act_upstreamError hcan, owed_teardown]
  | reissue =>
    refine ⟨hclassified, ?_⟩
    simp only [Pull.act, reissueStart]
    split
    · exact h.asked
    · exact h.asked
  | deadline =>
    apply settled hclassified
    rw [hsound.act_deadline hcan, owed_teardown]
  | lingerElapses => exact settled hclassified (owed_teardown s)
  | budgetElapses =>
    have hbudget : ∀ log, owed ((s.views.reverse.map fun v => .budget v.id) ++ log) = owed log := by
      intro log
      apply newest_append
      intro e he
      obtain ⟨v, -, rfl⟩ := List.mem_map.mp he
      rfl
    refine ⟨hclassified, ?_⟩
    simp only [Pull.act, onBudgetExpire]
    split
    · exact h.asked
    · rw [hbudget]
      exact h.asked
  | extend =>
    refine ⟨hclassified, ?_⟩
    simp only [Pull.act, extendBudget]
    split
    · exact h.asked
    · exact h.asked
  | graceElapses => exact settled hclassified (owed_teardown s.endAll)
  | rewarm =>
    by_cases hacts : s.sessionReplacementAsked = true ∧ s.state = .warming
    · obtain ⟨hsource, hlog, -⟩ := hsound.rewarm_warming hacts.1 hacts.2
      apply h.pass hclassified
      · rw [Pull.act, hlog]
        rfl
      · rw [Pull.act, hsource]
        exact id
      · rw [Pull.act, hsource]
        exact fun _ => id
    · rw [Pull.act, rewarm_inert s hacts]
      exact h
  | dispose =>
    cases hdisposed : s.disposed with
    | true =>
      rw [Pull.act, Pull.dispose, if_pos hdisposed]
      exact h
    | false => exact settled hclassified (owed_dispose hdisposed)

end Owes

/-- A source that asked and is warming still is one that warms for someone. -/
theorem Owes.warming_iff {s : Pull} (h : s.Owes) (howed : owed s.log = true) :
    s.state = .warming ↔ keyframed s.log = false ∧ s.views ≠ [] := by
  obtain ⟨hstream, -⟩ := h.asked howed
  have hsound := h.classified.sound
  have hcount : s.views ≠ [] ↔ s.consumers ≠ 0 := by
    rw [hsound.count, ne_eq, ne_eq, List.length_eq_zero_iff]
  rw [← h.classified.retained hstream, hcount]
  constructor
  · intro hwarming
    refine ⟨(hsound.source.warming hwarming).2, fun hnone => ?_⟩
    cases hwarming.symm.trans (hsound.source.abandoned hstream hnone)
  · rintro ⟨hretained, hsome⟩
    obtain ⟨hidle, hstopped⟩ := hsound.source.running hstream
    -- of the states of a running stream, `live` has a keyframe and `lingering` no consumer
    cases hstate : s.state with
    | idle => exact absurd hstate hidle
    | warming => rfl
    | live =>
      rw [hsound.source.live hstate] at hretained
      cases hretained
    | lingering => exact absurd (hsound.source.lingers (hsound.source.lingering.mp hstate)) hsome
    | stopped => exact absurd hstate hstopped

theorem usesReplacement_step {o : Options} {s : Pull} (h : s.Owes) (label : Label) :
    UsesReplacement o s label ↔ WarmsForSomeone s label := by
  refine forall₂_congr fun hlabel howed => ?_
  subst hlabel
  obtain ⟨-, hasked⟩ := h.asked howed
  rw [← h.warming_iff howed]
  constructor
  · intro huses
    by_contra hstate
    have hlog := (huses s.rewarm rfl).log
    rw [rewarm_inert s fun hacts => hstate hacts.2] at hlog
    have hlength := congrArg List.length hlog
    simp only [List.length_cons] at hlength
    omega
  · intro hstate t hstep
    obtain ⟨-, rfl⟩ := step_eq_some.mp hstep
    obtain ⟨hsource, hlog, -⟩ := h.classified.sound.rewarm_warming hasked hstate
    obtain ⟨hstream, -⟩ := h.asked howed
    refine ⟨hlog, ?_, ?_⟩
    · show s.rewarm.toSource.stream = true
      rw [hsource]
      exact hstream
    · show s.rewarm.toSource.warmRetryTimer = true
      rw [hsource]

/-- **A session that was asked for is used, exactly if the stream it was asked for never delivered
a keyframe and someone is attached when it is there.** -/
theorem usesReplacement_iff (o : Options) (labels : List Label) :
    StepsMeet (step o) (UsesReplacement o) {} labels ↔
      StepsMeet (step o) WarmsForSomeone {} labels := by
  apply stepsMeet_congr (J := Owes) .start
  · intro s label h
    exact usesReplacement_step h label
  · intro s label t h _ hstep
    obtain ⟨hcan, rfl⟩ := step_eq_some.mp hstep
    exact h.act hcan

/-- A second consumer joins a stream that was live, and its start goes unacknowledged. -/
def askedFromReuse : List Label :=
  [.attach, .video true, .attach, .unacknowledged, .rewarm]

/-- The source stays on the session that was replaced, and its start is not retried. -/
theorem rewarm_inert_on_reused_stream :
    ∃ s, exec (step {}) {} [.attach, .video true, .attach, .unacknowledged] = some s ∧
      owed s.log = true ∧ step {} s .rewarm = some s ∧ s.warmRetryTimer = false ∧
      ¬StepsMeet (step {}) (UsesReplacement {}) {} askedFromReuse := by
  refine ⟨_, rfl, rfl, rfl, rfl, fun h => ?_⟩
  rw [show askedFromReuse = [.attach, .video true, .attach, .unacknowledged] ++ .rewarm :: []
    from rfl] at h
  have hlog := (h.meets rfl rfl rfl _ rfl).log
  exact absurd (congrArg List.length hlog) (by decide)

end Pull

end EufySdk.SharedLiveSource
