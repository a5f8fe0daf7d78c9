import Mathlib.Tactic
import EufySdk.Lib.History
import EufySdk.Transport.P2p.PullSteps

/-!
# What is reported as a failed start

A source reports a failed start when it ends a stream whose record of what was delivered
holds no keyframe. A consumer that joins a stream clears that record and arms a watch, so a
stream that delivered a keyframe before the join and ends before the next one is reported
as a start that failed.

- `keyframed`, `rejoined`, `unanswered` — what the log says about the stream opened last
- `Classified` — the invariant: the record is what was delivered since the last join
- `reportsRight_iff` — the runs in which every report is right
-/

namespace EufySdk.SharedLiveSource

open Machine History

/-! ## The stream opened last -/

def keyframes : Event → Option Bool
  | .opened => some false
  | .video true => some true
  | _ => none

/-- The stream opened last has delivered a keyframe. -/
def keyframed (log : List Event) : Bool := newest keyframes log

def rejoins : Event → Option Bool
  | .opened | .video true => some false
  | .watching => some true
  | _ => none

/-- A consumer joined the stream opened last behind a keyframe of it, had a watch armed, and
no keyframe has arrived since. -/
def rejoined (log : List Event) : Bool := keyframed log && newest rejoins log

def watches : Event → Option Bool
  | .opened | .video _ | .audio => some false
  | .watching => some true
  | _ => none

/-- Nothing has arrived since a watch was armed on the stream opened last. -/
def unanswered (log : List Event) : Bool := newest watches log

/-! ## Reports -/

def Event.reportsFailure : Event → Bool
  | .startFailed | .error _ (.start _) => true
  | _ => false

namespace Pull

/-- A step reports a failed start only of a stream that never delivered a keyframe or whose
watch expires with nothing delivered, and the end or the error of another as what it is. -/
structure ReportedRight (s : Pull) (label : Label) (t : Pull) : Prop where
  failed : ∀ e ∈ since s.log t.log, e.reportsFailure = true →
    keyframed s.log = false ∨ (label = .deadline ∧ unanswered s.log = true)
  ended : label = .upstreamEnd → ∀ v ∈ s.views, .stopped v.id ∈ since s.log t.log
  errored : ∀ err, label = .upstreamError err → keyframed s.log = true →
    ∀ v ∈ s.views, v.listens = true → .error v.id (.upstream err) ∈ since s.log t.log

def ReportsRight (o : Options) (s : Pull) (label : Label) : Prop :=
  ∀ t, step o s label = some t → ReportedRight s label t

/-- The labels that end a stream without its deadline. -/
def Label.ends : Label → Bool
  | .upstreamEnd | .upstreamError _ | .lingerElapses | .graceElapses => true
  | _ => false

/-- A stream is ended between a join and the next keyframe, and delivered one before. -/
def EndsRejoined (s : Pull) (label : Label) : Prop :=
  label.ends = true ∧ s.can label = true ∧ s.stream = true ∧ rejoined s.log = true

/-! ## The record of what was delivered -/

structure Classified (s : Pull) : Prop where
  sound : s.Sound
  retained : s.stream = true → s.lastKeyframe = keyframed s.log
  keyframe : s.stream = true → s.delivered.keyframe = (keyframed s.log && !newest rejoins s.log)
  waiting : s.stream = true → s.warmDeadlineTimer = true → keyframed s.log = true →
    s.reuseWatch = true ∧ unanswered s.log = true

theorem keyframes_of_note {e : Event} (h : e.note = true) : keyframes e = none := by
  cases e <;> first | rfl | cases h

theorem rejoins_of_note {e : Event} (h : e.note = true) : rejoins e = none := by
  cases e <;> first | rfl | cases h

theorem watches_of_note {e : Event} (h : e.note = true) : watches e = none := by
  cases e <;> first | rfl | cases h

section Coasts

variable {s t : Pull}

theorem Coasts.keyframed (h : Coasts s t) : keyframed t.log = keyframed s.log := by
  obtain ⟨es, hlog, hnotes⟩ := h.log
  rw [SharedLiveSource.keyframed, hlog]
  exact newest_append fun e he => keyframes_of_note (hnotes e he).1

theorem Coasts.rejoins (h : Coasts s t) : newest rejoins t.log = newest rejoins s.log := by
  obtain ⟨es, hlog, hnotes⟩ := h.log
  rw [hlog]
  exact newest_append fun e he => rejoins_of_note (hnotes e he).1

theorem Coasts.unanswered (h : Coasts s t) : unanswered t.log = unanswered s.log := by
  obtain ⟨es, hlog, hnotes⟩ := h.log
  rw [SharedLiveSource.unanswered, hlog]
  exact newest_append fun e he => watches_of_note (hnotes e he).1

end Coasts

namespace Classified

variable {o : Options} {s t : Pull}

theorem start : Classified {} where
  sound := sound_start
  retained h := by cases h
  keyframe h := by cases h
  waiting h := by cases h

/-- A stopped stream leaves nothing to tell. -/
theorem torn (hsound : t.Sound) (hstream : t.stream = false) : Classified t where
  sound := hsound
  retained h := by rw [hstream] at h; cases h
  keyframe h := by rw [hstream] at h; cases h
  waiting h := by rw [hstream] at h; cases h

theorem coasts (h : s.Classified) (hsound : t.Sound) (hcoasts : Coasts s t) : t.Classified := by
  refine ⟨hsound, ?_, ?_, ?_⟩
  · rw [hcoasts.stream, hcoasts.lastKeyframe, hcoasts.keyframed]
    exact h.retained
  · rw [hcoasts.stream, hcoasts.delivered, hcoasts.keyframed, hcoasts.rejoins]
    exact h.keyframe
  · rw [hcoasts.stream, hcoasts.warmDeadlineTimer, hcoasts.reuseWatch, hcoasts.keyframed,
      hcoasts.unanswered]
    exact h.waiting

/-- A stream that was just opened has delivered nothing. -/
theorem opened (hsound : t.Sound) {log : List Event} (hlog : t.log = .opened :: log)
    (hretained : t.lastKeyframe = false) (hdelivered : t.delivered.keyframe = false) :
    Classified t := by
  have hkeyframed : keyframed t.log = false := by
    rw [keyframed, hlog]
    rfl
  refine ⟨hsound, ?_, ?_, ?_⟩
  · rw [hkeyframed, hretained]
    exact fun _ => rfl
  · rw [hkeyframed, hdelivered]
    exact fun _ => rfl
  · rw [hkeyframed]
    intro _ _ h
    cases h

theorem attach (h : s.Classified) (hopen : s.disposed = false) : (s.attach o).Classified := by
  have hsound : (s.attach o).Sound := h.sound.attach hopen
  cases hstream : s.stream with
  | false =>
    have hretained : s.lastKeyframe = false := by
      by_contra hkept
      rw [h.sound.source.retained (by simpa using hkept)] at hstream
      cases hstream
    rw [attach_warm o s hstream] at hsound ⊢
    apply opened hsound rfl
    · show s.toSource.join.cancelLinger.lastKeyframe = false
      rw [Source.cancelLinger_lastKeyframe]
      exact hretained
    · rfl
  | true =>
    have hjoin := s.coasts_join
    cases hpending : s.warmDeadlineTimer || s.warmRetryTimer with
    | true =>
      rw [attach_shared o s hstream hpending] at hsound ⊢
      exact h.coasts hsound hjoin
    | false =>
      -- the watch that is armed clears the record of what was delivered
      obtain ⟨hsource, es, hlog, hes⟩ := attach_watching o s hstream hpending
      have hkeyframed : keyframed (s.attach o).log = keyframed s.log := by
        rw [← hjoin.keyframed, keyframed, hlog, newest_append fun e he => by rw [hes e he]; rfl]
        rfl
      have hrejoins : newest rejoins (s.attach o).log = true := by
        rw [hlog, newest_append fun e he => by rw [hes e he]; rfl]
        rfl
      have hunanswered : unanswered (s.attach o).log = true := by
        rw [unanswered, hlog, newest_append fun e he => by rw [hes e he]; rfl]
        rfl
      refine ⟨hsound, fun _ => ?_, fun _ => ?_, fun _ _ _ => ⟨?_, hunanswered⟩⟩
      · rw [hkeyframed, hsource, ← h.retained hstream]
        exact hjoin.lastKeyframe
      · rw [hrejoins, hsource, Bool.not_true, Bool.and_false]
        rfl
      · rw [hsource]
        rfl

/-- A frame that is no keyframe leaves the record's keyframe as it was. -/
theorem settled (h : s.Classified) (hstream : s.stream = true) (hsound : t.Sound) {d : Delivered}
    (hsource : t.toSource = { s.toSource with delivered := d }.settleReuseWatch)
    (hd : d.keyframe = s.delivered.keyframe) {e : Event} (hlog : t.log = e :: s.log)
    (hkeyframes : keyframes e = none) (hrejoins : rejoins e = none) : t.Classified := by
  have hkeyframed : keyframed t.log = keyframed s.log := by
    rw [keyframed, hlog, newest_cons, hkeyframes]
    rfl
  refine ⟨hsound, fun _ => ?_, fun _ => ?_, fun _ hdeadline hkept => ?_⟩
  · rw [hkeyframed, hsource, Source.settleReuseWatch_lastKeyframe]
    exact h.retained hstream
  · rw [hkeyframed, hsource, Source.settleReuseWatch_delivered, hlog, newest_cons, hrejoins]
    exact hd.trans (h.keyframe hstream)
  · -- the deadline of a stream with a keyframe is that of a reuse watch, which a frame settles
    rw [hsource] at hdeadline
    obtain ⟨hreuse, hpending⟩ := Source.settleReuseWatch_waits _ hdeadline
    obtain ⟨hwatch, -⟩ := h.waiting hstream hpending (hkeyframed ▸ hkept)
    rw [show s.reuseWatch = false from hreuse] at hwatch
    cases hwatch

theorem onVideo (h : s.Classified) (hstream : s.stream = true) (keyframe : Bool) :
    (s.onVideo o keyframe).Classified := by
  have hsound : (s.act o (.video keyframe)).Sound := h.sound.act hstream
  have hlog := onVideo_log o s keyframe
  have hsource := onVideo_toSource o s keyframe
  cases keyframe with
  | true =>
    have hkeyframed : keyframed (s.onVideo o true).log = true := by
      rw [keyframed, hlog]
      rfl
    refine ⟨hsound, fun _ => ?_, fun _ => ?_, fun _ hdeadline => ?_⟩
    · rw [hkeyframed, hsource]
      rfl
    · rw [hkeyframed, hsource, hlog]
      rfl
    · rw [hsource] at hdeadline
      cases hdeadline
  | false => exact h.settled hstream hsound hsource rfl hlog rfl rfl

theorem onAudio (h : s.Classified) (hstream : s.stream = true) : s.onAudio.Classified := by
  have hsound : (s.act {} .audio).Sound := h.sound.act hstream
  exact @settled s s.onAudio h hstream hsound _ rfl rfl _ rfl rfl rfl

theorem act (h : s.Classified) {label : Label} (hcan : s.can label = true) :
    (s.act o label).Classified := by
  have hsound : (s.act o label).Sound := h.sound.act hcan
  by_cases hcoasts : label.coasts = true
  · exact h.coasts hsound (.act o s hcoasts)
  cases label with
  | attach => exact h.attach (by simpa [can] using hcan)
  | detach c recycled =>
    by_cases hstays : recycled = false ∨ s.consumers - 1 ≠ 0
    · exact h.coasts hsound (.detach s c hstays)
    · rw [not_or, Bool.not_eq_false, not_not] at hstays
      obtain ⟨rfl, hlast⟩ := hstays
      exact torn hsound (h.sound.recycled_stream (by simpa [can] using hcan) hlast)
  | video keyframe => exact h.onVideo hcan keyframe
  | audio => exact h.onAudio hcan
  | upstreamEnd =>
    rw [h.sound.act_upstreamEnd hcan] at hsound ⊢
    exact torn hsound rfl
  | upstreamError err =>
    rw [h.sound.act_upstreamError hcan] at hsound ⊢
    exact torn hsound rfl
  | deadline =>
    rw [h.sound.act_deadline hcan] at hsound ⊢
    exact torn hsound rfl
  | lingerElapses => exact torn hsound rfl
  | graceElapses => exact torn hsound rfl
  | rewarm =>
    by_cases hacts : s.sessionReplacementAsked = true ∧ s.state = .warming
    · obtain ⟨hsource, hlog, -⟩ := h.sound.rewarm_warming hacts.1 hacts.2
      obtain ⟨hstream, hretained⟩ := h.sound.source.warming hacts.2
      apply opened hsound hlog
      · show s.rewarm.toSource.lastKeyframe = false
        rw [hsource]
        exact hretained
      · show s.rewarm.toSource.delivered.keyframe = false
        rw [hsource]
        by_contra hkeyframe
        rw [h.sound.source.keyframe hstream (by simpa using hkeyframe)] at hretained
        cases hretained
    · rw [Pull.act, rewarm_inert s hacts]
      exact h
  | dispose =>
    simp only [Pull.act, Pull.dispose] at hsound ⊢
    split at hsound
    · rename_i hdisposed
      rw [if_pos hdisposed]
      exact h
    · rename_i hopen
      rw [if_neg hopen]
      exact torn hsound rfl
  | listen | unacknowledged | reissue | budgetElapses | extend => exact absurd rfl hcoasts

end Classified

/-! ## The runs in which every report is right -/

section Reports

variable {o : Options} {s : Pull}

theorem reportsFailure_of_note {e : Event} (h : e.note = true) : e.reportsFailure = false := by
  cases e <;> first | rfl | cases h

theorem dispose_reports (s : Pull) :
    ∃ es, s.dispose.log = es ++ s.log ∧ ∀ e ∈ es, e.reportsFailure = false := by
  unfold Pull.dispose
  split
  · exact ⟨[], rfl, fun e he => by cases he⟩
  · refine ⟨(if s.consumers = 0 then [] else [.idle]) ++
      .closed :: ((if s.stream then [.discarded] else []) ++
        s.views.reverse.map fun v => .stopped v.id), ?_, ?_⟩
    · dsimp only [clearBudget, Pull.endAll]
      split <;> split <;> simp
    · intro e he
      simp only [List.mem_append, List.mem_cons, List.mem_map] at he
      rcases he with he | rfl | he | ⟨v, -, rfl⟩
      · split at he <;> simp_all [Event.reportsFailure]
      · rfl
      · split at he <;> simp_all [Event.reportsFailure]
      · rfl

theorem Coasts.reports {t : Pull} (h : Coasts s t) :
    ∀ e ∈ since s.log t.log, e.reportsFailure = false := by
  obtain ⟨es, hlog, hnotes⟩ := h.log
  rw [hlog, since_append]
  exact fun e he => reportsFailure_of_note (hnotes e he).1

theorem attach_reports : ∀ e ∈ since s.log (s.attach o).log, e.reportsFailure = false := by
  have hjoined : ∀ e ∈ s.joinedLog, e.reportsFailure = false :=
    fun e he => reportsFailure_of_note (note_joinedLog s e he).1
  cases hstream : s.stream with
  | false =>
    rw [attach_warm o s hstream, show s.join.warm.log = (.opened :: s.joinedLog) ++ s.log from rfl,
      since_append]
    exact List.forall_mem_cons.mpr ⟨rfl, hjoined⟩
  | true =>
    cases hpending : s.warmDeadlineTimer || s.warmRetryTimer with
    | true =>
      rw [attach_shared o s hstream hpending]
      exact s.coasts_join.reports
    | false =>
      obtain ⟨-, es, hlog, hes⟩ := attach_watching o s hstream hpending
      rw [hlog, show es ++ Event.watching :: s.join.log =
        (es ++ .watching :: s.joinedLog) ++ s.log from by simp [join], since_append]
      intro e he
      rcases List.mem_append.mp he with he | he
      · rw [hes e he]
        rfl
      · rcases List.mem_cons.mp he with rfl | he
        · rfl
        · exact hjoined e he

/-- A step that ends no stream reports nothing. -/
theorem act_reports (h : s.Sound) {label : Label} (hcan : s.can label = true)
    (hends : label.ends = false) (hdeadline : label ≠ .deadline) :
    ∀ e ∈ since s.log (s.act o label).log, e.reportsFailure = false := by
  by_cases hcoasts : label.coasts = true
  · exact (Coasts.act o s hcoasts).reports
  cases label with
  | attach => exact attach_reports
  | detach c recycled =>
    by_cases hstays : recycled = false ∨ s.consumers - 1 ≠ 0
    · exact (Coasts.detach s c hstays).reports
    · rw [not_or, Bool.not_eq_false, not_not] at hstays
      obtain ⟨rfl, hlast⟩ := hstays
      obtain ⟨v, hv, -⟩ : ∃ v ∈ s.views, v.id = c := by simpa [can] using hcan
      rw [Pull.act, detach_recycled hlast (h.open_of_view hv)]
      dsimp only
      obtain ⟨es, hlog, hes⟩ := dispose_reports { s with
        toSource := s.toSource.leave
        views := s.views.filter fun v => v.id ≠ c
        log := .idle :: .left c :: s.log }
      rw [hlog, show es ++ Event.idle :: Event.left c :: s.log = (es ++ [.idle, .left c]) ++ s.log
        from by simp, since_append]
      intro e he
      rcases List.mem_append.mp he with he | he
      · exact hes e he
      · exact reportsFailure_of_note (by simp at he; rcases he with rfl | rfl <;> rfl)
  | video keyframe =>
    rw [Pull.act, onVideo_log, since_cons]
    exact fun e he => by rw [List.mem_singleton.mp he]; rfl
  | audio =>
    rw [show (s.act o .audio).log = .audio :: s.log from rfl, since_cons]
    exact fun e he => by rw [List.mem_singleton.mp he]; rfl
  | upstreamEnd => cases hends
  | upstreamError err => cases hends
  | deadline => exact absurd rfl hdeadline
  | lingerElapses => cases hends
  | graceElapses => cases hends
  | rewarm =>
    by_cases hacts : s.sessionReplacementAsked = true ∧ s.state = .warming
    · obtain ⟨-, hlog, -⟩ := h.rewarm_warming hacts.1 hacts.2
      rw [Pull.act, hlog]
      rw [show Event.opened :: Event.discarded :: s.log = [.opened, .discarded] ++ s.log from rfl,
        since_append]
      decide
    · rw [Pull.act, rewarm_inert s hacts, since_self]
      exact fun e he => by cases he
  | dispose =>
    obtain ⟨es, hlog, hes⟩ := dispose_reports s
    rw [Pull.act, hlog, since_append]
    exact hes
  | listen | unacknowledged | reissue | budgetElapses | extend => exact absurd rfl hcoasts

/-- A step that ends the stream tells its consumers first. -/
theorem act_ends (h : s.Sound) {label : Label} (hcan : s.can label = true)
    (hends : label.ends = true) :
    ∃ (u : Pull) (es : List Event), s.act o label = u.teardown true ∧ u.toSource = s.toSource ∧
      u.log = es ++ s.log ∧
      ∀ e ∈ es, e.reportsFailure = true → s.stream = true ∧ s.delivered.keyframe = false := by
  have hstops : ∀ e ∈ s.views.reverse.map fun v => Event.stopped v.id, e.reportsFailure = false := by
    intro e he
    obtain ⟨v, -, rfl⟩ := List.mem_map.mp he
    rfl
  cases label with
  | upstreamEnd =>
    rw [h.act_upstreamEnd hcan]
    cases hkeyframe : s.delivered.keyframe with
    | true =>
      refine ⟨s.endAll, _, rfl, rfl, rfl, fun e he hreports => ?_⟩
      rw [hstops e he] at hreports
      cases hreports
    | false =>
      refine ⟨(s.fail (s.startFailure o .sourceEnded none)).endAll, _, rfl, rfl,
        (List.append_assoc _ _ _).symm, fun e he hreports => ⟨hcan, rfl⟩⟩
  | upstreamError err =>
    rw [h.act_upstreamError hcan]
    refine ⟨_, _, rfl, rfl, rfl, fun e he hreports => ⟨hcan, ?_⟩⟩
    obtain ⟨v, -, rfl⟩ := List.mem_map.mp he
    cases hkeyframe : s.delivered.keyframe with
    | true =>
      rw [hkeyframe] at hreports
      cases hreports
    | false => rfl
  | lingerElapses => exact ⟨s, [], rfl, rfl, rfl, fun e he => by cases he⟩
  | graceElapses =>
    refine ⟨s.endAll, _, rfl, rfl, rfl, fun e he hreports => ?_⟩
    rw [hstops e he] at hreports
    cases hreports
  | attach | detach | listen | video | audio | unacknowledged | reissue | deadline | budgetElapses
    | extend | rewarm | dispose => cases hends

/-- The record holds no keyframe although the stream has delivered one: a consumer joined. -/
theorem Classified.rejoined (h : s.Classified) (hstream : s.stream = true)
    (hdelivered : s.delivered.keyframe = false) (hkeyframed : keyframed s.log = true) :
    rejoined s.log = true := by
  have hrecord := h.keyframe hstream
  rw [hdelivered, hkeyframed, Bool.true_and] at hrecord
  rw [SharedLiveSource.rejoined, hkeyframed, Bool.true_and]
  simpa using hrecord.symm

theorem Classified.delivered_of_rejoined (h : s.Classified) (hstream : s.stream = true)
    (hrejoined : SharedLiveSource.rejoined s.log = true) : s.delivered.keyframe = false := by
  rw [SharedLiveSource.rejoined, Bool.and_eq_true] at hrejoined
  rw [h.keyframe hstream, hrejoined.1, hrejoined.2]
  rfl

theorem reportsRight_of_not_endsRejoined (h : s.Classified) {label : Label}
    (hnot : ¬EndsRejoined s label) : ReportsRight o s label := by
  intro t hstep
  obtain ⟨hcan, rfl⟩ := step_eq_some.mp hstep
  refine ⟨fun e he hreports => ?_, ?_, ?_⟩
  · by_cases hends : label.ends = true
    · left
      obtain ⟨u, es, hact, hsource, hlog, hes⟩ := act_ends (o := o) h.sound hcan hends
      rw [hact, mem_since_teardown hlog] at he
      have hfailed : s.stream = true ∧ s.delivered.keyframe = false := by
        rcases he with ⟨-, hfailed⟩ | rfl | ⟨rfl, -⟩ | he
        · rw [hsource] at hfailed
          simpa [Source.startFailed] using hfailed
        · cases hreports
        · cases hreports
        · exact hes e he hreports
      by_contra hkeyframed
      rw [Bool.not_eq_false] at hkeyframed
      exact hnot ⟨hends, hcan, hfailed.1, h.rejoined hfailed.1 hfailed.2 hkeyframed⟩
    · by_cases hdeadline : label = .deadline
      · subst hdeadline
        cases hkeyframed : keyframed s.log with
        | false => exact .inl rfl
        | true =>
          have hstream := h.sound.source.deadline hcan
          exact .inr ⟨rfl, (h.waiting hstream hcan hkeyframed).2⟩
      · rw [Bool.not_eq_true] at hends
        rw [act_reports h.sound hcan hends hdeadline e he] at hreports
        cases hreports
  · rintro rfl v hv
    have htold : .stopped v.id ∈ s.views.reverse.map fun v => Event.stopped v.id :=
      List.mem_map.mpr ⟨v, List.mem_reverse.mpr hv, rfl⟩
    rw [h.sound.act_upstreamEnd hcan]
    split
    · exact (mem_since_teardown rfl).mpr (.inr (.inr (.inr htold)))
    · refine (mem_since_teardown (List.append_assoc _ _ _).symm).mpr (.inr (.inr (.inr ?_)))
      exact List.mem_append_left _ htold
  · rintro err rfl hkeyframed v hv hlistens
    have hkeyframe : s.delivered.keyframe = true := by
      by_contra hnone
      rw [Bool.not_eq_true] at hnone
      exact hnot ⟨rfl, hcan, hcan, h.rejoined hcan hnone hkeyframed⟩
    rw [h.sound.act_upstreamError hcan, hkeyframe]
    refine (mem_since_teardown rfl).mpr (.inr (.inr (.inr ?_)))
    apply List.mem_map.mpr
    exact ⟨v, List.mem_reverse.mpr (List.mem_filter.mpr ⟨hv, hlistens⟩), rfl⟩

theorem not_endsRejoined_of_reportsRight (h : s.Classified) {label : Label}
    (hright : ReportsRight o s label) : ¬EndsRejoined s label := by
  rintro ⟨hends, hcan, hstream, hrejoined⟩
  obtain ⟨u, es, hact, hsource, hlog, -⟩ := act_ends (o := o) h.sound hcan hends
  have hreported : .startFailed ∈ since s.log (s.act o label).log := by
    rw [hact, mem_since_teardown hlog, hsource]
    exact .inl ⟨rfl, by simp [Source.startFailed, hstream, h.delivered_of_rejoined hstream hrejoined]⟩
  rw [SharedLiveSource.rejoined, Bool.and_eq_true] at hrejoined
  rcases (hright _ (step_eq_some.mpr ⟨hcan, rfl⟩)).failed _ hreported rfl with hnone | ⟨rfl, -⟩
  · rw [hnone] at hrejoined
    cases hrejoined.1
  · cases hends

end Reports

/-- **A stream that had delivered is never reported as a failed start, exactly if none is ended
between a consumer's join and its next keyframe.** -/
theorem reportsRight_iff (o : Options) (labels : List Label) :
    StepsMeet (step o) (ReportsRight o) {} labels ↔
      StepsMeet (step o) (fun s label => ¬EndsRejoined s label) {} labels := by
  apply stepsMeet_congr (J := Classified) .start
  · intro s label h
    exact ⟨not_endsRejoined_of_reportsRight h, reportsRight_of_not_endsRejoined h⟩
  · intro s label t h _ hstep
    obtain ⟨hcan, rfl⟩ := step_eq_some.mp hstep
    exact h.act hcan

/-- A stream that delivers, a second consumer, and the end of the stream. -/
def endBehindJoin : List Label := [.attach, .video true, .attach, .upstreamEnd]

/-- The stream that was streaming is reported as a start that failed. -/
theorem joined_stream_reported_as_failed_start :
    ∃ s t, exec (step {}) {} [.attach, .video true, .attach] = some s ∧
      step {} s .upstreamEnd = some t ∧ keyframed s.log = true ∧ unanswered s.log = true ∧
      .startFailed ∈ since s.log t.log ∧ ¬StepsMeet (step {}) (ReportsRight {}) {} endBehindJoin := by
  refine ⟨_, _, rfl, rfl, rfl, rfl, by decide, fun h => ?_⟩
  rw [show endBehindJoin = [.attach, .video true, .attach] ++ .upstreamEnd :: [] from rfl] at h
  obtain ⟨hfailed, -, -⟩ := h.meets rfl _ rfl
  rcases hfailed .startFailed (by decide) rfl with hnone | ⟨hdeadline, -⟩
  · exact absurd hnone (by decide)
  · cases hdeadline

end Pull

end EufySdk.SharedLiveSource
