import Mathlib.Tactic
import EufySdk.Lib.Lists
import EufySdk.Transport.P2p.SourceCache

/-!
# One served camera of a station

A station serves one of its attached cameras at a time. `sharedLiveSourceFor` drops what
nothing is attached to and refuses where another camera has a viewer, and the caller attaches
to the source it was given some time later. Two callers that both found nobody are told apart
by the source of the first, which the second one's call disposes.

- `OfAttachedCameras` — the steps: hand-overs for attached cameras, attaches, detaches, failed
  starts, lingers and disposals
- `ServesOne` — what a step keeps to
- `serves_one_camera` — every run of these steps does
-/

namespace EufySdk.P2PCommandRouter

open Machine SharedLiveSource

/-- A source that is not stopped and has a consumer. -/
def LiveSource.serving (s : LiveSource) : Prop := s.source.state ≠ .stopped ∧ 0 < s.source.consumers

def Purpose.device? : Purpose → Option Device
  | .live device => some device
  | _ => none

/-- The calls are for cameras attached to a base, and a stream that somebody is attached to ends
only as a failed start. -/
def OfAttachedCameras (w : Station) : Label → Prop
  | .proceed t => ∀ task ∈ w.tasks[t]?, ∀ device ∈ task.purpose.device?,
      device.homeBaseAttached = true ∧ device.standalone = false
  | .teardown i => ∀ s ∈ w.sources[i]?, s.source.consumers = 0 ∨ s.source.startFailed = true
  | _ => True

instance (w : Station) : (label : Label) → Decidable (OfAttachedCameras w label)
  | .proceed t => inferInstanceAs (Decidable (∀ task ∈ w.tasks[t]?, ∀ device ∈ task.purpose.device?,
      device.homeBaseAttached = true ∧ device.standalone = false))
  | .teardown i => inferInstanceAs (Decidable (∀ s ∈ w.sources[i]?,
      s.source.consumers = 0 ∨ s.source.startFailed = true))
  | .live _ | .command | .prewarm | .ensureStation | .register _ | .bound _ | .openFails _
  | .resume _ | .ready _ | .gaveUp _ | .afterClose _ | .attach _ | .detach _ | .video _ _
  | .audio _ | .unacknowledged _ | .holdExpires | .idleElapses | .resetWhenUnused | .powered _
  | .connects _ | .pathAnswers _ _ | .closes _ | .closeEvent _ => .isTrue trivial

/-- What a step keeps to. -/
structure ServesOne (w : Station) (label : Label) : Prop where
  /-- One channel at most is served behind it. -/
  served : ∀ v, step w label = some v → ∀ (j k : ℕ) s r, v.sources[j]? = some s →
    v.sources[k]? = some r → s.serving → r.serving → s.device.channel = r.device.channel
  /-- A caller attaches only where no other camera is served. -/
  attaches : ∀ v i, label = .attach i → step w label = some v → ∀ (j : ℕ) s,
    w.sources[j]? = some s → s.serving → j = i
  /-- A caller is given a source only where no other camera is served. -/
  given : ∀ t device rebuilt i src, label = .proceed t →
    w.tasks[t]? = some ⟨.live device, rebuilt, .resolved i⟩ →
    (w.handOver device i).2 = some src → ∀ (j : ℕ) s, w.sources[j]? = some s → s.serving →
      s.device.channel = device.channel
  /-- A call disposes no source of another camera that has consumers. -/
  spares : ∀ v t device rebuilt i, label = .proceed t →
    w.tasks[t]? = some ⟨.live device, rebuilt, .resolved i⟩ → step w label = some v →
    ∀ (j : ℕ) s, w.sources[j]? = some s → s.device.channel ≠ device.channel →
      0 < s.source.consumers → v.sources[j]? = some s

/-! ## What the steps keep -/

/-- One source is cached, of an attached camera, and nobody is attached to it when it is
stopped. -/
structure Single (w : Station) : Prop where
  cached : Cached w
  devices : ∀ (j : ℕ) s, w.sources[j]? = some s → s.device.standalone = false
  stopped : ∀ (j : ℕ) s, w.sources[j]? = some s → s.cached = true → s.source.state = .stopped →
    s.source.consumers = 0
  single : ∀ (j k : ℕ) s r, w.sources[j]? = some s → w.sources[k]? = some r → s.cached = true →
    r.cached = true → j = k

namespace Single

variable {w v : Station} {i : ℕ} {s : LiveSource}

theorem start : Single {} where
  cached := .start
  devices j s hs := by simp at hs
  stopped j s hs := by simp at hs
  single j k s r hs := by simp at hs

theorem of_back (h : Single w) (hcached : Cached v) (hback : ∀ (j : ℕ) s', v.sources[j]? = some s' →
    ∃ s, w.sources[j]? = some s ∧ (s'.cached = true → s.cached = true) ∧ s'.device = s.device ∧
      (s'.cached = true → s'.source.state = .stopped → s'.source.consumers = 0)) : Single v where
  cached := hcached
  devices j s' hs' := by
    obtain ⟨s, hs, -, hdevice, -⟩ := hback j s' hs'
    rw [hdevice]
    exact h.devices j s hs
  stopped j s' hs' := by
    obtain ⟨-, -, -, -, hstopped⟩ := hback j s' hs'
    exact hstopped
  single j k s' r' hs' hr' hsc hrc := by
    obtain ⟨s, hs, hscached, -⟩ := hback j s' hs'
    obtain ⟨r, hr, hrcached, -⟩ := hback k r' hr'
    exact h.single j k s r hs hr (hscached hsc) (hrcached hrc)

theorem of_sources (h : Single w) (hsources : v.sources = w.sources) : Single v := by
  refine h.of_back (h.cached.of_eq hsources) fun j s' hs' => ?_
  rw [hsources] at hs'
  exact ⟨s', hs', id, rfl, h.stopped j s' hs'⟩

theorem sheds (h : Single w) (hsheds : Sheds w.sources v.sources) : Single v := by
  refine h.of_back (h.cached.sheds hsheds) fun j s' hs' => ?_
  obtain ⟨s, hs, rfl | rfl⟩ := hsheds.back hs'
  · exact ⟨s', hs, id, rfl, h.stopped j s' hs⟩
  · exact ⟨s, hs, fun hcached => (by cases hcached), rfl, fun hcached => (by cases hcached)⟩

/-- One source changes. -/
theorem modify (h : Single w) (hcached : Cached v) {f : Source → Source}
    (hsources : v.sources = w.sources.modify i fun s => { s with source := f s.source })
    (hf : ∀ s, w.sources[i]? = some s → s.cached = true → (f s.source).state = .stopped →
      (f s.source).consumers = 0) : Single v := by
  refine h.of_back hcached fun j s' hs' => ?_
  rw [hsources] at hs'
  rcases Lists.getElem?_modify_cases hs' with ⟨rfl, r, hr, rfl⟩ | ⟨-, hr⟩
  · exact ⟨r, hr, id, rfl, hf r hr⟩
  · exact ⟨s', hr, id, rfl, h.stopped j s' hr⟩

/-- A source somebody has joined is warm. -/
theorem joined_state {s : Source} (h : s.Sound) (hopen : s.disposed = false) :
    s.join.joined.state ≠ .stopped := by
  have hjoined := h.joined hopen
  have hstream : s.join.joined.stream = true := by
    unfold Source.joined
    dsimp only
    split
    · rename_i hstream
      unfold Source.watchReusedStream
      split
      · exact hstream
      · exact hstream
    · rfl
  exact (hjoined.running hstream).2

theorem attach (h : Single w) (hs : w.sources[i]? = some s) (hopen : s.source.disposed = false) :
    Single (w.attach i s.source) := by
  refine h.modify (f := fun s => s.join.joined) (h.cached.attach hs hopen)
    (sources_attach w i s.source) fun r hr _ hstopped => ?_
  obtain rfl := Option.some.inj (hs.symm.trans hr)
  exact absurd hstopped (joined_state (h.cached.sound i s hs) hopen)

theorem detach (h : Single w) (hs : w.sources[i]? = some s) (hpos : 0 < s.source.consumers) :
    Single (w.detach i s.source) := by
  refine h.of_back (h.cached.detach hs hpos) fun j s' hs' => ?_
  unfold Station.detach at hs'
  dsimp only at hs'
  split at hs'
  · rcases Lists.getElem?_modify_cases hs' with ⟨rfl, r, hr, rfl⟩ | ⟨hne, hr⟩
    · obtain ⟨a, ha, hra⟩ := (Sheds.release _).back hr
      rcases Lists.getElem?_modify_cases ha with ⟨-, b, hb, rfl⟩ | ⟨hne, -⟩
      · rcases hra with rfl | rfl
        · exact ⟨b, hb, id, rfl, fun _ hstopped => (by cases hstopped)⟩
        · exact ⟨b, hb, fun hcached => (by cases hcached), rfl, fun hcached => (by cases hcached)⟩
      · exact absurd rfl hne
    · obtain ⟨a, ha, hra⟩ := (Sheds.release _).back hr
      have hold : w.sources[j]? = some a := (List.getElem?_modify_ne _ _ hne.symm).symm.trans ha
      rcases hra with rfl | rfl
      · exact ⟨s', hold, id, rfl, h.stopped j s' hold⟩
      · exact ⟨a, hold, fun hcached => (by cases hcached), rfl, fun hcached => (by cases hcached)⟩
  · rcases Lists.getElem?_modify_cases hs' with ⟨rfl, r, hr, rfl⟩ | ⟨-, hr⟩
    · refine ⟨r, hr, id, rfl, fun hcached hstopped => ?_⟩
      show r.source.consumers - 1 = 0
      rw [h.stopped j r hr hcached hstopped]
    · exact ⟨s', hr, id, rfl, h.stopped j s' hr⟩

theorem teardownSource (h : Single w) (hs : w.sources[i]? = some s)
    (hends : s.source.consumers = 0 ∨ s.source.startFailed = true) :
    Single (w.teardownSource i) := by
  have hcached := h.cached.teardownSource hs
  cases hfailed : s.source.startFailed with
  | false =>
    have hsame : w.teardownSource i = w.modifySource i Source.teardown := by
      simp [Station.teardownSource, hs, hfailed]
    rw [hsame] at hcached ⊢
    refine h.modify hcached rfl fun r hr _ _ => ?_
    obtain rfl := Option.some.inj (hs.symm.trans hr)
    rw [hfailed] at hends
    exact hends.resolve_right Bool.false_ne_true
  | true =>
    -- the source is cached, and goes with its failed start
    have hopen : s.source.disposed = false := by
      by_contra hdisposed
      rw [Bool.not_eq_false] at hdisposed
      rw [Source.startFailed, ((h.cached.sound i s hs).disposed hdisposed).1] at hfailed
      cases hfailed
    have hscached : s.cached = true := by
      rw [h.cached.cached i s hs, hopen]
      rfl
    have hsame : w.teardownSource i =
        (w.modifySource i Source.teardown).dropLiveSource s.device.channel := by
      simp [Station.teardownSource, hs, hfailed, Station.onLiveStartFailed, h.devices i s hs]
    rw [hsame] at hcached ⊢
    have htorn : Cached (w.modifySource i Source.teardown) :=
      h.cached.modify hs rfl (.refl _) (h.cached.sound i s hs).teardown rfl
    have hthis : (w.modifySource i Source.teardown).sources[i]? =
        some { s with source := s.source.teardown } :=
      (List.getElem?_modify_eq ..).trans (congrArg (Option.map _) hs)
    have hgone := htorn.dropLiveSource_get hthis rfl
    rw [if_pos (htorn.liveSource?_eq hthis hscached rfl)] at hgone
    refine h.of_back hcached fun j s' hs' => ?_
    obtain ⟨r, hr, hrest⟩ := (Sheds.dropLiveSource _ s.device.channel).back hs'
    rcases Lists.getElem?_modify_cases hr with ⟨rfl, a, ha, rfl⟩ | ⟨-, hold⟩
    · obtain rfl := Option.some.inj (hs'.symm.trans hgone)
      exact ⟨s, hs, fun hcached => (by cases hcached), rfl, fun hcached => (by cases hcached)⟩
    · rcases hrest with rfl | rfl
      · exact ⟨s', hold, id, rfl, h.stopped j s' hold⟩
      · exact ⟨r, hold, fun hcached => (by cases hcached), rfl, fun hcached => (by cases hcached)⟩

theorem unacknowledged (h : Single w) (hs : w.sources[i]? = some s) :
    Single (w.unacknowledged i s) := by
  have hcached := h.cached.unacknowledged hs
  unfold Station.unacknowledged at hcached ⊢
  split at hcached
  · rename_i hwants
    rw [if_pos hwants]
    simp only [h.devices i s hs, Bool.false_eq_true, if_false] at hcached ⊢
    exact h.modify hcached rfl (h.stopped i)
  · rename_i hwants
    rw [if_neg hwants]
    exact h

/-- What is left cached when a call has freed the station belongs to its own channel, or to a
camera that is being served. -/
theorem freed {channel j : ℕ} (h : Single w) (hs : (w.releaseLingeringSiblings channel).sources[j]? = some s)
    (hcached : s.cached = true) : s.device.channel = channel ∨ s.serving := by
  by_contra hnot
  rw [not_or] at hnot
  obtain ⟨hchannel, hserving⟩ := hnot
  obtain ⟨r, hr, hrs⟩ := Option.map_eq_some_iff.mp ((List.getElem?_map ..).symm.trans hs)
  split at hrs
  · rw [← hrs] at hcached
    cases hcached
  · rename_i hkept
    subst hrs
    rw [hcached, Bool.true_and, Bool.and_eq_true, decide_eq_true_eq, decide_eq_true_eq] at hkept
    have hpos : r.source.consumers ≠ 0 := fun hzero => hkept ⟨hchannel, hzero⟩
    refine hserving ⟨fun hstopped => hpos (h.stopped j r hr hcached hstopped), ?_⟩
    exact Nat.pos_of_ne_zero hpos

/-- Where no other channel is occupied none is served. -/
theorem not_serving {channel j : ℕ} (hfree : w.occupiedSiblingChannel channel = none)
    (hs : w.sources[j]? = some s) (hcached : s.cached = true) (hchannel : s.device.channel ≠ channel) :
    ¬s.serving := by
  rintro ⟨hstate, hpos⟩
  rw [Station.occupiedSiblingChannel, Option.map_eq_none_iff, List.find?_eq_none] at hfree
  refine hfree s (List.mem_of_getElem? hs) ?_
  rw [hcached, Bool.true_and, Bool.and_eq_true, Bool.and_eq_true, decide_eq_true_eq,
    decide_eq_true_eq, decide_eq_true_eq]
  exact ⟨⟨hchannel, hstate⟩, hpos.ne'⟩

theorem handOver (h : Single w) {device : Device} (session : ℕ)
    (hdevice : device.homeBaseAttached = true ∧ device.standalone = false) :
    Single (w.handOver device session).1 := by
  have hcached := h.cached.handOver device session
  have hdropped := h.sheds (Sheds.dropStopped w device.channel)
  have hfreed := hdropped.sheds
    (Sheds.releaseLingeringSiblings (w.dropStopped device.channel) device.channel)
  unfold Station.handOver at hcached ⊢
  dsimp only at hcached ⊢
  split at hcached
  · rename_i hbusy
    rw [if_pos hbusy]
    exact hfreed
  · rename_i hbusy
    rw [if_neg hbusy]
    split at hcached
    · exact hfreed
    · rename_i hnone
      have hfree : ((w.dropStopped device.channel).releaseLingeringSiblings
          device.channel).occupiedSiblingChannel device.channel = none := by
        rw [hdevice.1, Bool.true_and, Bool.not_eq_true, Option.isSome_eq_false_iff,
          Option.isNone_iff_eq_none] at hbusy
        exact hbusy
      -- nothing else is cached
      have halone : ∀ (j : ℕ) s, ((w.dropStopped device.channel).releaseLingeringSiblings
          device.channel).sources[j]? = some s → s.cached = true → False := by
        intro j s hs hcached
        have hchannel := liveSource?_eq_none.mp hnone s (List.mem_of_getElem? hs) hcached
        rcases hdropped.freed hs hcached with hown | hserving
        · exact hchannel hown
        · exact not_serving hfree hs hcached hchannel hserving
      refine ⟨hcached, fun j s' hs' => ?_, fun j s' hs' hsc hstopped => ?_,
        fun j k s' r' hs' hr' hsc hrc => ?_⟩
      · rcases Lists.getElem?_append_cases hs' with ⟨-, rfl⟩ | hold
        · exact hdevice.2
        · exact hfreed.devices j s' hold
      · rcases Lists.getElem?_append_cases hs' with ⟨-, rfl⟩ | hold
        · rfl
        · exact hfreed.stopped j s' hold hsc hstopped
      · rcases Lists.getElem?_append_cases hs' with ⟨hj, -⟩ | hold
        · rcases Lists.getElem?_append_cases hr' with ⟨hk, -⟩ | hold'
          · rw [hj, hk]
          · exact (halone k r' hold' hrc).elim
        · exact (halone j s' hold hsc).elim

theorem replaced (h : Single w) (source session : ℕ) : Single (w.replaced source session) := by
  have hcached := h.cached.replaced source session
  unfold Station.replaced at hcached ⊢
  split at hcached
  · split at hcached
    · refine h.of_back hcached fun j s' hs' => ?_
      have hheld : ∀ {k : ℕ} {r' : LiveSource},
          (w.sources.modify source fun s => { s with held := session })[k]? = some r' →
            ∃ r, w.sources[k]? = some r ∧ r'.cached = r.cached ∧ r'.device = r.device ∧
              r'.source = r.source := by
        intro k r' hr'
        rcases Lists.getElem?_modify_cases hr' with ⟨rfl, r, hr, rfl⟩ | ⟨-, hr⟩
        · exact ⟨r, hr, rfl, rfl, rfl⟩
        · exact ⟨r', hr, rfl, rfl, rfl⟩
      rcases Lists.getElem?_modify_cases hs' with ⟨rfl, r', hr', rfl⟩ | ⟨-, hr'⟩
      · obtain ⟨r, hr, hcached, hdevice, hsource⟩ := hheld hr'
        refine ⟨r, hr, fun hc => hcached ▸ hc, hdevice, fun hc hstopped => ?_⟩
        have hstate : r'.source.rewarm.state = r'.source.state := by
          unfold Source.rewarm
          split <;> rfl
        have hwas : r.source.state = .stopped := by
          rw [← hsource, ← hstate]
          exact hstopped
        rw [Source.rewarm_consumers, hsource]
        exact h.stopped _ r hr (hcached ▸ hc) hwas
      · obtain ⟨r, hr, hcached, hdevice, hsource⟩ := hheld hr'
        refine ⟨r, hr, fun hc => hcached ▸ hc, hdevice, fun hc hstopped => ?_⟩
        rw [hsource] at hstopped ⊢
        exact h.stopped _ r hr (hcached ▸ hc) hstopped
    · exact h
  · exact h

theorem step (h : Single w) {label : Label} (hof : OfAttachedCameras w label)
    (hstep : P2PCommandRouter.step w label = some v) : Single v := by
  cases touches_of_step hstep with
  | sheds hsheds => exact h.sheds hsheds
  | attach hs hopen => exact h.attach hs hopen
  | detach hs hpos => exact h.detach hs hpos
  | @video i s keyframe hs hstream =>
    have hsound := (h.cached.sound i s hs).onVideo hstream keyframe
    have hcached : Cached (w.modifySource i (Source.onVideo · keyframe)) :=
      h.cached.modify (f := (Source.onVideo · keyframe)) hs rfl (.refl _) hsound
        (Source.onVideo_disposed _ _)
    refine h.modify (f := (Source.onVideo · keyframe)) hcached rfl fun r hr _ hstopped => ?_
    obtain rfl := Option.some.inj (hs.symm.trans hr)
    exact absurd hstopped (hsound.running ((Source.onVideo_stream _ _).trans hstream)).2
  | @audio i s hs hstream =>
    have hsound := (h.cached.sound i s hs).onAudio hstream
    have hcached : Cached (w.modifySource i Source.onAudio) :=
      h.cached.modify hs rfl (.refl _) hsound (Source.onAudio_disposed _)
    refine h.modify hcached rfl fun r hr _ hstopped => ?_
    obtain rfl := Option.some.inj (hs.symm.trans hr)
    exact absurd hstopped (hsound.running ((Source.settleReuseWatch_stream _).trans hstream)).2
  | teardown hs => exact h.teardownSource hs (hof _ hs)
  | unacknowledged hs => exact h.unacknowledged hs
  | hands htask => exact (h.handOver _ (hof _ htask _ rfl)).of_sources rfl
  | replaces htask => exact (h.replaced _ _).of_sources rfl

/-- A source that is served is cached. -/
theorem cached_of_serving (h : Single w) (hs : w.sources[i]? = some s) (hserving : s.serving) :
    s.cached = true := by
  rw [h.cached.cached i s hs, Bool.not_eq_true']
  by_contra hdisposed
  rw [Bool.not_eq_false] at hdisposed
  exact hserving.2.ne' ((h.cached.sound i s hs).disposed hdisposed).2

/-- A stopped source that is dropped had nobody attached, and takes nothing along. -/
theorem dropStopped_get (h : Single w) {channel j : ℕ} (hs : w.sources[j]? = some s)
    (hchannel : s.device.channel ≠ channel) : (w.dropStopped channel).sources[j]? = some s := by
  unfold Station.dropStopped
  split
  · rename_i hstopped
    cases hlive : w.liveSource? channel with
    | none =>
      rw [Station.dropLiveSource, hlive]
      exact hs
    | some i =>
      obtain ⟨r, hr, hcached, hrchannel⟩ := liveSource?_eq_some hlive
      rw [hlive, Option.bind_some, hr, Option.any_some, decide_eq_true_eq] at hstopped
      have hnobody := h.stopped i r hr hcached hstopped
      have hdrop : w.dropLiveSource channel =
          { w with sources := w.sources.modify i LiveSource.drop } := by
        simp [Station.dropLiveSource, hlive, Station.disposeSource, hr, Source.active, hnobody]
      rw [hdrop]
      refine (List.getElem?_modify_ne _ _ ?_).trans hs
      rintro rfl
      obtain rfl := Option.some.inj (hs.symm.trans hr)
      exact hchannel hrchannel
  · exact hs

/-- A source of another camera that has consumers is not released. -/
theorem freed_get (h : Single w) {channel j : ℕ} (hs : w.sources[j]? = some s)
    (hchannel : s.device.channel ≠ channel) (hpos : 0 < s.source.consumers) :
    ((w.dropStopped channel).releaseLingeringSiblings channel).sources[j]? = some s := by
  refine (List.getElem?_map ..).trans ?_
  rw [h.dropStopped_get hs hchannel, Option.map_some, if_neg]
  simp [hpos.ne']

/-- A call leaves another camera's source as it is when it has consumers. -/
theorem handOver_get (h : Single w) {device : Device} (session : ℕ) {j : ℕ}
    (hs : w.sources[j]? = some s) (hchannel : s.device.channel ≠ device.channel)
    (hpos : 0 < s.source.consumers) :
    (w.handOver device session).1.sources[j]? = some s := by
  have hfreed := h.freed_get hs hchannel hpos
  unfold Station.handOver
  dsimp only
  split
  · exact hfreed
  · split
    · exact hfreed
    · exact Lists.getElem?_append_of_some hfreed

theorem servesOne (h : Single w) {label : Label} (hof : OfAttachedCameras w label) :
    ServesOne w label where
  served v hstep j k s r hs hr hserving hrserving := by
    have hnext := h.step hof hstep
    obtain rfl := hnext.single j k s r hs hr (hnext.cached_of_serving hs hserving)
      (hnext.cached_of_serving hr hrserving)
    rw [Option.some.inj (hs.symm.trans hr)]
  attaches v i hlabel hstep j s hs hserving := by
    subst hlabel
    cases transition_of_step hstep with
    | @attach i r hr hopen =>
      refine h.single j i s r hs hr (h.cached_of_serving hs hserving) ?_
      rw [h.cached.cached i r hr, Bool.not_eq_true']
      exact hopen
  given t device rebuilt i src hlabel htask hsrc j s hs hserving := by
    by_contra hchannel
    have hfreed := h.freed_get hs hchannel hserving.2
    subst hlabel
    unfold Station.handOver at hsrc
    dsimp only at hsrc
    split at hsrc
    · cases hsrc
    · rename_i hbusy
      rw [(hof _ htask device rfl).1, Bool.true_and, Bool.not_eq_true,
        Option.isSome_eq_false_iff, Option.isNone_iff_eq_none] at hbusy
      exact not_serving hbusy hfreed (h.cached_of_serving hs hserving) hchannel hserving
  spares v t device rebuilt i hlabel htask hstep j s hs hchannel hpos := by
    subst hlabel
    simp only [P2PCommandRouter.step, htask, Station.proceed] at hstep
    obtain rfl := Option.some.inj hstep
    exact h.handOver_get i hs hchannel hpos

end Single

/-- **One camera of a station is served at a time.** -/
theorem serves_one_camera (labels : List Label) (hof : StepsMeet step OfAttachedCameras {} labels) :
    StepsMeet step ServesOne {} labels :=
  hof.strengthen (J := Single) .start (fun _ _ h hof => h.servesOne hof)
    fun _ _ _ h hof hstep => h.step hof hstep

/-- Two cameras of a base are asked for; the first one's source is disposed before its caller
attaches, and a third call finds the second one served. -/
theorem serves_one_camera_of_two : StepsMeet step ServesOne {}
    [.live ⟨0, true, false⟩, .register 0, .bound 0, .resume 0, .connects 0, .ready 0,
      .live ⟨1, true, false⟩, .resume 1, .ready 1, .proceed 0, .proceed 1, .attach 1,
      .live ⟨0, true, false⟩, .resume 2, .ready 2, .proceed 2, .teardown 1] :=
  serves_one_camera _ (by decide)

end EufySdk.P2PCommandRouter
