import Mathlib.Tactic
import EufySdk.Lib.Lists
import EufySdk.Transport.P2p.Handover
import EufySdk.Transport.P2p.PullSteps

/-!
# The router's live sources, step by step

What a step of the router does to its live sources: it may drop some of them, or it is one
of the few that change a source, hand one out or put one in. A source is cached until it is
disposed, and there is one for a channel.

- `Sheds` — some sources are dropped, the others are as they were
- `Touches`, `touches_of_step` — what a step does
- `Cached` — what every run keeps
-/

namespace EufySdk.P2PCommandRouter

open Machine SharedLiveSource

/-! ## Dropping -/

/-- Some sources are dropped, the others are as they were. -/
def Sheds (l r : List LiveSource) : Prop :=
  r.length = l.length ∧
    ∀ (j : ℕ) s, l[j]? = some s → r[j]? = some s ∨ r[j]? = some s.drop

theorem LiveSource.drop_drop (s : LiveSource) : s.drop.drop = s.drop := by
  unfold LiveSource.drop
  cases hdisposed : s.source.disposed with
  | false => simp [Source.dispose, Source.teardown, Source.clearWarmWatch]
  | true => simp [hdisposed]

namespace Sheds

variable {l m r : List LiveSource} {w : Station}

theorem refl (l : List LiveSource) : Sheds l l := ⟨rfl, fun _ _ hs => .inl hs⟩

theorem trans (h : Sheds l m) (h' : Sheds m r) : Sheds l r := by
  refine ⟨h'.1.trans h.1, fun j s hs => ?_⟩
  rcases h.2 j s hs with hm | hm
  · exact h'.2 j s hm
  · refine .inr ((h'.2 j s.drop hm).elim id fun hr => ?_)
    rw [hr, LiveSource.drop_drop]

/-- Where a source that is left comes from. -/
theorem back (h : Sheds l r) {j : ℕ} {s' : LiveSource} (hs' : r[j]? = some s') :
    ∃ s, l[j]? = some s ∧ (s' = s ∨ s' = s.drop) := by
  obtain ⟨hj, -⟩ := List.getElem?_eq_some_iff.mp hs'
  have hs := List.getElem?_eq_getElem (h.1 ▸ hj : j < l.length)
  refine ⟨_, hs, ?_⟩
  rcases h.2 j _ hs with hr | hr
  · exact .inl (Option.some.inj (hs'.symm.trans hr))
  · exact .inr (Option.some.inj (hs'.symm.trans hr))

theorem map (l : List LiveSource) (p : LiveSource → Bool) :
    Sheds l (l.map fun s => if p s then s.drop else s) := by
  refine ⟨List.length_map .., fun j s hs => ?_⟩
  rw [List.getElem?_map, hs, Option.map_some]
  split
  · exact .inr rfl
  · exact .inl rfl

theorem modify (l : List LiveSource) (i : ℕ) : Sheds l (l.modify i LiveSource.drop) := by
  refine ⟨List.length_modify .., fun j s hs => ?_⟩
  rw [Lists.getElem?_modify_of_some i hs]
  split
  · exact .inr rfl
  · exact .inl rfl

theorem tearDownStation (w : Station) : Sheds w.sources w.tearDownStation.sources :=
  map w.sources LiveSource.cached

theorem autoClose (w : Station) : Sheds w.sources w.autoClose.sources := by
  unfold Station.autoClose
  split
  · exact tearDownStation w
  · exact refl _

theorem release (w : Station) : Sheds w.sources w.release.sources := by
  unfold Station.release
  dsimp only
  split
  · exact autoClose { w with manager := w.manager.release w.battery }
  · exact refl _

theorem disposeSource (w : Station) (i : ℕ) : Sheds w.sources (w.disposeSource i).sources := by
  unfold Station.disposeSource
  dsimp only
  split
  · exact (modify w.sources i).trans (release _)
  · exact modify w.sources i

theorem dropLiveSource (w : Station) (channel : ℕ) :
    Sheds w.sources (w.dropLiveSource channel).sources := by
  unfold Station.dropLiveSource
  split
  · exact disposeSource w _
  · exact refl _

theorem dropStopped (w : Station) (channel : ℕ) :
    Sheds w.sources (w.dropStopped channel).sources := by
  unfold Station.dropStopped
  split
  · exact dropLiveSource w channel
  · exact refl _

theorem releaseLingeringSiblings (w : Station) (channel : ℕ) :
    Sheds w.sources (w.releaseLingeringSiblings channel).sources :=
  map w.sources _

end Sheds

theorem sources_close (w : Station) : w.close.sources = w.sources := by
  unfold Station.close Station.closeSession?
  split
  · rfl
  · rfl

theorem sources_acquire (w : Station) (t : ℕ) : (w.acquire t).sources = w.sources := by
  unfold Station.acquire
  dsimp only
  split
  · split
    · rfl
    · split
      · rfl
      · rfl
  · rfl

theorem sources_resume (w : Station) (t : ℕ) (task : Task) :
    (w.resume t task).sources = w.sources := by
  unfold Station.resume
  split
  · rfl
  · split
    · rfl
    · split
      · exact sources_close w
      · rfl

theorem sources_attach (w : Station) (i : ℕ) (s : Source) : (w.attach i s).sources =
    w.sources.modify i fun s => { s with source := s.source.join.joined } := by
  unfold Station.attach
  dsimp only
  split
  · exact List.modify_modify_eq ..
  · exact List.modify_modify_eq ..

theorem Sheds.of_eq {l r : List LiveSource} (h : r = l) : Sheds l r := h ▸ Sheds.refl l

theorem sheds_onLiveStartFailed (w : Station) (device : Device) :
    Sheds w.sources (w.onLiveStartFailed device).sources := by
  unfold Station.onLiveStartFailed
  split
  · exact .of_eq (sources_close w)
  · exact Sheds.dropLiveSource w device.channel

theorem sheds_teardownSource {w : Station} {i : ℕ} {s : LiveSource} (hs : w.sources[i]? = some s) :
    Sheds (w.modifySource i Source.teardown).sources (w.teardownSource i).sources := by
  unfold Station.teardownSource
  simp only [hs]
  split
  · exact sheds_onLiveStartFailed _ _
  · exact .refl _

/-! ## Steps -/

/-- What a step does to the sources. -/
inductive Touches (w : Station) : Label → Station → Prop
  | sheds {label : Label} {v : Station} (h : Sheds w.sources v.sources) : Touches w label v
  | attach {i : ℕ} {s : LiveSource} (hs : w.sources[i]? = some s)
      (hopen : s.source.disposed = false) : Touches w (.attach i) (w.attach i s.source)
  | detach {i : ℕ} {s : LiveSource} (hs : w.sources[i]? = some s)
      (hpos : 0 < s.source.consumers) : Touches w (.detach i) (w.detach i s.source)
  | video {i : ℕ} {s : LiveSource} {keyframe : Bool} (hs : w.sources[i]? = some s)
      (hstream : s.source.stream = true) :
      Touches w (.video i keyframe) (w.modifySource i (Source.onVideo · keyframe))
  | audio {i : ℕ} {s : LiveSource} (hs : w.sources[i]? = some s)
      (hstream : s.source.stream = true) : Touches w (.audio i) (w.modifySource i Source.onAudio)
  | teardown {i : ℕ} {s : LiveSource} (hs : w.sources[i]? = some s)
      (hends : s.source.lingerTimer = true ∨ s.source.disposed = false ∧ s.source.stream = true) :
      Touches w (.teardown i) (w.teardownSource i)
  | unacknowledged {i : ℕ} {s : LiveSource} (hs : w.sources[i]? = some s)
      (hstream : s.source.stream = true) : Touches w (.unacknowledged i) (w.unacknowledged i s)
  | hands {t i : ℕ} {device : Device} {rebuilt : Bool}
      (htask : w.tasks[t]? = some ⟨.live device, rebuilt, .resolved i⟩) :
      Touches w (.proceed t) ((w.handOver device i).1.setStage t .done)
  | replaces {t i source : ℕ} {rebuilt : Bool}
      (htask : w.tasks[t]? = some ⟨.replace source, rebuilt, .resolved i⟩) :
      Touches w (.proceed t) ((w.replaced source i).setStage t .done)

theorem touches_of_step {w v : Station} {label : Label} (hstep : step w label = some v) :
    Touches w label v := by
  have hsame : ∀ {v : Station}, v.sources = w.sources → Touches w label v :=
    fun h => .sheds (.of_eq h)
  cases transition_of_step hstep with
  | live | command | prewarm | ensureStation => exact hsame (sources_acquire _ _)
  | register | bound | boundLate | openFails => exact hsame rfl
  | resume => exact hsame (sources_resume w _ _)
  | ready | gaveUp => exact hsame rfl
  | afterClose =>
    unfold Station.afterClose
    split
    · exact .sheds (Sheds.dropLiveSource w _)
    · exact hsame (sources_acquire w _)
  | proceed htask =>
    unfold Station.proceed
    split
    · exact .hands htask
    · exact .replaces htask
    · exact hsame rfl
  | attach hs hopen => exact .attach hs hopen
  | detach hs hpos => exact .detach hs hpos
  | video hs hstream => exact .video hs hstream
  | audio hs hstream => exact .audio hs hstream
  | teardown hs hends => exact .teardown hs hends
  | unacknowledged hs hstream => exact .unacknowledged hs hstream
  | holdExpires => exact .sheds (Sheds.release { w with manager := _ })
  | idleCloses => exact .sheds (Sheds.autoClose { w with manager := _ })
  | resetNow => exact .sheds (Sheds.autoClose w)
  | idleRetained | resetLater | resetNothing => exact hsame rfl
  | powered | connects | pathAnswers | closes => exact hsame rfl
  | closeEvent => exact .sheds (Sheds.tearDownStation w)
  | closeEventStale => exact hsame rfl

/-! ## What every run keeps -/

theorem Source.joined_disposed (s : Source) : s.joined.disposed = s.disposed := by
  unfold Source.joined Source.cancelLinger Source.watchReusedStream
  grind [Source.warm, Source.openStream, Source.armWarmWatch]

theorem Source.onVideo_disposed (s : Source) (keyframe : Bool) :
    (s.onVideo keyframe).disposed = s.disposed := by
  unfold Source.onVideo Source.settleReuseWatch
  grind [Source.clearWarmWatch]

theorem Source.onAudio_disposed (s : Source) : s.onAudio.disposed = s.disposed := by
  unfold Source.onAudio Source.settleReuseWatch
  grind [Source.clearWarmWatch]

theorem Source.rewarm_disposed (s : Source) : s.rewarm.disposed = s.disposed := by
  unfold Source.rewarm
  grind [Source.openStream]

/-- A source is sound, and cached until it is disposed; there is one cached for a channel. -/
structure Cached (w : Station) : Prop where
  sound : ∀ (j : ℕ) s, w.sources[j]? = some s → s.source.Sound
  cached : ∀ (j : ℕ) s, w.sources[j]? = some s → s.cached = !s.source.disposed
  unique : ∀ (j k : ℕ) s r, w.sources[j]? = some s → w.sources[k]? = some r →
    s.cached = true → r.cached = true → s.device.channel = r.device.channel → j = k

namespace Cached

variable {w v : Station} {i : ℕ} {s : LiveSource}

theorem start : Cached {} where
  sound j s hs := by simp at hs
  cached j s hs := by simp at hs
  unique j k s r hs := by simp at hs

theorem of_eq (h : Cached w) (hsources : v.sources = w.sources) : Cached v := by
  refine ⟨?_, ?_, ?_⟩
  · rw [hsources]
    exact h.sound
  · rw [hsources]
    exact h.cached
  · rw [hsources]
    exact h.unique

/-- Where sources come from that are sound, and cached until disposed. -/
theorem of_back (h : Cached w) (hback : ∀ (j : ℕ) s', v.sources[j]? = some s' →
    ∃ s, w.sources[j]? = some s ∧ (s'.cached = true → s.cached = true) ∧ s'.device = s.device ∧
      s'.source.Sound ∧ s'.cached = !s'.source.disposed) : Cached v where
  sound j s' hs' := by
    obtain ⟨-, -, -, -, hsound, -⟩ := hback j s' hs'
    exact hsound
  cached j s' hs' := by
    obtain ⟨-, -, -, -, -, hcached⟩ := hback j s' hs'
    exact hcached
  unique j k s' r' hs' hr' hscached hrcached hchannel := by
    obtain ⟨s, hs, hsc, hsd, -⟩ := hback j s' hs'
    obtain ⟨r, hr, hrc, hrd, -⟩ := hback k r' hr'
    rw [hsd, hrd] at hchannel
    exact h.unique j k s r hs hr (hsc hscached) (hrc hrcached) hchannel

theorem drop_sound {s : LiveSource} (h : s.source.Sound) :
    s.drop.source.Sound ∧ s.drop.cached = !s.drop.source.disposed := by
  unfold LiveSource.drop
  cases hdisposed : s.source.disposed with
  | false => exact ⟨Source.Sound.dispose s.source, rfl⟩
  | true => exact ⟨h, by simp [hdisposed]⟩

theorem sheds (h : Cached w) (hsheds : Sheds w.sources v.sources) : Cached v := by
  refine h.of_back fun j s' hs' => ?_
  obtain ⟨s, hs, rfl | rfl⟩ := hsheds.back hs'
  · exact ⟨s', hs, id, rfl, h.sound j s' hs, h.cached j s' hs⟩
  · exact ⟨s, hs, fun hcached => (by cases hcached), rfl, drop_sound (h.sound j s hs)⟩

/-- A source changes that is not disposed by it, and some are dropped then. -/
theorem modify (h : Cached w) {u : Station} (hs : w.sources[i]? = some s) {f : Source → Source}
    (hu : u.sources = w.sources.modify i fun s => { s with source := f s.source })
    (hsheds : Sheds u.sources v.sources) (hsound : (f s.source).Sound)
    (hdisposed : (f s.source).disposed = s.source.disposed) : Cached v := by
  refine sheds (w := u) (h.of_back fun j s' hs' => ?_) hsheds
  rw [hu] at hs'
  obtain ⟨rfl, rfl⟩ | ⟨-, hr⟩ := Lists.getElem?_modify_known hs hs'
  · refine ⟨s, hs, id, rfl, hsound, ?_⟩
    rw [hdisposed]
    exact h.cached j s hs
  · exact ⟨s', hr, id, rfl, h.sound j s' hr, h.cached j s' hr⟩

/-- A fresh source is cached for a channel that has none. -/
theorem fresh (h : Cached w) {device : Device} {session : ℕ}
    (hnone : w.liveSource? device.channel = none)
    (hsources : v.sources = w.sources ++ [⟨device, session, true, {}⟩]) : Cached v := by
  have hother := liveSource?_eq_none.mp hnone
  have hback : ∀ {j : ℕ} {s' : LiveSource}, v.sources[j]? = some s' →
      (j = w.sources.length ∧ s' = ⟨device, session, true, {}⟩) ∨ w.sources[j]? = some s' := by
    intro j s' hs'
    rw [hsources] at hs'
    exact Lists.getElem?_append_cases hs'
  refine ⟨fun j s' hs' => ?_, fun j s' hs' => ?_, fun j k s' r' hs' hr' hsc hrc hchannel => ?_⟩
  · rcases hback hs' with ⟨-, rfl⟩ | hold
    · exact Source.sound_start
    · exact h.sound j s' hold
  · rcases hback hs' with ⟨-, rfl⟩ | hold
    · rfl
    · exact h.cached j s' hold
  · rcases hback hs' with ⟨hj, rfl⟩ | hold
    · rcases hback hr' with ⟨hk, -⟩ | hold'
      · rw [hj, hk]
      · exact absurd hchannel.symm (hother r' (List.mem_of_getElem? hold') hrc)
    · rcases hback hr' with ⟨-, rfl⟩ | hold'
      · exact absurd hchannel (hother s' (List.mem_of_getElem? hold) hsc)
      · exact h.unique j k s' r' hold hold' hsc hrc hchannel

/-- The cached source of a channel is the one `liveSources` has. -/
theorem liveSource?_eq (h : Cached w) {channel : ℕ} (hs : w.sources[i]? = some s)
    (hcached : s.cached = true) (hchannel : s.device.channel = channel) :
    w.liveSource? channel = some i := by
  cases hlive : w.liveSource? channel with
  | none =>
    exact absurd hchannel (liveSource?_eq_none.mp hlive s (List.mem_of_getElem? hs) hcached)
  | some k =>
    obtain ⟨r, hr, hrcached, hrchannel⟩ := liveSource?_eq_some hlive
    rw [h.unique k i r s hr hs hrcached hcached (hrchannel.trans hchannel.symm)]

/-- What is dropped for a key is the source that is cached for it, and what the release that
comes with it takes along. -/
theorem dropLiveSource_get (h : Cached w) {channel j : ℕ} (hs : w.sources[j]? = some s) (hchannel : s.device.channel = channel) :
    (w.dropLiveSource channel).sources[j]? =
      some (if w.liveSource? channel = some j then s.drop else s) := by
  unfold Station.dropLiveSource
  cases hlive : w.liveSource? channel with
  | none =>
    rw [if_neg (by simp)]
    exact hs
  | some i =>
    have hdropped : (w.sources.modify i LiveSource.drop)[j]? = some (if i = j then s.drop else s) :=
      Lists.getElem?_modify_of_some i hs
    have hrest : Sheds (w.sources.modify i LiveSource.drop) (w.disposeSource i).sources := by
      unfold Station.disposeSource
      dsimp only
      split
      · exact Sheds.release _
      · exact .refl _
    by_cases hij : i = j
    · subst hij
      rw [if_pos rfl] at hdropped ⊢
      rcases hrest.2 i _ hdropped with hr | hr
      · exact hr
      · rw [LiveSource.drop_drop] at hr
        exact hr
    · rw [if_neg hij] at hdropped
      rw [if_neg fun heq => hij (Option.some.inj heq)]
      -- the other sources of the channel are not cached, so nothing takes them along
      have huncached : s.cached = false := by
        by_contra hcached
        rw [Bool.not_eq_false] at hcached
        exact hij (Option.some.inj (hlive.symm.trans (h.liveSource?_eq hs hcached hchannel)))
      have hsame : s.drop = s := by
        have hdisposed := h.cached j s hs
        rw [huncached] at hdisposed
        obtain ⟨device, held, cached, source⟩ := s
        obtain rfl : cached = false := huncached
        rw [LiveSource.drop, if_pos (by simpa using hdisposed.symm)]
      rcases hrest.2 j _ hdropped with hr | hr
      · exact hr
      · rw [hsame] at hr
        exact hr

theorem attach (h : Cached w) (hs : w.sources[i]? = some s) (hopen : s.source.disposed = false) :
    Cached (w.attach i s.source) := by
  refine h.modify (f := fun s => s.join.joined) hs (sources_attach w i s.source) (.refl _)
    ((h.sound i s hs).joined hopen) ?_
  rw [Source.joined_disposed]
  rfl

theorem detach (h : Cached w) (hs : w.sources[i]? = some s) (hpos : 0 < s.source.consumers) :
    Cached (w.detach i s.source) := by
  have hsound := h.sound i s hs
  unfold Station.detach
  dsimp only
  split
  · rename_i hlast
    rw [Bool.and_eq_true, decide_eq_true_eq] at hlast
    refine h.of_back fun j s' hs' => ?_
    have hback := Sheds.release (w.modifySource i Source.leave)
    rcases Lists.getElem?_modify_cases hs' with ⟨rfl, r, hr, rfl⟩ | ⟨hne, hr⟩
    · obtain ⟨a, ha, hra⟩ := hback.back hr
      have hleft : (w.sources.modify j fun s => { s with source := s.source.leave })[j]? =
          some { s with source := s.source.leave } :=
        (List.getElem?_modify_eq ..).trans (congrArg (Option.map _) hs)
      obtain rfl := Option.some.inj (ha.symm.trans hleft)
      rcases hra with rfl | rfl
      · refine ⟨s, hs, id, rfl, hsound.arm ?_, h.cached j s hs⟩
        rw [hlast.1]
      · refine ⟨s, hs, fun hcached => (by cases hcached), rfl, ?_⟩
        have hopen : s.source.leave.disposed = false := by
          rw [Bool.not_eq_true'] at hlast
          exact hlast.2
        unfold LiveSource.drop
        dsimp only
        rw [hopen, if_neg Bool.false_ne_true]
        exact ⟨Source.Sound.recycled s.source, rfl⟩
    · obtain ⟨a, ha, hra⟩ := hback.back hr
      have hold : w.sources[j]? = some a := (List.getElem?_modify_ne _ _ hne.symm).symm.trans ha
      rcases hra with rfl | rfl
      · exact ⟨s', hold, id, rfl, h.sound j s' hold, h.cached j s' hold⟩
      · exact ⟨a, hold, fun hcached => (by cases hcached), rfl, drop_sound (h.sound j a hold)⟩
  · rename_i hlast
    refine h.modify (f := Source.leave) hs rfl (.refl _) (hsound.leave fun hzero => hlast ?_) rfl
    cases hdisposed : s.source.disposed with
    | true =>
      rw [(hsound.disposed hdisposed).2] at hpos
      cases hpos
    | false =>
      rw [Bool.not_false, Bool.and_true, decide_eq_true_eq]
      omega

theorem teardownSource (h : Cached w) (hs : w.sources[i]? = some s) :
    Cached (w.teardownSource i) := by
  refine h.modify (u := w.modifySource i Source.teardown) (f := Source.teardown) hs rfl ?_ (h.sound i s hs).teardown rfl
  exact sheds_teardownSource hs

theorem unacknowledged (h : Cached w) (hs : w.sources[i]? = some s) :
    Cached (w.unacknowledged i s) := by
  unfold Station.unacknowledged
  split
  · refine h.modify (u := w.modifySource i Source.askSession) (f := Source.askSession) hs rfl ?_
      (h.sound i s hs).askSession rfl
    dsimp only
    split
    · exact .of_eq (sources_close _)
    · exact .refl _
  · exact h

theorem handOver (h : Cached w) (device : Device) (session : ℕ) :
    Cached (w.handOver device session).1 := by
  have hfreed := h.sheds ((Sheds.dropStopped w device.channel).trans
    (Sheds.releaseLingeringSiblings (w.dropStopped device.channel) device.channel))
  unfold Station.handOver
  dsimp only
  split
  · exact hfreed
  · split
    · exact hfreed
    · rename_i hnone
      exact hfreed.fresh hnone rfl

theorem replaced (h : Cached w) (source session : ℕ) : Cached (w.replaced source session) := by
  unfold Station.replaced
  split
  · split
    · rename_i s hs _ j hj
      have hheld : Cached { w with
          sources := w.sources.modify source fun s => { s with held := session } } := by
        refine h.of_back fun k r' hr' => ?_
        rcases Lists.getElem?_modify_cases hr' with ⟨rfl, r, hr, rfl⟩ | ⟨-, hr⟩
        · exact ⟨r, hr, id, rfl, h.sound k r hr, h.cached k r hr⟩
        · exact ⟨r', hr, id, rfl, h.sound k r' hr, h.cached k r' hr⟩
      obtain ⟨r, hr, -⟩ := liveSource?_eq_some hj
      have hr' := Lists.getElem?_modify_of_some (f := fun s => { s with held := session }) source hr
      exact hheld.modify hr' rfl (.refl _) (hheld.sound _ _ hr').rewarm (Source.rewarm_disposed _)
    · exact h
  · exact h

theorem step (h : Cached w) {label : Label} (hstep : P2PCommandRouter.step w label = some v) :
    Cached v := by
  cases touches_of_step hstep with
  | sheds hsheds => exact h.sheds hsheds
  | attach hs hopen => exact h.attach hs hopen
  | detach hs hpos => exact h.detach hs hpos
  | video hs hstream =>
    exact h.modify (f := (Source.onVideo · _)) hs rfl (.refl _) ((h.sound _ _ hs).onVideo hstream _)
      (Source.onVideo_disposed _ _)
  | audio hs hstream =>
    exact h.modify hs rfl (.refl _) ((h.sound _ _ hs).onAudio hstream) (Source.onAudio_disposed _)
  | teardown hs => exact h.teardownSource hs
  | unacknowledged hs => exact h.unacknowledged hs
  | hands htask => exact (h.handOver _ _).of_eq rfl
  | replaces htask => exact (h.replaced _ _).of_eq rfl

/-- **Run lemma.** -/
theorem run {labels : List Label} (hexec : exec P2PCommandRouter.step {} labels = some w) :
    Cached w :=
  (run_of_exec hexec).invariant start fun _ _ _ h hstep => h.step hstep

end Cached

end EufySdk.P2PCommandRouter
