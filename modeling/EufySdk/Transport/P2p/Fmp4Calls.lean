import Mathlib.Tactic
import EufySdk.Transport.P2p.Fmp4Fragment

/-!
# What a call of the muxer does

The muxer closes a fragment in `push` and in `flush`, and builds the initialisation segment in any
of its calls. An invariant that every call keeps says that nothing is queued that cannot be
written: samples only behind parameter sets that fit their fields, audio only for a track.

- `Sound` — the invariant
- `Writable` — a muxer whose open fragment fits the fields of its boxes
- `closeFragment_ok`, `openInit_ok`, `announceInit_ok` — the places where segments are built
-/

namespace EufySdk

open Bytes IsoBox

/-- An initialisation segment, where there is one, that is boxes all the way down. -/
def NestedInit (init : Option Buffer) : Prop := ∀ bytes, init = some bytes → Nested containers bytes

/-- The largest timestamp that is exact, either way. -/
def SafeTime (t : ℚ) : Prop := -2 ^ 53 ≤ t ∧ t ≤ 2 ^ 53

/-- A decode time as the 64 bits it is written in. -/
def wholeTime (time : ℚ) : ℕ := time.num.toNat

/-- A decode time that can be written. -/
def Whole (time : ℚ) : Prop := time = wholeTime time ∧ wholeTime time < 2 ^ 64

theorem whole_natCast {n : ℕ} (h : n < 2 ^ 64) : Whole n := by
  have htime : wholeTime n = n := by
    rw [wholeTime, Rat.num_natCast, Int.toNat_natCast]
  exact ⟨by rw [htime], by rw [htime]; exact h⟩

/-- The rounded distance of two timestamps, the later one first. -/
theorem whole_mathRound {a b : ℚ} {rate : ℕ} (ha : SafeTime a) (hb : SafeTime b) (hle : b ≤ a)
    (hrate : rate ≤ 90000) : Whole (mathRound ((a - b) * (rate / 1000))) := by
  have hrateQ : (rate : ℚ) ≤ 90000 := by exact_mod_cast hrate
  have hnonneg : 0 ≤ (a - b) * ((rate : ℚ) / 1000) :=
    mul_nonneg (by linarith) (by positivity)
  have hbound : (a - b) * ((rate : ℚ) / 1000) ≤ 2 ^ 54 * 90 := by
    obtain ⟨-, ha⟩ := ha
    obtain ⟨hb, -⟩ := hb
    have hdist : a - b ≤ 2 ^ 54 := by linarith
    have hscale : (rate : ℚ) / 1000 ≤ 90 := by linarith
    exact mul_le_mul hdist hscale (by positivity) (by positivity)
  obtain ⟨n, hn⟩ : ∃ n : ℕ, mathRound ((a - b) * (rate / 1000)) = n :=
    Int.eq_ofNat_of_zero_le (Int.floor_nonneg.mpr (by linarith))
  have hlt : n < 2 ^ 64 := by
    have hfloor : ((mathRound ((a - b) * (rate / 1000)) : ℤ) : ℚ) ≤
        (a - b) * (rate / 1000) + 1 / 2 := Int.floor_le _
    rw [hn] at hfloor
    have : (n : ℚ) < 2 ^ 64 := by
      push_cast at hfloor
      linarith
    exact_mod_cast this
  rw [hn]
  exact_mod_cast whole_natCast hlt

namespace Fmp4Muxer

/-- The bytes the open fragment takes for its samples. -/
def queuedSize (s : Fmp4Muxer) : ℕ :=
  ((s.samples ++ s.audioSamples).map fun sample => 12 + sample.data.length).sum

/-- A muxer whose open fragment fits the fields of its boxes: the decode times are whole numbers
of 64 bits, and offsets are within 31 bits. -/
structure Writable (s : Fmp4Muxer) : Prop where
  videoTime : Whole s.baseDecodeTime
  audioTime : s.audioSamples ≠ [] → Whole s.audioBaseDecodeTime
  size : s.queuedSize + 160 < 2 ^ 31

/-- Nothing is queued that cannot be written. -/
structure Sound (s : Fmp4Muxer) : Prop where
  described : s.params ≠ none → s.Described
  started : s.samples ≠ [] → s.params ≠ none
  track : s.audioSamples ≠ [] → s.hasAudioTrack = true
  requested : s.audioCodec ≠ none → s.audioRequested = true
  firstVideo : ∀ t, s.firstVideoTimestampMs = some t → SafeTime t
  firstAudio : ∀ t, s.firstAudioTimestampMs = some t → SafeTime t

/-- The runs of the open fragment. -/
def runs (s : Fmp4Muxer) : List MovieFragment.Run :=
  writtenRuns (wholeTime s.baseDecodeTime) (wholeTime s.audioBaseDecodeTime) s.samples
    s.audioSamples

/-- The muxer behind a fragment. -/
def cleared (s : Fmp4Muxer) : Fmp4Muxer := s.taken.advance s.samples s.audioSamples

/-- The muxer behind its initialisation segment. -/
def opened (s : Fmp4Muxer) : Fmp4Muxer := { s.alignTimeline with initSent := true }

/-- The muxer when it starts to write a fragment: a source without audio by then has none. -/
def settled (s : Fmp4Muxer) : Fmp4Muxer :=
  if s.initSent then s else { s with audioDisabled := s.audioCodec.isNone }.opened

/-! ## The time line -/

/-- Aligning changes the origin and the two decode times. -/
theorem alignTimeline_eq (s : Fmp4Muxer) : ∃ origin video audio aligned,
    s.alignTimeline = { s with
      timelineOriginMs := origin
      baseDecodeTime := video
      audioBaseDecodeTime := audio
      timelineAligned := aligned } := by
  rw [alignTimeline]
  split
  · exact ⟨_, _, _, _, rfl⟩
  · exact ⟨_, _, _, _, rfl⟩

/-- What decode times are whole before they are aligned, are so afterwards. -/
theorem whole_alignTimeline {s : Fmp4Muxer}
    (hfirstVideo : ∀ t, s.firstVideoTimestampMs = some t → SafeTime t)
    (hfirstAudio : ∀ t, s.firstAudioTimestampMs = some t → SafeTime t) :
    (Whole s.baseDecodeTime → Whole s.alignTimeline.baseDecodeTime) ∧
      (Whole s.audioBaseDecodeTime → Whole s.alignTimeline.audioBaseDecodeTime) := by
  rw [alignTimeline]
  split
  · next first _ hfirst =>
    have hvideo := hfirstVideo first hfirst
    cases haudio : s.firstAudioTimestampMs with
    | none =>
      simp only [Option.getD_none, min_self]
      exact ⟨fun _ => whole_mathRound hvideo hvideo le_rfl (by decide),
        fun _ => whole_mathRound hvideo hvideo le_rfl (by decide)⟩
    | some audio =>
      have haudioTime := hfirstAudio audio haudio
      simp only [Option.getD_some]
      have hmin : SafeTime (min first audio) := by
        rcases min_choice first audio with hmin | hmin
        · exact hmin.symm ▸ hvideo
        · exact hmin.symm ▸ haudioTime
      exact ⟨fun _ => whole_mathRound hvideo hmin (min_le_left _ _) (by decide),
        fun _ => whole_mathRound haudioTime hmin (min_le_right _ _) (by decide)⟩
  · exact ⟨id, id⟩

theorem sound_opened {s : Fmp4Muxer} (h : s.Sound) : s.opened.Sound := by
  obtain ⟨origin, video, audio, aligned, heq⟩ := s.alignTimeline_eq
  rw [opened, heq]
  exact {
    described := fun hp => ⟨(h.described hp).params, (h.described hp).width, (h.described hp).height⟩
    started := h.started
    track := h.track
    requested := h.requested
    firstVideo := h.firstVideo
    firstAudio := h.firstAudio }

/-- Giving up on audio that never came leaves no audio behind. -/
theorem sound_settled {s : Fmp4Muxer} (h : s.Sound) : s.settled.Sound := by
  rw [settled]
  split
  · exact h
  · refine sound_opened {
      described := fun hp =>
        ⟨(h.described hp).params, (h.described hp).width, (h.described hp).height⟩
      started := h.started
      track := fun hne => ?_
      requested := h.requested
      firstVideo := h.firstVideo
      firstAudio := h.firstAudio }
    have htrack := h.track hne
    rw [hasAudioTrack, Bool.and_eq_true] at htrack ⊢
    exact ⟨htrack.1, by simpa using htrack.1⟩

theorem sound_cleared {s : Fmp4Muxer} (h : s.Sound) : s.cleared.Sound where
  described := fun hp => ⟨(h.described hp).params, (h.described hp).width, (h.described hp).height⟩
  started := fun hne => absurd rfl hne
  track := fun hne => absurd rfl hne
  requested := h.requested
  firstVideo := h.firstVideo
  firstAudio := h.firstAudio

/-- What is queued stays queued when the initialisation segment is sent. -/
theorem settled_eq (s : Fmp4Muxer) : ∃ origin video audio aligned disabled,
    s.settled = { s with
      initSent := true
      timelineOriginMs := origin
      baseDecodeTime := video
      audioBaseDecodeTime := audio
      timelineAligned := aligned
      audioDisabled := disabled } := by
  rw [settled]
  split
  · next hsent =>
    refine ⟨s.timelineOriginMs, s.baseDecodeTime, s.audioBaseDecodeTime, s.timelineAligned,
      s.audioDisabled, ?_⟩
    cases s
    cases hsent
    rfl
  · obtain ⟨origin, video, audio, aligned, heq⟩ :=
      alignTimeline_eq { s with audioDisabled := s.audioCodec.isNone }
    exact ⟨origin, video, audio, aligned, s.audioCodec.isNone, by rw [opened, heq]⟩

theorem writable_settled {s : Fmp4Muxer} (h : s.Sound) (hw : s.Writable) :
    s.settled.Writable := by
  have hsize : s.settled.queuedSize = s.queuedSize := by
    obtain ⟨origin, video, audio, aligned, disabled, heq⟩ := s.settled_eq
    rw [heq]
    rfl
  have haudio : s.settled.audioSamples = s.audioSamples := by
    obtain ⟨origin, video, audio, aligned, disabled, heq⟩ := s.settled_eq
    rw [heq]
  have hwhole : Whole s.settled.baseDecodeTime ∧
      (Whole s.audioBaseDecodeTime → Whole s.settled.audioBaseDecodeTime) := by
    rw [settled]
    split
    · exact ⟨hw.videoTime, id⟩
    · have halign := whole_alignTimeline (s := { s with audioDisabled := s.audioCodec.isNone })
        h.firstVideo h.firstAudio
      exact ⟨halign.1 hw.videoTime, halign.2⟩
  exact ⟨hwhole.1, fun hne => hwhole.2 (hw.audioTime (haudio ▸ hne)), hsize ▸ hw.size⟩

/-! ## Segments -/

theorem length_encode_runs (s : Fmp4Muxer) :
    (MovieFragment.encode s.seq s.runs).length ≤ s.queuedSize + 160 := by
  have hqueue (samples : List Sample) : (samples.map fun x => 12 + x.data.length).sum =
      12 * samples.length + (samples.flatMap Sample.data).length := by
    induction samples with
    | nil => rfl
    | cons x samples ih =>
      rw [List.map_cons, List.sum_cons, ih, List.length_cons, List.flatMap_cons, List.length_append]
      omega
  rw [MovieFragment.length_encode, MovieFragment.dataStart_eq, queuedSize, List.map_append,
    List.sum_append, hqueue, hqueue, runs, writtenRuns]
  by_cases hempty : s.audioSamples = []
  · rw [if_pos hempty, List.flatMap_cons, data_writtenRun, List.flatMap_nil, List.append_nil]
    simp only [MovieFragment.indexed, List.map_cons, List.map_nil, List.sum_cons, List.sum_nil,
      writtenRun, List.length_map]
    omega
  · rw [if_neg hempty, List.flatMap_cons, data_writtenRun, List.flatMap_cons, data_writtenRun,
      List.flatMap_nil, List.append_nil, List.length_append]
    simp only [MovieFragment.indexed, List.map_cons, List.map_nil, List.sum_cons, List.sum_nil,
      writtenRun, List.length_map]
    omega

theorem fits_runs {s : Fmp4Muxer} (hw : s.Writable) : ∀ run ∈ s.runs, run.Fits := by
  intro run hrun
  rw [runs, writtenRuns] at hrun
  cases List.mem_cons.mp hrun with
  | inl heq =>
    rw [heq]
    exact fits_writtenRun (by decide) hw.videoTime.2
  | inr hmem =>
    split at hmem
    · cases hmem
    · next hne =>
      rw [List.mem_singleton.mp hmem]
      exact fits_writtenRun (by decide) (hw.audioTime hne).2

/-- A player finds the open fragment in the bytes written for it. -/
theorem read_runs {s : Fmp4Muxer} (hw : s.Writable) :
    MovieFragment.read (MovieFragment.encode s.seq s.runs) = some s.runs :=
  MovieFragment.read_encode (fits_runs hw) (lt_of_le_of_lt s.length_encode_runs hw.size)

theorem nested_runs {s : Fmp4Muxer} (hw : s.Writable) :
    Nested containers (MovieFragment.encode s.seq s.runs) := by
  have hlength := s.length_encode_runs
  have hsize := hw.size
  exact MovieFragment.nested_encode (by omega)

theorem buildFragment_ok {s : Fmp4Muxer} (h : s.Sound) (hw : s.Writable) :
    s.buildFragment = (.ok (MovieFragment.encode s.seq s.runs), s.cleared) := by
  have hsize : (MovieFragment.encode s.seq s.runs).length < 2 ^ 31 :=
    lt_of_le_of_lt s.length_encode_runs hw.size
  have hbytes : s.taken.fragmentBytes s.seq s.samples s.audioSamples =
      .ok (MovieFragment.encode s.seq s.runs) :=
    fragmentBytes_ok hw.videoTime.1 hw.videoTime.2
      (fun hne => ⟨(hw.audioTime hne).1, (hw.audioTime hne).2⟩) h.track hsize
  rw [buildFragment, hbytes]
  rfl

theorem settleInit_ok {s : Fmp4Muxer} (h : s.Sound) (hparams : s.params ≠ none) :
    ∃ init, s.settleInit = (.ok init, s.settled) ∧ NestedInit init ∧
      init.isSome = !s.initSent := by
  rw [settleInit, settled]
  by_cases hsent : s.initSent = true
  · exact ⟨none, by rw [if_pos hsent, if_pos hsent], nofun, by rw [hsent]; rfl⟩
  · have hdescribed := h.described hparams
    obtain ⟨bytes, hbytes, hnested⟩ := buildInit_ok
      (s := { s with audioDisabled := s.audioCodec.isNone })
      ⟨hdescribed.params, hdescribed.width, hdescribed.height⟩
    refine ⟨some bytes, ?_, ?_, by rw [Bool.not_eq_true] at hsent; rw [hsent]; rfl⟩
    · rw [if_neg hsent, if_neg hsent, hbytes]
      rfl
    · intro b hb
      obtain rfl := Option.some.inj hb
      exact hnested

/-- **Closing a fragment** writes the queues. -/
theorem closeFragment_ok {s : Fmp4Muxer} (h : s.Sound) (hparams : s.params ≠ none)
    (hw : s.Writable) :
    ∃ init, s.closeFragment =
        (.ok (init, MovieFragment.encode s.settled.seq s.settled.runs), s.settled.cleared) ∧
      NestedInit init ∧ init.isSome = !s.initSent := by
  obtain ⟨init, hinit, hnested, hsome⟩ := settleInit_ok h hparams
  have hbuild := buildFragment_ok (sound_settled h) (writable_settled h hw)
  exact ⟨init, by rw [closeFragment, hinit, Outcome.bind_ok, hbuild, Outcome.bind_ok], hnested,
    hsome⟩

/-! ## The initialisation segment by itself -/

/-- Whether the initialisation segment is sent behind this access unit. -/
def ready (s : Fmp4Muxer) : Bool :=
  !s.initSent && (!s.audioRequested || s.audioCodec.isSome || s.audioDisabled)

theorem openInit_ok {s : Fmp4Muxer} (h : s.Sound) (hparams : s.params ≠ none)
    {init : Option Buffer} (hinit : NestedInit init) :
    ∃ sent, s.openInit init = (.ok sent, if s.ready then s.opened else s) ∧ NestedInit sent ∧
      sent.isSome = (s.ready || init.isSome) := by
  by_cases hready : s.ready = true
  · obtain ⟨bytes, hbytes, hnested⟩ := buildInit_ok (h.described hparams)
    refine ⟨some bytes, ?_, ?_, by rw [hready]; rfl⟩
    · rw [if_pos hready]
      rw [ready] at hready
      rw [openInit, if_pos hready, hbytes]
      rfl
    · intro b hb
      obtain rfl := Option.some.inj hb
      exact hnested
  · refine ⟨init, ?_, hinit, ?_⟩
    · rw [if_neg hready]
      rw [ready] at hready
      rw [openInit, if_neg hready]
    · rw [Bool.not_eq_true] at hready
      rw [hready, Bool.false_or]

theorem opened_eq (s : Fmp4Muxer) : { s with initSent := true }.alignTimeline = s.opened := by
  cases haligned : s.timelineAligned <;> cases hfirst : s.firstVideoTimestampMs <;>
    simp [opened, alignTimeline, haligned, hfirst]

/-- A call outside of a fragment returns the initialisation segment or nothing. -/
theorem announceInit_ok {s : Fmp4Muxer} (h : s.Sound) :
    (s.announceInit = (.ok none, s) ∧ (s.params = none ∨ s.initSent = true)) ∨
      ∃ bytes, s.announceInit = (.ok (some ⟨some bytes, [], false⟩), s.opened) ∧
        Nested containers bytes := by
  by_cases hnow : (s.params.isNone || s.initSent) = true
  · left
    refine ⟨by rw [announceInit, if_pos hnow], ?_⟩
    rw [Bool.or_eq_true, Option.isNone_iff_eq_none] at hnow
    exact hnow
  · right
    have hparams : s.params ≠ none := fun hnone => hnow (by rw [hnone]; rfl)
    have hdescribed := h.described hparams
    obtain ⟨bytes, hbytes, hnested⟩ := buildInit_ok (s := { s with initSent := true })
      ⟨hdescribed.params, hdescribed.width, hdescribed.height⟩
    refine ⟨bytes, ?_, hnested⟩
    rw [announceInit, if_neg hnow, hbytes, Outcome.bind_ok, opened_eq]

/-! ## Video -/

theorem map_setLastDuration {β : Type} (f : Sample → β) (duration : ℚ)
    (hf : ∀ sample : Sample, f { sample with duration } = f sample) (samples : List Sample) :
    (setLastDuration duration samples).map f = samples.map f := by
  induction samples with
  | nil => rfl
  | cons sample samples ih =>
    cases samples with
    | nil => rw [setLastDuration, List.map_singleton, hf, List.map_singleton]
    | cons next samples =>
      have hlater : setLastDuration duration (sample :: next :: samples) =
          sample :: setLastDuration duration (next :: samples) := rfl
      rw [hlater, List.map_cons, ih]
      rfl

/-- Measuring a sample changes durations only. -/
theorem measure_eq (s : Fmp4Muxer) (timestampMs : ℚ) : ∃ fragTicks samples,
    s.measure timestampMs =
      { s with fragTicks, samples, lastVideoTimestampMs := some timestampMs } ∧
      samples.map Sample.data = s.samples.map Sample.data := by
  rw [measure]
  split
  · dsimp only
    split
    · exact ⟨_, _, rfl, map_setLastDuration Sample.data _ (fun _ => rfl) s.samples⟩
    · exact ⟨_, _, rfl, rfl⟩
  · exact ⟨_, _, rfl, rfl⟩

theorem codedGeometry_pos {ps : ParamSets} {geometry : CodedGeometry}
    (h : codedGeometry ps = some geometry) : 0 < geometry.width ∧ 0 < geometry.height := by
  rw [codedGeometry] at h
  obtain ⟨sps, -, h⟩ := Option.bind_eq_some_iff.mp h
  obtain ⟨found, -, h⟩ := Option.bind_eq_some_iff.mp h
  split at h
  · next hlimits =>
    obtain rfl := Option.some.inj h
    exact ⟨hlimits.1, hlimits.2.1⟩
  · cases h

theorem declaredSize_nonneg (ps : ParamSets) (frame : LiveVideoFrame) :
    0 ≤ (declaredSize ps frame).width ∧ 0 ≤ (declaredSize ps frame).height := by
  rw [declaredSize]
  split
  · next geometry h =>
    have hpos := codedGeometry_pos h
    exact ⟨hpos.1.le, hpos.2.le⟩
  · exact ⟨Int.natCast_nonneg _, Int.natCast_nonneg _⟩

theorem sound_measure {s : Fmp4Muxer} (h : s.Sound) (timestampMs : ℚ) :
    (s.measure timestampMs).Sound := by
  obtain ⟨fragTicks, samples, heq, hdata⟩ := s.measure_eq timestampMs
  rw [heq]
  exact {
    described := fun hp =>
      ⟨(h.described hp).params, (h.described hp).width, (h.described hp).height⟩
    started := fun hne => h.started fun hnil => hne (by
      rw [hnil, List.map_nil] at hdata
      exact List.map_eq_nil_iff.mp hdata)
    track := h.track
    requested := h.requested
    firstVideo := h.firstVideo
    firstAudio := h.firstAudio }

theorem sound_enqueue {s : Fmp4Muxer} (h : s.Sound) (hparams : s.params ≠ none)
    (frame : LiveVideoFrame) : (s.enqueue frame).Sound where
  described := fun hp => ⟨(h.described hp).params, (h.described hp).width, (h.described hp).height⟩
  started := fun _ => hparams
  track := h.track
  requested := h.requested
  firstVideo := h.firstVideo
  firstAudio := h.firstAudio

end Fmp4Muxer

end EufySdk
