import Mathlib.Tactic
import EufySdk.Lib.Machine
import EufySdk.Transport.P2p.Fmp4Calls

/-!
# Recordings

What the muxer writes over any row of calls: every segment is boxes all the way down, a player
finds the runs of a fragment in it, and what it finds for a track, fragment after fragment, is
what was pushed for that track.

Two things in the muxer stand in the way. The picture size is shifted into the upper half of a
signed number, so that a size of 32768 or more becomes negative and does not fit its field; and
audio that is given up by a G.711 frame stays queued, unlike audio that is given up for any other
reason, so that the next fragment has an offset for a track that is not in it.

- `MuxCall`, `Fmp4Muxer.call` — the calls
- `RecordsWell` — what is asked of a recording
- `CallFits` — the calls that the two do not get in the way of
-/

namespace EufySdk

open Bytes IsoBox

inductive MuxCall
  | push (frame : LiveVideoFrame) (timestampMs : ℚ)
  | pushAudio (frame : LiveAudioFrame) (timestampMs : ℚ)
  | flush

def Fmp4Muxer.call (s : Fmp4Muxer) : MuxCall → Outcome (Option MediaFragment)
  | .push frame timestampMs => s.push frame timestampMs
  | .pushAudio frame timestampMs => s.pushAudio frame timestampMs
  | .flush => s.flush

/-- The muxer behind a call, whether it threw or not. -/
def Fmp4Muxer.step (s : Fmp4Muxer) (c : MuxCall) : Option Fmp4Muxer := some (s.call c).2

/-- What some calls return or throw. -/
def Fmp4Muxer.outcomes (s : Fmp4Muxer) : List MuxCall → List (Except MuxError (Option MediaFragment))
  | [] => []
  | c :: calls => (s.call c).1 :: (s.call c).2.outcomes calls

/-- The muxer behind some calls. -/
def Fmp4Muxer.behind (s : Fmp4Muxer) (calls : List MuxCall) : Fmp4Muxer :=
  calls.foldl (fun s c => (s.call c).2) s

/-! ## What is pushed -/

/-- The payload of a complete frame of AAC. -/
def LiveAudioFrame.payload (frame : LiveAudioFrame) : Option (AdtsHeader × Buffer) :=
  match parseAdtsHeader frame.data with
  | none => none
  | some header =>
    if frame.data.length < header.frameLength then none
    else some (header, Buf.subarray frame.data header.headerLength header.frameLength)

/-- What a call throws because of what it is given. -/
def MuxCall.fault : MuxCall → Option MuxError
  | .push frame _ => if frame.codec = .av1 then some .av1 else none
  | .pushAudio frame _ =>
    match frame.codec with
    | .g711a => none
    | .aac codec => if frame.payload.isNone then some (.incompleteAdts codec) else none
  | .flush => none

/-- Whether an access unit is one a recording can start with. -/
def LiveVideoFrame.opens (frame : LiveVideoFrame) : Bool :=
  frame.codec ≠ .av1 && frame.keyframe &&
    ((extractParamSets frame.data).bind fun ps => ps.codec.boxed).isSome

def MuxCall.opens : MuxCall → Bool
  | .push frame _ => frame.opens
  | _ => false

/-- The sample of an access unit, from the first one on that a recording can start with. -/
def MuxCall.videoUnit (started : Bool) : MuxCall → List Buffer
  | .push frame _ =>
    if frame.codec ≠ .av1 ∧ (started || frame.opens) then [annexbToAvcc frame.data] else []
  | _ => []

/-- The samples of the access units of some calls. -/
def videoUnits (started : Bool) : List MuxCall → List Buffer
  | [] => []
  | c :: calls => c.videoUnit started ++ videoUnits (started || c.opens) calls

/-- The sample of a frame of AAC that fits the one audio track there is. -/
def MuxCall.audioUnit : MuxCall → List Buffer
  | .pushAudio frame _ =>
    match frame.codec, frame.payload with
    | .aac _, some (header, payload) =>
      if header.frequencyIndex = ADTS_FREQUENCY_INDEX_16K ∧ header.channels = ADTS_CHANNELS_MONO
      then [payload] else []
    | _, _ => []
  | _ => []

def audioUnits (calls : List MuxCall) : List Buffer := calls.flatMap MuxCall.audioUnit

/-! ## What is written -/

/-- The segment a call returned. -/
def segmentsOf : Except MuxError (Option MediaFragment) → List MediaFragment
  | .ok (some segment) => [segment]
  | _ => []

/-- The samples a player finds in a fragment for a track. -/
def MediaFragment.trackData (track : ℕ) (segment : MediaFragment) : List Buffer :=
  ((MovieFragment.read segment.data).getD []).flatMap fun run =>
    if run.track = track then run.samples.map MovieFragment.Sample.data else []

/-- Segments that are boxes all the way down, with runs a player finds. -/
structure MediaFragment.WellFormed (segment : MediaFragment) : Prop where
  init : NestedInit segment.init
  data : Nested containers segment.data
  runs : segment.data ≠ [] → (MovieFragment.read segment.data).isSome = true

def Fmp4Muxer.segments (s : Fmp4Muxer) (calls : List MuxCall) : List MediaFragment :=
  (s.outcomes calls).flatMap segmentsOf

/-- What is asked of a recording: no call throws but for what it is given, every segment is well
formed, and the samples of each track are those pushed for it, in order, but for those that are
still queued; of the audio, too, where it was not given up. -/
structure RecordsWell (opts : Fmp4Options) (calls : List MuxCall) : Prop where
  thrown : List.Forall₂ (fun c o => ∀ e, o = .error e → c.fault = some e) calls
    ((Fmp4Muxer.new opts).outcomes calls)
  segments : ∀ segment ∈ (Fmp4Muxer.new opts).segments calls, segment.WellFormed
  video : ((Fmp4Muxer.new opts).segments calls).flatMap (MediaFragment.trackData 1) ++
      ((Fmp4Muxer.new opts).behind calls).samples.map Sample.data = videoUnits false calls
  audio : ((Fmp4Muxer.new opts).segments calls).flatMap (MediaFragment.trackData 2) <+:
    audioUnits calls
  wholeAudio : ((Fmp4Muxer.new opts).behind calls).audioRequested = true →
    ((Fmp4Muxer.new opts).behind calls).audioDisabled = false →
    ((Fmp4Muxer.new opts).segments calls).flatMap (MediaFragment.trackData 2) ++
      ((Fmp4Muxer.new opts).behind calls).audioSamples.map Sample.data = audioUnits calls

/-! ## The calls that fit -/

/-- A first keyframe whose parameter sets and picture size fit their fields. -/
def LiveVideoFrame.Describable (frame : LiveVideoFrame) : Prop :=
  ∀ ps, extractParamSets frame.data = some ps → ps.Describable ∧
    (Fmp4Muxer.declaredSize ps frame).width < 32768 ∧
    (Fmp4Muxer.declaredSize ps frame).height < 32768

/-- A call that finds the muxer as it needs it. An access unit that starts the recording declares
a size below 32768; the open fragment fits its fields when it may be closed; and no G.711 frame
comes before the initialisation segment while audio is queued. -/
def CallFits (s : Fmp4Muxer) : MuxCall → Prop
  | .push frame timestampMs =>
    SafeTime timestampMs ∧ (s.params = none → frame.opens = true → frame.Describable) ∧
      (frame.keyframe = true → s.Writable)
  | .pushAudio frame timestampMs =>
    SafeTime timestampMs ∧ (frame.codec = .g711a → s.initSent = false → s.audioSamples = [])
  | .flush => s.Writable

instance (t : ℚ) : Decidable (SafeTime t) := inferInstanceAs (Decidable (_ ∧ _))

instance (time : ℚ) : Decidable (Whole time) := inferInstanceAs (Decidable (_ ∧ _))

instance (s : Fmp4Muxer) : Decidable s.Writable :=
  decidable_of_iff (Whole s.baseDecodeTime ∧
      (s.audioSamples ≠ [] → Whole s.audioBaseDecodeTime) ∧ s.queuedSize + 160 < 2 ^ 31)
    ⟨fun ⟨hvideo, haudio, hsize⟩ => ⟨hvideo, haudio, hsize⟩,
      fun h => ⟨h.videoTime, h.audioTime, h.size⟩⟩

instance (ps : ParamSets) : Decidable ps.Describable :=
  decidable_of_iff ((∀ nal ∈ ps.sps, nal.length < 65536) ∧ (∀ nal ∈ ps.pps, nal.length < 65536) ∧
      (∀ nal ∈ ps.vps, nal.length < 65536) ∧
      (ps.sps.length < 65536 ∧ ps.pps.length < 65536 ∧ ps.vps.length < 65536) ∧
      setsSize ps.sps + setsSize ps.pps + setsSize ps.vps < 2 ^ 31)
    ⟨fun ⟨hsps, hpps, hvps, hcounts, htotal⟩ => ⟨hsps, hpps, hvps, hcounts, htotal⟩,
      fun h => ⟨h.sps, h.pps, h.vps, h.counts, h.total⟩⟩

instance (frame : LiveVideoFrame) : Decidable frame.Describable :=
  inferInstanceAs (Decidable (∀ ps, _ = some ps → _))

instance (s : Fmp4Muxer) : (c : MuxCall) → Decidable (CallFits s c)
  | .push _ _ => inferInstanceAs (Decidable (_ ∧ _ ∧ _))
  | .pushAudio _ _ => inferInstanceAs (Decidable (_ ∧ _))
  | .flush => inferInstanceAs (Decidable s.Writable)

/-! ## One call -/

namespace Fmp4Muxer

/-- Whether audio is taken. -/
def recordsAudio (s : Fmp4Muxer) : Bool := s.audioRequested && !s.audioDisabled

/-- The initialisation segment waits for audio only. -/
def Waits (s : Fmp4Muxer) : Prop := s.samples ≠ [] → s.initSent = false → s.audioCodec = none

/-- What is written and queued behind a call, against what was queued before it. -/
structure Keeps (s : Fmp4Muxer) (c : MuxCall) (o : Except MuxError (Option MediaFragment))
    (t : Fmp4Muxer) : Prop where
  sound : t.Sound
  waits : t.Waits
  thrown : ∀ e, o = .error e → c.fault = some e
  segments : ∀ segment ∈ segmentsOf o, segment.WellFormed
  requested : t.audioRequested = s.audioRequested
  started : t.params.isSome = (s.params.isSome || c.opens)
  video : (segmentsOf o).flatMap (MediaFragment.trackData 1) ++ t.samples.map Sample.data =
    s.samples.map Sample.data ++ c.videoUnit s.params.isSome
  /-- Audio that is given up is never taken again. -/
  silent : s.recordsAudio = false → t.recordsAudio = false ∧
    (segmentsOf o).flatMap (MediaFragment.trackData 2) = []
  audio : s.recordsAudio = true →
    (segmentsOf o).flatMap (MediaFragment.trackData 2) ++ t.audioSamples.map Sample.data <+:
        s.audioSamples.map Sample.data ++ c.audioUnit ∧
      (t.recordsAudio = true → (segmentsOf o).flatMap (MediaFragment.trackData 2) ++
        t.audioSamples.map Sample.data = s.audioSamples.map Sample.data ++ c.audioUnit)

theorem flatMap_trackData (segment : MediaFragment) (track : ℕ) :
    (segmentsOf (.ok (some segment))).flatMap (MediaFragment.trackData track) =
      segment.trackData track :=
  List.append_nil _

theorem Keeps.idle {s : Fmp4Muxer} {c : MuxCall} {o : Except MuxError (Option MediaFragment)}
    (h : s.Sound) (hw : s.Waits) (hthrown : ∀ e, o = .error e → c.fault = some e)
    (hsegments : segmentsOf o = []) (hopens : c.opens = false)
    (hvideo : c.videoUnit s.params.isSome = []) (haudio : s.recordsAudio = true → c.audioUnit = []) :
    s.Keeps c o s where
  sound := h
  waits := hw
  thrown := hthrown
  segments := by rw [hsegments]; exact nofun
  requested := rfl
  started := by rw [hopens, Bool.or_false]
  video := by rw [hsegments, hvideo, List.append_nil]; rfl
  silent := fun hsilent => ⟨hsilent, by rw [hsegments]; rfl⟩
  audio := fun htaken => by
    rw [hsegments, haudio htaken, List.append_nil]
    exact ⟨List.prefix_rfl, fun _ => rfl⟩

/-! ### Video -/

theorem adopt_eq_some {s t : Fmp4Muxer} {frame : LiveVideoFrame} {timestampMs : ℚ}
    (h : s.adopt frame timestampMs = some t) :
    (s.params ≠ none ∧ t = s) ∨ (s.params = none ∧ frame.keyframe = true ∧
      ∃ ps codec, extractParamSets frame.data = some ps ∧ ps.codec.boxed = some codec ∧
        t = { s with
          params := some ps
          codec
          width := (declaredSize ps frame).width
          height := (declaredSize ps frame).height
          firstVideoTimestampMs := some timestampMs }) := by
  rw [adopt] at h
  split at h
  · next hparams =>
    left
    exact ⟨fun hnone => (by rw [hnone] at hparams; cases hparams), (Option.some.inj h).symm⟩
  · next hparams =>
    right
    split at h
    · cases h
    · next hkey =>
      obtain ⟨ps, hps, h⟩ := Option.bind_eq_some_iff.mp h
      obtain ⟨codec, hcodec, h⟩ := Option.bind_eq_some_iff.mp h
      refine ⟨by simpa using hparams, by simpa using hkey, ps, codec, hps, hcodec, ?_⟩
      exact (Option.some.inj h).symm

/-- A recording starts with the first access unit it can start with. -/
theorem adopt_eq_none {s : Fmp4Muxer} {frame : LiveVideoFrame} {timestampMs : ℚ}
    (h : s.adopt frame timestampMs = none) : s.params = none ∧ frame.opens = false := by
  rw [adopt] at h
  split at h
  · cases h
  · next hparams =>
    refine ⟨by simpa using hparams, ?_⟩
    split at h
    · next hkey =>
      have hkey : frame.keyframe = false := by simpa using hkey
      rw [LiveVideoFrame.opens, hkey, Bool.and_false, Bool.false_and]
    · have hnone : ((extractParamSets frame.data).bind fun ps => ps.codec.boxed) = none := by
        cases hps : extractParamSets frame.data with
        | none => rfl
        | some ps =>
          rw [hps] at h
          change (ps.codec.boxed.bind fun codec => some _) = none at h
          rw [Option.bind_eq_none_iff] at h
          cases hcodec : ps.codec.boxed with
          | none => exact hcodec
          | some codec => cases h codec hcodec
      rw [LiveVideoFrame.opens, hnone, Option.isSome_none, Bool.and_false]

/-- What taking up the parameter sets leaves as it was. -/
theorem adopt_spec {s t : Fmp4Muxer} {frame : LiveVideoFrame} {timestampMs : ℚ} (h : s.Sound)
    (hcodec : frame.codec ≠ .av1) (htime : SafeTime timestampMs)
    (hfits : s.params = none → frame.opens = true → frame.Describable)
    (hadopt : s.adopt frame timestampMs = some t) :
    t.Sound ∧ t.params ≠ none ∧ (s.params.isSome || frame.opens) = true ∧
      t.samples = s.samples ∧ t.audioSamples = s.audioSamples ∧
      t.audioRequested = s.audioRequested ∧ t.audioDisabled = s.audioDisabled ∧
      t.audioCodec = s.audioCodec ∧ t.initSent = s.initSent ∧
      t.baseDecodeTime = s.baseDecodeTime ∧ t.audioBaseDecodeTime = s.audioBaseDecodeTime := by
  obtain ⟨hparams, rfl⟩ | ⟨hparams, hkey, ps, codec, hps, hboxed, rfl⟩ := adopt_eq_some hadopt
  · refine ⟨h, hparams, ?_, rfl, rfl, rfl, rfl, rfl, rfl, rfl, rfl⟩
    rw [Option.isSome_iff_ne_none.mpr hparams, Bool.true_or]
  · have hopens : frame.opens = true := by
      simp [LiveVideoFrame.opens, hcodec, hkey, hps, hboxed]
    obtain ⟨hdescribable, hwidth, hheight⟩ := hfits hparams hopens ps hps
    have hnonneg := declaredSize_nonneg ps frame
    refine ⟨?_, nofun, by rw [hopens, Bool.or_true], rfl, rfl, rfl, rfl, rfl, rfl, rfl, rfl⟩
    exact {
      described := fun _ => ⟨⟨ps, rfl, hdescribable⟩, ⟨hnonneg.1, hwidth⟩, ⟨hnonneg.2, hheight⟩⟩
      started := fun _ => nofun
      track := h.track
      requested := h.requested
      firstVideo := fun t ht => Option.some.inj ht ▸ htime
      firstAudio := h.firstAudio }

/-- The samples a player finds in a fragment just written. -/
theorem trackData_runs {s : Fmp4Muxer} (hw : s.Writable) (init : Option Buffer) (keyframe : Bool) :
    MediaFragment.trackData 1 ⟨init, MovieFragment.encode s.seq s.runs, keyframe⟩ =
        s.samples.map Sample.data ∧
      MediaFragment.trackData 2 ⟨init, MovieFragment.encode s.seq s.runs, keyframe⟩ =
        s.audioSamples.map Sample.data := by
  have hdata (sample : Sample) : sample.written.data = sample.data := rfl
  rw [MediaFragment.trackData, MediaFragment.trackData, read_runs hw, Option.getD_some, runs,
    writtenRuns]
  by_cases hempty : s.audioSamples = []
  · rw [if_pos hempty, hempty]
    simp [hdata, writtenRun]
  · rw [if_neg hempty]
    simp [hdata, writtenRun]

/-! ### Closing a fragment -/

theorem settled_audioDisabled (s : Fmp4Muxer) :
    s.settled.audioDisabled = if s.initSent then s.audioDisabled else s.audioCodec.isNone := by
  rw [settled]
  split
  · rfl
  · obtain ⟨origin, video, audio, aligned, heq⟩ :=
      alignTimeline_eq { s with audioDisabled := s.audioCodec.isNone }
    rw [opened, heq]

theorem recordsAudio_of_audioSamples {s : Fmp4Muxer} (h : s.Sound) (hne : s.audioSamples ≠ []) :
    s.recordsAudio = true := by
  have htrack := h.track hne
  rw [hasAudioTrack, Bool.and_eq_true] at htrack
  have hrequested := h.requested (Option.isSome_iff_ne_none.mp htrack.1)
  rw [recordsAudio, hrequested, htrack.2]
  rfl

/-- Audio that was given up stays given up when the initialisation segment is sent. -/
theorem recordsAudio_settled {s : Fmp4Muxer} (hw : s.Waits) (hsamples : s.samples ≠ [])
    (hsilent : s.recordsAudio = false) : s.settled.recordsAudio = false := by
  have hrequested : s.settled.audioRequested = s.audioRequested := by
    obtain ⟨origin, video, audio, aligned, disabled, heq⟩ := s.settled_eq
    rw [heq]
  rw [recordsAudio, hrequested, settled_audioDisabled]
  cases hsent : s.initSent with
  | true => exact hsilent
  | false =>
    rw [hw hsamples hsent]
    exact Bool.and_false _

/-- The state behind a closed fragment, and the fragment. -/
theorem closed_spec {s : Fmp4Muxer} (h : s.Sound) (hw : s.Writable) :
    s.settled.cleared.Sound ∧ s.settled.cleared.params = s.params ∧
      s.settled.cleared.samples = [] ∧ s.settled.cleared.audioSamples = [] ∧
      s.settled.cleared.audioRequested = s.audioRequested ∧
      s.settled.cleared.recordsAudio = s.settled.recordsAudio ∧
      s.settled.cleared.initSent = true ∧
      ∀ init keyframe, NestedInit init →
        MediaFragment.WellFormed
          ⟨init, MovieFragment.encode s.settled.seq s.settled.runs, keyframe⟩ ∧
        MediaFragment.trackData 1
          ⟨init, MovieFragment.encode s.settled.seq s.settled.runs, keyframe⟩ =
            s.samples.map Sample.data ∧
        MediaFragment.trackData 2
          ⟨init, MovieFragment.encode s.settled.seq s.settled.runs, keyframe⟩ =
            s.audioSamples.map Sample.data := by
  have hsettled := writable_settled h hw
  obtain ⟨origin, video, audio, aligned, disabled, heq⟩ := s.settled_eq
  refine ⟨sound_cleared (sound_settled h), by rw [heq]; rfl, rfl, rfl, by rw [heq]; rfl, rfl,
    by rw [heq]; rfl, fun init keyframe hinit => ⟨⟨hinit, nested_runs hsettled, fun _ => ?_⟩, ?_⟩⟩
  · rw [read_runs hsettled]
    rfl
  · have hdata := trackData_runs hsettled init keyframe
    rw [show s.settled.samples = s.samples by rw [heq],
      show s.settled.audioSamples = s.audioSamples by rw [heq]] at hdata
    exact hdata

/-- Flushing. -/
theorem keeps_flush {s : Fmp4Muxer} (h : s.Sound) (hw : s.Waits) (hfits : CallFits s .flush) :
    s.Keeps .flush s.flush.1 s.flush.2 := by
  by_cases hempty : s.samples = []
  · rw [flush, if_pos hempty]
    exact Keeps.idle h hw nofun rfl rfl rfl fun _ => rfl
  · obtain ⟨init, hclose, hinit, -⟩ := closeFragment_ok h (h.started hempty) hfits
    obtain ⟨hsound, hparams, hsamples, haudio, hrequested, hrecords, hsent, hsegment⟩ :=
      closed_spec h hfits
    obtain ⟨hwell, hvideoData, haudioData⟩ := hsegment init true hinit
    have hvideoUnit : MuxCall.flush.videoUnit s.params.isSome = [] := rfl
    have haudioUnit : MuxCall.flush.audioUnit = [] := rfl
    rw [flush, if_neg hempty, hclose, Outcome.bind_ok]
    exact {
      sound := hsound
      waits := fun hne => absurd hsamples hne
      thrown := nofun
      segments := fun segment hmem => List.mem_singleton.mp hmem ▸ hwell
      requested := hrequested
      started := by
        change s.settled.cleared.params.isSome = (s.params.isSome || false)
        rw [hparams, Bool.or_false]
      video := by
        rw [flatMap_trackData, hvideoData, hsamples, hvideoUnit, List.map_nil]
      silent := fun hsilent => by
        refine ⟨hrecords.trans (recordsAudio_settled hw hempty hsilent), ?_⟩
        have hnone : s.audioSamples = [] := by
          by_contra hne
          rw [recordsAudio_of_audioSamples h hne] at hsilent
          cases hsilent
        rw [flatMap_trackData, haudioData, hnone, List.map_nil]
      audio := fun _ => by
        rw [flatMap_trackData, haudioData, haudio, haudioUnit, List.map_nil]
        exact ⟨List.prefix_rfl, fun _ => rfl⟩ }

/-! ### Pushing video -/

/-- The muxer behind an access unit, which the initialisation segment may be sent behind. -/
def enqueued (s : Fmp4Muxer) (frame : LiveVideoFrame) : Fmp4Muxer :=
  if (s.enqueue frame).ready then (s.enqueue frame).opened else s.enqueue frame

theorem enqueued_spec (s : Fmp4Muxer) (frame : LiveVideoFrame) :
    (s.enqueued frame).params = s.params ∧
      (s.enqueued frame).samples.map Sample.data =
        s.samples.map Sample.data ++ [annexbToAvcc frame.data] ∧
      (s.enqueued frame).audioSamples = s.audioSamples ∧
      (s.enqueued frame).audioRequested = s.audioRequested ∧
      (s.enqueued frame).recordsAudio = s.recordsAudio := by
  rw [enqueued]
  split
  · obtain ⟨origin, video, audio, aligned, heq⟩ := (s.enqueue frame).alignTimeline_eq
    rw [opened, heq]
    exact ⟨rfl, List.map_append, rfl, rfl, rfl⟩
  · exact ⟨rfl, List.map_append, rfl, rfl, rfl⟩

theorem waits_enqueued (s : Fmp4Muxer) (frame : LiveVideoFrame) : (s.enqueued frame).Waits := by
  intro _ hsent
  rw [enqueued] at hsent ⊢
  split at hsent
  · cases hsent
  · next hready =>
    rw [if_neg hready]
    rw [ready, hsent, Bool.not_false, Bool.true_and, Bool.not_eq_true, Bool.or_eq_false_iff,
      Bool.or_eq_false_iff] at hready
    exact Option.isNone_iff_eq_none.mp (by simpa using hready.1.2)

theorem sound_enqueued {s : Fmp4Muxer} (h : s.Sound) (hparams : s.params ≠ none)
    (frame : LiveVideoFrame) : (s.enqueued frame).Sound := by
  rw [enqueued]
  split
  · exact sound_opened (sound_enqueue h hparams frame)
  · exact sound_enqueue h hparams frame

theorem nestedInit_none : NestedInit none := nofun

/-- What cutting leaves, and the fragment it closes. -/
theorem cut_ok {s : Fmp4Muxer} {frame : LiveVideoFrame} (h : s.Sound) (hparams : s.params ≠ none)
    (hw : frame.keyframe = true → s.Writable) :
    (s.cut frame = (.ok (none, none), s)) ∨
      ∃ init, s.samples ≠ [] ∧ s.Writable ∧ NestedInit init ∧ init.isSome = !s.initSent ∧
        s.cut frame = (.ok (init, some (MovieFragment.encode s.settled.seq s.settled.runs)),
          s.settled.cleared) := by
  by_cases hcut : frame.keyframe ∧ s.samples ≠ [] ∧ s.fragmentTicks ≤ s.fragTicks
  · right
    obtain ⟨hkey, hsamples, -⟩ := id hcut
    obtain ⟨init, hclose, hinit, hsent⟩ := closeFragment_ok h hparams (hw hkey)
    exact ⟨init, hsamples, hw hkey, hinit, hsent, by rw [cut, if_pos hcut, hclose]; rfl⟩
  · left
    rw [cut, if_neg hcut]

theorem wellFormed_nil {init : Option Buffer} (hinit : NestedInit init) (keyframe : Bool) :
    MediaFragment.WellFormed ⟨init, [], keyframe⟩ :=
  ⟨hinit, Nested.nil, fun hne => absurd rfl hne⟩

/-- Without a fragment there is the initialisation segment at most. -/
theorem emit_none (s : Fmp4Muxer) {sent : Option Buffer} (hsent : NestedInit sent) :
    (∀ segment ∈ segmentsOf (.ok (s.emit sent none)), segment.WellFormed) ∧
      ∀ track, (segmentsOf (.ok (s.emit sent none))).flatMap (MediaFragment.trackData track) =
        [] := by
  cases sent with
  | none => exact ⟨nofun, fun _ => rfl⟩
  | some bytes =>
    refine ⟨fun segment hmem => ?_, fun track => rfl⟩
    obtain rfl := List.mem_singleton.mp hmem
    exact wellFormed_nil hsent _

/-- What is done with an access unit once the sample before it is measured. -/
def cutAndEnqueue (s : Fmp4Muxer) (frame : LiveVideoFrame) : Outcome (Option MediaFragment) :=
  (s.cut frame).bind fun segments s =>
    ((s.enqueue frame).openInit segments.1).bind fun init s => (.ok (s.emit init segments.2), s)

/-- An access unit that is taken is queued, behind the fragment it closes. -/
theorem keeps_cut {s u : Fmp4Muxer} {frame : LiveVideoFrame} {timestampMs : ℚ}
    (hsound : u.Sound) (hparams : u.params ≠ none) (hwaits : u.Waits)
    (hunit : frame.codec ≠ .av1 ∧ (s.params.isSome || frame.opens) = true)
    (hqueue : u.samples.map Sample.data = s.samples.map Sample.data)
    (haudio : u.audioSamples = s.audioSamples) (hrequested : u.audioRequested = s.audioRequested)
    (hrecords : u.recordsAudio = s.recordsAudio) (hw : frame.keyframe = true → u.Writable) :
    s.Keeps (.push frame timestampMs) (u.cutAndEnqueue frame).1 (u.cutAndEnqueue frame).2 := by
  have hvideoUnit : (MuxCall.push frame timestampMs).videoUnit s.params.isSome =
      [annexbToAvcc frame.data] := if_pos hunit
  have haudioUnit : (MuxCall.push frame timestampMs).audioUnit = [] := rfl
  have hstarted : (s.params.isSome || (MuxCall.push frame timestampMs).opens) = true := hunit.2
  rcases cut_ok hsound hparams hw with hcut | ⟨init, hne, hwritable, hinit, -, hcut⟩
  · obtain ⟨sent, hopen, hsentNested, -⟩ := openInit_ok (sound_enqueue hsound hparams frame)
      hparams nestedInit_none
    obtain ⟨hkeptParams, hkeptSamples, hkeptAudio, hkeptRequested, hkeptRecords⟩ :=
      u.enqueued_spec frame
    obtain ⟨hwell, hdata⟩ := emit_none (u.enqueued frame) hsentNested
    rw [cutAndEnqueue, hcut, Outcome.bind_ok, hopen, Outcome.bind_ok]
    change s.Keeps _ (.ok ((u.enqueued frame).emit sent none)) (u.enqueued frame)
    exact {
      sound := sound_enqueued hsound hparams frame
      waits := u.waits_enqueued frame
      thrown := nofun
      segments := hwell
      requested := hkeptRequested.trans hrequested
      started := by rw [hkeptParams, hstarted, Option.isSome_iff_ne_none.mpr hparams]
      video := by rw [hdata, hkeptSamples, hqueue, hvideoUnit, List.nil_append]
      silent := fun hsilent => ⟨hkeptRecords.trans (hrecords.trans hsilent), hdata 2⟩
      audio := fun _ => by
        rw [hdata, hkeptAudio, haudio, haudioUnit, List.nil_append, List.append_nil]
        exact ⟨List.prefix_rfl, fun _ => rfl⟩ }
  · obtain ⟨hclosedSound, hclosedParams, hclosedSamples, hclosedAudio, hclosedRequested,
      hclosedRecords, -, hsegment⟩ := closed_spec hsound hwritable
    have hclosed : u.settled.cleared.params ≠ none := hclosedParams ▸ hparams
    obtain ⟨sent, hopen, hsentNested, -⟩ :=
      openInit_ok (sound_enqueue hclosedSound hclosed frame) hclosed hinit
    obtain ⟨hkeptParams, hkeptSamples, hkeptAudio, hkeptRequested, hkeptRecords⟩ :=
      u.settled.cleared.enqueued_spec frame
    obtain ⟨hwell, hvideoData, haudioData⟩ :=
      hsegment sent (u.settled.cleared.enqueued frame).samplesStartKeyframe hsentNested
    have hemit : (u.settled.cleared.enqueued frame).emit sent
        (some (MovieFragment.encode u.settled.seq u.settled.runs)) =
        some ⟨sent, MovieFragment.encode u.settled.seq u.settled.runs,
          (u.settled.cleared.enqueued frame).samplesStartKeyframe⟩ := by
      rw [emit, Option.isSome_some, Bool.or_true, if_pos rfl]
      rfl
    rw [cutAndEnqueue, hcut, Outcome.bind_ok, hopen, Outcome.bind_ok]
    change s.Keeps _ (.ok ((u.settled.cleared.enqueued frame).emit sent _))
      (u.settled.cleared.enqueued frame)
    rw [hemit]
    exact {
      sound := sound_enqueued hclosedSound hclosed frame
      waits := u.settled.cleared.waits_enqueued frame
      thrown := nofun
      segments := fun segment hmem => List.mem_singleton.mp hmem ▸ hwell
      requested := (hkeptRequested.trans hclosedRequested).trans hrequested
      started := by rw [hkeptParams, hstarted, Option.isSome_iff_ne_none.mpr hclosed]
      video := by
        rw [flatMap_trackData, hvideoData, hkeptSamples, hclosedSamples, hqueue, hvideoUnit]
        rfl
      silent := fun hsilent => by
        have hsilent : u.recordsAudio = false := hrecords.trans hsilent
        refine ⟨?_, ?_⟩
        · rw [hkeptRecords, hclosedRecords, recordsAudio_settled hwaits hne hsilent]
        · have hnone : u.audioSamples = [] := by
            by_contra hsome
            rw [recordsAudio_of_audioSamples hsound hsome] at hsilent
            cases hsilent
          rw [flatMap_trackData, haudioData, hnone, List.map_nil]
      audio := fun _ => by
        rw [flatMap_trackData, haudioData, hkeptAudio, hclosedAudio, haudio, haudioUnit]
        exact ⟨List.prefix_rfl, fun _ => rfl⟩ }

/-- The size of the open fragment is a matter of the data that is queued. -/
theorem queuedSize_eq (s : Fmp4Muxer) : s.queuedSize =
    ((s.samples.map Sample.data ++ s.audioSamples.map Sample.data).map fun data =>
      12 + data.length).sum := by
  rw [queuedSize, ← List.map_append, List.map_map]
  rfl

/-- What is queued fits the fields of a fragment as long as its data and its decode times stay. -/
theorem Writable.of_data {s t : Fmp4Muxer} (hw : s.Writable)
    (hvideoTime : t.baseDecodeTime = s.baseDecodeTime)
    (haudioTime : t.audioBaseDecodeTime = s.audioBaseDecodeTime)
    (hsamples : t.samples.map Sample.data = s.samples.map Sample.data)
    (haudio : t.audioSamples = s.audioSamples) : t.Writable := by
  refine ⟨?_, fun hne => ?_, ?_⟩
  · rw [hvideoTime]
    exact hw.videoTime
  · rw [haudioTime]
    exact hw.audioTime (haudio ▸ hne)
  · have hsize := hw.size
    rw [queuedSize_eq] at hsize ⊢
    rw [hsamples, haudio]
    exact hsize

theorem keeps_push {s : Fmp4Muxer} {frame : LiveVideoFrame} {timestampMs : ℚ} (h : s.Sound)
    (hw : s.Waits) (hfits : CallFits s (.push frame timestampMs)) :
    s.Keeps (.push frame timestampMs) (s.push frame timestampMs).1
      (s.push frame timestampMs).2 := by
  obtain ⟨htime, hdescribable, hwritable⟩ := hfits
  by_cases hcodec : frame.codec = .av1
  · rw [push, if_pos hcodec]
    refine Keeps.idle h hw (fun e he => ?_) rfl ?_ ?_ fun _ => rfl
    · cases he
      exact if_pos hcodec
    · simp [MuxCall.opens, LiveVideoFrame.opens, hcodec]
    · simp [MuxCall.videoUnit, hcodec]
  rw [push, if_neg hcodec]
  cases hadopt : s.adopt frame timestampMs with
  | none =>
    obtain ⟨hparams, hopens⟩ := adopt_eq_none hadopt
    refine Keeps.idle h hw nofun rfl hopens ?_ fun _ => rfl
    rw [MuxCall.videoUnit, hparams, hopens]
    exact if_neg fun hand => absurd hand.2 (by decide)
  | some adopted =>
    obtain ⟨hsound, hparams, hstarted, hsamples, haudio, hrequested, hdisabled, haudioCodec, hsent,
      hvideoTime, haudioTime⟩ := adopt_spec h hcodec htime hdescribable hadopt
    have hmeasuredSound := sound_measure hsound timestampMs
    obtain ⟨fragTicks, queue, hmeasure, hdata⟩ := adopted.measure_eq timestampMs
    have hqueue : queue.map Sample.data = s.samples.map Sample.data := by rw [← hsamples, hdata]
    rw [hmeasure] at hmeasuredSound
    change s.Keeps _ ((adopted.measure timestampMs).cutAndEnqueue frame).1
      ((adopted.measure timestampMs).cutAndEnqueue frame).2
    rw [hmeasure]
    refine keeps_cut hmeasuredSound hparams ?_ ⟨hcodec, hstarted⟩ hqueue haudio hrequested ?_ ?_
    · intro hne hnotSent
      refine haudioCodec.trans (hw ?_ (hsent.symm.trans hnotSent))
      intro hnil
      rw [hnil, List.map_nil] at hqueue
      exact hne (List.map_eq_nil_iff.mp hqueue)
    · change (adopted.audioRequested && !adopted.audioDisabled) = _
      rw [hrequested, hdisabled]
      rfl
    · intro hkey
      exact (hwritable hkey).of_data hvideoTime haudioTime hqueue haudio

/-! ### Pushing audio -/

theorem alignAudio_eq (s : Fmp4Muxer) (measured : ℤ) (timestampMs : ℚ) : ∃ time samples,
    s.alignAudio measured timestampMs =
      { s with audioBaseDecodeTime := time, audioSamples := samples } ∧
      samples.map Sample.data = s.audioSamples.map Sample.data := by
  rw [alignAudio]
  split
  · exact ⟨_, _, rfl, rfl⟩
  · split
    · exact ⟨_, _, rfl, map_setLastDuration Sample.data _ (fun _ => rfl) s.audioSamples⟩
    · exact ⟨_, _, rfl, rfl⟩

/-- A sample is queued behind those that are, whatever becomes of their durations. -/
theorem queueAudio_eq (s : Fmp4Muxer) (measured : ℤ) (timestampMs : ℚ) (sample : Sample) :
    ∃ time samples,
      { s.alignAudio measured timestampMs with
        audioSamples := (s.alignAudio measured timestampMs).audioSamples ++ [sample] } =
        { s with audioBaseDecodeTime := time, audioSamples := samples } ∧
      samples.map Sample.data = s.audioSamples.map Sample.data ++ [sample.data] := by
  obtain ⟨time, samples, heq, hdata⟩ := alignAudio_eq s measured timestampMs
  refine ⟨time, samples ++ [sample], ?_, ?_⟩
  · rw [heq]
  · rw [List.map_append, hdata]
    rfl

theorem enqueueAudio_eq (s : Fmp4Muxer) (codec : AacCodec) (payload : Buffer) (timestampMs : ℚ) :
    ∃ time samples, s.enqueueAudio codec payload timestampMs =
      { s with
        audioCodec := some codec
        firstAudioTimestampMs := some (s.firstAudioTimestampMs.getD timestampMs)
        lastAudioTimestampMs := some timestampMs
        audioBaseDecodeTime := time
        audioSamples := samples } ∧
      samples.map Sample.data = s.audioSamples.map Sample.data ++ [payload] :=
  queueAudio_eq
    { s with
      audioCodec := some codec
      firstAudioTimestampMs := some (s.firstAudioTimestampMs.getD timestampMs)
      lastAudioTimestampMs := some timestampMs }
    _ timestampMs ⟨payload, _, true⟩

/-- The initialisation segment may be sent behind a frame of audio. -/
theorem keeps_announceInit {s u : Fmp4Muxer} {frame : LiveAudioFrame} {timestampMs : ℚ}
    (hsound : u.Sound) (hparams : u.params = s.params) (hsamples : u.samples = s.samples)
    (hrequested : u.audioRequested = s.audioRequested) (htaken : s.recordsAudio = true)
    (hqueue : u.audioSamples.map Sample.data <+:
      s.audioSamples.map Sample.data ++ (MuxCall.pushAudio frame timestampMs).audioUnit)
    (hwhole : u.recordsAudio = true → u.audioSamples.map Sample.data =
      s.audioSamples.map Sample.data ++ (MuxCall.pushAudio frame timestampMs).audioUnit) :
    s.Keeps (.pushAudio frame timestampMs) u.announceInit.1 u.announceInit.2 := by
  have hstarted (isSome : Bool) : isSome = (isSome || (MuxCall.pushAudio frame timestampMs).opens) :=
    (Bool.or_false _).symm
  obtain ⟨hidle, hwhen⟩ | ⟨bytes, hannounce, hnested⟩ := announceInit_ok hsound
  · rw [hidle]
    exact {
      sound := hsound
      waits := fun hne hsent => by
        obtain hnone | hsome := hwhen
        · exact absurd hnone (hsound.started hne)
        · rw [hsent] at hsome
          cases hsome
      thrown := fun _ hthrown => by cases hthrown
      segments := fun _ hmem => by cases hmem
      requested := hrequested
      started := by rw [hparams]; exact hstarted _
      video := by rw [hsamples]; exact (List.append_nil _).symm
      silent := fun hsilent => by rw [htaken] at hsilent; cases hsilent
      audio := fun _ => ⟨hqueue, hwhole⟩ }
  · obtain ⟨origin, video, audio, aligned, heq⟩ := u.alignTimeline_eq
    have hopened := sound_opened hsound
    rw [hannounce]
    rw [opened, heq] at hopened ⊢
    exact {
      sound := hopened
      waits := fun _ hsent => by cases hsent
      thrown := fun _ hthrown => by cases hthrown
      segments := fun segment hmem => by
        obtain rfl := List.mem_singleton.mp hmem
        exact wellFormed_nil (fun b hb => Option.some.inj hb ▸ hnested) _
      requested := hrequested
      started := by
        change u.params.isSome = _
        rw [hparams]
        exact hstarted _
      video := by
        change u.samples.map Sample.data = _
        rw [hsamples]
        exact (List.append_nil _).symm
      silent := fun hsilent => by rw [htaken] at hsilent; cases hsilent
      audio := fun _ => ⟨hqueue, hwhole⟩ }

theorem keeps_disableAudio {s : Fmp4Muxer} {frame : LiveAudioFrame} {timestampMs : ℚ}
    (h : s.Sound) (htaken : s.recordsAudio = true) :
    s.Keeps (.pushAudio frame timestampMs) s.disableAudio.1 s.disableAudio.2 := by
  rw [disableAudio]
  refine keeps_announceInit ?_ rfl rfl rfl htaken (List.nil_prefix) fun hrecords => ?_
  · exact {
      described := fun hp =>
        ⟨(h.described hp).params, (h.described hp).width, (h.described hp).height⟩
      started := h.started
      track := fun hne => absurd rfl hne
      requested := h.requested
      firstVideo := h.firstVideo
      firstAudio := h.firstAudio }
  · rw [recordsAudio, Bool.not_true, Bool.and_false] at hrecords
    cases hrecords

/-- A frame of AAC that is complete is queued, or ends the audio. -/
theorem keeps_aac {s : Fmp4Muxer} {frame : LiveAudioFrame} {timestampMs : ℚ} (h : s.Sound)
    (htime : SafeTime timestampMs) (htaken : s.recordsAudio = true) {codec : AacCodec}
    {payload : Buffer} (haudioUnit : (MuxCall.pushAudio frame timestampMs).audioUnit = [payload]) :
    s.Keeps (.pushAudio frame timestampMs)
      (s.enqueueAudio codec payload timestampMs).announceInit.1
      (s.enqueueAudio codec payload timestampMs).announceInit.2 := by
  obtain ⟨time, samples, heq, hdata⟩ := s.enqueueAudio_eq codec payload timestampMs
  have hrecords := htaken
  rw [recordsAudio, Bool.and_eq_true] at hrecords
  rw [heq]
  refine keeps_announceInit ?_ rfl rfl rfl htaken ?_ fun _ => ?_
  · exact {
      described := fun hp =>
        ⟨(h.described hp).params, (h.described hp).width, (h.described hp).height⟩
      started := h.started
      track := fun _ => hrecords.2
      requested := fun _ => hrecords.1
      firstVideo := h.firstVideo
      firstAudio := fun t ht => by
        cases hfirst : s.firstAudioTimestampMs with
        | none =>
          rw [hfirst] at ht
          exact Option.some.inj ht ▸ htime
        | some first =>
          rw [hfirst] at ht
          exact Option.some.inj ht ▸ h.firstAudio first hfirst }
  · rw [haudioUnit]
    exact hdata ▸ List.prefix_rfl
  · rw [haudioUnit]
    exact hdata

theorem keeps_pushAudio {s : Fmp4Muxer} {frame : LiveAudioFrame} {timestampMs : ℚ} (h : s.Sound)
    (hw : s.Waits) (hfits : CallFits s (.pushAudio frame timestampMs)) :
    s.Keeps (.pushAudio frame timestampMs) (s.pushAudio frame timestampMs).1
      (s.pushAudio frame timestampMs).2 := by
  obtain ⟨htime, hgivenUp⟩ := hfits
  by_cases htaken : s.recordsAudio = true
  swap
  · have hskip : (!s.audioRequested || s.audioDisabled) = true := by
      rw [Bool.not_eq_true, recordsAudio] at htaken
      rw [← Bool.not_not s.audioDisabled, ← Bool.not_and, htaken]
      rfl
    rw [pushAudio, if_pos hskip]
    exact Keeps.idle h hw nofun rfl rfl rfl fun hrecords => absurd hrecords htaken
  have hgo : ¬(!s.audioRequested || s.audioDisabled) = true := by
    rw [recordsAudio] at htaken
    rw [← Bool.not_not s.audioDisabled, ← Bool.not_and, htaken]
    decide
  rw [pushAudio, if_neg hgo]
  cases hcodec : frame.codec with
  | g711a =>
    have hunit : (MuxCall.pushAudio frame timestampMs).audioUnit = [] := by
      rw [MuxCall.audioUnit, hcodec]
    by_cases hsent : s.initSent = true
    · dsimp only
      rw [if_pos hsent]
      exact Keeps.idle h hw nofun rfl rfl rfl fun _ => hunit
    · have hnone := hgivenUp hcodec (by simpa using hsent)
      dsimp only
      rw [if_neg hsent]
      refine keeps_announceInit ?_ rfl rfl rfl htaken ?_ fun hrecords => ?_
      · exact {
          described := fun hp =>
            ⟨(h.described hp).params, (h.described hp).width, (h.described hp).height⟩
          started := h.started
          track := fun hne => absurd hnone hne
          requested := h.requested
          firstVideo := h.firstVideo
          firstAudio := h.firstAudio }
      · rw [hnone]
        exact List.nil_prefix
      · rw [recordsAudio, Bool.not_true, Bool.and_false] at hrecords
        cases hrecords
  | aac codec =>
    dsimp only
    split
    · exact keeps_disableAudio h htaken
    · have hincomplete (hnone : frame.payload = none) :
          s.Keeps (.pushAudio frame timestampMs) (.error (.incompleteAdts codec)) s := by
        refine Keeps.idle h hw (fun e he => ?_) rfl rfl rfl fun _ => ?_
        · cases he
          rw [MuxCall.fault, hcodec]
          dsimp only
          rw [hnone]
          rfl
        · rw [MuxCall.audioUnit, hcodec, hnone]
      cases hheader : parseAdtsHeader frame.data with
      | none => exact hincomplete (by rw [LiveAudioFrame.payload, hheader])
      | some header =>
        dsimp only
        by_cases hshort : frame.data.length < header.frameLength
        · rw [if_pos hshort]
          exact hincomplete (by rw [LiveAudioFrame.payload, hheader]; exact if_pos hshort)
        · have hpayload : frame.payload = some (header,
              Buf.subarray frame.data header.headerLength header.frameLength) := by
            rw [LiveAudioFrame.payload, hheader]
            exact if_neg hshort
          rw [if_neg hshort]
          by_cases hother : header.frequencyIndex ≠ ADTS_FREQUENCY_INDEX_16K ∨
              header.channels ≠ ADTS_CHANNELS_MONO
          · rw [if_pos hother]
            exact keeps_disableAudio h htaken
          · rw [if_neg hother]
            refine keeps_aac h htime htaken ?_
            rw [MuxCall.audioUnit, hcodec, hpayload]
            rw [not_or, not_not, not_not] at hother
            exact if_pos hother

theorem keeps_call {s : Fmp4Muxer} {c : MuxCall} (h : s.Sound) (hw : s.Waits)
    (hfits : CallFits s c) : s.Keeps c (s.call c).1 (s.call c).2 := by
  cases c with
  | push frame timestampMs => exact keeps_push h hw hfits
  | pushAudio frame timestampMs => exact keeps_pushAudio h hw hfits
  | flush => exact keeps_flush h hw hfits

/-! ## Runs of calls -/

/-- What some calls write and leave queued, against what was queued before them. -/
structure Records (s : Fmp4Muxer) (calls : List MuxCall) : Prop where
  thrown : List.Forall₂ (fun c o => ∀ e, o = .error e → c.fault = some e) calls (s.outcomes calls)
  segments : ∀ segment ∈ s.segments calls, segment.WellFormed
  video : (s.segments calls).flatMap (MediaFragment.trackData 1) ++
    (s.behind calls).samples.map Sample.data =
      s.samples.map Sample.data ++ videoUnits s.params.isSome calls
  requested : (s.behind calls).audioRequested = s.audioRequested
  silent : s.recordsAudio = false → (s.behind calls).recordsAudio = false ∧
    (s.segments calls).flatMap (MediaFragment.trackData 2) = []
  audio : s.recordsAudio = true →
    (s.segments calls).flatMap (MediaFragment.trackData 2) <+:
        s.audioSamples.map Sample.data ++ audioUnits calls ∧
      ((s.behind calls).recordsAudio = true →
        (s.segments calls).flatMap (MediaFragment.trackData 2) ++
          (s.behind calls).audioSamples.map Sample.data =
            s.audioSamples.map Sample.data ++ audioUnits calls)

theorem segments_cons (s : Fmp4Muxer) (c : MuxCall) (calls : List MuxCall) :
    s.segments (c :: calls) = segmentsOf (s.call c).1 ++ (s.call c).2.segments calls := by
  rw [segments, outcomes, List.flatMap_cons]
  rfl

/-- A call before some calls. The audio that it gives up is not taken by a later one. -/
theorem Records.cons {s : Fmp4Muxer} {c : MuxCall} {calls : List MuxCall}
    (hhere : s.Keeps c (s.call c).1 (s.call c).2) (h : (s.call c).2.Records calls) :
    s.Records (c :: calls) where
  thrown := .cons hhere.thrown h.thrown
  segments := by
    rw [segments_cons]
    intro segment hmem
    cases List.mem_append.mp hmem with
    | inl hmem => exact hhere.segments segment hmem
    | inr hmem => exact h.segments segment hmem
  video := by
    rw [segments_cons, List.flatMap_append, List.append_assoc]
    change _ ++ (_ ++ ((s.call c).2.behind calls).samples.map Sample.data) = _
    rw [h.video, ← List.append_assoc, hhere.video, hhere.started, List.append_assoc]
    rfl
  requested := h.requested.trans hhere.requested
  silent := fun hsilent => by
    obtain ⟨hstill, hnothing⟩ := hhere.silent hsilent
    obtain ⟨hbehind, hlater⟩ := h.silent hstill
    refine ⟨hbehind, ?_⟩
    rw [segments_cons, List.flatMap_append, hnothing, hlater]
    rfl
  audio := fun htaken => by
    obtain ⟨hwritten, hall⟩ := hhere.audio htaken
    have hunits : s.audioSamples.map Sample.data ++ audioUnits (c :: calls) =
        s.audioSamples.map Sample.data ++ c.audioUnit ++ audioUnits calls := by
      rw [audioUnits, List.flatMap_cons, List.append_assoc]
      rfl
    rw [segments_cons, List.flatMap_append, hunits]
    change _ ∧ (((s.call c).2.behind calls).recordsAudio = true →
      _ ++ ((s.call c).2.behind calls).audioSamples.map Sample.data = _)
    cases hstill : (s.call c).2.recordsAudio with
    | true =>
      obtain ⟨hlater, hlaterAll⟩ := h.audio hstill
      rw [← hall hstill, List.append_assoc, List.append_assoc]
      exact ⟨(List.prefix_append_right_inj _).mpr hlater, fun hrecords => by
        rw [hlaterAll hrecords]⟩
    | false =>
      obtain ⟨hbehind, hlater⟩ := h.silent hstill
      rw [hlater, List.append_nil]
      refine ⟨((List.prefix_append _ _).trans hwritten).trans (List.prefix_append _ _), ?_⟩
      intro hrecords
      rw [hbehind] at hrecords
      cases hrecords

/-- By induction on the calls: each one keeps the invariant and what is recorded. -/
theorem records_of_fits {s : Fmp4Muxer} {calls : List MuxCall} (h : s.Sound) (hw : s.Waits)
    (hfits : Machine.StepsMeet step CallFits s calls) : s.Records calls := by
  induction calls generalizing s with
  | nil =>
    exact {
      thrown := .nil
      segments := nofun
      video := (List.append_nil _).symm
      requested := rfl
      silent := fun hsilent => ⟨hsilent, rfl⟩
      audio := fun _ => ⟨List.nil_prefix, fun _ => (List.append_nil _).symm⟩ }
  | cons c calls ih =>
    have hhere := keeps_call h hw hfits.1
    exact .cons hhere (ih hhere.sound hhere.waits (hfits.2 _ rfl))

theorem sound_new (opts : Fmp4Options) : (Fmp4Muxer.new opts).Sound where
  described := fun hp => absurd rfl hp
  started := fun hne => absurd rfl hne
  track := fun hne => absurd rfl hne
  requested := fun hne => absurd rfl hne
  firstVideo := nofun
  firstAudio := nofun

theorem waits_new (opts : Fmp4Options) : (Fmp4Muxer.new opts).Waits := fun hne => absurd rfl hne

end Fmp4Muxer

/-- **A recording whose calls fit** is well formed, and holds what was pushed. -/
theorem recordsWell_of_fits (opts : Fmp4Options) {calls : List MuxCall}
    (h : Machine.StepsMeet Fmp4Muxer.step CallFits (Fmp4Muxer.new opts) calls) :
    RecordsWell opts calls := by
  have hrecords := Fmp4Muxer.records_of_fits (Fmp4Muxer.sound_new opts)
    (Fmp4Muxer.waits_new opts) h
  have hnew : (Fmp4Muxer.new opts).recordsAudio = (Fmp4Muxer.new opts).audioRequested :=
    Bool.and_true _
  refine ⟨hrecords.thrown, hrecords.segments, hrecords.video, ?_, fun hrequested htaken => ?_⟩
  · cases hsilent : (Fmp4Muxer.new opts).recordsAudio with
    | true => exact (hrecords.audio hsilent).1
    | false =>
      rw [(hrecords.silent hsilent).2]
      exact List.nil_prefix
  · have hstart : (Fmp4Muxer.new opts).recordsAudio = true :=
      hnew.trans (hrecords.requested.symm.trans hrequested)
    refine (hrecords.audio hstart).2 ?_
    rw [Fmp4Muxer.recordsAudio, hrequested, htaken]
    rfl

/-! ## Two recordings -/

/-- An access unit with parameter sets that declare 128 by 96 pixels. -/
def startingUnit : LiveVideoFrame :=
  ⟨true, 128, 96, .h264, [0, 0, 0, 1, 0x67, 0x42, 0, 0x0a, 0xf8, 0x41, 0xa2,
    0, 0, 0, 1, 0x68, 0xce, 0x3c, 0x80, 0, 0, 0, 1, 0x65, 9, 9, 9]⟩

/-- A frame of mono AAC-LC at 16 kHz, with one byte behind its header. -/
def monoFrame : LiveAudioFrame := ⟨.aac .lc, [0xff, 0xf1, 0x60, 0x40, 0x01, 0x1f, 0xfc, 0xaa]⟩

/-- Two fragments, the first one with audio. -/
def twoFragments : List MuxCall :=
  [.push startingUnit 1000, .pushAudio monoFrame 1005, .push startingUnit 3100, .flush]

theorem twoFragments_recordsWell : RecordsWell { audio := some true } twoFragments :=
  recordsWell_of_fits { audio := some true } (by decide +kernel)

/-- AAC that is given up by G.711 before the recording starts. -/
def givenUpAudio : List MuxCall :=
  [.pushAudio monoFrame 1000, .pushAudio ⟨.g711a, [1]⟩ 1005, .push startingUnit 1100, .flush]

/-- The queued frame of AAC has an offset, but the fragment has no track for it. -/
theorem givenUpAudio_not_recordsWell : ¬RecordsWell { audio := some true } givenUpAudio := by
  intro h
  have hthrows : ((Fmp4Muxer.new { audio := some true }).outcomes givenUpAudio)[3]? =
      some (.error .dataOffsetCount) := by decide +kernel
  obtain ⟨hi, hget⟩ := List.getElem?_eq_some_iff.mp hthrows
  have hfault := h.thrown.get (i := 3) (by decide) hi .dataOffsetCount hget
  cases hfault

end EufySdk
