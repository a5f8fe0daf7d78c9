import Mathlib.Tactic
import EufySdk.Transport.P2p.Fmp4Recording

/-!
# The time line of a recording

A stream of access units, flushed at its end, is cut into fragments that begin with a keyframe and
follow one another in time. The duration of a unit is measured by the next one, so that the decode
time of a fragment, which is a running sum, telescopes to the distance from the first unit.

- `recordable` — the units of a stream from the first one on that a recording can start with
- `timed` — the units with their durations
- `RecordsTimeline` — the partition of the units into fragments
-/

namespace EufySdk

open Bytes IsoBox

/-- An access unit and the time it arrives at, in milliseconds. -/
structure Arrival where
  frame : LiveVideoFrame
  timestampMs : ℤ
  deriving DecidableEq, Repr

/-- The calls of a stream. -/
def streamCalls (arrivals : List Arrival) : List MuxCall :=
  arrivals.map (fun a => .push a.frame a.timestampMs) ++ [.flush]

/-- What is recorded of a stream. -/
def recordable (arrivals : List Arrival) : List Arrival :=
  (arrivals.filter fun a => a.frame.codec ≠ .av1).dropWhile fun a => !a.frame.opens

/-- A unit and its duration. -/
structure TimedUnit where
  arrival : Arrival
  ticks : ℚ

def TimedUnit.sample (u : TimedUnit) : Sample :=
  ⟨annexbToAvcc u.arrival.frame.data, u.ticks, u.arrival.frame.keyframe⟩

/-- The distance of two times, in ticks. -/
def ticksBetween (t u : ℤ) : ℤ := 90 * (u - t)

/-- Units with the durations that the next ones measure; there is none behind the last one. -/
def timed (last : ℚ) : List Arrival → List TimedUnit
  | [] => []
  | [a] => [⟨a, last⟩]
  | a :: b :: arrivals =>
    ⟨a, ticksBetween a.timestampMs b.timestampMs⟩ :: timed last (b :: arrivals)

/-- The decode time of the fragment of some units, in a recording that starts at `origin`. -/
def startTime (origin : ℤ) (group : List TimedUnit) : ℕ :=
  (ticksBetween origin ((group.head?.map fun u => u.arrival.timestampMs).getD origin)).toNat

/-- The one run of the fragment of some units. -/
def fragmentRun (origin : ℤ) (group : List TimedUnit) : MovieFragment.Run :=
  writtenRun 1 (startTime origin group) (group.map TimedUnit.sample)

/-- The fragments among some segments. -/
def fragmentsOf (segments : List MediaFragment) : List MediaFragment :=
  segments.filter fun segment => segment.data ≠ []

/-- Segments that hold `groups`, one fragment each, and one initialisation segment, which comes
first. -/
structure Partitions (origin : ℤ) (segments : List MediaFragment) (units : List TimedUnit)
    (groups : List (List TimedUnit)) : Prop where
  partition : groups.flatten = units
  keyframes : ∀ group ∈ groups, ∃ first rest, group = first :: rest ∧
    first.arrival.frame.keyframe = true
  fragments : (fragmentsOf segments).map (fun segment => MovieFragment.read segment.data) =
    groups.map fun group => some [fragmentRun origin group]
  inits : (segments.filterMap MediaFragment.init).length = if units = [] then 0 else 1
  initFirst : ∀ segment ∈ segments.head?, segment.init.isSome = true
  /-- The decode time of a fragment is the sum of the durations in the fragments before it. -/
  gapless : ∀ before group after, groups = before ++ group :: after → startTime origin group =
    (before.flatten.map fun u => u.sample.written.duration).sum

/-- A stream is recorded as its recordable units, from the time of the first of them on. -/
def RecordsTimeline (opts : Fmp4Options) (arrivals : List Arrival) : Prop :=
  ∃ groups, Partitions (((recordable arrivals).head?.map Arrival.timestampMs).getD 0)
    ((Fmp4Muxer.new opts).segments (streamCalls arrivals))
    (timed (Fmp4Muxer.new opts).firstDuration (recordable arrivals)) groups

/-- Units less than `2 ^ 32` ticks apart, about thirteen hours. -/
def Spaced (arrivals : List Arrival) : Prop :=
  arrivals.IsChain fun a b => ticksBetween a.timestampMs b.timestampMs < 2 ^ 32

/-! ## Durations -/

theorem timed_eq_nil {last : ℚ} {arrivals : List Arrival} :
    timed last arrivals = [] ↔ arrivals = [] := by
  cases arrivals with
  | nil => simp [timed]
  | cons a arrivals => cases arrivals <;> simp [timed]

/-- What is measured at the end of a queue is the time to the unit behind it. -/
theorem timed_append {last : ℚ} {queue : List Arrival} {l : Arrival}
    (hlast : queue.getLast? = some l) (a : Arrival) (arrivals : List Arrival) :
    timed last (queue ++ a :: arrivals) =
      timed (ticksBetween l.timestampMs a.timestampMs) queue ++ timed last (a :: arrivals) := by
  induction queue with
  | nil => cases hlast
  | cons b queue ih =>
    cases queue with
    | nil =>
      obtain rfl := Option.some.inj hlast
      rfl
    | cons c queue =>
      rw [List.getLast?_cons_cons] at hlast
      rw [List.cons_append, List.cons_append, timed, ← List.cons_append, ih hlast, timed,
        List.cons_append]

theorem setLastDuration_timed (last duration : ℚ) (queue : List Arrival) :
    Fmp4Muxer.setLastDuration duration ((timed last queue).map TimedUnit.sample) =
      (timed duration queue).map TimedUnit.sample := by
  induction queue with
  | nil => rfl
  | cons a queue ih =>
    cases queue with
    | nil => rfl
    | cons b queue =>
      have hne : (timed last (b :: queue)).map TimedUnit.sample ≠ [] := fun hnil =>
        List.cons_ne_nil _ _ (timed_eq_nil.mp (List.map_eq_nil_iff.mp hnil))
      rw [timed, timed, List.map_cons, List.map_cons, ← ih]
      obtain ⟨x, rest, hrest⟩ := List.exists_cons_of_ne_nil hne
      rw [hrest]
      rfl

/-- The durations of a queue telescope. -/
theorem sum_timed {duration : ℚ} {first l : Arrival} {queue : List Arrival}
    (hlast : (first :: queue).getLast? = some l) :
    ((timed duration (first :: queue)).map TimedUnit.ticks).sum =
      ticksBetween first.timestampMs l.timestampMs + duration := by
  induction queue generalizing first with
  | nil =>
    obtain rfl := Option.some.inj hlast
    simp [timed, ticksBetween]
  | cons b queue ih =>
    rw [List.getLast?_cons_cons] at hlast
    rw [timed, List.map_cons, List.sum_cons, ih hlast]
    simp only [ticksBetween]
    push_cast
    ring

theorem sum_timed_measured {first l a : Arrival} {queue : List Arrival}
    (hlast : (first :: queue).getLast? = some l) :
    ((timed (ticksBetween l.timestampMs a.timestampMs) (first :: queue)).map TimedUnit.ticks).sum =
      ticksBetween first.timestampMs a.timestampMs := by
  rw [sum_timed hlast]
  simp only [ticksBetween]
  push_cast
  ring

theorem toUint32_natCast {n : ℕ} (h : n < 2 ^ 32) : toUint32 n = n := by
  rw [toUint32, if_pos (Nat.cast_nonneg n), Int.floor_natCast, Int.emod_eq_of_lt (by omega)
    (by omega), Int.toNat_natCast]

/-- The durations that are written, up to a unit, telescope too. -/
theorem sum_written {last : ℚ} {first : Arrival} {queue : List Arrival} {before after : List TimedUnit}
    {u : TimedUnit} (hordered : (first :: queue).Pairwise fun a b => a.timestampMs < b.timestampMs)
    (hspaced : Spaced (first :: queue))
    (h : timed last (first :: queue) = before ++ u :: after) :
    (((before.map fun u => u.sample.written.duration).sum : ℕ) : ℤ) =
      ticksBetween first.timestampMs u.arrival.timestampMs := by
  induction before generalizing first queue with
  | nil =>
    have hu : u.arrival = first := by
      cases queue with
      | nil => exact congrArg TimedUnit.arrival (List.cons.inj h).1.symm
      | cons b queue => exact congrArg TimedUnit.arrival (List.cons.inj h).1.symm
    rw [hu]
    simp [ticksBetween]
  | cons v before ih =>
    cases queue with
    | nil => exact absurd (List.cons.inj h).2.symm (List.append_ne_nil_of_right_ne_nil _ (by simp))
    | cons b queue =>
      obtain ⟨hv, hrest⟩ := List.cons.inj h
      obtain ⟨hgap, hspaced⟩ := List.isChain_cons_cons.mp hspaced
      obtain ⟨hlater, hordered⟩ := List.pairwise_cons.mp hordered
      have hlt := hlater b List.mem_cons_self
      have hduration : ((v.sample.written.duration : ℕ) : ℤ) =
          ticksBetween first.timestampMs b.timestampMs := by
        obtain ⟨n, hn⟩ := Int.eq_ofNat_of_zero_le
          (show 0 ≤ ticksBetween first.timestampMs b.timestampMs by rw [ticksBetween]; omega)
        rw [← hv]
        change ((toUint32 ((ticksBetween first.timestampMs b.timestampMs : ℤ) : ℚ) : ℕ) : ℤ) = _
        rw [hn] at hgap ⊢
        rw [Int.cast_natCast, toUint32_natCast (by omega)]
      rw [List.map_cons, List.sum_cons, Nat.cast_add, hduration, ih hordered hspaced hrest]
      simp only [ticksBetween]
      omega

/-! ## A muxer that records -/

namespace Fmp4Muxer

/-- A muxer that records since `origin`, with `queue` in its open fragment. The last unit arrived at
`last`, and is held for `duration` until it is measured, or for good. -/
structure Films (s : Fmp4Muxer) (origin : ℤ) (fallback : ℚ) (queue : List Arrival) (last : ℤ)
    (duration : ℚ) : Prop where
  params : s.params ≠ none
  audioSamples : s.audioSamples = []
  firstAudio : s.firstAudioTimestampMs = none
  firstVideo : s.firstVideoTimestampMs = some (origin : ℚ)
  firstDuration : s.firstDuration = fallback
  samples : s.samples = (timed duration queue).map TimedUnit.sample
  last : s.lastVideoTimestampMs = some (last : ℚ)
  starts : ∃ first rest, queue = first :: rest ∧ first.frame.keyframe = true ∧
    origin ≤ first.timestampMs ∧
    s.baseDecodeTime = ticksBetween origin first.timestampMs ∧
    (s.initSent = false → first.timestampMs = origin)

variable {s : Fmp4Muxer} {origin last : ℤ} {fallback duration : ℚ} {queue : List Arrival}

/-- Without audio, aligning leaves a recording where it starts. -/
theorem Films.alignTimeline (h : s.Films origin fallback queue last duration)
    (hsent : s.initSent = false) : s.alignTimeline.baseDecodeTime = s.baseDecodeTime := by
  obtain ⟨first, rest, -, -, -, hbase, hfirst⟩ := h.starts
  have hround : mathRound 0 = 0 := by decide +kernel
  rw [Fmp4Muxer.alignTimeline, h.firstVideo, h.firstAudio]
  split
  · next firstVideo _ hvideo =>
    obtain rfl := Option.some.inj hvideo
    rw [hbase, hfirst hsent]
    simp [ticksBetween, hround]
  · rfl

theorem Films.opened (h : s.Films origin fallback queue last duration) (hsent : s.initSent = false) :
    s.opened.Films origin fallback queue last duration := by
  obtain ⟨first, rest, hqueue, hkey, hle, hbase, hfirst⟩ := h.starts
  have hkept := h.alignTimeline hsent
  obtain ⟨timelineOrigin, video, audio, aligned, heq⟩ := s.alignTimeline_eq
  rw [heq] at hkept
  rw [Fmp4Muxer.opened, heq]
  exact { h with starts := ⟨first, rest, hqueue, hkey, hle, hkept.trans hbase, fun hfalse => by cases hfalse⟩ }

theorem Films.settled (h : s.Films origin fallback queue last duration) :
    s.settled.Films origin fallback queue last duration := by
  rw [Fmp4Muxer.settled]
  by_cases hsent : s.initSent = true
  · rw [if_pos hsent]
    exact h
  · have hdisabled : { s with audioDisabled := s.audioCodec.isNone }.Films origin fallback queue
        last duration := { h with }
    rw [if_neg hsent]
    exact hdisabled.opened (by simpa using hsent)

/-- The run of the open fragment. -/
theorem Films.runs (h : s.Films origin fallback queue last duration) :
    s.runs = [fragmentRun origin (timed duration queue)] := by
  obtain ⟨first, rest, hqueue, -, -, hbase, -⟩ := h.starts
  have hhead : (timed duration queue).head?.map (fun u => u.arrival.timestampMs) =
      some first.timestampMs := by
    rw [hqueue]
    cases rest <;> rfl
  rw [Fmp4Muxer.runs, writtenRuns, if_pos h.audioSamples, fragmentRun, startTime, hhead, h.samples,
    hbase, wholeTime, Rat.num_intCast, Option.getD_some]

/-- The next unit measures the one before it. -/
theorem Films.measure {l : Arrival} (h : s.Films origin fallback queue l.timestampMs duration)
    {t : ℤ} (hlt : l.timestampMs < t) :
    (s.measure t).Films origin fallback queue t (ticksBetween l.timestampMs t) := by
  obtain ⟨first, rest, hqueue, hkey, hle, hbase, hfirst⟩ := h.starts
  have hsome : s.samples.getLast? ≠ none := by
    rw [h.samples, hqueue]
    cases rest <;> simp [timed]
  obtain ⟨previous, hprevious⟩ := Option.ne_none_iff_exists'.mp hsome
  have hmeasured : mathRound (((t : ℚ) - l.timestampMs) * (TIMESCALE / 1000)) =
      ticksBetween l.timestampMs t := by
    have hticks : ((t : ℚ) - l.timestampMs) * (TIMESCALE / 1000) =
        (ticksBetween l.timestampMs t : ℤ) := by
      simp only [ticksBetween, TIMESCALE]
      push_cast
      ring
    rw [hticks, mathRound]
    exact Int.floor_eq_iff.mpr ⟨by linarith, by linarith⟩
  have hpos : 0 < ticksBetween l.timestampMs t := by
    rw [ticksBetween]
    omega
  rw [Fmp4Muxer.measure, h.last, hprevious]
  dsimp only
  rw [hmeasured, if_pos hpos]
  exact { h with
    samples := by
      rw [h.samples]
      exact setLastDuration_timed duration _ queue
    last := rfl
    starts := ⟨first, rest, hqueue, hkey, hle, hbase, hfirst⟩ }

/-- A unit that closes no fragment goes behind the others. -/
theorem Films.enqueue {l a : Arrival}
    (h : s.Films origin fallback queue a.timestampMs (ticksBetween l.timestampMs a.timestampMs))
    (hlast : queue.getLast? = some l) :
    (s.enqueue a.frame).Films origin fallback (queue ++ [a]) a.timestampMs fallback := by
  obtain ⟨first, rest, hqueue, hkey, hle, hbase, hfirst⟩ := h.starts
  exact { h with
    samples := by
      rw [Fmp4Muxer.enqueue, timed_append hlast, List.map_append, ← h.samples, h.firstDuration]
      rfl
    starts := ⟨first, rest ++ [a], by rw [hqueue]; rfl, hkey, hle, hbase, hfirst⟩ }

/-- A unit that closes a fragment begins the next one where that one ends. -/
theorem Films.next {l a : Arrival}
    (h : s.Films origin fallback queue a.timestampMs (ticksBetween l.timestampMs a.timestampMs))
    (hlast : queue.getLast? = some l) (hlt : l.timestampMs < a.timestampMs)
    (hsent : s.initSent = true) (hkey : a.frame.keyframe = true)
    (hqueue : ∀ b ∈ queue, origin ≤ b.timestampMs) :
    (s.cleared.enqueue a.frame).Films origin fallback [a] a.timestampMs fallback := by
  obtain ⟨first, rest, hfirst, -, hle, hbase, -⟩ := h.starts
  have hadvance : ticks s.samples = ticksBetween first.timestampMs a.timestampMs := by
    rw [ticks, h.samples, List.map_map]
    rw [hfirst] at hlast ⊢
    exact sum_timed_measured hlast
  have horigin := hqueue l (List.mem_of_getLast? hlast)
  exact {
    params := h.params
    audioSamples := rfl
    firstAudio := h.firstAudio
    firstVideo := h.firstVideo
    firstDuration := h.firstDuration
    samples := by
      have hfallback : s.cleared.firstDuration = fallback := h.firstDuration
      rw [Fmp4Muxer.enqueue, hfallback]
      rfl
    last := h.last
    starts := by
      refine ⟨a, [], rfl, hkey, by omega, ?_, fun hnot => ?_⟩
      · change s.baseDecodeTime + ticks s.samples = _
        rw [hadvance, hbase]
        simp only [ticksBetween]
        push_cast
        ring
      · change s.initSent = false at hnot
        rw [hsent] at hnot
        cases hnot }

theorem Films.enqueued {frame : LiveVideoFrame}
    (h : (s.enqueue frame).Films origin fallback queue last duration) :
    (s.enqueued frame).Films origin fallback queue last duration := by
  rw [Fmp4Muxer.enqueued]
  by_cases hready : (s.enqueue frame).ready = true
  · rw [if_pos hready]
    rw [ready, Bool.and_eq_true] at hready
    exact h.opened (by simpa using hready.1)
  · rw [if_neg hready]
    exact h

/-! ## One unit -/

/-- What becomes of the initialisation segment in some segments: it is there at most once, in the
first one. -/
def Announces (sent : Bool) (segments : List MediaFragment) (after : Bool) : Prop :=
  if sent then after = true ∧ ∀ segment ∈ segments, segment.init = none
  else (after = false ∧ segments = []) ∨
    (after = true ∧ ∃ first rest, segments = first :: rest ∧ first.init.isSome = true ∧
      ∀ segment ∈ rest, segment.init = none)

theorem Announces.append {sent between after : Bool} {segments later : List MediaFragment}
    (h : Announces sent segments between) (hlater : Announces between later after) :
    Announces sent (segments ++ later) after := by
  cases sent with
  | true =>
    obtain ⟨rfl, hnone⟩ := h
    obtain ⟨rfl, hlaterNone⟩ := hlater
    exact ⟨rfl, fun segment hmem => (List.mem_append.mp hmem).elim (hnone segment)
      (hlaterNone segment)⟩
  | false =>
    obtain ⟨rfl, rfl⟩ | ⟨rfl, first, rest, rfl, hinit, hnone⟩ := h
    · exact hlater
    · obtain ⟨rfl, hlaterNone⟩ := hlater
      exact .inr ⟨rfl, first, rest ++ later, rfl, hinit, fun segment hmem =>
        (List.mem_append.mp hmem).elim (hnone segment) (hlaterNone segment)⟩

/-- A segment with an initialisation segment where that is still to be sent. -/
theorem announces_singleton {sent : Bool} {segment : MediaFragment}
    (h : segment.init.isSome = !sent) : Announces sent [segment] true := by
  cases sent with
  | true =>
    refine ⟨rfl, fun other hmem => ?_⟩
    rw [List.mem_singleton.mp hmem]
    simpa using h
  | false => exact .inr ⟨rfl, segment, [], rfl, h, nofun⟩

theorem fragmentsOf_append (segments later : List MediaFragment) :
    fragmentsOf (segments ++ later) = fragmentsOf segments ++ fragmentsOf later :=
  List.filter_append segments later

/-- A fragment just written. -/
theorem fragmentsOf_written (hw : s.Writable) (init : Option Buffer) (keyframe : Bool) :
    fragmentsOf [⟨init, MovieFragment.encode s.seq s.runs, keyframe⟩] =
      [⟨init, MovieFragment.encode s.seq s.runs, keyframe⟩] := by
  have hne : MovieFragment.encode s.seq s.runs ≠ [] := by
    intro hnil
    have hread := read_runs hw
    rw [hnil] at hread
    cases hread
  rw [fragmentsOf, List.filter_cons_of_pos (by simpa using hne), List.filter_nil]

theorem push_eq {frame : LiveVideoFrame} (timestampMs : ℚ) (hcodec : frame.codec ≠ .av1)
    (hparams : s.params ≠ none) :
    s.push frame timestampMs = (s.measure timestampMs).cutAndEnqueue frame := by
  have hadopt : s.adopt frame timestampMs = some s := by
    rw [adopt, if_pos (Option.isSome_iff_ne_none.mpr hparams)]
  rw [push, if_neg hcodec, hadopt]
  rfl

/-- A unit that closes no fragment is queued, and the initialisation segment may be sent. -/
theorem cutAndEnqueue_idle {frame : LiveVideoFrame} (hsound : s.Sound) (hparams : s.params ≠ none)
    (hcut : s.cut frame = (.ok (none, none), s)) :
    (s.cutAndEnqueue frame).2 = s.enqueued frame ∧
      fragmentsOf (segmentsOf (s.cutAndEnqueue frame).1) = [] ∧
      Announces s.initSent (segmentsOf (s.cutAndEnqueue frame).1) (s.enqueued frame).initSent := by
  obtain ⟨sent, hopen, -, hsent⟩ :=
    openInit_ok (sound_enqueue hsound hparams frame) hparams nestedInit_none
  have hresult : s.cutAndEnqueue frame =
      (.ok ((s.enqueued frame).emit sent none), s.enqueued frame) := by
    rw [Fmp4Muxer.cutAndEnqueue, hcut, Outcome.bind_ok, hopen]
    rfl
  rw [Option.isSome_none, Bool.or_false] at hsent
  rw [hresult]
  cases sent with
  | none =>
    -- Nothing is sent: the initialisation segment is sent already, or waits for audio.
    have hafter : (s.enqueued frame).initSent = s.initSent := by
      rw [Fmp4Muxer.enqueued, ← hsent]
      rfl
    refine ⟨rfl, rfl, ?_⟩
    rw [hafter]
    cases s.initSent with
    | true => exact ⟨rfl, fun _ hmem => by cases hmem⟩
    | false => exact .inl ⟨rfl, rfl⟩
  | some bytes =>
    have hready : (s.enqueue frame).ready = true := hsent.symm
    have hnotSent : s.initSent = false := by
      rw [ready, Bool.and_eq_true] at hready
      simpa [Fmp4Muxer.enqueue] using hready.1
    have hafter : (s.enqueued frame).initSent = true := by
      rw [Fmp4Muxer.enqueued, if_pos hready]
      rfl
    refine ⟨rfl, rfl, ?_⟩
    rw [hafter, hnotSent]
    exact announces_singleton rfl

/-- A unit is queued, or it begins the next fragment. -/
theorem Films.cutAndEnqueue {l a : Arrival} (hsound : s.Sound)
    (h : s.Films origin fallback queue a.timestampMs (ticksBetween l.timestampMs a.timestampMs))
    (hlast : queue.getLast? = some l) (hlt : l.timestampMs < a.timestampMs)
    (hqueue : ∀ b ∈ queue, origin ≤ b.timestampMs)
    (hw : a.frame.keyframe = true → s.Writable) :
    Announces s.initSent (segmentsOf (s.cutAndEnqueue a.frame).1)
        (s.cutAndEnqueue a.frame).2.initSent ∧
      ((fragmentsOf (segmentsOf (s.cutAndEnqueue a.frame).1) = [] ∧
          (s.cutAndEnqueue a.frame).2.Films origin fallback (queue ++ [a]) a.timestampMs fallback) ∨
        ((fragmentsOf (segmentsOf (s.cutAndEnqueue a.frame).1)).map
              (fun segment => MovieFragment.read segment.data) =
            [some [fragmentRun origin
              (timed (ticksBetween l.timestampMs a.timestampMs) queue)]] ∧
          (s.cutAndEnqueue a.frame).2.Films origin fallback [a] a.timestampMs fallback)) := by
  obtain hcut | ⟨init, -, hwritable, hinit, hinitSent, hcut⟩ := cut_ok hsound h.params hw
  · obtain ⟨hafter, hnothing, hannounces⟩ := cutAndEnqueue_idle hsound h.params hcut
    rw [hafter]
    exact ⟨hannounces, .inl ⟨hnothing, (h.enqueue hlast).enqueued⟩⟩
  · obtain ⟨hclosedSound, hclosedParams, -, -, -, -, hclosedSent, -⟩ := closed_spec hsound hwritable
    have hclosed : s.settled.cleared.params ≠ none := hclosedParams ▸ h.params
    have hkey : a.frame.keyframe = true := by
      by_contra hnot
      rw [cut, if_neg fun hand => hnot hand.1] at hcut
      cases hcut
    obtain ⟨sent, hopen, -, hsent⟩ :=
      openInit_ok (sound_enqueue hclosedSound hclosed a.frame) hclosed hinit
    have hnotReady : (s.settled.cleared.enqueue a.frame).ready = false := by
      change (!s.settled.cleared.initSent && _) = false
      rw [hclosedSent]
      rfl
    have hresult : s.cutAndEnqueue a.frame =
        (.ok (some ⟨sent, MovieFragment.encode s.settled.seq s.settled.runs,
          (s.settled.cleared.enqueue a.frame).samplesStartKeyframe⟩),
          s.settled.cleared.enqueue a.frame) := by
      rw [Fmp4Muxer.cutAndEnqueue, hcut, Outcome.bind_ok, hopen, hnotReady, Outcome.bind_ok,
        if_neg Bool.false_ne_true, emit, Option.isSome_some, Bool.or_true, if_pos rfl]
      rfl
    have hsettledWritable := writable_settled hsound hwritable
    rw [hresult]
    refine ⟨?_, .inr ⟨?_, ?_⟩⟩
    · rw [show (s.settled.cleared.enqueue a.frame).initSent = true from hclosedSent]
      refine announces_singleton ?_
      rw [hnotReady, Bool.false_or] at hsent
      exact hsent.trans hinitSent
    · change (fragmentsOf [_]).map _ = _
      rw [fragmentsOf_written hsettledWritable, List.map_singleton, read_runs hsettledWritable,
        h.settled.runs]
    · exact h.settled.next hlast hlt hclosedSent hkey hqueue

/-- Flushing closes the last fragment. -/
theorem Films.flush (hsound : s.Sound) (h : s.Films origin fallback queue last duration)
    (hw : s.Writable) :
    Announces s.initSent (segmentsOf s.flush.1) true ∧
      (fragmentsOf (segmentsOf s.flush.1)).map (fun segment => MovieFragment.read segment.data) =
        [some [fragmentRun origin (timed duration queue)]] := by
  obtain ⟨first, rest, hqueue, -⟩ := h.starts
  have hsamples : s.samples ≠ [] := by
    rw [h.samples, hqueue]
    exact fun hnil => List.cons_ne_nil _ _ (timed_eq_nil.mp (List.map_eq_nil_iff.mp hnil))
  obtain ⟨init, hclose, -, hinit⟩ := closeFragment_ok hsound h.params hw
  have hwritable := writable_settled hsound hw
  rw [Fmp4Muxer.flush, if_neg hsamples, hclose]
  refine ⟨announces_singleton hinit, ?_⟩
  change (fragmentsOf [_]).map _ = _
  rw [fragmentsOf_written hwritable, List.map_singleton, read_runs hwritable, h.settled.runs]

/-! ## Runs -/

/-- What is recorded from some state on. -/
structure Follows (origin : ℤ) (sent : Bool) (segments : List MediaFragment)
    (units : List TimedUnit) (groups : List (List TimedUnit)) : Prop where
  partition : groups.flatten = units
  keyframes : ∀ group ∈ groups, ∃ first rest, group = first :: rest ∧
    first.arrival.frame.keyframe = true
  fragments : (fragmentsOf segments).map (fun segment => MovieFragment.read segment.data) =
    groups.map fun group => some [fragmentRun origin group]
  announces : Announces sent segments true

/-- The unit that a queue begins with is a keyframe, whatever its duration. -/
theorem Films.startsKeyframe (h : s.Films origin fallback queue last duration) (other : ℚ) :
    ∃ first rest, timed other queue = first :: rest ∧ first.arrival.frame.keyframe = true := by
  obtain ⟨first, rest, hqueue, hkey, -⟩ := h.starts
  rw [hqueue]
  cases rest with
  | nil => exact ⟨_, _, rfl, hkey⟩
  | cons b rest => exact ⟨_, _, rfl, hkey⟩

theorem stream_cons (a : Arrival) (arrivals : List Arrival) :
    streamCalls (a :: arrivals) = .push a.frame a.timestampMs :: streamCalls arrivals := rfl

/-- By induction on the units that are still to come. -/
theorem Films.follows {l : Arrival} {arrivals : List Arrival} (hsound : s.Sound) (hwaits : s.Waits)
    (h : s.Films origin fallback queue l.timestampMs fallback) (hlast : queue.getLast? = some l)
    (hlater : ∀ a ∈ arrivals, l.timestampMs < a.timestampMs)
    (hordered : arrivals.Pairwise fun a b => a.timestampMs < b.timestampMs)
    (hqueue : ∀ b ∈ queue, origin ≤ b.timestampMs)
    (hfits : Machine.StepsMeet step CallFits s (streamCalls arrivals)) :
    ∃ groups, Follows origin s.initSent (s.segments (streamCalls arrivals))
      (timed fallback (queue ++ arrivals.filter fun a => a.frame.codec ≠ .av1)) groups := by
  induction arrivals generalizing s queue l with
  | nil =>
    obtain ⟨hannounces, hfragments⟩ := h.flush hsound hfits.1
    refine ⟨[timed fallback queue], ?_⟩
    have hsegments : s.segments (streamCalls []) = segmentsOf s.flush.1 := List.append_nil _
    rw [hsegments, List.filter_nil, List.append_nil]
    exact {
      partition := List.append_nil _
      keyframes := fun group hmem => List.mem_singleton.mp hmem ▸ h.startsKeyframe fallback
      fragments := hfragments
      announces := hannounces }
  | cons a arrivals ih =>
    obtain ⟨hhere, hrest⟩ := hfits
    have hrest := hrest _ rfl
    obtain ⟨hbefore, hordered⟩ := List.pairwise_cons.mp hordered
    have hkeeps := keeps_call hsound hwaits hhere
    rw [stream_cons, segments_cons]
    change Machine.StepsMeet step CallFits (s.push a.frame a.timestampMs).2 _ at hrest
    by_cases hcodec : a.frame.codec = .av1
    · have hthrows : s.push a.frame a.timestampMs = (.error .av1, s) := if_pos hcodec
      rw [hthrows] at hrest
      obtain ⟨groups, hfollows⟩ := ih hsound hwaits h hlast
        (fun b hb => hlater b (List.mem_cons_of_mem a hb)) hordered hqueue hrest
      refine ⟨groups, ?_⟩
      rw [List.filter_cons_of_neg (by simpa using hcodec), call, hthrows]
      exact hfollows
    · have hlt := hlater a List.mem_cons_self
      have hmeasured := h.measure hlt
      have hpush := push_eq a.timestampMs hcodec h.params
      have hwritable : a.frame.keyframe = true → (s.measure a.timestampMs).Writable := by
        intro hkey
        obtain ⟨fragTicks, samples, heq, hdata⟩ := s.measure_eq a.timestampMs
        exact (hhere.2.2 hkey).of_data (by rw [heq]) (by rw [heq]) (by rw [heq]; exact hdata)
          (by rw [heq])
      have hinitSent : (s.measure a.timestampMs).initSent = s.initSent := by
        obtain ⟨fragTicks, samples, heq, -⟩ := s.measure_eq a.timestampMs
        rw [heq]
      have hbefore (b : Arrival) (hb : b ∈ arrivals) : a.timestampMs < b.timestampMs := hbefore b hb
      have horigin : origin ≤ a.timestampMs :=
        (hqueue l (List.mem_of_getLast? hlast)).trans hlt.le
      obtain ⟨hannounces, hcases⟩ := hmeasured.cutAndEnqueue (sound_measure hsound a.timestampMs)
        hlast hlt hqueue hwritable
      rw [call] at hkeeps ⊢
      rw [hpush] at hkeeps hrest ⊢
      rw [hinitSent] at hannounces
      rw [List.filter_cons_of_pos (by simpa using hcodec)]
      obtain ⟨hnothing, hfilms⟩ | ⟨hfragment, hfilms⟩ := hcases
      · have hlonger : ∀ b ∈ queue ++ [a], origin ≤ b.timestampMs := by
          intro b hb
          obtain hb | hb := List.mem_append.mp hb
          · exact hqueue b hb
          · exact List.mem_singleton.mp hb ▸ horigin
        obtain ⟨groups, hfollows⟩ := ih hkeeps.sound hkeeps.waits hfilms (by simp) hbefore hordered
          hlonger hrest
        rw [List.append_assoc, List.singleton_append] at hfollows
        refine ⟨groups, ?_⟩
        exact {
          partition := hfollows.partition
          keyframes := hfollows.keyframes
          fragments := by
            rw [fragmentsOf_append, hnothing]
            exact hfollows.fragments
          announces := hannounces.append hfollows.announces }
      · obtain ⟨groups, hfollows⟩ := ih hkeeps.sound hkeeps.waits hfilms rfl hbefore hordered
          (fun b hb => List.mem_singleton.mp hb ▸ horigin) hrest
        refine ⟨timed (ticksBetween l.timestampMs a.timestampMs) queue :: groups, ?_⟩
        exact {
          partition := by
            rw [List.flatten_cons, hfollows.partition, timed_append hlast]
            rfl
          keyframes := fun group hmem => by
            cases List.mem_cons.mp hmem with
            | inl heq => exact heq ▸ h.startsKeyframe _
            | inr hmem => exact hfollows.keyframes group hmem
          fragments := by
            rw [fragmentsOf_append, List.map_append, hfragment, hfollows.fragments]
            rfl
          announces := hannounces.append hfollows.announces }

/-- The muxer behind the unit that the recording starts with. -/
theorem films_start (opts : Fmp4Options) {t : Fmp4Muxer} {a : Arrival}
    (hadopt : (new opts).adopt a.frame a.timestampMs = some t) :
    ((t.measure a.timestampMs).enqueue a.frame).Films a.timestampMs (new opts).firstDuration [a]
        a.timestampMs (new opts).firstDuration ∧ a.frame.keyframe = true ∧
      (t.measure a.timestampMs).samples = [] ∧ (t.measure a.timestampMs).initSent = false := by
  obtain ⟨hsome, -⟩ | ⟨-, hkey, ps, codec, -, -, rfl⟩ := adopt_eq_some hadopt
  · exact absurd rfl hsome
  · refine ⟨?_, hkey, rfl, rfl⟩
    exact {
      params := nofun
      audioSamples := rfl
      firstAudio := rfl
      firstVideo := rfl
      firstDuration := rfl
      samples := rfl
      last := rfl
      starts := ⟨a, [], rfl, hkey, le_rfl, by simp [ticksBetween]; rfl, fun _ => rfl⟩ }

/-- A stream is recorded from the first unit on that a recording can start with, where there is
one. -/
theorem follows_stream (opts : Fmp4Options) {arrivals : List Arrival}
    (hordered : arrivals.Pairwise fun a b => a.timestampMs < b.timestampMs)
    (hfits : Machine.StepsMeet step CallFits (new opts) (streamCalls arrivals)) :
    (recordable arrivals = [] ∧ (new opts).segments (streamCalls arrivals) = []) ∨
      ∃ first rest groups, recordable arrivals = first :: rest ∧
        Follows first.timestampMs false ((new opts).segments (streamCalls arrivals))
          (timed (new opts).firstDuration (first :: rest)) groups := by
  induction arrivals with
  | nil => exact .inl ⟨rfl, rfl⟩
  | cons a arrivals ih =>
    obtain ⟨hhere, hrest⟩ := hfits
    have hrest := hrest _ rfl
    obtain ⟨hbefore, hordered⟩ := List.pairwise_cons.mp hordered
    have hkeeps := keeps_call (sound_new opts) (waits_new opts) hhere
    rw [stream_cons, segments_cons]
    change Machine.StepsMeet step CallFits ((new opts).push a.frame a.timestampMs).2 _ at hrest
    -- A unit that is left out leaves the muxer as it is.
    have hskip {o : Except MuxError (Option MediaFragment)} (ho : segmentsOf o = [])
        (hpush : (new opts).push a.frame a.timestampMs = (o, new opts))
        (hrecordable : recordable (a :: arrivals) = recordable arrivals) :
        (recordable (a :: arrivals) = [] ∧
            segmentsOf ((new opts).call (.push a.frame a.timestampMs)).1 ++
              ((new opts).call (.push a.frame a.timestampMs)).2.segments (streamCalls arrivals) = []) ∨
          ∃ first rest groups, recordable (a :: arrivals) = first :: rest ∧
            Follows first.timestampMs false
              (segmentsOf ((new opts).call (.push a.frame a.timestampMs)).1 ++
                ((new opts).call (.push a.frame a.timestampMs)).2.segments (streamCalls arrivals))
              (timed (new opts).firstDuration (first :: rest)) groups := by
      rw [hpush] at hrest
      rw [call, hpush, hrecordable, ho]
      exact ih hordered hrest
    by_cases hcodec : a.frame.codec = .av1
    · refine hskip rfl (if_pos hcodec) ?_
      rw [recordable, List.filter_cons_of_neg (by simpa using hcodec)]
      rfl
    · have hkept : (a :: arrivals).filter (fun a => a.frame.codec ≠ .av1) =
          a :: arrivals.filter fun a => a.frame.codec ≠ .av1 :=
        List.filter_cons_of_pos (by simpa using hcodec)
      cases hadopt : (new opts).adopt a.frame a.timestampMs with
      | none =>
        obtain ⟨-, hopens⟩ := adopt_eq_none hadopt
        refine hskip (o := .ok none) rfl ?_ ?_
        · rw [push, if_neg hcodec, hadopt]
        · rw [recordable, hkept, List.dropWhile_cons_of_pos (by rw [hopens]; rfl)]
          rfl
      | some t =>
        obtain ⟨hfilms, hkey, hsamples, hnotSent⟩ := films_start opts hadopt
        obtain ⟨hsound, hparams, hopens, -⟩ := adopt_spec (sound_new opts) hcodec hhere.1 hhere.2.1
          hadopt
        have hcut : (t.measure a.timestampMs).cut a.frame =
            (.ok (none, none), t.measure a.timestampMs) :=
          if_neg fun hand => hand.2.1 hsamples
        have hmeasuredParams : (t.measure a.timestampMs).params ≠ none := hfilms.params
        obtain ⟨hafter, hnothing, hannounces⟩ := cutAndEnqueue_idle
          (sound_measure hsound a.timestampMs) hmeasuredParams hcut
        have hpush : (new opts).push a.frame a.timestampMs =
            (t.measure a.timestampMs).cutAndEnqueue a.frame := by
          rw [push, if_neg hcodec, hadopt]
          rfl
        have hopens : a.frame.opens = true := by simpa [new] using hopens
        rw [call] at hkeeps ⊢
        rw [hpush, hafter] at hkeeps hrest
        rw [hpush, hafter]
        obtain ⟨groups, hfollows⟩ := hfilms.enqueued.follows hkeeps.sound hkeeps.waits rfl hbefore
          hordered (fun b hb => List.mem_singleton.mp hb ▸ le_rfl) hrest
        refine .inr ⟨a, arrivals.filter fun a => a.frame.codec ≠ .av1, groups, ?_, ?_⟩
        · rw [recordable, hkept, List.dropWhile_cons_of_neg (by rw [hopens]; decide)]
        · rw [hnotSent] at hannounces
          exact {
            partition := hfollows.partition
            keyframes := hfollows.keyframes
            fragments := by
              rw [fragmentsOf_append, hnothing]
              exact hfollows.fragments
            announces := hannounces.append hfollows.announces }

/-- The first segments have the one initialisation segment. -/
theorem Announces.inits {segments : List MediaFragment} (h : Announces false segments true) :
    (segments.filterMap MediaFragment.init).length = 1 ∧
      ∀ segment ∈ segments.head?, segment.init.isSome = true := by
  obtain ⟨hnot, -⟩ | ⟨-, first, rest, rfl, hinit, hnone⟩ := h
  · cases hnot
  · obtain ⟨bytes, hbytes⟩ := Option.isSome_iff_exists.mp hinit
    refine ⟨?_, fun segment hmem => ?_⟩
    · rw [List.filterMap_cons_some hbytes, List.filterMap_eq_nil_iff.mpr hnone]
      rfl
    · obtain rfl := Option.some.inj hmem
      exact hinit

/-- The decode times of fragments that follow one another are the sums of what comes before. -/
theorem Follows.gapless {first : Arrival} {rest : List Arrival} {sent : Bool}
    {segments : List MediaFragment} {groups : List (List TimedUnit)}
    (h : Follows first.timestampMs sent segments (timed fallback (first :: rest)) groups)
    (hordered : (first :: rest).Pairwise fun a b => a.timestampMs < b.timestampMs)
    (hspaced : Spaced (first :: rest)) {before after : List (List TimedUnit)}
    {group : List TimedUnit} (hgroups : groups = before ++ group :: after) :
    startTime first.timestampMs group =
      (before.flatten.map fun u => u.sample.written.duration).sum := by
  obtain ⟨u, units, hgroup, -⟩ := h.keyframes group (by rw [hgroups]; simp)
  have hunits : timed fallback (first :: rest) =
      before.flatten ++ u :: (units ++ after.flatten) := by
    rw [← h.partition, hgroups, hgroup, List.flatten_append, List.flatten_cons]
    rfl
  have hsum := sum_written hordered hspaced hunits
  have hhead : group.head?.map (fun u => u.arrival.timestampMs) = some u.arrival.timestampMs := by
    rw [hgroup]
    rfl
  rw [startTime, hhead, Option.getD_some, ← hsum, Int.toNat_natCast]

end Fmp4Muxer

theorem recordable_sublist (arrivals : List Arrival) : (recordable arrivals).Sublist arrivals :=
  (List.dropWhile_sublist _).trans List.filter_sublist

/-- **The time line of a stream.** -/
theorem recordsTimeline_of_fits (opts : Fmp4Options) {arrivals : List Arrival}
    (hordered : arrivals.Pairwise fun a b => a.timestampMs < b.timestampMs)
    (hfits : Machine.StepsMeet Fmp4Muxer.step CallFits (Fmp4Muxer.new opts) (streamCalls arrivals))
    (hspaced : Spaced (recordable arrivals)) : RecordsTimeline opts arrivals := by
  have hrecordable := hordered.sublist (recordable_sublist arrivals)
  obtain ⟨hnone, hsegments⟩ | ⟨first, rest, groups, hrest, hfollows⟩ :=
    Fmp4Muxer.follows_stream opts hordered hfits
  · refine ⟨[], ?_⟩
    rw [hnone, hsegments]
    exact {
      partition := rfl
      keyframes := nofun
      fragments := rfl
      inits := rfl
      initFirst := nofun
      gapless := fun before group after h => by simp at h }
  · rw [hrest] at hrecordable hspaced
    have hne : timed (Fmp4Muxer.new opts).firstDuration (first :: rest) ≠ [] := fun hnil =>
      List.cons_ne_nil _ _ (timed_eq_nil.mp hnil)
    obtain ⟨hinits, hinitFirst⟩ := hfollows.announces.inits
    refine ⟨groups, ?_⟩
    rw [hrest]
    exact {
      partition := hfollows.partition
      keyframes := hfollows.keyframes
      fragments := hfollows.fragments
      inits := by rw [hinits, if_neg hne]
      initFirst := hinitFirst
      gapless := fun before group after hgroups =>
        hfollows.gapless hrecordable hspaced hgroups }

/-- Three units, of which the second keyframe is far enough behind the first one to cut. -/
def threeUnits : List Arrival :=
  [⟨startingUnit, 1000⟩, ⟨{ startingUnit with keyframe := false }, 1066⟩, ⟨startingUnit, 3100⟩]

theorem threeUnits_recordsTimeline : RecordsTimeline {} threeUnits :=
  recordsTimeline_of_fits {} (by decide) (by decide +kernel) (by
    rw [show recordable threeUnits = threeUnits from by decide +kernel]
    simp [threeUnits, Spaced, ticksBetween])

/-- A keyframe with parameter sets that declare 32768 by 96 pixels. -/
def wideUnit : LiveVideoFrame :=
  ⟨true, 640, 480, .h264, [0, 0, 0, 1, 0x67, 0x42, 0, 0x0a, 0xf8, 0, 0x40, 0x01, 0xa2,
    0, 0, 0, 1, 0x68, 0xce, 0x3c, 0x80]⟩

/-- A recording of pictures that wide has no fragment. -/
theorem wideUnit_not_recordsTimeline : ¬RecordsTimeline {} [⟨wideUnit, 1000⟩] := by
  rintro ⟨groups, h⟩
  have hsegments : (Fmp4Muxer.new {}).segments (streamCalls [⟨wideUnit, 1000⟩]) = [] := by
    decide +kernel
  have hrecordable : (recordable [⟨wideUnit, 1000⟩]).length = 1 := by decide +kernel
  have hgroups : groups = [] := by
    have hfragments := h.fragments
    rw [hsegments] at hfragments
    exact List.map_eq_nil_iff.mp hfragments.symm
  have hnone : recordable [⟨wideUnit, 1000⟩] = [] := by
    have hpartition := h.partition
    rw [hgroups] at hpartition
    exact timed_eq_nil.mp hpartition.symm
  rw [hnone] at hrecordable
  cases hrecordable

end EufySdk
