import Mathlib.Tactic
import EufySdk.Lib.Lists
import EufySdk.Lib.Machine
import EufySdk.Transport.P2p.Announcements
import EufySdk.Transport.P2p.Fmp4

/-!
# Collected bursts

`captureSnapshotFromShared` and `recordClip` of `transport/p2p/media.ts`: both watch a stream's video
frames, skip some of its keyframes, collect the data of the frames from the next keyframe on, and hand
it to a decoder behind the stream's parameter sets. The sets are followed over all frames, those that
are collected included, and put ahead of the burst when it is complete.

- `Collection.onVideo` — a frame
- `primeForDecode` — the parameter sets ahead of a burst
- `Snapshot.step`, `Recording.step` — the two collections, with their timers
- `BurstStart` — where capturing begins
- `SteadySets` — the frames of a burst say last of the parameter sets what was in force at its first
-/

namespace EufySdk

open Machine Bytes

/-! ## The frames -/

/-- What a collection keeps of the frames that pass. -/
structure Collection where
  sets : Option ParamSets
  keyCount : ℕ := 0
  capturing : Bool := false
  codec : VideoCodec := .h264
  bufs : List Buffer := []
  deriving DecidableEq

/-- A frame passes: capturing begins at a keyframe with more than `threshold` keyframes up to it. -/
def Collection.onVideo (threshold : ℕ) (c : Collection) (fr : LiveVideoFrame) : Collection :=
  let sets := updatedParamSets fr.data c.sets
  let keyCount := if fr.keyframe then c.keyCount + 1 else c.keyCount
  if c.capturing then { c with sets, keyCount, bufs := c.bufs ++ [fr.data] }
  else if fr.keyframe = false ∨ keyCount ≤ threshold then { c with sets, keyCount }
  else { sets, keyCount, capturing := true, codec := fr.codec, bufs := c.bufs ++ [fr.data] }

def primeForDecode (burst : Buffer) (sets : Option ParamSets) (codec : VideoCodec) : Buffer :=
  match sets with
  | some sets => if sets.codec = codec then prefixParamSets burst sets else burst
  | none => burst

/-- What a collection hands to the decoder or the muxer. -/
def Collection.burst (c : Collection) : Buffer := primeForDecode c.bufs.flatten c.sets c.codec

/-! ## `captureSnapshotFromShared` -/

inductive LiveSnapshotUnavailable
  | noKeyframe
  | sourceFailed
  deriving DecidableEq, Repr

/-- The promise of a burst. `timer` and `settle` are whether the two timers are pending, and
`listening` is whether the handlers are on the consumer. -/
structure Snapshot where
  primed : Bool
  skip : ℕ
  collection : Collection
  timer : Bool := true
  settle : Bool := false
  listening : Bool := true
  outcome : Option (Except LiveSnapshotUnavailable Buffer) := none

namespace Snapshot

/-- The promise as it is made, over what the source has announced so far. -/
def attached (primed : Bool) (skip : ℕ) (parameterSets : Option ParamSets) : Snapshot :=
  { primed, skip, collection := { sets := parameterSets } }

inductive Event
  | video (fr : LiveVideoFrame)
  | error
  | stop
  /-- The timer of the whole attempt fires. -/
  | timedOut
  /-- The timer of the burst fires. -/
  | settled

/-- How many keyframes are passed over: none of a consumer that is given a cached one. -/
def threshold (primed : Bool) (skip : ℕ) : ℕ := if primed then 0 else skip

def onVideo (s : Snapshot) (fr : LiveVideoFrame) : Snapshot :=
  let collection := s.collection.onVideo (threshold s.primed s.skip) fr
  { s with collection, settle := s.settle || collection.capturing }

def cleanup (s : Snapshot) : Snapshot :=
  { s with timer := false, settle := false, listening := false }

/-- Only the first outcome of a promise counts. -/
def settleWith (s : Snapshot) (outcome : Except LiveSnapshotUnavailable Buffer) : Snapshot :=
  { s.cleanup with outcome := s.outcome.or (some outcome) }

/-- An event, where it can happen: a timer that is not pending does not fire. -/
def step (s : Snapshot) : Event → Option Snapshot
  | .video fr => some (if s.listening then s.onVideo fr else s)
  | .error => some (if s.listening then s.settleWith (.error .sourceFailed) else s)
  | .stop => some (if s.listening then s.settleWith (.error .sourceFailed) else s)
  | .timedOut => if s.timer then some (s.settleWith (.error .noKeyframe)) else none
  | .settled => if s.settle then some (s.settleWith (.ok s.collection.burst)) else none

/-- The frames among some events. -/
def frames (events : List Event) : List LiveVideoFrame :=
  events.filterMap fun
    | .video fr => some fr
    | _ => none

end Snapshot

/-! ## `recordClip` -/

inductive RecordingFailure
  | timeout
  | closedBefore
  | closedDuring (frames : ℕ)
  | streamFailed
  deriving DecidableEq, Repr

/-- What the one timer of a recording ends: the wait for a keyframe, or the clip. -/
inductive Deadline
  | keyframe
  | clip
  deriving DecidableEq, Repr

/-- The promise of a clip. The handlers of `video` and `close` go when it is settled, and the one of
`error` stays. -/
structure Recording where
  skip : ℕ
  collection : Collection := { sets := none }
  deadline : Option Deadline := some .keyframe
  listening : Bool := true
  outcome : Option (Except RecordingFailure Buffer) := none

namespace Recording

inductive Event
  | video (fr : LiveVideoFrame)
  | close
  | error
  /-- The timer fires while the keyframe is waited for. -/
  | timedOut
  /-- The timer fires at the end of the clip. -/
  | elapsed

def onVideo (s : Recording) (fr : LiveVideoFrame) : Recording :=
  let collection := s.collection.onVideo s.skip fr
  { s with
    collection
    deadline :=
      if s.collection.capturing = false ∧ collection.capturing then some .clip else s.deadline }

def detach (s : Recording) : Recording := { s with deadline := none, listening := false }

def settleWith (s : Recording) (outcome : Except RecordingFailure Buffer) : Recording :=
  { s.detach with outcome := s.outcome.or (some outcome) }

def onClose (s : Recording) : Recording :=
  s.settleWith <| .error <|
    if s.collection.capturing then .closedDuring s.collection.bufs.length else .closedBefore

/-- An event, where it can happen. -/
def step (s : Recording) : Event → Option Recording
  | .video fr => some (if s.listening then s.onVideo fr else s)
  | .close => some (if s.listening then s.onClose else s)
  | .error => some (s.settleWith (.error .streamFailed))
  | .timedOut =>
    if s.deadline = some .keyframe then some (s.settleWith (.error .timeout)) else none
  | .elapsed =>
    if s.deadline = some .clip then some (s.settleWith (.ok s.collection.burst)) else none

/-- The frames among some events. -/
def frames (events : List Event) : List LiveVideoFrame :=
  events.filterMap fun
    | .video fr => some fr
    | _ => none

end Recording

/-! ## What is handed on -/

/-- The parameter sets in force behind some frames. -/
def inForce (sets : Option ParamSets) (frames : List LiveVideoFrame) : Option ParamSets :=
  frames.foldl (fun sets fr => updatedParamSets fr.data sets) sets

theorem inForce_append (sets : Option ParamSets) (before after : List LiveVideoFrame) :
    inForce sets (before ++ after) = inForce (inForce sets before) after :=
  List.foldl_append

theorem inForce_announced {sets : Option ParamSets} (h : ∀ s ∈ sets, s.Announced)
    (frames : List LiveVideoFrame) : ∀ s ∈ inForce sets frames, s.Announced := by
  induction frames generalizing sets with
  | nil => exact h
  | cons fr frames ih => exact ih (updatedParamSets_announced fr.data h)

/-- What some frames say last of a kind of parameter set to a decoder of a codec. -/
def lastTold (codec : VideoCodec) (kind : ParamKind) (frames : List LiveVideoFrame) :
    Option (List Buffer) :=
  frames.reverse.findSome? fun fr => (extractParamSets fr.data).bind (·.tells codec kind)

/-- The units in force of a kind: what the frames said last of it. -/
theorem unitsHeld_inForce (codec : VideoCodec) (kind : ParamKind) (sets : Option ParamSets)
    (frames : List LiveVideoFrame) :
    unitsHeld (·.ofKind kind) codec (inForce sets frames) =
      (lastTold codec kind frames).getD (unitsHeld (·.ofKind kind) codec sets) := by
  induction frames generalizing sets with
  | nil => rfl
  | cons fr frames ih =>
    rw [inForce, List.foldl_cons, ← inForce, ih, unitsHeld_updatedParamSets, lastTold, lastTold,
      List.reverse_cons, List.findSome?_append, List.findSome?_singleton, Option.getD_or]

theorem primeForDecode_eq (burst : Buffer) (sets : Option ParamSets) (codec : VideoCodec) :
    primeForDecode burst sets codec = announcement codec sets ++ burst := by
  cases sets with
  | none => rfl
  | some sets =>
    simp only [primeForDecode, announcement, unitsHeld_some, prefixParamSets]
    split
    · split
      · next hnone => rw [hnone, List.flatMap_nil, List.nil_append]
      · rfl
    · rfl

/-- Where capturing begins among some frames: at the first keyframe with more than `threshold`
keyframes up to it. -/
structure BurstStart (threshold : ℕ) (frames : List LiveVideoFrame) where
  before : List LiveVideoFrame
  first : LiveVideoFrame
  rest : List LiveVideoFrame
  split : frames = before ++ first :: rest
  keyframe : first.keyframe = true
  skipped : before.countP (·.keyframe) = threshold

/-- What the frames behind the first one of a burst say last of a kind of parameter set is what was
in force at the first one. -/
def SteadySets {threshold : ℕ} {frames : List LiveVideoFrame} (sets : Option ParamSets)
    (start : BurstStart threshold frames) : Prop :=
  ∀ kind, ∀ nals ∈ lastTold start.first.codec kind start.rest,
    nals = unitsHeld (·.ofKind kind) start.first.codec
      (inForce sets (start.before ++ [start.first]))

namespace BurstStart

variable {threshold : ℕ} {frames : List LiveVideoFrame}

/-- The burst that a decoder can begin with: the sets in force at its first frame, then the data of
that frame and of those behind it. -/
def primed (start : BurstStart threshold frames) (sets : Option ParamSets) : Buffer :=
  announcement start.first.codec (inForce sets (start.before ++ [start.first])) ++
    (start.first :: start.rest).flatMap (·.data)

/-- A burst is steady when nothing is announced behind its first frame. -/
theorem steady_of_unannounced (start : BurstStart threshold frames) (sets : Option ParamSets)
    (h : ∀ fr ∈ start.rest, extractParamSets fr.data = none) : SteadySets sets start := by
  intro kind nals hnals
  obtain ⟨fr, hfr, htells⟩ := List.exists_of_findSome?_eq_some hnals
  rw [h fr (List.mem_reverse.mp hfr), Option.bind_none] at htells
  cases htells

/-- The start of a burst when one more frame has come. -/
def snoc (start : BurstStart threshold frames) (fr : LiveVideoFrame) :
    BurstStart threshold (frames ++ [fr]) where
  before := start.before
  first := start.first
  rest := start.rest ++ [fr]
  split := by
    have hsplit := congrArg (· ++ [fr]) start.split
    rwa [List.append_assoc, List.cons_append] at hsplit
  keyframe := start.keyframe
  skipped := start.skipped

/-- There is one place at which capturing begins. -/
instance : Subsingleton (BurstStart threshold frames) where
  allEq := by
    rintro ⟨before, first, rest, rfl, hkey, hskipped⟩ ⟨before', first', rest', hsplit, hkey', hskipped'⟩
    obtain ⟨rfl, rfl, rfl⟩ :=
      Lists.split_unique_of_countP hkey hkey' (hskipped.trans hskipped'.symm) hsplit
    rfl

end BurstStart

/-! ## Collecting -/

/-- What a collection holds behind some frames. -/
structure Collected (threshold : ℕ) (sets : Option ParamSets) (frames : List LiveVideoFrame)
    (c : Collection) : Prop where
  sets : c.sets = inForce sets frames
  keyCount : c.keyCount = frames.countP (·.keyframe)
  phase :
    (c.capturing = false ∧ c.bufs = [] ∧ frames.countP (·.keyframe) ≤ threshold) ∨
      (c.capturing = true ∧ ∃ start : BurstStart threshold frames,
        c.codec = start.first.codec ∧ c.bufs = (start.first :: start.rest).map (·.data))

namespace Collected

variable {threshold : ℕ} {sets : Option ParamSets} {frames : List LiveVideoFrame} {c : Collection}

theorem start (threshold : ℕ) (sets : Option ParamSets) :
    Collected threshold sets [] { sets } :=
  ⟨rfl, rfl, .inl ⟨rfl, rfl, Nat.zero_le _⟩⟩

theorem onVideo (h : Collected threshold sets frames c) (fr : LiveVideoFrame) :
    Collected threshold sets (frames ++ [fr]) (c.onVideo threshold fr) := by
  have hsets : updatedParamSets fr.data c.sets = inForce sets (frames ++ [fr]) := by
    rw [inForce_append, ← h.sets]
    rfl
  have hcount : (if fr.keyframe then c.keyCount + 1 else c.keyCount) =
      (frames ++ [fr]).countP (·.keyframe) := by
    rw [List.countP_append, List.countP_singleton, h.keyCount]
    split <;> rfl
  simp only [Collection.onVideo, hsets, hcount]
  rcases h.phase with ⟨hwait, hbufs, hfew⟩ | ⟨hcap, start, hcodec, hbufs⟩
  · rw [hwait, if_neg Bool.false_ne_true]
    split
    · next hskip =>
      refine ⟨rfl, rfl, .inl ⟨rfl, hbufs, ?_⟩⟩
      rcases hskip with hdelta | hfew'
      · rw [List.countP_append, List.countP_singleton, hdelta]
        exact hfew
      · exact hfew'
    · next hbegin =>
      obtain ⟨hkey, hmany⟩ := not_or.mp hbegin
      rw [Bool.not_eq_false] at hkey
      refine ⟨rfl, rfl, .inr ⟨rfl, ⟨frames, fr, [], rfl, hkey, ?_⟩, rfl, ?_⟩⟩
      · rw [List.countP_append, List.countP_singleton, if_pos hkey] at hmany
        omega
      · rw [hbufs]
        rfl
  · rw [hcap, if_pos rfl]
    refine ⟨rfl, rfl, .inr ⟨rfl, start.snoc fr, hcodec, ?_⟩⟩
    rw [hbufs, BurstStart.snoc, List.map_cons, List.map_cons, List.map_append]
    rfl

/-- A collection that captures has begun somewhere. -/
theorem nonempty (h : Collected threshold sets frames c) (hcap : c.capturing = true) :
    Nonempty (BurstStart threshold frames) := by
  rcases h.phase with ⟨hwait, -⟩ | ⟨-, start, -⟩
  · exact absurd (hcap.symm.trans hwait) Bool.false_ne_true.symm
  · exact ⟨start⟩

/-- What is handed on behind the frames, and when that begins with what its first frame was coded
under. -/
theorem burst_eq_iff (h : Collected threshold sets frames c) (hcap : c.capturing = true)
    (hsets : ∀ s ∈ sets, s.Announced) (start : BurstStart threshold frames) :
    c.burst = start.primed sets ↔ SteadySets sets start := by
  rcases h.phase with ⟨hwait, -⟩ | ⟨-, start', hcodec, hbufs⟩
  · exact absurd (hcap.symm.trans hwait) Bool.false_ne_true.symm
  · obtain rfl := Subsingleton.elim start start'
    have hclose : c.sets =
        inForce (inForce sets (start.before ++ [start.first])) start.rest := by
      rw [h.sets, ← inForce_append, List.append_assoc, List.singleton_append, ← start.split]
    have hfirst := inForce_announced hsets (start.before ++ [start.first])
    rw [Collection.burst, primeForDecode_eq, hcodec, hbufs, hclose, BurstStart.primed,
      List.flatMap_def, List.append_cancel_right_eq,
      announcement_eq_iff (inForce_announced hfirst start.rest) hfirst]
    refine forall_congr' fun kind => ?_
    rw [unitsHeld_inForce]
    cases lastTold start.first.codec kind start.rest with
    | none => exact ⟨fun _ _ hnals => absurd hnals (Option.not_mem_none _), fun _ => rfl⟩
    | some nals =>
      exact ⟨fun heq nals' hnals' => Option.some.inj hnals' ▸ heq, fun heq => heq nals rfl⟩

end Collected

/-! ## Runs -/

namespace Snapshot

variable {primed : Bool} {skip : ℕ} {sets : Option ParamSets} {events : List Event}
  {s t : Snapshot}

/-- What holds behind some events. -/
structure Behind (primed : Bool) (skip : ℕ) (sets : Option ParamSets) (events : List Event)
    (s : Snapshot) : Prop where
  primed_eq : s.primed = primed
  skip_eq : s.skip = skip
  collected : s.listening = true →
    Collected (threshold primed skip) sets (frames events) s.collection
  settle_eq : s.settle = (s.listening && s.collection.capturing)
  unsettled : s.listening = true → s.outcome = none

namespace Behind

theorem attached (primed : Bool) (skip : ℕ) (sets : Option ParamSets) :
    Behind primed skip sets [] (attached primed skip sets) :=
  ⟨rfl, rfl, fun _ => .start _ _, rfl, fun _ => rfl⟩

theorem settleWith (h : Behind primed skip sets events s)
    (outcome : Except LiveSnapshotUnavailable Buffer) (events' : List Event) :
    Behind primed skip sets events' (s.settleWith outcome) :=
  ⟨h.primed_eq, h.skip_eq, nofun, rfl, nofun⟩

/-- An event that brings no frame, or that nothing listens to, leaves what was collected. -/
theorem ignored (h : Behind primed skip sets events s) (hoff : s.listening = false)
    (events' : List Event) : Behind primed skip sets events' s :=
  ⟨h.primed_eq, h.skip_eq, fun hon => absurd (hon.symm.trans hoff) nofun, h.settle_eq,
    h.unsettled⟩

theorem onVideo (h : Behind primed skip sets events s) (hon : s.listening = true)
    (fr : LiveVideoFrame) : Behind primed skip sets (events ++ [.video fr]) (s.onVideo fr) where
  primed_eq := h.primed_eq
  skip_eq := h.skip_eq
  collected _ := by
    have hnext := (h.collected hon).onVideo fr
    rw [← h.primed_eq, ← h.skip_eq] at hnext ⊢
    rwa [frames, List.filterMap_append]
  settle_eq := by
    -- once capturing has begun it goes on
    have hmono : s.collection.capturing = true →
        (s.onVideo fr).collection.capturing = true := by
      intro hcap
      simp [Snapshot.onVideo, Collection.onVideo, hcap]
    show (s.settle || (s.onVideo fr).collection.capturing) = _
    rw [h.settle_eq, hon, Bool.true_and]
    show _ = (s.listening && (s.onVideo fr).collection.capturing)
    rw [hon, Bool.true_and]
    cases hcap : s.collection.capturing with
    | false => exact Bool.false_or _
    | true => rw [hmono hcap, Bool.true_or]
  unsettled := h.unsettled

theorem step {a : Event} (h : Behind primed skip sets events s) (hstep : s.step a = some t) :
    Behind primed skip sets (events ++ [a]) t := by
  cases a with
  | video fr =>
    obtain rfl := Option.some.inj hstep
    cases hon : s.listening with
    | false => exact h.ignored hon _
    | true => exact h.onVideo hon fr
  | error | stop =>
    obtain rfl := Option.some.inj hstep
    cases hon : s.listening with
    | false => exact h.ignored hon _
    | true => exact h.settleWith _ _
  | timedOut | settled =>
    obtain ⟨-, ht⟩ := Option.ite_none_right_eq_some.mp hstep
    obtain rfl := Option.some.inj ht
    exact h.settleWith _ _

theorem run (h : Run Snapshot.step (.attached primed skip sets) events s) :
    Behind primed skip sets events s := by
  induction h with
  | nil => exact attached primed skip sets
  | snoc _ hstep ih => exact ih.step hstep

end Behind

/-- What the timer of the burst hands on. -/
theorem settled_iff (hsets : ∀ s ∈ sets, s.Announced)
    (hrun : exec Snapshot.step (.attached primed skip sets) events = some s)
    (hstep : s.step .settled = some t) :
    Nonempty (BurstStart (threshold primed skip) (frames events)) ∧
      ∀ start : BurstStart (threshold primed skip) (frames events),
        t.outcome = some (.ok (start.primed sets)) ↔ SteadySets sets start := by
  have h := Behind.run (run_of_exec hrun)
  obtain ⟨hsettle, ht⟩ := Option.ite_none_right_eq_some.mp hstep
  obtain rfl := Option.some.inj ht
  obtain ⟨hon, hcap⟩ := Bool.and_eq_true_iff.mp (h.settle_eq.symm.trans hsettle)
  have hcollected := h.collected hon
  refine ⟨hcollected.nonempty hcap, fun start => ?_⟩
  rw [← hcollected.burst_eq_iff hcap hsets start, settleWith, h.unsettled hon, Option.none_or,
    Option.some_inj, Except.ok.injEq]

end Snapshot

namespace Recording

variable {skip : ℕ} {events : List Event} {s t : Recording}

/-- What holds behind some events. -/
structure Behind (skip : ℕ) (events : List Event) (s : Recording) : Prop where
  skip_eq : s.skip = skip
  collected : s.listening = true → Collected skip none (frames events) s.collection
  deadline_eq : s.deadline =
    if s.listening then some (if s.collection.capturing then .clip else .keyframe) else none
  unsettled : s.listening = true → s.outcome = none

namespace Behind

theorem start (skip : ℕ) : Behind skip [] { skip } :=
  ⟨rfl, fun _ => .start _ _, rfl, fun _ => rfl⟩

theorem settleWith (h : Behind skip events s) (outcome : Except RecordingFailure Buffer)
    (events' : List Event) : Behind skip events' (s.settleWith outcome) :=
  ⟨h.skip_eq, nofun, rfl, nofun⟩

theorem ignored (h : Behind skip events s) (hoff : s.listening = false)
    (events' : List Event) : Behind skip events' s :=
  ⟨h.skip_eq, fun hon => absurd (hon.symm.trans hoff) nofun, h.deadline_eq, h.unsettled⟩

theorem onVideo (h : Behind skip events s) (hon : s.listening = true) (fr : LiveVideoFrame) :
    Behind skip (events ++ [.video fr]) (s.onVideo fr) where
  skip_eq := h.skip_eq
  collected _ := by
    have hnext := (h.collected hon).onVideo fr
    rw [← h.skip_eq] at hnext ⊢
    rwa [frames, List.filterMap_append]
  deadline_eq := by
    -- the timer is set again at the frame that begins the clip, and only there
    simp only [Recording.onVideo, h.deadline_eq, hon, if_true]
    cases hcap : s.collection.capturing with
    | false => cases hnext : (s.collection.onVideo s.skip fr).capturing <;> simp
    | true => simp [Collection.onVideo, hcap]
  unsettled := h.unsettled

theorem step {a : Event} (h : Behind skip events s) (hstep : s.step a = some t) :
    Behind skip (events ++ [a]) t := by
  cases a with
  | video fr =>
    obtain rfl := Option.some.inj hstep
    cases hon : s.listening with
    | false => exact h.ignored hon _
    | true => exact h.onVideo hon fr
  | close =>
    obtain rfl := Option.some.inj hstep
    cases hon : s.listening with
    | false => exact h.ignored hon _
    | true => exact h.settleWith _ _
  | error =>
    obtain rfl := Option.some.inj hstep
    exact h.settleWith _ _
  | timedOut | elapsed =>
    obtain ⟨-, ht⟩ := Option.ite_none_right_eq_some.mp hstep
    obtain rfl := Option.some.inj ht
    exact h.settleWith _ _

theorem run (h : Run Recording.step { skip } events s) : Behind skip events s := by
  induction h with
  | nil => exact start skip
  | snoc _ hstep ih => exact ih.step hstep

/-- The clip's timer is pending while a clip is collected. -/
theorem capturing (h : Behind skip events s) (hclip : s.deadline = some .clip) :
    s.listening = true ∧ s.collection.capturing = true := by
  rw [h.deadline_eq] at hclip
  cases hon : s.listening <;> cases hcap : s.collection.capturing <;> simp_all

end Behind

/-- What the timer of the clip hands on. -/
theorem elapsed_iff (hrun : exec Recording.step { skip } events = some s)
    (hstep : s.step .elapsed = some t) :
    Nonempty (BurstStart skip (frames events)) ∧
      ∀ start : BurstStart skip (frames events),
        t.outcome = some (.ok (start.primed none)) ↔ SteadySets none start := by
  have h := Behind.run (run_of_exec hrun)
  obtain ⟨hclip, ht⟩ := Option.ite_none_right_eq_some.mp hstep
  obtain rfl := Option.some.inj ht
  obtain ⟨hon, hcap⟩ := h.capturing hclip
  have hcollected := h.collected hon
  refine ⟨hcollected.nonempty hcap, fun start => ?_⟩
  rw [← hcollected.burst_eq_iff hcap (by simp) start, settleWith, h.unsettled hon, Option.none_or,
    Option.some_inj, Except.ok.injEq]

end Recording

/-! ## The two together -/

/-- **A collected burst begins with the parameter sets its first frame was coded under if and only
if the frames behind that one say nothing else of them.** A snapshot goes on from the sets of the
frames `past` that its source has seen before. -/
theorem bursts_primed_iff_steady (skip : ℕ) :
    (∀ (primed : Bool) (past : List LiveVideoFrame) (events : List Snapshot.Event) (s t : Snapshot),
      exec Snapshot.step (.attached primed skip (inForce none past)) events = some s →
      s.step .settled = some t →
      Nonempty (BurstStart (Snapshot.threshold primed skip) (Snapshot.frames events)) ∧
        ∀ start : BurstStart (Snapshot.threshold primed skip) (Snapshot.frames events),
          t.outcome = some (.ok (start.primed (inForce none past))) ↔
            SteadySets (inForce none past) start) ∧
    ∀ (events : List Recording.Event) (s t : Recording),
      exec Recording.step { skip } events = some s → s.step .elapsed = some t →
      Nonempty (BurstStart skip (Recording.frames events)) ∧
        ∀ start : BurstStart skip (Recording.frames events),
          t.outcome = some (.ok (start.primed none)) ↔ SteadySets none start := by
  refine ⟨fun _ past _ _ _ hrun hstep => ?_, fun _ _ _ hrun hstep => ?_⟩
  · exact Snapshot.settled_iff (inForce_announced (by simp) past) hrun hstep
  · exact Recording.elapsed_iff hrun hstep

/-- Frames whose parameter sets are announced with the first of them, which is skipped, and whose
picture parameters change while the burst is collected. -/
def reconfigured : List LiveVideoFrame :=
  [⟨true, 1920, 1080, .h264, [0, 0, 0, 1, 0x67, 1, 0, 0, 0, 1, 0x68, 1, 0, 0, 0, 1, 0x65, 1]⟩,
    ⟨true, 1920, 1080, .h264, [0, 0, 0, 1, 0x65, 2]⟩,
    ⟨true, 1280, 720, .h264, [0, 0, 0, 1, 0x67, 3, 0, 0, 0, 1, 0x65, 3]⟩]

def reconfiguredStart : BurstStart 1 reconfigured where
  before := reconfigured.take 1
  first := ⟨true, 1920, 1080, .h264, [0, 0, 0, 1, 0x65, 2]⟩
  rest := reconfigured.drop 2
  split := rfl
  keyframe := rfl
  skipped := rfl

theorem reconfigured_not_primed :
    ∃ s t, exec Snapshot.step (.attached false 1 none) (reconfigured.map .video) = some s ∧
      s.step .settled = some t ∧
      t.outcome = some (.ok
        ([0, 0, 0, 1, 0x67, 3, 0, 0, 0, 1, 0x68, 1] ++
          [0, 0, 0, 1, 0x65, 2, 0, 0, 0, 1, 0x67, 3, 0, 0, 0, 1, 0x65, 3])) ∧
      reconfiguredStart.primed none =
        [0, 0, 0, 1, 0x67, 1, 0, 0, 0, 1, 0x68, 1] ++
          [0, 0, 0, 1, 0x65, 2, 0, 0, 0, 1, 0x67, 3, 0, 0, 0, 1, 0x65, 3] ∧
      t.outcome ≠ some (.ok (reconfiguredStart.primed none)) := by
  refine ⟨_, _, rfl, rfl, ?_, ?_, ?_⟩ <;> decide

/-- The same frames with the first of them again in place of the change. -/
theorem bursts_primed_steady_sample :
    ∃ t, exec Snapshot.step (.attached false 1 none)
        ((reconfigured.take 2 ++ reconfigured.take 1).map .video ++ [.settled]) = some t ∧
      t.outcome = some (.ok
        ([0, 0, 0, 1, 0x67, 1, 0, 0, 0, 1, 0x68, 1] ++ [0, 0, 0, 1, 0x65, 2] ++
          [0, 0, 0, 1, 0x67, 1, 0, 0, 0, 1, 0x68, 1, 0, 0, 0, 1, 0x65, 1])) := by
  refine ⟨_, rfl, ?_⟩
  obtain ⟨-, hprimed⟩ := (bursts_primed_iff_steady 1).1 false []
    ((reconfigured.take 2 ++ reconfigured.take 1).map .video) _ _ rfl rfl
  refine (hprimed ⟨reconfigured.take 1, ⟨true, 1920, 1080, .h264, [0, 0, 0, 1, 0x65, 2]⟩,
    reconfigured.take 1, rfl, rfl, rfl⟩).mpr ?_
  rintro (_ | _ | _) <;> decide

end EufySdk
