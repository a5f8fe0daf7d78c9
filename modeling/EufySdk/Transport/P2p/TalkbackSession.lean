import Mathlib.Tactic
import EufySdk.Lib.Machine
import EufySdk.Transport.P2p.AdtsFrames

/-!
# Talkback sessions

The `Talkback` of `transport/p2p/talkback.ts`: audio that is written is cut into frames, which wait
in a queue until the tick sends them at the rate they are played at. With an encoder, what is
written waits for it behind the writes before it. `end` declares the input finished: behind the
last write the encoder is flushed, and `finished` is emitted where nothing is queued, there or at a
later tick.

An event is what runs between two points at which something else can run. The loop of `enqueue`
reports the frames it rejects, and the tick hands a withheld writer its callback before it announces;
what is called from there is an event as well.

- `write`, `end_`, `stop` — what is called
- `sendDue`, `tick` — pacing
- `begin`, `settle` — the chain behind the encoder
- `announceFinishIfDone` — completion
- `step` — all of it interleaved
- `Change`, `change_of_step` — what an event does
-/

namespace EufySdk

open Machine Bytes

structure TalkbackOptions where
  /-- Whether there is an encoder, and whether it has a `flush`. -/
  encoder : Bool := false
  flush : Bool := false
  idleTimeoutMs : ℕ := 30000
  deriving DecidableEq, Repr

/-- A frame on its way to the wire; `tail` is whether it comes out of the encoder's `flush`. -/
structure TalkbackFrame where
  frame : Buffer
  tail : Bool := false
  deriving DecidableEq, Repr

/-- What waits in the chain. -/
inductive TalkbackJob
  | encode (pcm : Buffer)
  | flush
  | announce
  deriving DecidableEq, Repr

/-- A talkback. `awaiting` is whether the first job of the chain waits for the encoder, `batch` what
`enqueue` has still to look at, and `owes` whether a tick has still to announce. The last fields are
kept for the results about runs: what was admitted to the queue, sent and when, and dropped, what had
been sent when `finished` was emitted, and what waited when the talkback was stopped. -/
structure TalkbackSession where
  opts : TalkbackOptions
  now : ℕ := 0
  reader : AdtsFrameReader := {}
  queue : List TalkbackFrame := []
  timer : Bool := false
  started : Bool := false
  stopped : Bool := false
  ended : Bool := false
  announcedFinish : Bool := false
  nextDueAt : ℕ := 0
  lastWriteAt : ℕ := 0
  chain : List TalkbackJob := []
  awaiting : Bool := false
  batch : List TalkbackFrame := []
  owes : Bool := false
  startedAt : Option ℕ := none
  admitted : List TalkbackFrame := []
  sent : List TalkbackFrame := []
  leftAt : List ℕ := []
  dropped : List TalkbackFrame := []
  finished : List (List TalkbackFrame) := []
  stoppedOver : Option (List TalkbackFrame × List TalkbackJob) := none

namespace TalkbackSession

/-- `start`, where the session opens the path or does not. -/
def start (s : TalkbackSession) (opens : Bool) : TalkbackSession :=
  if s.started || !opens then s
  else
    { s with
      started := true
      nextDueAt := s.now + AAC_FRAME_MS
      lastWriteAt := s.now
      timer := true
      startedAt := some s.now }

/-- `write`: without an encoder the frames in the chunk are for `enqueue`, with one the chunk waits
for its turn. The reader's loop always ends. -/
def write (s : TalkbackSession) (chunk : Buffer) : Option TalkbackSession :=
  if s.stopped || s.ended then some s
  else
    let s := { s with lastWriteAt := s.now }
    if s.opts.encoder then some { s with chain := s.chain ++ [.encode chunk] }
    else (s.reader.push chunk).map fun r =>
      { s with reader := r.2, batch := r.1.map (TalkbackFrame.mk · false) ++ s.batch }

/-- `end`. -/
def end_ (s : TalkbackSession) : TalkbackSession :=
  if s.ended || s.stopped then s
  else { s with ended := true, chain := s.chain ++ [.flush, .announce] }

def stop (s : TalkbackSession) : TalkbackSession :=
  if s.stopped then s
  else
    { s with
      stopped := true
      timer := false
      queue := []
      dropped := s.dropped ++ s.queue
      stoppedOver := some (s.queue, s.chain) }

/-! ## Queueing -/

/-- Whether a frame is one the device can play, of a length that it takes. -/
def admits (f : TalkbackFrame) : Bool :=
  match parseAdtsHeader f.frame with
  | none => false
  | some h => isSupportedAdts h && f.frame.length ≤ MAX_AUDIO_FRAME_BYTES

/-- A pass of the loop of `enqueue`. -/
def pushFrame (s : TalkbackSession) : List TalkbackFrame → TalkbackSession
  | [] => s
  | f :: batch =>
    if admits f then
      { s with batch, queue := s.queue ++ [f], admitted := s.admitted ++ [f] }
    else { s with batch }

/-! ## Pacing -/

/-- What the loop of a tick leaves. -/
structure Drained where
  queue : List TalkbackFrame
  nextDueAt : ℕ
  sent : List TalkbackFrame := []
  /-- The frame that the session throws on. -/
  thrown : Option TalkbackFrame := none

/-- The loop of a tick, where the session takes a number of frames and then throws, or takes all. -/
def sendDue (now : ℕ) (takes : Option ℕ) (nextDueAt : ℕ) : List TalkbackFrame → Drained
  | [] => { queue := [], nextDueAt }
  | f :: queue =>
    if now < nextDueAt then { queue := f :: queue, nextDueAt }
    else if takes = some 0 then { queue, nextDueAt := nextDueAt + AAC_FRAME_MS, thrown := some f }
    else
      let rest := sendDue now (takes.map (· - 1)) (nextDueAt + AAC_FRAME_MS) queue
      { rest with sent := f :: rest.sent }

/-- Whether nothing has been written for so long that the talkback stops itself. -/
def idle (s : TalkbackSession) : Bool :=
  s.opts.idleTimeoutMs ≠ 0 && s.opts.idleTimeoutMs ≤ s.now - s.lastWriteAt

def idleCheck (s : TalkbackSession) : TalkbackSession := if s.idle then s.stop else s

/-- A tick up to where it announces; it does not get there when the session throws. -/
def tick (s : TalkbackSession) (takes : Option ℕ) : TalkbackSession :=
  if s.stopped then s
  else if s.queue = [] then
    { ({ s with nextDueAt := s.now + AAC_FRAME_MS } : TalkbackSession).idleCheck with owes := true }
  else
    let rest := sendDue s.now takes s.nextDueAt s.queue
    { s with
      queue := rest.queue
      nextDueAt := rest.nextDueAt
      sent := s.sent ++ rest.sent
      leftAt := s.leftAt ++ rest.sent.map fun _ => s.now
      dropped := s.dropped ++ rest.thrown.toList
      owes := rest.thrown.isNone }

/-! ## Completion -/

/-- Whether `finished` falls due. -/
def done (s : TalkbackSession) : Bool := !s.announcedFinish && s.ended && s.queue.isEmpty

def announceFinishIfDone (s : TalkbackSession) : TalkbackSession :=
  if s.done then { s with announcedFinish := true, finished := s.finished ++ [s.sent] } else s

/-! ## The chain -/

/-- A job of the chain begins: it waits for the encoder, or is over at once. -/
def begin (s : TalkbackSession) : List TalkbackJob → TalkbackSession
  | [] => s
  | .encode _ :: chain => if s.stopped then { s with chain } else { s with awaiting := true }
  | .flush :: chain =>
    if s.stopped || !(s.opts.encoder && s.opts.flush) then { s with chain }
    else { s with awaiting := true }
  | .announce :: chain => { s with chain }.announceFinishIfDone

/-- What a job waited for is there: the encoder's chunks are cut into frames, and those of its flush
are frames already; nothing where it failed. -/
def settle (s : TalkbackSession) (output : Option (List Buffer)) :
    List TalkbackJob → Option TalkbackSession
  | .encode _ :: chain =>
    let s := { s with chain, awaiting := false }
    match output with
    | none => some s
    | some chunks => (s.reader.feed chunks).map fun r =>
        { s with reader := r.2, batch := r.1.map (TalkbackFrame.mk · false) ++ s.batch }
  | .flush :: chain =>
    let s := { s with chain, awaiting := false }
    match output with
    | none => some s
    | some frames => some { s with batch := frames.map (TalkbackFrame.mk · true) ++ s.batch }
  | _ => none

/-! ## Runs -/

inductive Event
  | start (opens : Bool)
  | write (chunk : Buffer)
  | end_
  | stop
  /-- `enqueue` takes the next frame. -/
  | pushFrame
  | tick (takes : Option ℕ)
  /-- A tick announces. -/
  | tickEnds
  /-- The next job of the chain. -/
  | begin
  | settle (output : Option (List Buffer))
  | elapse (ms : ℕ)

/-- An event, where it can happen: `openTalkback` does not start a talkback that was stopped, and
nothing of the chain runs in the middle of a loop. -/
def step (s : TalkbackSession) : Event → Option TalkbackSession
  | .start opens => if s.stopped then none else some (s.start opens)
  | .write chunk => s.write chunk
  | .end_ => some s.end_
  | .stop => some s.stop
  | .pushFrame => if s.batch ≠ [] then some (s.pushFrame s.batch) else none
  | .tick takes => if s.timer && !s.owes then some (s.tick takes) else none
  | .tickEnds => if s.owes then some { s with owes := false }.announceFinishIfDone else none
  | .begin =>
    if s.chain ≠ [] ∧ s.awaiting = false ∧ s.batch = [] then some (s.begin s.chain) else none
  | .settle output => if s.awaiting then s.settle output s.chain else none
  | .elapse ms => some { s with now := s.now + ms }

/-! ## What an event does -/

/-- The two differ in what waits for the queue only. -/
def SameAudio (s t : TalkbackSession) : Prop :=
  ∃ reader lastWriteAt ended chain awaiting batch owes,
    t = { s with reader, lastWriteAt, ended, chain, awaiting, batch, owes }

/-- Whether an event announces. -/
def Event.announces (s : TalkbackSession) : Event → Bool
  | .tickEnds => true
  | .begin => s.chain.head? = some .announce
  | _ => false

/-- What an event makes of a talkback. -/
inductive Change (s : TalkbackSession) : Event → TalkbackSession → Prop
  | start (opens : Bool) (hopen : s.stopped = false) : Change s (.start opens) (s.start opens)
  | stop : Change s .stop s.stop
  | pushFrame {f : TalkbackFrame} {batch : List TalkbackFrame} (hbatch : s.batch = f :: batch) :
      Change s .pushFrame (s.pushFrame (f :: batch))
  | tick (takes : Option ℕ) (htimer : s.timer = true) : Change s (.tick takes) (s.tick takes)
  | announce {a : Event} {u : TalkbackSession} (ha : a.announces s = true) (hu : SameAudio s u)
      (hended : u.ended = s.ended) : Change s a u.announceFinishIfDone
  | other {a : Event} {t : TalkbackSession} (ha : a.announces s = false) (ht : SameAudio s t) :
      Change s a t
  | elapse (ms : ℕ) : Change s (.elapse ms) { s with now := s.now + ms }

variable {s t : TalkbackSession}

theorem SameAudio.refl (s : TalkbackSession) : SameAudio s s := ⟨_, _, _, _, _, _, _, rfl⟩

theorem sameAudio_write {chunk : Buffer} (h : s.write chunk = some t) : SameAudio s t := by
  unfold write at h
  split at h
  · obtain rfl := Option.some.inj h
    exact .refl s
  · dsimp only at h
    split at h
    · obtain rfl := Option.some.inj h
      exact ⟨_, _, _, _, _, _, _, rfl⟩
    · obtain ⟨r, -, rfl⟩ := Option.map_eq_some_iff.mp h
      exact ⟨_, _, _, _, _, _, _, rfl⟩

theorem sameAudio_end (s : TalkbackSession) : SameAudio s s.end_ := by
  unfold end_
  split <;> exact ⟨_, _, _, _, _, _, _, rfl⟩

theorem sameAudio_settle {output : Option (List Buffer)} {chain : List TalkbackJob}
    (h : s.settle output chain = some t) : SameAudio s t := by
  unfold settle at h
  split at h
  · split at h
    · obtain rfl := Option.some.inj h
      exact ⟨_, _, _, _, _, _, _, rfl⟩
    · obtain ⟨r, -, rfl⟩ := Option.map_eq_some_iff.mp h
      exact ⟨_, _, _, _, _, _, _, rfl⟩
  · split at h <;>
    · obtain rfl := Option.some.inj h
      exact ⟨_, _, _, _, _, _, _, rfl⟩
  · cases h

/-- A job that does not announce. -/
theorem sameAudio_begin {chain : List TalkbackJob} (h : chain.head? ≠ some .announce) :
    SameAudio s (s.begin chain) := by
  match chain with
  | [] => exact .refl s
  | .encode _ :: _ | .flush :: _ =>
    rw [begin]
    split <;> exact ⟨_, _, _, _, _, _, _, rfl⟩
  | .announce :: _ => exact absurd rfl h

theorem change_of_step {a : Event} (h : s.step a = some t) : Change s a t := by
  cases a with
  | start opens =>
    obtain ⟨hopen, ht⟩ := Option.ite_none_left_eq_some.mp h
    obtain rfl := Option.some.inj ht
    exact .start opens (Bool.eq_false_of_not_eq_true hopen)
  | write chunk => exact .other rfl (sameAudio_write h)
  | end_ =>
    obtain rfl := Option.some.inj h
    exact .other rfl (sameAudio_end s)
  | stop =>
    obtain rfl := Option.some.inj h
    exact .stop
  | pushFrame =>
    obtain ⟨hne, ht⟩ := Option.ite_none_right_eq_some.mp h
    obtain rfl := Option.some.inj ht
    obtain ⟨f, batch, hbatch⟩ := List.exists_cons_of_ne_nil hne
    rw [hbatch]
    exact .pushFrame hbatch
  | tick takes =>
    obtain ⟨hguard, ht⟩ := Option.ite_none_right_eq_some.mp h
    obtain rfl := Option.some.inj ht
    exact .tick takes (Bool.and_eq_true_iff.mp hguard).1
  | tickEnds =>
    obtain ⟨-, ht⟩ := Option.ite_none_right_eq_some.mp h
    obtain rfl := Option.some.inj ht
    exact .announce rfl ⟨_, _, _, _, _, _, _, rfl⟩ rfl
  | begin =>
    obtain ⟨-, ht⟩ := Option.ite_none_right_eq_some.mp h
    obtain rfl := Option.some.inj ht
    by_cases hhead : s.chain.head? = some .announce
    · obtain ⟨chain, hchain⟩ := List.head?_eq_some_iff.mp hhead
      rw [hchain]
      exact .announce (decide_eq_true hhead) ⟨_, _, _, _, _, _, _, rfl⟩ rfl
    · exact .other (decide_eq_false hhead) (sameAudio_begin hhead)
  | settle output =>
    obtain ⟨-, ht⟩ := Option.ite_none_right_eq_some.mp h
    exact .other rfl (sameAudio_settle ht)
  | elapse ms =>
    obtain rfl := Option.some.inj h
    exact .elapse ms

end TalkbackSession

end EufySdk
