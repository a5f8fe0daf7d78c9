import Mathlib.Tactic
import EufySdk.Lib.Machine
import EufySdk.Transport.P2p.AttachFailure
import EufySdk.Transport.P2p.Consumer

/-!
# A fragment recording

`FragmentRecording` of `transport/p2p/fragment-recording.ts`: the muxer turns the items of one
consumer into fragments, an iterator hands them over one at a time, and the recording pauses
its consumer while too many are queued. What runs between two suspensions is one step: the
attach behind the source's promise, an item of the source, a turn of the iterator's loop.

Main definitions:

- `FragmentMuxer` — what the recording uses of its muxer; `flush` does not throw
- `FragmentRecording` — the fields of a recording, and what it muxed and handed over
- `FragmentRecording.step` — its steps
-/

namespace EufySdk

open SharedLiveSource

/-- What `push` and `pushAudio` of a muxer return or throw, and what `flush` returns. -/
structure FragmentMuxer (β M F : Type*) where
  push : M → TimedMediaFrame β → Except String (M × Option F)
  flush : M → Option F

def MAX_PENDING_FRAGMENTS : ℕ := 8

/-- Where the iterator of a recording is. -/
inductive FragmentIterator
  | fresh
  /-- At `await this.ready`. -/
  | starting
  /-- At the promise that `wake` resolves. -/
  | waiting
  /-- That promise is resolved. -/
  | woken
  /-- At a `yield`. -/
  | yielded
  | returned
  | threw (error : String)
  /-- Its owner left it before its end. -/
  | left
  deriving DecidableEq, Repr

structure FragmentRecording (β M F : Type*) where
  mux : M
  queue : List F := []
  consumer : Option (Consumer β) := none
  wake : Bool := false
  failure : Option String := none
  ended : Bool := false
  held : Bool := false
  /-- `attach` is through, so that `ready` is resolved. -/
  settled : Bool := false
  iterator : FragmentIterator := .fresh
  /-- The source has a consumer of this recording that the recording was not handed. -/
  stray : Bool := false
  /-- The fragments the muxer returned, and what `flush` returned. -/
  muxed : List F := []
  tail : Option F := none
  yielded : List F := []

namespace FragmentRecording

variable {β M F : Type*}

/-! ## Operations -/

/-- Resolve the promise the iterator waits for, if it does. -/
def nudge (s : FragmentRecording β M F) : FragmentRecording β M F :=
  if s.wake then { s with wake := false, iterator := .woken } else s

def stop (mux : FragmentMuxer β M F) (s : FragmentRecording β M F) : FragmentRecording β M F :=
  if s.ended then s
  else
    { s with
      queue := s.queue ++ (mux.flush s.mux).toList
      tail := mux.flush s.mux
      ended := true
      consumer := s.consumer.map Consumer.detach }.nudge

def fail (s : FragmentRecording β M F) (error : String) : FragmentRecording β M F :=
  if s.ended then s
  else
    { s with
      failure := error
      ended := true
      consumer := s.consumer.map Consumer.detach }.nudge

/-- Pause the consumer once too many fragments are queued. -/
def hold (s : FragmentRecording β M F) : FragmentRecording β M F :=
  if s.held = false ∧ MAX_PENDING_FRAGMENTS ≤ s.queue.length then
    { s with held := true, consumer := s.consumer.map Consumer.pause }
  else s

def ingest (mux : FragmentMuxer β M F) (s : FragmentRecording β M F)
    (item : TimedMediaFrame β) : FragmentRecording β M F :=
  if s.ended then s
  else
    match mux.push s.mux item with
    | .error error => s.fail error
    | .ok (m, fragment) =>
      { s with
        mux := m
        queue := s.queue ++ fragment.toList
        muxed := s.muxed ++ fragment.toList }.hold.nudge

/-- The loop of `ConsumerImpl.resume` over the items left to it; each is ingested as it is
handed over. -/
def drain (mux : FragmentMuxer β M F) (maxQueue : ℕ) :
    List (TimedMediaFrame β) → FragmentRecording β M F → FragmentRecording β M F
  | [], s => s
  | item :: rest, s =>
    match s.consumer with
    | none => s
    | some c =>
      if c.detached then s
      else if c.paused then
        { s with consumer := some (c.retainUndelivered maxQueue (item :: rest)) }
      else drain mux maxQueue rest ({ s with consumer := some (c.flush item) }.ingest mux item)

def resume (mux : FragmentMuxer β M F) (maxQueue : ℕ) (s : FragmentRecording β M F) :
    FragmentRecording β M F :=
  match s.consumer with
  | none => s
  | some c =>
    if c.detached then s
    else
      { s with consumer := some { c with paused := false, queue := [] } }.drain mux maxQueue c.queue

/-- Hand over the next fragment, and release the consumer once the queue is short enough. -/
def take (mux : FragmentMuxer β M F) (maxQueue : ℕ) (s : FragmentRecording β M F) :
    FragmentRecording β M F :=
  match s.queue with
  | [] => s
  | fragment :: rest =>
    let s := { s with queue := rest, yielded := s.yielded ++ [fragment] }
    if s.held ∧ s.queue.length < MAX_PENDING_FRAGMENTS then
      { s with held := false }.resume mux maxQueue
    else s

/-- The iterator's loop up to where it is suspended or left; `finally` stops the recording. -/
def turn (mux : FragmentMuxer β M F) (maxQueue : ℕ) (s : FragmentRecording β M F) :
    FragmentRecording β M F :=
  if 0 < s.queue.length then { s.take mux maxQueue with iterator := .yielded }
  else
    match s.failure with
    | some error => { s.stop mux with iterator := .threw error }
    | none =>
      if s.ended then { s.stop mux with iterator := .returned }
      else { s with iterator := .waiting, wake := true }

/-- `attach` behind the source's promise, for a source in state `source` and what of its
`openStream` throws. -/
def attach (mux : FragmentMuxer β M F) (s : FragmentRecording β M F) (o : Options)
    (source : Pull) (fault : Option Fault) (buffered : List (TimedMediaFrame β)) :
    FragmentRecording β M F :=
  if s.ended then { s with settled := true }
  else
    match source.attachConsumer o fault with
    | ⟨_, none⟩ =>
      buffered.foldl (ingest mux) { s with settled := true, consumer := some {} }
    | ⟨after, some message⟩ =>
      { s with
        settled := true
        stray := decide (source.consumers < after.consumers) }.fail message

/-- The source hands an item to the consumer, which may queue or drop it. -/
def offer (mux : FragmentMuxer β M F) (maxQueue : ℕ) (s : FragmentRecording β M F)
    (item : TimedMediaFrame β) : FragmentRecording β M F :=
  match s.consumer with
  | none => s
  | some c =>
    let c' := c.offer maxQueue item
    let s := { s with consumer := some c' }
    if c.received.length < c'.received.length then s.ingest mux item else s

/-! ## Steps -/

inductive Label (β : Type*)
  | sourceResolves (o : Options) (source : Pull) (fault : Option Fault)
    (buffered : List (TimedMediaFrame β))
  | sourceRejects (error : String)
  | offer (item : TimedMediaFrame β)
  /-- The consumer's `stop` and `error` events. -/
  | upstreamStop
  | upstreamError (error : String)
  | stop
  /-- `next` of the iterator. -/
  | pull
  /-- The iterator goes on behind `await this.ready`, or behind its wake-up. -/
  | ready
  | wakes
  /-- `return` of the iterator. -/
  | leave

def attached (s : FragmentRecording β M F) : Bool := s.consumer.any fun c => !c.detached

def can (s : FragmentRecording β M F) : Label β → Bool
  | .sourceResolves .. | .sourceRejects _ => !s.settled
  | .offer _ | .upstreamStop | .upstreamError _ => s.attached
  | .stop => true
  | .pull => s.iterator = .fresh || s.iterator = .yielded
  | .ready => s.iterator = .starting && s.settled
  | .wakes => s.iterator = .woken
  | .leave => s.iterator = .yielded

def act (mux : FragmentMuxer β M F) (maxQueue : ℕ) (s : FragmentRecording β M F) :
    Label β → FragmentRecording β M F
  | .sourceResolves o source fault buffered => s.attach mux o source fault buffered
  | .sourceRejects error => { s with settled := true }.fail error
  | .offer item => s.offer mux maxQueue item
  | .upstreamStop | .stop => s.stop mux
  | .upstreamError error => s.fail error
  | .pull =>
    if s.iterator = .fresh then { s with iterator := .starting } else s.turn mux maxQueue
  | .ready | .wakes => s.turn mux maxQueue
  | .leave => { s.stop mux with iterator := .left }

def step (mux : FragmentMuxer β M F) (maxQueue : ℕ) (s : FragmentRecording β M F)
    (label : Label β) : Option (FragmentRecording β M F) :=
  if s.can label then some (s.act mux maxQueue label) else none

variable {mux : FragmentMuxer β M F} {maxQueue : ℕ}

theorem step_eq_some {s t : FragmentRecording β M F} {label : Label β} :
    s.step mux maxQueue label = some t ↔
      s.can label = true ∧ s.act mux maxQueue label = t := by
  simp [step]

end FragmentRecording

end EufySdk
