import Mathlib.Tactic
import EufySdk.Lib.Machine
import EufySdk.Lib.Resync

/-!
# Consumers of a shared live source

`ConsumerImpl` of `transport/p2p/shared-live-source.ts` for a consumer that is not
keyframe-primed, and the fan-out of a source's items to its consumers.

Listeners run inside a delivery and may pause, resume or detach any consumer, so the
loops of `resume` and of the fan-out are frames on a call stack and every turn of them
is a step of its own; pause, resume and detach may happen between any two steps. A new
item, or a new consumer, comes only once the stack is empty: the router attaches behind
an `await`.

Main definitions:

- `Consumer` — one consumer, the drain loops it has running, and what it has been offered
  and handed
- `Fanout`, `fanoutStep` — a source's consumers and the call stack
-/

namespace EufySdk.SharedLiveSource

variable {β : Type*}

structure LiveVideoConfig where
  codec : String
  width : ℕ
  height : ℕ
  deriving DecidableEq, Repr

/-- A video or audio frame with its arrival time. The coded bytes are a `β`. -/
inductive TimedMediaFrame (β : Type*)
  | video (frame : β) (keyframe : Bool) (timestampMs : ℚ) (config : LiveVideoConfig)
  | audio (frame : β) (timestampMs : ℚ)
  deriving DecidableEq

namespace TimedMediaFrame

def timestampMs : TimedMediaFrame β → ℚ
  | video _ _ timestampMs _ => timestampMs
  | audio _ timestampMs => timestampMs

def isKeyframe : TimedMediaFrame β → Bool
  | video _ keyframe _ _ => keyframe
  | audio _ _ => false

end TimedMediaFrame

structure Consumer (β : Type*) where
  queue : List (TimedMediaFrame β) := []
  paused : Bool := false
  detached : Bool := false
  awaitingKeyframe : Bool := false
  config : Option LiveVideoConfig := none
  /-- The items left to the running `resume` loops, the innermost loop first. -/
  drains : List (List (TimedMediaFrame β)) := []
  /-- The items the source has offered while this consumer was attached. -/
  offered : List (TimedMediaFrame β) := []
  /-- The items handed to this consumer's listeners. -/
  received : List (TimedMediaFrame β) := []
  /-- The configurations announced to this consumer's listeners. -/
  announced : List LiveVideoConfig := []

namespace Consumer

/-- Overflow: drop the backlog and wait for a keyframe. -/
def dropBacklogPastBound (maxQueue : ℕ) (c : Consumer β) : Consumer β :=
  if maxQueue < c.queue.length then { c with queue := [], awaitingKeyframe := true } else c

/-- Hand one item to the listeners, behind the configuration it is the first to carry. -/
def flush (c : Consumer β) (item : TimedMediaFrame β) : Consumer β :=
  match item with
  | .video _ _ _ config =>
    if c.config = some config then { c with received := c.received ++ [item] }
    else
      { c with
        config := some config
        announced := c.announced ++ [config]
        received := c.received ++ [item] }
  | .audio _ _ => { c with received := c.received ++ [item] }

def accept (maxQueue : ℕ) (c : Consumer β) (item : TimedMediaFrame β) : Consumer β :=
  if c.paused = false ∧ c.queue.length = 0 then c.flush item
  else dropBacklogPastBound maxQueue { c with queue := c.queue ++ [item] }

/-- `deliverVideo` and `deliverAudio`. -/
def deliver (maxQueue : ℕ) (c : Consumer β) (item : TimedMediaFrame β) : Consumer β :=
  match item with
  | .video _ keyframe _ _ =>
    if c.detached then c
    else if c.awaitingKeyframe then
      if keyframe = false then c else { c with awaitingKeyframe := false }.accept maxQueue item
    else c.accept maxQueue item
  | .audio _ _ =>
    if c.detached || c.awaitingKeyframe then c else c.accept maxQueue item

/-- The source offers an item to an attached consumer. -/
def offer (maxQueue : ℕ) (c : Consumer β) (item : TimedMediaFrame β) : Consumer β :=
  if c.detached then c
  else { c with offered := c.offered ++ [item] }.deliver maxQueue item

def pause (c : Consumer β) : Consumer β := { c with paused := true }

def detach (c : Consumer β) : Consumer β :=
  if c.detached then c else { c with detached := true, queue := [] }

/-- `resume` up to its loop: the queue becomes the loop's local copy. -/
def resume (c : Consumer β) : Consumer β :=
  if c.detached then c
  else { c with paused := false, queue := [], drains := c.queue :: c.drains }

/-- Restore an undelivered backlog ahead of anything queued behind it. -/
def retainUndelivered (maxQueue : ℕ) (c : Consumer β) (undelivered : List (TimedMediaFrame β)) :
    Consumer β :=
  dropBacklogPastBound maxQueue
    { c with queue := if 0 < c.queue.length then undelivered ++ c.queue else undelivered }

/-- One turn of the innermost `resume` loop. The loop is left when its items are used up, the
consumer is detached, or it is paused again. -/
def drainTurn (maxQueue : ℕ) (c : Consumer β) : Consumer β :=
  match c.drains with
  | [] => c
  | [] :: outer => { c with drains := outer }
  | (item :: rest) :: outer =>
    if c.detached then { c with drains := outer }
    else if c.paused then
      { c with drains := outer }.retainUndelivered maxQueue (item :: rest)
    else { c with drains := rest :: outer }.flush item

end Consumer

/-! ## One consumer by itself -/

/-- What happens to one consumer. -/
inductive ConsumerEvent (β : Type*)
  | offer (item : TimedMediaFrame β)
  | pause
  | resume
  | detach
  | drain

namespace Consumer

def apply (maxQueue : ℕ) (c : Consumer β) : ConsumerEvent β → Consumer β
  | .offer item => c.offer maxQueue item
  | .pause => c.pause
  | .resume => c.resume
  | .detach => c.detach
  | .drain => c.drainTurn maxQueue

/-- The events of one consumer, one after the other. -/
def applyAll (maxQueue : ℕ) (c : Consumer β) (events : List (ConsumerEvent β)) : Consumer β :=
  events.foldl (apply maxQueue) c

end Consumer

/-! ## The fan-out -/

inductive CallFrame (β : Type*)
  /-- The fan-out of an item, with the consumers it has still to reach. -/
  | fanOut (item : TimedMediaFrame β) (remaining : List ℕ)
  /-- A `resume` loop of a consumer. -/
  | drain (c : ℕ)

/-- A source's consumers, numbered in the order they attached. -/
structure Fanout (β : Type*) where
  delivered : List (TimedMediaFrame β) := []
  consumers : List (Consumer β) := []
  /-- How many items had been delivered when each consumer attached. -/
  attachedAt : List ℕ := []
  stack : List (CallFrame β) := []

inductive FanoutLabel (β : Type*)
  | attach
  | deliver (item : TimedMediaFrame β)
  /-- The fan-out reaches a consumer. -/
  | offer (c : ℕ) (item : TimedMediaFrame β)
  | fanOutDone
  | drain (c : ℕ)
  | pause (c : ℕ)
  | resume (c : ℕ)
  | detach (c : ℕ)

/-- The consumers a fan-out goes through: those not detached, in the order they attached. -/
def Fanout.attachedIds (s : Fanout β) : List ℕ :=
  (List.range s.consumers.length).filter fun c =>
    (s.consumers[c]?).any fun consumer => !consumer.detached

def Fanout.update (s : Fanout β) (c : ℕ) (f : Consumer β → Consumer β) : Fanout β :=
  { s with consumers := s.consumers.modify c f }

/-- The innermost `resume` loop ends with its next turn. -/
def Consumer.leavesLoop (c : Consumer β) : Bool :=
  match c.drains with
  | [] | [] :: _ => true
  | _ => c.detached || c.paused

variable [DecidableEq β]

def fanoutStep (maxQueue : ℕ) (s : Fanout β) : FanoutLabel β → Option (Fanout β)
  | .attach =>
    match s.stack with
    | [] => some { s with
        consumers := s.consumers ++ [{}]
        attachedAt := s.attachedAt ++ [s.delivered.length] }
    | _ => none
  | .deliver item =>
    match s.stack with
    | [] => some { s with
        delivered := s.delivered ++ [item]
        stack := [.fanOut item s.attachedIds] }
    | _ => none
  | .offer c item =>
    match s.stack with
    | .fanOut item' (c' :: remaining) :: below =>
      if c = c' ∧ item = item' then
        some { s.update c (Consumer.offer maxQueue · item) with
          stack := .fanOut item remaining :: below }
      else none
    | _ => none
  | .fanOutDone =>
    match s.stack with
    | .fanOut _ [] :: below => some { s with stack := below }
    | _ => none
  | .drain c =>
    match s.stack, s.consumers[c]? with
    | .drain c' :: below, some consumer =>
      if c = c' then
        some { s.update c (Consumer.drainTurn maxQueue) with
          stack := if consumer.leavesLoop then below else s.stack }
      else none
    | _, _ => none
  | .pause c => if c < s.consumers.length then some (s.update c Consumer.pause) else none
  | .resume c =>
    match s.consumers[c]? with
    | some consumer => some { s.update c Consumer.resume with
        stack := if consumer.detached then s.stack else .drain c :: s.stack }
    | none => none
  | .detach c => if c < s.consumers.length then some (s.update c Consumer.detach) else none

end EufySdk.SharedLiveSource
