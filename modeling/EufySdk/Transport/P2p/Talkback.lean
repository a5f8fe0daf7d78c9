import Mathlib.Tactic
import EufySdk.Lib.Bytes
import EufySdk.Lib.OrderedMap
import EufySdk.Transport.P2p.LiveSource

/-!
# Talkbacks and the live sources under them

`openTalkback`, `tearDownStation` and `closeAll` of `transport/p2p/command-router.ts`, with
the `Talkback` of `transport/p2p/talkback.ts` that each call builds and the consumer of a
shared live source it rides. A step is what runs between two awaits, or an event of the
outside. A station that closes because its last user is released is a `tearDownStation`
right behind the step that released it: nothing in that step reads what it changes.

- `Call`, `Pull`, `Router` — the state
- `Router.stop` — `Talkback.stop`
- `Router.sharedLiveSourceFor`, `Router.attach` — acquiring a source and attaching to it
- `Router.resume` — `openTalkback` behind its second await
- `Label`, `step` — what can happen
-/

namespace EufySdk.Talkback

open OrderedMap SharedLiveSource

/-- Where an `openTalkback` is. -/
inductive Stage
  /-- In `resolveSession`. -/
  | resolving
  /-- In `sharedLiveSourceFor`, with its key recorded. -/
  | warming
  /-- `sharedLiveSourceFor` has returned a source. -/
  | warmed (source : ℕ)
  /-- `sharedLiveSourceFor` has thrown. -/
  | refused
  /-- It has returned its handle. -/
  | talking
  | rejected
  deriving DecidableEq, Repr

/-- An `openTalkback` call, with its `Talkback` and its `consumer`. -/
structure Call where
  stage : Stage := .resolving
  key : String := ""
  started : Bool := false
  stopped : Bool := false
  /-- The source its consumer was attached to. -/
  consumer : Option ℕ := none
  deriving DecidableEq, Repr

/-- `Talkback.start`, where the session opens the path or does not. -/
def Call.start (c : Call) (opens : Bool) : Option Call :=
  if c.started then some c else if opens then some { c with started := true } else none

/-- A `SharedLiveSource` of the router. -/
structure Pull where
  channel : ℕ
  eccPrivateKey : Option Bytes.Buffer := none
  source : Source := {}
  /-- The calls that have a consumer among the attached ones. -/
  riding : List ℕ := []
  deriving DecidableEq, Repr

/-- Whether `makeStream` builds a stream: a `VideoFrameDecoder` takes a key of 32 bytes. -/
def Pull.buildsStream (p : Pull) : Bool := p.eccPrivateKey.all fun key => key.length = 32

/-- A consumer is added, for a call or for another egress. -/
def Pull.join (rider : Option ℕ) (p : Pull) : Pull :=
  { p with source := p.source.join, riding := p.riding ++ rider.toList }

/-- What `attachConsumer` leaves behind when `makeStream` throws. -/
def Pull.unbuilt (p : Pull) : Pull :=
  { p with
    source :=
      { p.source.cancelLinger with
        state := .warming
        sessionReplacementAsked := false
        reuseWatch := false
        delivered := {} } }

/-- `detach` of a call's consumer. -/
def Pull.detach (t : ℕ) (p : Pull) : Pull :=
  if t ∈ p.riding then
    let source := p.source.leave
    { p with
      riding := p.riding.filter (· ≠ t)
      source := if source.consumers = 0 && !source.disposed then source.arm else source }
  else p

structure Router where
  calls : List Call := []
  talkbacks : List (String × ℕ) := []
  /-- Every source that was created. -/
  pulls : List Pull := []
  liveSources : List (String × ℕ) := []
  /-- The `closeAll` calls in their first await. -/
  closing : ℕ := 0
  deriving DecidableEq, Repr

/-- The key of a camera. -/
def cameraKey (parentSn : String) (channel : ℕ) : String := parentSn ++ ":" ++ toString channel

/-- Whether a key is one of a station: `key.startsWith(parentSn + ":")`. -/
def ofStation (parentSn key : String) : Bool := (parentSn ++ ":").toList.isPrefixOf key.toList

namespace Router

def modifyCall (w : Router) (t : ℕ) (f : Call → Call) : Router :=
  { w with calls := w.calls.modify t f }

def modifyPull (w : Router) (i : ℕ) (f : Pull → Pull) : Router :=
  { w with pulls := w.pulls.modify i f }

/-! ## Stopping -/

/-- `consumer?.stop()`. -/
def releaseMedia (w : Router) (t : ℕ) (consumer : Option ℕ) : Router :=
  match consumer with
  | some i => w.modifyPull i (Pull.detach t)
  | none => w

/-- The entry of a key goes, if it is this call's. -/
def forget (w : Router) (t : ℕ) (key : String) : Router :=
  if get w.talkbacks key = some t then { w with talkbacks := delete w.talkbacks key } else w

/-- `Talkback.stop`, down to its `stop` event. -/
def stop (w : Router) (t : ℕ) : Router :=
  match w.calls[t]? with
  | some c =>
    if c.stopped then w
    else
      ((w.modifyCall t fun c => { c with stopped := true }).releaseMedia t c.consumer).forget t c.key
  | none => w

/-- Consumers of source `i` are told that it stops. A consumer has its listeners from when
`openTalkback` has it. -/
def endConsumers (w : Router) (i : ℕ) (riding : List ℕ) : Router :=
  riding.foldl
    (fun w t => if (w.calls[t]?).bind Call.consumer = some i then w.stop t else w) w

def dispose (w : Router) (i : ℕ) : Router :=
  match w.pulls[i]? with
  | some p =>
    if p.source.disposed then w
    else
      let w := w.modifyPull i fun p => { p with source := { p.source with disposed := true } }
      (w.endConsumers i p.riding).modifyPull i fun p =>
        { p with source := p.source.dispose, riding := [] }
  | none => w

def dropLiveSource (w : Router) (key : String) : Router :=
  match get w.liveSources key with
  | some i =>
    let w := w.dispose i
    { w with liveSources := delete w.liveSources key }
  | none => w

/-- One turn of the loop of `tearDownStation` over the talkbacks. -/
def tearDownTalkback (w : Router) (key : String) : Router :=
  match get w.talkbacks key with
  | some t => { w with talkbacks := delete w.talkbacks key }.stop t
  | none => w

def tearDownStation (w : Router) (stationSn : String) : Router :=
  let w := ((w.liveSources.map Prod.fst).filter (ofStation stationSn)).foldl dropLiveSource w
  ((w.talkbacks.map Prod.fst).filter (ofStation stationSn)).foldl tearDownTalkback w

/-- `closeAll` up to its first await. -/
def closeAll (w : Router) : Router :=
  let talking := w.talkbacks.map Prod.snd
  talking.foldl stop { w with talkbacks := [], closing := w.closing + 1 }

/-- `closeAll` behind its first await. -/
def closeSources (w : Router) : Router :=
  let w := (w.liveSources.map Prod.snd).foldl dispose w
  { w with liveSources := [], closing := w.closing - 1 }

/-! ## Acquiring a source -/

/-- A stopped source is not reused. -/
def dropStopped (w : Router) (key : String) : Router :=
  if ((get w.liveSources key).bind (w.pulls[·]?)).any fun p => p.source.state = .stopped then
    w.dropLiveSource key
  else w

/-- One turn of the loop of `releaseLingeringSiblings`. -/
def releaseSibling (parentSn own : String) (w : Router) (e : String × ℕ) : Router :=
  if !ofStation parentSn e.1 || e.1 = own || (w.pulls[e.2]?).any fun p => 0 < p.source.consumers
  then w
  else w.dropLiveSource e.1

def releaseLingeringSiblings (w : Router) (parentSn : String) (channel : ℕ) : Router :=
  w.liveSources.foldl (releaseSibling parentSn (cameraKey parentSn channel)) w

/-- The channel of another source of the station that can still deliver to a consumer. -/
def occupiedSiblingChannel (w : Router) (parentSn key : String) : Option ℕ :=
  w.liveSources.findSome? fun e =>
    if e.1 = key || !ofStation parentSn e.1 then none
    else
      match w.pulls[e.2]? with
      | some p =>
        if p.source.state = .stopped || p.source.consumers = 0 then none else some p.channel
      | none => none

/-- `sharedLiveSourceFor` behind `resolveSession`, and the source it returns; it throws when
another camera has the station. -/
def sharedLiveSourceFor (w : Router) (parentSn : String) (channel : ℕ) (homeBaseAttached : Bool)
    (eccPrivateKey : Option Bytes.Buffer) : Router × Option ℕ :=
  let key := cameraKey parentSn channel
  let w := (w.dropStopped key).releaseLingeringSiblings parentSn channel
  if homeBaseAttached && (w.occupiedSiblingChannel parentSn key).isSome then (w, none)
  else
    match get w.liveSources key with
    | some i => (w, some i)
    | none =>
      ({ w with
          pulls := w.pulls ++ [{ channel := channel, eccPrivateKey := eccPrivateKey }]
          liveSources := set w.liveSources key w.pulls.length },
        some w.pulls.length)

/-- `attachConsumer`, and whether it returns a consumer. The consumer is among the attached ones
before the stream it needs is built. -/
def attach (w : Router) (i : ℕ) (rider : Option ℕ) : Router × Bool :=
  match w.pulls[i]? with
  | some p =>
    if p.source.disposed then (w, false)
    else if !p.source.stream && !p.buildsStream then
      (w.modifyPull i fun p => (p.join rider).unbuilt, false)
    else
      (w.modifyPull i fun p =>
          { p.join rider with source := (p.join rider).source.joined }, true)
  | none => (w, false)

/-! ## `openTalkback` -/

/-- `openTalkback` behind `resolveSession`: refused, or a new `Talkback` takes the key. -/
def claim (w : Router) (t : ℕ) (key : String) : Router :=
  if (get w.talkbacks key).isSome then w.modifyCall t fun c => { c with stage := .rejected }
  else
    { w with talkbacks := set w.talkbacks key t }.modifyCall t fun _ =>
      { stage := .warming, key := key }

/-- The `catch` of `openTalkback`. -/
def reject (w : Router) (t : ℕ) (key : String) (consumer : Option ℕ) : Router :=
  ((w.forget t key).releaseMedia t consumer).modifyCall t fun c => { c with stage := .rejected }

/-- `openTalkback` with a source: its entry is checked again, then it attaches and starts. -/
def begin (w : Router) (t i : ℕ) (c : Call) (opens : Bool) : Router :=
  if get w.talkbacks c.key = some t then
    match w.attach i (some t) with
    | (w, false) => w.reject t c.key none
    | (w, true) =>
      let riding := { c with consumer := some i }
      match riding.start opens with
      | some c => w.modifyCall t fun _ => { c with stage := .talking }
      | none => (w.modifyCall t fun _ => riding).reject t c.key (some i)
  else w.reject t c.key none

end Router

/-! ## Steps -/

inductive Label
  | openTalkback
  /-- `resolveSession` of call `t` returns. -/
  | resolved (t : ℕ) (parentSn : String) (channel : ℕ)
  | unresolved (t : ℕ)
  /-- `resolveSession` in `sharedLiveSourceFor` of call `t` returns. -/
  | acquired (t : ℕ) (parentSn : String) (channel : ℕ) (homeBaseAttached : Bool)
      (eccPrivateKey : Option Bytes.Buffer)
  | unacquired (t : ℕ)
  /-- Call `t` goes on behind `sharedLiveSourceFor`. -/
  | resume (t : ℕ) (opens : Bool)
  /-- A handle is stopped, or found idle. -/
  | stop (t : ℕ)
  /-- Another egress acquires a source. -/
  | live (parentSn : String) (channel : ℕ) (homeBaseAttached : Bool)
      (eccPrivateKey : Option Bytes.Buffer)
  | attach (i : ℕ)
  | detach (i : ℕ)
  | video (i : ℕ) (keyframe : Bool)
  | audio (i : ℕ)
  /-- A stream ends, or its budget has run out. -/
  | ended (i : ℕ)
  /-- A stream fails or times out, or the linger elapses. -/
  | teardown (i : ℕ)
  /-- A source is dropped because its start failed. -/
  | drop (key : String)
  | tearDownStation (stationSn : String)
  | closeAll
  | closeSources
  deriving DecidableEq, Repr

open Router in
def step (w : Router) : Label → Option Router
  | .openTalkback => some { w with calls := w.calls ++ [{}] }
  | .resolved t parentSn channel =>
    match w.calls[t]? with
    | some c =>
      if c.stage = .resolving then some (w.claim t (cameraKey parentSn channel)) else none
    | none => none
  | .unresolved t =>
    match w.calls[t]? with
    | some c =>
      if c.stage = .resolving then some (w.modifyCall t fun c => { c with stage := .rejected })
      else none
    | none => none
  | .acquired t parentSn channel homeBaseAttached eccPrivateKey =>
    match w.calls[t]? with
    | some c =>
      if c.stage = .warming then
        let (w, source) := w.sharedLiveSourceFor parentSn channel homeBaseAttached eccPrivateKey
        some (w.modifyCall t fun c => { c with stage := source.elim .refused .warmed })
      else none
    | none => none
  | .unacquired t =>
    match w.calls[t]? with
    | some c =>
      if c.stage = .warming then some (w.modifyCall t fun c => { c with stage := .refused })
      else none
    | none => none
  | .resume t opens =>
    match w.calls[t]? with
    | some c =>
      match c.stage with
      | .warmed i => some (w.begin t i c opens)
      | .refused => some (w.reject t c.key none)
      | _ => none
    | none => none
  | .stop t =>
    match w.calls[t]? with
    | some c => if c.stage = .talking then some (w.stop t) else none
    | none => none
  | .live parentSn channel homeBaseAttached eccPrivateKey =>
    some (w.sharedLiveSourceFor parentSn channel homeBaseAttached eccPrivateKey).1
  | .attach i => some (w.attach i none).1
  | .detach i =>
    match w.pulls[i]? with
    | some p =>
      if p.riding.length < p.source.consumers then
        some (w.modifyPull i fun p =>
          let source := p.source.leave
          { p with
            source := if source.consumers = 0 && !source.disposed then source.arm else source })
      else none
    | none => none
  | .video i keyframe =>
    match w.pulls[i]? with
    | some p =>
      if p.source.stream then
        some (w.modifyPull i fun p => { p with source := p.source.onVideo keyframe })
      else none
    | none => none
  | .audio i =>
    match w.pulls[i]? with
    | some p =>
      if p.source.stream then
        some (w.modifyPull i fun p => { p with source := p.source.onAudio })
      else none
    | none => none
  | .ended i =>
    match w.pulls[i]? with
    | some p =>
      if !p.source.disposed && p.source.stream then
        some ((w.endConsumers i p.riding).modifyPull i fun p =>
          { p with source := p.source.teardown })
      else none
    | none => none
  | .teardown i =>
    match w.pulls[i]? with
    | some p =>
      if p.source.lingerTimer || (!p.source.disposed && p.source.stream) then
        some (w.modifyPull i fun p => { p with source := p.source.teardown })
      else none
    | none => none
  | .drop key => some (w.dropLiveSource key)
  | .tearDownStation stationSn => some (w.tearDownStation stationSn)
  | .closeAll => some w.closeAll
  | .closeSources => if 0 < w.closing then some w.closeSources else none

end EufySdk.Talkback
