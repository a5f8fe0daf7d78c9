import Mathlib.Tactic
import EufySdk.Lib.History
import EufySdk.Lib.Machine
import EufySdk.Transport.P2p.Dispatch

/-!
# The level-2 key of a session

The key negotiation of `transport/p2p/p2p-session.ts` over the life of a session: gateway
replies start it, its resolver answers at any later time, `awaitLevel2Key` calls wait for it,
and `connect` and `close` begin and end the connections it belongs to. A step is what runs
between two awaits, so a call that was woken goes on in a step of its own: listeners and other
jobs of the queue run in between.

- `Session` — a `P2PSession` with its negotiations and the calls that wait for the key
- `Session.onGatewayInfo` — the part of `handleFrame` that starts a negotiation
- `Session.resolved` — `negotiateLevel2Key` behind its await
- `Label`, `step` — what can happen
-/

namespace EufySdk.Level2

open Bytes P2PSession

/-- How a wait for the key ends. -/
inductive Outcome
  | key
  | terminal
  | closed
  | timeout
  deriving DecidableEq, Repr

/-- Where an `awaitLevel2Key` call is. -/
inductive Stage
  /-- Parked, with its deadline running. -/
  | waiting
  /-- Its wait is over, and it has not gone on yet. -/
  | woken (outcome : Outcome)
  | settled
  deriving DecidableEq, Repr

/-- An `awaitLevel2Key` call, with the answers its promise was settled with. -/
structure Await where
  stage : Stage
  answers : List Bool := []
  deriving DecidableEq, Repr

/-- The first end of a wait counts. -/
def Await.wake (outcome : Outcome) (w : Await) : Await :=
  if w.stage = .waiting then { w with stage := .woken outcome } else w

/-- A `negotiateLevel2Key`, until it goes on behind its resolver. -/
structure Negotiation where
  generation : ℕ
  cipherId : ℕ
  pending : Bool := true
  deriving DecidableEq, Repr

/-- What the resolver of a negotiation answers, and what the key derived with it is. -/
inductive Resolution
  /-- There is no private key for the cipher. -/
  | missing
  | underivable
  | key (key : Buffer)
  | throws
  deriving DecidableEq, Repr

inductive Event
  | connect
  | close
  /-- A gateway reply, and whether it started a negotiation. -/
  | reply (begun : Bool)
  /-- `repromptLevel2Key` returned true. -/
  | reprompt
  deriving DecidableEq, Repr

structure Session extends P2PSession.Session where
  closed : Bool := false
  connectionGeneration : ℕ := 0
  level2Seq : ℕ := 0
  level2Pending : Bool
  level2Reprompted : Bool := false
  /-- The calls parked, by index. -/
  level2Waiters : List ℕ := []
  awaits : List Await := []
  negotiations : List Negotiation := []
  /-- The `close` calls in their await. -/
  closing : ℕ := 0
  /-- What has happened, newest first. -/
  log : List Event := []

/-- What `resetInboundSequencing` leaves. -/
def noInbound : Inbound where
  lastSeqByType := fun _ => none
  pendingByDataType := fun _ => none
  tracedDatagramGaps := 0

/-- A new session. -/
def fresh (cfg : Config) (level1Key : Buffer) : Session where
  cfg := cfg
  socket := false
  connected := false
  connecting := false
  connectedAtMs := none
  connectAddress := none
  seqNumber := 0
  lastPongData := none
  lastPongAt := none
  pathStaleTraced := false
  lookupTimer := false
  connectTimer := false
  heartbeatTimer := false
  inbound := noInbound
  level1Key := level1Key
  level2Key := none
  level2Negotiating := false
  unackedLiveStarts := []
  liveStartRetransmitTimer := false
  unackedAudio := []
  audioStalled := false
  level2Pending := cfg.resolveCipherKey

namespace Session

/-! ## Waiting -/

/-- `finish` of the call with index `i`. -/
def finish (outcome : Outcome) (s : Session) (i : ℕ) : Session :=
  { s with
    level2Waiters := s.level2Waiters.erase i
    awaits := s.awaits.modify i (Await.wake outcome) }

/-- `settleLevel2`, where no key means `reason`. -/
def settleLevel2 (s : Session) (reason : Outcome) : Session :=
  let outcome := if s.level2Key.isSome then .key else reason
  s.level2Waiters.foldl (finish outcome) { s with level2Pending := false, level2Waiters := [] }

/-- `setLevel2Key`; a key of another length is refused. -/
def setLevel2Key (s : Session) (key : Buffer) : Session :=
  if key.length = 32 then { s with level2Key := some key }.settleLevel2 .terminal else s

/-- What is left of a grace. -/
def remaining (s : Session) (graceMs : ℕ) (fromSession : Bool) (now : ℕ) : ℤ :=
  let since := if fromSession then s.connectedAtMs.getD now else now
  graceMs - (now - since : ℤ)

/-- `awaitLevel2Key`, up to its await. -/
def awaitLevel2Key (s : Session) (graceMs : ℕ) (fromSession : Bool) (now : ℕ) : Session :=
  if s.closed then { s with awaits := s.awaits ++ [⟨.settled, [false]⟩] }
  else if s.level2Key.isSome then { s with awaits := s.awaits ++ [⟨.settled, [true]⟩] }
  else if !s.level2Pending then { s with awaits := s.awaits ++ [⟨.settled, [false]⟩] }
  else if s.remaining graceMs fromSession now ≤ 0 then
    { s with awaits := s.awaits ++ [⟨.settled, [false]⟩] }
  else
    { s with
      level2Waiters := s.level2Waiters ++ [s.awaits.length]
      awaits := s.awaits ++ [⟨.waiting, []⟩] }

/-- A woken call goes on. -/
def answer (s : Session) (i : ℕ) (outcome : Outcome) : Session :=
  { s with
    awaits := s.awaits.modify i fun w =>
      { stage := .settled, answers := w.answers ++ [decide (outcome = .key)] } }

/-! ## Negotiating -/

/-- The negotiation that a call of `negotiateLevel2Key` begins. -/
def begun (generation : ℕ) : Output → Option Negotiation
  | .negotiateLevel2Key cipherId => some { generation, cipherId }
  | _ => none

/-- A frame in `handleFrame`, as far as it starts a negotiation: its other effects are outputs. -/
def onGatewayInfo (rt : Runtime) (s : Session) (header : Codec.P2PDataFrameHeader)
    (payload : Buffer) : Session :=
  let data := frameData rt s.level1Key s.level2Key header payload
  match negotiate s.toSession header data with
  | .ok (t, out) =>
    let started := out.filterMap (begun s.connectionGeneration)
    { s with
      toSession := t
      negotiations := s.negotiations ++ started
      log :=
        if header.commandId = CMD_GATEWAYINFO ∧ header.signCode = 1 then
          .reply (!started.isEmpty) :: s.log
        else s.log }
  | .error _ => s

/-- `negotiateLevel2Key` with its resolver's answer, in the generation that began it. -/
def conclude (s : Session) : Resolution → Session
  | .missing | .underivable | .throws => s.settleLevel2 .terminal
  | .key key =>
    -- a key that `setLevel2Key` refuses ends in the `catch`
    if key.length = 32 then s.setLevel2Key key else s.settleLevel2 .terminal

/-- `negotiateLevel2Key` behind its await. -/
def resolved (s : Session) (i : ℕ) (n : Negotiation) (resolution : Resolution) : Session :=
  let behind :=
    { s with negotiations := s.negotiations.modify i fun n => { n with pending := false } }
  if s.closed || n.generation ≠ s.connectionGeneration then behind
  else behind.conclude resolution

/-- `repromptLevel2Key`, and what it returns. -/
def repromptLevel2Key (s : Session) : Session × Except Thrown Bool :=
  if s.closed || s.level2Key.isSome || s.level2Reprompted then (s, .ok false)
  else if !s.cfg.resolveCipherKey || s.connectAddress.isNone then (s, .ok false)
  else
    let s := { s with level2Reprompted := true, level2Pending := true }
    match sendCommand s.toSession CMD_GATEWAYINFO STATION_CHANNEL with
    | .ok (t, _) => ({ s with toSession := t, log := .reprompt :: s.log }, .ok true)
    | .error e => (s, .error e)

/-! ## Connecting and closing -/

/-- `connect` up to its await. -/
def connect (s : Session) : Session :=
  if s.connecting || s.connected then s
  else
    { s with
      connecting := true
      closed := false
      connectionGeneration := s.connectionGeneration + 1
      inbound := noInbound
      level2Pending := if s.level2Key.isNone then s.cfg.resolveCipherKey else s.level2Pending
      level2Negotiating := s.level2Key.isSome && s.level2Negotiating
      level2Reprompted := s.level2Key.isSome && s.level2Reprompted
      socket := true
      lookupTimer := true
      connectTimer := true
      log := .connect :: s.log }

/-- `close` up to its await. -/
def close (s : Session) : Session :=
  if s.closed then s
  else
    let s :=
      { s with
        closed := true
        connectionGeneration := s.connectionGeneration + 1
        level2Key := none
        level2Seq := 0
        log := .close :: s.log }.settleLevel2 .closed
    { s with
      connected := false
      connecting := false
      lookupTimer := false
      heartbeatTimer := false
      connectTimer := false
      unackedAudio := []
      audioStalled := false
      liveStartRetransmitTimer := false
      unackedLiveStarts := []
      inbound := noInbound
      closing := s.closing + 1 }

end Session

/-! ## Steps -/

inductive Label
  | connect
  /-- The station answers on the socket; an exception there is not caught by anyone. -/
  | camId (now : ℕ) (addr : Codec.Address)
  /-- A reassembled frame arrives. -/
  | frame (header : Codec.P2PDataFrameHeader) (payload : Buffer)
  /-- The resolver of a negotiation answers. -/
  | resolved (i : ℕ) (resolution : Resolution)
  | setLevel2Key (key : Buffer)
  | repromptLevel2Key
  | awaitLevel2Key (graceMs : ℕ) (fromSession : Bool) (now : ℕ)
  /-- The deadline of a call that waits. -/
  | deadline (i : ℕ)
  /-- A woken call goes on. -/
  | answer (i : ℕ)
  | close
  | closeBehind

open Session in
def step (rt : Runtime) (s : Session) : Label → Option Session
  | .connect => some s.connect
  | .camId now addr =>
    if s.connecting then
      match onConnected s.toSession now addr with
      | .ok (t, _) => some { s with toSession := t }
      | .error _ => none
    else none
  | .frame header payload =>
    if s.connected then some (s.onGatewayInfo rt header payload) else none
  | .resolved i resolution =>
    match s.negotiations[i]? with
    | some n => if n.pending then some (s.resolved i n resolution) else none
    | none => none
  | .setLevel2Key key => some (s.setLevel2Key key)
  | .repromptLevel2Key => some s.repromptLevel2Key.1
  | .awaitLevel2Key graceMs fromSession now => some (s.awaitLevel2Key graceMs fromSession now)
  | .deadline i =>
    if (s.awaits[i]?).any fun w => w.stage = .waiting then some (s.finish .timeout i) else none
  | .answer i =>
    match (s.awaits[i]?).map Await.stage with
    | some (.woken outcome) => some (s.answer i outcome)
    | _ => none
  | .close => some s.close
  | .closeBehind =>
    if 0 < s.closing then some { s with socket := false, closing := s.closing - 1 } else none

end EufySdk.Level2
