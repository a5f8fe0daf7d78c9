import Mathlib.Tactic
import EufySdk.Core.Json
import EufySdk.Transport.P2p.Reassembly

/-!
# Routing one inbound datagram

`P2PSession.onMessage` and the handlers behind it: hole punching, the connect
handshake, acknowledgements, and `handleFrame` on each reassembled frame. A handler
ends early with the exception it throws; what it sends and emits comes back in order.

Main definitions:

- `Runtime` — the ciphers, `JSON.parse` and number formatting the handlers call
- `Session` — the fields the inbound path reads and writes
- `onMessage` — the socket's message callback
-/

namespace EufySdk.P2PSession

open Bytes Codec

/-- The platform functions behind the inbound path. A cipher or parser that throws returns
`none`: every call of one is caught. -/
structure Runtime where
  decryptP2PData : Buffer → Buffer → Option Buffer
  /-- AES-256-GCM under key, nonce, tag and ciphertext, with the fixed additional data. -/
  decryptGcm : Buffer → Buffer → Buffer → Buffer → Option Buffer
  jsonParse : Buffer → Option Json
  numberToString : ℚ → String
  base64 : String → Buffer

structure Config where
  stationSn : String
  p2pDid : String
  resolveCipherKey : Bool

structure Session where
  cfg : Config
  socket : Bool
  connected : Bool
  connecting : Bool
  connectedAtMs : Option ℕ
  connectAddress : Option Address
  seqNumber : UInt16
  lastPongData : Option Buffer
  lastPongAt : Option ℕ
  pathStaleTraced : Bool
  lookupTimer : Bool
  connectTimer : Bool
  heartbeatTimer : Bool
  inbound : Inbound
  level1Key : Buffer
  level2Key : Option Buffer
  level2Negotiating : Bool
  unackedLiveStarts : List ℕ
  liveStartRetransmitTimer : Bool
  unackedAudio : List ℕ
  audioStalled : Bool

structure P2PFrame where
  header : P2PDataFrameHeader
  stationSn : String
  dataType : UInt8
  data : Buffer
  raw : Buffer
  json : Option Json
  params : Option (List (ℚ × String))

/-- What the inbound path sends, emits and traces. -/
inductive Output
  | send (addr : Address) (packet : Buffer)
  | connect
  | negotiateLevel2Key (cipherId : ℕ)
  | traceInbound (phase : TracePhase) (dataType : UInt8)
  | traceMediaCommandAck
  | dbChunk (text : Buffer)
  | rtspUrl (channel : ℕ) (url : Buffer)
  | image (file : Json) (data : Buffer)
  | commandResult (code : ℤ) (channel : ℕ)
  | data (frame : P2PFrame)

/-! ## Sending -/

/-- A port `socket.send` accepts. -/
def ValidPort (port : ℕ) : Prop := 1 ≤ port ∧ port ≤ 65535

instance (port : ℕ) : Decidable (ValidPort port) := inferInstanceAs (Decidable (_ ∧ _))

def send (socket : Bool) (addr : Address) (type payload : Buffer) :
    Except Thrown (List Output) := do
  if socket = false then return []
  else
    let packet ← frameMessage type payload
    if ValidPort addr.port then return [.send addr packet] else .error .rangeError

/-- Send one payload to each address in turn. -/
def sendEach (socket : Bool) (type payload : Buffer) : List Address → Except Thrown (List Output)
  | [] => .ok []
  | addr :: rest => do
    let first ← send socket addr type payload
    let others ← sendEach socket type payload rest
    return first ++ others

/-- The ports three below to three above the reported one, without it and without those that
are not positive. -/
def checkCamPorts (port : ℕ) : List ℕ :=
  (List.range 7).filterMap fun i =>
    if i ≠ 3 ∧ 3 < port + i then some (port + i - 3) else none

def beginCheckCam (s : Session) (addr : Address) : Except Thrown (List Output) := do
  let payload ← buildCheckCamPayload s.cfg.p2pDid
  sendEach s.socket RequestMessageType.CHECK_CAM payload
    (addr :: (checkCamPorts addr.port).map fun p => { host := addr.host, port := p })

def STATION_CHANNEL : ℤ := 255
def CMD_GATEWAYINFO : ℕ := 1100
def CMD_VIDEO_FRAME : ℕ := 1300
def CMD_AUDIO_FRAME : ℕ := 1301
def CMD_DATABASE : ℕ := 1306
def CMD_DATABASE_IMAGE : ℕ := 1308
def CMD_NOTIFY_PAYLOAD : ℕ := 1351
def CMD_CAMERA_INFO : ℕ := 1103
def CMD_NAS_SWITCH : ℕ := 1145

def sendCommand (s : Session) (commandType : ℕ) (channel : ℤ) :
    Except Thrown (Session × List Output) := do
  match s.connectAddress with
  | none => return (s, [])
  | some addr =>
    let header ← buildCommandHeader s.seqNumber.toNat commandType (P2PDataTypeHeader .DATA)
    let sent ← send s.socket addr RequestMessageType.DATA
      (header ++ buildVoidCommandPayload channel)
    return ({ s with seqNumber := s.seqNumber + 1 }, sent)

/-- The fields `onConnected` sets before it sends anything. -/
def markConnected (s : Session) (now : ℕ) (addr : Address) : Session :=
  { s with
    connected := true
    connectedAtMs := some now
    connecting := false
    connectAddress := some addr
    lookupTimer := false
    connectTimer := false }

def onConnected (s : Session) (now : ℕ) (addr : Address) :
    Except Thrown (Session × List Output) := do
  if s.connected then return (s, [])
  else
    let (s, prompted) ← sendCommand (markConnected s now addr) CMD_GATEWAYINFO STATION_CHANNEL
    let pinged ← send s.socket addr RequestMessageType.PING (s.lastPongData.getD [])
    return ({ s with heartbeatTimer := true }, prompted ++ pinged ++ [.connect])

/-! ## Acknowledgements -/

/-- The sequence numbers an ACK lists from entry `i` on, as far as the datagram reaches. -/
def ackedSequences (msg : Buffer) : ℕ → ℕ → Except Thrown (List ℕ)
  | 0, _ => .ok []
  | count + 1, i => do
    if 10 + 2 * i ≤ msg.length then
      let sequence ← Buf.readUInt16BEAt msg (8 + 2 * i)
      let rest ← ackedSequences msg count (i + 1)
      return sequence :: rest
    else return []

/-- Drop acknowledged live starts, tracing each one that was outstanding. -/
def acknowledgeLiveStarts : List ℕ → List ℕ → List ℕ × List Output
  | unacked, [] => (unacked, [])
  | unacked, sequence :: rest =>
    if sequence ∈ unacked then
      let r := acknowledgeLiveStarts (unacked.erase sequence) rest
      (r.1, .traceMediaCommandAck :: r.2)
    else acknowledgeLiveStarts unacked rest

def onAck (s : Session) (msg : Buffer) : Except Thrown (Session × List Output) := do
  if msg.length < 8 ∨ msg[4]? ≠ some 0xd1 then return (s, [])
  else
    let count ← Buf.readUInt16BEAt msg 6
    if msg[5]? = some P2PDataType.DATA.code then
      let sequences ← ackedSequences msg count 0
      let r := acknowledgeLiveStarts s.unackedLiveStarts sequences
      return ({ s with
        unackedLiveStarts := r.1
        liveStartRetransmitTimer := s.liveStartRetransmitTimer && !r.1.isEmpty }, r.2)
    else if msg[5]? = some P2PDataType.VIDEO.code then
      let sequences ← ackedSequences msg count 0
      return ({ s with
        unackedAudio := s.unackedAudio.filter fun q => !sequences.contains q
        audioStalled := s.audioStalled && count = 0 }, [])
    else return (s, [])

/-! ## Frames -/

/-- Does an entry of a `params` array name an id and a value? -/
def reportEntry (entry : Json) : Option (ℚ × Json) :=
  match entry.get? "param_type", entry.get? "param_value" with
  | some (.num id), some value => if value.isNull then none else some (id, value)
  | _, _ => none

/-- `out[id] = text`: a repeated id keeps its place. -/
def assignParam (out : List (ℚ × String)) (id : ℚ) (text : String) : List (ℚ × String) :=
  if out.any fun p => p.1 = id then out.map fun p => if p.1 = id then (id, text) else p
  else out ++ [(id, text)]

def collectParams (rt : Runtime) (out : List (ℚ × String)) :
    List Json → Except Thrown (List (ℚ × String))
  | [] => .ok out
  | entry :: rest =>
    match reportEntry entry with
    | none => collectParams rt out rest
    | some (id, value) => do
      let text ← value.display rt.numberToString
      collectParams rt (assignParam out id text) rest

/-- The entries of a payload's `params` array, if it has one. -/
def paramsArray (payload : Option Json) : Option (List Json) :=
  match payload >>= Json.get? "params" with
  | some (.arr list) => some list
  | _ => none

def paramReport (rt : Runtime) (payload : Option Json) :
    Except Thrown (Option (List (ℚ × String))) :=
  match paramsArray payload with
  | none => .ok none
  | some list => do
    let out ← collectParams rt [] list
    return if out.isEmpty then none else some out

def isMedia (header : P2PDataFrameHeader) : Bool :=
  header.commandId = CMD_VIDEO_FRAME || header.commandId = CMD_AUDIO_FRAME

def decryptLevel2 (rt : Runtime) (level2Key : Buffer) (payload : Buffer) (signCode : ℕ) :
    Option Buffer :=
  let ctOffset := if signCode = 8 then 32 else 28
  if payload.length < ctOffset then none
  else rt.decryptGcm level2Key (Buf.subarray payload 16 28) (Buf.subarray payload 0 16)
    (payload.drop ctOffset)

/-- The payload after the decryption its sign code asks for, or as it came. -/
def frameData (rt : Runtime) (level1Key : Buffer) (level2Key : Option Buffer)
    (header : P2PDataFrameHeader) (payload : Buffer) : Buffer :=
  if isMedia header then payload
  else if (header.signCode = 2 ∨ header.signCode = 8) ∧ level2Key.isSome then
    (decryptLevel2 rt (level2Key.getD []) payload header.signCode).getD payload
  else if 0 < header.signCode ∧ 0 < payload.length ∧ payload.length % 16 = 0 then
    (rt.decryptP2PData payload level1Key).getD payload
  else payload

/-- The JSON document a frame's text is, if it is one. -/
def frameJson (rt : Runtime) (data : Buffer) : Option Json :=
  let text := readNullTerminatedString data
  if text.head? = some 0x7b then rt.jsonParse text else none

/-- Where a frame's JSON reports params: below `payload` in a notification, at the root in a
camera's own report, nowhere in any other frame. -/
def reportedPayload (header : P2PDataFrameHeader) (json : Option Json) : Option Json :=
  if header.commandId = CMD_NOTIFY_PAYLOAD then json >>= Json.get? "payload"
  else if header.commandId = CMD_CAMERA_INFO then json
  else none

/-- `"rtsp://"`. -/
def rtspPrefix : Buffer := utf8 "rtsp://"

def dbChunk (rt : Runtime) (level1Key : Buffer) (header : P2PDataFrameHeader)
    (payload : Buffer) : List Output :=
  let n := payload.length - payload.length % 16
  if header.commandId = CMD_DATABASE ∧ 0 < header.signCode ∧ 16 ≤ n then
    match rt.decryptP2PData (payload.take n) level1Key with
    | some text => [.dbChunk text]
    | none => []
  else []

def imageOf (rt : Runtime) (header : P2PDataFrameHeader) (json : Option Json) : List Output :=
  if header.commandId = CMD_DATABASE_IMAGE then
    match json >>= Json.get? "content" with
    | some (.str content) =>
      let file := match json >>= Json.get? "file" with
        | none | some .null => .str ""
        | some file => file
      [.image file (rt.base64 content)]
    | _ => []
  else []

def commandResult (header : P2PDataFrameHeader) (data : Buffer) (json : Option Json) :
    Except Thrown (List Output) := do
  if isMedia header = false ∧ json.isNone ∧ data.length = 4 then
    let code ← Buf.readInt32LE data
    return [.commandResult code header.channel]
  else return []

/-- A gateway reply starts the one-shot key negotiation where one is configured. -/
def negotiate (s : Session) (header : P2PDataFrameHeader) (data : Buffer) :
    Except Thrown (Session × List Output) := do
  if header.commandId = CMD_GATEWAYINFO ∧ header.signCode = 1 ∧ s.level2Key.isNone ∧
      s.level2Negotiating = false ∧ s.cfg.resolveCipherKey = true then
    let cipherId ← gatewayInfoCipherId data
    return ({ s with level2Negotiating := true }, [.negotiateLevel2Key cipherId])
  else return (s, [])

def handleFrame (rt : Runtime) (s : Session) (header : P2PDataFrameHeader) (payload : Buffer)
    (dataType : UInt8) : Except Thrown (Session × List Output) := do
  let data := frameData rt s.level1Key s.level2Key header payload
  let (s, negotiated) ← negotiate s header data
  let chunk := dbChunk rt s.level1Key header payload
  let json := frameJson rt data
  let params ← paramReport rt (reportedPayload header json)
  let text := readNullTerminatedString data
  let rtsp := if header.commandId = CMD_NAS_SWITCH ∧ rtspPrefix.isPrefixOf text
    then [.rtspUrl header.channel text] else []
  let result ← commandResult header data json
  let frame : P2PFrame :=
    { header, stationSn := s.cfg.stationSn, dataType, data, raw := payload, json, params }
  return (s, negotiated ++ chunk ++ rtsp ++ imageOf rt header json ++ result ++ [.data frame])

/-! ## The message callback -/

/-- Make the calls of `onData` in turn. -/
def perform (rt : Runtime) (s : Session) (addr : Address) :
    List InboundEvent → Except Thrown (Session × List Output)
  | [] => .ok (s, [])
  | .ack payload :: rest => do
    let sent ← send s.socket addr RequestMessageType.ACK payload
    let (s, others) ← perform rt s addr rest
    return (s, sent ++ others)
  | .trace phase dataType :: rest => do
    let (s, others) ← perform rt s addr rest
    return (s, .traceInbound phase dataType :: others)
  | .handleFrame header payload dataType :: rest => do
    let (s, handled) ← handleFrame rt s header payload dataType
    let (s, others) ← perform rt s addr rest
    return (s, handled ++ others)

/-- The branches of the message callback. -/
inductive MessageKind
  | localLookupResp
  | lookupAddr
  | camId
  | pong
  | ping
  | ack
  | data
  | unhandled
  deriving DecidableEq, Repr

open ResponseMessageType in
/-- The branch a datagram's first two bytes take it to, tested in the callback's order. -/
def messageKind (msg : Buffer) : MessageKind :=
  if hasHeader msg LOCAL_LOOKUP_RESP then .localLookupResp
  else if hasHeader msg LOOKUP_ADDR || hasHeader msg LOOKUP_ADDR2 then .lookupAddr
  else if hasHeader msg CAM_ID || hasHeader msg TURN_SERVER_CAM_ID then .camId
  else if hasHeader msg PONG then .pong
  else if hasHeader msg PING then .ping
  else if hasHeader msg ACK then .ack
  else if hasHeader msg DATA then .data
  else .unhandled

def onMessage (rt : Runtime) (s : Session) (now : ℕ) (msg : Buffer) (rinfo : Address) :
    Except Thrown (Session × List Output) :=
  match messageKind msg with
  | .localLookupResp => do
    if s.connected then return (s, [])
    else
      let sent ← beginCheckCam s rinfo
      return (s, sent)
  | .lookupAddr => do
    if s.connected then return (s, [])
    else
      let addr ← parseLookupAddr msg
      if addr.host ≠ "0.0.0.0" then
        let sent ← beginCheckCam s addr
        return (s, sent)
      else return (s, [])
  | .camId => onConnected s now rinfo
  | .pong =>
    .ok ({ s with
      lastPongData := if 4 < msg.length then some (msg.drop 4) else none
      lastPongAt := some now
      pathStaleTraced := false }, [])
  | .ping => do
    let sent ← send s.socket rinfo RequestMessageType.PONG []
    return (s, sent)
  | .ack => onAck s msg
  | .data => do
    if s.connected then
      let (inbound, calls) ← onData s.inbound msg
      perform rt { s with inbound } rinfo calls
    else return (s, [])
  | .unhandled => .ok (s, [])

end EufySdk.P2PSession
