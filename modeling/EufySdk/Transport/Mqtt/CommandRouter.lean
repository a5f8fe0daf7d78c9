import Mathlib.Tactic
import EufySdk.Core.Json
import EufySdk.Core.Scalar
import EufySdk.Lib.Machine
import EufySdk.Transport.Ff09Commands

/-!
# One command over a connection of its own

The `ff09` commands of `transport/mqtt/command-router.ts`: a lock or unlock, an auto-lock write and
an auto-lock read. Each looks for the broker instance that holds the device's session, by connecting
to one candidate after the other and subscribing (`transport/mqtt/broker-discovery.ts`), opens a
connection to that instance (`transport/mqtt/secure-mqtt.ts`), and ends it when it is done.

- `probe`, `finishDiscovery`, `finishProbe` — the discovery
- `subscribed`, `onMessage`, `proceed` — the exchange with the lock
- `step` — what the broker, the lock and the clock do, in any order
-/

namespace EufySdk.Mqtt

open Ff09 Machine

/-- What a topic is made of. -/
structure TopicDevice where
  sn : String
  model : String
  category : String
  deviceClass : String
  deriving DecidableEq, Repr

def topicPrefix (device : TopicDevice) : String :=
  if device.deviceClass = "vacuum" ∨ device.deviceClass = "mower" then "eufy_home"
  else device.category

inductive Leg
  | req
  | res
  deriving DecidableEq, Repr

def Leg.word : Leg → String
  | req => "req"
  | res => "res"

def secureTopic (device : TopicDevice) (leg : Leg) : String :=
  "cmd/" ++ topicPrefix device ++ "/" ++ device.model ++ "/" ++ device.sn ++ "/" ++ leg.word

def subscribeTopics (device : TopicDevice) : List String :=
  if device.category = "eufy_life" then
    let base := "eufy_life/" ++ device.model ++ "/" ++ device.sn
    ["cmd/" ++ base ++ "/app/res", "cmd/" ++ base ++ "/res", "synq/" ++ base ++ "/state_info",
      "cmd/" ++ base ++ "/app/ota/res"]
  else if device.deviceClass = "vacuum" ∨ device.deviceClass = "mower" then
    let base := "eufy_home/" ++ device.model ++ "/" ++ device.sn
    ["cmd/" ++ base ++ "/res", "biz/" ++ base ++ "/res", "biz/" ++ base ++ "/req",
      "dt/" ++ base ++ "/param_info"]
  else [secureTopic device .res]

/-- The topic that commands are published to, whatever the device's category. -/
def ff09MqttTopic (pn sn : String) : String := "cmd/eufy_security/" ++ pn ++ "/" ++ sn ++ "/req"

/-! ## Replies -/

/-- `parseInt(text, 16)`. -/
def parseInt16 (text : String) : Option ℤ :=
  let chars := text.toList.dropWhile isSpace
  let (negative, chars) :=
    match chars with
    | '-' :: rest => (true, rest)
    | '+' :: rest => (false, rest)
    | _ => (false, chars)
  let chars :=
    match chars with
    | '0' :: 'x' :: rest => rest
    | '0' :: 'X' :: rest => rest
    | _ => chars
  match (chars.map Hex.value?).takeWhile Option.isSome with
  | [] => none
  | digits =>
    let n : ℤ := digits.foldl (fun n digit => 16 * n + digit.getD 0) 0
    some (if negative then -n else n)

/-- The time of a reply: a number as it is, a text by its hexadecimal digits. -/
def ff09ReplyKeyTime : Json → Option ℤ
  | .num n => some ((if 0 ≤ n then ⌊n⌋ else ⌈n⌉) % 2 ^ 32)
  | .str text => parseInt16 text
  | _ => none

structure Ff09SettingsResponseTrans where
  cmd : ℚ
  lockPayload : String
  time : Json

/-- What the standard library makes of a text: `JSON.parse`, and base64 read as UTF-8. -/
structure Texts where
  jsonParse : String → Option Json
  base64 : String → String

/-- A reply to a settings GET, two texts deep in a message. -/
def parseFf09SettingsResponseTrans (texts : Texts) (raw : Json) :
    Option Ff09SettingsResponseTrans :=
  match raw.get? "payload" with
  | some (.str payload) =>
    match (texts.jsonParse payload).bind (Json.get? "trans") with
    | some (.str transB64) => do
      let inner ← texts.jsonParse (texts.base64 transB64)
      let body ← inner.get? "payload"
      match inner.get? "cmd", body.get? "dev_sn", body.get? "lock_payload", body.get? "time" with
      | some (.num cmd), some (.str _), some (.str lockPayload), some (.str time) =>
        some ⟨cmd, lockPayload, .str time⟩
      | some (.num cmd), some (.str _), some (.str lockPayload), some (.num time) =>
        some ⟨cmd, lockPayload, .num time⟩
      | _, _, _, _ => none
    | _ => none
  | _ => none

def CMD_TRANSFER_PAYLOAD : ℚ := 1940

/-- A settings reply, by what a SET is built from. -/
structure GetReply where
  lockPayload : List Char
  keyTime : ℕ
  deriving DecidableEq, Repr

/-- The reply to a GET of a time, among the messages of a connection. -/
def matchGetReply (texts : Texts) (time : ℕ) (raw : Json) : Option GetReply :=
  match parseFf09SettingsResponseTrans texts raw with
  | none => none
  | some reply =>
    if reply.cmd = CMD_TRANSFER_PAYLOAD ∧ ff09ReplyKeyTime reply.time = some (time : ℤ) then
      some ⟨reply.lockPayload.toList, time⟩
    else none

/-- What counts for a delivery ack: any message on the device's own reply topic. -/
def matchAck (sn topic : String) : Bool := topic.endsWith ("/" ++ sn ++ "/res")

/-! ## A command -/

inductive Job
  | actuate (engage : Bool) (username : Units) (shortUserId : List Char)
  | autolock (enabled : Bool) (delaySeconds : Option ℕ)
  | getAutoLockState

/-- A command, and what the standard library is. -/
structure Call where
  cipher : Cipher
  texts : Texts
  sn : String
  adminUserId : Units
  deviceSn : Units
  job : Job

/-- When a frame is built, and its nonce. -/
structure Clock where
  unixTime : ℕ
  nonce : ℕ

def Call.build (call : Call) (cmd : LockCommand) (clock : Clock) :
    Except Ff09BuildError Ff09Frame :=
  cmd.build call.cipher call.adminUserId call.deviceSn clock.unixTime clock.nonce

/-- The settings that a reply reports. -/
def Call.readSnapshot (call : Call) (reply : GetReply) : Except Ff09Error AutoLockSnapshot := do
  let plain ←
    decryptFf09Frame call.cipher reply.lockPayload reply.keyTime call.adminUserId call.deviceSn
  let parsed ← parseFf09SettingsResponse plain
  decodeFf09AutoLockSnapshot parsed

/-- A settings write, built from a reply. -/
def Call.buildSet (call : Call) (enabled : Bool) (delaySeconds : Option ℕ) (reply : GetReply)
    (clock : Clock) : Except Ff09Error Ff09Frame :=
  buildFf09AutolockSetFrame call.cipher
    { lockPayload := reply.lockPayload, keyTime := reply.keyTime, adminUserId := call.adminUserId
      deviceSn := call.deviceSn, enabled, delaySeconds } clock.unixTime clock.nonce

inductive CommandError
  | deviceNotFound
  | noModel
  | build (e : Ff09BuildError)
  | credentials
  /-- No instance granted the SUBSCRIBE, of so many. -/
  | noInstance (probed : ℕ)
  | connect
  | subscribe
  | denied (topics : List String)
  | publish
  | noReply
  | frame (e : Ff09Error)

inductive Outcome
  | resolved
  | state (snapshot : AutoLockSnapshot)
  | rejected (e : CommandError)

structure ProbeResult where
  ip : String
  granted : Bool
  deriving DecidableEq, Repr

/-- An mqtt.js client: the instance it is pinned to, what it subscribed to and was granted. -/
structure Client where
  ip : String
  topics : List String := []
  grants : List ℕ := []
  ended : Bool := false
  deriving DecidableEq, Repr

structure Publication where
  client : ℕ
  topic : String
  frame : Ff09Frame
  deriving DecidableEq, Repr

inductive Exchange
  | actuate
  | get
  | set
  deriving DecidableEq, Repr

/-- What a listener has come to. -/
inductive Wait
  | listening
  | heard (reply : Option GetReply)
  | timedOut
  deriving DecidableEq, Repr

/-- Where a command waits. -/
inductive Phase
  | device
  | credentials
  | resolving
  | probing (client : ℕ) (subscribed : Bool) (rest : List String)
  | connecting (client : ℕ)
  | subscribing (client : ℕ)
  | exchange (client : ℕ) (x : Exchange) (published : Bool) (wait : Wait)
  | disconnecting (client : ℕ) (outcome : Outcome)
  | settled (outcome : Outcome)

/-- A command under way. `acks` are the deliveries that were reported, acknowledged or not. -/
structure OneShot where
  phase : Phase := .device
  device : TopicDevice := ⟨"", "", "", ""⟩
  trans : Option Ff09Frame := none
  candidates : List String := []
  results : List ProbeResult := []
  clients : List Client := []
  published : List Publication := []
  acks : List Bool := []

inductive Event
  | device (found : Option TopicDevice) (clock : Clock)
  | credentials (granted : Bool)
  | resolved (dnsIps : List String)
  | connected (client : ℕ)
  /-- The grants of a SUBSCRIBE, or none where it failed. -/
  | suback (client : ℕ) (grants : Option (List ℕ)) (clock : Clock)
  | failed (client : ℕ)
  | timeout (client : ℕ)
  | puback (client : ℕ) (delivered : Bool)
  | message (client : ℕ) (topic : String) (raw : Json)
  | proceed (clock : Clock)
  | ended

def KNOWN_AIOT_BROKER_IPS : List String :=
  ["3.139.229.186", "18.224.90.2", "3.138.226.206", "3.138.64.16", "3.139.229.1", "3.147.137.189",
    "52.39.57.62", "52.42.98.25"]

def mergeCandidateIps (dnsIps extraIps : List String) : List String :=
  (dnsIps ++ extraIps).eraseDups

/-- The instances that granted first, otherwise in order. -/
def rankResults (results : List ProbeResult) : List ProbeResult :=
  results.insertionSort fun a b => a.granted ∨ ¬b.granted

def SUBACK_FAILURE : ℕ := 128

namespace OneShot

variable (call : Call) (s : OneShot)

def settle (outcome : Outcome) : OneShot := { s with phase := .settled outcome }

def reject (e : CommandError) : OneShot := s.settle (.rejected e)

def openClient (ip : String) : OneShot := { s with clients := s.clients ++ [{ ip }] }

def endClient (client : ℕ) : OneShot :=
  { s with clients := s.clients.modify client fun c => { c with ended := true } }

def subscribe (client : ℕ) (topics : List String) : OneShot :=
  { s with clients := s.clients.modify client fun c => { c with topics } }

def grant (client : ℕ) (grants : List ℕ) : OneShot :=
  { s with clients := s.clients.modify client fun c => { c with grants } }

/-- `finally`: the connection is ended, with what the command has come to. -/
def disconnect (client : ℕ) (outcome : Outcome) : OneShot :=
  { s.endClient client with phase := .disconnecting client outcome }

/-- The probes are over: the command connects to the best instance if that granted. -/
def finishDiscovery : OneShot :=
  match (rankResults s.results).find? ProbeResult.granted with
  | none => s.reject (.noInstance s.results.length)
  | some winner => { s.openClient winner.ip with phase := .connecting s.clients.length }

/-- The next candidate is probed. -/
def probe : List String → OneShot
  | [] => s.finishDiscovery
  | ip :: rest => { s.openClient ip with phase := .probing s.clients.length false rest }

/-- A probe is over, with its client ended; the first that is granted is the last one. -/
def finishProbe (client : ℕ) (rest : List String) (granted : Bool) : OneShot :=
  let ip := ((s.clients[client]?).map Client.ip).getD ""
  let t := { s.endClient client with results := s.results ++ [ProbeResult.mk ip granted] }
  if granted then t.finishDiscovery else t.probe rest

/-- The SUBSCRIBE of a probe is answered. -/
def onProbed (client : ℕ) (rest : List String) (grants : Option (List ℕ)) : OneShot :=
  match grants with
  | none => s.finishProbe client rest false
  | some grants =>
    (s.grant client grants).finishProbe client rest (grants.head?.any (· ≠ SUBACK_FAILURE))

/-- A frame is published, behind a listener for what answers it. -/
def exchange (client : ℕ) (x : Exchange) (frame : Ff09Frame) : OneShot :=
  { s with
    phase := .exchange client x false .listening
    published :=
      s.published ++ [{ client, topic := ff09MqttTopic s.device.model call.sn, frame }] }

/-- The device's topics are granted. -/
def subscribed (client : ℕ) (clock : Clock) : OneShot :=
  match call.job with
  | .actuate _ _ _ =>
    match s.trans with
    | some trans => s.exchange call client .actuate trans
    | none => s
  | _ =>
    match call.build .getSettings clock with
    | .error e => s.disconnect client (.rejected (.build e))
    | .ok query => s.exchange call client .get query

/-- The GET that was published, by its time. -/
def queryTime : ℕ := ((s.published.getLast?).map fun p => p.frame.time).getD 0

def hear (client : ℕ) (x : Exchange) (published : Bool) (reply : Option GetReply) : OneShot :=
  { s with phase := .exchange client x published (.heard reply) }

def onMessage (client : ℕ) (x : Exchange) (published : Bool) (topic : String) (raw : Json) :
    OneShot :=
  match x with
  | .get =>
    match matchGetReply call.texts s.queryTime raw with
    | none => s
    | some reply => s.hear client x published (some reply)
  | _ => if matchAck call.sn topic then s.hear client x published none else s

/-- What is done with a settings reply. -/
def onReply (client : ℕ) (reply : GetReply) (clock : Clock) : OneShot :=
  match call.job with
  | .autolock enabled delaySeconds =>
    match call.buildSet enabled delaySeconds reply clock with
    | .error e => s.disconnect client (.rejected (.frame e))
    | .ok frame => s.exchange call client .set frame
  | _ =>
    match call.readSnapshot reply with
    | .error e => s.disconnect client (.rejected (.frame e))
    | .ok snapshot => s.disconnect client (.state snapshot)

def acked (wait : Wait) : OneShot := { s with acks := s.acks ++ [decide (wait ≠ .timedOut)] }

/-- What was published has been accepted, and the listener has come to something. -/
def proceed (client : ℕ) (x : Exchange) (wait : Wait) (clock : Clock) : OneShot :=
  match x, wait with
  | .get, .heard (some reply) => s.onReply call client reply clock
  | .get, _ => s.disconnect client (.rejected .noReply)
  | _, _ => (s.acked wait).disconnect client .resolved

/-- The device is looked up, and a lock or unlock is built before anything is connected. -/
def onDevice (found : Option TopicDevice) (clock : Clock) : OneShot :=
  match found with
  | none => s.reject .deviceNotFound
  | some device =>
    if device.model = "" then s.reject .noModel
    else
      match call.job with
      | .actuate engage username shortUserId =>
        match call.build (.onOff engage (some (username, shortUserId))) clock with
        | .error e => s.reject (.build e)
        | .ok trans => { s with phase := .credentials, device, trans := some trans }
      | _ => { s with phase := .credentials, device }

/-- The SUBSCRIBE of a command is answered: it goes on unless every topic is denied. -/
def onSubscribed (client : ℕ) (grants : Option (List ℕ)) (clock : Clock) : OneShot :=
  match grants with
  | none => s.disconnect client (.rejected .subscribe)
  | some grants =>
    let denied := grants.filter (· = SUBACK_FAILURE)
    if denied.length = (subscribeTopics s.device).length then
      (s.grant client grants).disconnect client (.rejected (.denied (subscribeTopics s.device)))
    else (s.grant client grants).subscribed call client clock

def step : Event → Option OneShot
  | .device found clock =>
    match s.phase with
    | .device => some (s.onDevice call found clock)
    | _ => none
  | .credentials granted =>
    match s.phase with
    | .credentials =>
      some (if granted then { s with phase := .resolving } else s.reject .credentials)
    | _ => none
  | .resolved dnsIps =>
    match s.phase with
    | .resolving =>
      let candidates := mergeCandidateIps dnsIps KNOWN_AIOT_BROKER_IPS
      some ({ s with candidates : OneShot }.probe candidates)
    | _ => none
  | .connected client =>
    match s.phase with
    | .probing c _ rest =>
      if c = client then
        some
          { s.subscribe client [secureTopic s.device .res] with
            phase := .probing client true rest }
      else some s
    | .connecting c =>
      if c = client then
        some { s.subscribe client (subscribeTopics s.device) with phase := .subscribing client }
      else some s
    | _ => some s
  | .suback client grants clock =>
    match s.phase with
    | .probing c subscribed rest =>
      if c = client then
        if subscribed then some (s.onProbed client rest grants) else none
      else some s
    | .subscribing c =>
      if c = client then some (s.onSubscribed call client grants clock) else some s
    | _ => some s
  | .failed client =>
    match s.phase with
    | .probing c _ rest => if c = client then some (s.finishProbe client rest false) else some s
    | .connecting c =>
      if c = client then some ((s.endClient client).reject .connect) else some s
    | _ => some s
  | .timeout client =>
    match s.phase with
    | .probing c _ rest => if c = client then some (s.finishProbe client rest false) else some s
    | .exchange c x published .listening =>
      if c = client then some { s with phase := .exchange c x published .timedOut } else some s
    | _ => some s
  | .puback client delivered =>
    match s.phase with
    | .exchange c x _ wait =>
      if c = client then
        some
          (if delivered then { s with phase := .exchange c x true wait }
          else s.disconnect client (.rejected .publish))
      else some s
    | _ => some s
  | .message client topic raw =>
    match s.phase with
    | .exchange c x published .listening =>
      if c = client then some (s.onMessage call client x published topic raw) else some s
    | _ => some s
  | .proceed clock =>
    match s.phase with
    | .exchange _ _ _ .listening => none
    | .exchange c x true wait => some (s.proceed call c x wait clock)
    | _ => none
  | .ended =>
    match s.phase with
    | .disconnecting _ outcome => some (s.settle outcome)
    | _ => none

end OneShot

end EufySdk.Mqtt
