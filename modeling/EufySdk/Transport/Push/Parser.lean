import Mathlib.Tactic
import EufySdk.Lib.Bytes

/-!
# The MCS stream parser

`transport/push/parser.ts`: the push connection is a version byte and then messages, each a tag
byte, its size as a varint and its bytes. Chunks of the stream arrive cut anywhere; the parser
keeps what it has not used and enters its states again whenever there is enough of it.

The varint reader and the decoder of typed messages are protobufjs, which the parser is given. A
call of `waitForData` comes back in its own turn or enters the parser again as its last act; the
model takes these turns one at a time, however deep the calls are nested.

- `Protobuf` — what the parser asks of protobufjs
- `McsParser` — the fields of the parser
- `McsParser.turn` — one call of `waitForData`, up to the call it ends with
- `McsParser.handleData`, `McsParser.feed` — a chunk, and chunk after chunk
-/

namespace EufySdk

open Bytes

/-- `subarray` reads a negative bound from the end, and a large one as the end. -/
def bound (length : ℕ) (i : ℤ) : ℕ := if i < 0 then (length + i).toNat else min i.toNat length

def subarray (b : Buffer) (start stop : ℤ) : Buffer :=
  (b.take (bound b.length stop)).drop (bound b.length start)

/-- The bytes from `start` to the end. -/
def subarrayFrom (b : Buffer) (start : ℤ) : Buffer := b.drop (bound b.length start)

/-- A byte as `readInt8` reads it. -/
def int8 (b : UInt8) : ℤ := if b.toNat < 128 then b.toNat else b.toNat - 256

/-- How `int32` of a reader ends, with the position it leaves the reader at. -/
inductive SizeRead
  | value (size : ℤ) (pos : ℕ)
  /-- It throws "index out of range". -/
  | outOfRange (pos : ℕ)
  /-- It throws another error. -/
  | threw
  deriving DecidableEq, Repr

/-- What the parser uses of protobufjs. -/
structure Protobuf (Object : Type) where
  /-- `int32` of a new reader over the bytes. -/
  int32 : Buffer → SizeRead
  /-- `decode` and `toObject` of a type; nothing where they throw. -/
  decode : String → Buffer → Option Object

namespace McsParser

inductive State
  | VERSION_TAG_AND_SIZE
  | TAG_AND_SIZE
  | SIZE
  | PROTO_BYTES
  deriving DecidableEq, Repr

/-- The type of the messages under a tag. -/
def TAG_TO_TYPE (tag : ℤ) : Option String :=
  if tag = 0 then some "mcs_proto.HeartbeatPing"
  else if tag = 1 then some "mcs_proto.HeartbeatAck"
  else if tag = 2 then some "mcs_proto.LoginRequest"
  else if tag = 3 then some "mcs_proto.LoginResponse"
  else if tag = 4 then some "mcs_proto.Close"
  else if tag = 7 then some "mcs_proto.IqStanza"
  else if tag = 8 then some "mcs_proto.DataMessageStanza"
  else if tag = 10 then some "mcs_proto.StreamErrorStanza"
  else none

/-- A message as it is emitted; without an object of a type its object is `{}`. -/
structure McsMessage (Object : Type) where
  tag : ℤ
  object : Option Object
  deriving DecidableEq, Repr

end McsParser

structure McsParser where
  data : Buffer := []
  state : McsParser.State := .VERSION_TAG_AND_SIZE
  messageTag : ℤ := 0
  messageSize : ℤ := 0
  sizePacketSoFar : ℕ := 0
  deriving DecidableEq, Repr

namespace McsParser

variable {Object : Type} (pb : Protobuf Object)

/-- How a call of `waitForData` goes on. -/
inductive Next
  | returns
  /-- It calls `waitForData` again. -/
  | enters
  | throws
  deriving DecidableEq, Repr

/-- A call of `waitForData` up to the call it ends with. -/
structure Turn (Object : Type) where
  parser : McsParser
  emitted : List (McsMessage Object)
  next : Next
  deriving DecidableEq, Repr

def minBytesNeeded (p : McsParser) : ℤ :=
  match p.state with
  | .VERSION_TAG_AND_SIZE => 1 + 1 + 1
  | .TAG_AND_SIZE => 1 + 1
  | .SIZE => p.sizePacketSoFar + 1
  | .PROTO_BYTES => p.messageSize

/-- The message goes out, and the parser enters its state for the next one. -/
def emitMessage (p : McsParser) (object : Option Object) : Turn Object where
  parser := { p with state := .TAG_AND_SIZE }
  emitted := [{ tag := p.messageTag, object }]
  next := .enters

def onBytes (p : McsParser) : Turn Object :=
  if p.messageSize = 0 then p.emitMessage none
  else if (p.data.length : ℤ) < p.messageSize then
    { parser := { p with state := .PROTO_BYTES }, emitted := [], next := .returns }
  else
    let buf := subarray p.data 0 p.messageSize
    let p := { p with data := subarrayFrom p.data p.messageSize }
    match TAG_TO_TYPE p.messageTag with
    | none => p.emitMessage none
    | some typeName =>
      match pb.decode typeName buf with
      | some object => p.emitMessage (some object)
      | none => { parser := p, emitted := [], next := .throws }

def onSize (p : McsParser) : Turn Object :=
  match pb.int32 p.data with
  | .threw => { parser := p, emitted := [], next := .throws }
  | .outOfRange pos =>
    { parser := { p with sizePacketSoFar := pos, state := .SIZE }, emitted := [], next := .enters }
  | .value size pos =>
    let p := { p with
      messageSize := size, data := subarrayFrom p.data pos, sizePacketSoFar := 0 }
    if 0 < size then { parser := { p with state := .PROTO_BYTES }, emitted := [], next := .enters }
    else p.onBytes pb

def onTag (p : McsParser) : Turn Object :=
  match p.data with
  | [] => { parser := p, emitted := [], next := .throws }
  | tag :: rest => { p with messageTag := int8 tag, data := rest }.onSize pb

def onVersion (p : McsParser) : Turn Object :=
  match p.data with
  | [] => { parser := p, emitted := [], next := .throws }
  | version :: rest =>
    if int8 version < 38 then
      { parser := { p with data := rest }, emitted := [], next := .throws }
    else { p with data := rest }.onTag pb

/-- One call of `waitForData`, up to the call of itself that it ends with. -/
def turn (p : McsParser) : Turn Object :=
  if (p.data.length : ℤ) < p.minBytesNeeded then { parser := p, emitted := [], next := .returns }
  else
    match p.state with
    | .VERSION_TAG_AND_SIZE => p.onVersion pb
    | .TAG_AND_SIZE => p.onTag pb
    | .SIZE => p.onSize pb
    | .PROTO_BYTES => p.onBytes pb

/-- What bytes have done to a parser. -/
structure Fed (Object : Type) where
  parser : McsParser
  emitted : List (McsMessage Object)
  /-- Whether an error was thrown to the caller. -/
  threw : Bool
  deriving DecidableEq, Repr

/-- `waitForData` with all the calls it leads to; nothing where there are more of them than the
first argument says. -/
def waitForData : ℕ → McsParser → Option (Fed Object)
  | 0, _ => none
  | calls + 1, p =>
    let r := p.turn pb
    match r.next with
    | .returns => some { parser := r.parser, emitted := r.emitted, threw := false }
    | .throws => some { parser := r.parser, emitted := r.emitted, threw := true }
    | .enters =>
      (waitForData calls r.parser).map fun fed => { fed with emitted := r.emitted ++ fed.emitted }

/-- Feed a chunk; nothing where `waitForData` has not come back after more calls than the bytes at
hand can ask for. -/
def handleData (p : McsParser) (chunk : Buffer) : Option (Fed Object) :=
  waitForData pb (2 * (p.data.length + chunk.length) + 2) { p with data := p.data ++ chunk }

/-- Feed chunk after chunk. -/
def feed (p : McsParser) : List Buffer → Option (Fed Object)
  | [] => some { parser := p, emitted := [], threw := false }
  | chunk :: chunks =>
    (p.handleData pb chunk).bind fun fed =>
      (feed fed.parser chunks).map fun rest =>
        { rest with emitted := fed.emitted ++ rest.emitted, threw := fed.threw || rest.threw }

end McsParser

end EufySdk
