import Mathlib.Tactic
import EufySdk.Core.Thrown

/-!
# P2P low-level primitives

The byte layouts of `transport/p2p/codec.ts`: UDP packets `[msgType:2][len:2 BE][payload]`,
the 16-byte header of a data frame behind the magic word `XZYH`, and the command
bodies the client builds.

AES-128-ECB is Node's: the builders take the cipher as an argument.
-/

namespace EufySdk.Codec

open Bytes

/-- A UDP endpoint. -/
structure Address where
  host : String
  port : ℕ
  deriving DecidableEq, Repr

/-- The bytes of `MAGIC_WORD = "XZYH"`. -/
def MAGIC_WORD : Buffer := [0x58, 0x5a, 0x59, 0x48]

namespace RequestMessageType
def CHECK_CAM : Buffer := [0xf1, 0x41]
def PING : Buffer := [0xf1, 0xe0]
def PONG : Buffer := [0xf1, 0xe1]
def DATA : Buffer := [0xf1, 0xd0]
def ACK : Buffer := [0xf1, 0xd1]
end RequestMessageType

namespace ResponseMessageType
def LOCAL_LOOKUP_RESP : Buffer := [0xf1, 0x41]
def LOOKUP_ADDR : Buffer := [0xf1, 0x40]
def LOOKUP_ADDR2 : Buffer := [0xf1, 0x82]
def CAM_ID : Buffer := [0xf1, 0x42]
def TURN_SERVER_CAM_ID : Buffer := [0xf1, 0x84]
def PING : Buffer := [0xf1, 0xe0]
def PONG : Buffer := [0xf1, 0xe1]
def DATA : Buffer := [0xf1, 0xd0]
def ACK : Buffer := [0xf1, 0xd1]
end ResponseMessageType

/-- P2P data-channel types, the second byte of the data-type header. -/
inductive P2PDataType
  | DATA
  | VIDEO
  | CONTROL
  | BINARY
  deriving DecidableEq, Repr

/-- The channel's number on the wire. -/
def P2PDataType.code : P2PDataType → UInt8
  | .DATA => 0
  | .VIDEO => 1
  | .CONTROL => 2
  | .BINARY => 3

theorem P2PDataType.code_injective {a b : P2PDataType} (h : a.code = b.code) : a = b := by
  cases a <;> cases b <;> first | rfl | cases h

/-- `P2PDataTypeHeader`: the two bytes that name a channel. -/
def P2PDataTypeHeader (t : P2PDataType) : Buffer := [0xd1, t.code]

/-- The fixed-width header of every P2P data frame. -/
def P2P_DATA_HEADER_BYTES : ℕ := 16

structure P2PDataFrameHeader where
  commandId : ℕ
  bytesToRead : ℕ
  channel : ℕ
  signCode : ℕ
  type : ℕ
  deriving DecidableEq, Repr

/-- Frame a UDP packet. -/
def frameMessage (msgType payload : Buffer) : Except Thrown Buffer := do
  let len ← Buf.writeUInt16BE payload.length
  return msgType ++ len ++ payload

/-- Does the message begin with the given two-byte type? -/
def hasHeader (msg type : Buffer) : Bool :=
  decide (2 ≤ msg.length) && decide (msg[0]? = type[0]?) && decide (msg[1]? = type[1]?)

/-- The least multiple of `chunk` that holds `n` bytes, at least one chunk. -/
def chunkedSize (n chunk : ℕ) : ℕ :=
  if n < chunk then chunk else (n + chunk - 1) / chunk * chunk

/-- Zero-fill a buffer up to a whole number of chunks. -/
def zeroFill (b : Buffer) (chunk : ℕ) : Buffer :=
  b ++ List.replicate (chunkedSize b.length chunk - b.length) 0

/-- The UTF-8 bytes of a string. A lone surrogate of a JavaScript string encodes as
U+FFFD, so every JavaScript string encodes like a string of Unicode scalars. -/
def utf8 (s : String) : Buffer := s.toList.flatMap String.utf8EncodeChar

/-- Pad a string into a fixed-width zero-filled buffer. -/
def stringWithLength (input : String) (chunkLength : ℕ) : Buffer :=
  zeroFill (utf8 input) chunkLength

/-- Zero-pad to a multiple of the block size. -/
def paddingP2PData (data : Buffer) (blocksize : ℕ) : Buffer := zeroFill data blocksize

/-- The white space `Number.parseInt` skips. -/
def isWhiteSpace (c : Char) : Bool :=
  [0x9, 0xa, 0xb, 0xc, 0xd, 0x20, 0xa0, 0x1680, 0x2028, 0x2029, 0x202f, 0x205f, 0x3000,
    0xfeff].contains c.toNat || (0x2000 ≤ c.toNat && c.toNat ≤ 0x200a)

/-- `Number.parseInt(text, 10)`, `none` for `NaN`. -/
def parseInt (text : List Char) : Option ℤ :=
  let body := text.dropWhile isWhiteSpace
  let digitsOf := List.takeWhile Char.isDigit
  let value (digits : List Char) : Option ℤ :=
    if digits = [] then none
    else some (digits.foldl (fun n c => 10 * n + ((c.toNat : ℤ) - '0'.toNat)) 0)
  match body with
  | '-' :: rest => (value (digitsOf rest)).map (-·)
  | '+' :: rest => value (digitsOf rest)
  | rest => value (digitsOf rest)

/-- `p2pDid.split("-")`. -/
def didParts (p2pDid : String) : List (List Char) := p2pDid.toList.splitOn '-'

/-- `EUPRCAM-000000-XXXXX` as the 20 bytes of a lookup or check payload. -/
def p2pDidToBuffer (p2pDid : String) : Except Thrown Buffer := do
  let a := didParts p2pDid
  let b1 := stringWithLength (String.ofList (a.headD [])) 8
  let b2 ← Buf.writeUInt32BE (a[1]? >>= parseInt)
  match a[2]? with
  | none => .error .typeError
  | some suffix =>
    let b3 := stringWithLength (String.ofList suffix) 8
    return (b1 ++ b2 ++ b3).take 20

/-- CHECK_CAM hole-punch payload: `[p2pDid:20][0x000000]`. -/
def buildCheckCamPayload (p2pDid : String) : Except Thrown Buffer := do
  let did ← p2pDidToBuffer p2pDid
  return did ++ [0, 0, 0]

/-- A DID the lookup and check payloads can be built from: three parts, the middle one not
a number beyond 32 bits. -/
def DidEncodes (p2pDid : String) : Prop :=
  2 < (didParts p2pDid).length ∧
    ∀ v, (didParts p2pDid)[1]? >>= parseInt = some v → 0 ≤ v ∧ v < 4294967296

/-- 10-byte empty command body for a channel. -/
def buildVoidCommandPayload (channel : ℤ) : Buffer :=
  [0x00, 0x00] ++ [0x00, 0x00] ++ [0x01, 0x00] ++ [Buf.byte channel, 0x00] ++ [0x00, 0x00]

/-- `[dataTypeHeader:2][seq:2 BE]["XZYH"][cmd:2 LE]`. -/
def buildCommandHeader (seqNumber commandType : ℕ) (dataTypeHeader : Buffer) :
    Except Thrown Buffer := do
  let seq ← Buf.writeUInt16BE seqNumber
  let cmd ← Buf.writeUInt16LE commandType
  return dataTypeHeader ++ seq ++ MAGIC_WORD ++ cmd

/-- A command body around given data with an explicit sign code:
`len(u16) ‖ 0000 ‖ magic ‖ [channel, signCode] ‖ [streamId, 00] ‖ data`. -/
def buildRawCommandPayload (data : Buffer) (channel signCode : ℤ) (magic : ℤ × ℤ)
    (streamId : ℤ) : Except Thrown Buffer := do
  let header ← Buf.writeUInt16LE data.length
  return header ++ [0x00, 0x00] ++ [Buf.byte magic.1, Buf.byte magic.2]
    ++ [Buf.byte channel, Buf.byte signCode] ++ [Buf.byte streamId, 0x00] ++ data

section Cipher

-- AES-128-ECB encryption without padding, of the data under the key.
variable (encryptP2PData : Buffer → Buffer → Buffer)

/-- `!!key && key.length === 16`. -/
def isLevel1Key (key : Option Buffer) : Bool :=
  match key with
  | some k => decide (k.length = 16)
  | none => false

/-- Encrypt with a level-1 key when there is one. -/
def encryptIfKeyed (data : Buffer) (key : Option Buffer) : Buffer :=
  match key with
  | some k => if k.length = 16 then encryptP2PData (paddingP2PData data 16) k else data
  | none => data

/-- A command body carrying a string value. -/
def buildStringCommandPayload (value : String) (channel : ℤ) (key : Option Buffer)
    (encType : ℤ) : Except Thrown Buffer := do
  let data := encryptIfKeyed encryptP2PData (utf8 value) key
  let header ← Buf.writeUInt16LE data.length
  return header ++ [0x00, 0x00] ++ [0x01, 0x00]
    ++ [Buf.byte channel, if isLevel1Key key then Buf.byte encType else 0x00]
    ++ [0x00, 0x00] ++ data

/-- The clear body of an int+string command: `valueSub(u32 LE) ‖ value(u32 LE) ‖ strValue`. -/
def intStringBody (value valueSub : ℤ) (strValue : String) : Buffer :=
  uint32LE (valueSub % 4294967296).toNat ++ uint32LE (value % 4294967296).toNat
    ++ (if strValue.length = 0 then [] else stringWithLength strValue 128)

/-- A command body carrying two integers and a string. -/
def buildIntStringCommandPayload (value valueSub : ℤ) (strValue : String) (channel : ℤ)
    (key : Option Buffer) (encType : ℤ) : Except Thrown Buffer := do
  let data := encryptIfKeyed encryptP2PData (intStringBody value valueSub strValue) key
  let header ← Buf.writeUInt16LE data.length
  return header ++ [0x00, 0x00] ++ [0x01, 0x00]
    ++ [Buf.byte channel, if isLevel1Key key then Buf.byte encType else 0x00]
    ++ [0x00, 0x00] ++ data

end Cipher

/-- ACK payload for a received DATA frame: `[dataTypeHeader:2][count:2 BE][seqNo:2 BE]`. -/
def buildAckPayload (dataTypeHeader : Buffer) (seqNo : ℕ) : Except Thrown Buffer := do
  let count ← Buf.writeUInt16BE 1
  let seq ← Buf.writeUInt16BE seqNo
  return dataTypeHeader ++ count ++ seq

/-- Parse the 16-byte data-frame header that begins with the magic word. -/
def parseDataFrameHeader (frame : Buffer) : Except Thrown P2PDataFrameHeader := do
  let commandId ← Buf.readUIntLE (Buf.subarray frame 4 6) 2
  let bytesToRead ← Buf.readUIntLE (Buf.subarray frame 6 10) 4
  let channel ← Buf.readUInt8 frame 12
  let signCode ← Buf.readUInt8 frame 13
  let type ← Buf.readUInt8 frame 14
  return { commandId, bytesToRead, channel, signCode, type }

/-- The header fields of a frame that has all sixteen header bytes. -/
def headerFields (frame : Buffer) (h : P2P_DATA_HEADER_BYTES ≤ frame.length) :
    P2PDataFrameHeader where
  commandId := Bytes.readUIntLE (Buf.subarray frame 4 6)
  bytesToRead := Bytes.readUIntLE (Buf.subarray frame 6 10)
  channel := (frame.get ⟨12, Nat.lt_of_lt_of_le (by decide) h⟩).toNat
  signCode := (frame.get ⟨13, Nat.lt_of_lt_of_le (by decide) h⟩).toNat
  type := (frame.get ⟨14, Nat.lt_of_lt_of_le (by decide) h⟩).toNat

/-- Sixteen bytes are enough for every read of the header parser. -/
theorem parseDataFrameHeader_ok {frame : Buffer} (h : P2P_DATA_HEADER_BYTES ≤ frame.length) :
    parseDataFrameHeader frame = .ok (headerFields frame h) := by
  have h16 : 16 ≤ frame.length := h
  have hcmd : (Buf.subarray frame 4 6).length = 2 := by rw [Buf.length_subarray]; omega
  have hlen : (Buf.subarray frame 6 10).length = 4 := by rw [Buf.length_subarray]; omega
  rw [parseDataFrameHeader, Buf.readUIntLE_ok hcmd.ge, Buf.readUIntLE_ok hlen.ge,
    Buf.readUInt8_ok (by omega), Buf.readUInt8_ok (by omega), Buf.readUInt8_ok (by omega),
    List.take_of_length_le hcmd.le, List.take_of_length_le hlen.le]
  rfl

/-- One element of the dotted host string; a byte past the end prints as `undefined`. -/
def octet (b : Option UInt8) : String :=
  match b with
  | some x => toString x.toNat
  | none => "undefined"

/-- Parse a LOOKUP_ADDR / LOOKUP_ADDR2 response into a device address. -/
def parseLookupAddr (msg : Buffer) : Except Thrown Address := do
  let port ← Buf.readUInt16LE (Buf.subarray msg 6 8)
  return { host := s!"{octet msg[11]?}.{octet msg[10]?}.{octet msg[9]?}.{octet msg[8]?}", port }

/-- The bytes before the first NUL. -/
def readNullTerminatedString (data : Buffer) : Buffer := data.takeWhile (· ≠ 0)

/-- The cipher id in a decrypted `CMD_GATEWAYINFO` payload. -/
def gatewayInfoCipherId (gwPayload : Buffer) : Except Thrown ℕ :=
  if 2 ≤ gwPayload.length then Buf.readUInt16LE gwPayload else .ok 0

theorem buildCheckCamPayload_isOk (p2pDid : String) :
    (buildCheckCamPayload p2pDid).isOk = true ↔ DidEncodes p2pDid := by
  have hwrite := Buf.writeUInt32BE_isOk ((didParts p2pDid)[1]? >>= parseInt)
  rw [buildCheckCamPayload, p2pDidToBuffer, DidEncodes]
  cases hb2 : Buf.writeUInt32BE ((didParts p2pDid)[1]? >>= parseInt) with
  | error e =>
    rw [hb2] at hwrite
    have hbad := of_decide_eq_false hwrite.symm
    simp only [error_bind, Except.isOk, Except.toBool]
    tauto
  | ok b2 =>
    rw [hb2] at hwrite
    have hgood := of_decide_eq_true hwrite.symm
    cases hsuffix : (didParts p2pDid)[2]? with
    | none =>
      have hshort := List.getElem?_eq_none_iff.mp hsuffix
      simp [Except.isOk, Except.toBool]
      omega
    | some suffix =>
      obtain ⟨hlong, -⟩ := List.getElem?_eq_some_iff.mp hsuffix
      simp only [ok_bind]
      exact ⟨fun _ => ⟨hlong, hgood⟩, fun _ => rfl⟩

theorem length_buildCheckCamPayload {p2pDid : String} {payload : Buffer}
    (h : buildCheckCamPayload p2pDid = .ok payload) : payload.length ≤ 23 := by
  rw [buildCheckCamPayload, p2pDidToBuffer] at h
  cases hb2 : Buf.writeUInt32BE ((didParts p2pDid)[1]? >>= parseInt) with
  | error e =>
    rw [hb2] at h
    cases h
  | ok b2 =>
    rw [hb2] at h
    cases hsuffix : (didParts p2pDid)[2]? with
    | none =>
      rw [hsuffix] at h
      cases h
    | some suffix =>
      rw [hsuffix] at h
      simp only [ok_bind] at h
      rw [← Except.ok.inj h, List.length_append, List.length_take]
      change _ + 3 ≤ 23
      omega

theorem parseLookupAddr_ok {msg : Buffer} (h : 8 ≤ msg.length) :
    ∃ addr, parseLookupAddr msg = .ok addr := by
  have hlen : (Buf.subarray msg 6 8).length = 2 := by rw [Buf.length_subarray]; omega
  rw [parseLookupAddr, Buf.readUInt16LE, Buf.readUIntLE_ok hlen.ge]
  exact ⟨_, rfl⟩

theorem parseLookupAddr_error {msg : Buffer} (h : msg.length < 8) :
    parseLookupAddr msg = .error .rangeError := by
  have hlen : ¬2 ≤ (Buf.subarray msg 6 8).length := by rw [Buf.length_subarray]; omega
  rw [parseLookupAddr, Buf.readUInt16LE, Buf.readUIntLE, if_neg hlen]
  rfl

theorem gatewayInfoCipherId_ok (gwPayload : Buffer) :
    ∃ cipherId, gatewayInfoCipherId gwPayload = .ok cipherId := by
  rw [gatewayInfoCipherId]
  split
  · rename_i h
    exact ⟨_, Buf.readUIntLE_ok h⟩
  · exact ⟨0, rfl⟩

end EufySdk.Codec
