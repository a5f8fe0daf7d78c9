import Mathlib.Tactic
import EufySdk.Transport.P2p.Reassembly

/-!
# Command frames and the datagrams that carry them

A command frame is `buildCommandHeader` without its data-type and sequence bytes,
followed by the output of one of the payload builders. The builders all write one
layout (`CommandBody.build_eq_raw`), so a built frame is a `Framing.Packet` of the
data format.
-/

namespace EufySdk.P2PSession

open Bytes Codec

/-- The payload builders, with their arguments. -/
inductive CommandBody
  | raw (data : Buffer) (channel signCode : ℤ) (magic : ℤ × ℤ) (streamId : ℤ)
  | string (value : String) (channel : ℤ) (key : Option Buffer) (encType : ℤ)
  | intString (value valueSub : ℤ) (strValue : String) (channel : ℤ) (key : Option Buffer)
      (encType : ℤ)

structure Command where
  commandType : ℕ
  body : CommandBody

section Cipher

variable (encryptP2PData : Buffer → Buffer → Buffer)

namespace CommandBody

def build : CommandBody → Except Thrown Buffer
  | raw data channel signCode magic streamId =>
    buildRawCommandPayload data channel signCode magic streamId
  | string value channel key encType =>
    buildStringCommandPayload encryptP2PData value channel key encType
  | intString value valueSub strValue channel key encType =>
    buildIntStringCommandPayload encryptP2PData value valueSub strValue channel key encType

/-- The payload bytes behind the ten bytes every builder writes first. -/
def data : CommandBody → Buffer
  | raw data _ _ _ _ => data
  | string value _ key _ => encryptIfKeyed encryptP2PData (utf8 value) key
  | intString value valueSub strValue _ key _ =>
    encryptIfKeyed encryptP2PData (intStringBody value valueSub strValue) key

def channel : CommandBody → ℤ
  | raw _ channel _ _ _ => channel
  | string _ channel _ _ => channel
  | intString _ _ _ channel _ _ => channel

/-- The sign code: the caller's own, or the encryption type where a level-1 key is given. -/
def signCode : CommandBody → ℤ
  | raw _ _ signCode _ _ => signCode
  | string _ _ key encType => if isLevel1Key key then encType else 0
  | intString _ _ _ _ key encType => if isLevel1Key key then encType else 0

def magic : CommandBody → ℤ × ℤ
  | raw _ _ _ magic _ => magic
  | _ => (1, 0)

def streamId : CommandBody → ℤ
  | raw _ _ _ _ streamId => streamId
  | _ => 0

/-- Every builder writes the layout of `buildRawCommandPayload`. -/
theorem build_eq_raw (b : CommandBody) :
    b.build encryptP2PData =
      buildRawCommandPayload (b.data encryptP2PData) b.channel b.signCode b.magic b.streamId := by
  have hsign : ∀ key encType, (if isLevel1Key key then Buf.byte encType else 0x00) =
      Buf.byte (if isLevel1Key key then encType else 0) := by
    intro key encType
    split <;> rfl
  cases b with
  | raw data channel signCode magic streamId => rfl
  | string value channel key encType =>
    simp only [build, buildStringCommandPayload, hsign]
    rfl
  | intString value valueSub strValue channel key encType =>
    simp only [build, buildIntStringCommandPayload, hsign]
    rfl

end CommandBody

namespace Command

/-- The bytes a command puts on its data type's stream. The first four bytes of
`buildCommandHeader` are the datagram's own data type and sequence number. -/
def encode (c : Command) : Except Thrown Buffer := do
  let header ← buildCommandHeader 0 c.commandType (P2PDataTypeHeader .DATA)
  let payload ← c.body.build encryptP2PData
  return header.drop 4 ++ payload

/-- The header a receiver should read back. -/
def header (c : Command) : P2PDataFrameHeader where
  commandId := c.commandType
  bytesToRead := (c.body.data encryptP2PData).length
  channel := (c.body.channel % 256).toNat
  signCode := (c.body.signCode % 256).toNat
  type := (c.body.streamId % 256).toNat

def frame (c : Command) : P2PDataFrameHeader × Buffer :=
  (c.header encryptP2PData, c.body.data encryptP2PData)

/-- The sixteen header bytes of a command. -/
def head (c : Command) : Buffer :=
  MAGIC_WORD ++ uint16LE c.commandType ++ uint16LE (c.body.data encryptP2PData).length ++
    [0x00, 0x00, Buf.byte c.body.magic.1, Buf.byte c.body.magic.2, Buf.byte c.body.channel,
      Buf.byte c.body.signCode, Buf.byte c.body.streamId, 0x00]

/-- A command that encodes has a 16-bit command type and payload length, and its bytes are
its header and its payload. -/
theorem encode_eq_ok {c : Command} {bytes : Buffer} (h : c.encode encryptP2PData = .ok bytes) :
    c.commandType < 65536 ∧ (c.body.data encryptP2PData).length < 65536 ∧
      bytes = c.head encryptP2PData ++ c.body.data encryptP2PData := by
  rw [encode, CommandBody.build_eq_raw, buildCommandHeader, buildRawCommandPayload] at h
  simp only [Buf.writeUInt16BE, Buf.writeUInt16LE] at h
  by_cases htype : c.commandType < 65536
  · by_cases hlen : (c.body.data encryptP2PData).length < 65536
    · simp only [if_pos htype, if_pos hlen] at h
      refine ⟨htype, hlen, ?_⟩
      cases h
      rfl
    · simp only [if_pos htype, if_neg hlen] at h
      cases h
  · simp only [if_neg htype] at h
    cases h

theorem parse_head (c : Command) (htype : c.commandType < 65536)
    (hlen : (c.body.data encryptP2PData).length < 65536) (rest : Buffer) :
    dataFormat.parse (c.head encryptP2PData ++ rest) = some (c.header encryptP2PData) := by
  have hbyte : ∀ v : ℤ, (Buf.byte v).toNat = (v % 256).toNat := by
    intro v
    have := Buf.toNat_byte v
    omega
  have hsize : P2P_DATA_HEADER_BYTES ≤ (c.head encryptP2PData ++ rest).length := by
    rw [List.length_append]
    exact Nat.le_add_right 16 rest.length
  have hmagic : Buf.subarray (c.head encryptP2PData ++ rest) 0 4 = MAGIC_WORD := rfl
  have hparse : dataFormat.parse (c.head encryptP2PData ++ rest) =
      some (headerFields (c.head encryptP2PData ++ rest) hsize) :=
    dataFormat_parse hsize hmagic
  have hcmd : Bytes.readUIntLE (Buf.subarray (c.head encryptP2PData ++ rest) 4 6) =
      c.commandType := readUIntLE_uint16LE htype
  have hread : Bytes.readUIntLE (Buf.subarray (c.head encryptP2PData ++ rest) 6 10) =
      (c.body.data encryptP2PData).length := readUIntLE_uint16LE_zeros hlen
  rw [hparse, headerFields, hcmd, hread, header, ← hbyte, ← hbyte, ← hbyte]
  rfl

end Command

/-- A command the builders accepted, with the bytes they returned. -/
structure SentFrame where
  command : Command
  bytes : Buffer
  built : command.encode encryptP2PData = .ok bytes

namespace SentFrame

variable {encryptP2PData}

def frame (f : SentFrame encryptP2PData) : P2PDataFrameHeader × Buffer :=
  f.command.frame encryptP2PData

def packet (f : SentFrame encryptP2PData) : Framing.Packet dataFormat where
  head := f.command.head encryptP2PData
  header := f.command.header encryptP2PData
  payload := f.command.body.data encryptP2PData
  head_length := rfl
  parse_head := by
    obtain ⟨htype, hlen, -⟩ := Command.encode_eq_ok encryptP2PData f.built
    exact f.command.parse_head encryptP2PData htype hlen
  payload_length := rfl

theorem packet_bytes (f : SentFrame encryptP2PData) : f.packet.bytes = f.bytes :=
  (Command.encode_eq_ok encryptP2PData f.built).2.2.symm

theorem stream_packets (fs : List (SentFrame encryptP2PData)) :
    Framing.stream (fs.map packet) = fs.flatMap bytes := by
  induction fs with
  | nil => rfl
  | cons f fs ih =>
    rw [List.map_cons, Framing.stream_cons, packet_bytes, ih, List.flatMap_cons]

end SentFrame

end Cipher

/-- A DATA datagram of a data type's stream. -/
def dataDatagram (ty : P2PDataType) (seqNo : ℕ) (chunk : Buffer) : Except Thrown Buffer := do
  let seq ← Buf.writeUInt16BE seqNo
  frameMessage RequestMessageType.DATA (P2PDataTypeHeader ty ++ seq ++ chunk)

theorem dataDatagram_eq_ok {ty : P2PDataType} {seqNo : ℕ} {chunk msg : Buffer}
    (h : dataDatagram ty seqNo chunk = .ok msg) :
    seqNo < 65536 ∧ ∃ len, msg = RequestMessageType.DATA ++ uint16BE len ++
      (P2PDataTypeHeader ty ++ uint16BE seqNo ++ chunk) := by
  simp only [dataDatagram, frameMessage, Buf.writeUInt16BE] at h
  by_cases hseq : seqNo < 65536
  · simp only [if_pos hseq, ok_bind] at h
    by_cases hlen : (P2PDataTypeHeader ty ++ uint16BE seqNo ++ chunk).length < 65536
    · simp only [if_pos hlen, ok_bind] at h
      cases h
      exact ⟨hseq, _, rfl⟩
    · simp only [if_neg hlen] at h
      cases h
  · simp only [if_neg hseq] at h
    cases h

theorem dataDatagram_isDatagram {ty : P2PDataType} {seqNo : ℕ} {chunk msg : Buffer}
    (h : dataDatagram ty seqNo chunk = .ok msg) : IsDatagram msg ty.code seqNo chunk := by
  obtain ⟨hseq, len, rfl⟩ := dataDatagram_eq_ok h
  exact ⟨⟨_, _, _, _, _, rfl⟩, hseq⟩

/-- The ACK a DATA datagram asks for: its own data-type bytes, a count of one and its own
sequence bytes. -/
def ackOf (msg : Buffer) : Buffer :=
  Buf.subarray msg 4 6 ++ uint16BE 1 ++ Buf.subarray msg 6 8

theorem ackOf_dataDatagram {ty : P2PDataType} {seqNo : ℕ} {chunk msg : Buffer}
    (h : dataDatagram ty seqNo chunk = .ok msg) :
    ackOf msg = ackTypeHeader ty.code ++ uint16BE 1 ++ uint16BE seqNo := by
  obtain ⟨hseq, len, rfl⟩ := dataDatagram_eq_ok h
  cases ty <;> rfl

end EufySdk.P2PSession
