import Mathlib.Tactic
import EufySdk.Lib.Framing
import EufySdk.Transport.P2p.Codec

/-!
# Acknowledging and reassembling DATA datagrams

`P2PSession.onData`: one DATA datagram is acknowledged, placed against its data
type's sequence mark, and the frames it completes are handed to `handleFrame`.

Main definitions:

- `Inbound` — the sequencing state of a session, one entry per data type
- `classify` — repeat, in order, gap or restart
- `onData` — the datagram handler, its calls in order as `InboundEvent`s
- `dataFormat` — the frame format as an instance of `Framing.Format`
- `onData_receives` — `onData` on a datagram long enough to be one, read through `dataFormat`
-/

namespace EufySdk.P2PSession

open Bytes Codec

/-- How far apart two numbers may be and still be read as forwards. -/
def SEQUENCE_LOOKBACK : ℕ := 0x8000

/-- How far back a datagram may be numbered and still be a retransmission. -/
def STALE_RETRANSMIT_DEPTH : ℕ := 1024

def MAX_TRACED_DATAGRAM_GAPS : ℕ := 8

/-- A frame that spans into datagrams still to come. -/
structure PendingFrame where
  header : P2PDataFrameHeader
  buf : Buffer
  deriving DecidableEq, Repr

structure Inbound where
  lastSeqByType : UInt8 → Option ℕ
  pendingByDataType : UInt8 → Option PendingFrame
  tracedDatagramGaps : ℕ

inductive TracePhase
  | sequenceRestart
  | datagramGap
  deriving DecidableEq, Repr

/-- A call `onData` makes. -/
inductive InboundEvent
  | ack (payload : Buffer)
  | trace (phase : TracePhase) (dataType : UInt8)
  | handleFrame (header : P2PDataFrameHeader) (payload : Buffer) (dataType : UInt8)
  deriving DecidableEq, Repr

def resetInboundSequencing : Inbound where
  lastSeqByType _ := none
  pendingByDataType _ := none
  tracedDatagramGaps := 0

def ackTypeHeader (dataType : UInt8) : Buffer :=
  if dataType = P2PDataType.VIDEO.code then P2PDataTypeHeader .VIDEO
  else if dataType = P2PDataType.CONTROL.code then P2PDataTypeHeader .CONTROL
  else if dataType = P2PDataType.BINARY.code then P2PDataTypeHeader .BINARY
  else P2PDataTypeHeader .DATA

/-- The `while` loop of `onData`: the frames at the start of `body`, and the frame that
spans into the datagrams after it. Every turn takes a header off `body`, so its length
bounds the turns. -/
def splitFrames : ℕ → Buffer →
    Except Thrown (List (P2PDataFrameHeader × Buffer) × Option PendingFrame)
  | 0, _ => .ok ([], none)
  | fuel + 1, body =>
    if P2P_DATA_HEADER_BYTES ≤ body.length ∧ Buf.subarray body 0 4 = MAGIC_WORD then do
      let header ← parseDataFrameHeader body
      let payload := body.drop P2P_DATA_HEADER_BYTES
      if payload.length < header.bytesToRead then
        return ([], some { header, buf := payload })
      else
        let (frames, pending) ←
          splitFrames fuel (body.drop (P2P_DATA_HEADER_BYTES + header.bytesToRead))
        return ((header, payload.take header.bytesToRead) :: frames, pending)
    else .ok ([], none)

/-- The frames a datagram's bytes complete behind the pending frame, and the frame
pending after them. -/
def takeFrames (pending : Option PendingFrame) (bytes : Buffer) :
    Except Thrown (List (P2PDataFrameHeader × Buffer) × Option PendingFrame) :=
  match pending with
  | none => splitFrames bytes.length bytes
  | some { header, buf } =>
    let body := buf ++ bytes
    if body.length < header.bytesToRead then .ok ([], some { header, buf := body })
    else do
      let rest := body.drop header.bytesToRead
      let (frames, pending) ← splitFrames rest.length rest
      return ((header, body.take header.bytesToRead) :: frames, pending)

/-- What a datagram's distance from the sequence mark makes of it. -/
inductive Arrival
  | repeated
  | inOrder
  | gap
  | restarted
  deriving DecidableEq, Repr

/-- `(seqNo - prevSeq) & 0xffff`. -/
def seqAdvance (prevSeq seqNo : ℕ) : ℕ :=
  (((seqNo : ℤ) - prevSeq) % 65536).toNat

def classify (lastSeq : Option ℕ) (seqNo : ℕ) : Arrival :=
  let advance := match lastSeq with
    | none => 1
    | some prevSeq => seqAdvance prevSeq seqNo
  let restarted := SEQUENCE_LOOKBACK < advance ∧ STALE_RETRANSMIT_DEPTH < 0x10000 - advance
  if advance = 0 then .repeated
  else if SEQUENCE_LOOKBACK < advance ∧ ¬restarted then .repeated
  else if restarted then .restarted
  else if 1 < advance then .gap
  else .inOrder

/-- `P2PSession.onData` on the inbound sequencing state. The calls it makes are listed in
order; an exception ends it before any further call. -/
def onData (s : Inbound) (msg : Buffer) : Except Thrown (Inbound × List InboundEvent) := do
  let seqNo ← Buf.readUInt16BE (Buf.subarray msg 6 8)
  let dataType := (msg[5]?).getD 0
  let payload ← buildAckPayload (ackTypeHeader dataType) seqNo
  let ack := InboundEvent.ack payload
  let arrival := classify (s.lastSeqByType dataType) seqNo
  match arrival with
  | .repeated => return (s, [ack])
  | _ =>
    -- a gap or a restart makes a half-assembled frame unusable
    let dropped : Bool := arrival ≠ .inOrder ∧ (s.pendingByDataType dataType).isSome
    let traced : Bool := dropped ∧ s.tracedDatagramGaps < MAX_TRACED_DATAGRAM_GAPS
    let trace := InboundEvent.trace
      (if arrival = .restarted then .sequenceRestart else .datagramGap) dataType
    let pending := if dropped then none else s.pendingByDataType dataType
    let (frames, pending) ← takeFrames pending (msg.drop 8)
    let s' : Inbound :=
      { lastSeqByType := Function.update s.lastSeqByType dataType (some seqNo)
        pendingByDataType := Function.update s.pendingByDataType dataType pending
        tracedDatagramGaps := s.tracedDatagramGaps + if dropped then 1 else 0 }
    return (s', ack :: (if traced then [trace] else [])
      ++ frames.map fun f => .handleFrame f.1 f.2 dataType)

/-- Feed datagrams in order, collecting the calls. -/
def onDatagrams : Inbound → List Buffer → Except Thrown (Inbound × List InboundEvent)
  | s, [] => .ok (s, [])
  | s, msg :: msgs => do
    let (s, calls) ← onData s msg
    let (s, rest) ← onDatagrams s msgs
    return (s, calls ++ rest)

/-- The data frame as a length-prefixed format. -/
def dataFormat : Framing.Format P2PDataFrameHeader where
  size := P2P_DATA_HEADER_BYTES
  size_pos := by decide
  parse body :=
    if h : P2P_DATA_HEADER_BYTES ≤ body.length ∧ Buf.subarray body 0 4 = MAGIC_WORD then
      some (headerFields body h.1)
    else none
  need := P2PDataFrameHeader.bytesToRead

theorem dataFormat_parse {body : Buffer} (hsize : P2P_DATA_HEADER_BYTES ≤ body.length)
    (hmagic : Buf.subarray body 0 4 = MAGIC_WORD) :
    dataFormat.parse body = some (headerFields body hsize) := dif_pos ⟨hsize, hmagic⟩

theorem dataFormat_parse_none {body : Buffer} (hmagic : Buf.subarray body 0 4 ≠ MAGIC_WORD) :
    dataFormat.parse body = none := dif_neg fun h => hmagic h.2

def PendingFrame.ofPair (p : P2PDataFrameHeader × Buffer) : PendingFrame := ⟨p.1, p.2⟩

def PendingFrame.toPair (p : PendingFrame) : P2PDataFrameHeader × Buffer := (p.header, p.buf)

@[simp] theorem PendingFrame.toPair_ofPair (p : P2PDataFrameHeader × Buffer) :
    (PendingFrame.ofPair p).toPair = p := rfl

/-- The loop of `onData` scans the data format; it never reads past the body. -/
theorem splitFrames_eq (fuel : ℕ) (body : Buffer) :
    splitFrames fuel body =
      .ok ((dataFormat.scan fuel body).1, (dataFormat.scan fuel body).2.map .ofPair) := by
  induction fuel generalizing body with
  | zero => rfl
  | succ fuel ih =>
    rw [splitFrames, Framing.Format.scan]
    by_cases hsize : P2P_DATA_HEADER_BYTES ≤ body.length
    · have hformat : dataFormat.size ≤ body.length := hsize
      by_cases hmagic : Buf.subarray body 0 4 = MAGIC_WORD
      · rw [if_pos ⟨hsize, hmagic⟩, if_pos hformat, dataFormat_parse hsize hmagic,
          parseDataFrameHeader_ok hsize]
        have hdrop : body.drop (P2P_DATA_HEADER_BYTES + (headerFields body hsize).bytesToRead) =
            (body.drop dataFormat.size).drop (dataFormat.need (headerFields body hsize)) := by
          rw [List.drop_drop]
          rfl
        simp only [ok_bind]
        by_cases hshort : (body.drop dataFormat.size).length <
            dataFormat.need (headerFields body hsize)
        · simp only [if_pos hshort]
          exact if_pos hshort
        · simp only [if_neg hshort]
          refine (if_neg hshort).trans ?_
          rw [hdrop, ih]
          rfl
      · rw [if_neg fun h => hmagic h.2, if_pos hformat, dataFormat_parse_none hmagic]
        rfl
    · have hformat : ¬dataFormat.size ≤ body.length := hsize
      rw [if_neg fun h => hsize h.1, if_neg hformat]
      rfl

theorem takeFrames_eq (pending : Option PendingFrame) (bytes : Buffer) :
    takeFrames pending bytes =
      .ok ((dataFormat.feed (pending.map PendingFrame.toPair) bytes).1,
        (dataFormat.feed (pending.map PendingFrame.toPair) bytes).2.map .ofPair) := by
  cases pending with
  | none => exact splitFrames_eq _ _
  | some p =>
    obtain ⟨header, buf⟩ := p
    change takeFrames (some ⟨header, buf⟩) bytes =
      .ok ((dataFormat.feed (some (header, buf)) bytes).1,
        (dataFormat.feed (some (header, buf)) bytes).2.map .ofPair)
    by_cases hshort : (buf ++ bytes).length < dataFormat.need header
    · rw [dataFormat.feed_some_of_lt hshort]
      exact if_pos hshort
    · rw [dataFormat.feed_some_of_not_lt hshort]
      refine (if_neg hshort).trans ?_
      rw [splitFrames_eq]
      rfl

/-- The sequence mark and the pending frame of one data type. -/
structure Channel where
  lastSeq : Option ℕ
  pending : Option (P2PDataFrameHeader × Buffer)

def Inbound.channel (s : Inbound) (t : UInt8) : Channel where
  lastSeq := s.lastSeqByType t
  pending := (s.pendingByDataType t).map PendingFrame.toPair

/-- One datagram on the channel of its own data type: the channel after it and the frames
handed over. -/
def Channel.receive (c : Channel) (seqNo : ℕ) (chunk : Buffer) :
    Channel × List (P2PDataFrameHeader × Buffer) :=
  match classify c.lastSeq seqNo with
  | .repeated => (c, [])
  | .inOrder =>
    let r := dataFormat.feed c.pending chunk
    ({ lastSeq := some seqNo, pending := r.2 }, r.1)
  | .gap | .restarted =>
    let r := dataFormat.feed none chunk
    ({ lastSeq := some seqNo, pending := r.2 }, r.1)

/-- The frames of one data type among the calls, in order. -/
def handled (t : UInt8) (calls : List InboundEvent) : List (P2PDataFrameHeader × Buffer) :=
  calls.filterMap fun
    | .handleFrame header payload dataType =>
      if dataType = t then some (header, payload) else none
    | _ => none

def acks (calls : List InboundEvent) : List Buffer :=
  calls.filterMap fun
    | .ack payload => some payload
    | _ => none

@[simp] theorem handled_append (t : UInt8) (a b : List InboundEvent) :
    handled t (a ++ b) = handled t a ++ handled t b := List.filterMap_append

@[simp] theorem acks_append (a b : List InboundEvent) :
    acks (a ++ b) = acks a ++ acks b := List.filterMap_append

@[simp] theorem handled_nil (t : UInt8) : handled t [] = [] := rfl

@[simp] theorem acks_nil : acks [] = [] := rfl

theorem handled_handleFrames (t dataType : UInt8) (frames : List (P2PDataFrameHeader × Buffer)) :
    handled t (frames.map fun f => .handleFrame f.1 f.2 dataType) =
      if dataType = t then frames else [] := by
  induction frames with
  | nil => simp
  | cons f frames ih =>
    rw [List.map_cons, ← List.singleton_append, handled_append, ih]
    by_cases h : dataType = t <;> simp [handled, h]

theorem acks_handleFrames (dataType : UInt8) (frames : List (P2PDataFrameHeader × Buffer)) :
    acks (frames.map fun f => .handleFrame f.1 f.2 dataType) = [] := by
  induction frames with
  | nil => rfl
  | cons f frames ih =>
    rw [List.map_cons, ← List.singleton_append, acks_append, ih]
    rfl

/-- What `onData` does with a datagram: the channel of its type takes a `receive` step, no
other channel moves, the frames are handed over under that type, and one ACK is sent. -/
structure Receives (s : Inbound) (t : UInt8) (seqNo : ℕ) (chunk : Buffer)
    (s' : Inbound) (calls : List InboundEvent) : Prop where
  channel_self : s'.channel t = ((s.channel t).receive seqNo chunk).1
  channel_other : ∀ t', t' ≠ t → s'.channel t' = s.channel t'
  handled_self : handled t calls = ((s.channel t).receive seqNo chunk).2
  handled_other : ∀ t', t' ≠ t → handled t' calls = []
  acked : acks calls = [ackTypeHeader t ++ uint16BE 1 ++ uint16BE seqNo]

/-- The bytes of a DATA datagram. -/
structure IsDatagram (msg : Buffer) (t : UInt8) (seqNo : ℕ) (chunk : Buffer) : Prop where
  bytes : ∃ a b c d e, msg = [a, b, c, d, e, t] ++ uint16BE seqNo ++ chunk
  seqNo_lt : seqNo < 65536

namespace IsDatagram

variable {msg : Buffer} {t : UInt8} {seqNo : ℕ} {chunk : Buffer}

theorem read_seqNo (h : IsDatagram msg t seqNo chunk) :
    Buf.readUInt16BE (Buf.subarray msg 6 8) = .ok seqNo := by
  obtain ⟨⟨a, b, c, d, e, rfl⟩, hlt⟩ := h
  change Buf.readUInt16BE (uint16BE seqNo) = _
  rw [Buf.readUInt16BE_ok (by simp), List.take_of_length_le (by simp), readUIntBE_uint16BE hlt]

theorem read_dataType (h : IsDatagram msg t seqNo chunk) : msg[5]?.getD 0 = t := by
  obtain ⟨⟨a, b, c, d, e, rfl⟩, -⟩ := h
  rfl

theorem drop_head (h : IsDatagram msg t seqNo chunk) : msg.drop 8 = chunk := by
  obtain ⟨⟨a, b, c, d, e, rfl⟩, -⟩ := h
  rfl

end IsDatagram

theorem buildAckPayload_ok (t : UInt8) {seqNo : ℕ} (h : seqNo < 65536) :
    buildAckPayload (ackTypeHeader t) seqNo =
      .ok (ackTypeHeader t ++ uint16BE 1 ++ uint16BE seqNo) := by
  simp only [buildAckPayload, Buf.writeUInt16BE, if_pos h]
  rfl

/-- A datagram that is kept: the state and the calls of `onData` when the bytes continue
the pending frame `pend`, with whatever was traced before the frames. -/
theorem receives_of_kept {s : Inbound} {t : UInt8} {seqNo : ℕ} {chunk : Buffer}
    {pend : Option (P2PDataFrameHeader × Buffer)} {traces : List InboundEvent} {gaps : ℕ}
    (hrec : (s.channel t).receive seqNo chunk =
      ({ lastSeq := some seqNo, pending := (dataFormat.feed pend chunk).2 },
        (dataFormat.feed pend chunk).1))
    (hframes : ∀ t', handled t' traces = []) (hacks : acks traces = []) :
    Receives s t seqNo chunk
      { lastSeqByType := Function.update s.lastSeqByType t (some seqNo)
        pendingByDataType := Function.update s.pendingByDataType t
          ((dataFormat.feed pend chunk).2.map .ofPair)
        tracedDatagramGaps := gaps }
      (.ack (ackTypeHeader t ++ uint16BE 1 ++ uint16BE seqNo) ::
        (traces ++ (dataFormat.feed pend chunk).1.map fun f => .handleFrame f.1 f.2 t)) where
  channel_self := by
    have hpair : (PendingFrame.toPair ∘ PendingFrame.ofPair) = id := by
      funext p
      rfl
    rw [hrec]
    simp [Inbound.channel, Option.map_map, hpair]
  channel_other := by
    intro t' ht'
    simp [Inbound.channel, Function.update_of_ne ht']
  handled_self := by
    rw [← List.singleton_append, handled_append, handled_append, hframes,
      handled_handleFrames, hrec]
    simp [handled]
  handled_other := by
    intro t' ht'
    rw [← List.singleton_append, handled_append, handled_append, hframes,
      handled_handleFrames]
    simp [handled, ht'.symm]
  acked := by
    rw [← List.singleton_append, acks_append, acks_append, hacks, acks_handleFrames]
    rfl

theorem handled_trace (t t' : UInt8) (b : Bool) (phase : TracePhase) :
    handled t' (if b = true then [.trace phase t] else []) = [] := by
  cases b <;> rfl

theorem acks_trace (t : UInt8) (b : Bool) (phase : TracePhase) :
    acks (if b = true then [.trace phase t] else []) = [] := by
  cases b <;> rfl

/-- A gap or a restart leaves no pending frame to continue. -/
theorem pending_dropped (p : Option PendingFrame) :
    (if (decide (True ∧ p.isSome = true) : Bool) = true then none else p) = none := by
  cases p <;> rfl

/-- A repeat is acknowledged and otherwise ignored. -/
theorem onData_repeated {s : Inbound} {msg : Buffer} {t : UInt8} {seqNo : ℕ} {chunk : Buffer}
    (h : IsDatagram msg t seqNo chunk) (hrep : classify (s.lastSeqByType t) seqNo = .repeated) :
    onData s msg = .ok (s, [.ack (ackTypeHeader t ++ uint16BE 1 ++ uint16BE seqNo)]) := by
  rw [onData, h.read_seqNo]
  simp only [h.read_dataType, ok_bind, buildAckPayload_ok t h.seqNo_lt, hrep]
  rfl

theorem onData_receives (s : Inbound) {msg : Buffer} {t : UInt8} {seqNo : ℕ} {chunk : Buffer}
    (h : IsDatagram msg t seqNo chunk) :
    ∃ s' calls, onData s msg = .ok (s', calls) ∧ Receives s t seqNo chunk s' calls := by
  rw [onData, h.read_seqNo]
  simp only [h.read_dataType, h.drop_head, takeFrames_eq, ok_bind,
    buildAckPayload_ok t h.seqNo_lt]
  cases harr : classify (s.lastSeqByType t) seqNo with
  | repeated =>
    have hrec : (s.channel t).receive seqNo chunk = (s.channel t, []) := by
      simp only [Channel.receive, Inbound.channel, harr]
    refine ⟨s, _, rfl, ?_, fun _ _ => rfl, ?_, fun _ _ => rfl, rfl⟩
    · rw [hrec]
    · rw [hrec]
      rfl
  | inOrder =>
    have hrec := @receives_of_kept s t seqNo chunk (s.channel t).pending [] s.tracedDatagramGaps
      (by simp only [Channel.receive, Inbound.channel, harr]) (fun _ => rfl) rfl
    exact ⟨_, _, rfl, hrec⟩
  | gap =>
    have hrec : (s.channel t).receive seqNo chunk =
        ({ lastSeq := some seqNo, pending := (dataFormat.feed none chunk).2 },
          (dataFormat.feed none chunk).1) := by
      simp only [Channel.receive, Inbound.channel, harr]
    have hdropped := pending_dropped (s.pendingByDataType t)
    simp only [ne_eq, reduceCtorEq, not_false_eq_true, hdropped]
    refine ⟨_, _, rfl, ?_⟩
    exact receives_of_kept hrec (fun t' => handled_trace t t' _ _) (acks_trace t _ _)
  | restarted =>
    have hrec : (s.channel t).receive seqNo chunk =
        ({ lastSeq := some seqNo, pending := (dataFormat.feed none chunk).2 },
          (dataFormat.feed none chunk).1) := by
      simp only [Channel.receive, Inbound.channel, harr]
    have hdropped := pending_dropped (s.pendingByDataType t)
    simp only [ne_eq, reduceCtorEq, not_false_eq_true, hdropped]
    refine ⟨_, _, rfl, ?_⟩
    exact receives_of_kept hrec (fun t' => handled_trace t t' _ _) (acks_trace t _ _)

end EufySdk.P2PSession
