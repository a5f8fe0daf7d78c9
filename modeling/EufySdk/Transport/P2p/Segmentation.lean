import Mathlib.Tactic
import EufySdk.Transport.P2p.CommandFrame
import EufySdk.Transport.P2p.SequenceWindow

/-!
# Reassembly inverts the command encoder

Commands of several data types are sent, each type's bytes cut into DATA datagrams
that never split a header, numbered from any start, interleaved in any way and
interspersed with repeats. `onDatagrams` hands over exactly the commands sent, in
order within each type, and acknowledges every datagram.

Main definitions:

- `Segmentation` — how each type's stream is cut and where its numbering starts
- `Delivery` — an order in which the datagrams arrive, with repeats
- `Synced` — the invariant: each channel is where the bytes delivered so far put it
-/

namespace EufySdk.P2PSession

open Bytes Codec Framing

/-! ## Sending and delivering -/

variable {encryptP2PData : Buffer → Buffer → Buffer}

/-- The frames sent on a data type, in order. -/
def sentOn (sent : List (P2PDataType × SentFrame encryptP2PData)) (t : UInt8) :
    List (SentFrame encryptP2PData) :=
  (sent.filter fun f => f.1.code = t).map Prod.snd

/-- A way to cut each data type's byte stream into datagrams that split no header, and the
number of the first datagram of each. -/
structure Segmentation (sent : List (P2PDataType × SentFrame encryptP2PData)) where
  chunks : P2PDataType → List Buffer
  start : P2PDataType → ℕ
  covers : ∀ ty, (chunks ty).flatten = (sentOn sent ty.code).flatMap SentFrame.bytes
  clean : ∀ ty i, i ≤ (chunks ty).length →
    CleanCut ((sentOn sent ty.code).map SentFrame.packet) ((chunks ty).take i).flatten.length

namespace Segmentation

variable {sent : List (P2PDataType × SentFrame encryptP2PData)} (seg : Segmentation sent)

def packets (_ : Segmentation sent) (ty : P2PDataType) : List (Packet dataFormat) :=
  (sentOn sent ty.code).map SentFrame.packet

/-- The number of stream bytes in the first `i` datagrams. -/
def offset (ty : P2PDataType) (i : ℕ) : ℕ := ((seg.chunks ty).take i).flatten.length

/-- The sequence number of datagram `i`. -/
def seqNo (ty : P2PDataType) (i : ℕ) : ℕ := (seg.start ty + i) % 65536

theorem stream_packets (ty : P2PDataType) :
    stream (seg.packets ty) = (seg.chunks ty).flatten := by
  rw [packets, SentFrame.stream_packets, seg.covers]

theorem offset_zero (ty : P2PDataType) : seg.offset ty 0 = 0 := rfl

theorem offset_length (ty : P2PDataType) :
    seg.offset ty (seg.chunks ty).length = (stream (seg.packets ty)).length := by
  rw [offset, List.take_length, stream_packets]

theorem offset_succ {ty : P2PDataType} {i : ℕ} (h : i < (seg.chunks ty).length) :
    seg.offset ty (i + 1) = seg.offset ty i + (seg.chunks ty)[i].length := by
  simp only [offset, List.take_add_one, List.getElem?_eq_getElem h, Option.toList_some,
    List.flatten_append, List.flatten_singleton, List.length_append]

/-- Datagram `i` carries the stream's bytes between offsets `i` and `i + 1`. -/
theorem chunk_eq {ty : P2PDataType} {i : ℕ} (h : i < (seg.chunks ty).length) :
    ((stream (seg.packets ty)).take (seg.offset ty (i + 1))).drop (seg.offset ty i) =
      (seg.chunks ty)[i] := by
  have hsplit : (seg.chunks ty).flatten =
      ((seg.chunks ty).take i).flatten ++
        ((seg.chunks ty)[i] ++ ((seg.chunks ty).drop (i + 1)).flatten) := by
    rw [← List.flatten_cons, ← List.drop_eq_getElem_cons h, ← List.flatten_append,
      List.take_append_drop]
  rw [stream_packets, hsplit, seg.offset_succ h, ← List.append_assoc]
  have hlen : seg.offset ty i + (seg.chunks ty)[i].length =
      (((seg.chunks ty).take i).flatten ++ (seg.chunks ty)[i]).length := by
    rw [List.length_append]
    rfl
  rw [hlen, List.take_left]
  exact List.drop_left

/-- Feeding datagram `i` from where the datagrams before it left off. -/
theorem feed_chunk {ty : P2PDataType} {i : ℕ} (h : i < (seg.chunks ty).length) :
    ∃ done, completed (seg.packets ty) (seg.offset ty (i + 1)) =
        completed (seg.packets ty) (seg.offset ty i) ++ done ∧
      dataFormat.feed (pendingAt (seg.packets ty) (seg.offset ty i)) (seg.chunks ty)[i] =
        (done.map Packet.frame, pendingAt (seg.packets ty) (seg.offset ty (i + 1))) := by
  have hle : seg.offset ty i ≤ seg.offset ty (i + 1) := by
    rw [seg.offset_succ h]
    omega
  rw [← seg.chunk_eq h]
  exact feed_stream (seg.packets ty) hle (seg.clean ty i h.le) (seg.clean ty (i + 1) h)

end Segmentation

/-- The datagrams of a segmentation arriving, `n ty` of each type having arrived before:
the next one of some type, or a number up to 1024 behind the last one of its type again. -/
inductive Delivery {sent : List (P2PDataType × SentFrame encryptP2PData)}
    (seg : Segmentation sent) : (P2PDataType → ℕ) → List Buffer → Prop
  | done {n : P2PDataType → ℕ} (hall : ∀ ty, n ty = (seg.chunks ty).length) :
      Delivery seg n []
  | next {n : P2PDataType → ℕ} {msg : Buffer} {msgs : List Buffer} (ty : P2PDataType)
      (hi : n ty < (seg.chunks ty).length)
      (hmsg : dataDatagram ty (seg.seqNo ty (n ty)) (seg.chunks ty)[n ty] = .ok msg)
      (rest : Delivery seg (Function.update n ty (n ty + 1)) msgs) :
      Delivery seg n (msg :: msgs)
  | again {n : P2PDataType → ℕ} {msg : Buffer} {msgs : List Buffer} (ty : P2PDataType)
      (back : ℕ) (chunk : Buffer) (hpos : 0 < n ty) (hback : back ≤ 1024)
      (hmsg : dataDatagram ty (seg.seqNo ty (n ty - 1 + 65536 - back)) chunk = .ok msg)
      (rest : Delivery seg n msgs) :
      Delivery seg n (msg :: msgs)

/-- Every channel is where the datagrams delivered so far put it. -/
def Synced {sent : List (P2PDataType × SentFrame encryptP2PData)} (seg : Segmentation sent)
    (n : P2PDataType → ℕ) (s : Inbound) : Prop :=
  ∀ ty, s.channel ty.code =
    { lastSeq := if n ty = 0 then none else some (seg.seqNo ty (n ty - 1))
      pending := pendingAt (seg.packets ty) (seg.offset ty (n ty)) }

variable {sent : List (P2PDataType × SentFrame encryptP2PData)} {seg : Segmentation sent}

theorem synced_reset (seg : Segmentation sent) :
    Synced seg (fun _ => 0) resetInboundSequencing := by
  intro ty
  rw [seg.offset_zero, pendingAt_zero]
  rfl

/-- The next datagram of a type is kept, and hands over the packets it completes. -/
theorem Synced.receive_next {n : P2PDataType → ℕ} {s : Inbound} (hs : Synced seg n s)
    {ty : P2PDataType} (hi : n ty < (seg.chunks ty).length) :
    ∃ done, completed (seg.packets ty) (seg.offset ty (n ty + 1)) =
        completed (seg.packets ty) (seg.offset ty (n ty)) ++ done ∧
      (s.channel ty.code).receive (seg.seqNo ty (n ty)) (seg.chunks ty)[n ty] =
        ({ lastSeq := some (seg.seqNo ty (n ty))
           pending := pendingAt (seg.packets ty) (seg.offset ty (n ty + 1)) },
          done.map Packet.frame) := by
  have hclass : classify (s.channel ty.code).lastSeq (seg.seqNo ty (n ty)) = .inOrder := by
    rw [hs ty]
    by_cases hzero : n ty = 0
    · rw [if_pos hzero]
      exact classify_first _
    · have hnext := classify_next (seg.start ty + (n ty - 1))
      rw [if_neg hzero, Segmentation.seqNo, Segmentation.seqNo]
      rwa [show seg.start ty + (n ty - 1) + 1 = seg.start ty + n ty by omega] at hnext
  obtain ⟨done, hdone, hfeed⟩ := seg.feed_chunk hi
  refine ⟨done, hdone, ?_⟩
  rw [Channel.receive, hclass]
  simp only [hs ty, hfeed]

/-- A repeat changes nothing and hands over nothing. -/
theorem Synced.receive_again {n : P2PDataType → ℕ} {s : Inbound} (hs : Synced seg n s)
    {ty : P2PDataType} {back : ℕ} (hpos : 0 < n ty) (hback : back ≤ 1024) (chunk : Buffer) :
    (s.channel ty.code).receive (seg.seqNo ty (n ty - 1 + 65536 - back)) chunk =
      (s.channel ty.code, []) := by
  have hclass : classify (s.channel ty.code).lastSeq
      (seg.seqNo ty (n ty - 1 + 65536 - back)) = .repeated := by
    have hbehind := classify_behind (m := seg.start ty + (n ty - 1)) hback
    rw [hs ty, if_neg (by omega), Segmentation.seqNo, Segmentation.seqNo]
    rwa [show seg.start ty + (n ty - 1) + 65536 - back =
      seg.start ty + (n ty - 1 + 65536 - back) by omega] at hbehind
  rw [Channel.receive, hclass]

theorem onDatagrams_cons {s s₁ s₂ : Inbound} {msg : Buffer} {msgs : List Buffer}
    {calls₁ calls₂ : List InboundEvent} (h₁ : onData s msg = .ok (s₁, calls₁))
    (h₂ : onDatagrams s₁ msgs = .ok (s₂, calls₂)) :
    onDatagrams s (msg :: msgs) = .ok (s₂, calls₁ ++ calls₂) := by
  simp only [onDatagrams, h₁, h₂, ok_bind]
  rfl

/-- From a synced state, a delivery hands over the packets not completed yet. -/
theorem Synced.onDatagrams {n : P2PDataType → ℕ} {msgs : List Buffer}
    (hd : Delivery seg n msgs) {s : Inbound} (hs : Synced seg n s) :
    ∃ s' calls, P2PSession.onDatagrams s msgs = .ok (s', calls) ∧
      (∀ ty, (completed (seg.packets ty) (seg.offset ty (n ty))).map Packet.frame ++
        handled ty.code calls = (seg.packets ty).map Packet.frame) ∧
      (∀ t, (∀ ty : P2PDataType, ty.code ≠ t) → handled t calls = []) ∧
      acks calls = msgs.map ackOf := by
  induction hd generalizing s with
  | done hall =>
    refine ⟨s, [], rfl, ?_, fun _ _ => rfl, rfl⟩
    intro ty
    rw [hall, seg.offset_length, completed_length, handled_nil, List.append_nil]
  | @next n msg msgs ty hi hmsg _ ih =>
    obtain ⟨s₁, calls₁, honData, hrec⟩ := onData_receives s (dataDatagram_isDatagram hmsg)
    obtain ⟨done, hdone, hreceive⟩ := hs.receive_next hi
    have hs₁ : Synced seg (Function.update n ty (n ty + 1)) s₁ := by
      intro ty'
      by_cases hty : ty' = ty
      · subst hty
        rw [hrec.channel_self, hreceive, Function.update_self, if_neg (by omega),
          Nat.add_sub_cancel]
      · have hcode : ty'.code ≠ ty.code := fun h => hty (P2PDataType.code_injective h)
        rw [hrec.channel_other _ hcode, hs ty', Function.update_of_ne hty]
    obtain ⟨s₂, calls₂, hrun, hframes, hother, hacks⟩ := ih hs₁
    refine ⟨s₂, _, onDatagrams_cons honData hrun, ?_, ?_, ?_⟩
    · intro ty'
      have htail := hframes ty'
      rw [handled_append]
      by_cases hty : ty' = ty
      · subst hty
        rw [Function.update_self, hdone, List.map_append, List.append_assoc] at htail
        rw [hrec.handled_self, hreceive]
        exact htail
      · have hcode : ty'.code ≠ ty.code := fun h => hty (P2PDataType.code_injective h)
        rw [Function.update_of_ne hty] at htail
        rw [hrec.handled_other _ hcode, List.nil_append]
        exact htail
    · intro t ht
      rw [handled_append, hrec.handled_other t (ht ty).symm, hother t ht]
      rfl
    · rw [acks_append, hrec.acked, hacks, List.map_cons, ackOf_dataDatagram hmsg]
      rfl
  | @again n msg msgs ty back chunk hpos hback hmsg _ ih =>
    obtain ⟨s₁, calls₁, honData, hrec⟩ := onData_receives s (dataDatagram_isDatagram hmsg)
    have hreceive := hs.receive_again hpos hback chunk
    have hs₁ : Synced seg n s₁ := by
      intro ty'
      by_cases hcode : ty'.code = ty.code
      · rw [P2PDataType.code_injective hcode, hrec.channel_self, hreceive]
        exact hs ty
      · rw [hrec.channel_other _ hcode]
        exact hs ty'
    have hnone : ∀ t, handled t calls₁ = [] := by
      intro t
      by_cases hcode : t = ty.code
      · rw [hcode, hrec.handled_self, hreceive]
      · exact hrec.handled_other t hcode
    obtain ⟨s₂, calls₂, hrun, hframes, hother, hacks⟩ := ih hs₁
    refine ⟨s₂, _, onDatagrams_cons honData hrun, ?_, ?_, ?_⟩
    · intro ty'
      rw [handled_append, hnone, List.nil_append]
      exact hframes ty'
    · intro t ht
      rw [handled_append, hnone, List.nil_append]
      exact hother t ht
    · rw [acks_append, hrec.acked, hacks, List.map_cons, ackOf_dataDatagram hmsg]
      rfl

/-- **Reassembly inverts the encoder.** Whatever the commands, their data types, the cuts
between datagrams, the starting numbers, the interleaving and the repeats, each command is
handed to `handleFrame` once, in the order sent on its type, with its own header fields and
payload, and every datagram is acknowledged. -/
theorem onDatagrams_inverts_commands (seg : Segmentation sent) {msgs : List Buffer}
    (hd : Delivery seg (fun _ => 0) msgs) :
    ∃ s' calls, onDatagrams resetInboundSequencing msgs = .ok (s', calls) ∧
      (∀ t, handled t calls = (sentOn sent t).map SentFrame.frame) ∧
      acks calls = msgs.map ackOf := by
  obtain ⟨s', calls, hrun, hframes, hother, hacks⟩ := (synced_reset seg).onDatagrams hd
  refine ⟨s', calls, hrun, ?_, hacks⟩
  intro t
  by_cases ht : ∃ ty : P2PDataType, ty.code = t
  · obtain ⟨ty, rfl⟩ := ht
    have hty := hframes ty
    rw [seg.offset_zero, completed_zero, List.map_nil, List.nil_append] at hty
    rw [hty, Segmentation.packets, List.map_map]
    rfl
  · have hunused : sentOn sent t = [] := by
      rw [sentOn, List.map_eq_nil_iff, List.filter_eq_nil_iff]
      intro f _ hf
      exact ht ⟨f.1, by simpa using hf⟩
    rw [hunused, List.map_nil]
    exact hother t fun ty hty => ht ⟨ty, hty⟩

/-- A two-byte command on the DATA channel, sent in the clear. -/
def sampleFrame : SentFrame (fun data _ => data) where
  command := { commandType := 1003, body := .raw [7, 8] 1 0 (1, 0) 0 }
  bytes := [0x58, 0x5a, 0x59, 0x48, 0xeb, 0x03, 2, 0, 0, 0, 1, 0, 1, 0, 0, 0, 7, 8]
  built := rfl

/-- Its header and its two payload bytes in three datagrams, numbered across the wrap. -/
def sampleSegmentation : Segmentation [(P2PDataType.DATA, sampleFrame)] where
  chunks
    | .DATA => [sampleFrame.bytes.take 16, [7], [8]]
    | _ => []
  start _ := 65535
  covers ty := by cases ty <;> rfl
  clean ty i hi := by
    cases ty with
    | DATA =>
      refine cleanCut_cons.mpr ⟨?_, fun _ => cleanCut_nil _⟩
      match i, hi with
      | 0, _ => exact .inl rfl
      | 1, _ | 2, _ | 3, _ => exact .inr (by decide)
    | VIDEO | CONTROL | BINARY => exact cleanCut_nil _

theorem onDatagrams_inverts_commands_sample :
    ∃ s' calls,
      onDatagrams resetInboundSequencing
        [[0xf1, 0xd0, 0, 20, 0xd1, 0, 255, 255] ++ sampleFrame.bytes.take 16,
          [0xf1, 0xd0, 0, 5, 0xd1, 0, 0, 0, 7],
          [0xf1, 0xd0, 0, 20, 0xd1, 0, 255, 255] ++ sampleFrame.bytes.take 16,
          [0xf1, 0xd0, 0, 5, 0xd1, 0, 0, 1, 8]] = .ok (s', calls) ∧
      (∀ t, handled t calls =
        (sentOn [(P2PDataType.DATA, sampleFrame)] t).map SentFrame.frame) ∧
      acks calls = [[0xd1, 0, 0, 1, 255, 255], [0xd1, 0, 0, 1, 0, 0], [0xd1, 0, 0, 1, 255, 255],
        [0xd1, 0, 0, 1, 0, 1]] := by
  refine onDatagrams_inverts_commands sampleSegmentation ?_
  refine .next .DATA (by decide) rfl ?_
  refine .next .DATA (by decide) rfl ?_
  refine .again .DATA 1 (sampleFrame.bytes.take 16) (by decide) (by decide) ?_ ?_
  · rw [Segmentation.seqNo, Function.update_self, Function.update_self]
    have hseq : (65535 + (0 + 1 + 1 - 1 + 65536 - 1)) % 65536 = 65535 := by norm_num
    exact (congrArg (dataDatagram .DATA · (sampleFrame.bytes.take 16)) hseq).trans rfl
  refine .next .DATA (by decide) rfl ?_
  exact .done fun ty => by cases ty <;> rfl

end EufySdk.P2PSession
