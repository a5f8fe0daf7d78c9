import Mathlib.Tactic
import EufySdk.Transport.P2p.Segmentation

/-!
# Reassembly over a lossy, reordering channel

Any of a segmentation's datagrams may be lost, repeated or arrive out of order. The
frames `onData` hands over are still frames that were sent, as long as no datagram
arrives whose 16-bit number makes an old datagram look like the next one: one exactly
65535 positions (modulo 65536) behind the mark of its type.

Main definitions:

- `LossyDelivery` — datagrams arriving in any order, `admits` limiting each arrival by
  the position of the mark
- `ForwardBelow`, `NotAliased` — the limits
- `Held` — the invariant: what is pending, if anything, is what the datagram at the
  mark left pending
-/

namespace EufySdk.P2PSession

open Bytes Codec Framing

variable {encryptP2PData : Buffer → Buffer → Buffer}
  {sent : List (P2PDataType × SentFrame encryptP2PData)}

/-- The position of the mark after datagram `q` arrives: `q` unless it is read as a repeat. -/
def Segmentation.nextMark (seg : Segmentation sent) (ty : P2PDataType) (mark : Option ℕ)
    (q : ℕ) : Option ℕ :=
  if classify (mark.map (seg.seqNo ty)) (seg.seqNo ty q) = .repeated then mark else some q

/-- If datagram `q` begins within a payload, it does not begin with the magic word. -/
def Segmentation.NoMagicInside (seg : Segmentation sent) (ty : P2PDataType) (q : ℕ)
    (hq : q < (seg.chunks ty).length) : Prop :=
  pendingAt (seg.packets ty) (seg.offset ty q) ≠ none →
    Buf.subarray (seg.chunks ty)[q] 0 4 ≠ MAGIC_WORD

/-- Datagrams of a segmentation arriving in any order, some not at all and some repeatedly.
`mark ty` is the position of the datagram that last moved the type's sequence mark. -/
inductive LossyDelivery (seg : Segmentation sent) (admits : Option ℕ → ℕ → Prop) :
    (P2PDataType → Option ℕ) → List Buffer → Prop
  | done {mark : P2PDataType → Option ℕ} : LossyDelivery seg admits mark []
  | arrive {mark : P2PDataType → Option ℕ} {msg : Buffer} {msgs : List Buffer}
      (ty : P2PDataType) (q : ℕ) (hq : q < (seg.chunks ty).length)
      (hmsg : dataDatagram ty (seg.seqNo ty q) (seg.chunks ty)[q] = .ok msg)
      (hmagic : seg.NoMagicInside ty q hq) (hin : admits (mark ty) q)
      (rest : LossyDelivery seg admits
        (Function.update mark ty (seg.nextMark ty (mark ty) q)) msgs) :
      LossyDelivery seg admits mark (msg :: msgs)

/-- A jump ahead of the mark is shorter than half the sequence space. -/
def ForwardBelow (mark : Option ℕ) (q : ℕ) : Prop :=
  ∀ p, mark = some p → p < q → q - p < 0x8000

/-- An old datagram is not numbered like the one after the mark. -/
def NotAliased (mark : Option ℕ) (q : ℕ) : Prop :=
  ∀ p, mark = some p → q < p → (p - q) % 65536 ≠ 65535

/-! ## Placing a datagram against the mark -/

theorem classify_inOrder {prevSeq seqNo : ℕ} (h : classify (some prevSeq) seqNo = .inOrder) :
    seqAdvance prevSeq seqNo = 1 := by
  simp only [classify] at h
  split at h
  · cases h
  · split at h
    · cases h
    · split at h
      · cases h
      · split at h
        · cases h
        · omega

/-- A datagram read as the next one is the next one. -/
theorem Segmentation.eq_succ_of_inOrder (seg : Segmentation sent) {ty : P2PDataType} {p q : ℕ}
    (hclass : classify (some (seg.seqNo ty p)) (seg.seqNo ty q) = .inOrder)
    (hforward : ForwardBelow (some p) q) (halias : NotAliased (some p) q) : q = p + 1 := by
  have hadvance := classify_inOrder hclass
  simp only [seqAdvance, Segmentation.seqNo] at hadvance
  by_cases hlt : p < q
  · have hjump := hforward p rfl hlt
    omega
  · by_cases hback : q < p
    · have hnot := halias p rfl hback
      omega
    · omega

/-! ## What a datagram hands over -/

theorem Segmentation.completed_frames_subset (seg : Segmentation sent) {ty : P2PDataType}
    {o : ℕ} {before done : List (Packet dataFormat)}
    (h : completed (seg.packets ty) o = before ++ done) :
    done.map Packet.frame ⊆ (sentOn sent ty.code).map SentFrame.frame := by
  intro f hf
  obtain ⟨p, hp, rfl⟩ := List.mem_map.mp hf
  have hmem : p ∈ completed (seg.packets ty) o := by
    rw [h]
    exact List.mem_append_right _ hp
  obtain ⟨c, hc, rfl⟩ := List.mem_map.mp (completed_subset _ _ hmem)
  exact List.mem_map.mpr ⟨c, hc, rfl⟩

/-- What the datagram at position `p` leaves pending: nothing, or the frame that the stream
is inside of behind it. -/
def Segmentation.Held (seg : Segmentation sent) (ty : P2PDataType) (p : ℕ)
    (pending : Option (P2PDataFrameHeader × Buffer)) : Prop :=
  pending = none ∨ pending = pendingAt (seg.packets ty) (seg.offset ty (p + 1))

/-- A datagram that continues nothing: a frame begins with it, or it lies within a payload
and is passed over. -/
theorem Segmentation.feed_fresh (seg : Segmentation sent) {ty : P2PDataType} {q : ℕ}
    (hq : q < (seg.chunks ty).length) (hmagic : seg.NoMagicInside ty q hq) :
    (dataFormat.feed none (seg.chunks ty)[q]).1 ⊆ (sentOn sent ty.code).map SentFrame.frame ∧
      seg.Held ty q (dataFormat.feed none (seg.chunks ty)[q]).2 := by
  by_cases hnone : pendingAt (seg.packets ty) (seg.offset ty q) = none
  · obtain ⟨done, hdone, hfeed⟩ := seg.feed_chunk hq
    rw [hnone] at hfeed
    rw [hfeed]
    exact ⟨seg.completed_frames_subset hdone, .inr rfl⟩
  · have hscan : dataFormat.feed none (seg.chunks ty)[q] = ([], none) :=
      dataFormat.scan_of_parse_none (dataFormat_parse_none (hmagic hnone))
    rw [hscan]
    exact ⟨List.nil_subset _, .inl rfl⟩

/-- The datagram after the mark: the pending frame goes on where it was left. -/
theorem Segmentation.feed_held (seg : Segmentation sent) {ty : P2PDataType} {p : ℕ}
    (hq : p + 1 < (seg.chunks ty).length) (hmagic : seg.NoMagicInside ty (p + 1) hq)
    {pending : Option (P2PDataFrameHeader × Buffer)} (hheld : seg.Held ty p pending) :
    (dataFormat.feed pending (seg.chunks ty)[p + 1]).1 ⊆
        (sentOn sent ty.code).map SentFrame.frame ∧
      seg.Held ty (p + 1) (dataFormat.feed pending (seg.chunks ty)[p + 1]).2 := by
  rcases hheld with rfl | rfl
  · exact seg.feed_fresh hq hmagic
  · obtain ⟨done, hdone, hfeed⟩ := seg.feed_chunk hq
    rw [hfeed]
    exact ⟨seg.completed_frames_subset hdone, .inr rfl⟩

/-- The channels of a session after some of the datagrams have arrived. -/
def Tracked (seg : Segmentation sent) (mark : P2PDataType → Option ℕ) (s : Inbound) : Prop :=
  ∀ ty, (s.channel ty.code).lastSeq = (mark ty).map (seg.seqNo ty) ∧
    ((s.channel ty.code).pending = none ∨
      ∃ p, mark ty = some p ∧ seg.Held ty p (s.channel ty.code).pending)

theorem tracked_reset (seg : Segmentation sent) :
    Tracked seg (fun _ => none) resetInboundSequencing :=
  fun _ => ⟨rfl, .inl rfl⟩

/-- One arrival on its own channel. -/
theorem Tracked.receive {seg : Segmentation sent} {mark : P2PDataType → Option ℕ}
    {s : Inbound} (hs : Tracked seg mark s) {ty : P2PDataType} {q : ℕ}
    (hq : q < (seg.chunks ty).length) (hmagic : seg.NoMagicInside ty q hq)
    (hforward : ForwardBelow (mark ty) q) (halias : NotAliased (mark ty) q) :
    let r := (s.channel ty.code).receive (seg.seqNo ty q) (seg.chunks ty)[q]
    r.2 ⊆ (sentOn sent ty.code).map SentFrame.frame ∧
      r.1.lastSeq = (seg.nextMark ty (mark ty) q).map (seg.seqNo ty) ∧
      (r.1.pending = none ∨
        ∃ p, seg.nextMark ty (mark ty) q = some p ∧ seg.Held ty p r.1.pending) := by
  obtain ⟨hlast, hpending⟩ := hs ty
  have hfresh := seg.feed_fresh hq hmagic
  simp only [Channel.receive, hlast, Segmentation.nextMark]
  cases hclass : classify ((mark ty).map (seg.seqNo ty)) (seg.seqNo ty q) with
  | repeated =>
    simp only [if_true]
    exact ⟨List.nil_subset _, hlast, hpending⟩
  | inOrder =>
    simp only [reduceCtorEq, if_false]
    cases hmark : mark ty with
    | none =>
      -- the first datagram of the type: nothing can be pending
      have hnone : (s.channel ty.code).pending = none := by
        rcases hpending with hnone | ⟨p, hp, -⟩
        · exact hnone
        · rw [hmark] at hp
          cases hp
      rw [hnone]
      exact ⟨hfresh.1, rfl, .inr ⟨q, rfl, hfresh.2⟩⟩
    | some p =>
      rw [hmark] at hclass hforward halias hpending
      obtain rfl := seg.eq_succ_of_inOrder hclass hforward halias
      have hheld : seg.Held ty p (s.channel ty.code).pending := by
        rcases hpending with hnone | ⟨p', hp', hheld⟩
        · exact .inl hnone
        · cases hp'
          exact hheld
      have hnext := seg.feed_held hq hmagic hheld
      exact ⟨hnext.1, rfl, .inr ⟨p + 1, rfl, hnext.2⟩⟩
  | gap | restarted =>
    simp only [reduceCtorEq, if_false]
    exact ⟨hfresh.1, rfl, .inr ⟨q, rfl, hfresh.2⟩⟩

/-- Along a run, only frames that were sent on a type are handed over under it. -/
theorem Tracked.onDatagrams {seg : Segmentation sent} {mark : P2PDataType → Option ℕ}
    {msgs : List Buffer}
    (hd : LossyDelivery seg (fun m q => ForwardBelow m q ∧ NotAliased m q) mark msgs)
    {s : Inbound} (hs : Tracked seg mark s) :
    ∃ s' calls, P2PSession.onDatagrams s msgs = .ok (s', calls) ∧
      ∀ t, handled t calls ⊆ (sentOn sent t).map SentFrame.frame := by
  induction hd generalizing s with
  | done => exact ⟨s, [], rfl, fun _ => List.nil_subset _⟩
  | @arrive mark msg msgs ty q hq hmsg hmagic hin _ ih =>
    obtain ⟨s₁, calls₁, honData, hrec⟩ := onData_receives s (dataDatagram_isDatagram hmsg)
    obtain ⟨hsub, hlast, hheld⟩ := hs.receive hq hmagic hin.1 hin.2
    have hs₁ : Tracked seg (Function.update mark ty (seg.nextMark ty (mark ty) q)) s₁ := by
      intro ty'
      by_cases hty : ty' = ty
      · subst hty
        rw [hrec.channel_self, Function.update_self]
        exact ⟨hlast, hheld⟩
      · have hcode : ty'.code ≠ ty.code := fun h => hty (P2PDataType.code_injective h)
        rw [hrec.channel_other _ hcode, Function.update_of_ne hty]
        exact hs ty'
    obtain ⟨s₂, calls₂, hrun, hframes⟩ := ih hs₁
    refine ⟨s₂, _, onDatagrams_cons honData hrun, ?_⟩
    intro t
    rw [handled_append]
    refine List.append_subset.mpr ⟨?_, hframes t⟩
    by_cases ht : t = ty.code
    · rw [ht, hrec.handled_self]
      exact hsub
    · rw [hrec.handled_other t ht]
      exact List.nil_subset _

/-- **Reassembly never splices.** Whichever datagrams arrive, in whatever order and however
often, every frame handed over is byte for byte one that was sent on its data type, provided
forward jumps stay below half the sequence space and no old datagram is numbered like the
next one. -/
theorem onDatagrams_never_splices (seg : Segmentation sent) {msgs : List Buffer}
    (hd : LossyDelivery seg (fun m q => ForwardBelow m q ∧ NotAliased m q) (fun _ => none) msgs) :
    ∃ s' calls, onDatagrams resetInboundSequencing msgs = .ok (s', calls) ∧
      ∀ t, handled t calls ⊆ (sentOn sent t).map SentFrame.frame :=
  (tracked_reset seg).onDatagrams hd

/-- The third datagram of the sample lost and the first repeated after the second. -/
theorem onDatagrams_never_splices_sample :
    ∃ s' calls,
      onDatagrams resetInboundSequencing
        [[0xf1, 0xd0, 0, 20, 0xd1, 0, 255, 255] ++ sampleFrame.bytes.take 16,
          [0xf1, 0xd0, 0, 5, 0xd1, 0, 0, 1, 8]] = .ok (s', calls) ∧
      ∀ t, handled t calls ⊆ (sentOn [(P2PDataType.DATA, sampleFrame)] t).map SentFrame.frame := by
  refine onDatagrams_never_splices sampleSegmentation ?_
  refine .arrive .DATA 0 (by decide) rfl (fun h => absurd rfl h) ?_ ?_
  · exact ⟨fun p hp => (by cases hp), fun p hp => (by cases hp)⟩
  refine .arrive .DATA 2 (by decide) rfl (fun _ => by decide) ?_ .done
  constructor
  · intro p hp _
    cases hp
    decide
  · intro p hp hlt
    cases hp
    omega

/-! ## Why an aliased datagram is excluded -/

theorem Command.encode_ok {c : Command} (htype : c.commandType < 65536)
    (hlen : (c.body.data encryptP2PData).length < 65536) :
    c.encode encryptP2PData =
      .ok (c.head encryptP2PData ++ c.body.data encryptP2PData) := by
  rw [Command.encode, CommandBody.build_eq_raw, buildCommandHeader, buildRawCommandPayload]
  simp only [Buf.writeUInt16BE, Buf.writeUInt16LE, if_pos htype, if_pos hlen]
  rfl

/-- A raw command in the clear. -/
def rawFrame (commandType : ℕ) (data : Buffer) (htype : commandType < 65536)
    (hlen : data.length < 65536) : SentFrame (fun data _ => data) where
  command := { commandType, body := .raw data 0 0 (1, 0) 0 }
  bytes := _
  built := Command.encode_ok htype hlen

/-- The header bytes of a raw command. -/
def rawHead (commandType length : ℕ) : Buffer :=
  MAGIC_WORD ++ uint16LE commandType ++ uint16LE length ++ [0, 0, 1, 0, 0, 0, 0, 0]

theorem rawFrame_bytes (commandType : ℕ) (data : Buffer) (htype : commandType < 65536)
    (hlen : data.length < 65536) :
    (rawFrame commandType data htype hlen).bytes = rawHead commandType data.length ++ data :=
  rfl

/-- A frame with `n` payload bytes, one in each datagram, and a one-byte frame behind it. -/
def longFrame (n : ℕ) (hn : n < 65536) : SentFrame (fun data _ => data) :=
  rawFrame 1 (List.replicate n 1) (by decide) (by rwa [List.length_replicate])

def shortFrame : SentFrame (fun data _ => data) := rawFrame 2 [2] (by decide) (by decide)

def longChunks (n : ℕ) : List Buffer :=
  rawHead 1 n :: (List.replicate n [1] ++ [rawHead 2 1, [2]])

theorem flatten_replicate_one (k : ℕ) :
    (List.replicate k [(1 : UInt8)]).flatten = List.replicate k 1 := by
  induction k with
  | zero => rfl
  | succ k ih => rw [List.replicate_succ, List.flatten_cons, ih]; rfl

theorem length_longChunks (n : ℕ) : (longChunks n).length = n + 3 := by
  simp [longChunks]

/-- The stream offset behind the first `i` datagrams. -/
theorem length_take_longChunks (n i : ℕ) (hi : i ≤ n + 3) :
    ((longChunks n).take i).flatten.length =
      if i = 0 then 0 else if i ≤ n + 1 then 15 + i else if i = n + 2 then n + 32 else n + 33 := by
  match i with
  | 0 => rfl
  | i + 1 =>
    rw [longChunks, List.take_succ_cons, List.flatten_cons, List.length_append,
      List.take_append, List.take_replicate, List.flatten_append, flatten_replicate_one,
      List.length_append, List.length_replicate, List.length_replicate]
    have hhead : (rawHead 1 n).length = 16 := rfl
    rw [hhead, if_neg (by omega)]
    by_cases hle : i ≤ n
    · rw [if_pos (by omega), show i - n = 0 by omega, min_eq_left hle]
      simp
      omega
    · rw [if_neg (by omega), min_eq_right (by omega)]
      obtain rfl | rfl : i = n + 1 ∨ i = n + 2 := by omega
      · rw [if_pos rfl, Nat.add_sub_cancel_left]
        simp [rawHead, MAGIC_WORD]
        omega
      · rw [if_neg (by omega), Nat.add_sub_cancel_left]
        simp [rawHead, MAGIC_WORD]
        omega

def longSegmentation (n : ℕ) (hn : n < 65536) :
    Segmentation [(P2PDataType.DATA, longFrame n hn), (P2PDataType.DATA, shortFrame)] where
  chunks
    | .DATA => longChunks n
    | _ => []
  start _ := 0
  covers ty := by
    cases ty with
    | DATA =>
      change (longChunks n).flatten = [longFrame n hn, shortFrame].flatMap SentFrame.bytes
      rw [List.flatMap_cons, List.flatMap_singleton, longFrame, shortFrame, rawFrame_bytes,
        rawFrame_bytes, longChunks, List.flatten_cons, List.flatten_append, flatten_replicate_one,
        List.length_replicate, List.append_assoc]
      rfl
    | VIDEO | CONTROL | BINARY => rfl
  clean ty i hi := by
    cases ty with
    | DATA =>
      have hi' : i ≤ n + 3 := by rwa [← length_longChunks n]
      have hlen := length_take_longChunks n i hi'
      change CleanCut [(longFrame n hn).packet, shortFrame.packet]
        ((longChunks n).take i).flatten.length
      have hlong : (longFrame n hn).packet.bytes.length = n + 16 := by
        rw [Packet.length_bytes]
        change 16 + (List.replicate n _).length = _
        rw [List.length_replicate, Nat.add_comm]
      rw [hlen]
      refine cleanCut_cons.mpr ⟨?_, fun _ => cleanCut_cons.mpr ⟨?_, fun _ => cleanCut_nil _⟩⟩
      · change _ ∨ 16 ≤ _
        split_ifs <;> omega
      · rw [hlong]
        change _ ∨ 16 ≤ _
        split_ifs <;> omega
    | VIDEO | CONTROL | BINARY => exact cleanCut_nil _

theorem longChunks_short {n : ℕ} (h : n + 1 < (longChunks n).length) :
    (longChunks n)[n + 1] = rawHead 2 1 := by
  simp [longChunks]

theorem longChunks_one {n : ℕ} (hn : 0 < n) (h : 1 < (longChunks n).length) :
    (longChunks n)[1] = [1] := by
  simp [longChunks, hn]

/-- The short frame's header arrives, and then the long frame's first payload byte. -/
def aliasedDatagrams : List Buffer :=
  [[0xf1, 0xd0, 0, 20, 0xd1, 0, 0, 0] ++ rawHead 2 1, [0xf1, 0xd0, 0, 5, 0xd1, 0, 0, 1, 1]]

theorem onDatagrams_aliased :
    ∃ s', onDatagrams resetInboundSequencing aliasedDatagrams =
      .ok (s', [.ack [0xd1, 0, 0, 1, 0, 0], .ack [0xd1, 0, 0, 1, 0, 1],
        .handleFrame ⟨2, 1, 0, 0, 0⟩ [1] 0]) :=
  ⟨_, rfl⟩

/-- With 65535 payload bytes the second datagram is 65535 positions behind the first, which
only limits on forward jumps allow. -/
theorem aliasedDatagrams_delivery {n : ℕ} (hn : n < 65536) (hlong : n = 65535) :
    LossyDelivery (longSegmentation n hn) ForwardBelow (fun _ => none) aliasedDatagrams := by
  have hlen := length_longChunks n
  have hlongBytes : (longFrame n hn).packet.bytes.length = n + 16 := by
    rw [Packet.length_bytes]
    change 16 + (List.replicate n _).length = _
    rw [List.length_replicate, Nat.add_comm]
  refine .arrive .DATA (n + 1) (by change n + 1 < (longChunks n).length; omega) ?_ ?_ ?_ ?_
  · have hseq : (0 + (n + 1)) % 65536 = 0 := by omega
    have hat : n + 1 < (longChunks n).length := by omega
    change dataDatagram .DATA ((0 + (n + 1)) % 65536) (longChunks n)[n + 1] = _
    rw [hseq, longChunks_short]
    rfl
  · intro hinside
    refine absurd ?_ hinside
    change pendingAt [(longFrame n hn).packet, shortFrame.packet]
      ((longChunks n).take (n + 1)).flatten.length = none
    rw [length_take_longChunks n (n + 1) (by omega), if_neg (by omega), if_pos (by omega),
      pendingAt, hlongBytes, if_pos (by omega), show 15 + (n + 1) - (n + 16) = 0 by omega,
      pendingAt_zero]
  · intro p hp
    cases hp
  · refine .arrive .DATA 1 (by change 1 < (longChunks n).length; omega) ?_ ?_ ?_ .done
    · have hat : 1 < (longChunks n).length := by omega
      change dataDatagram .DATA ((0 + 1) % 65536) (longChunks n)[1] = _
      rw [longChunks_one (by omega)]
      rfl
    · intro _
      have hat : 1 < (longChunks n).length := by omega
      change Buf.subarray (longChunks n)[1] 0 4 ≠ MAGIC_WORD
      rw [longChunks_one (by omega)]
      decide
    · intro p hp hlt
      rw [Function.update_self] at hp
      have hnext : (longSegmentation n hn).nextMark .DATA none (n + 1) = some (n + 1) := rfl
      rw [hnext] at hp
      cases hp
      omega

/-- Without the limit on old numbers the header of one frame takes payload bytes of another:
the datagram 65535 positions behind the mark is read as the one after it. -/
theorem onDatagrams_splices_aliased :
    ¬∀ (encryptP2PData : Buffer → Buffer → Buffer)
      (sent : List (P2PDataType × SentFrame encryptP2PData)) (seg : Segmentation sent)
      (msgs : List Buffer), LossyDelivery seg ForwardBelow (fun _ => none) msgs →
      ∃ s' calls, onDatagrams resetInboundSequencing msgs = .ok (s', calls) ∧
        ∀ t, handled t calls ⊆ (sentOn sent t).map SentFrame.frame := by
  intro hclaim
  obtain ⟨s', calls, hrun, hframes⟩ :=
    hclaim _ _ _ _ (aliasedDatagrams_delivery (n := 65535) (by decide) rfl)
  obtain ⟨s'', hrun'⟩ := onDatagrams_aliased
  rw [hrun'] at hrun
  cases hrun
  have hmem := hframes 0 (List.mem_singleton_self _)
  obtain ⟨f, hf, heq⟩ := List.mem_map.mp hmem
  rcases List.mem_pair.mp hf with rfl | rfl
  · have hcommand := congrArg (fun r => r.1.commandId) heq
    exact absurd hcommand (by decide)
  · have hpayload := congrArg Prod.snd heq
    exact absurd hpayload (by decide)

end EufySdk.P2PSession
