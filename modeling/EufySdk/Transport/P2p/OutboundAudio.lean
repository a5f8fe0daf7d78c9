import Mathlib.Tactic
import EufySdk.Lib.Machine
import EufySdk.Transport.P2p.Dispatch
import EufySdk.Transport.P2p.Retransmission

/-!
# Outbound audio of a session

`sendAudioFrame`, the acknowledgements of the video data type and `armAudioRetransmit` of
`transport/p2p/p2p-session.ts`: a datagram is retained under its sequence number until it is
acknowledged, sent once more when it is due, and then given up. The session does not know the
datagrams but by their sequence numbers, which come round; here each has a number of its own
besides, and what happens to it is kept in a log.

- `AudioSession` — the fields outbound audio depends on
- `sendAudioFrame`, `onAck`, `sweep` — what is done with them
- `Sound`, `Stalls` — what holds behind every run, of the datagrams and of the reports
- `audio_exactly_once` — the runs of a session
-/

namespace EufySdk.OutboundAudio

open Bytes Codec LiveMap Machine OrderedMap

def AUDIO_RETRANSMIT_MS : ℕ := 700
def AUDIO_MAX_SENDS : ℕ := 2

inductive Cause
  | acknowledged
  | abandoned
  /-- A later datagram takes the sequence number. -/
  | overwritten (next : ℕ)
  deriving DecidableEq, Repr

inductive Event
  /-- A datagram goes out on the socket. -/
  | wire (number : ℕ) (data : Buffer)
  /-- A datagram is no longer retained. -/
  | left (number : ℕ) (cause : Cause)
  | audioGap (sequence : ℕ)
  /-- An acknowledgement that lists anything. -/
  | heard
  deriving DecidableEq, Repr

/-- A retained datagram, with its number among all of them. -/
structure AudioDatagram extends RetainedDatagram where
  number : ℕ
  deriving DecidableEq, Repr

/-- The fields a sweep does not go over. -/
structure AudioLine where
  connectAddress : Bool := false
  socket : Bool := false
  videoSeqNumber : ℕ := 0
  audioStalled : Bool := false
  /-- How many datagrams there have been. -/
  sent : ℕ := 0
  /-- What has happened, newest first. -/
  log : List Event := []
  deriving DecidableEq, Repr

structure AudioSession extends AudioLine where
  unackedAudio : List (ℕ × AudioDatagram) := []
  audioRetransmitTimer : Bool := false
  deriving DecidableEq, Repr

/-! ## Sending -/

/-- `send`, and whether it returns: a message too long for its length field throws. -/
def AudioLine.send (l : AudioLine) (number : ℕ) (data : Buffer) : AudioLine × Bool :=
  if !l.socket then (l, true)
  else
    match frameMessage RequestMessageType.DATA data with
    | .ok _ => ({ l with log := .wire number data :: l.log }, true)
    | .error _ => (l, false)

/-- The sixteen bytes ahead of a frame: its length, the channel, and zeros. -/
def audioSendHeader (channel : ℤ) (frame : Buffer) : Buffer :=
  uint32LE frame.length ++ uint32LE (channel % 2 ^ 32).toNat ++ List.replicate 8 0

def audioData (seq : ℕ) (channel : ℤ) (frame : Buffer) : Except Thrown Buffer := do
  let header ← buildCommandHeader seq P2PSession.CMD_AUDIO_FRAME (P2PDataTypeHeader .VIDEO)
  let payload ← buildRawCommandPayload (audioSendHeader channel frame ++ frame) channel 0 (1, 0) 0
  return header ++ payload

namespace AudioSession

/-- The datagram whose sequence number is taken, if one is retained under it. -/
def overwritten (s : AudioSession) : List Event :=
  match get s.unackedAudio s.videoSeqNumber with
  | some held => [.left held.number (.overwritten s.sent)]
  | none => []

/-- A datagram is retained under the next sequence number. -/
def retain (s : AudioSession) (data : Buffer) (now : ℕ) : AudioSession :=
  { s with
    videoSeqNumber := (s.videoSeqNumber + 1) % 65536
    sent := s.sent + 1
    log := s.overwritten ++ s.log
    unackedAudio := set s.unackedAudio s.videoSeqNumber ⟨⟨data, now, now, 1⟩, s.sent⟩
    audioRetransmitTimer := true }

/-- What it throws is left to its caller. -/
def sendAudioFrame (s : AudioSession) (channel : ℤ) (frame : Buffer) (now : ℕ) : AudioSession :=
  if !s.connectAddress then s
  else
    match audioData s.videoSeqNumber channel frame with
    | .error _ => s
    | .ok data =>
      { s.retain data now with toAudioLine := ((s.retain data now).send s.sent data).1 }

/-! ## Acknowledgements -/

/-- The sequence numbers that an acknowledgement of the video data type lists, and the count it
says. -/
def videoAck (msg : Buffer) : Except Thrown (Option (ℕ × List ℕ)) := do
  if msg.length < 8 ∨ msg[4]? ≠ some 0xd1 ∨ msg[5]? ≠ some P2PDataType.VIDEO.code then return none
  else
    let count ← Buf.readUInt16BEAt msg 6
    let sequences ← P2PSession.ackedSequences msg count 0
    return some (count, sequences)

def acknowledge (s : AudioSession) (count : ℕ) (sequences : List ℕ) : AudioSession :=
  let acked := s.unackedAudio.filter fun e => decide (e.1 ∈ sequences)
  { s with
    unackedAudio := s.unackedAudio.filter fun e => !decide (e.1 ∈ sequences)
    audioStalled := s.audioStalled && count = 0
    log := (if count = 0 then [] else [.heard]) ++
      (acked.map (fun e => Event.left e.2.number .acknowledged) ++ s.log) }

def onAck (s : AudioSession) (msg : Buffer) : AudioSession :=
  match videoAck msg with
  | .ok (some (count, sequences)) => s.acknowledge count sequences
  | _ => s

end AudioSession

/-- The session that routes a datagram does with its sequence numbers what is done here with the
datagrams under them. -/
theorem onAck_keys {p t : P2PSession.Session} {s : AudioSession} {msg : Buffer}
    {outputs : List P2PSession.Output} (hkeys : p.unackedAudio = s.unackedAudio.map Prod.fst)
    (hstalled : p.audioStalled = s.audioStalled)
    (h : P2PSession.onAck p msg = .ok (t, outputs)) :
    t.unackedAudio = (s.onAck msg).unackedAudio.map Prod.fst ∧
      t.audioStalled = (s.onAck msg).audioStalled := by
  have hnone (hother : msg.length < 8 ∨ msg[4]? ≠ some 0xd1 ∨
      msg[5]? ≠ some P2PDataType.VIDEO.code) : s.onAck msg = s := by
    rw [AudioSession.onAck, AudioSession.videoAck, if_pos hother]
    rfl
  rw [P2PSession.onAck] at h
  by_cases hheader : msg.length < 8 ∨ msg[4]? ≠ some 0xd1
  · rw [if_pos hheader] at h
    cases h
    rw [hnone (or_assoc.mp (.inl hheader))]
    exact ⟨hkeys, hstalled⟩
  rw [if_neg hheader] at h
  cases hcount : Buf.readUInt16BEAt msg 6 with
  | error e =>
    rw [hcount] at h
    cases h
  | ok count =>
    rw [hcount, ok_bind] at h
    by_cases hvideo : msg[5]? = some P2PDataType.VIDEO.code
    · have hdata : msg[5]? ≠ some P2PDataType.DATA.code := by
        rw [hvideo]
        decide
      rw [if_neg hdata, if_pos hvideo] at h
      cases hsequences : P2PSession.ackedSequences msg count 0 with
      | error e =>
        rw [hsequences] at h
        cases h
      | ok sequences =>
        rw [hsequences] at h
        cases h
        have hack : s.onAck msg = s.acknowledge count sequences := by
          rw [AudioSession.onAck, AudioSession.videoAck, if_neg (by simp_all), hcount, ok_bind,
            hsequences]
          rfl
        rw [hack, AudioSession.acknowledge]
        refine ⟨?_, congrArg (· && _) hstalled⟩
        dsimp only
        rw [hkeys, List.filter_map]
        exact congrArg _ (List.filter_congr fun e _ => by simp)
    · have hkept : t.unackedAudio = p.unackedAudio ∧ t.audioStalled = p.audioStalled := by
        split_ifs at h
        · cases hsequences : P2PSession.ackedSequences msg count 0 with
          | error e =>
            rw [hsequences] at h
            cases h
          | ok sequences =>
            rw [hsequences] at h
            cases h
            exact ⟨rfl, rfl⟩
        · cases h
          exact ⟨rfl, rfl⟩
      rw [hnone (.inr (.inr hvideo)), hkept.1, hkept.2]
      exact ⟨hkeys, hstalled⟩

/-! ## Repeating -/

/-- A datagram is given up, which is reported unless the channel is known to have stalled. -/
def AudioLine.abandon (l : AudioLine) (sequence : ℕ) (held : AudioDatagram) : AudioLine :=
  let l := { l with log := .left held.number .abandoned :: l.log }
  if l.audioStalled then l
  else { l with audioStalled := true, log := .audioGap sequence :: l.log }

def audioPolicy : RetransmitPolicy AudioLine AudioDatagram where
  retransmitMs := AUDIO_RETRANSMIT_MS
  datagram := AudioDatagram.toRetainedDatagram
  withDatagram held d := { held with toRetainedDatagram := d }
  spent held := AUDIO_MAX_SENDS ≤ held.sends
  onAbandoned := AudioLine.abandon
  resend l _ held := l.send held.number held.data

/-- A tick of the retransmission; nothing where its loop does not end. -/
def AudioSession.sweep (s : AudioSession) (now : ℕ) : Option AudioSession :=
  (retransmitUnacked audioPolicy s.connectAddress now s.toAudioLine s.unackedAudio).map fun r =>
    { toAudioLine := r.state
      unackedAudio := r.retained
      audioRetransmitTimer := s.audioRetransmitTimer && r.outstanding ≠ some false }

/-! ## Steps -/

inductive Label
  | sendAudioFrame (channel : ℤ) (frame : Buffer) (now : ℕ)
  | ack (msg : Buffer)
  | sweep (now : ℕ)
  deriving DecidableEq, Repr

def step (s : AudioSession) : Label → Option AudioSession
  | .sendAudioFrame channel frame now => some (s.sendAudioFrame channel frame now)
  | .ack msg => some (s.onAck msg)
  | .sweep now => if s.audioRetransmitTimer then s.sweep now else none

/-! ## What a log says -/

def Event.leaver : Event → Option ℕ
  | .left number _ => some number
  | _ => none

def Event.packetOf (number : ℕ) : Event → Option Buffer
  | .wire n data => if n = number then some data else none
  | _ => none

/-- What has gone out of a datagram. -/
def packets (number : ℕ) (log : List Event) : List Buffer := log.filterMap (Event.packetOf number)

/-- The datagrams that are no longer retained. -/
def leavers (log : List Event) : List ℕ := log.filterMap Event.leaver

theorem packets_wire_self (number : ℕ) (data : Buffer) (log : List Event) :
    packets number (.wire number data :: log) = data :: packets number log :=
  List.filterMap_cons_some (if_pos rfl)

theorem packets_wire_ne {number n : ℕ} (data : Buffer) (log : List Event) (h : number ≠ n) :
    packets n (.wire number data :: log) = packets n log :=
  List.filterMap_cons_none (if_neg h)

/-- Datagrams that leave are no longer retained, and nothing goes out of them. -/
theorem log_left_map (m : List (ℕ × AudioDatagram)) (cause : Cause) (log : List Event) :
    leavers (m.map (fun e => Event.left e.2.number cause) ++ log) =
        m.map (fun e => e.2.number) ++ leavers log ∧
      ∀ n, packets n (m.map (fun e => Event.left e.2.number cause) ++ log) = packets n log := by
  induction m with
  | nil => exact ⟨rfl, fun _ => rfl⟩
  | cons e m ih => exact ⟨congrArg (e.2.number :: ·) ih.1, ih.2⟩

def Event.isHeard : Event → Bool
  | .heard => true
  | _ => false

def Event.isAbandoned : Event → Bool
  | .left _ .abandoned => true
  | _ => false

def Event.isGap : Event → Bool
  | .audioGap _ => true
  | _ => false

/-- What has happened since the device was last heard of. -/
def episode (log : List Event) : List Event := log.takeWhile (!·.isHeard)

/-! ## Reports -/

/-- A stall is on where a datagram has been given up since the device was last heard of, and then
one gap has been reported. -/
structure Stalls (l : AudioLine) : Prop where
  stalled : l.audioStalled = (episode l.log).any Event.isAbandoned
  gaps : (episode l.log).countP Event.isGap = if l.audioStalled then 1 else 0

namespace Stalls

variable {l : AudioLine}

/-- Events that are neither reports nor given up datagrams do not matter. -/
theorem quiet (h : Stalls l) (events : List Event) {log : List Event} (hlog : log = events ++ l.log)
    (hquiet : ∀ e ∈ events, e.isHeard = false ∧ e.isAbandoned = false ∧ e.isGap = false) :
    Stalls { l with log } := by
  have hepisode : episode log = events ++ episode l.log := by
    rw [hlog, episode, List.takeWhile_append_of_pos fun e he => by rw [(hquiet e he).1]; rfl]
    rfl
  have hnone : events.any Event.isAbandoned = false :=
    List.any_eq_false.mpr fun e he => Bool.eq_false_iff.mp (hquiet e he).2.1
  have hzero : events.countP Event.isGap = 0 :=
    List.countP_eq_zero.mpr fun e he => Bool.eq_false_iff.mp (hquiet e he).2.2
  constructor
  · change l.audioStalled = (episode log).any _
    rw [h.stalled, hepisode, List.any_append, hnone, Bool.false_or]
  · change (episode log).countP _ = if l.audioStalled then 1 else 0
    rw [← h.gaps, hepisode, List.countP_append, hzero, Nat.zero_add]

theorem abandon (h : Stalls l) (sequence : ℕ) (held : AudioDatagram) :
    Stalls (l.abandon sequence held) := by
  obtain ⟨-, hgaps⟩ := h
  rw [AudioLine.abandon]
  dsimp only
  cases hflag : l.audioStalled with
  | true =>
    rw [hflag] at hgaps
    rw [if_pos rfl]
    exact ⟨rfl, hgaps⟩
  | false =>
    -- the first one given up since the device was heard of
    rw [hflag] at hgaps
    rw [if_neg Bool.false_ne_true]
    refine ⟨rfl, ?_⟩
    change (.audioGap sequence :: .left held.number .abandoned :: episode l.log).countP
      Event.isGap = 1
    rw [List.countP_cons_of_pos rfl, List.countP_cons_of_neg Bool.false_ne_true, hgaps]
    rfl

theorem send (h : Stalls l) (number : ℕ) (data : Buffer) : Stalls (l.send number data).1 := by
  rw [AudioLine.send]
  split_ifs
  · exact h
  · split
    · refine h.quiet [.wire number data] rfl fun e he => ?_
      rw [List.mem_singleton.mp he]
      exact ⟨rfl, rfl, rfl⟩
    · exact h

end Stalls

/-! ## Datagrams -/

/-- What is retained of a datagram, and what has gone out of it. -/
structure Retained (log : List Event) (held : AudioDatagram) : Prop where
  sends : held.sends ≤ AUDIO_MAX_SENDS
  packets : ∃ k ≤ held.sends, packets held.number log = List.replicate k held.data

/-- The invariant of the datagrams, from the sequence number of the first on: each is retained or
has left, once; it has gone out twice at most, as the same bytes; and it is retained under its own
sequence number until that comes round. -/
structure Sound (first : ℕ) (l : AudioLine) (m : List (ℕ × AudioDatagram)) : Prop where
  keys : (m.map Prod.fst).Nodup
  once : (m.map (fun e => e.2.number) ++ leavers l.log).Perm (List.range l.sent)
  retained : ∀ e ∈ m, Retained l.log e.2
  packets : ∀ n, ∃ data k, k ≤ AUDIO_MAX_SENDS ∧ packets n l.log = List.replicate k data
  unsent : ∀ n, l.sent ≤ n → OutboundAudio.packets n l.log = []
  sequence : l.videoSeqNumber = (first + l.sent) % 65536
  sequences : ∀ e ∈ m, e.1 = (first + e.2.number) % 65536
  recent : ∀ e ∈ m, l.sent ≤ e.2.number + 65536
  overwritten : ∀ n next, Event.left n (.overwritten next) ∈ l.log → next = n + 65536

namespace Sound

variable {first : ℕ} {l : AudioLine} {m : List (ℕ × AudioDatagram)}

theorem nodup_numbers (h : Sound first l m) : (m.map fun e => e.2.number).Nodup :=
  (List.nodup_append.mp (h.once.nodup_iff.mpr List.nodup_range)).1

theorem number_lt (h : Sound first l m) {e : ℕ × AudioDatagram} (he : e ∈ m) :
    e.2.number < l.sent := by
  have hmem : e.2.number ∈ m.map (fun e => e.2.number) ++ leavers l.log :=
    List.mem_append_left _ (List.mem_map.mpr ⟨e, he, rfl⟩)
  exact List.mem_range.mp (h.once.mem_iff.mp hmem)

theorem eq_of_number (h : Sound first l m) {e f : ℕ × AudioDatagram} (he : e ∈ m) (hf : f ∈ m)
    (heq : f.2.number = e.2.number) : f = e :=
  List.inj_on_of_nodup_map h.nodup_numbers hf he heq

/-- A log that says the same of the datagrams. -/
theorem of_log (h : Sound first l m) (stalled : Bool) {log : List Event}
    (hleavers : leavers log = leavers l.log)
    (hpackets : ∀ n, OutboundAudio.packets n log = OutboundAudio.packets n l.log)
    (hover : ∀ n next, Event.left n (.overwritten next) ∈ log →
      Event.left n (.overwritten next) ∈ l.log) :
    Sound first { l with audioStalled := stalled, log } m := by
  refine { h with once := ?_, retained := ?_, packets := ?_, unsent := ?_, overwritten := ?_ }
  · rw [hleavers]
    exact h.once
  · intro e he
    refine ⟨(h.retained e he).sends, ?_⟩
    rw [hpackets]
    exact (h.retained e he).packets
  · intro n
    rw [hpackets]
    exact h.packets n
  · intro n hn
    rw [hpackets]
    exact h.unsent n hn
  · exact fun n next hmem => h.overwritten n next (hover n next hmem)

/-- A datagram goes out that has gone out less often than it was sent. -/
theorem wire (h : Sound first l m) {e : ℕ × AudioDatagram} (he : e ∈ m) {k : ℕ}
    (hk : k < e.2.sends) (hgone : OutboundAudio.packets e.2.number l.log = List.replicate k e.2.data) :
    Sound first { l with log := .wire e.2.number e.2.data :: l.log } m := by
  have hsame : OutboundAudio.packets e.2.number (.wire e.2.number e.2.data :: l.log) =
      List.replicate (k + 1) e.2.data := by
    rw [packets_wire_self, hgone, List.replicate_succ]
  have hother {n : ℕ} (hn : e.2.number ≠ n) :
      OutboundAudio.packets n (.wire e.2.number e.2.data :: l.log) =
        OutboundAudio.packets n l.log := packets_wire_ne e.2.data l.log hn
  have hsends := (h.retained e he).sends
  refine { h with retained := ?_, packets := ?_, unsent := ?_, overwritten := ?_ }
  · intro f hf
    refine ⟨(h.retained f hf).sends, ?_⟩
    by_cases heq : f.2.number = e.2.number
    · rw [h.eq_of_number he hf heq, hsame]
      exact ⟨k + 1, hk, rfl⟩
    · rw [hother (Ne.symm heq)]
      exact (h.retained f hf).packets
  · intro n
    by_cases heq : e.2.number = n
    · rw [← heq, hsame]
      exact ⟨e.2.data, k + 1, by omega, rfl⟩
    · rw [hother heq]
      exact h.packets n
  · intro n hn
    have hlt := h.number_lt he
    rw [hother (by dsimp only at hn; omega)]
    exact h.unsent n hn
  · intro n next hmem
    rcases List.mem_cons.mp hmem with heq | hbefore
    · cases heq
    · exact h.overwritten n next hbefore

theorem perm (h : Sound first l m) {m' : List (ℕ × AudioDatagram)} (hperm : m.Perm m') :
    Sound first l m' where
  keys := (hperm.map Prod.fst).nodup_iff.mp h.keys
  once := ((hperm.map fun e => e.2.number).symm.append_right (leavers l.log)).trans h.once
  retained := fun e he => h.retained e (hperm.mem_iff.mpr he)
  packets := h.packets
  unsent := h.unsent
  sequence := h.sequence
  sequences := fun e he => h.sequences e (hperm.mem_iff.mpr he)
  recent := fun e he => h.recent e (hperm.mem_iff.mpr he)
  overwritten := h.overwritten

/-- Datagrams leave; one whose number is taken leaves when it comes round. -/
theorem leave (h : Sound first l m) (gone : List (ℕ × AudioDatagram))
    {kept : List (ℕ × AudioDatagram)} (cause : Cause) (hperm : (gone ++ kept).Perm m)
    (hcause : ∀ e ∈ gone, ∀ next, cause = .overwritten next → next = e.2.number + 65536) :
    Sound first { l with log := gone.map (fun e => Event.left e.2.number cause) ++ l.log } kept := by
  obtain ⟨hleavers, hpackets⟩ := log_left_map gone cause l.log
  have hall := h.perm hperm.symm
  have hmem {e : ℕ × AudioDatagram} (he : e ∈ kept) : e ∈ gone ++ kept :=
    List.mem_append_right gone he
  constructor
  · have hkeys := hall.keys
    rw [List.map_append] at hkeys
    exact (List.nodup_append.mp hkeys).2.1
  · have honce := hall.once
    dsimp only
    rw [hleavers]
    rw [List.map_append, List.append_assoc] at honce
    exact ((List.perm_append_comm_assoc _ _ _).trans honce)
  · intro e he
    refine ⟨(hall.retained e (hmem he)).sends, ?_⟩
    rw [hpackets]
    exact (hall.retained e (hmem he)).packets
  · intro n
    rw [hpackets]
    exact h.packets n
  · intro n hn
    rw [hpackets]
    exact h.unsent n hn
  · exact h.sequence
  · exact fun e he => hall.sequences e (hmem he)
  · exact fun e he => hall.recent e (hmem he)
  · intro n next hmem
    rcases List.mem_append.mp hmem with hnow | hbefore
    · obtain ⟨e, he, heq⟩ := List.mem_map.mp hnow
      obtain ⟨rfl, rfl⟩ := Event.left.inj heq
      exact hcause e he next rfl
    · exact h.overwritten n next hbefore

/-- The next datagram comes in, under a sequence number that is free. -/
theorem enter (h : Sound first l m) (data : Buffer) (now : ℕ)
    (hfree : l.videoSeqNumber ∉ m.map Prod.fst) (hrecent : ∀ e ∈ m, l.sent < e.2.number + 65536) :
    Sound first { l with videoSeqNumber := (l.videoSeqNumber + 1) % 65536, sent := l.sent + 1 }
      ((l.videoSeqNumber, ⟨⟨data, now, now, 1⟩, l.sent⟩) :: m) := by
  constructor
  · exact List.nodup_cons.mpr ⟨hfree, h.keys⟩
  · rw [List.map_cons, List.cons_append, List.range_succ]
    exact (h.once.cons l.sent).trans (List.perm_append_singleton l.sent _).symm
  · rw [List.forall_mem_cons]
    exact ⟨⟨(by decide : 1 ≤ AUDIO_MAX_SENDS), 0, Nat.zero_le _, h.unsent l.sent le_rfl⟩, h.retained⟩
  · exact h.packets
  · exact fun n hn => h.unsent n (Nat.le_of_succ_le hn)
  · have hsequence := h.sequence
    dsimp only
    omega
  · rw [List.forall_mem_cons]
    exact ⟨h.sequence, h.sequences⟩
  · rw [List.forall_mem_cons]
    exact ⟨by dsimp only; omega, hrecent⟩
  · exact h.overwritten

/-- A datagram that is sent once more goes behind the others. -/
theorem again (h : Sound first l m) {e : ℕ × AudioDatagram} (he : e ∈ m)
    (hsends : e.2.sends < AUDIO_MAX_SENDS) (now : ℕ) :
    Sound first l (delete m e.1 ++ [(e.1, audioPolicy.again now e.2)]) := by
  have hothers := cons_delete_perm (k := e.1) (v := e.2) h.keys he
  have hall := h.perm hothers.symm
  have hmoved := List.perm_append_singleton (e.1, audioPolicy.again now e.2) (delete m e.1)
  have hfirst := hall.retained e List.mem_cons_self
  refine Sound.perm ?_ hmoved.symm
  constructor
  · exact hall.keys
  · exact hall.once
  · rw [List.forall_mem_cons]
    obtain ⟨k, hk, hgone⟩ := hfirst.packets
    refine ⟨⟨hsends, k, hk.trans (Nat.le_succ _), hgone⟩, fun f hf => ?_⟩
    exact hall.retained f (List.mem_cons_of_mem e hf)
  · exact h.packets
  · exact h.unsent
  · exact h.sequence
  · rw [List.forall_mem_cons]
    exact ⟨h.sequences e he, fun f hf => hall.sequences f (List.mem_cons_of_mem e hf)⟩
  · rw [List.forall_mem_cons]
    exact ⟨h.recent e he, fun f hf => hall.recent f (List.mem_cons_of_mem e hf)⟩
  · exact h.overwritten

theorem send (h : Sound first l m) {e : ℕ × AudioDatagram} (he : e ∈ m) {k : ℕ}
    (hk : k < e.2.sends)
    (hgone : OutboundAudio.packets e.2.number l.log = List.replicate k e.2.data) :
    Sound first (l.send e.2.number e.2.data).1 m := by
  rw [AudioLine.send]
  split_ifs
  · exact h
  · split
    · exact h.wire he hk hgone
    · exact h

end Sound

/-! ## What holds behind every run -/

/-- The datagrams and the reports of a session. -/
structure Holds (first : ℕ) (l : AudioLine) (m : List (ℕ × AudioDatagram)) : Prop where
  sound : Sound first l m
  stalls : Stalls l

namespace Holds

variable {first : ℕ} {l : AudioLine} {m : List (ℕ × AudioDatagram)} {s t : AudioSession}

theorem abandon (h : Holds first l m) {e : ℕ × AudioDatagram} (he : e ∈ m) :
    Holds first (l.abandon e.1 e.2) (delete m e.1) := by
  refine ⟨?_, h.stalls.abandon e.1 e.2⟩
  have hleft := h.sound.leave [e] .abandoned
    (cons_delete_perm (k := e.1) (v := e.2) h.sound.keys he) (fun _ _ _ hcause => nomatch hcause)
  rw [AudioLine.abandon]
  dsimp only
  split_ifs
  · exact hleft
  · exact hleft.of_log true rfl (fun _ => rfl) fun n next hmem =>
      (List.mem_cons.mp hmem).resolve_left fun heq => nomatch heq

/-- A turn of a sweep. -/
theorem turn {now : ℕ} {e : ℕ × AudioDatagram} {c : Cursor ℕ AudioDatagram}
    {rest : List (ℕ × AudioDatagram)} (hahead : c.ahead = e :: rest) (h : Holds first l c.entries) :
    Holds first (audioPolicy.turn now l e (c.pass e rest)).state
      (audioPolicy.turn now l e (c.pass e rest)).cursor.entries := by
  have he : e ∈ c.entries := by
    rw [Cursor.entries, hahead]
    exact List.mem_append_right _ List.mem_cons_self
  rw [RetransmitPolicy.turn]
  split_ifs with hdue hspent
  · dsimp only
    rw [Cursor.entries_delete, Cursor.entries_pass hahead]
    exact h.abandon he
  · have hentries : (((c.pass e rest).delete e.1).set e.1 (audioPolicy.again now e.2)).entries =
        delete c.entries e.1 ++ [(e.1, audioPolicy.again now e.2)] := by
      rw [← Cursor.entries_pass hahead, ← Cursor.entries_delete, Cursor.delete_set]
      exact (List.append_assoc _ _ _).symm
    have hroom : e.2.sends < AUDIO_MAX_SENDS := not_le.mp fun h => hspent (decide_eq_true h)
    have hagain := h.sound.again he hroom now
    obtain ⟨k, hk, hgone⟩ := (h.sound.retained e he).packets
    dsimp only
    rw [hentries]
    refine ⟨?_, h.stalls.send e.2.number e.2.data⟩
    have hlast : (e.1, audioPolicy.again now e.2) ∈
        delete c.entries e.1 ++ [(e.1, audioPolicy.again now e.2)] :=
      List.mem_append_right _ List.mem_cons_self
    have hsent := hagain.send hlast (Nat.lt_succ_of_le hk) hgone
    exact hsent
  · dsimp only
    rw [Cursor.entries_pass hahead]
    exact h

theorem sweep {now : ℕ} (h : Holds first s.toAudioLine s.unackedAudio)
    (hsweep : s.sweep now = some t) : Holds first t.toAudioLine t.unackedAudio := by
  obtain ⟨r, hr, rfl⟩ := Option.map_eq_some_iff.mp hsweep
  rw [retransmitUnacked] at hr
  split_ifs at hr
  · obtain rfl := Option.some.inj hr
    exact h
  · obtain ⟨turned, hturned, rfl⟩ := Option.map_eq_some_iff.mp hr
    exact iterate_invariant (fun l c => Holds first l c.entries)
      (fun _ _ _ _ hahead hkeep => turn hahead hkeep) h hturned

theorem acknowledge (h : Holds first s.toAudioLine s.unackedAudio) (count : ℕ)
    (sequences : List ℕ) :
    Holds first (s.acknowledge count sequences).toAudioLine
      (s.acknowledge count sequences).unackedAudio := by
  have hleft := h.sound.leave (s.unackedAudio.filter fun e => decide (e.1 ∈ sequences))
    .acknowledged (List.filter_append_perm _ _) (fun _ _ _ hcause => nomatch hcause)
  rw [AudioSession.acknowledge]
  dsimp only
  by_cases hcount : count = 0
  · rw [if_pos hcount, decide_eq_true hcount, Bool.and_true]
    refine ⟨hleft.of_log _ rfl (fun _ => rfl) fun _ _ hmem => hmem, ?_⟩
    refine h.stalls.quiet _ rfl fun e he => ?_
    obtain ⟨_, -, rfl⟩ := List.mem_map.mp he
    exact ⟨rfl, rfl, rfl⟩
  · rw [if_neg hcount, decide_eq_false hcount, Bool.and_false]
    refine ⟨?_, ⟨rfl, rfl⟩⟩
    exact hleft.of_log false rfl (fun _ => rfl) fun n next hmem =>
      (List.mem_cons.mp hmem).resolve_left fun heq => nomatch heq

/-- The datagram whose sequence number is taken leaves, and it is the one 65536 before. -/
theorem overwrite (h : Holds first s.toAudioLine s.unackedAudio) :
    Holds first { s.toAudioLine with log := s.overwritten ++ s.log }
        (delete s.unackedAudio s.videoSeqNumber) ∧
      ∀ e ∈ delete s.unackedAudio s.videoSeqNumber, s.sent < e.2.number + 65536 := by
  -- no other can have come round: only one number of the last 65536 has this sequence number
  have hround {e : ℕ × AudioDatagram} (he : e ∈ s.unackedAudio) :
      e.1 = s.videoSeqNumber ↔ s.sent = e.2.number + 65536 := by
    have hsequence := h.sound.sequence
    have hown := h.sound.sequences e he
    have hlt := h.sound.number_lt he
    have hrecent := h.sound.recent e he
    omega
  refine ⟨?_, fun e he => ?_⟩
  · rw [AudioSession.overwritten]
    cases hget : get s.unackedAudio s.videoSeqNumber with
    | none =>
      have hfree : delete s.unackedAudio s.videoSeqNumber = s.unackedAudio := by
        refine List.filter_eq_self.mpr fun e he => decide_eq_true fun heq => ?_
        have hfound := get_of_mem (k := e.1) (v := e.2) h.sound.keys he
        rw [heq, hget] at hfound
        cases hfound
      rw [hfree]
      exact h
    | some held =>
      have hmem := mem_of_get hget
      refine ⟨h.sound.leave [(s.videoSeqNumber, held)] (.overwritten s.sent)
        (cons_delete_perm h.sound.keys hmem) ?_, h.stalls.quiet _ rfl ?_⟩
      · intro e he next hnext
        obtain rfl := List.mem_singleton.mp he
        cases hnext
        exact (hround hmem).mp rfl
      · intro e he
        rw [List.mem_singleton.mp he]
        exact ⟨rfl, rfl, rfl⟩
  · obtain ⟨hmem, hne⟩ := List.mem_filter.mp he
    have hrecent := h.sound.recent e hmem
    have hother := mt (hround hmem).mpr (of_decide_eq_true hne)
    omega

theorem sendAudioFrame (h : Holds first s.toAudioLine s.unackedAudio) (channel : ℤ)
    (frame : Buffer) (now : ℕ) :
    Holds first (s.sendAudioFrame channel frame now).toAudioLine
      (s.sendAudioFrame channel frame now).unackedAudio := by
  rw [AudioSession.sendAudioFrame]
  split_ifs
  · exact h
  · split
    · exact h
    · rename_i data _
      obtain ⟨hfreed, hrecent⟩ := h.overwrite
      have hfree : s.videoSeqNumber ∉ (delete s.unackedAudio s.videoSeqNumber).map Prod.fst := by
        rw [keys_delete]
        exact fun hmem => of_decide_eq_true (List.mem_filter.mp hmem).2 rfl
      have hin := (hfreed.sound.enter data now hfree hrecent).perm (set_perm _ _ h.sound.keys).symm
      have hnew : (s.videoSeqNumber, (⟨⟨data, now, now, 1⟩, s.sent⟩ : AudioDatagram)) ∈
          set s.unackedAudio s.videoSeqNumber ⟨⟨data, now, now, 1⟩, s.sent⟩ :=
        (set_perm _ _ h.sound.keys).mem_iff.mpr List.mem_cons_self
      have hsent := hin.send hnew Nat.one_pos (hfreed.sound.unsent s.sent le_rfl)
      have hstalls : Stalls (s.retain data now).toAudioLine :=
        ⟨hfreed.stalls.stalled, hfreed.stalls.gaps⟩
      exact ⟨hsent, hstalls.send s.sent data⟩

theorem step {label : Label} (h : Holds first s.toAudioLine s.unackedAudio)
    (hstep : OutboundAudio.step s label = some t) : Holds first t.toAudioLine t.unackedAudio := by
  cases label with
  | sendAudioFrame channel frame now =>
    obtain rfl := Option.some.inj hstep
    exact h.sendAudioFrame channel frame now
  | ack msg =>
    obtain rfl := Option.some.inj hstep
    rw [AudioSession.onAck]
    split
    · exact h.acknowledge _ _
    · exact h
  | sweep now =>
    rw [OutboundAudio.step] at hstep
    split_ifs at hstep
    exact h.sweep hstep

end Holds

/-- A session that has sent no audio. -/
structure AudioSession.Idle (s : AudioSession) : Prop where
  sequence : s.videoSeqNumber < 65536
  stalled : s.audioStalled = false
  sent : s.sent = 0
  log : s.log = []
  unacked : s.unackedAudio = []

theorem AudioSession.Idle.holds {s : AudioSession} (h : s.Idle) :
    Holds s.videoSeqNumber s.toAudioLine s.unackedAudio := by
  obtain ⟨hsequence, hstalled, hsent, hlog, hunacked⟩ := h
  rw [hunacked]
  constructor
  · constructor
    · exact List.nodup_nil
    · rw [hlog, hsent]
      exact .refl _
    · exact fun e he => nomatch he
    · intro n
      rw [hlog]
      exact ⟨[], 0, Nat.zero_le _, rfl⟩
    · intro n _
      rw [hlog]
      rfl
    · rw [hsent, Nat.add_zero, Nat.mod_eq_of_lt hsequence]
    · exact fun e he => nomatch he
    · exact fun e he => nomatch he
    · intro n next hmem
      rw [hlog] at hmem
      cases hmem
  · constructor
    · rw [hlog, hstalled]
      rfl
    · rw [hlog, hstalled]
      rfl

theorem audioPolicy_lawful : audioPolicy.Lawful := ⟨by decide, fun _ _ => rfl⟩

/-- **Every audio datagram is accounted for once.** Behind every run of sends, acknowledgements and
sweeps each datagram has gone out twice at most, both times as the same bytes, and is either
retained or has left, once: acknowledged, given up, or because the one 65536 behind it took its
sequence number. While a datagram has been given up and the device was not heard of since, one gap
has been reported. And every sweep ends. -/
theorem audio_exactly_once {s₀ s : AudioSession} {ls : List Label} (hidle : s₀.Idle)
    (h : exec step s₀ ls = some s) :
    (∀ n, ∃ data k, k ≤ AUDIO_MAX_SENDS ∧ packets n s.log = List.replicate k data) ∧
      (s.unackedAudio.map (fun e => e.2.number) ++ leavers s.log).Perm (List.range s.sent) ∧
      (∀ n next, Event.left n (.overwritten next) ∈ s.log → next = n + 65536) ∧
      (episode s.log).countP Event.isGap =
        (if (episode s.log).any Event.isAbandoned then 1 else 0) ∧
      ∀ now, (s.sweep now).isSome := by
  have hholds : Holds s₀.videoSeqNumber s.toAudioLine s.unackedAudio :=
    (run_of_exec h).invariant
      (P := fun s => Holds s₀.videoSeqNumber s.toAudioLine s.unackedAudio) hidle.holds
      fun _ _ _ hkeep hstep => hkeep.step hstep
  refine ⟨hholds.sound.packets, hholds.sound.once, hholds.sound.overwritten, ?_, fun now => ?_⟩
  · rw [hholds.stalls.gaps, hholds.stalls.stalled]
  · rw [AudioSession.sweep, Option.isSome_map]
    exact retransmitUnacked_isSome audioPolicy_lawful _ now _ _

/-! ## Runs -/

/-- A session that is connected. -/
def connected : AudioSession := { connectAddress := true, socket := true }

theorem idle_connected : connected.Idle := ⟨by decide, rfl, rfl, rfl, rfl⟩

/-- A datagram that is acknowledged late, one that is given up, and one that is sent once more. -/
def noisyAudio : List Label :=
  [.sendAudioFrame 2 [0xff, 0xf1] 0, .sendAudioFrame 2 [] 64, .sweep 700,
    .ack [0xf1, 0xd1, 0, 6, 0xd1, 1, 0, 1, 0, 0], .sendAudioFrame 2 [] 900, .sweep 1500,
    .sweep 2300]

theorem audio_exactly_once_noisy :
    (exec step connected noisyAudio).map (fun s => (leavers s.log, s.sent, s.audioStalled)) =
        some ([1, 0], 3, true) ∧
      ∀ s, exec step connected noisyAudio = some s →
        (episode s.log).countP Event.isGap =
          if (episode s.log).any Event.isAbandoned then 1 else 0 :=
  ⟨by decide +kernel, fun _ h => (audio_exactly_once idle_connected h).2.2.2.1⟩

theorem audioData_ok {seq : ℕ} (h : seq < 65536) : ∃ data, audioData seq 0 [] = .ok data := by
  have hheader : buildCommandHeader seq P2PSession.CMD_AUDIO_FRAME (P2PDataTypeHeader .VIDEO) =
      .ok (P2PDataTypeHeader .VIDEO ++ uint16BE seq ++ MAGIC_WORD ++
        uint16LE P2PSession.CMD_AUDIO_FRAME) := by
    rw [buildCommandHeader, Buf.writeUInt16BE, if_pos h]
    rfl
  rw [audioData, hheader]
  exact ⟨_, rfl⟩

/-- What an empty frame does to the fields it goes through. -/
structure Sends (s t : AudioSession) : Prop where
  connectAddress : t.connectAddress = true
  sequence : t.videoSeqNumber = (s.videoSeqNumber + 1) % 65536
  sent : t.sent = s.sent + 1
  unacked : ∃ datagram, t.unackedAudio = set s.unackedAudio s.videoSeqNumber ⟨datagram, s.sent⟩
  log : s.overwritten ⊆ t.log

theorem sends_sendAudioFrame {s : AudioSession} (hconnect : s.connectAddress = true)
    (hseq : s.videoSeqNumber < 65536) : Sends s (s.sendAudioFrame 0 [] 0) := by
  obtain ⟨data, hdata⟩ := audioData_ok hseq
  have hsend : s.sendAudioFrame 0 [] 0 =
      { s.retain data 0 with toAudioLine := ((s.retain data 0).send s.sent data).1 } := by
    rw [AudioSession.sendAudioFrame, hconnect, hdata, Bool.not_true, if_neg Bool.false_ne_true]
  have hover : s.overwritten ⊆ (s.retain data 0).log := List.subset_append_left _ _
  rw [hsend, AudioLine.send]
  split_ifs
  · exact ⟨hconnect, rfl, rfl, ⟨_, rfl⟩, hover⟩
  · split
    · exact ⟨hconnect, rfl, rfl, ⟨_, rfl⟩, List.Subset.trans hover (List.subset_cons_self _ _)⟩
    · exact ⟨hconnect, rfl, rfl, ⟨_, rfl⟩, hover⟩

/-- As many datagrams as there are sequence numbers, none of them acknowledged. -/
theorem exec_sends (n : ℕ) (hn : n < 65536) :
    ∃ s held, exec step connected (List.replicate (n + 1) (.sendAudioFrame 0 [] 0)) = some s ∧
      s.connectAddress = true ∧ s.videoSeqNumber = (n + 1) % 65536 ∧ s.sent = n + 1 ∧
        get s.unackedAudio 0 = some held ∧ held.number = 0 := by
  induction n with
  | zero =>
    obtain ⟨hconnect, hseq, hsent, ⟨datagram, hunacked⟩, -⟩ :=
      sends_sendAudioFrame (s := connected) rfl (by decide)
    refine ⟨_, ⟨datagram, 0⟩, rfl, hconnect, hseq, hsent, ?_, rfl⟩
    rw [hunacked]
    rfl
  | succ n ih =>
    obtain ⟨s, held, hexec, hconnect, hseq, hsent, hget, hnumber⟩ := ih (by omega)
    rw [Nat.mod_eq_of_lt hn] at hseq
    obtain ⟨hconnect', hseq', hsent', ⟨datagram, hunacked⟩, -⟩ :=
      sends_sendAudioFrame hconnect (by omega)
    refine ⟨s.sendAudioFrame 0 [] 0, held, ?_, hconnect', ?_, ?_, ?_, hnumber⟩
    · rw [List.replicate_succ', exec_append, hexec]
      rfl
    · rw [hseq', hseq]
    · rw [hsent', hsent]
    · rw [hunacked, get_set, if_neg (by omega)]
      exact hget

/-- A datagram can leave that is neither acknowledged nor given up. -/
theorem overwritten_audio :
    ¬∀ (s₀ s : AudioSession) (ls : List Label), s₀.Idle → exec step s₀ ls = some s →
      ∀ n cause, Event.left n cause ∈ s.log → cause = .acknowledged ∨ cause = .abandoned := by
  intro hclaim
  obtain ⟨s, held, hexec, hconnect, hseq, hsent, hget, hnumber⟩ := exec_sends 65535 (by decide)
  have hzero : s.videoSeqNumber = 0 := hseq
  have hlast : exec step connected (List.replicate (65536 + 1) (.sendAudioFrame 0 [] 0)) =
      some (s.sendAudioFrame 0 [] 0) := by
    rw [List.replicate_succ', exec_append, hexec]
    rfl
  have hover : s.overwritten = [.left 0 (.overwritten 65536)] := by
    rw [AudioSession.overwritten, hzero, hget]
    dsimp only
    rw [hnumber, hsent]
  have hlog := (sends_sendAudioFrame hconnect (by omega)).log
  rw [hover] at hlog
  have hleft := hlog List.mem_cons_self
  rcases hclaim connected _ _ idle_connected hlast 0 _ hleft with h | h <;> cases h

end EufySdk.OutboundAudio
