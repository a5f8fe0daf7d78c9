import Mathlib.Tactic
import EufySdk.Lib.SerialNumbers
import EufySdk.Transport.P2p.Reassembly

/-!
# The sequence window of `onData`

For each data type `onData` is a receiver of wrapping sequence numbers: a datagram numbered
at the mark or up to `STALE_RETRANSMIT_DEPTH` behind it is acknowledged and ignored, any
other one is kept. So a device that restarts its numbering is ignored for 1025 datagrams at
most, and one that does not restart is never ignored when it moves on.

Main definitions:

- `Datagram` — a DATA datagram by the number its sender counts, before it wraps
- `Ignores`, `Keeps` — the two things `onData` does with one
- `CountsUp` — the datagrams of a data type are numbered upwards from a start
-/

namespace EufySdk.P2PSession

open Bytes Codec SerialNumbers

structure Datagram where
  /-- What stands before the data type: the message type, the length and a byte that is not
  read. -/
  head : Buffer
  head_length : head.length = 5
  dataType : UInt8
  number : ℕ
  chunk : Buffer

namespace Datagram

def seqNo (d : Datagram) : ℕ := d.number % 65536

def bytes (d : Datagram) : Buffer := d.head ++ [d.dataType] ++ uint16BE d.seqNo ++ d.chunk

theorem isDatagram (d : Datagram) : IsDatagram d.bytes d.dataType d.seqNo d.chunk := by
  refine ⟨?_, Nat.mod_lt _ (by norm_num)⟩
  obtain ⟨head, hlength, t, number, chunk⟩ := d
  match head, hlength with
  | [a, b, c, d, e], _ => exact ⟨a, b, c, d, e, rfl⟩

end Datagram

/-- `onData` acknowledges the datagram and does nothing else. -/
def Ignores (s : Inbound) (d : Datagram) : Prop :=
  onData s d.bytes =
    .ok (s, [.ack (ackTypeHeader d.dataType ++ uint16BE 1 ++ uint16BE d.seqNo)])

/-- `onData` makes the datagram its type's mark and reads its bytes behind `pending`,
handing over the frames they complete. -/
def Keeps (s : Inbound) (d : Datagram) (pending : Option (P2PDataFrameHeader × Buffer)) :
    Prop :=
  ∃ s' calls, onData s d.bytes = .ok (s', calls) ∧
    s'.channel d.dataType =
      { lastSeq := some d.seqNo, pending := (dataFormat.feed pending d.chunk).2 } ∧
    handled d.dataType calls = (dataFormat.feed pending d.chunk).1

/-! ## One datagram -/

theorem repeats_iff_advance {mark seqNo : ℕ} :
    Repeats 65536 STALE_RETRANSMIT_DEPTH mark seqNo ↔
      seqAdvance mark seqNo = 0 ∨ 0x10000 - seqAdvance mark seqNo ≤ STALE_RETRANSMIT_DEPTH := by
  rw [Repeats, seqAdvance, STALE_RETRANSMIT_DEPTH]
  omega

/-- The decision as a distance: a repeat is at the mark or up to the retransmission depth
behind it. -/
theorem classify_eq_repeated_iff {mark seqNo : ℕ} :
    classify (some mark) seqNo = .repeated ↔
      Repeats 65536 STALE_RETRANSMIT_DEPTH mark seqNo := by
  rw [repeats_iff_advance]
  by_cases hzero : seqAdvance mark seqNo = 0
  · simp [classify, hzero]
  by_cases hnear : 0x10000 - seqAdvance mark seqNo ≤ STALE_RETRANSMIT_DEPTH
  · have hfar : SEQUENCE_LOOKBACK < seqAdvance mark seqNo := by
      rw [STALE_RETRANSMIT_DEPTH] at hnear
      rw [SEQUENCE_LOOKBACK]
      omega
    simp [classify, hzero, hnear, hfar, not_lt_of_ge hnear]
  · have hfresh : classify (some mark) seqNo ≠ .repeated := by
      simp only [classify, not_le.mp hnear, and_true, and_not_self, hzero, if_false]
      split_ifs <;> exact nofun
    simp [hfresh, hzero, hnear]

theorem classify_first (seqNo : ℕ) : classify none seqNo = .inOrder := by
  simp [classify, SEQUENCE_LOOKBACK]

theorem classify_next (m : ℕ) : classify (some (m % 65536)) ((m + 1) % 65536) = .inOrder := by
  have hadvance : seqAdvance (m % 65536) ((m + 1) % 65536) = 1 := by
    unfold seqAdvance
    omega
  simp [classify, hadvance, SEQUENCE_LOOKBACK]

/-- A number up to the retransmission depth behind the mark is a repeat. -/
theorem classify_behind {m back : ℕ} (h : back ≤ STALE_RETRANSMIT_DEPTH) :
    classify (some (m % 65536)) ((m + 65536 - back) % 65536) = .repeated := by
  have hback : back ≤ 1024 := h
  have hwrap : m % 65536 = (m + 65536) % 65536 := (Nat.add_mod_right m 65536).symm
  rw [classify_eq_repeated_iff, hwrap, repeats_mod]
  exact repeats_of_behind (by decide) (Nat.sub_le _ _) (by omega)

theorem fresh_iff {mark : Option ℕ} {seqNo : ℕ} :
    Fresh 65536 STALE_RETRANSMIT_DEPTH mark seqNo ↔ classify mark seqNo ≠ .repeated := by
  cases mark with
  | none =>
    rw [classify_first]
    exact ⟨fun _ => nofun, fun _ => nofun⟩
  | some m =>
    rw [ne_eq, classify_eq_repeated_iff]
    exact ⟨fun h => h m rfl, fun h _ hm => Option.some.inj hm ▸ h⟩

theorem ignores_of_repeats {s : Inbound} {d : Datagram} {mark : ℕ}
    (hmark : s.lastSeqByType d.dataType = some mark)
    (h : Repeats 65536 STALE_RETRANSMIT_DEPTH mark d.seqNo) : Ignores s d := by
  refine onData_repeated d.isDatagram ?_
  rw [hmark]
  exact classify_eq_repeated_iff.mpr h

/-- What is not a repeat is kept, on top of what was pending or of nothing. -/
theorem receive_of_fresh {c : Channel} {seqNo : ℕ} (chunk : Buffer)
    (h : classify c.lastSeq seqNo ≠ .repeated) :
    ∃ pending, (classify c.lastSeq seqNo = .inOrder → pending = c.pending) ∧
      c.receive seqNo chunk =
        ({ lastSeq := some seqNo, pending := (dataFormat.feed pending chunk).2 },
          (dataFormat.feed pending chunk).1) := by
  rw [Channel.receive]
  cases harrival : classify c.lastSeq seqNo with
  | repeated => exact absurd harrival h
  | inOrder => exact ⟨c.pending, fun _ => rfl, rfl⟩
  | gap | restarted => exact ⟨none, (fun hin => by cases hin), rfl⟩

theorem keeps_of_fresh {s : Inbound} {d : Datagram}
    (h : Fresh 65536 STALE_RETRANSMIT_DEPTH (s.lastSeqByType d.dataType) d.seqNo) :
    ∃ pending, (classify (s.lastSeqByType d.dataType) d.seqNo = .inOrder →
      pending = (s.channel d.dataType).pending) ∧ Keeps s d pending := by
  obtain ⟨pending, hpending, hreceive⟩ :=
    receive_of_fresh (c := s.channel d.dataType) d.chunk (fresh_iff.mp h)
  obtain ⟨s', calls, honData, hrec⟩ := onData_receives s d.isDatagram
  refine ⟨pending, hpending, s', calls, honData, ?_, ?_⟩
  · rw [hrec.channel_self, hreceive]
  · rw [hrec.handled_self, hreceive]

/-- What one datagram does to the marks: its own type's receiver follows it. -/
theorem onData_follow (s : Inbound) (d : Datagram) :
    ∃ s' calls, onData s d.bytes = .ok (s', calls) ∧
      ∀ t, s'.lastSeqByType t =
        if d.dataType = t then follow 65536 STALE_RETRANSMIT_DEPTH (s.lastSeqByType t) d.seqNo
        else s.lastSeqByType t := by
  obtain ⟨s', calls, honData, hrec⟩ := onData_receives s d.isDatagram
  refine ⟨s', calls, honData, fun t => ?_⟩
  by_cases ht : d.dataType = t
  · subst ht
    rw [if_pos rfl]
    have hself : s'.lastSeqByType d.dataType =
        ((s.channel d.dataType).receive d.seqNo d.chunk).1.lastSeq :=
      congrArg Channel.lastSeq hrec.channel_self
    rw [hself]
    by_cases hrep : classify (s.lastSeqByType d.dataType) d.seqNo = .repeated
    · have hsame : (s.channel d.dataType).receive d.seqNo d.chunk =
          (s.channel d.dataType, []) := by
        simp only [Channel.receive, Inbound.channel, hrep]
      rw [hsame]
      cases hmark : s.lastSeqByType d.dataType with
      | none =>
        rw [hmark] at hrep
        exact absurd hrep (fresh_iff.mp fun _ h => by cases h)
      | some mark =>
        rw [hmark, classify_eq_repeated_iff] at hrep
        rw [follow_of_repeats hrep]
        exact hmark
    · obtain ⟨pending, -, hreceive⟩ :=
        receive_of_fresh (c := s.channel d.dataType) d.chunk hrep
      rw [hreceive, follow_of_fresh (fresh_iff.mpr hrep)]
  · rw [if_neg ht]
    exact congrArg Channel.lastSeq (hrec.channel_other t (Ne.symm ht))

/-! ## A run of datagrams -/

/-- The datagrams of one data type. -/
def own (t : UInt8) (ds : List Datagram) : List Datagram := ds.filter (·.dataType = t)

theorem own_snoc {t : UInt8} (ds : List Datagram) {d : Datagram} (h : d.dataType = t) :
    own t (ds ++ [d]) = own t ds ++ [d] := by
  rw [own, List.filter_append]
  simp [own, h]

/-- Each type's mark is where its receiver is behind the datagrams of that type, however
they are interleaved with the others. -/
theorem onDatagrams_markAfter (s : Inbound) (ds : List Datagram) :
    ∃ s' calls, onDatagrams s (ds.map Datagram.bytes) = .ok (s', calls) ∧
      ∀ t, s'.lastSeqByType t =
        markAfter 65536 STALE_RETRANSMIT_DEPTH (s.lastSeqByType t)
          ((own t ds).map Datagram.seqNo) := by
  induction ds generalizing s with
  | nil => exact ⟨s, [], rfl, fun _ => rfl⟩
  | cons d ds ih =>
    obtain ⟨s₁, calls₁, honData, hfollow⟩ := onData_follow s d
    obtain ⟨s₂, calls₂, hrest, hmarks⟩ := ih s₁
    refine ⟨s₂, calls₁ ++ calls₂, ?_, fun t => ?_⟩
    · simp only [List.map_cons, onDatagrams, honData, hrest, ok_bind]
      rfl
    · rw [hmarks, hfollow]
      by_cases ht : d.dataType = t
      · have hown : own t (d :: ds) = d :: own t ds := List.filter_cons_of_pos (by simpa)
        rw [if_pos ht, hown, List.map_cons, markAfter_cons]
      · have hown : own t (d :: ds) = own t ds := List.filter_cons_of_neg (by simpa)
        rw [if_neg ht, hown]

/-- The datagrams of a type are numbered upwards from `start`, one after the other. -/
def CountsUp (t : UInt8) (start : ℕ) (ds : List Datagram) : Prop :=
  (own t ds).map Datagram.seqNo = upwards 65536 start (own t ds).length

theorem CountsUp.snoc {t : UInt8} {start : ℕ} {ds : List Datagram} {d : Datagram}
    (h : CountsUp t start (ds ++ [d])) (hd : d.dataType = t) :
    CountsUp t start ds ∧ d.seqNo = (start + (own t ds).length) % 65536 := by
  rw [CountsUp, own_snoc ds hd, List.map_append, List.length_append, List.length_singleton,
    upwards_succ] at h
  obtain ⟨hinit, hlast⟩ := List.append_inj' h rfl
  exact ⟨hinit, List.singleton_injective hlast⟩

/-- The datagram that is next behind the mark is kept, and continues what is pending. -/
theorem next_kept {s : Inbound} {d : Datagram} {n : ℕ}
    (hmark : s.lastSeqByType d.dataType = some (n % 65536))
    (hnext : d.seqNo = (n + 1) % 65536) : Keeps s d (s.channel d.dataType).pending := by
  obtain ⟨pending, hpending, hkeeps⟩ := keeps_of_fresh (s := s) (d := d) (by
    rw [hmark, hnext]
    exact fresh_next (by decide) n)
  rw [hmark, hnext] at hpending
  rwa [hpending (classify_next n)] at hkeeps

/-- A restarted numbering: at most 1025 datagrams are ignored, the one behind them is kept,
and each after that is kept and continues what the ones before it left pending. -/
theorem restart_taken_up (t : UInt8) (mark start : ℕ) :
    ∃ k ≤ 1025, ∀ (s₀ : Inbound) (before : List Datagram) (d : Datagram),
      s₀.lastSeqByType t = some mark → d.dataType = t → CountsUp t start (before ++ [d]) →
      ∃ s calls, onDatagrams s₀ (before.map Datagram.bytes) = .ok (s, calls) ∧
        ((own t before).length < k → Ignores s d) ∧
        ((own t before).length = k → ∃ pending, Keeps s d pending) ∧
        (k < (own t before).length → Keeps s d (s.channel t).pending) := by
  have hroom : STALE_RETRANSMIT_DEPTH + 1 < 65536 := by decide
  obtain ⟨k, hk, hstays, hrep, htaken, hkept⟩ := exists_markAfter_upwards hroom mark start
  refine ⟨k, hk, fun s₀ before d hmark hd hcount => ?_⟩
  subst hd
  obtain ⟨hbefore, hseqNo⟩ := hcount.snoc rfl
  obtain ⟨s, calls, hrun, hmarks⟩ := onDatagrams_markAfter s₀ before
  have hlast := hmarks d.dataType
  rw [hmark, hbefore] at hlast
  refine ⟨s, calls, hrun, fun hlt => ?_, fun heq => ?_, fun hgt => ?_⟩
  · rw [hstays _ hlt.le] at hlast
    refine ignores_of_repeats hlast ?_
    rw [hseqNo]
    exact hrep _ hlt
  · rw [hstays _ heq.le] at hlast
    obtain ⟨pending, -, hkeeps⟩ := keeps_of_fresh (s := s) (d := d) (by
      rw [hlast, hseqNo, heq]
      intro m hm
      obtain rfl := Option.some.inj hm
      exact htaken)
    exact ⟨pending, hkeeps⟩
  · obtain ⟨i, hi⟩ := Nat.exists_eq_add_of_lt hgt
    rw [hi, Nat.add_right_comm k i 1, hkept] at hlast
    have hnext : d.seqNo = (start + k + i + 1) % 65536 := by
      rw [hseqNo, hi]
      simp only [Nat.add_assoc]
    exact next_kept hlast hnext

/-- No restart: what is newer than everything before it is kept, across the wrap. -/
theorem newer_kept (t : UInt8) {late jump : ℕ}
    (hfit : jump + drift STALE_RETRANSMIT_DEPTH late + STALE_RETRANSMIT_DEPTH < 65536)
    {s₀ : Inbound} {last : Option ℕ} {before : List Datagram} {d : Datagram}
    (hmark : s₀.lastSeqByType t = last.map (· % 65536)) (hd : d.dataType = t)
    (hsteady : Steady late jump last ((own t (before ++ [d])).map Datagram.number))
    (hnew : ∀ n ∈ newest last ((own t before).map Datagram.number), n < d.number) :
    ∃ s calls pending, onDatagrams s₀ (before.map Datagram.bytes) = .ok (s, calls) ∧
      Keeps s d pending := by
  subst hd
  obtain ⟨s, calls, hrun, hmarks⟩ := onDatagrams_markAfter s₀ before
  have hnear : Near 65536 (drift STALE_RETRANSMIT_DEPTH late) last
      (s₀.lastSeqByType d.dataType) := by
    rw [hmark]
    cases last with
    | none => rfl
    | some n => exact ⟨n, le_rfl, Nat.le_add_right _ _, rfl⟩
  rw [own_snoc before rfl, List.map_append] at hsteady
  have hfresh := hsteady.fresh (by decide) hfit hnear hnew
  rw [List.map_map] at hfresh
  obtain ⟨pending, -, hkeeps⟩ := keeps_of_fresh (s := s) (d := d) (by
    rw [hmarks]
    exact hfresh)
  exact ⟨s, calls, pending, hrun, hkeeps⟩

/-- **The window freezes nobody out.** Wherever the mark of a data type is and wherever a
device restarts its numbering, `onData` ignores at most 1025 datagrams of the new numbering,
keeps the next one and delivers the run from there on. Of a device that has not restarted,
with arrivals at most `late` behind the newest and `jump` ahead of it, it keeps every
datagram newer than those before it. In any state it keeps the datagram next behind the
mark. Other data types' datagrams may come between. -/
theorem window_freezes_nobody_out (t : UInt8) :
    (∀ mark start : ℕ, ∃ k ≤ 1025,
      ∀ (s₀ : Inbound) (before : List Datagram) (d : Datagram),
        s₀.lastSeqByType t = some mark → d.dataType = t → CountsUp t start (before ++ [d]) →
        ∃ s calls, onDatagrams s₀ (before.map Datagram.bytes) = .ok (s, calls) ∧
          ((own t before).length < k → Ignores s d) ∧
          ((own t before).length = k → ∃ pending, Keeps s d pending) ∧
          (k < (own t before).length → Keeps s d (s.channel t).pending)) ∧
    (∀ (late jump : ℕ) (s₀ : Inbound) (last : Option ℕ) (before : List Datagram)
      (d : Datagram),
      jump + drift STALE_RETRANSMIT_DEPTH late + STALE_RETRANSMIT_DEPTH < 65536 →
      s₀.lastSeqByType t = last.map (· % 65536) → d.dataType = t →
      Steady late jump last ((own t (before ++ [d])).map Datagram.number) →
      (∀ n ∈ newest last ((own t before).map Datagram.number), n < d.number) →
      ∃ s calls pending, onDatagrams s₀ (before.map Datagram.bytes) = .ok (s, calls) ∧
        Keeps s d pending) ∧
    ∀ (s : Inbound) (d : Datagram) (n : ℕ), d.dataType = t →
      s.lastSeqByType t = some (n % 65536) → d.seqNo = (n + 1) % 65536 →
      Keeps s d (s.channel t).pending := by
  refine ⟨restart_taken_up t, ?_, ?_⟩
  · intro late jump s₀ last before d hfit
    exact newer_kept t hfit
  · intro s d n hd hmark hnext
    subst hd
    exact next_kept hmark hnext

/-- An empty video datagram. -/
def sampleDatagram (number : ℕ) : Datagram where
  head := [0xf1, 0xd0, 0, 4, 0xd1]
  head_length := rfl
  dataType := 1
  number := number
  chunk := []

/-- A session whose video datagrams have reached `mark`. -/
def sampleInbound (mark : ℕ) : Inbound :=
  { resetInboundSequencing with
    lastSeqByType := Function.update resetInboundSequencing.lastSeqByType 1 (some mark) }

/-- A numbering that restarts one behind the mark, and one that wraps with a repeat on the
way. -/
theorem window_freezes_nobody_out_wrap :
    (∃ k ≤ 1025, (0 < k → Ignores (sampleInbound 5) (sampleDatagram 4)) ∧
      (0 = k → ∃ pending, Keeps (sampleInbound 5) (sampleDatagram 4) pending)) ∧
    ∃ s calls pending,
      onDatagrams (sampleInbound 65534)
        ([sampleDatagram 65535, sampleDatagram 65534].map Datagram.bytes) = .ok (s, calls) ∧
      Keeps s (sampleDatagram 65536) pending := by
  refine ⟨?_, ?_⟩
  · obtain ⟨k, hk, hrun⟩ := (window_freezes_nobody_out 1).1 5 4
    obtain ⟨s, calls, hstart, hignored, hkept, -⟩ :=
      hrun (sampleInbound 5) [] (sampleDatagram 4) rfl rfl rfl
    obtain ⟨rfl, rfl⟩ := Prod.mk.inj (Except.ok.inj hstart)
    exact ⟨k, hk, hignored, hkept⟩
  · exact (window_freezes_nobody_out 1).2.1 1024 1 (sampleInbound 65534) (some 65534)
      [sampleDatagram 65535, sampleDatagram 65534] (sampleDatagram 65536) (by decide) rfl rfl
      ⟨by decide, by decide, by decide, by decide, by decide, by decide, trivial⟩
      (fun n hn => Option.some.inj hn ▸ by decide)

end EufySdk.P2PSession
