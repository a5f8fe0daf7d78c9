import Mathlib.Tactic
import EufySdk.Lib.Chunks
import EufySdk.Transport.P2p.Adts

/-!
# ADTS frames out of a stream

`AdtsFrameReader` of `transport/p2p/adts.ts`: a host writes an AAC stream in any chunks, and the
frames are recovered from it. The reader keeps what it has not used; a chunk is appended to it, and
its loop goes over the bytes from the first one on: a frame that is all there is handed over, and
where no header is a byte is passed over.

- `AdtsFrameReader.pass`, `AdtsFrameReader.push` — the loop, and a chunk
- `AdtsFrame` — a frame of the format
- `push_scans` — a chunk as a scan of the bytes at hand
- `feed_frames` — a stream in chunks
-/

namespace EufySdk

open Bytes Chunks

def HEADER_LEN_NO_CRC : ℕ := 7

structure AdtsFrameReader where
  buffered : Buffer := []
  deriving DecidableEq, Repr

namespace AdtsFrameReader

/-- A pass of the loop of `push`: nothing where it ends, or the place it goes on at, with the frame
that is handed over. -/
def pass (buffered : Buffer) (offset : ℕ) : Option (ℕ × List Buffer) :=
  match parseAdtsHeader buffered offset with
  | none => if buffered.length < offset + HEADER_LEN_NO_CRC then none else some (offset + 1, [])
  | some h =>
    if buffered.length < offset + h.frameLength then none
    else some (offset + h.frameLength, [Buf.subarray buffered offset (offset + h.frameLength)])

/-- The frames that the loop hands over from a place on, and the place it ends at; nothing where it
takes more passes than the first argument says. -/
def passes (buffered : Buffer) : ℕ → ℕ → Option (List Buffer × ℕ)
  | 0, _ => none
  | n + 1, offset =>
    match pass buffered offset with
    | none => some ([], offset)
    | some (next, frames) => (passes buffered n next).map fun r => (frames ++ r.1, r.2)

/-- Append a chunk and hand over the frames that are there. -/
def push (reader : AdtsFrameReader) (chunk : Buffer) : Option (List Buffer × AdtsFrameReader) :=
  let buffered := if reader.buffered.length ≠ 0 then reader.buffered ++ chunk else chunk
  (passes buffered (buffered.length + 1) 0).map fun r =>
    (r.1, { buffered := if r.2 ≠ 0 then buffered.drop r.2 else buffered })

def pending (reader : AdtsFrameReader) : ℕ := reader.buffered.length

/-- Push chunk after chunk. -/
def feed (reader : AdtsFrameReader) : List Buffer → Option (List Buffer × AdtsFrameReader)
  | [] => some ([], reader)
  | chunk :: chunks =>
    (reader.push chunk).bind fun r => (r.2.feed chunks).map fun rest => (r.1 ++ rest.1, rest.2)

end AdtsFrameReader

/-! ### A pass -/

/-- A header is in the first seven bytes. -/
theorem parseAdtsHeader_append {buf : Buffer} {offset : ℕ} (more : Buffer)
    (hlength : offset + HEADER_LEN_NO_CRC ≤ buf.length) :
    parseAdtsHeader (buf ++ more) offset = parseAdtsHeader buf offset := by
  have hdrop : (buf ++ more).drop offset = buf.drop offset ++ more :=
    List.drop_append_of_le_length (by omega)
  have hseven : HEADER_LEN_NO_CRC ≤ (buf.drop offset).length := by
    rw [List.length_drop]
    omega
  rw [parseAdtsHeader, parseAdtsHeader, hdrop]
  match buf.drop offset, hseven with
  | _ :: _ :: _ :: _ :: _ :: _ :: _ :: _, _ => rfl
  | [], h | [_], h | [_, _], h | [_, _, _], h | [_, _, _, _], h | [_, _, _, _, _], h
  | [_, _, _, _, _, _], h => exact absurd h (by simp [HEADER_LEN_NO_CRC])

theorem parseAdtsHeader_drop (buf : Buffer) (offset : ℕ) :
    parseAdtsHeader buf offset = parseAdtsHeader (buf.drop offset) := rfl

/-- A header is there only with its seven bytes, and its frame is at least as long. -/
theorem seven_le_of_parse {buf : Buffer} {h : AdtsHeader} (hparse : parseAdtsHeader buf = some h) :
    HEADER_LEN_NO_CRC ≤ buf.length ∧ HEADER_LEN_NO_CRC ≤ h.frameLength := by
  rw [parseAdtsHeader, List.drop_zero] at hparse
  match buf, hparse with
  | b₀ :: b₁ :: b₂ :: b₃ :: b₄ :: b₅ :: b₆ :: rest, hparse =>
    refine ⟨by simp [HEADER_LEN_NO_CRC], ?_⟩
    dsimp only at hparse
    rw [HEADER_LEN_NO_CRC]
    split_ifs at hparse with _ _ hlong
    · rw [← Option.some.inj hparse]
      exact not_lt.mp hlong
    · rw [← Option.some.inj hparse]
      dsimp only
      omega
  | [], hparse | [_], hparse | [_, _], hparse | [_, _, _], hparse | [_, _, _, _], hparse
  | [_, _, _, _, _], hparse | [_, _, _, _, _, _], hparse => cases hparse

namespace AdtsFrameReader

/-- The length of what a pass goes over, and whether it is a frame. -/
def turn (l : Buffer) : Option (ℕ × Bool) :=
  match parseAdtsHeader l with
  | none => if l.length < HEADER_LEN_NO_CRC then none else some (1, false)
  | some h => if l.length < h.frameLength then none else some (h.frameLength, true)

/-- A turn goes over a byte where no header is, or over a whole frame. -/
theorem turn_eq_some {l : Buffer} {n : ℕ} {out : Bool} :
    turn l = some (n, out) ↔
      (parseAdtsHeader l = none ∧ HEADER_LEN_NO_CRC ≤ l.length ∧ n = 1 ∧ out = false) ∨
        ∃ h, parseAdtsHeader l = some h ∧ h.frameLength ≤ l.length ∧ n = h.frameLength ∧
          out = true := by
  rw [turn]
  cases hparse : parseAdtsHeader l with
  | none =>
    dsimp only
    split_ifs with hshort
    · simp [hshort]
    · simp [not_lt.mp hshort, eq_comm]
  | some h =>
    dsimp only
    split_ifs with hshort
    · simp [hshort]
    · simp [not_lt.mp hshort, eq_comm]

/-- The reader as a scanner: each turn goes over one byte at least, and depends on no byte behind
those it goes over but for the seven of a header. -/
def scanner : Scanner UInt8 where
  turn := turn
  pos := by
    intro l n out hturn
    rcases turn_eq_some.mp hturn with ⟨-, -, rfl, -⟩ | ⟨h, hparse, -, rfl, -⟩
    · exact Nat.one_pos
    · exact lt_of_lt_of_le (by decide) (seven_le_of_parse hparse).2
  le_length := by
    intro l n out hturn
    rcases turn_eq_some.mp hturn with ⟨-, hlength, rfl, -⟩ | ⟨h, -, hlength, rfl, -⟩
    · exact le_trans (by decide) hlength
    · exact hlength
  append := by
    rintro l ⟨n, out⟩ more hturn
    have hgrow : l.length ≤ (l ++ more).length := by
      rw [List.length_append]
      exact Nat.le_add_right _ _
    rcases turn_eq_some.mp hturn with ⟨hparse, hlength, hn, hout⟩ | ⟨h, hparse, hlength, hn, hout⟩
    · have hsame : parseAdtsHeader (l ++ more) = parseAdtsHeader l :=
        parseAdtsHeader_append more (by omega)
      exact turn_eq_some.mpr (.inl ⟨hsame.trans hparse, hlength.trans hgrow, hn, hout⟩)
    · have hseven := (seven_le_of_parse hparse).1
      have hsame : parseAdtsHeader (l ++ more) = parseAdtsHeader l :=
        parseAdtsHeader_append more (by omega)
      exact turn_eq_some.mpr (.inr ⟨h, hsame.trans hparse, hlength.trans hgrow, hn, hout⟩)

theorem pass_eq (buffered : Buffer) (offset : ℕ) (hle : offset ≤ buffered.length) :
    pass buffered offset = (turn (buffered.drop offset)).map fun t =>
      (offset + t.1, if t.2 then [(buffered.drop offset).take t.1] else []) := by
  have hlength := List.length_drop (l := buffered) (i := offset)
  rw [pass, turn, parseAdtsHeader_drop]
  cases parseAdtsHeader (buffered.drop offset) with
  | none =>
    dsimp only
    by_cases hshort : buffered.length < offset + HEADER_LEN_NO_CRC
    · rw [if_pos hshort, if_pos (by omega)]
      rfl
    · rw [if_neg hshort, if_neg (by omega)]
      rfl
  | some h =>
    dsimp only
    by_cases hshort : buffered.length < offset + h.frameLength
    · rw [if_pos hshort, if_pos (by omega)]
      rfl
    · rw [if_neg hshort, if_neg (by omega), Buf.subarray, List.drop_take, Nat.add_sub_cancel_left]
      rfl

/-- **Every pass goes on**: it moves over a byte at least, up to the end of the bytes at most. -/
theorem pass_progress {buffered : Buffer} {offset next : ℕ} {frames : List Buffer}
    (hle : offset ≤ buffered.length) (hpass : pass buffered offset = some (next, frames)) :
    offset < next ∧ next ≤ buffered.length := by
  rw [pass_eq buffered offset hle] at hpass
  obtain ⟨⟨n, out⟩, hturn, heq⟩ := Option.map_eq_some_iff.mp hpass
  obtain ⟨rfl, -⟩ := Prod.mk.inj heq
  have hpos := scanner.pos hturn
  have hwithin := scanner.le_length hturn
  rw [List.length_drop] at hwithin
  dsimp only
  omega

/-- The loop as a scan of the bytes from a place on: it ends, at the bytes the scanner waits in
front of. -/
theorem passes_scans {buffered : Buffer} {n offset : ℕ} (hle : offset ≤ buffered.length)
    (hn : buffered.length < offset + n) :
    ∃ frames stop, passes buffered n offset = some (frames, stop) ∧ stop ≤ buffered.length ∧
      Scans scanner (buffered.drop offset) frames (buffered.drop stop) := by
  induction n generalizing offset with
  | zero => omega
  | succ n ih =>
    rw [passes]
    cases hpass : pass buffered offset with
    | none =>
      rw [pass_eq buffered offset hle, Option.map_eq_none_iff] at hpass
      exact ⟨[], offset, rfl, hle, .wait hpass⟩
    | some r =>
      obtain ⟨next, frames⟩ := r
      obtain ⟨hmoved, hwithin⟩ := pass_progress hle hpass
      obtain ⟨later, stop, hpasses, hstop, hscans⟩ := ih hwithin (by omega)
      refine ⟨frames ++ later, stop, ?_, hstop, ?_⟩
      · dsimp only
        rw [hpasses]
        rfl
      rw [pass_eq buffered offset hle] at hpass
      obtain ⟨⟨length, out⟩, hturn, heq⟩ := Option.map_eq_some_iff.mp hpass
      obtain ⟨rfl, rfl⟩ := Prod.mk.inj heq
      rw [← List.drop_drop] at hscans
      cases out with
      | false => exact .skip hturn hscans
      | true => exact .take hturn hscans

/-- **A chunk is a scan** of what the reader holds and the chunk behind it; what the scanner waits
in front of is held. -/
theorem push_scans (reader : AdtsFrameReader) (chunk : Buffer) :
    ∃ frames rest, reader.push chunk = some (frames, ⟨rest⟩) ∧
      Scans scanner (reader.buffered ++ chunk) frames rest := by
  have hbuffered : (if reader.buffered.length ≠ 0 then reader.buffered ++ chunk else chunk) =
      reader.buffered ++ chunk := by
    split_ifs with hempty
    · rfl
    · rw [List.length_eq_zero_iff.mp (not_not.mp hempty), List.nil_append]
  obtain ⟨frames, stop, hpasses, -, hscans⟩ :=
    passes_scans (reader.buffered ++ chunk).length.zero_le (Nat.lt_add_left 0 (Nat.lt_succ_self _))
  refine ⟨frames, (reader.buffered ++ chunk).drop stop, ?_, hscans⟩
  rw [push, hbuffered, hpasses]
  have hrest : (if stop ≠ 0 then (reader.buffered ++ chunk).drop stop else reader.buffered ++ chunk) =
      (reader.buffered ++ chunk).drop stop := by
    split_ifs with hstop
    · rfl
    · rw [not_not.mp hstop, List.drop_zero]
  exact congrArg (fun rest => some (frames, AdtsFrameReader.mk rest)) hrest

/-- Chunk after chunk, the reader scans the bytes of all of them. -/
theorem feed_scans (reader : AdtsFrameReader) (chunks : List Buffer)
    (hwaits : turn reader.buffered = none) :
    ∃ frames rest, reader.feed chunks = some (frames, ⟨rest⟩) ∧
      Scans scanner (reader.buffered ++ chunks.flatten) frames rest := by
  induction chunks generalizing reader with
  | nil =>
    refine ⟨[], reader.buffered, rfl, ?_⟩
    rw [List.flatten_nil, List.append_nil]
    exact .wait hwaits
  | cons chunk chunks ih =>
    obtain ⟨frames, rest, hpush, hscans⟩ := reader.push_scans chunk
    obtain ⟨later, last, hfeed, hmore⟩ := ih ⟨rest⟩ hscans.waits
    refine ⟨frames ++ later, last, ?_, ?_⟩
    · rw [feed, hpush, Option.bind_some, hfeed]
      rfl
    · rw [List.flatten_cons, ← List.append_assoc]
      exact hscans.append hmore

end AdtsFrameReader

/-! ### Frames of the format -/

/-- An ADTS frame: the fields of its header in the order they are written in, a checksum where it
has one, and the payload. Header and payload together have a length of 13 bits. -/
structure AdtsFrame where
  id : Fin 2
  layer : Fin 4
  profile : Fin 4
  frequencyIndex : Fin 16
  privateBit : Fin 2
  channels : Fin 8
  /-- Original or copy, home, and the two bits of the copyright identification. -/
  flags : Fin 16
  bufferFullness : Fin 2048
  blocks : Fin 4
  crc : Option (UInt8 × UInt8)
  payload : Buffer
  fits : (if crc.isNone then 7 else 9) + payload.length < 2 ^ 13

namespace AdtsFrame

def headerLength (frame : AdtsFrame) : ℕ := if frame.crc.isNone then 7 else 9

def frameLength (frame : AdtsFrame) : ℕ := frame.headerLength + frame.payload.length

/-- The second byte: the rest of the syncword, the version, the layer, and whether there is no
checksum. -/
def versionByte (id : Fin 2) (layer : Fin 4) (protectionAbsent : Bool) : UInt8 :=
  UInt8.ofNat (240 + id * 8 + layer * 2 + protectionAbsent.toNat)

def header (frame : AdtsFrame) : Buffer :=
  [0xff, versionByte frame.id frame.layer frame.crc.isNone,
    UInt8.ofNat (frame.profile * 64 + frame.frequencyIndex * 4 + frame.privateBit * 2 +
      frame.channels / 4),
    UInt8.ofNat (frame.channels % 4 * 64 + frame.flags * 4 + frame.frameLength / 2048),
    UInt8.ofNat (frame.frameLength / 8),
    UInt8.ofNat (frame.frameLength % 8 * 32 + frame.bufferFullness / 64),
    UInt8.ofNat (frame.bufferFullness % 64 * 4 + frame.blocks)]

def checksum (frame : AdtsFrame) : Buffer :=
  match frame.crc with
  | none => []
  | some (high, low) => [high, low]

def bytes (frame : AdtsFrame) : Buffer := frame.header ++ (frame.checksum ++ frame.payload)

variable (frame : AdtsFrame)

theorem length_bytes : frame.bytes.length = frame.frameLength := by
  rw [bytes, frameLength, headerLength, checksum, List.length_append, List.length_append]
  cases frame.crc with
  | none =>
    dsimp only [header, List.length_cons, List.length_nil, Option.isNone]
    rw [if_pos rfl]
    omega
  | some crc =>
    dsimp only [header, List.length_cons, List.length_nil, Option.isNone]
    rw [if_neg Bool.false_ne_true]
    omega

theorem versionByte_spec (id : Fin 2) (layer : Fin 4) (protectionAbsent : Bool) :
    versionByte id layer protectionAbsent &&& 0xf0 = 0xf0 ∧
      (versionByte id layer protectionAbsent &&& 0x01 ≠ 0 ↔ protectionAbsent = true) := by
  revert id layer protectionAbsent
  decide

/-- **The header of a frame is read as it was written.** -/
theorem parseAdtsHeader_bytes :
    parseAdtsHeader frame.bytes = some
      { frameLength := frame.frameLength
        headerLength := frame.headerLength
        profile := frame.profile
        frequencyIndex := frame.frequencyIndex
        channels := frame.channels } := by
  obtain ⟨hsync, habsent⟩ := versionByte_spec frame.id frame.layer frame.crc.isNone
  have hfits : frame.frameLength < 8192 := frame.fits
  have hlong : ¬frame.frameLength < frame.headerLength := by
    rw [frameLength]
    omega
  have hheader : (if versionByte frame.id frame.layer frame.crc.isNone &&& 0x01 ≠ 0 then 7 else 9) =
      frame.headerLength := by
    rw [headerLength]
    exact if_congr habsent rfl rfl
  have hprofile := frame.profile.isLt
  have hfrequency := frame.frequencyIndex.isLt
  have hprivate := frame.privateBit.isLt
  have hchannels := frame.channels.isLt
  have hflags := frame.flags.isLt
  have hfullness := frame.bufferFullness.isLt
  have hlength : (UInt8.ofNat (frame.channels % 4 * 64 + frame.flags * 4 +
        frame.frameLength / 2048)).toNat % 4 * 2048 + (UInt8.ofNat (frame.frameLength / 8)).toNat * 8 +
      (UInt8.ofNat (frame.frameLength % 8 * 32 + frame.bufferFullness / 64)).toNat / 32 =
      frame.frameLength := by
    simp only [UInt8.toNat_ofNat']
    omega
  rw [parseAdtsHeader, bytes, header, List.drop_zero]
  dsimp only [List.cons_append]
  rw [hlength, hheader, if_neg hlong, if_neg (by simp [hsync])]
  simp only [UInt8.toNat_ofNat', Option.some.injEq, AdtsHeader.mk.injEq, true_and]
  omega

theorem item : AdtsFrameReader.scanner.Item frame.bytes := by
  have hlength := frame.length_bytes
  exact AdtsFrameReader.turn_eq_some.mpr
    (.inr ⟨_, frame.parseAdtsHeader_bytes, hlength.ge, hlength, rfl⟩)

/-- A stream of frames. -/
def stream (frames : List AdtsFrame) : Buffer := (frames.map bytes).flatten

end AdtsFrame

/-! ### A stream in chunks -/

theorem item_of_mem_frames {frames : List AdtsFrame} :
    ∀ x ∈ frames.map AdtsFrame.bytes, AdtsFrameReader.scanner.Item x := by
  intro x hx
  obtain ⟨frame, -, rfl⟩ := List.mem_map.mp hx
  exact frame.item

namespace AdtsFrameReader

/-- A reader that holds nothing waits. -/
theorem turn_nil : turn [] = none := rfl

/-- What a reader makes of chunks whose bytes scan to given parts. -/
theorem feed_eq {chunks frames : List Buffer} {rest : Buffer}
    (hscans : Scans scanner chunks.flatten frames rest) :
    AdtsFrameReader.feed {} chunks = some (frames, ⟨rest⟩) := by
  obtain ⟨frames', rest', hfeed, hfed⟩ := feed_scans {} chunks turn_nil
  rw [List.nil_append] at hfed
  obtain ⟨rfl, rfl⟩ := hscans.unique hfed
  exact hfeed

/-- Chunks are read as their bytes in one. -/
theorem feed_flatten (chunks : List Buffer) :
    AdtsFrameReader.feed {} chunks = AdtsFrameReader.push {} chunks.flatten := by
  obtain ⟨frames, rest, hpush, hscans⟩ := push_scans {} chunks.flatten
  rw [List.nil_append] at hscans
  rw [feed_eq hscans, hpush]

/-- **A stream is read the same in any chunks.** Of a stream of frames all are handed over, in their
order; where it has come up to a cut, those before the cut, and what there is of the next one is
held. Any bytes at all are read in chunks as they are in one, the loop of a chunk ends, and each of
its passes but the last moves over a byte at least. -/
theorem feed_frames (frames : List AdtsFrame) (chunks : List Buffer) :
    (chunks.flatten = AdtsFrame.stream frames →
        AdtsFrameReader.feed {} chunks = some (frames.map AdtsFrame.bytes, {})) ∧
      (chunks.flatten <+: AdtsFrame.stream frames → ∃ before tail,
        Cut (frames.map AdtsFrame.bytes) chunks.flatten before tail ∧
          AdtsFrameReader.feed {} chunks = some (before, ⟨tail⟩)) ∧
      AdtsFrameReader.feed {} chunks = AdtsFrameReader.push {} chunks.flatten ∧
      (∀ reader : AdtsFrameReader, ∀ chunk, ∃ r, reader.push chunk = some r) ∧
      ∀ buffered offset, offset ≤ buffered.length → ∀ next found,
        pass buffered offset = some (next, found) → offset < next ∧ next ≤ buffered.length := by
  refine ⟨fun hstream => ?_, fun hprefix => ?_, feed_flatten chunks, fun reader chunk => ?_,
    fun buffered offset hle next found hpass => pass_progress hle hpass⟩
  · refine feed_eq ?_
    rw [hstream]
    exact (cut_flatten _).scans item_of_mem_frames
  · obtain ⟨before, tail, hcut⟩ := exists_cut hprefix
    exact ⟨before, tail, hcut, feed_eq (hcut.scans item_of_mem_frames)⟩
  · obtain ⟨found, rest, hpush, -⟩ := reader.push_scans chunk
    exact ⟨_, hpush⟩

/-- A frame with a checksum and one without, cut within the header of the first and again within
the second. -/
theorem feed_two_frames :
    let first : AdtsFrame := ⟨0, 0, 1, 8, 0, 1, 0, 2047, 0, some (0xab, 0xcd), [1, 2, 3], by decide⟩
    let second : AdtsFrame := ⟨0, 0, 1, 8, 0, 1, 0, 2047, 0, none, [0xff, 0xf1], by decide⟩
    let stream := AdtsFrame.stream [first, second]
    AdtsFrameReader.feed {} [stream.take 4, (stream.drop 4).take 10, stream.drop 14] =
      some ([first.bytes, second.bytes], {}) := by
  intro first second stream
  exact (feed_frames [first, second] _).1 (by decide)

end AdtsFrameReader

end EufySdk
