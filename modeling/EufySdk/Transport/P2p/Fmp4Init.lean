import Mathlib.Tactic
import EufySdk.Transport.P2p.Fmp4

/-!
# The initialisation segment

Each builder of `transport/p2p/fmp4.ts` makes boxes all the way down, of a size that is known but
for the parameter sets. What can go wrong is a number that does not fit its field: the picture
size, the length or the number of the parameter sets.

- `Builds` — a builder that makes boxes
- `Described` — a muxer whose parameter sets and picture size fit their fields
- `buildInit_ok` — its initialisation segment
-/

namespace EufySdk

open Bytes IsoBox

/-- A builder that makes boxes all the way down, at most `bound` bytes of them. -/
def Builds (bound : ℕ) (x : Except MuxError Buffer) : Prop :=
  ∃ bytes, x = .ok bytes ∧ Nested containers bytes ∧ bytes.length ≤ bound

theorem writeUInt32BE_ok {n : ℕ} (h : n < 2 ^ 32) : writeUInt32BE (n : ℤ) = .ok (uint32BE n) := by
  have hrange : (0 : ℤ) ≤ n ∧ (n : ℤ) < 4294967296 := by omega
  rw [writeUInt32BE, Buf.writeUInt32BE, if_pos hrange]
  rfl

theorem box_ok {type : FourCC} {payload : Buffer} (h : 8 + payload.length < 2 ^ 32) :
    box type payload = .ok (Box.encode ⟨type, payload⟩) := by
  rw [box, writeUInt32BE_ok h]
  rfl

theorem builds_box {type : FourCC} {payload : Buffer} {n : ℕ} (htype : containers type = none)
    (hle : 8 + payload.length ≤ n) (hn : n < 2 ^ 32) : Builds n (box type payload) := by
  have hsize : 8 + payload.length < 2 ^ 32 := by omega
  exact ⟨_, box_ok hsize, Nested.leaf htype hsize, by rwa [Box.length_encode, Box.size_mk]⟩

theorem concat_cons (part : Except MuxError Buffer) (parts : List (Except MuxError Buffer)) :
    concat (part :: parts) = do return (← part) ++ (← concat parts) := by
  cases part with
  | error e => rfl
  | ok bytes =>
    rw [concat, concat, List.mapM_cons]
    cases parts.mapM id with
    | error e => rfl
    | ok rest => rfl

/-- Parts that are boxes, one behind the other. -/
theorem builds_concat {bounds : List ℕ} {parts : List (Except MuxError Buffer)}
    (h : List.Forall₂ Builds bounds parts) : Builds bounds.sum (concat parts) := by
  induction h with
  | nil => exact ⟨[], rfl, Nested.nil, Nat.le_refl 0⟩
  | cons hpart _ ih =>
    obtain ⟨bytes, rfl, hbytes, hlength⟩ := hpart
    obtain ⟨rest, hrest, hrestBytes, hrestLength⟩ := ih
    refine ⟨bytes ++ rest, by rw [concat_cons, hrest]; rfl, hbytes.append hrestBytes, ?_⟩
    rw [List.length_append, List.sum_cons]
    omega

theorem builds_boxOf {type : FourCC} {bounds : List ℕ} {parts : List (Except MuxError Buffer)}
    {n : ℕ} (htype : containers type = some 0) (h : List.Forall₂ Builds bounds parts)
    (hle : 8 + bounds.sum ≤ n) (hn : n < 2 ^ 32) : Builds n (boxOf type parts) := by
  obtain ⟨bytes, hbytes, hnested, hlength⟩ := builds_concat h
  have hsize : 8 + bytes.length < 2 ^ 32 := by omega
  refine ⟨Box.encode ⟨type, bytes⟩, ?_, Nested.container [] htype hnested hsize, ?_⟩
  · rw [boxOf, hbytes, ok_bind, box_ok hsize]
  · rw [Box.length_encode, Box.size_mk]
    omega

/-- A box of one other, behind a header. -/
theorem builds_headed {type : FourCC} {head : Buffer} {part : Except MuxError Buffer} {m n : ℕ}
    (htype : containers type = some head.length) (h : Builds m part)
    (hle : 8 + head.length + m ≤ n) (hn : n < 2 ^ 32) :
    Builds n (boxOf type [.ok head, part]) := by
  obtain ⟨bytes, rfl, hnested, hlength⟩ := h
  have hsize : 8 + (head ++ bytes).length < 2 ^ 32 := by
    rw [List.length_append]
    omega
  have hconcat : concat [.ok head, .ok bytes] = .ok (head ++ bytes) := by
    change Except.ok (head ++ (bytes ++ [])) = _
    rw [List.append_nil]
  refine ⟨Box.encode ⟨type, head ++ bytes⟩, ?_, Nested.container head htype hnested hsize, ?_⟩
  · rw [boxOf, hconcat, ok_bind, box_ok hsize]
  · rw [Box.length_encode, Box.size_mk, List.length_append]
    omega

/-! ## Parameter sets -/

/-- The bytes parameter sets take in a configuration. -/
def setsSize (nals : List Buffer) : ℕ := (nals.map fun nal => 2 + nal.length).sum

/-- Parameter sets whose lengths and numbers fit their fields. -/
structure ParamSets.Describable (ps : ParamSets) : Prop where
  sps : ∀ nal ∈ ps.sps, nal.length < 65536
  pps : ∀ nal ∈ ps.pps, nal.length < 65536
  vps : ∀ nal ∈ ps.vps, nal.length < 65536
  counts : ps.sps.length < 65536 ∧ ps.pps.length < 65536 ∧ ps.vps.length < 65536
  total : setsSize ps.sps + setsSize ps.pps + setsSize ps.vps < 2 ^ 31

theorem u16_ok {n : ℕ} (h : n < 65536) : u16 n = .ok (uint16BE n) := by
  have hrange : (0 : ℤ) ≤ n ∧ (n : ℤ) < 65536 := by omega
  rw [u16, writeUInt16BE, if_pos hrange]
  rfl

/-- Units behind their lengths. -/
theorem concat_nals {nals : List Buffer} (h : ∀ nal ∈ nals, nal.length < 65536) :
    ∃ bytes, concat (nals.map fun nal => do return (← u16 nal.length) ++ nal) = .ok bytes ∧
      bytes.length = setsSize nals := by
  induction nals with
  | nil => exact ⟨[], rfl, rfl⟩
  | cons nal nals ih =>
    obtain ⟨bytes, hbytes, hlength⟩ := ih fun n hn => h n (List.mem_cons_of_mem nal hn)
    refine ⟨uint16BE nal.length ++ nal ++ bytes, ?_, ?_⟩
    · rw [List.map_cons, concat_cons, u16_ok (h nal List.mem_cons_self), hbytes]
      rfl
    · rw [setsSize, List.map_cons, List.sum_cons, ← setsSize, List.length_append,
        List.length_append, length_uint16BE, hlength]

theorem avcC_ok {ps : ParamSets} (h : ps.Describable) :
    ∃ bytes, Fmp4Muxer.avcC ps = .ok bytes ∧
      bytes.length ≤ 40 + (setsSize ps.sps + setsSize ps.pps + setsSize ps.vps) := by
  obtain ⟨sps, hsps, hspsLength⟩ := concat_nals h.sps
  obtain ⟨pps, hpps, hppsLength⟩ := concat_nals h.pps
  rw [Fmp4Muxer.avcC, hsps, hpps]
  refine ⟨_, rfl, ?_⟩
  simp only [List.length_append, List.length_cons, List.length_nil, hspsLength, hppsLength]
  omega

theorem hvcCArray_ok (nalType : UInt8) {nals : List Buffer}
    (h : ∀ nal ∈ nals, nal.length < 65536) (hcount : nals.length < 65536) :
    ∃ arrays, Fmp4Muxer.hvcCArray nalType nals = .ok arrays ∧
      arrays.flatten.length ≤ 3 + setsSize nals := by
  by_cases hnil : nals = []
  · exact ⟨[], by rw [Fmp4Muxer.hvcCArray, if_pos hnil]; rfl, Nat.zero_le _⟩
  · obtain ⟨bytes, hbytes, hlength⟩ := concat_nals h
    rw [Fmp4Muxer.hvcCArray, if_neg hnil, u16_ok hcount, hbytes]
    refine ⟨_, rfl, ?_⟩
    simp only [List.flatten_cons, List.flatten_nil, List.length_append, List.length_cons,
      List.length_nil, length_uint16BE, hlength]
    omega

theorem hvcC_ok {ps : ParamSets} (h : ps.Describable) :
    ∃ bytes, Fmp4Muxer.hvcC ps = .ok bytes ∧
      bytes.length ≤ 40 + (setsSize ps.sps + setsSize ps.pps + setsSize ps.vps) := by
  obtain ⟨hspsCount, hppsCount, hvpsCount⟩ := h.counts
  obtain ⟨vps, hvps, hvpsLength⟩ := hvcCArray_ok 32 h.vps hvpsCount
  obtain ⟨sps, hsps, hspsLength⟩ := hvcCArray_ok 33 h.sps hspsCount
  obtain ⟨pps, hpps, hppsLength⟩ := hvcCArray_ok 34 h.pps hppsCount
  rw [Fmp4Muxer.hvcC, hvps, hsps, hpps]
  refine ⟨_, rfl, ?_⟩
  simp only [List.length_append, List.length_cons, List.length_nil, List.flatten_append]
  omega

/-! ## The tracks -/

theorem length_alloc (n : ℕ) : (alloc n).length = n := List.length_replicate

theorem length_writeAt (offset : ℕ) (bytes : Buffer) {b : Buffer} {n : ℕ} (hb : b.length = n)
    (h : offset + bytes.length ≤ n) : (writeAt b offset bytes).length = n := by
  rw [writeAt, List.length_append, List.length_append, List.length_take, List.length_drop]
  omega

theorem length_writeMatrix {b : Buffer} {o n : ℕ} (hb : b.length = n) (h : o + 36 ≤ n) :
    (writeMatrix b o).length = n := by
  have ha := length_writeAt o (uint32BE 0x00010000) hb
    (by rw [length_uint32BE]; omega)
  have hd := length_writeAt (o + 16) (uint32BE 0x00010000) ha
    (by rw [length_uint32BE]; omega)
  exact length_writeAt (o + 32) (uint32BE 0x40000000) hd (by rw [length_uint32BE]; omega)

theorem writeUInt16BE_ok {n : ℤ} (h : 0 ≤ n ∧ n < 32768) :
    writeUInt16BE n = .ok (uint16BE n.toNat) := if_pos (by omega)

/-- A picture size whose sixteen bits of fraction leave room for the sign. -/
theorem writeUInt32BE_shiftLeft16 {n : ℤ} (h : 0 ≤ n ∧ n < 32768) :
    writeUInt32BE (shiftLeft16 n) = .ok (uint32BE (n * 65536).toNat) := by
  have hshift : shiftLeft16 n = ((n * 65536).toNat : ℕ) := by
    rw [shiftLeft16, Int.bmod_eq_of_le (by omega) (by omega)]
    omega
  rw [hshift, writeUInt32BE_ok (by omega)]

/-- A muxer whose parameter sets are known and, like the picture size, fit their fields. -/
structure Fmp4Muxer.Described (s : Fmp4Muxer) : Prop where
  params : ∃ ps, s.params = some ps ∧ ps.Describable
  width : 0 ≤ s.width ∧ s.width < 32768
  height : 0 ≤ s.height ∧ s.height < 32768

namespace Fmp4Muxer

theorem builds_ftyp : Builds 32 ftyp := builds_box rfl (Nat.le_refl 32) (by decide)

theorem builds_mvhd (s : Fmp4Muxer) : Builds 108 s.mvhd :=
  builds_box rfl (Nat.le_refl 108) (by decide)

theorem length_tkhdBody {width height : Buffer} (hwidth : width.length = 4)
    (hheight : height.length = 4) : (tkhdBody width height).length = 84 := by
  have hflags := length_writeAt 0 (uint32BE 7) (length_alloc 84) (by decide)
  have htrack := length_writeAt 12 (uint32BE 1) hflags (by decide)
  have hmatrix := length_writeMatrix (o := 40) htrack (by decide)
  have hw := length_writeAt 76 width hmatrix (by omega)
  exact length_writeAt 80 height hw (by omega)

theorem length_sampleEntryHead {width height : Buffer} (hwidth : width.length = 2)
    (hheight : height.length = 2) : (sampleEntryHead width height).length = 78 := by
  have hindex := length_writeAt 6 (uint16BE 1) (length_alloc 78) (by decide)
  have hw := length_writeAt 24 width hindex (by omega)
  have hh := length_writeAt 26 height hw (by omega)
  have hhoriz := length_writeAt 28 (uint32BE 0x00480000) hh (by decide)
  have hvert := length_writeAt 32 (uint32BE 0x00480000) hhoriz (by decide)
  have hcount := length_writeAt 40 (uint16BE 1) hvert (by decide)
  have hdepth := length_writeAt 74 (uint16BE 0x18) hcount (by decide)
  exact length_writeAt 76 [0xff, 0xff] hdepth (by decide)

theorem builds_tkhd {s : Fmp4Muxer} (h : s.Described) : Builds 92 s.tkhd := by
  rw [tkhd, writeUInt32BE_shiftLeft16 h.width, writeUInt32BE_shiftLeft16 h.height, ok_bind,
    ok_bind]
  exact builds_box rfl (by rw [length_tkhdBody rfl rfl]) (by decide)

theorem builds_mdhd (timescale : ℕ) : Builds 40 (mdhd timescale) :=
  builds_box rfl (Nat.le_refl 40) (by decide)

theorem builds_dinf : Builds 36 dinf :=
  builds_boxOf rfl (.cons (builds_headed rfl (builds_box (n := 12) rfl (by decide) (by decide))
    (Nat.le_refl 28) (by decide)) .nil) (by decide) (by decide)

/-- The sample tables are empty but for the entry. -/
theorem builds_stbl {entry : Except MuxError Buffer} {m n : ℕ} (h : Builds m entry)
    (hle : 108 + m ≤ n) (hn : n < 2 ^ 32) : Builds n (stbl entry) := by
  have hstsd : Builds (16 + m) (boxOf .stsd [.ok (u32 0 ++ u32 1), entry]) :=
    builds_headed rfl h (Nat.le_refl _) (by omega)
  have htables : Builds 16 (box .stts (u32 0 ++ u32 0)) := builds_box rfl (by decide) (by decide)
  have hstsc : Builds 16 (box .stsc (u32 0 ++ u32 0)) := builds_box rfl (by decide) (by decide)
  have hstsz : Builds 20 (box .stsz (u32 0 ++ u32 0 ++ u32 0)) :=
    builds_box rfl (by decide) (by decide)
  have hstco : Builds 16 (box .stco (u32 0 ++ u32 0)) := builds_box rfl (by decide) (by decide)
  refine builds_boxOf rfl
    (.cons hstsd (.cons htables (.cons hstsc (.cons hstsz (.cons hstco .nil))))) ?_ hn
  simp only [List.sum_cons, List.sum_nil]
  omega

theorem decoderConfig_ok {s : Fmp4Muxer} (h : s.Described) :
    ∃ bytes, s.decoderConfig = .ok bytes ∧ bytes.length ≤ 2 ^ 31 + 40 := by
  obtain ⟨ps, hps, hdescribable⟩ := h.params
  have htotal := hdescribable.total
  rw [decoderConfig, hps]
  cases s.codec with
  | h264 =>
    obtain ⟨bytes, hbytes, hle⟩ := avcC_ok hdescribable
    exact ⟨bytes, hbytes, by omega⟩
  | h265 =>
    obtain ⟨bytes, hbytes, hle⟩ := hvcC_ok hdescribable
    exact ⟨bytes, hbytes, by omega⟩

theorem builds_sampleEntry {s : Fmp4Muxer} (h : s.Described) :
    Builds (2 ^ 31 + 200) s.sampleEntry := by
  obtain ⟨config, hconfig, hle⟩ := decoderConfig_ok h
  have hleaf : containers (CODEC_BOXES s.codec).2 = none := by cases s.codec <;> rfl
  have hentry : containers (CODEC_BOXES s.codec).1 = some 78 := by cases s.codec <;> rfl
  have hbox : Builds (2 ^ 31 + 100) (box (CODEC_BOXES s.codec).2 config) :=
    builds_box hleaf (by omega) (by decide)
  rw [sampleEntry, writeUInt16BE_ok h.width, writeUInt16BE_ok h.height, hconfig, ok_bind, ok_bind,
    ok_bind]
  have hlength := length_sampleEntryHead (length_uint16BE s.width.toNat)
    (length_uint16BE s.height.toNat)
  exact builds_headed (by rw [hlength, hentry]) hbox (by rw [hlength]; decide) (by decide)

theorem builds_minf {s : Fmp4Muxer} (h : s.Described) : Builds (2 ^ 31 + 400) s.minf := by
  have hvmhd : Builds 20 (box .vmhd (u32 1 ++ alloc 8)) := builds_box rfl (by decide) (by decide)
  have hstbl : Builds (2 ^ 31 + 310) (stbl s.sampleEntry) :=
    builds_stbl (builds_sampleEntry h) (by decide) (by decide)
  exact builds_boxOf rfl (.cons hvmhd (.cons builds_dinf (.cons hstbl .nil))) (by decide)
    (by decide)

theorem builds_mdia {s : Fmp4Muxer} (h : s.Described) : Builds (2 ^ 31 + 500) s.mdia := by
  have hhdlr : Builds 45 (hdlr ['v', 'i', 'd', 'e']
      ['V', 'i', 'd', 'e', 'o', 'H', 'a', 'n', 'd', 'l', 'e', 'r']) :=
    builds_box rfl (by decide) (by decide)
  exact builds_boxOf rfl (.cons (builds_mdhd _) (.cons hhdlr (.cons (builds_minf h) .nil)))
    (by decide) (by decide)

theorem builds_trak {s : Fmp4Muxer} (h : s.Described) : Builds (2 ^ 31 + 600) s.trak :=
  builds_boxOf rfl (.cons (builds_tkhd h) (.cons (builds_mdia h) .nil)) (by decide) (by decide)

theorem descriptor_ok {tag : UInt8} {payload : Buffer} (h : payload.length < 128) :
    descriptor tag payload = .ok ([tag, UInt8.ofNat payload.length] ++ payload) :=
  if_neg (Nat.not_le.mpr h)

theorem builds_esds (s : Fmp4Muxer) : Builds 60 s.esds := by
  have hlength : s.audioConfig.length ≤ 3 := by
    rw [audioConfig]
    split <;> decide
  have hsl : descriptor 0x06 [0x02] = .ok [0x06, 1, 0x02] := rfl
  rw [esds, descriptor_ok (by omega), ok_bind, descriptor_ok, ok_bind, hsl, ok_bind, descriptor_ok,
    ok_bind]
  · refine builds_box rfl ?_ (by decide)
    simp only [List.length_append, List.length_cons, List.length_nil, u32, length_uint32BE,
      length_uint16BE]
    omega
  · simp only [List.length_append, List.length_cons, List.length_nil, u32, length_uint32BE,
      length_uint16BE]
    omega
  · simp only [List.length_append, List.length_cons, List.length_nil, u32, length_uint32BE]
    omega

theorem builds_audioMinf (s : Fmp4Muxer) : Builds 300 s.audioMinf := by
  have hsmhd : Builds 16 (box .smhd (alloc 8)) := builds_box rfl (by decide) (by decide)
  have hentry : Builds 96 s.audioSampleEntry :=
    builds_headed rfl (builds_esds s) (by decide) (by decide)
  have hstbl : Builds 204 (stbl s.audioSampleEntry) :=
    builds_stbl hentry (by decide) (by decide)
  exact builds_boxOf rfl (.cons hsmhd (.cons builds_dinf (.cons hstbl .nil))) (by decide)
    (by decide)

theorem builds_audioTrak (s : Fmp4Muxer) : Builds 600 s.audioTrak := by
  have htkhd : Builds 92 audioTkhd := builds_box rfl (Nat.le_refl 92) (by decide)
  have hhdlr : Builds 45 (hdlr ['s', 'o', 'u', 'n']
      ['S', 'o', 'u', 'n', 'd', 'H', 'a', 'n', 'd', 'l', 'e', 'r']) :=
    builds_box rfl (by decide) (by decide)
  have hmdia : Builds 400 s.audioMdia :=
    builds_boxOf rfl (.cons (builds_mdhd _) (.cons hhdlr (.cons (builds_audioMinf s) .nil)))
      (by decide) (by decide)
  exact builds_boxOf rfl (.cons htkhd (.cons hmdia .nil)) (by decide) (by decide)

theorem builds_trex (trackId : ℕ) : Builds 32 (trex trackId) :=
  builds_box rfl (Nat.le_refl 32) (by decide)

theorem builds_mvex (s : Fmp4Muxer) : Builds 80 s.mvex := by
  rw [mvex]
  split
  · exact builds_boxOf rfl (.cons (builds_trex 1) (.cons (builds_trex 2) .nil)) (by decide)
      (by decide)
  · exact builds_boxOf rfl (.cons (builds_trex 1) .nil) (by decide) (by decide)

theorem builds_moov {s : Fmp4Muxer} (h : s.Described) : Builds (2 ^ 31 + 2000) s.moov := by
  rw [moov]
  split
  · exact builds_boxOf rfl (.cons (builds_mvhd s) (.cons (builds_trak h)
      (.cons (builds_audioTrak s) (.cons (builds_mvex s) .nil)))) (by decide) (by decide)
  · exact builds_boxOf rfl (.cons (builds_mvhd s) (.cons (builds_trak h)
      (.cons (builds_mvex s) .nil))) (by decide) (by decide)

@[simp] theorem alignTimeline_params (s : Fmp4Muxer) : s.alignTimeline.params = s.params := by
  rw [alignTimeline]
  split <;> rfl

theorem described_alignTimeline {s : Fmp4Muxer} (h : s.Described) :
    s.alignTimeline.Described := by
  rw [alignTimeline]
  split
  · exact ⟨h.params, h.width, h.height⟩
  · exact h

/-- The initialisation segment of a muxer whose numbers fit is boxes all the way down. -/
theorem buildInit_ok {s : Fmp4Muxer} (h : s.Described) :
    ∃ bytes, s.buildInit = (.ok bytes, s.alignTimeline) ∧ Nested containers bytes := by
  obtain ⟨bytes, hbytes, hnested, -⟩ :=
    builds_concat (.cons builds_ftyp (.cons (builds_moov (described_alignTimeline h)) .nil))
  exact ⟨bytes, by rw [buildInit, hbytes], hnested⟩

end Fmp4Muxer

end EufySdk
