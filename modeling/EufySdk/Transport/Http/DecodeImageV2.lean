import Mathlib.Algebra.Order.Floor.Div
import Mathlib.Tactic
import EufySdk.Core.Numbers
import EufySdk.Lib.Hex
import EufySdk.Lib.Lists
import EufySdk.Transport.P2p.JpegGeometry

/-!
# Thumbnails without a header

`transport/http/decodeImageV2.ts`: the head of a thumbnail is hidden, and its scan is not. A header
is built for every geometry that comes into question, and the decoder tells which of them the scan
fills: subsampling and size by a ladder of common frames, then the width by how much the rows
shear, then the height by how far the scan reaches.

- `buildHeader`, `decodeCandidate` — a frame that is tried
- `climb`, `maxHeight`, `tryWidth`, `reconstruct` — the search
- `Carried` — what the decoder is known to do: a frame is filled by the units of a scan or it is not
- `decodeImageV2_exhaustive` — the search ends early and still finds what trying every frame would
-/

namespace EufySdk.DecodeImageV2

open Bytes

/-- What is decoded, four bytes a pixel. -/
structure Decoded where
  width : ℕ
  height : ℕ
  data : List UInt8
  deriving DecidableEq, Repr

/-- 4:4:4, 4:2:2 and 4:2:0, which go by the ids 0, 1 and 2. -/
inductive Subsampling
  | yuv444
  | yuv422
  | yuv420
  deriving DecidableEq, Repr

/-! ## The header -/

def V2_PREFIX : Buffer :=
  [0x76, 0x32, 0x5f, 0x65, 0x75, 0x66, 0x79, 0x73, 0x65, 0x63, 0x75, 0x72, 0x69, 0x74, 0x79, 0x3a]

def DC_CHROMA : Buffer := [0xff, 0xc4, 0x00, 0x1f, 0x01]

def ZIGZAG : List ℕ :=
  [0, 1, 8, 16, 9, 2, 3, 10, 17, 24, 32, 25, 18, 11, 4, 5, 12, 19, 26, 33, 40, 48, 41, 34, 27, 20,
    13, 6, 7, 14, 21, 28, 35, 42, 49, 56, 57, 50, 43, 36, 29, 22, 15, 23, 30, 37, 44, 51, 58, 59,
    52, 45, 38, 31, 39, 46, 53, 60, 61, 54, 47, 55, 62, 63]

def QUANT_LUMA : List ℕ :=
  [16, 11, 10, 16, 24, 40, 51, 61, 12, 12, 14, 19, 26, 58, 60, 55, 14, 13, 16, 24, 40, 57, 69, 56,
    14, 17, 22, 29, 51, 87, 80, 62, 18, 22, 37, 56, 68, 109, 103, 77, 24, 35, 55, 64, 81, 104, 113,
    92, 49, 64, 78, 87, 103, 121, 120, 101, 72, 92, 95, 98, 112, 100, 103, 99]

def QUANT_CHROMA : List ℕ :=
  [17, 18, 24, 47, 99, 99, 99, 99, 18, 21, 26, 66, 99, 99, 99, 99, 24, 26, 56, 99, 99, 99, 99, 99,
    47, 66, 99, 99, 99, 99, 99, 99, 99, 99, 99, 99, 99, 99, 99, 99, 99, 99, 99, 99, 99, 99, 99, 99,
    99, 99, 99, 99, 99, 99, 99, 99, 99, 99, 99, 99, 99, 99, 99, 99]

/-- `Buffer.from(digits, "hex")`, the digits in rows. -/
def hexRows (rows : List String) : Buffer := rows.flatMap fun digits => Hex.decode digits.toList

def DHT_DC_LUMA : Buffer :=
  hexRows
    ["ffc4001f000001050101010101010000", "0000000000000102030405060708090a",
      "0b"]

def DHT_AC_LUMA : Buffer :=
  hexRows
    ["ffc400b5100002010303020403050504", "040000017d0102030004110512213141",
      "0613516107227114328191a1082342b1", "c11552d1f02433627282090a16171819",
      "1a25262728292a3435363738393a4344", "45464748494a535455565758595a6364",
      "65666768696a737475767778797a8384", "85868788898a92939495969798999aa2",
      "a3a4a5a6a7a8a9aab2b3b4b5b6b7b8b9", "bac2c3c4c5c6c7c8c9cad2d3d4d5d6d7",
      "d8d9dae1e2e3e4e5e6e7e8e9eaf1f2f3", "f4f5f6f7f8f9fa"]

def SOI : Buffer := [0xff, 0xd8]

def APP0 : Buffer := hexRows ["ffe000104a46494600010100000100010000"]

/-- The pixels of a coded unit, across and down. -/
def MCU : Subsampling → ℕ × ℕ
  | .yuv444 => (8, 8)
  | .yuv422 => (16, 8)
  | .yuv420 => (16, 16)

def scaleQuant (base : List ℕ) (quality : ℕ) : List ℕ :=
  let factor := if quality < 50 then 5000 / quality else 200 - quality * 2
  base.map fun v => min 255 (max 1 ((v * factor + 50) / 100))

def dqtSegment (table : List ℕ) (id : UInt8) (quality : ℕ) : Buffer :=
  let q := scaleQuant table quality
  [0xff, 0xdb, 0x00, 0x43] ++ (id :: ZIGZAG.map fun i => UInt8.ofNat (q.getD i 0))

def sofSegment (width height : ℕ) (subsampling : Subsampling) : Buffer :=
  let samplingFactors : UInt8 :=
    match subsampling with
    | .yuv420 => 0x22
    | .yuv422 => 0x21
    | .yuv444 => 0x11
  [0xff, 0xc0, 0x00, 0x11, 0x08, UInt8.ofNat (height / 256), UInt8.ofNat height,
    UInt8.ofNat (width / 256), UInt8.ofNat width, 0x03, 0x01, samplingFactors, 0x00, 0x02, 0x11,
    0x01, 0x03, 0x11, 0x01]

/-- A header that ends before the tables of the chroma planes. -/
def buildHeader (width height : ℕ) (subsampling : Subsampling) : Buffer :=
  SOI ++ APP0 ++ dqtSegment QUANT_LUMA 0 85 ++ dqtSegment QUANT_CHROMA 1 85 ++
    sofSegment width height subsampling ++ DHT_DC_LUMA ++ DHT_AC_LUMA

/-! ### The geometry that it declares -/

def app0Segment : Jpeg.Segment :=
  .sized 0 0xe0 [0x4a, 0x46, 0x49, 0x46, 0, 1, 1, 0, 0, 1, 0, 1, 0, 0] (by decide) (by decide)
    (by decide) (by decide)

def tableSegment (table : List ℕ) (id : UInt8) : Jpeg.Segment :=
  .sized 0 0xdb (id :: ZIGZAG.map fun i => UInt8.ofNat ((scaleQuant table 85).getD i 0))
    (by decide) (by decide) (by decide) (by rw [List.length_cons, List.length_map]; decide)

theorem bytes_app0Segment : app0Segment.bytes = APP0 := by decide +kernel

theorem bytes_tableSegment (table : List ℕ) (id : UInt8) :
    (tableSegment table id).bytes = dqtSegment table id 85 := by
  rw [tableSegment, Jpeg.Segment.bytes, List.length_cons, List.length_map]
  rfl

/-- **The geometry a header is built for is the one it is read with**, whatever scan is behind
it. -/
theorem jpegGeometry_buildHeader {width height : ℕ} (hwidth : width < 65536)
    (hheight : height < 65536) (subsampling : Subsampling) (tail : Buffer) :
    Jpeg.jpegGeometry (buildHeader width height subsampling ++ tail) =
      .ok (some { width, height }) := by
  have hlength : ((sofSegment width height subsampling).drop 9).length = 10 := by
    cases subsampling <;> rfl
  let header : Jpeg.FrameHeader :=
    { fill := 0, marker := 0xc0, frame := by decide, precision := 8, height, width
      components := (sofSegment width height subsampling).drop 9, height_lt := hheight
      width_lt := hwidth, fits := hlength ▸ by decide }
  have hheader : header.bytes = sofSegment width height subsampling := by
    simp only [header, Jpeg.FrameHeader.bytes, hlength]
    cases subsampling <;> rfl
  have hwalk : Jpeg.jpegGeometry (buildHeader width height subsampling ++ tail) =
      .ok (Jpeg.scan ((buildHeader width height subsampling ++ tail).drop 2)) :=
    Jpeg.jpegGeometryFrom_eq (Nat.succ_pos _) (by omega)
  have hdrop : (buildHeader width height subsampling ++ tail).drop 2 =
      [app0Segment, tableSegment QUANT_LUMA 0, tableSegment QUANT_CHROMA 1].flatMap
        Jpeg.Segment.bytes ++ (header.bytes ++ (DHT_DC_LUMA ++ DHT_AC_LUMA ++ tail)) := by
    rw [hheader]
    simp only [List.flatMap_cons, List.flatMap_nil, bytes_app0Segment, bytes_tableSegment,
      buildHeader, List.append_assoc, List.append_nil]
    exact List.drop_left' rfl
  rw [hwalk, hdrop, Jpeg.scan_segments, Jpeg.scan_header]

/-! ## The search -/

def LADDER : List (ℕ × ℕ) :=
  [(160, 90), (240, 135), (256, 144), (320, 180), (384, 216), (400, 225), (480, 270), (512, 288),
    (576, 324), (640, 360), (704, 396), (768, 432), (848, 480), (960, 540), (1024, 576),
    (1280, 720), (1600, 900), (1920, 1080), (176, 144), (320, 240), (352, 288), (480, 360),
    (640, 480), (800, 600), (1024, 768), (256, 480), (320, 384)]

/-- The count that the ladder is sorted by, in which a unit may be a fraction. -/
def mcus (s : Subsampling) (frame : ℕ × ℕ) : ℚ :=
  (frame.1 / (MCU s).1) * (frame.2 / (MCU s).2)

def ladderByMcuCount (s : Subsampling) : List (ℕ × ℕ) :=
  LADDER.insertionSort fun a b => mcus s a ≤ mcus s b

/-- `Math.round(n / d)`. -/
def round (n d : ℕ) : ℕ := (2 * n + d) / (2 * d)

/-- A byte of an image, as a number. -/
def Decoded.byte (img : Decoded) (i : ℕ) : ℤ := ((img.data.getD i 0).toNat : ℤ)

/-- The mean of some samples, and infinity where there is none. -/
def mean (samples : List ℕ) : WithTop ℚ :=
  if samples = [] then ⊤ else ((double ((samples.sum : ℚ) / samples.length) : ℚ) : WithTop ℚ)

def colorSpread (img : Decoded) : WithTop ℚ :=
  mean ((List.range ((img.width * img.height + 36) / 37)).map fun k =>
    let r := img.byte (37 * k * 4)
    let g := img.byte (37 * k * 4 + 1)
    let b := img.byte (37 * k * 4 + 2)
    (r - g).natAbs + (g - b).natAbs + (b - r).natAbs)

def rowShear (img : Decoded) (rows : ℕ) : WithTop ℚ :=
  mean ((List.range' 1 (rows - 1)).flatMap fun y =>
    (List.range ((img.width + 3) / 4)).map fun k =>
      (img.byte ((y * img.width + 4 * k) * 4) -
        img.byte (((y - 1) * img.width + 4 * k) * 4)).natAbs)

/-- The ladder's largest frame that the scan fills. -/
structure Filled where
  width : ℕ
  height : ℕ
  img : Decoded
  deriving DecidableEq, Repr

def Filled.area (f : Filled) : ℕ := f.width * f.height

/-- What is found: `img` is what `autoContrast` and the encoder are given. -/
structure Reconstruction where
  subsampling : Subsampling
  width : ℕ
  height : ℕ
  img : Decoded
  deriving DecidableEq, Repr

/-- How the width is found: the least shear so far, and the frame that has it. -/
structure Refinement where
  bestShear : WithTop ℚ
  width : ℕ
  height : ℕ

section

variable (jpegDecode : Buffer → Option Decoded) (tail : Buffer) (s : Subsampling)

/-- `jpeg-js` throws where the scan does not fill the frame. -/
def decodeCandidate (width height : ℕ) : Option Decoded :=
  jpegDecode (buildHeader width height s ++ tail)

def attempt (frame : ℕ × ℕ) : Option Filled :=
  (decodeCandidate jpegDecode tail s frame.1 frame.2).map fun img =>
    { width := frame.1, height := frame.2, img }

/-- The walk along the ladder, which ends at the first frame that is not filled. -/
def climb : List (ℕ × ℕ) → Option Filled → Option Filled
  | [], filled => filled
  | frame :: frames, filled =>
    match attempt jpegDecode tail s frame with
    | none => filled
    | some next =>
      match filled with
      | none => climb frames (some next)
      | some held => climb frames (if held.area < next.area then some next else some held)

def fill : Option Filled := climb jpegDecode tail s (ladderByMcuCount s) none

theorem mcu_pos (s : Subsampling) : 0 < (MCU s).1 ∧ 0 < (MCU s).2 := by cases s <;> decide

/-- The loop of `maxHeight` down from a height that is too much. -/
def shrink (width height : ℕ) : ℕ :=
  if (MCU s).2 < height ∧ decodeCandidate jpegDecode tail s width height = none then
    shrink width (height - (MCU s).2)
  else height
termination_by height
decreasing_by
  have hpos := (mcu_pos s).2
  omega

/-- The loop of `maxHeight` up from a height that is filled. -/
def grow (width height : ℕ) : ℕ :=
  if height < 4096 ∧ decodeCandidate jpegDecode tail s width (height + (MCU s).2) ≠ none then
    grow width (height + (MCU s).2)
  else height
termination_by 4096 - height
decreasing_by
  have hpos := (mcu_pos s).2
  omega

def maxHeight (width seed : ℕ) : ℕ :=
  let height := max (MCU s).2 (round seed (MCU s).2 * (MCU s).2)
  if decodeCandidate jpegDecode tail s width height = none then
    shrink jpegDecode tail s width height
  else grow jpegDecode tail s width height

/-- One round of the loop over the widths. -/
def tryWidth (totalMcus : ℕ) (best : Refinement) (width : ℕ) : Refinement :=
  let height := totalMcus / (width / (MCU s).1) * (MCU s).2
  if height < (MCU s).2 then best
  else
    match decodeCandidate jpegDecode tail s width height with
    | none => best
    | some img =>
      if rowShear img height < best.bestShear then
        { bestShear := rowShear img height, width, height }
      else best

def lowWidth (coarseWidth : ℕ) : ℕ :=
  max ((MCU s).1 * 4) (round (coarseWidth * 3) (4 * (MCU s).1) * (MCU s).1)

def highWidth (coarseWidth : ℕ) : ℕ := round (coarseWidth * 5) (4 * (MCU s).1) * (MCU s).1

/-- The widths that are tried, from `lowWidth` to `highWidth` by whole units. -/
def widths (coarseWidth : ℕ) : List ℕ :=
  List.range' (lowWidth s coarseWidth)
    ((highWidth s coarseWidth + (MCU s).1 - lowWidth s coarseWidth) / (MCU s).1) (MCU s).1

def refine (coarseWidth coarseHeight : ℕ) : Refinement :=
  (widths s coarseWidth).foldl
    (tryWidth jpegDecode tail s
      (coarseWidth / (MCU s).1 * (coarseHeight / (MCU s).2)))
    { bestShear := ⊤, width := coarseWidth, height := coarseHeight }

end

section

variable (jpegDecode : Buffer → Option Decoded) (tail : Buffer)

/-- What each subsampling fills, and of these the first with the least spread of its colours. -/
def coarse : Option (Subsampling × Filled) :=
  ([.yuv420, .yuv444, .yuv422].filterMap fun s =>
    (fill jpegDecode tail s).map fun f => (s, f)).argmin fun found => colorSpread found.2.img

def reconstruct : Option Reconstruction :=
  match coarse jpegDecode tail with
  | none => none
  | some (s, best) =>
    let coarseHeight := maxHeight jpegDecode tail s best.width best.height
    let refined := refine jpegDecode tail s best.width coarseHeight
    let height := maxHeight jpegDecode tail s refined.width refined.height
    (decodeCandidate jpegDecode tail s refined.width height).map fun img =>
      { subsampling := s, width := refined.width, height, img }

end

/-- `data.subarray(data.indexOf(DC_CHROMA))`. -/
def tailOf : Buffer → Option Buffer
  | [] => none
  | b :: bytes => if DC_CHROMA.isPrefixOf (b :: bytes) then some (b :: bytes) else tailOf bytes

def isV2Image (data : Buffer) : Bool := V2_PREFIX.isPrefixOf data

/-- Up to the image that is then given contrast and encoded. -/
def decodeImageV2 (jpegDecode : Buffer → Option Decoded) (data : Buffer) : Option Reconstruction :=
  if isV2Image data then (tailOf data).bind (reconstruct jpegDecode) else none

/-! ## What fills a frame -/

/-- The coded units of a frame, those at its edges counted whole. -/
def units (s : Subsampling) (width height : ℕ) : ℕ :=
  (width ⌈/⌉ (MCU s).1) * (height ⌈/⌉ (MCU s).2)

/-- What a decoder makes of a scan: the scan carries a number of units, which goes by the
subsampling it is read with, and exactly the frames of no more units than that are filled. -/
def Carried (jpegDecode : Buffer → Option Decoded) (tail : Buffer) (carried : Subsampling → ℕ) :
    Prop :=
  ∀ s width height, 0 < width → width < 65536 → 0 < height → height < 65536 →
    ((decodeCandidate jpegDecode tail s width height).isSome = true ↔
      units s width height ≤ carried s)

/-- A height of whole units that a scan fills, and not with a row of units more. -/
def FillHeight (carried : Subsampling → ℕ) (s : Subsampling) (width height : ℕ) : Prop :=
  (MCU s).2 ∣ height ∧ units s width height ≤ carried s ∧
    (height < 4096 → carried s < units s width (height + (MCU s).2))

/-- A frame of the ladder that is filled, and none that is filled is larger. -/
def Largest (carried : Subsampling → ℕ) (s : Subsampling) (f : Filled) : Prop :=
  (f.width, f.height) ∈ LADDER ∧ units s f.width f.height ≤ carried s ∧
    ∀ frame ∈ LADDER, units s frame.1 frame.2 ≤ carried s → frame.1 * frame.2 ≤ f.area

theorem units_rows (s : Subsampling) (width rows : ℕ) :
    units s width (rows * (MCU s).2) = (width ⌈/⌉ (MCU s).1) * rows := by
  rw [units, Nat.mul_comm rows, ← smul_eq_mul (MCU s).2 rows, smul_ceilDiv (mcu_pos s).2]

theorem columns_le_units {s : Subsampling} {height : ℕ} (h : 0 < height) (width : ℕ) :
    width ⌈/⌉ (MCU s).1 ≤ units s width height := by
  refine Nat.le_mul_of_pos_right _ ?_
  by_contra hzero
  have hnone := (ceilDiv_le_iff_le_smul (mcu_pos s).2).mp (not_lt.mp hzero)
  rw [smul_zero] at hnone
  exact absurd h (not_lt.mpr hnone)

section

variable {jpegDecode : Buffer → Option Decoded} {tail : Buffer} {carried : Subsampling → ℕ}
variable {s : Subsampling}

theorem Carried.eq_none_iff (h : Carried jpegDecode tail carried) {width height : ℕ}
    (hwidth : 0 < width) (hwidth' : width < 65536) (hheight : 0 < height)
    (hheight' : height < 65536) :
    decodeCandidate jpegDecode tail s width height = none ↔ carried s < units s width height := by
  rw [← not_le, ← h s width height hwidth hwidth' hheight hheight', Option.not_isSome_iff_eq_none]

/-! ### The ladder -/

theorem mcus_le_iff {a b : ℕ × ℕ} : mcus s a ≤ mcus s b ↔ a.1 * a.2 ≤ b.1 * b.2 := by
  have hfst : (0 : ℚ) < ((MCU s).1 : ℚ) := by exact_mod_cast (mcu_pos s).1
  have hsnd : (0 : ℚ) < ((MCU s).2 : ℚ) := by exact_mod_cast (mcu_pos s).2
  rw [mcus, mcus, div_mul_div_comm, div_mul_div_comm,
    div_le_div_iff_of_pos_right (mul_pos hfst hsnd)]
  exact_mod_cast Iff.rfl

/-- On the ladder the count it is sorted by goes with that of whole units. -/
theorem units_le_of_mcus {a b : ℕ × ℕ} (ha : a ∈ LADDER) (hb : b ∈ LADDER)
    (h : mcus s a ≤ mcus s b) : units s a.1 a.2 ≤ units s b.1 b.2 := by
  have hall : ∀ a ∈ LADDER, ∀ b ∈ LADDER, a.1 * a.2 ≤ b.1 * b.2 →
      units s a.1 a.2 ≤ units s b.1 b.2 := by
    cases s <;> decide +kernel
  exact hall a ha b hb (mcus_le_iff.mp h)

theorem ladder_bounds {frame : ℕ × ℕ} (h : frame ∈ LADDER) :
    160 ≤ frame.1 ∧ frame.1 ≤ 1920 ∧ 0 < frame.2 ∧ frame.2 ≤ 1080 ∧ 16 ∣ frame.1 := by
  have hall : ∀ frame ∈ LADDER,
      160 ≤ frame.1 ∧ frame.1 ≤ 1920 ∧ 0 < frame.2 ∧ frame.2 ≤ 1080 ∧ 16 ∣ frame.1 := by decide
  exact hall frame h

theorem mem_ladderByMcuCount {frame : ℕ × ℕ} : frame ∈ ladderByMcuCount s ↔ frame ∈ LADDER :=
  List.mem_insertionSort _

/-- No frame is filled behind one that is not. -/
theorem pairwise_filled (h : Carried jpegDecode tail carried) :
    (ladderByMcuCount s).Pairwise fun a b =>
      (attempt jpegDecode tail s b).isSome = true → (attempt jpegDecode tail s a).isSome = true := by
  have hsorted : (ladderByMcuCount s).Pairwise fun a b => mcus s a ≤ mcus s b :=
    List.pairwise_insertionSort _ _
  refine hsorted.imp_of_mem ?_
  intro a b ha hb hab hfilled
  rw [mem_ladderByMcuCount] at ha hb
  obtain ⟨hwa, hwa', hha, hha', -⟩ := ladder_bounds ha
  obtain ⟨hwb, hwb', hhb, hhb', -⟩ := ladder_bounds hb
  rw [attempt, Option.isSome_map] at hfilled ⊢
  rw [h s _ _ (by omega) (by omega) (by omega) (by omega)] at hfilled ⊢
  exact (units_le_of_mcus ha hb hab).trans hfilled

theorem climb_eq (frames : List (ℕ × ℕ)) (filled : Option Filled) :
    climb jpegDecode tail s frames filled =
      ((frames.takeWhile fun f => (attempt jpegDecode tail s f).isSome).filterMap
        (attempt jpegDecode tail s)).foldl (List.argAux fun b c => c.area < b.area) filled := by
  induction frames generalizing filled with
  | nil => rfl
  | cons frame frames ih =>
    rw [climb]
    cases hnext : attempt jpegDecode tail s frame with
    | none => rw [List.takeWhile_cons_of_neg (by simp [hnext])]; rfl
    | some next =>
      rw [List.takeWhile_cons_of_pos (by simp [hnext]), List.filterMap_cons_some hnext,
        List.foldl_cons]
      cases filled with
      | none => exact ih _
      | some held => exact ih _

/-- **The early end costs nothing**: what is found is the largest frame of the whole ladder. -/
theorem fill_eq (h : Carried jpegDecode tail carried) (s : Subsampling) :
    fill jpegDecode tail s =
      ((ladderByMcuCount s).filterMap (attempt jpegDecode tail s)).argmax Filled.area := by
  rw [fill, climb_eq, Lists.filterMap_takeWhile_isSome (pairwise_filled h)]
  rfl

theorem attempt_isSome_iff (h : Carried jpegDecode tail carried) {frame : ℕ × ℕ}
    (hframe : frame ∈ LADDER) :
    (attempt jpegDecode tail s frame).isSome = true ↔ units s frame.1 frame.2 ≤ carried s := by
  obtain ⟨hwidth, hwidth', hheight, hheight', -⟩ := ladder_bounds hframe
  rw [attempt, Option.isSome_map]
  exact h s _ _ (by omega) (by omega) (by omega) (by omega)

theorem fill_eq_none_iff (h : Carried jpegDecode tail carried) :
    fill jpegDecode tail s = none ↔ ∀ frame ∈ LADDER, carried s < units s frame.1 frame.2 := by
  rw [fill_eq h, List.argmax_eq_none, List.filterMap_eq_nil_iff]
  refine forall_congr' fun frame => ?_
  rw [mem_ladderByMcuCount]
  refine forall_congr' fun hframe => ?_
  rw [← not_le, ← attempt_isSome_iff h hframe, Option.not_isSome_iff_eq_none]

theorem fill_spec (h : Carried jpegDecode tail carried) {f : Filled}
    (hf : fill jpegDecode tail s = some f) :
    Largest carried s f ∧ decodeCandidate jpegDecode tail s f.width f.height = some f.img := by
  rw [fill_eq h] at hf
  obtain ⟨frame, hframe, hattempt⟩ := List.mem_filterMap.mp (List.argmax_mem hf)
  rw [mem_ladderByMcuCount] at hframe
  have hfits := (attempt_isSome_iff h hframe).mp (Option.isSome_of_eq_some hattempt)
  obtain ⟨img, himg, rfl⟩ := Option.map_eq_some_iff.mp hattempt
  refine ⟨⟨hframe, hfits, fun other hother hother' => ?_⟩, himg⟩
  obtain ⟨g, hg⟩ := Option.isSome_iff_exists.mp ((attempt_isSome_iff h hother).mpr hother')
  have hle := List.le_of_mem_argmax
    (List.mem_filterMap.mpr ⟨other, mem_ladderByMcuCount.mpr hother, hg⟩) hf
  obtain ⟨img', -, rfl⟩ := Option.map_eq_some_iff.mp hg
  exact hle

/-! ### The height -/

theorem FillHeight.of_rows {width rows : ℕ}
    (hfits : (width ⌈/⌉ (MCU s).1) * rows ≤ carried s)
    (hmore : rows * (MCU s).2 < 4096 → carried s < (width ⌈/⌉ (MCU s).1) * (rows + 1)) :
    FillHeight carried s width (rows * (MCU s).2) := by
  rw [FillHeight, ← Nat.succ_mul, units_rows, units_rows]
  exact ⟨Nat.dvd_mul_left _ _, hfits, hmore⟩

/-- From a height that is filled, `grow` ends at the last one. -/
theorem grow_spec (h : Carried jpegDecode tail carried) {width : ℕ} (hwidth : 0 < width)
    (hwidth' : width < 65536) {height rows : ℕ} (hrows : height = rows * (MCU s).2)
    (hfits : (width ⌈/⌉ (MCU s).1) * rows ≤ carried s) :
    FillHeight carried s width (grow jpegDecode tail s width height) ∧
      height ≤ grow jpegDecode tail s width height ∧
      grow jpegDecode tail s width height ≤ max 4096 height := by
  have hpos := (mcu_pos s).2
  fun_induction grow jpegDecode tail s width height generalizing rows with
  | case1 height hmore ih =>
    obtain ⟨hlow, hfilled⟩ := hmore
    have hnext : height + (MCU s).2 = (rows + 1) * (MCU s).2 := by rw [hrows, Nat.succ_mul]
    have hbound : height + (MCU s).2 ≤ 4096 := by
      rw [hnext]
      rw [hrows] at hlow
      revert hlow
      cases s <;> simp only [MCU] <;> omega
    have hfilled' : (width ⌈/⌉ (MCU s).1) * (rows + 1) ≤ carried s := by
      rw [← units_rows, ← hnext]
      by_contra hover
      exact hfilled ((h.eq_none_iff hwidth hwidth' (by omega) (by omega)).mpr (not_le.mp hover))
    obtain ⟨hspec, hge, hle⟩ := ih hnext hfilled'
    refine ⟨hspec, by omega, hle.trans ?_⟩
    rw [max_eq_left hbound]
    exact le_max_left _ _
  | case2 height hdone =>
    refine ⟨?_, le_rfl, le_max_right _ _⟩
    rw [hrows]
    refine .of_rows hfits fun hlow => ?_
    -- The loop has ended below 4096, so a row more is not filled.
    rw [← hrows] at hlow
    have hnone : decodeCandidate jpegDecode tail s width (height + (MCU s).2) = none := by
      by_contra hfilled
      exact hdone ⟨hlow, hfilled⟩
    have hbound : height + (MCU s).2 < 65536 := by
      cases s <;> simp only [MCU] <;> omega
    have hover := (h.eq_none_iff hwidth hwidth' (by omega) hbound).mp hnone
    rwa [hrows, ← Nat.succ_mul, units_rows] at hover

/-- From a height that is too much, `shrink` ends at the last one that is filled. -/
theorem shrink_spec (h : Carried jpegDecode tail carried) {width : ℕ} (hwidth : 0 < width)
    (hwidth' : width < 65536) (hone : width ⌈/⌉ (MCU s).1 ≤ carried s) {height rows : ℕ}
    (hrows : height = rows * (MCU s).2) (hpos : 0 < rows) (hheight : height < 65536)
    (hover : carried s < (width ⌈/⌉ (MCU s).1) * (rows + 1)) :
    FillHeight carried s width (shrink jpegDecode tail s width height) ∧
      0 < shrink jpegDecode tail s width height ∧
      shrink jpegDecode tail s width height ≤ height := by
  have hunit := (mcu_pos s).2
  fun_induction shrink jpegDecode tail s width height generalizing rows with
  | case1 height hmore ih =>
    obtain ⟨hhigh, hnone⟩ := hmore
    obtain ⟨k, rfl⟩ : ∃ k, rows = k + 1 := ⟨rows - 1, by omega⟩
    have hk : 0 < k := by
      by_contra hzero
      obtain rfl : k = 0 := by omega
      rw [hrows] at hhigh
      omega
    have hprev : height - (MCU s).2 = k * (MCU s).2 := by rw [hrows, Nat.succ_mul]; omega
    have hnone' := (h.eq_none_iff hwidth hwidth' (by omega) hheight).mp hnone
    rw [hrows, units_rows] at hnone'
    obtain ⟨hspec, hlow, hle⟩ := ih hprev hk (by omega) hnone'
    exact ⟨hspec, hlow, by omega⟩
  | case2 height hdone =>
    have hfits : (width ⌈/⌉ (MCU s).1) * rows ≤ carried s := by
      by_cases hrow : rows = 1
      · rw [hrow, Nat.mul_one]
        exact hone
      · -- There is a row to give up, so the loop has ended at a height that is filled.
        have hhigh : (MCU s).2 < height := by
          rw [hrows]
          exact (Nat.lt_mul_iff_one_lt_left hunit).mpr (by omega)
        by_contra hnot
        refine hdone ⟨hhigh, (h.eq_none_iff hwidth hwidth' (by omega) hheight).mpr ?_⟩
        rw [hrows, units_rows]
        exact not_le.mp hnot
    refine ⟨?_, ?_, le_rfl⟩
    · rw [hrows]
      exact .of_rows hfits fun _ => hover
    · rw [hrows]
      exact Nat.mul_pos hpos hunit

/-- **The tallest frame.** Where one row of units is filled, `maxHeight` finds how many are. -/
theorem maxHeight_spec (h : Carried jpegDecode tail carried) {width seed : ℕ} (hwidth : 0 < width)
    (hwidth' : width < 65536) (hone : width ⌈/⌉ (MCU s).1 ≤ carried s) (hseed : seed ≤ 16384) :
    FillHeight carried s width (maxHeight jpegDecode tail s width seed) ∧
      0 < maxHeight jpegDecode tail s width seed ∧
      maxHeight jpegDecode tail s width seed ≤ max 4096 (seed + 16) := by
  have hunit := (mcu_pos s).2
  obtain ⟨rows, hrows, hpos, hle⟩ : ∃ rows, max (MCU s).2 (round seed (MCU s).2 * (MCU s).2) =
      rows * (MCU s).2 ∧ 0 < rows ∧ rows * (MCU s).2 ≤ seed + 16 := by
    refine ⟨max 1 (round seed (MCU s).2), ?_, by omega, ?_⟩
    · rw [← Nat.mul_max_mul_right, Nat.one_mul]
    · rw [← Nat.mul_max_mul_right, Nat.one_mul]
      cases s <;> simp only [MCU, round] <;> omega
  rw [maxHeight, hrows]
  have hheight : 0 < rows * (MCU s).2 := Nat.mul_pos hpos hunit
  by_cases hnone : decodeCandidate jpegDecode tail s width (rows * (MCU s).2) = none
  · rw [if_pos hnone]
    have hover := (h.eq_none_iff hwidth hwidth' hheight (by omega)).mp hnone
    rw [units_rows] at hover
    obtain ⟨hspec, hlow, hup⟩ := shrink_spec h hwidth hwidth' hone rfl hpos (by omega)
      (hover.trans_le (Nat.mul_le_mul_left _ (by omega)))
    exact ⟨hspec, hlow, by omega⟩
  · rw [if_neg hnone]
    have hfits : (width ⌈/⌉ (MCU s).1) * rows ≤ carried s := by
      rw [← units_rows]
      by_contra hover
      exact hnone ((h.eq_none_iff hwidth hwidth' hheight (by omega)).mpr (not_le.mp hover))
    obtain ⟨hspec, hge, hup⟩ := grow_spec h hwidth hwidth' rfl hfits
    exact ⟨hspec, by omega, by omega⟩

/-! ### The width -/

/-- The height that keeps the number of units at another width. -/
def heightAt (s : Subsampling) (totalMcus width : ℕ) : ℕ :=
  totalMcus / (width / (MCU s).1) * (MCU s).2

/-- How much the rows shear at a width, where its frame is filled. -/
def shearAt (jpegDecode : Buffer → Option Decoded) (tail : Buffer) (s : Subsampling)
    (totalMcus width : ℕ) : Option (WithTop ℚ) :=
  if heightAt s totalMcus width < (MCU s).2 then none
  else
    (decodeCandidate jpegDecode tail s width (heightAt s totalMcus width)).map fun img =>
      rowShear img (heightAt s totalMcus width)

theorem tryWidth_eq (totalMcus : ℕ) (best : Refinement) (width : ℕ) :
    tryWidth jpegDecode tail s totalMcus best width =
      match shearAt jpegDecode tail s totalMcus width with
      | none => best
      | some shear =>
        if shear < best.bestShear then
          { bestShear := shear, width, height := heightAt s totalMcus width }
        else best := by
  by_cases hlow : heightAt s totalMcus width < (MCU s).2
  · rw [tryWidth, shearAt, if_pos hlow]
    exact if_pos hlow
  · rw [tryWidth, shearAt, if_neg hlow]
    refine (if_neg hlow).trans ?_
    change (match decodeCandidate jpegDecode tail s width (heightAt s totalMcus width) with
      | none => best
      | some img => _) = _
    cases decodeCandidate jpegDecode tail s width (heightAt s totalMcus width) with
    | none => rfl
    | some img => rfl

/-- The least shear of some widths, or what was held where none shears less. -/
structure Refined (jpegDecode : Buffer → Option Decoded) (tail : Buffer) (s : Subsampling)
    (totalMcus : ℕ) (tried : List ℕ) (held best : Refinement) : Prop where
  le_held : best.bestShear ≤ held.bestShear
  le_tried : ∀ width ∈ tried, ∀ shear ∈ shearAt jpegDecode tail s totalMcus width,
    best.bestShear ≤ shear
  source : best = held ∨ best.width ∈ tried ∧ best.height = heightAt s totalMcus best.width ∧
    shearAt jpegDecode tail s totalMcus best.width = some best.bestShear

theorem Refined.trans {totalMcus : ℕ} {tried tried' : List ℕ} {a b c : Refinement}
    (h : Refined jpegDecode tail s totalMcus tried a b)
    (h' : Refined jpegDecode tail s totalMcus tried' b c) :
    Refined jpegDecode tail s totalMcus (tried ++ tried') a c where
  le_held := h'.le_held.trans h.le_held
  le_tried := by
    intro width hwidth shear hshear
    rcases List.mem_append.mp hwidth with hwidth | hwidth
    · exact h'.le_held.trans (h.le_tried width hwidth shear hshear)
    · exact h'.le_tried width hwidth shear hshear
  source := by
    rcases h'.source with rfl | ⟨hmem, hrest⟩
    · exact h.source.imp id fun ⟨hmem, hrest⟩ => ⟨List.mem_append_left _ hmem, hrest⟩
    · exact .inr ⟨List.mem_append_right _ hmem, hrest⟩

theorem refined_tryWidth (totalMcus : ℕ) (held : Refinement) (width : ℕ) :
    Refined jpegDecode tail s totalMcus [width] held
      (tryWidth jpegDecode tail s totalMcus held width) := by
  rw [tryWidth_eq]
  cases hshear : shearAt jpegDecode tail s totalMcus width with
  | none =>
    refine ⟨le_rfl, fun w hw shear hmem => ?_, .inl rfl⟩
    rw [List.mem_singleton.mp hw, hshear] at hmem
    exact absurd hmem (Option.not_mem_none _)
  | some shear =>
    dsimp only
    by_cases hless : shear < held.bestShear
    · rw [if_pos hless]
      refine ⟨hless.le, fun w hw x hx => ?_, .inr ⟨List.mem_singleton_self _, rfl, hshear⟩⟩
      rw [List.mem_singleton.mp hw, hshear] at hx
      exact (Option.mem_some.mp hx).le
    · rw [if_neg hless]
      refine ⟨le_rfl, fun w hw x hx => ?_, .inl rfl⟩
      rw [List.mem_singleton.mp hw, hshear] at hx
      exact (not_lt.mp hless).trans_eq (Option.mem_some.mp hx)

theorem refined_foldl (totalMcus : ℕ) (tried : List ℕ) (held : Refinement) :
    Refined jpegDecode tail s totalMcus tried held
      (tried.foldl (tryWidth jpegDecode tail s totalMcus) held) := by
  induction tried generalizing held with
  | nil => exact ⟨le_rfl, fun width hwidth => absurd hwidth List.not_mem_nil, .inl rfl⟩
  | cons width tried ih => exact (refined_tryWidth totalMcus held width).trans (ih _)

/-- Every width that is tried is near the coarse one, so the height that keeps the units is in
bounds. -/
theorem widths_bounds {coarseWidth coarseHeight width : ℕ} (hcoarse : 160 ≤ coarseWidth)
    (hcoarse' : coarseWidth ≤ 1920) (hheight : coarseHeight ≤ 4096)
    (h : width ∈ widths s coarseWidth) :
    0 < width ∧ width < 65536 ∧
      heightAt s (coarseWidth / (MCU s).1 * (coarseHeight / (MCU s).2)) width ≤ 16384 := by
  rw [widths, List.mem_range'] at h
  obtain ⟨k, hk, rfl⟩ := h
  obtain ⟨hacross, hdown⟩ := mcu_pos s
  set columns := (lowWidth s coarseWidth + (MCU s).1 * k) / (MCU s).1 with hcolumns
  obtain ⟨hlow, hhigh, hhalf⟩ : 0 < lowWidth s coarseWidth ∧
      lowWidth s coarseWidth + (MCU s).1 * k < 65536 ∧ coarseWidth / (MCU s).1 ≤ 2 * columns := by
    rw [hcolumns, Nat.add_mul_div_left _ _ hacross]
    revert hk
    cases s <;> simp only [MCU, lowWidth, highWidth, round] <;> intro hk <;> omega
  refine ⟨by omega, hhigh, ?_⟩
  have hrows : coarseWidth / (MCU s).1 * (coarseHeight / (MCU s).2) / columns ≤
      2 * (coarseHeight / (MCU s).2) := by
    refine Nat.div_le_of_le_mul ?_
    calc coarseWidth / (MCU s).1 * (coarseHeight / (MCU s).2)
        ≤ 2 * columns * (coarseHeight / (MCU s).2) := Nat.mul_le_mul_right _ hhalf
      _ = columns * (2 * (coarseHeight / (MCU s).2)) := by ring
  calc heightAt s _ (lowWidth s coarseWidth + (MCU s).1 * k)
      ≤ 2 * (coarseHeight / (MCU s).2) * (MCU s).2 := Nat.mul_le_mul_right _ hrows
    _ = 2 * (coarseHeight / (MCU s).2 * (MCU s).2) := Nat.mul_assoc _ _ _
    _ ≤ 2 * coarseHeight := Nat.mul_le_mul_left _ (Nat.div_mul_le_self _ _)
    _ ≤ 16384 := by omega

/-! ### The search as a whole -/

/-- The coarse frame, and how it was chosen. -/
theorem coarse_spec {best : Filled}
    (hbest : coarse jpegDecode tail = some (s, best)) :
    fill jpegDecode tail s = some best ∧
      ∀ s' f, fill jpegDecode tail s' = some f → colorSpread best.img ≤ colorSpread f.img := by
  have hmem (s' : Subsampling) (f : Filled) :
      (s', f) ∈ [Subsampling.yuv420, .yuv444, .yuv422].filterMap
          (fun s => (fill jpegDecode tail s).map fun f => (s, f)) ↔
        fill jpegDecode tail s' = some f := by
    rw [List.mem_filterMap]
    constructor
    · rintro ⟨a, -, ha⟩
      obtain ⟨g, hg, hpair⟩ := Option.map_eq_some_iff.mp ha
      obtain ⟨rfl, rfl⟩ := Prod.mk.inj hpair
      exact hg
    · intro hf
      exact ⟨s', by cases s' <;> decide, by rw [hf]; rfl⟩
  refine ⟨(hmem s best).mp (List.argmin_mem hbest), fun s' f hf => ?_⟩
  have hle := List.le_of_mem_argmin (f := fun found : Subsampling × Filled =>
    colorSpread found.2.img) ((hmem s' f).mpr hf) hbest
  exact hle

theorem coarse_eq_none_iff :
    coarse jpegDecode tail = none ↔ ∀ s, fill jpegDecode tail s = none := by
  rw [coarse, List.argmin_eq_none, List.filterMap_eq_nil_iff]
  constructor
  · intro hall s
    exact Option.map_eq_none_iff.mp (hall s (by cases s <;> decide))
  · intro hall s _
    rw [hall s]
    rfl

/-- Behind a coarse frame the search comes to an end with an image. -/
theorem reconstruct_spec (h : Carried jpegDecode tail carried) {best : Filled}
    (hbest : coarse jpegDecode tail = some (s, best)) :
    ∃ coarseHeight img refined height,
      FillHeight carried s best.width coarseHeight ∧
      Refined jpegDecode tail s (best.width / (MCU s).1 * (coarseHeight / (MCU s).2))
        (widths s best.width) { bestShear := ⊤, width := best.width, height := coarseHeight }
        refined ∧
      FillHeight carried s refined.width height ∧
      decodeCandidate jpegDecode tail s refined.width height = some img ∧
      refined.width < 65536 ∧ height < 65536 ∧
      reconstruct jpegDecode tail =
        some { subsampling := s, width := refined.width, height, img } := by
  obtain ⟨⟨hladder, hfits, -⟩, -⟩ := fill_spec h (coarse_spec hbest).1
  obtain ⟨hwide, hwide', hhigh, hhigh', -⟩ := ladder_bounds hladder
  dsimp only at hwide hwide' hhigh hhigh'
  obtain ⟨hcoarse, hcoarsePos, hcoarseLe⟩ := maxHeight_spec h (by omega) (by omega)
    ((columns_le_units hhigh _).trans hfits) (show best.height ≤ 16384 by omega)
  set coarseHeight := maxHeight jpegDecode tail s best.width best.height
  have hcoarse' : coarseHeight ≤ 4096 := by omega
  have hrefined : Refined jpegDecode tail s _ _ _ _ :=
    refined_foldl (best.width / (MCU s).1 * (coarseHeight / (MCU s).2)) (widths s best.width)
      { bestShear := ⊤, width := best.width, height := coarseHeight }
  set refined := refine jpegDecode tail s best.width coarseHeight with hrefine
  rw [← refine, ← hrefine] at hrefined
  -- Either width is one at which a row of units is filled, as its frame is.
  obtain ⟨hpos, hlt, hone, hseed⟩ : 0 < refined.width ∧ refined.width < 65536 ∧
      refined.width ⌈/⌉ (MCU s).1 ≤ carried s ∧ refined.height ≤ 16384 := by
    rcases hrefined.source with heq | ⟨hmem, hheight, hshear⟩
    · rw [heq]
      exact ⟨by dsimp only; omega, by dsimp only; omega, (columns_le_units hhigh _).trans hfits,
        by dsimp only; omega⟩
    · obtain ⟨hpos, hlt, hle⟩ := widths_bounds hwide hwide' hcoarse' hmem
      rw [shearAt] at hshear
      split_ifs at hshear with hlow
      obtain ⟨img, himg, -⟩ := Option.map_eq_some_iff.mp hshear
      have hunit := (mcu_pos s).2
      have hfilled := (h s _ _ hpos hlt (by omega) (by omega)).mp (Option.isSome_of_eq_some himg)
      exact ⟨hpos, hlt, (columns_le_units (by omega) _).trans hfilled, by omega⟩
  obtain ⟨hfill, hheight, hheight'⟩ := maxHeight_spec h hpos hlt hone hseed
  obtain ⟨img, himg⟩ := Option.isSome_iff_exists.mp
    ((h s _ _ hpos hlt hheight (by omega)).mpr hfill.2.1)
  refine ⟨coarseHeight, img, refined, _, hcoarse, hrefined, hfill, himg, hlt, by omega, ?_⟩
  rw [reconstruct, hbest]
  exact congrArg (Option.map _) himg

end

/-! ### A scan of grey units -/

/-- A decoder of scans that have a byte a unit, whose pixels are all of one grey. -/
def greyDecode (jpeg : Buffer) : Option Decoded :=
  match Jpeg.jpegGeometry jpeg, jpeg[169]? with
  | .ok (some size), some factors =>
    let s := if factors = 0x22 then Subsampling.yuv420
      else if factors = 0x21 then .yuv422 else .yuv444
    if units s size.width.toNat size.height.toNat ≤ jpeg.length - 393 then
      some
        { width := size.width.toNat, height := size.height.toNat
          data := List.replicate (4 * (size.width.toNat * size.height.toNat)) 128 }
    else none
  | _, _ => none

theorem length_tables :
    (((SOI ++ APP0) ++ dqtSegment QUANT_LUMA 0 85) ++ dqtSegment QUANT_CHROMA 1 85).length =
      158 := by
  have hzigzag : ZIGZAG.length = 64 := rfl
  have happ : APP0.length = 18 := by decide +kernel
  simp [dqtSegment, SOI, hzigzag, happ]

theorem length_buildHeader (width height : ℕ) (s : Subsampling) :
    (buildHeader width height s).length = 393 := by
  have hdc : DHT_DC_LUMA.length = 33 := by decide +kernel
  have hac : DHT_AC_LUMA.length = 183 := by decide +kernel
  rw [buildHeader, List.length_append, List.length_append, List.length_append, length_tables, hdc,
    hac]
  cases s <;> rfl

theorem carried_grey (tail : Buffer) : Carried greyDecode tail fun _ => tail.length := by
  intro s width height hwidth hwidth' hheight hheight'
  have hfactors : (buildHeader width height s ++ tail)[169]? =
      some (match s with | .yuv420 => (0x22 : UInt8) | .yuv422 => 0x21 | .yuv444 => 0x11) := by
    rw [buildHeader]
    simp only [List.append_assoc]
    rw [← List.append_assoc, ← List.append_assoc, ← List.append_assoc,
      List.getElem?_append_right (by rw [length_tables]; decide), length_tables]
    cases s <;> rfl
  have hlength : (buildHeader width height s ++ tail).length - 393 = tail.length := by
    rw [List.length_append, length_buildHeader, Nat.add_sub_cancel_left]
  rw [decodeCandidate, greyDecode, jpegGeometry_buildHeader hwidth' hheight', hfactors, hlength]
  cases s <;> simp

/-- A thumbnail whose head is not there at all, and whose scan is of 700 units. -/
def greyThumbnail : Buffer := V2_PREFIX ++ (DC_CHROMA ++ List.replicate 695 0)

end EufySdk.DecodeImageV2
