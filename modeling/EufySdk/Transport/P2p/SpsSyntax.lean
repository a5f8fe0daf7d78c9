import Mathlib.Tactic
import EufySdk.Transport.P2p.RbspCodes

/-!
# The H.264 sequence parameter set

The syntax of the standard as a tree, its code, and the size of the cropped picture it declares.
`h264Geometry` of `transport/p2p/annexb.ts` answers that size: it takes every element that is
there with exactly its bits.

- `Sps` — the syntax tree, `Sps.encode` its code up to the cropping offsets
- `Sps.croppedSize` — the size by the standard
- `reads_h264Geometry` — what the parse takes and answers
-/

namespace EufySdk.H264

open Bytes BitStrings Reading RbspReader

/-- What `ue(v)` ranges over. -/
abbrev Ue := {n : ℕ // n < 2 ^ 32 - 1}

def Ue.zero : Ue := ⟨0, by decide⟩

/-- What `se(v)` ranges over. -/
abbrev Se := {k : ℤ // -2 ^ 31 < k ∧ k < 2 ^ 31}

/-- A scaling list with `left` coefficients to come: a delta is coded for each up to the one that
brings `nextScale` to zero, and the others repeat `lastScale`. -/
inductive ScalingList : (lastScale nextScale : ℤ) → (left : ℕ) → Type
  | done {lastScale nextScale : ℤ} : ScalingList lastScale nextScale 0
  | repeated {lastScale : ℤ} {left : ℕ} (rest : ScalingList lastScale 0 left) :
      ScalingList lastScale 0 (left + 1)
  | delta {lastScale nextScale : ℤ} {left : ℕ} (deltaScale : ℤ) (range : -128 ≤ deltaScale ∧
      deltaScale ≤ 127) (goes : nextScale ≠ 0)
      (rest : ScalingList
        (if (lastScale + deltaScale + 256) % 256 = 0 then lastScale
          else (lastScale + deltaScale + 256) % 256)
        ((lastScale + deltaScale + 256) % 256) left) :
      ScalingList lastScale nextScale (left + 1)

def ScalingList.encode {lastScale nextScale : ℤ} {left : ℕ} :
    ScalingList lastScale nextScale left → List Bool
  | done => []
  | repeated rest => rest.encode
  | delta deltaScale _ _ rest => signedExpGolomb deltaScale ++ rest.encode

/-- The scaling lists from the `i`-th on, of which there are `left`. -/
inductive ScalingMatrix : (i left : ℕ) → Type
  | done {i : ℕ} : ScalingMatrix i 0
  | absent {i left : ℕ} (rest : ScalingMatrix (i + 1) left) : ScalingMatrix i (left + 1)
  | present {i left : ℕ} (list : ScalingList 8 8 (if i < 6 then 16 else 64))
      (rest : ScalingMatrix (i + 1) left) : ScalingMatrix i (left + 1)

def ScalingMatrix.encode {i left : ℕ} : ScalingMatrix i left → List Bool
  | done => []
  | absent rest => false :: rest.encode
  | present list rest => true :: (list.encode ++ rest.encode)

/-- The fields of the higher profiles. -/
structure Chroma where
  chromaFormatIdc : ℕ
  format_le : chromaFormatIdc ≤ 3
  separateColourPlane : Bool
  separate_format : separateColourPlane = true → chromaFormatIdc = 3
  bitDepthLumaMinus8 : Ue
  bitDepthChromaMinus8 : Ue
  qpprimeYZeroTransformBypass : Bool
  scalingMatrix : Option (ScalingMatrix 0 (if chromaFormatIdc ≠ 3 then 8 else 12))

def Chroma.encodeMatrix (c : Chroma) : List Bool :=
  match c.scalingMatrix with
  | none => [false]
  | some matrix => true :: matrix.encode

def Chroma.encode (c : Chroma) : List Bool :=
  [expGolomb c.chromaFormatIdc,
    if c.chromaFormatIdc = 3 then [c.separateColourPlane] else [],
    expGolomb c.bitDepthLumaMinus8, expGolomb c.bitDepthChromaMinus8,
    [c.qpprimeYZeroTransformBypass], c.encodeMatrix].flatten

/-- The three types of the picture order count. -/
inductive PicOrderCnt
  | lsb (log2MaxPicOrderCntLsbMinus4 : Ue)
  | cycle (deltaPicOrderAlwaysZero : Bool) (offsetForNonRefPic offsetForTopToBottomField : Se)
      (offsetForRefFrame : List Se) (numRefFrames : offsetForRefFrame.length < 2 ^ 32 - 1)
  | outputOrder

def PicOrderCnt.encode : PicOrderCnt → List Bool
  | lsb log2Max => [expGolomb 0, expGolomb log2Max].flatten
  | cycle alwaysZero nonRef topToBottom offsets _ =>
    [expGolomb 1, [alwaysZero], signedExpGolomb nonRef, signedExpGolomb topToBottom,
      expGolomb offsets.length, offsets.flatMap fun k : Se => signedExpGolomb k.1].flatten
  | outputOrder => expGolomb 2

/-- Frames only, or fields too, and then whether the two are mixed within a frame. -/
inductive Scan
  | frameMbsOnly
  | fields (mbAdaptiveFrameField : Bool)

def Scan.encode : Scan → List Bool
  | frameMbsOnly => [true]
  | fields mbAdaptiveFrameField => [false, mbAdaptiveFrameField]

structure FrameCropping where
  left : Ue
  right : Ue
  top : Ue
  bottom : Ue

def encodeCropping : Option FrameCropping → List Bool
  | none => [false]
  | some c =>
    [[true], expGolomb c.left, expGolomb c.right, expGolomb c.top, expGolomb c.bottom].flatten

/-- The profiles whose parameter set has the fields of `Chroma`, with 144, which 244 took the place
of. -/
def HIGHER_PROFILES : List ℕ :=
  [44, 83, 86, 100, 110, 118, 122, 128, 134, 135, 138, 139, 144, 244]

/-- A sequence parameter set up to its cropping offsets. -/
structure Sps where
  profileIdc : UInt8
  constraintFlags : UInt8
  levelIdc : UInt8
  seqParameterSetId : Ue
  chroma : Option Chroma
  chroma_profile : chroma.isSome = true ↔ profileIdc.toNat ∈ HIGHER_PROFILES
  log2MaxFrameNumMinus4 : Ue
  picOrderCnt : PicOrderCnt
  maxNumRefFrames : Ue
  gapsInFrameNumValueAllowed : Bool
  picWidthInMbsMinus1 : Ue
  picHeightInMapUnitsMinus1 : Ue
  scan : Scan
  direct8x8Inference : Bool
  frameCropping : Option FrameCropping

def Sps.encode (s : Sps) : List Bool :=
  [ofNat 8 s.profileIdc.toNat, ofNat 8 s.constraintFlags.toNat, ofNat 8 s.levelIdc.toNat,
    expGolomb s.seqParameterSetId, (s.chroma.map Chroma.encode).getD [],
    expGolomb s.log2MaxFrameNumMinus4, s.picOrderCnt.encode, expGolomb s.maxNumRefFrames,
    [s.gapsInFrameNumValueAllowed], expGolomb s.picWidthInMbsMinus1,
    expGolomb s.picHeightInMapUnitsMinus1, s.scan.encode, [s.direct8x8Inference],
    encodeCropping s.frameCropping].flatten

/-- `ChromaArrayType`: the format, of which the default is 4:2:0, or none for separate planes. -/
def Sps.chromaArrayType (s : Sps) : ℕ :=
  match s.chroma with
  | none => 1
  | some c => if c.separateColourPlane then 0 else c.chromaFormatIdc

/-- `SubWidthC` of a format with chroma. -/
def subWidthC (chromaFormatIdc : ℕ) : ℤ := if chromaFormatIdc = 3 then 1 else 2

/-- `SubHeightC` of a format with chroma. -/
def subHeightC (chromaFormatIdc : ℕ) : ℤ := if chromaFormatIdc = 1 then 2 else 1

def Scan.frameMbsOnlyFlag : Scan → ℤ
  | frameMbsOnly => 1
  | fields _ => 0

def Sps.cropUnitX (s : Sps) : ℤ :=
  if s.chromaArrayType = 0 then 1 else subWidthC s.chromaArrayType

def Sps.cropUnitY (s : Sps) : ℤ :=
  if s.chromaArrayType = 0 then 2 - s.scan.frameMbsOnlyFlag
  else subHeightC s.chromaArrayType * (2 - s.scan.frameMbsOnlyFlag)

/-- The size of the picture in luma samples, with the cropping rectangle cut out. -/
def Sps.croppedSize (s : Sps) : Size :=
  let picWidthInSamples : ℤ := (s.picWidthInMbsMinus1 + 1) * 16
  let frameHeightInMbs : ℤ := (2 - s.scan.frameMbsOnlyFlag) * (s.picHeightInMapUnitsMinus1 + 1)
  match s.frameCropping with
  | none => ⟨picWidthInSamples, frameHeightInMbs * 16⟩
  | some c =>
    ⟨picWidthInSamples - s.cropUnitX * (c.left + c.right),
      frameHeightInMbs * 16 - s.cropUnitY * (c.top + c.bottom)⟩

/-! ### What the parse takes -/

theorem reads_ue_of (n : Ue) : Reads Ahead ue (expGolomb n) n := by
  have hlt := n.2
  exact reads_ue (by omega)

theorem reads_se_of (k : Se) : Reads Ahead se (signedExpGolomb k) k := by
  obtain ⟨hlow, hhigh⟩ := k.2
  refine reads_se ?_
  rw [codeNum]
  split_ifs <;> omega

theorem reads_byte (b : UInt8) : Reads Ahead (u 8) (ofNat 8 b.toNat) b.toNat :=
  reads_u_ofNat b.toNat_lt

/-- Once `nextScale` is zero nothing is coded. -/
theorem ScalingList.encode_zero {lastScale : ℤ} {left : ℕ} (list : ScalingList lastScale 0 left) :
    list.encode = [] := by
  generalize hnext : (0 : ℤ) = nextScale at list
  induction list with
  | done => rfl
  | repeated rest ih => exact ih rfl
  | delta _ _ goes => exact absurd hnext.symm goes

/-- A list is taken with its last delta: `nextScale` is `lastScale` as long as deltas are coded. -/
theorem ScalingList.reads {lastScale nextScale : ℤ} {left : ℕ}
    (list : ScalingList lastScale nextScale left) (hscale : 0 ≤ nextScale)
    (hsame : nextScale ≠ 0 → lastScale = nextScale) :
    Reads Ahead (coefficients nextScale left) list.encode () := by
  induction list with
  | done => exact .answer ()
  | repeated rest =>
    rw [encode, rest.encode_zero, coefficients, if_pos rfl]
    exact .answer ()
  | @delta lastScale nextScale left deltaScale range goes rest ih =>
    obtain rfl := hsame goes
    have hmod : (lastScale + deltaScale + 256).tmod 256 = (lastScale + deltaScale + 256) % 256 :=
      Int.tmod_eq_emod_of_nonneg (by omega)
    rw [encode, coefficients, if_neg goes]
    refine (reads_se (by rw [codeNum]; split_ifs <;> omega)).bind (reads_unless_failed ?_)
    rw [hmod]
    refine ih (Int.emod_nonneg _ (by decide)) fun hne => ?_
    rw [if_neg hne]

theorem ScalingMatrix.reads {i left : ℕ} (matrix : ScalingMatrix i left) :
    Reads Ahead (scalingLists i left) matrix.encode () := by
  induction matrix with
  | done => exact .answer ()
  | absent rest ih =>
    rw [scalingLists, encode, ← List.singleton_append]
    exact (reads_flag false).bind ih
  | present list rest ih =>
    rw [scalingLists, encode, ← List.singleton_append]
    exact (reads_flag true).bind ((list.reads (by decide) fun _ => rfl).bind ih)

theorem Chroma.reads (c : Chroma) :
    Reads Ahead chromaFields c.encode (c.chromaFormatIdc, c.separateColourPlane) := by
  have hformat := c.format_le
  rw [chromaFields, encode]
  simp only [List.flatten_cons, List.flatten_nil, List.append_nil]
  refine (reads_ue (by omega)).bind ?_
  have hdepths : Reads Ahead (do
      let _ ← ue
      let _ ← ue
      let _ ← u 1
      if ← flag then scalingLists 0 (if c.chromaFormatIdc ≠ 3 then 8 else 12)
      return (c.chromaFormatIdc, c.separateColourPlane))
      (expGolomb c.bitDepthLumaMinus8 ++ (expGolomb c.bitDepthChromaMinus8 ++
        ([c.qpprimeYZeroTransformBypass] ++ c.encodeMatrix)))
      (c.chromaFormatIdc, c.separateColourPlane) := by
    refine (reads_ue_of c.bitDepthLumaMinus8).bind ?_
    refine (reads_ue_of c.bitDepthChromaMinus8).bind ?_
    refine (reads_bit c.qpprimeYZeroTransformBypass).bind ?_
    rw [encodeMatrix]
    cases c.scalingMatrix with
    | none => exact (reads_flag false).bind_answer (.answer _)
    | some matrix => exact (reads_flag true).bind (matrix.reads.bind_answer (.answer _))
  by_cases h444 : c.chromaFormatIdc = 3
  · rw [if_pos h444, if_pos h444]
    exact (reads_flag c.separateColourPlane).bind hdepths
  · have hplain : c.separateColourPlane = false :=
      Bool.eq_false_iff.mpr fun h => h444 (c.separate_format h)
    rw [if_neg h444, if_neg h444]
    rw [hplain] at hdepths ⊢
    exact (Reads.answer false).bind hdepths

theorem reads_cycleOffsets (offsets : List Se) :
    Reads Ahead (cycleOffsets offsets.length)
      (offsets.flatMap fun k : Se => signedExpGolomb k.1) () := by
  induction offsets with
  | nil => exact .answer ()
  | cons k offsets ih =>
    rw [List.length_cons, cycleOffsets, List.flatMap_cons]
    exact reads_unless_failed ((reads_se_of k).bind ih)

theorem PicOrderCnt.reads (p : PicOrderCnt) : Reads Ahead pictureOrderCount p.encode () := by
  rw [pictureOrderCount]
  cases p with
  | lsb log2Max =>
    simp only [encode, List.flatten_cons, List.flatten_nil, List.append_nil]
    exact (reads_ue (n := 0) (by decide)).bind ((reads_ue_of log2Max).bind_answer (.answer ()))
  | cycle alwaysZero nonRef topToBottom offsets hlength =>
    simp only [encode, List.flatten_cons, List.flatten_nil, List.append_nil]
    refine (reads_ue (n := 1) (by decide)).bind ((reads_bit _).bind ((reads_se_of _).bind
      ((reads_se_of _).bind ((reads_ue_of ⟨_, hlength⟩).bind ?_))))
    exact reads_cycleOffsets offsets
  | outputOrder => exact (reads_ue (n := 2) (by decide)).bind_answer (.answer ())

/-- The offsets as the parse keeps them. -/
def cropWindowOf : Option FrameCropping → CropWindow
  | none => ⟨0, 0, 0, 0⟩
  | some c => ⟨c.left.1, c.right.1, c.top.1, c.bottom.1⟩

theorem reads_cropWindow (crop : Option FrameCropping) :
    Reads Ahead cropWindow (encodeCropping crop) (cropWindowOf crop) := by
  rw [cropWindow]
  cases crop with
  | none => exact (reads_flag false).bind_answer (.answer _)
  | some c =>
    simp only [encodeCropping, List.flatten_cons, List.flatten_nil, List.append_nil]
    exact (reads_flag true).bind ((reads_ue_of c.left).bind ((reads_ue_of c.right).bind
      ((reads_ue_of c.top).bind ((reads_ue_of c.bottom).bind_answer (.answer _)))))

/-- What the parse answers. -/
def Sps.geometry (s : Sps) : CodedGeometry :=
  let coded : Size :=
    ⟨(s.picWidthInMbsMinus1.1 + 1) * 16,
      (2 - s.scan.frameMbsOnlyFlag) * (s.picHeightInMapUnitsMinus1.1 + 1) * 16⟩
  .ofWindow coded ((cropWindowOf s.frameCropping).scale s.cropUnitX s.cropUnitY)

theorem Sps.geometry_toSize (s : Sps) : s.geometry.toSize = s.croppedSize := by
  rw [croppedSize]
  cases hcrop : s.frameCropping with
  | none =>
    simp only [geometry, hcrop, CodedGeometry.ofWindow, cropWindowOf, CropWindow.scale]
    simp
  | some c =>
    simp only [geometry, hcrop, CodedGeometry.ofWindow, cropWindowOf, CropWindow.scale]
    refine congrArg₂ Size.mk ?_ ?_ <;> ring

theorem mem_higherProfiles (profile : ℕ) :
    profile ∈ H264_CHROMA_PROFILES ↔ profile ∈ HIGHER_PROFILES := by
  simp only [H264_CHROMA_PROFILES, HIGHER_PROFILES, List.mem_cons, List.not_mem_nil, or_false]
  omega

/-- The subsampling of the source is the units of the standard. -/
theorem Sps.subsampling (s : Sps) :
    ∃ width height : ℤ, CHROMA_SUBSAMPLING s.chromaArrayType = some ⟨width, height⟩ ∧
      s.cropUnitX = width ∧ s.cropUnitY = height * (2 - s.scan.frameMbsOnlyFlag) := by
  have hle : s.chromaArrayType ≤ 3 := by
    rw [chromaArrayType]
    split
    · decide
    · split_ifs
      · decide
      · exact Chroma.format_le _
  rw [cropUnitX, cropUnitY]
  generalize s.chromaArrayType = format at hle ⊢
  match format, hle with
  | 0, _ => exact ⟨1, 1, rfl, rfl, (one_mul _).symm⟩
  | 1, _ => exact ⟨2, 2, rfl, rfl, rfl⟩
  | 2, _ => exact ⟨2, 1, rfl, rfl, rfl⟩
  | 3, _ => exact ⟨1, 1, rfl, rfl, rfl⟩

/-- The parse behind the picture's dimensions. -/
def readCropped (chroma : ℕ × Bool) (widthMbs heightMapUnits : ℕ) (frameMbsOnly : Bool) :
    StateM RbspReader (Option CodedGeometry) := do
  let _ ← u 1
  let crop ← cropWindow
  if (← get).failed then return none
  match CHROMA_SUBSAMPLING (if chroma.2 then 0 else chroma.1) with
  | none => return none
  | some subsampling =>
    let fieldFactor : ℤ := if frameMbsOnly then 1 else 2
    let coded : Size := ⟨widthMbs * 16, fieldFactor * heightMapUnits * 16⟩
    return some (.ofWindow coded (crop.scale subsampling.width (subsampling.height * fieldFactor)))

/-- The parse behind the chroma fields. -/
def readDimensions (chroma : ℕ × Bool) : StateM RbspReader (Option CodedGeometry) := do
  let _ ← ue
  pictureOrderCount
  let _ ← ue
  let _ ← u 1
  let width ← ue
  let height ← ue
  let frameMbsOnly ← flag
  if !frameMbsOnly then
    let _ ← u 1
  readCropped chroma (width + 1) (height + 1) frameMbsOnly

theorem readH264Geometry_eq :
    readH264Geometry = (do
      let profileIdc ← u 8
      let _ ← u 8
      let _ ← u 8
      let _ ← ue
      if profileIdc ∈ H264_CHROMA_PROFILES then chromaFields >>= readDimensions
      else pure (1, false) >>= readDimensions) := rfl

theorem Scan.reads_flag (scan : Scan) (chroma : ℕ × Bool) (width height : ℕ) {w : List Bool}
    {a : Option CodedGeometry}
    (h : ∀ frameMbsOnly : Bool, (if frameMbsOnly then 1 else 2) = 2 - scan.frameMbsOnlyFlag →
      Reads Ahead (readCropped chroma width height frameMbsOnly) w a) :
    Reads Ahead (do
      let frameMbsOnly ← flag
      if !frameMbsOnly then
        let _ ← u 1
      readCropped chroma width height frameMbsOnly) (scan.encode ++ w) a := by
  cases scan with
  | frameMbsOnly => exact (RbspReader.reads_flag true).bind (h true rfl)
  | fields mbAdaptiveFrameField =>
    exact (RbspReader.reads_flag false).bind ((reads_bit mbAdaptiveFrameField).bind (h false rfl))

theorem Sps.reads_cropped (s : Sps) {chroma : ℕ × Bool}
    (hchroma : (if chroma.2 then 0 else chroma.1) = s.chromaArrayType) (frameMbsOnly : Bool)
    (hscan : (if frameMbsOnly then 1 else 2) = 2 - s.scan.frameMbsOnlyFlag) :
    Reads Ahead (readCropped chroma (s.picWidthInMbsMinus1 + 1) (s.picHeightInMapUnitsMinus1 + 1)
        frameMbsOnly)
      ([s.direct8x8Inference] ++ encodeCropping s.frameCropping) (some s.geometry) := by
  rw [readCropped]
  refine (reads_bit s.direct8x8Inference).bind ?_
  refine (reads_cropWindow s.frameCropping).bind_answer (reads_unless_failed ?_)
  obtain ⟨width, height, hsubsampling, hx, hy⟩ := s.subsampling
  rw [hchroma, hsubsampling, hscan]
  have hgeometry : s.geometry = .ofWindow
      ⟨((s.picWidthInMbsMinus1.1 + 1 : ℕ) : ℤ) * 16, (2 - s.scan.frameMbsOnlyFlag) *
        ((s.picHeightInMapUnitsMinus1.1 + 1 : ℕ) : ℤ) * 16⟩
      ((cropWindowOf s.frameCropping).scale width (height * (2 - s.scan.frameMbsOnlyFlag))) := by
    rw [geometry, hx, hy]
    push_cast
    rfl
  rw [hgeometry]
  exact .answer _

theorem Sps.reads_dimensions (s : Sps) {chroma : ℕ × Bool}
    (hchroma : (if chroma.2 then 0 else chroma.1) = s.chromaArrayType) :
    Reads Ahead (readDimensions chroma)
      (expGolomb s.log2MaxFrameNumMinus4 ++ (s.picOrderCnt.encode ++
        (expGolomb s.maxNumRefFrames ++ ([s.gapsInFrameNumValueAllowed] ++
          (expGolomb s.picWidthInMbsMinus1 ++ (expGolomb s.picHeightInMapUnitsMinus1 ++
            (s.scan.encode ++ ([s.direct8x8Inference] ++ encodeCropping s.frameCropping))))))))
      (some s.geometry) := by
  rw [readDimensions]
  refine (reads_ue_of s.log2MaxFrameNumMinus4).bind ?_
  refine s.picOrderCnt.reads.bind ?_
  refine (reads_ue_of s.maxNumRefFrames).bind ?_
  refine (reads_bit s.gapsInFrameNumValueAllowed).bind ?_
  refine (reads_ue_of s.picWidthInMbsMinus1).bind ?_
  refine (reads_ue_of s.picHeightInMapUnitsMinus1).bind ?_
  exact s.scan.reads_flag chroma _ _ (s.reads_cropped hchroma)

/-- **The parse takes the whole set** up to its cropping offsets, and answers the geometry. -/
theorem Sps.reads_h264Geometry (s : Sps) :
    Reads Ahead readH264Geometry s.encode (some s.geometry) := by
  rw [readH264Geometry_eq, Sps.encode]
  simp only [List.flatten_cons, List.flatten_nil, List.append_nil]
  refine (reads_byte s.profileIdc).bind ?_
  refine (reads_byte s.constraintFlags).bind ?_
  refine (reads_byte s.levelIdc).bind ?_
  refine (reads_ue_of s.seqParameterSetId).bind ?_
  have hprofile := s.chroma_profile
  rcases hchroma : s.chroma with - | c
  · rw [if_neg fun h => ?_]
    · refine (Reads.answer (1, false)).bind (s.reads_dimensions ?_)
      rw [chromaArrayType, hchroma]
      rfl
    · have hsome := hprofile.mpr ((mem_higherProfiles _).mp h)
      rw [hchroma] at hsome
      exact Bool.false_ne_true hsome
  · rw [if_pos ((mem_higherProfiles _).mpr (hprofile.mp (by rw [hchroma]; rfl)))]
    refine c.reads.bind (s.reads_dimensions ?_)
    rw [chromaArrayType, hchroma]

/-- **The geometry is the standard's.** Of a unit without escapes the size answered is the cropped
size of the set it begins with, whatever is behind the cropping offsets. -/
theorem h264Geometry_encode (s : Sps) (header : UInt8) {payload : Buffer} {rest : List Bool}
    (hcoded : ofBytes payload = s.encode ++ rest)
    (hfree : ¬EmulationPrevention.ESCAPED <:+: payload) :
    (h264Geometry (header :: payload)).map CodedGeometry.toSize = some s.croppedSize := by
  have hahead := ahead_ofNal [header] hfree
  rw [hcoded] at hahead
  have hanswer := (s.reads_h264Geometry _ rest hahead).1
  rw [h264Geometry, ← List.singleton_append]
  rw [List.length_singleton] at hanswer
  rw [hanswer, Option.map_some, s.geometry_toSize]

/-- A set of the baseline profile, of 8 by 6 macroblocks. -/
def baselineSps : Sps where
  profileIdc := 66
  constraintFlags := 0
  levelIdc := 30
  seqParameterSetId := Ue.zero
  chroma := none
  chroma_profile := by decide
  log2MaxFrameNumMinus4 := Ue.zero
  picOrderCnt := .outputOrder
  maxNumRefFrames := ⟨1, by decide⟩
  gapsInFrameNumValueAllowed := false
  picWidthInMbsMinus1 := ⟨7, by decide⟩
  picHeightInMapUnitsMinus1 := ⟨5, by decide⟩
  scan := .frameMbsOnly
  direct8x8Inference := true
  frameCropping := none

theorem h264Geometry_encode_baseline :
    (h264Geometry [0x67, 66, 0, 30, 0xda, 0x08, 0x36, 0x40]).map CodedGeometry.toSize =
      some ⟨128, 96⟩ := by
  have hcoded : ofBytes [66, 0, 30, 0xda, 0x08, 0x36, 0x40] =
      baselineSps.encode ++ ofNat 8 0x40 := by decide +kernel
  exact h264Geometry_encode baselineSps 0x67 hcoded (by decide)

end EufySdk.H264
