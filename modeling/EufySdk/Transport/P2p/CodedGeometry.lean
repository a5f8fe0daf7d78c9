import Mathlib.Tactic
import EufySdk.Transport.P2p.Annexb

/-!
# The picture size a parameter set declares

`transport/p2p/annexb.ts`, `codedGeometry`: the sequence parameter set is read bit by bit up to
its cropping window. A read past its end answers zero and is remembered, and the parse is thrown
away as a whole.

- `RbspReader` — the reader, with the exp-Golomb codes
- `h264Geometry`, `h265Geometry` — the two syntaxes
- `codedGeometry` — the size, where it is plausible
-/

namespace EufySdk

open Bytes

structure Size where
  width : ℤ
  height : ℤ
  deriving DecidableEq, Repr

/-- Offsets of a window from the edges of a picture. -/
structure CropWindow where
  left : ℤ
  right : ℤ
  top : ℤ
  bottom : ℤ
  deriving DecidableEq, Repr

structure CodedGeometry extends Size where
  coded : Size
  crop : CropWindow
  deriving DecidableEq, Repr

def MAX_CODED_DIMENSION : ℤ := 32768

/-- The profiles whose parameter set has the chroma fields. -/
def H264_CHROMA_PROFILES : List ℕ :=
  [100, 110, 122, 244, 44, 83, 86, 118, 128, 138, 139, 134, 135, 144]

def CHROMA_SUBSAMPLING : ℕ → Option Size
  | 0 => some ⟨1, 1⟩
  | 1 => some ⟨2, 2⟩
  | 2 => some ⟨2, 1⟩
  | 3 => some ⟨1, 1⟩
  | _ => none

/-- The bytes of a unit without the escapes, and the next bit. -/
structure RbspReader where
  bytes : Buffer
  bit : ℕ
  failed : Bool
  deriving DecidableEq, Repr

namespace RbspReader

/-- Take one more byte, unless it is an escape. -/
def unescape (bytes : Buffer) (byte : UInt8) : Buffer :=
  if byte = 3 ∧ 2 ≤ bytes.length ∧ bytes[bytes.length - 1]? = some 0 ∧
      bytes[bytes.length - 2]? = some 0 then bytes
  else bytes ++ [byte]

def ofNal (nal : Buffer) (headerBytes : ℕ) : RbspReader :=
  ⟨(nal.drop headerBytes).foldl unescape [], 0, false⟩

/-- The loop of `u` behind the bits read so far. -/
def bits (value : ℕ) : ℕ → StateM RbspReader ℕ
  | 0 => pure value
  | count + 1 => do
    let r ← get
    match r.bytes[r.bit / 8]? with
    | none =>
      set { r with failed := true }
      return 0
    | some byte =>
      set { r with bit := r.bit + 1 }
      bits (value * 2 + byte.toNat / 2 ^ (7 - r.bit % 8) % 2) count

/-- The next bits as a number, most significant first. -/
def u (count : ℕ) : StateM RbspReader ℕ := bits 0 count

/-- The next bit as a flag. -/
def flag : StateM RbspReader Bool := do return (← u 1) = 1

/-- The zeros before the next one, of which there may be `left` more; `none` where the run is
too long or the bytes run out. -/
def zeros (count : ℕ) (left : ℕ) : StateM RbspReader (Option ℕ) := do
  if (← u 1) ≠ 0 then return some count
  if (← get).failed then return none
  match left with
  | 0 =>
    modify fun r => { r with failed := true }
    return none
  | left + 1 => zeros (count + 1) left

/-- Unsigned exp-Golomb. -/
def ue : StateM RbspReader ℕ := do
  match ← zeros 0 32 with
  | none => return 0
  | some 0 => return 0
  | some count => return 2 ^ count - 1 + (← u count)

/-- Signed exp-Golomb. -/
def se : StateM RbspReader ℤ := do
  let coded ← ue
  return if coded % 2 = 0 then -((coded / 2 : ℕ) : ℤ) else ((coded + 1) / 2 : ℕ)

/-- The loop of `scalingList` with the coefficient it is at. -/
def coefficients (next : ℤ) : ℕ → StateM RbspReader Unit
  | 0 => pure ()
  | count + 1 => do
    if next = 0 then return ()
    let delta ← se
    if (← get).failed then return ()
    coefficients ((next + delta + 256).tmod 256) count

def scalingList (count : ℕ) : StateM RbspReader Unit := coefficients 8 count

/-- The scaling lists from the `i`-th on, each behind its flag. -/
def scalingLists (i : ℕ) : ℕ → StateM RbspReader Unit
  | 0 => pure ()
  | count + 1 => do
    if ← flag then scalingList (if i < 6 then 16 else 64)
    scalingLists (i + 1) count

/-- The offsets of a picture order cycle, until the bytes run out. -/
def cycleOffsets : ℕ → StateM RbspReader Unit
  | 0 => pure ()
  | count + 1 => do
    if (← get).failed then return ()
    let _ ← se
    cycleOffsets count

def cropWindow : StateM RbspReader CropWindow := do
  if !(← flag) then return ⟨0, 0, 0, 0⟩
  let left ← ue
  let right ← ue
  let top ← ue
  let bottom ← ue
  return ⟨left, right, top, bottom⟩

/-- The chroma fields: the format and whether the planes are coded apart. -/
def chromaFields : StateM RbspReader (ℕ × Bool) := do
  let chromaFormatIdc ← ue
  let separateColourPlane ← if chromaFormatIdc = 3 then flag else pure false
  let _ ← ue
  let _ ← ue
  let _ ← u 1
  if ← flag then scalingLists 0 (if chromaFormatIdc ≠ 3 then 8 else 12)
  return (chromaFormatIdc, separateColourPlane)

/-- The fields of the picture order count. -/
def pictureOrderCount : StateM RbspReader Unit := do
  let pictureOrderCountType ← ue
  if pictureOrderCountType = 0 then
    let _ ← ue
  else if pictureOrderCountType = 1 then
    let _ ← u 1
    let _ ← se
    let _ ← se
    cycleOffsets (← ue)

/-- `profile_tier_level` of the sub-layers: their flags and then the records flagged. -/
def subLayers (count : ℕ) : StateM RbspReader Unit := do
  let present ← (List.replicate count ()).mapM fun _ => do
    let profile ← flag
    let level ← flag
    return (profile, level)
  if 0 < count then
    (List.replicate (8 - count) ()).forM fun _ => do
      let _ ← u 2
  present.forM fun (profile, level) => do
    if profile then
      let _ ← u 32
      let _ ← u 32
      let _ ← u 24
    if level then
      let _ ← u 8

end RbspReader

open RbspReader

/-- The size of a picture, coded and with its window cut out. -/
def CodedGeometry.ofWindow (coded : Size) (window : CropWindow) : CodedGeometry :=
  { width := coded.width - window.left - window.right
    height := coded.height - window.top - window.bottom
    coded
    crop := window }

/-- A window in luma samples. -/
def CropWindow.scale (window : CropWindow) (width height : ℤ) : CropWindow :=
  { left := width * window.left
    right := width * window.right
    top := height * window.top
    bottom := height * window.bottom }

/-- The parse of `h264Geometry`. -/
def readH264Geometry : StateM RbspReader (Option CodedGeometry) := do
  let profileIdc ← u 8
  let _ ← u 8
  let _ ← u 8
  let _ ← ue
  let (chromaFormatIdc, separateColourPlane) ←
    if profileIdc ∈ H264_CHROMA_PROFILES then chromaFields else pure (1, false)
  let _ ← ue
  pictureOrderCount
  let _ ← ue
  let _ ← u 1
  let widthMbs : ℕ := (← ue) + 1
  let heightMapUnits : ℕ := (← ue) + 1
  let frameMbsOnly ← flag
  if !frameMbsOnly then
    let _ ← u 1
  let _ ← u 1
  let crop ← cropWindow
  if (← get).failed then return none
  let chromaArrayType := if separateColourPlane then 0 else chromaFormatIdc
  match CHROMA_SUBSAMPLING chromaArrayType with
  | none => return none
  | some subsampling =>
    let fieldFactor : ℤ := if frameMbsOnly then 1 else 2
    let coded : Size := ⟨widthMbs * 16, fieldFactor * heightMapUnits * 16⟩
    return some (.ofWindow coded (crop.scale subsampling.width (subsampling.height * fieldFactor)))

def h264Geometry (sps : Buffer) : Option CodedGeometry := (readH264Geometry.run (.ofNal sps 1)).1

/-- The parse of `h265Geometry`. -/
def readH265Geometry : StateM RbspReader (Option CodedGeometry) := do
  let _ ← u 4
  let maxSubLayersMinus1 ← u 3
  let _ ← u 1
  let _ ← u 32
  let _ ← u 32
  let _ ← u 24
  let _ ← u 8
  subLayers maxSubLayersMinus1
  let _ ← ue
  let chromaFormatIdc ← ue
  if chromaFormatIdc = 3 then
    let _ ← u 1
  let width ← ue
  let height ← ue
  let window ← cropWindow
  if (← get).failed then return none
  match CHROMA_SUBSAMPLING chromaFormatIdc with
  | none => return none
  | some subsampling =>
    return some (.ofWindow ⟨width, height⟩ (window.scale subsampling.width subsampling.height))

def h265Geometry (sps : Buffer) : Option CodedGeometry := (readH265Geometry.run (.ofNal sps 2)).1

def spsGeometry (codec : VideoCodec) (sps : Buffer) : Option CodedGeometry :=
  match codec with
  | .h264 => h264Geometry sps
  | .h265 => h265Geometry sps
  | .av1 => none

/-- The geometry the last sequence parameter set declares, where it is plausible. -/
def codedGeometry (sets : ParamSets) : Option CodedGeometry := do
  let sps ← sets.sps.getLast?
  let geometry ← spsGeometry sets.codec sps
  if 0 < geometry.width ∧ 0 < geometry.height ∧ geometry.width ≤ MAX_CODED_DIMENSION ∧
      geometry.height ≤ MAX_CODED_DIMENSION then some geometry else none

end EufySdk
