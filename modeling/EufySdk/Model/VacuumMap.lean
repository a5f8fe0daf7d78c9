import Mathlib.Tactic
import EufySdk.Core.Lz4Block
import EufySdk.Core.Numbers
import EufySdk.Model.ProtoRead

/-!
# The planes of a map

The two messages of `model/vacuum-map.ts` that carry a plane: the map, four cells to the byte, and
the outline of its rooms, a byte to the cell. Each comes with the size its plane has once it is
decompressed.

- `planeOf` — a plane, if it is long enough for its grid
- `decodeVacuumMap`, `decodeVacuumRoomOutline`
-/

namespace EufySdk

open Bytes ProtoRead

structure MapPoint where
  x : ℚ
  y : ℚ
  deriving DecidableEq, Repr

structure MapPose where
  x : ℤ
  y : ℤ
  theta : ℤ
  deriving DecidableEq, Repr

inductive DockKind
  | charger
  | station
  deriving DecidableEq, Repr

def DOCK_KINDS : List DockKind := [.charger, .station]

structure MapDock where
  kind : DockKind
  pose : MapPose
  deriving DecidableEq, Repr

inductive MapQuality
  | incomplete
  | rough
  | effective
  | listFull
  deriving DecidableEq, Repr

def MAP_QUALITIES : List MapQuality := [.incomplete, .rough, .effective, .listFull]

structure VacuumMapGeometry where
  width : ℤ
  height : ℤ
  resolution : Option ℤ
  origin : MapPoint
  angle : ℤ
  quality : MapQuality
  docks : List MapDock

inductive MapFrameKind
  | full
  | incremental
  deriving DecidableEq, Repr

def MAP_FRAME_KINDS : List MapFrameKind := [.full, .incremental]

inductive MapCellValue
  | unknown
  | obstacle
  | free
  | carpet
  deriving DecidableEq, Repr

def MAP_CELL_VALUES : List MapCellValue := [.unknown, .obstacle, .free, .carpet]

structure VacuumMapPlane where
  frame : MapFrameKind
  mapId : Option ℤ
  name : Option String
  releases : ℤ
  index : ℤ
  geometry : VacuumMapGeometry
  cells : Buffer

structure VacuumRoomOutline where
  mapId : Option ℤ
  releases : ℤ
  width : ℤ
  height : ℤ
  resolution : Option ℤ
  origin : MapPoint
  cells : Buffer

/-! ### Field numbers -/

namespace POINT

def X : ℕ := 1
def Y : ℕ := 2
def THETA : ℕ := 3

end POINT

def WRAPPED_VALUE : ℕ := 1

namespace MAP_INFO

def WIDTH : ℕ := 2
def HEIGHT : ℕ := 3
def RESOLUTION : ℕ := 4
def ORIGIN : ℕ := 5
def DOCKS : ℕ := 6
def TYPE : ℕ := 7
def ANGLE : ℕ := 9
def DOCKS_V2 : ℕ := 10

end MAP_INFO

namespace DOCK

def TYPE : ℕ := 1
def POSE : ℕ := 2

end DOCK

namespace MAP

def FRAME : ℕ := 3
def PIXELS : ℕ := 4
def PIXEL_SIZE : ℕ := 5
def INFO : ℕ := 6
def NAME : ℕ := 7
def ID : ℕ := 8
def RELEASES : ℕ := 9
def INDEX : ℕ := 10

end MAP

namespace OUTLINE

def MAP_ID : ℕ := 1
def RELEASES : ℕ := 2
def WIDTH : ℕ := 3
def HEIGHT : ℕ := 4
def RESOLUTION : ℕ := 5
def ORIGIN : ℕ := 6
def PIXELS : ℕ := 7
def PIXEL_SIZE : ℕ := 8

end OUTLINE

/-! ### Readers -/

/-- `list[i]`. -/
def elemAt {α : Type} (list : List α) (i : ℤ) : Option α := if i < 0 then none else list[i.toNat]?

/-- A name is found under its place in a list of names. -/
theorem elemAt_idxOf {α : Type} [DecidableEq α] {list : List α} {a : α} (h : a ∈ list) :
    elemAt list (list.idxOf a) = some a := by
  rw [elemAt, if_neg (by omega), Int.toNat_natCast]
  exact List.getElem?_idxOf h

section Readers

variable (codec : RawDpCodec) (fields : Option (List RawDpField))

def mapIdOf (field : ℕ) : Option ℤ :=
  let id := int fields field
  if id = 0 then none else some id

def pointOf (field : ℕ) : MapPoint :=
  let p := sub codec fields field
  ⟨signed p POINT.X, signed p POINT.Y⟩

def poseOf (pose : Option (List RawDpField)) : MapPose :=
  ⟨signed pose POINT.X, signed pose POINT.Y, signed pose POINT.THETA⟩

/-- The docks of the newer list, or of the older one where the newer is empty. -/
def docksOf (info : Option (List RawDpField)) : List MapDock :=
  let v2 := (each codec info MAP_INFO.DOCKS_V2).map fun d =>
    ⟨(elemAt DOCK_KINDS (int (some d) DOCK.TYPE)).getD .charger,
      poseOf (sub codec (some d) DOCK.POSE)⟩
  if v2.length > 0 then v2
  else (each codec info MAP_INFO.DOCKS).map fun p => ⟨.charger, poseOf (some p)⟩

/-- A resolution of zero is one the device left out. -/
def resolutionOf (resolution : ℤ) : Option ℤ := if resolution = 0 then none else some resolution

/-- The geometry, unless it has no dimensions. -/
def geometryOf (info : Option (List RawDpField)) : Option VacuumMapGeometry :=
  let width := int info MAP_INFO.WIDTH
  let height := int info MAP_INFO.HEIGHT
  if width = 0 ∨ height = 0 then none
  else
    some
      { width
        height
        resolution := resolutionOf (int info MAP_INFO.RESOLUTION)
        origin := pointOf codec info MAP_INFO.ORIGIN
        angle := int info MAP_INFO.ANGLE
        quality := (elemAt MAP_QUALITIES (int info MAP_INFO.TYPE)).getD .incomplete
        docks := docksOf codec info }

/-- The pixels, decompressed where they are not of the declared size, and of what the grid needs. -/
def planeOf (pixels size : ℕ) (needed : ℚ) : Option Buffer := do
  let raw ← ProtoRead.bytes fields pixels
  let expected := int fields size
  let plane ← (if raw.length = expected then some raw else lz4BlockDecompress raw expected)
  if needed ≤ plane.length then some plane else none

end Readers

/-! ### Decoders -/

section Decoders

variable (codec : RawDpCodec)

def decodeVacuumMap (toText : Buffer → String) (raw : String) : Option VacuumMapPlane := do
  let fields ← codec.decode raw
  let geometry ← geometryOf codec (sub codec (some fields) MAP.INFO)
  -- a quarter of a double is a double
  let needed : ℚ := ⌈double (geometry.width * geometry.height) / 4⌉
  let cells ← planeOf (some fields) MAP.PIXELS MAP.PIXEL_SIZE needed
  return {
    frame := (elemAt MAP_FRAME_KINDS (int (some fields) MAP.FRAME)).getD .full
    mapId := mapIdOf (some fields) MAP.ID
    name := ProtoRead.text (some fields) MAP.NAME toText
    releases := int (some fields) MAP.RELEASES
    index := int (sub codec (some fields) MAP.INDEX) WRAPPED_VALUE
    geometry
    cells }

def decodeVacuumRoomOutline (raw : String) : Option VacuumRoomOutline := do
  let fields ← codec.decode raw
  let width := int (some fields) OUTLINE.WIDTH
  let height := int (some fields) OUTLINE.HEIGHT
  if width = 0 ∨ height = 0 then none
  else
    let cells ← planeOf (some fields) OUTLINE.PIXELS OUTLINE.PIXEL_SIZE (double (width * height))
    return {
      mapId := mapIdOf (some fields) OUTLINE.MAP_ID
      releases := int (some fields) OUTLINE.RELEASES
      width
      height
      resolution := resolutionOf (int (some fields) OUTLINE.RESOLUTION)
      origin := pointOf codec (some fields) OUTLINE.ORIGIN
      cells }

end Decoders

end EufySdk
