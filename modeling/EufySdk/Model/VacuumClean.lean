import Mathlib.Tactic
import EufySdk.Core.RawDpWriter

/-!
# Area cleans

The requests of `model/capabilities/vacuum-clean.ts` that name rooms or zones of a map, in the
frame they share with the other mode-control verbs.
-/

namespace EufySdk.VacuumClean

namespace MODE_CTRL_FIELD

def METHOD : ℤ := 1
def SEQ : ℤ := 2

end MODE_CTRL_FIELD

/-- A verb and the field of its payload. -/
structure ModeCtrlParam where
  method : ℤ
  param : ℤ

namespace ModeCtrlParamMethod

def SELECT_ROOMS : ModeCtrlParam := { method := 1, param := 4 }
def SELECT_ZONES : ModeCtrlParam := { method := 2, param := 5 }

end ModeCtrlParamMethod

namespace SELECT_ROOMS_FIELD

def ROOMS : ℤ := 1
def CLEAN_TIMES : ℤ := 2
def MAP_ID : ℤ := 3
def ROOM_ID : ℤ := 1
def ROOM_ORDER : ℤ := 2

end SELECT_ROOMS_FIELD

namespace SELECT_ZONES_FIELD

def ZONES : ℤ := 1
def MAP_ID : ℤ := 2
def QUADRANGLE : ℤ := 1
def ZONE_CLEAN_TIMES : ℤ := 2
def POINT_X : ℤ := 1
def POINT_Y : ℤ := 2

end SELECT_ZONES_FIELD

structure VacuumRoomTarget where
  id : ℤ
  order : Option ℤ := none
  deriving DecidableEq, Repr

structure Corner where
  x : ℤ
  y : ℤ
  deriving DecidableEq, Repr

structure VacuumZoneTarget where
  corners : List Corner
  cleanTimes : Option ℤ := none
  deriving DecidableEq, Repr

/-- The counter behind one more request. -/
def nextModeCtrlSeq (modeCtrlSeq : ℤ) : ℤ := modeCtrlSeq + 1

/-- A request with the number the counter comes to. -/
def encodeModeCtrlParam (modeCtrlSeq method paramField : ℤ)
    (build : RawDpWriter → Except WriteError RawDpWriter) : Except WriteError String :=
  rawDp fun w => do
    let w ← if method ≠ 0 then w.int MODE_CTRL_FIELD.METHOD method else pure w
    let w ← w.int MODE_CTRL_FIELD.SEQ (nextModeCtrlSeq modeCtrlSeq)
    w.sub paramField build

open SELECT_ROOMS_FIELD in
/-- One room of a request. -/
def writeRoom (room : VacuumRoomTarget) (r : RawDpWriter) : Except WriteError RawDpWriter := do
  let r ← r.int ROOM_ID room.id
  match room.order with
  | some order => r.int ROOM_ORDER order
  | none => pure r

def encodeSelectRoomsClean (modeCtrlSeq mapId : ℤ) (rooms : List VacuumRoomTarget)
    (cleanTimes : ℤ) : Except WriteError String :=
  encodeModeCtrlParam modeCtrlSeq ModeCtrlParamMethod.SELECT_ROOMS.method
    ModeCtrlParamMethod.SELECT_ROOMS.param fun p => do
      let p ← rooms.foldlM (fun p room => p.sub SELECT_ROOMS_FIELD.ROOMS (writeRoom room)) p
      let p ← p.int SELECT_ROOMS_FIELD.CLEAN_TIMES cleanTimes
      p.int SELECT_ROOMS_FIELD.MAP_ID mapId

open SELECT_ZONES_FIELD in
/-- A corner of a zone. -/
def writePoint (corner : Corner) (pt : RawDpWriter) : Except WriteError RawDpWriter := do
  let pt ← pt.sint POINT_X corner.x
  pt.sint POINT_Y corner.y

open SELECT_ZONES_FIELD in
/-- One zone of a request: its corners are consecutive fields. -/
def writeZone (zone : VacuumZoneTarget) (z : RawDpWriter) : Except WriteError RawDpWriter := do
  let z ← z.sub QUADRANGLE fun q =>
    zone.corners.zipIdx.foldlM (fun q corner => q.sub (corner.2 + 1) (writePoint corner.1)) q
  match zone.cleanTimes with
  | some cleanTimes => z.int ZONE_CLEAN_TIMES cleanTimes
  | none => pure z

def encodeSelectZonesClean (modeCtrlSeq mapId : ℤ) (zones : List VacuumZoneTarget) :
    Except WriteError String :=
  encodeModeCtrlParam modeCtrlSeq ModeCtrlParamMethod.SELECT_ZONES.method
    ModeCtrlParamMethod.SELECT_ZONES.param fun p => do
      let p ← zones.foldlM (fun p zone => p.sub SELECT_ZONES_FIELD.ZONES (writeZone zone)) p
      p.int SELECT_ZONES_FIELD.MAP_ID mapId

end EufySdk.VacuumClean
