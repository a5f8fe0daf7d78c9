import Mathlib.Tactic
import EufySdk.Model.DeviceMessage
import EufySdk.Model.VacuumMap
import EufySdk.Model.VacuumMapStore

/-!
# The parts of a map

The messages of `model/vacuum-map.ts` beside its planes: the rooms with their names and settings,
the zones, the description, the pose, and the backup that holds one of each.

- `decodeVacuumRoomParams`, `decodeVacuumRestrictedZones`, `decodeVacuumMapDescription`,
  `decodeVacuumPose`
- `decodeVacuumMapBackup` — the parts of a backup, each framed again for its own decoder
- `decode_reframe` — a part is read as it would be on its own
-/

namespace EufySdk

open Bytes ProtoRead

structure MapLine where
  «from» : MapPoint
  «to» : MapPoint
  deriving DecidableEq, Repr

structure MapQuad where
  corners : MapPoint × MapPoint × MapPoint × MapPoint
  deriving DecidableEq, Repr

inductive FloorType
  | unknown
  | carpet
  | wood
  | tile
  deriving DecidableEq, Repr

def FLOOR_TYPES : List FloorType := [.unknown, .carpet, .wood, .tile]

inductive RoomScene
  | unknown
  | study
  | bedroom
  | bathroom
  | kitchen
  | livingRoom
  | diningRoom
  | corridor
  deriving DecidableEq, Repr

def ROOM_SCENES : List RoomScene :=
  [.unknown, .study, .bedroom, .bathroom, .kitchen, .livingRoom, .diningRoom, .corridor]

inductive RoomSuction
  | quiet
  | standard
  | turbo
  | max
  | maxPlus
  deriving DecidableEq, Repr

def ROOM_SUCTIONS : List RoomSuction := [.quiet, .standard, .turbo, .max, .maxPlus]

inductive VacuumCleanType
  | sweep
  | mop
  | sweepAndMop
  | sweepThenMop
  deriving DecidableEq, Repr

def VACUUM_CLEAN_TYPES : List VacuumCleanType := [.sweep, .mop, .sweepAndMop, .sweepThenMop]

inductive MopLevel
  | low
  | middle
  | high
  deriving DecidableEq, Repr

def MOP_LEVELS : List MopLevel := [.low, .middle, .high]

inductive CleanExtent
  | normal
  | narrow
  | quick
  deriving DecidableEq, Repr

def CLEAN_EXTENTS : List CleanExtent := [.normal, .narrow, .quick]

structure VacuumRoomSettings where
  cleanType : Option VacuumCleanType
  suction : Option RoomSuction
  mopLevel : Option MopLevel
  cleanExtent : Option CleanExtent
  cleanTimes : Option ℤ
  deriving DecidableEq, Repr

structure VacuumRoom where
  id : ℤ
  name : Option String
  scene : RoomScene
  sceneIndex : ℤ
  floor : FloorType
  order : ℤ
  settings : VacuumRoomSettings
  deriving DecidableEq, Repr

structure VacuumRoomParams where
  mapId : Option ℤ
  releases : ℤ
  customEnabled : Bool
  smartMode : Bool
  rooms : List VacuumRoom
  deriving DecidableEq, Repr

structure VacuumRestrictedZones where
  mapId : Option ℤ
  releases : ℤ
  virtualWalls : List MapLine
  noGoZones : List MapQuad
  noMopZones : List MapQuad
  deriving DecidableEq, Repr

structure VacuumMapDescription where
  mapId : Option ℤ
  releases : ℤ
  name : Option String
  createCause : ℤ
  createdAt : Option ℤ
  lastUsedAt : Option ℤ
  deriving DecidableEq, Repr

/-! ### Field numbers -/

namespace LINE

def P0 : ℕ := 1
def P1 : ℕ := 2

end LINE

namespace QUAD

def P0 : ℕ := 1
def P1 : ℕ := 2
def P2 : ℕ := 3
def P3 : ℕ := 4

end QUAD

namespace ROOM_PARAMS

def CUSTOM_ENABLE : ℕ := 1
def ROOMS : ℕ := 2
def MAP_ID : ℕ := 3
def RELEASES : ℕ := 4
def SMART_MODE : ℕ := 6

end ROOM_PARAMS

namespace ROOM

def ID : ℕ := 1
def NAME : ℕ := 2
def FLOOR : ℕ := 3
def SCENE : ℕ := 4
def ORDER : ℕ := 6
def CUSTOM : ℕ := 7

end ROOM

namespace ROOM_SCENE

def TYPE : ℕ := 1
def INDEX : ℕ := 2

end ROOM_SCENE

namespace ROOM_CUSTOM

def CLEAN_TYPE : ℕ := 1
def FAN : ℕ := 2
def MOP_MODE : ℕ := 3
def CLEAN_EXTENT : ℕ := 4
def CLEAN_TIMES : ℕ := 5

end ROOM_CUSTOM

namespace ZONES

def VIRTUAL_WALLS : ℕ := 1
def FORBIDDEN : ℕ := 2
def BAN_MOP : ℕ := 3
def MAP_ID : ℕ := 4
def RELEASES : ℕ := 5

end ZONES

namespace DESCRIPTION

def NAME : ℕ := 2
def CREATE_CAUSE : ℕ := 3
def CREATE_TIME : ℕ := 4
def LAST_TIME : ℕ := 5
def MAP_ID : ℕ := 6
def RELEASES : ℕ := 7

end DESCRIPTION

namespace BACKUP

def DESC : ℕ := 1
def MAP : ℕ := 2
def ROOMS : ℕ := 3
def ROOM_PARAMS : ℕ := 4
def RESTRICTED_ZONE : ℕ := 5

end BACKUP

def DYNAMIC_CUR_POSE : ℕ := 1

/-! ### Decoders -/

section Decoders

variable (codec : RawDpCodec) (toText : Buffer → String)

def lineOf (line : Option (List RawDpField)) : MapLine :=
  ⟨pointOf codec line LINE.P0, pointOf codec line LINE.P1⟩

def quadOf (quad : Option (List RawDpField)) : MapQuad :=
  ⟨pointOf codec quad QUAD.P0, pointOf codec quad QUAD.P1, pointOf codec quad QUAD.P2,
    pointOf codec quad QUAD.P3⟩

def decodeVacuumMapGeometry (raw : String) : Option VacuumMapGeometry := do
  let fields ← codec.decode raw
  geometryOf codec (some fields)

def decodeVacuumPose (raw : String) : Option MapPose := do
  let fields ← codec.decode raw
  let pose ← sub codec (some fields) DYNAMIC_CUR_POSE
  return poseOf (some pose)

/-- A setting is a message of its own: none is no setting, and an empty one is the zero. -/
def wrapped (custom : Option (List RawDpField)) (field : ℕ) : Option ℤ :=
  (sub codec custom field).map fun inner => int (some inner) WRAPPED_VALUE

def settingsOf (room : Option (List RawDpField)) : VacuumRoomSettings :=
  let custom := sub codec room ROOM.CUSTOM
  let times := int custom ROOM_CUSTOM.CLEAN_TIMES
  { cleanType := elemAt VACUUM_CLEAN_TYPES ((wrapped codec custom ROOM_CUSTOM.CLEAN_TYPE).getD (-1))
    suction := elemAt ROOM_SUCTIONS ((wrapped codec custom ROOM_CUSTOM.FAN).getD (-1))
    mopLevel := elemAt MOP_LEVELS ((wrapped codec custom ROOM_CUSTOM.MOP_MODE).getD (-1))
    cleanExtent := elemAt CLEAN_EXTENTS ((wrapped codec custom ROOM_CUSTOM.CLEAN_EXTENT).getD (-1))
    cleanTimes := if times = 0 then none else some times }

/-- One room of the list. -/
def roomOf (room : List RawDpField) : VacuumRoom :=
  let scene := sub codec (some room) ROOM.SCENE
  { id := int (some room) ROOM.ID
    name := ProtoRead.text (some room) ROOM.NAME toText
    scene := (elemAt ROOM_SCENES (int scene ROOM_SCENE.TYPE)).getD .unknown
    sceneIndex := int (sub codec scene ROOM_SCENE.INDEX) WRAPPED_VALUE
    floor :=
      (elemAt FLOOR_TYPES (int (sub codec (some room) ROOM.FLOOR) WRAPPED_VALUE)).getD .unknown
    order := int (sub codec (some room) ROOM.ORDER) WRAPPED_VALUE
    settings := settingsOf codec (some room) }

def decodeVacuumRoomParams (raw : String) : Option VacuumRoomParams := do
  let fields ← codec.decode raw
  return {
    mapId := mapIdOf (some fields) ROOM_PARAMS.MAP_ID
    releases := int (some fields) ROOM_PARAMS.RELEASES
    customEnabled := flag (some fields) ROOM_PARAMS.CUSTOM_ENABLE
    smartMode := flag (sub codec (some fields) ROOM_PARAMS.SMART_MODE) WRAPPED_VALUE
    rooms := (each codec (some fields) ROOM_PARAMS.ROOMS).map (roomOf codec toText) }

def decodeVacuumRestrictedZones (raw : String) : Option VacuumRestrictedZones := do
  let fields ← codec.decode raw
  return {
    mapId := mapIdOf (some fields) ZONES.MAP_ID
    releases := int (some fields) ZONES.RELEASES
    virtualWalls :=
      (each codec (some fields) ZONES.VIRTUAL_WALLS).map fun l => lineOf codec (some l)
    noGoZones := (each codec (some fields) ZONES.FORBIDDEN).map fun q => quadOf codec (some q)
    noMopZones := (each codec (some fields) ZONES.BAN_MOP).map fun q => quadOf codec (some q) }

def decodeVacuumMapDescription (raw : String) : Option VacuumMapDescription := do
  let fields ← codec.decode raw
  let created := int (some fields) DESCRIPTION.CREATE_TIME
  let used := int (some fields) DESCRIPTION.LAST_TIME
  return {
    mapId := mapIdOf (some fields) DESCRIPTION.MAP_ID
    releases := int (some fields) DESCRIPTION.RELEASES
    name := ProtoRead.text (some fields) DESCRIPTION.NAME toText
    createCause := int (some fields) DESCRIPTION.CREATE_CAUSE
    createdAt := if created = 0 then none else some created
    lastUsedAt := if used = 0 then none else some used }

end Decoders

/-! ### Pieces of the store -/

/-- What the store holds of each kind. -/
def MapBody : StampedKind → Type
  | .plane => VacuumMapPlane
  | .outline => VacuumRoomOutline
  | .rooms => VacuumRoomParams
  | .zones => VacuumRestrictedZones
  | .description => VacuumMapDescription

/-- A piece under the stamp its message has. -/
def stamp (kind : StampedKind) (mapId : Option ℤ) (releases : ℤ) (body : MapBody kind) :
    Stamped MapBody kind :=
  ⟨mapId.map Int.toNat, releases.toNat, body⟩

/-- The decoder of a kind, of a message that stands alone. -/
def decodePart (codec : RawDpCodec) (toText : Buffer → String) (raw : String) :
    (kind : StampedKind) → Option (Stamped MapBody kind)
  | .plane => (decodeVacuumMap codec toText raw).map fun v => stamp .plane v.mapId v.releases v
  | .outline => (decodeVacuumRoomOutline codec raw).map fun v => stamp .outline v.mapId v.releases v
  | .rooms =>
    (decodeVacuumRoomParams codec toText raw).map fun v => stamp .rooms v.mapId v.releases v
  | .zones => (decodeVacuumRestrictedZones codec raw).map fun v => stamp .zones v.mapId v.releases v
  | .description =>
    (decodeVacuumMapDescription codec toText raw).map fun v =>
      stamp .description v.mapId v.releases v

/-! ### Backups -/

/-- The prefix loop of `reframe`, of a length of as many groups of seven bits at most. -/
def reframePrefix : ℕ → ℕ → Buffer
  | 0, n => [UInt8.ofNat n]
  | groups + 1, n =>
    if 0x7f < n then UInt8.ofNat (n % 0x80 + 0x80) :: reframePrefix groups (n / 0x80)
    else [UInt8.ofNat n]

/-- A nested message, framed as its decoder takes it. -/
def reframe (body : Buffer) : String :=
  String.ofList (Base64.encode (reframePrefix body.length body.length ++ body))

section Backup

variable (codec : RawDpCodec) (toText : Buffer → String)

/-- One part of a backup. -/
def part (fields : List RawDpField) (field : ℕ) (kind : StampedKind) :
    Option (Stamped MapBody kind) :=
  (ProtoRead.bytes (some fields) field).bind fun inner =>
    decodePart codec toText (reframe inner) kind

def decodeVacuumMapBackup (raw : String) : Option (VacuumMapBackup MapBody) := do
  let fields ← codec.decode raw
  return {
    description := part codec toText fields BACKUP.DESC .description
    map := part codec toText fields BACKUP.MAP .plane
    outline := part codec toText fields BACKUP.ROOMS .outline
    rooms := part codec toText fields BACKUP.ROOM_PARAMS .rooms
    zones := part codec toText fields BACKUP.RESTRICTED_ZONE .zones }

end Backup

theorem reframePrefix_eq (groups n : ℕ) : reframePrefix groups n = Varint.groups groups n := by
  induction groups generalizing n with
  | zero => rfl
  | succ groups ih =>
    rw [reframePrefix, Varint.groups]
    by_cases hlast : n < 128
    · rw [if_neg (by omega), if_pos hlast]
    · rw [if_pos (by omega), if_neg hlast, ih]

/-- A part is framed as the device frames a message that stands alone. -/
theorem reframe_eq (body : Buffer) : reframe body = String.ofList (Base64.encode (framed body)) := by
  rw [reframe, reframePrefix_eq, framed, Varint.encode]

variable {reader : WireReader}

/-- What is nested is read the same when it is framed on its own. -/
theorem decode_reframe (hreader : reader.Lawful) {body : Buffer} (hlength : body.length < 2 ^ 32) :
    (rawDpCodec reader).decode (reframe body) = (rawDpCodec reader).nested body := by
  have hframed : framed body ≠ [] := by
    simp [framed, Varint.encode_ne_nil]
  have htext : String.ofList (Base64.encode (framed body)) ≠ "" := by
    intro hempty
    have hlist := congrArg String.toList hempty
    rw [String.toList_ofList] at hlist
    have hbytes := congrArg Base64.decode hlist
    rw [Base64.decode_encode] at hbytes
    exact hframed hbytes
  rw [reframe_eq, rawDpCodec]
  dsimp only
  rw [if_neg htext, String.toList_ofList, Base64.decode_encode, if_neg hframed, framed,
    hreader.uint32 _ _ hlength]
  dsimp only
  rw [if_neg (by exact fun h => h rfl)]

/-- A device's message is read inside a backup as it is read alone. -/
theorem decode_reframe_fields (hreader : reader.Lawful) {m : DeviceMessage} (h : m.Sendable) :
    (rawDpCodec reader).decode (reframe (encodeAll m.fields)) = some m.read :=
  (decode_reframe hreader h.small).trans (readFields_encodeAll hreader h.allowed h.small)

end EufySdk
