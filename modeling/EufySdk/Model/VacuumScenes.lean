import Mathlib.Tactic
import EufySdk.Model.DeviceMessage
import EufySdk.Model.VacuumMap

/-!
# Scenes of a vacuum

`model/vacuum-scenes.ts`: a report of the scenes a robot holds. A scene of no map comes with a map
id of its own for that.

- `decodeVacuumScenes` and its counts
- `Scene`, `sceneResponse` — a scene as the robot holds it, and the report it sends
- `decodeVacuumScenes_response` — every scene is read as it is held
-/

namespace EufySdk.VacuumScenes

open Bytes ProtoRead

inductive SceneInvalidReason
  | none
  | mapMissing
  | mapUnavailable
  | mapMismatch
  | other
  | legacyDefault
  deriving DecidableEq, Repr

def SCENE_INVALID_REASONS : List SceneInvalidReason :=
  [.none, .mapMissing, .mapUnavailable, .mapMismatch, .other, .legacyDefault]

inductive SceneType
  | custom
  | wholeHouseDaily
  | wholeHouseDeep
  | afterDinner
  | petArea
  deriving DecidableEq, Repr

def SCENE_TYPES : List SceneType :=
  [.custom, .wholeHouseDaily, .wholeHouseDeep, .afterDinner, .petArea]

theorem SceneInvalidReason.mem_reasons (r : SceneInvalidReason) : r ∈ SCENE_INVALID_REASONS := by
  cases r <;> decide

theorem SceneType.mem_types (t : SceneType) : t ∈ SCENE_TYPES := by
  cases t <;> decide

structure VacuumScene where
  id : ℤ
  name : Option String
  valid : Bool
  invalidReason : Option SceneInvalidReason
  mapId : Option ℤ
  estimatedRuntime : Option ℤ
  order : ℤ
  type : SceneType
  deriving DecidableEq, Repr

/-! ### Field numbers -/

def RESPONSE_FIELD_INFOS : ℕ := 4

namespace SCENE_FIELD

def ID : ℕ := 1
def VALID : ℕ := 2
def INVALID_REASON : ℕ := 3
def NAME : ℕ := 4
def MAP_ID : ℕ := 5
def ESTIMATE_TIME : ℕ := 6
def INDEX : ℕ := 7
def TYPE : ℕ := 8

end SCENE_FIELD

def ID_FIELD_VALUE : ℕ := 1

/-- The map id of a scene that has no map, which is `-2` of 32 bits. -/
def NO_MAP : ℤ := 0xfffffffe

/-! ### Decoders -/

section Decoders

variable (codec : RawDpCodec) (toText : Buffer → String)

def sceneOf (info : List RawDpField) : VacuumScene :=
  let mapId := int (some info) SCENE_FIELD.MAP_ID
  let estimate := int (some info) SCENE_FIELD.ESTIMATE_TIME
  { id := int (sub codec (some info) SCENE_FIELD.ID) ID_FIELD_VALUE
    name := ProtoRead.text (some info) SCENE_FIELD.NAME toText
    valid := flag (some info) SCENE_FIELD.VALID
    invalidReason := elemAt SCENE_INVALID_REASONS (int (some info) SCENE_FIELD.INVALID_REASON)
    mapId := if mapId = NO_MAP ∨ mapId = 0 then none else some mapId
    estimatedRuntime := if estimate = 0 then none else some estimate
    order := int (some info) SCENE_FIELD.INDEX
    type := (elemAt SCENE_TYPES (int (some info) SCENE_FIELD.TYPE)).getD .custom }

def decodeVacuumScenes (raw : String) : Option (List VacuumScene) := do
  let report ← codec.decode raw
  return (each codec (some report) RESPONSE_FIELD_INFOS).map (sceneOf codec toText)

def decodeVacuumSceneCount (raw : String) : Option ℕ :=
  (decodeVacuumScenes codec toText raw).map List.length

/-- The scenes that can still run. -/
def decodeUsableVacuumSceneCount (raw : String) : Option ℕ :=
  (decodeVacuumScenes codec toText raw).map fun scenes => (scenes.filter fun s => s.valid).length

end Decoders

/-! ## Scenes as they are held -/

/-- A scene as the robot holds it. Maps count from one. -/
structure Scene where
  id : ℤ
  name : Buffer
  valid : Bool
  invalidReason : SceneInvalidReason
  mapId : Option ℤ
  estimateTime : ℤ
  index : ℤ
  type : SceneType
  named : ∀ id ∈ mapId, id ≠ 0 ∧ id ≠ NO_MAP

namespace Scene

variable (s : Scene)

def idMessage : DeviceMessage where
  once := [.int ID_FIELD_VALUE s.id]

def message : DeviceMessage where
  once := [.sub SCENE_FIELD.ID s.idMessage.fields, .bool SCENE_FIELD.VALID s.valid,
    .int SCENE_FIELD.INVALID_REASON (SCENE_INVALID_REASONS.idxOf s.invalidReason),
    .bytes SCENE_FIELD.NAME s.name, .int SCENE_FIELD.MAP_ID (s.mapId.getD NO_MAP),
    .int SCENE_FIELD.ESTIMATE_TIME s.estimateTime,
    .int SCENE_FIELD.INDEX s.index, .int SCENE_FIELD.TYPE (SCENE_TYPES.idxOf s.type)]

/-- What is to be read of it. -/
def scene (toText : Buffer → String) : VacuumScene where
  id := s.id
  name := if s.name = [] then none else some (toText s.name)
  valid := s.valid
  invalidReason := some s.invalidReason
  mapId := s.mapId
  estimatedRuntime := if s.estimateTime = 0 then none else some s.estimateTime
  order := s.index
  type := s.type

end Scene

/-- The report of a robot's scenes, to the request it answers. -/
def sceneResponse (method seq result : ℤ) (scenes : List Scene) : DeviceMessage where
  once := [.int 1 method, .int 2 seq, .int 3 result]
  repeats := scenes.map fun s => ((RESPONSE_FIELD_INFOS : ℤ), s.message.fields)
  distinct := distinct_answer method seq result
  apart r hr := by
    obtain ⟨s, -, rfl⟩ := List.mem_map.mp hr
    exact (by decide : (4 : ℤ) ∉ [(1 : ℤ), 2, 3])

variable {reader : WireReader} (toText : Buffer → String)

theorem sceneOf_message (hreader : reader.Lawful) (s : Scene) (h : s.message.Sendable) :
    sceneOf (rawDpCodec reader) toText s.message.read = s.scene toText := by
  have hid : .sub SCENE_FIELD.ID s.idMessage.fields ∈ s.message.once := List.mem_cons_self
  have hvalue : int (some s.idMessage.read) ID_FIELD_VALUE = s.id :=
    DeviceMessage.int_of_once (h.sub hid) List.mem_cons_self
  have hvalid : flag (some s.message.read) SCENE_FIELD.VALID = s.valid :=
    DeviceMessage.flag_of_once h (List.mem_cons_of_mem _ List.mem_cons_self)
  have hreason : int (some s.message.read) SCENE_FIELD.INVALID_REASON =
      SCENE_INVALID_REASONS.idxOf s.invalidReason :=
    DeviceMessage.int_of_once h (by simp [Scene.message])
  have hname : ProtoRead.bytes (some s.message.read) SCENE_FIELD.NAME =
      if s.name = [] then none else some s.name :=
    DeviceMessage.bytes_of_once h (by simp [Scene.message])
  have hmap : int (some s.message.read) SCENE_FIELD.MAP_ID = s.mapId.getD NO_MAP :=
    DeviceMessage.int_of_once h (by simp [Scene.message])
  have hestimate : int (some s.message.read) SCENE_FIELD.ESTIMATE_TIME = s.estimateTime :=
    DeviceMessage.int_of_once h (by simp [Scene.message])
  have hindex : int (some s.message.read) SCENE_FIELD.INDEX = s.index :=
    DeviceMessage.int_of_once h (by simp [Scene.message])
  have htype : int (some s.message.read) SCENE_FIELD.TYPE = SCENE_TYPES.idxOf s.type :=
    DeviceMessage.int_of_once h (by simp [Scene.message])
  have hnamed : (if s.mapId.getD NO_MAP = NO_MAP ∨ s.mapId.getD NO_MAP = 0 then none
      else some (s.mapId.getD NO_MAP)) = s.mapId := by
    obtain hmapId | ⟨id, hmapId⟩ := Option.eq_none_or_eq_some s.mapId
    · rw [hmapId]
      exact if_pos (.inl rfl)
    · obtain ⟨hzero, hnone⟩ := s.named id hmapId
      rw [hmapId]
      exact if_neg (not_or.mpr ⟨hnone, hzero⟩)
  rw [sceneOf, DeviceMessage.sub_of_once hreader h hid, hvalue, ProtoRead.text, hname, hvalid,
    hreason, hmap, hestimate, hindex, htype, elemAt_idxOf s.invalidReason.mem_reasons,
    elemAt_idxOf s.type.mem_types, hnamed]
  rw [Scene.scene]
  congr 1
  split_ifs <;> rfl

/-- **Every scene of a report is read as the robot holds it**, in order, whatever of it is zero,
and with no map where it has none. -/
theorem decodeVacuumScenes_response (hreader : reader.Lawful) (method seq result : ℤ)
    (scenes : List Scene) (h : (sceneResponse method seq result scenes).Sendable) :
    let raw := String.ofList (text (sceneResponse method seq result scenes).fields)
    decodeVacuumScenes (rawDpCodec reader) toText raw =
        some (scenes.map fun s => s.scene toText) ∧
      decodeVacuumSceneCount (rawDpCodec reader) toText raw = some scenes.length ∧
      decodeUsableVacuumSceneCount (rawDpCodec reader) toText raw =
        some (scenes.filter fun s => s.valid).length := by
  have hdecode : decodeVacuumScenes (rawDpCodec reader) toText
      (String.ofList (text (sceneResponse method seq result scenes).fields)) =
        some (scenes.map fun s => s.scene toText) := by
    rw [decodeVacuumScenes, DeviceMessage.decode_fields hreader h]
    dsimp only [bind, Option.bind, pure]
    rw [DeviceMessage.each_of_under hreader h (by exact (by decide : (4 : ℤ) ∉ [(1 : ℤ), 2, 3]))
      (DeviceMessage.under_map_self scenes _ _), List.map_map]
    refine congrArg some (List.map_congr_left fun s hs => ?_)
    exact sceneOf_message toText hreader s (h.repeated (List.mem_map_of_mem hs))
  dsimp only
  refine ⟨hdecode, ?_, ?_⟩
  · rw [decodeVacuumSceneCount, hdecode, Option.map_some, List.length_map]
  · rw [decodeUsableVacuumSceneCount, hdecode, Option.map_some, List.filter_map, List.length_map]
    rfl

/-- A scene of no map that is built in, and one that lost its map. -/
def heldScenes : List Scene :=
  [{ id := 1, name := [], valid := true, invalidReason := .none, mapId := none, estimateTime := 0,
     index := 1, type := .wholeHouseDaily, named := nofun },
    { id := 9, name := [97], valid := false, invalidReason := .mapMissing, mapId := some 3,
      estimateTime := 1200, index := 0, type := .custom, named := by decide }]

theorem decodeVacuumScenes_heldScenes :
    let raw := String.ofList (text (sceneResponse 0 2 0 heldScenes).fields)
    decodeVacuumScenes (rawDpCodec wireFormat) (fun _ => "a") raw =
        some (heldScenes.map fun s => s.scene fun _ => "a") ∧
      decodeVacuumSceneCount (rawDpCodec wireFormat) (fun _ => "a") raw = some 2 ∧
      decodeUsableVacuumSceneCount (rawDpCodec wireFormat) (fun _ => "a") raw = some 1 :=
  decodeVacuumScenes_response (fun _ => "a") lawful_wireFormat 0 2 0 heldScenes (by decide)

end EufySdk.VacuumScenes
