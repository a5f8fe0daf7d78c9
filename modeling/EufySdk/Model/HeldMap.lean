import Mathlib.Tactic
import EufySdk.Model.MapPixels
import EufySdk.Model.VacuumMapParts

/-!
# Maps as the robot holds them

The parts of a map a robot holds, and the messages it sends of them. Planes go as they are or as a
block; docks go in the older list, and from newer robots in a list of their own beside it; a setting
that was never made has no message.

- `Map`, `Outline`, `Rooms`, `Zones`, `Description`, `poseMessage`
- `decodeVacuumMap_message` and its siblings — every part is read as it is held
- `backup_as_parts` — a backup is its parts, one after the other
-/

namespace EufySdk.HeldMap

open Bytes ProtoRead

variable {reader : WireReader} (toText : Buffer → String)

/-- What is read of a number that is zero where there is none. -/
def named (n : ℤ) : Option ℤ := if n = 0 then none else some n

/-- What is read of a text. -/
def textOf (b : Buffer) : Option String := if b = [] then none else some (toText b)

theorem text_of_once {m : DeviceMessage} (h : m.Sendable) {field : ℕ} {value : Buffer}
    (hf : .bytes field value ∈ m.once) :
    ProtoRead.text (some m.read) field toText = textOf toText value := by
  rw [ProtoRead.text, DeviceMessage.bytes_of_once h hf, textOf]
  split_ifs <;> rfl

/-- A number in a message of its own. -/
def wrapMessage (value : ℤ) : DeviceMessage where
  once := [.int WRAPPED_VALUE value]

theorem int_wrapMessage (hreader : reader.Lawful) {m : DeviceMessage} (h : m.Sendable) {field : ℕ}
    {value : ℤ} (hf : .sub field (wrapMessage value).fields ∈ m.once) :
    int (sub (rawDpCodec reader) (some m.read) field) WRAPPED_VALUE = value := by
  rw [DeviceMessage.sub_of_once hreader h hf]
  exact DeviceMessage.int_of_once (h.sub hf) List.mem_cons_self

/-! ## Positions -/

structure Point where
  x : ℤ
  y : ℤ

def Point.point (p : Point) : MapPoint := ⟨p.x, p.y⟩

def Point.message (p : Point) : DeviceMessage where
  once := [.sint POINT.X p.x, .sint POINT.Y p.y]

theorem pointOf_message (hreader : reader.Lawful) {m : DeviceMessage} (h : m.Sendable) {field : ℕ}
    {p : Point} (hf : .sub field p.message.fields ∈ m.once) :
    pointOf (rawDpCodec reader) (some m.read) field = p.point := by
  have hx : signed (some p.message.read) POINT.X = p.x :=
    DeviceMessage.signed_of_once (h.sub hf) List.mem_cons_self
  have hy : signed (some p.message.read) POINT.Y = p.y :=
    DeviceMessage.signed_of_once (h.sub hf) (List.mem_cons_of_mem _ List.mem_cons_self)
  rw [pointOf, DeviceMessage.sub_of_once hreader h hf, hx, hy]
  rfl

def poseMessage (p : MapPose) : DeviceMessage where
  once := [.sint POINT.X p.x, .sint POINT.Y p.y, .sint POINT.THETA p.theta]

theorem poseOf_message {p : MapPose} (h : (poseMessage p).Sendable) :
    poseOf (some (poseMessage p).read) = p := by
  have hx : signed (some (poseMessage p).read) POINT.X = p.x :=
    DeviceMessage.signed_of_once h List.mem_cons_self
  have hy : signed (some (poseMessage p).read) POINT.Y = p.y :=
    DeviceMessage.signed_of_once h (List.mem_cons_of_mem _ List.mem_cons_self)
  have htheta : signed (some (poseMessage p).read) POINT.THETA = p.theta :=
    DeviceMessage.signed_of_once h (by simp [poseMessage])
  rw [poseOf, hx, hy, htheta]

/-- The message of the robot's own pose. -/
def dynamicMessage (p : MapPose) : DeviceMessage where
  once := [.sub DYNAMIC_CUR_POSE (poseMessage p).fields]

theorem decodeVacuumPose_message (hreader : reader.Lawful) {p : MapPose}
    (h : (dynamicMessage p).Sendable) {raw : String}
    (hraw : (rawDpCodec reader).decode raw = some (dynamicMessage p).read) :
    decodeVacuumPose (rawDpCodec reader) raw = some p := by
  rw [decodeVacuumPose, hraw]
  dsimp only [bind, Option.bind, pure]
  rw [DeviceMessage.sub_of_once hreader h List.mem_cons_self]
  exact congrArg some (poseOf_message (h.sub List.mem_cons_self))

/-! ## Geometry -/

def dockMessage (d : MapDock) : DeviceMessage where
  once := [.int DOCK.TYPE (DOCK_KINDS.idxOf d.kind), .sub DOCK.POSE (poseMessage d.pose).fields]

structure Geometry where
  width : ℕ
  height : ℕ
  width_pos : 0 < width
  height_pos : 0 < height
  resolution : ℤ
  origin : Point
  angle : ℤ
  quality : MapQuality
  docks : List MapDock
  /-- Whether the robot has the list of docks with their kinds. -/
  newer : Bool

namespace Geometry

variable (g : Geometry)

def docksV2 : List MapDock := if g.newer then g.docks else []

def message : DeviceMessage where
  once := [.int MAP_INFO.WIDTH g.width, .int MAP_INFO.HEIGHT g.height,
    .int MAP_INFO.RESOLUTION g.resolution, .sub MAP_INFO.ORIGIN g.origin.message.fields,
    .int MAP_INFO.TYPE (MAP_QUALITIES.idxOf g.quality), .int MAP_INFO.ANGLE g.angle]
  repeats := (g.docks.map fun d => ((MAP_INFO.DOCKS : ℤ), (poseMessage d.pose).fields)) ++
    g.docksV2.map fun d => ((MAP_INFO.DOCKS_V2 : ℤ), (dockMessage d).fields)
  apart r hr := by
    rcases List.mem_append.mp hr with hr | hr
    · obtain ⟨d, -, rfl⟩ := List.mem_map.mp hr
      exact (by decide : (6 : ℤ) ∉ [(2 : ℤ), 3, 4, 5, 7, 9])
    · obtain ⟨d, -, rfl⟩ := List.mem_map.mp hr
      exact (by decide : (10 : ℤ) ∉ [(2 : ℤ), 3, 4, 5, 7, 9])

/-- An older robot tells no kind. -/
def readDocks : List MapDock :=
  if g.newer then g.docks else g.docks.map fun d => { d with kind := .charger }

def geometry : VacuumMapGeometry where
  width := g.width
  height := g.height
  resolution := resolutionOf g.resolution
  origin := g.origin.point
  angle := g.angle
  quality := g.quality
  docks := g.readDocks

variable {g}

/-- A robot that sends both lists has each dock once. -/
theorem docksOf_message (hreader : reader.Lawful) (h : g.message.Sendable) :
    docksOf (rawDpCodec reader) (some g.message.read) = g.readDocks := by
  have hkind (d : MapDock) : elemAt DOCK_KINDS (DOCK_KINDS.idxOf d.kind) = some d.kind :=
    elemAt_idxOf (by cases d.kind <;> decide)
  have hdocks : each (rawDpCodec reader) (some g.message.read) MAP_INFO.DOCKS =
      g.docks.map fun d => (poseMessage d.pose).read := by
    refine DeviceMessage.each_of_under hreader h
      (by exact (by decide : (6 : ℤ) ∉ [(2 : ℤ), 3, 4, 5, 7, 9])) ?_
    rw [message, DeviceMessage.under_append, DeviceMessage.under_map_self,
      DeviceMessage.under_map_of_ne _ _ (by decide), List.append_nil]
  have hdocksV2 : each (rawDpCodec reader) (some g.message.read) MAP_INFO.DOCKS_V2 =
      g.docksV2.map fun d => (dockMessage d).read := by
    refine DeviceMessage.each_of_under hreader h
      (by exact (by decide : (10 : ℤ) ∉ [(2 : ℤ), 3, 4, 5, 7, 9])) ?_
    rw [message, DeviceMessage.under_append, DeviceMessage.under_map_self,
      DeviceMessage.under_map_of_ne _ _ (by decide), List.nil_append]
  have hpose : ∀ d ∈ g.docks, (poseMessage d.pose).Sendable := fun d hd =>
    h.repeated (List.mem_append_left _ (List.mem_map_of_mem hd))
  rw [docksOf, hdocks, hdocksV2, List.map_map, List.map_map]
  have hv2 : g.docksV2.map ((fun d => (⟨(elemAt DOCK_KINDS (int (some d) DOCK.TYPE)).getD .charger,
      poseOf (sub (rawDpCodec reader) (some d) DOCK.POSE)⟩ : MapDock)) ∘
        fun d => (dockMessage d).read) = g.docksV2 := by
    refine (List.map_congr_left fun d hd => ?_).trans (List.map_id _)
    have hdock : (dockMessage d).Sendable :=
      h.repeated (List.mem_append_right _ (List.mem_map_of_mem hd))
    have hsub : .sub DOCK.POSE (poseMessage d.pose).fields ∈ (dockMessage d).once :=
      List.mem_cons_of_mem _ List.mem_cons_self
    have htype : int (some (dockMessage d).read) DOCK.TYPE = DOCK_KINDS.idxOf d.kind :=
      DeviceMessage.int_of_once hdock List.mem_cons_self
    dsimp only [Function.comp_apply]
    rw [htype, hkind, DeviceMessage.sub_of_once hreader hdock hsub,
      poseOf_message (hdock.sub hsub)]
    rfl
  have hold : g.docks.map ((fun p => (⟨.charger, poseOf (some p)⟩ : MapDock)) ∘
      fun d => (poseMessage d.pose).read) = g.docks.map fun d => { d with kind := .charger } := by
    refine List.map_congr_left fun d hd => ?_
    dsimp only [Function.comp_apply]
    rw [poseOf_message (hpose d hd)]
  rw [hv2, hold, docksV2, readDocks]
  cases hnewer : g.newer with
  | false => rfl
  | true =>
    rw [if_pos rfl, if_pos rfl]
    cases g.docks with
    | nil => rfl
    | cons d docks => rfl

theorem geometryOf_message (hreader : reader.Lawful) (h : g.message.Sendable) :
    geometryOf (rawDpCodec reader) (some g.message.read) = some g.geometry := by
  have hwidth : int (some g.message.read) MAP_INFO.WIDTH = g.width :=
    DeviceMessage.int_of_once h List.mem_cons_self
  have hheight : int (some g.message.read) MAP_INFO.HEIGHT = g.height :=
    DeviceMessage.int_of_once h (List.mem_cons_of_mem _ List.mem_cons_self)
  have hresolution : int (some g.message.read) MAP_INFO.RESOLUTION = g.resolution :=
    DeviceMessage.int_of_once h (by simp [message])
  have hquality : int (some g.message.read) MAP_INFO.TYPE = MAP_QUALITIES.idxOf g.quality :=
    DeviceMessage.int_of_once h (by simp [message])
  have hangle : int (some g.message.read) MAP_INFO.ANGLE = g.angle :=
    DeviceMessage.int_of_once h (by simp [message])
  have horigin : pointOf (rawDpCodec reader) (some g.message.read) MAP_INFO.ORIGIN =
      g.origin.point := pointOf_message hreader h (by simp [message])
  have hknown : elemAt MAP_QUALITIES (MAP_QUALITIES.idxOf g.quality) = some g.quality :=
    elemAt_idxOf (by cases g.quality <;> decide)
  have hw := g.width_pos
  have hh := g.height_pos
  rw [geometryOf, hwidth, hheight, if_neg (by omega), hresolution, hquality, hangle, horigin,
    hknown, docksOf_message hreader h]
  rfl

end Geometry

/-! ## Planes -/

structure Map where
  geometry : Geometry
  frame : MapFrameKind
  mapId : ℤ
  name : Buffer
  releases : ℤ
  index : ℤ
  plane : Buffer
  pixels : Buffer
  pixelSize : ℕ
  sent : SentPlane plane pixels pixelSize
  most : plane.length ≤ MAX_OUTPUT
  long : geometry.width * geometry.height ≤ 4 * plane.length

namespace Map

variable (m : Map)

def message : DeviceMessage where
  once := [.int MAP.FRAME (MAP_FRAME_KINDS.idxOf m.frame), .bytes MAP.PIXELS m.pixels,
    .int MAP.PIXEL_SIZE m.pixelSize, .sub MAP.INFO m.geometry.message.fields,
    .bytes MAP.NAME m.name, .int MAP.ID m.mapId, .int MAP.RELEASES m.releases,
    .sub MAP.INDEX (wrapMessage m.index).fields]

def value : VacuumMapPlane where
  frame := m.frame
  mapId := named m.mapId
  name := textOf toText m.name
  releases := m.releases
  index := m.index
  geometry := m.geometry.geometry
  cells := m.plane

end Map

structure Outline where
  width : ℕ
  height : ℕ
  width_pos : 0 < width
  height_pos : 0 < height
  mapId : ℤ
  releases : ℤ
  resolution : ℤ
  origin : Point
  plane : Buffer
  pixels : Buffer
  pixelSize : ℕ
  sent : SentPlane plane pixels pixelSize
  most : plane.length ≤ MAX_OUTPUT
  long : width * height ≤ plane.length

namespace Outline

variable (o : Outline)

def message : DeviceMessage where
  once := [.int OUTLINE.MAP_ID o.mapId, .int OUTLINE.RELEASES o.releases,
    .int OUTLINE.WIDTH o.width, .int OUTLINE.HEIGHT o.height,
    .int OUTLINE.RESOLUTION o.resolution, .sub OUTLINE.ORIGIN o.origin.message.fields,
    .bytes OUTLINE.PIXELS o.pixels, .int OUTLINE.PIXEL_SIZE o.pixelSize]

def value : VacuumRoomOutline where
  mapId := named o.mapId
  releases := o.releases
  width := o.width
  height := o.height
  resolution := resolutionOf o.resolution
  origin := o.origin.point
  cells := o.plane

end Outline

/-- The bytes of a plane that is not empty are not empty. -/
theorem pixels_ne_nil {plane pixels : Buffer} {size : ℕ} (hsent : SentPlane plane pixels size)
    (hplane : plane ≠ []) : pixels ≠ [] := by
  cases hsent with
  | verbatim => exact hplane
  | compressed b hb houtput hlength => simp [Lz4.Block.bytes, Lz4.Block.lastBytes]

/-- The plane of a message that holds its bytes and its size. -/
theorem planeOf_message {m : DeviceMessage} (h : m.Sendable) {pixels size declared : ℕ}
    {plane bytes : Buffer} {needed : ℚ} (hsent : SentPlane plane bytes declared)
    (hmost : plane.length ≤ MAX_OUTPUT) (hplane : plane ≠ [])
    (hbytes : .bytes pixels bytes ∈ m.once) (hsize : .int size declared ∈ m.once)
    (hneeded : needed ≤ plane.length) :
    planeOf (some m.read) pixels size needed = some plane := by
  have hfind := DeviceMessage.find_of_once h hbytes rfl
  rw [if_neg (by exact fun h => pixels_ne_nil hsent hplane (of_decide_eq_true h))] at hfind
  exact planeOf_sent hsent hmost hplane hfind (DeviceMessage.int_of_once h hsize) hneeded

theorem named_eq (m : DeviceMessage) (h : m.Sendable) {field : ℕ} {value : ℤ}
    (hf : .int field value ∈ m.once) : mapIdOf (some m.read) field = named value := by
  rw [mapIdOf, DeviceMessage.int_of_once h hf, named]

theorem decodeVacuumMap_message (hreader : reader.Lawful) {m : Map} (h : m.message.Sendable)
    {raw : String} (hraw : (rawDpCodec reader).decode raw = some m.message.read) :
    decodeVacuumMap (rawDpCodec reader) toText raw = some (m.value toText) := by
  have hinfo : .sub MAP.INFO m.geometry.message.fields ∈ m.message.once := by simp [Map.message]
  have hgrid := Nat.mul_pos m.geometry.width_pos m.geometry.height_pos
  have hlong := m.long
  have hmost := m.most
  have hplane : m.plane ≠ [] := by
    intro hnil
    rw [hnil, List.length_nil] at hlong
    omega
  have hneeded : ((⌈double (((m.geometry.width : ℤ) : ℚ) * ((m.geometry.height : ℤ) : ℚ)) / 4⌉ : ℤ) :
      ℚ) ≤ m.plane.length :=
    (needed_le_iff (by rw [MAX_OUTPUT] at hmost; omega) m.plane.length).mpr hlong
  have hcells : planeOf (some m.message.read) MAP.PIXELS MAP.PIXEL_SIZE _ = some m.plane :=
    planeOf_message h m.sent hmost hplane (by simp [Map.message]) (by simp [Map.message]) hneeded
  have hframe : int (some m.message.read) MAP.FRAME = MAP_FRAME_KINDS.idxOf m.frame :=
    DeviceMessage.int_of_once h List.mem_cons_self
  have hknown : elemAt MAP_FRAME_KINDS (MAP_FRAME_KINDS.idxOf m.frame) = some m.frame :=
    elemAt_idxOf (by cases m.frame <;> decide)
  have hreleases : int (some m.message.read) MAP.RELEASES = m.releases :=
    DeviceMessage.int_of_once h (by simp [Map.message])
  have hid : mapIdOf (some m.message.read) MAP.ID = named m.mapId :=
    named_eq m.message h (by simp [Map.message])
  have hname : ProtoRead.text (some m.message.read) MAP.NAME toText = textOf toText m.name :=
    text_of_once toText h (by simp [Map.message])
  have hindex : int (sub (rawDpCodec reader) (some m.message.read) MAP.INDEX) WRAPPED_VALUE =
      m.index := int_wrapMessage hreader h (by simp [Map.message])
  rw [decodeVacuumMap, hraw]
  dsimp only [bind, Option.bind, pure]
  rw [DeviceMessage.sub_of_once hreader h hinfo, Geometry.geometryOf_message hreader (h.sub hinfo)]
  dsimp only [Geometry.geometry]
  rw [hcells, hframe, hknown, hid, hname, hreleases, hindex]
  rfl

theorem decodeVacuumRoomOutline_message (hreader : reader.Lawful) {o : Outline}
    (h : o.message.Sendable) {raw : String}
    (hraw : (rawDpCodec reader).decode raw = some o.message.read) :
    decodeVacuumRoomOutline (rawDpCodec reader) raw = some o.value := by
  have hgrid := Nat.mul_pos o.width_pos o.height_pos
  have hlong := o.long
  have hmost := o.most
  have hw := o.width_pos
  have hh := o.height_pos
  have hplane : o.plane ≠ [] := by
    intro hnil
    rw [hnil, List.length_nil] at hlong
    omega
  have hneeded : double (((o.width : ℤ) : ℚ) * ((o.height : ℤ) : ℚ)) ≤ o.plane.length := by
    rw [double_grid (by rw [MAX_OUTPUT] at hmost; omega)]
    exact_mod_cast hlong
  have hcells : planeOf (some o.message.read) OUTLINE.PIXELS OUTLINE.PIXEL_SIZE _ = some o.plane :=
    planeOf_message h o.sent hmost hplane (by simp [Outline.message]) (by simp [Outline.message])
      hneeded
  have hwidth : int (some o.message.read) OUTLINE.WIDTH = o.width :=
    DeviceMessage.int_of_once h (by simp [Outline.message])
  have hheight : int (some o.message.read) OUTLINE.HEIGHT = o.height :=
    DeviceMessage.int_of_once h (by simp [Outline.message])
  have hresolution : int (some o.message.read) OUTLINE.RESOLUTION = o.resolution :=
    DeviceMessage.int_of_once h (by simp [Outline.message])
  have hreleases : int (some o.message.read) OUTLINE.RELEASES = o.releases :=
    DeviceMessage.int_of_once h (by simp [Outline.message])
  have hid : mapIdOf (some o.message.read) OUTLINE.MAP_ID = named o.mapId :=
    named_eq o.message h (by simp [Outline.message])
  have horigin : pointOf (rawDpCodec reader) (some o.message.read) OUTLINE.ORIGIN =
      o.origin.point := pointOf_message hreader h (by simp [Outline.message])
  rw [decodeVacuumRoomOutline, hraw]
  dsimp only [bind, Option.bind, pure]
  rw [hwidth, hheight, if_neg (by omega), hcells, hresolution, hreleases, hid, horigin]
  rfl

/-! ## Rooms -/

structure Settings where
  cleanType : Option VacuumCleanType
  suction : Option RoomSuction
  mopLevel : Option MopLevel
  cleanExtent : Option CleanExtent
  cleanTimes : ℤ

/-- The message of a setting, if it was made. -/
def settingMessage {α : Type} [DecidableEq α] (list : List α) (setting : Option α) :
    Option DeviceMessage :=
  setting.map fun a => wrapMessage (list.idxOf a)

namespace Settings

variable (s : Settings)

def made : List (ℕ × Option DeviceMessage) :=
  [(ROOM_CUSTOM.CLEAN_TYPE, settingMessage VACUUM_CLEAN_TYPES s.cleanType),
    (ROOM_CUSTOM.FAN, settingMessage ROOM_SUCTIONS s.suction),
    (ROOM_CUSTOM.MOP_MODE, settingMessage MOP_LEVELS s.mopLevel),
    (ROOM_CUSTOM.CLEAN_EXTENT, settingMessage CLEAN_EXTENTS s.cleanExtent)]

theorem nodup_made :
    (DeviceMessage.optionalNumbers s.made [.int ROOM_CUSTOM.CLEAN_TIMES s.cleanTimes]).Nodup :=
  of_decide_eq_true rfl

def message : DeviceMessage where
  once := DeviceMessage.optional s.made ++ [.int ROOM_CUSTOM.CLEAN_TIMES s.cleanTimes]
  distinct := DeviceMessage.nodup_optional s.nodup_made

def settings : VacuumRoomSettings where
  cleanType := s.cleanType
  suction := s.suction
  mopLevel := s.mopLevel
  cleanExtent := s.cleanExtent
  cleanTimes := named s.cleanTimes

variable {s}

/-- A setting that was made is read, and one that was not is not. -/
theorem elemAt_wrapped (hreader : reader.Lawful) (h : s.message.Sendable) {α : Type}
    [DecidableEq α] {field : ℕ} {list : List α} {setting : Option α} (hall : ∀ a, a ∈ list)
    (hmem : (field, settingMessage list setting) ∈ s.made) :
    elemAt list ((wrapped (rawDpCodec reader) (some s.message.read) field).getD (-1)) =
      setting := by
  rw [wrapped, DeviceMessage.sub_of_optional hreader h rfl s.nodup_made rfl hmem]
  cases setting with
  | none => rfl
  | some a =>
    have hf := DeviceMessage.mem_of_optional (m := s.message) rfl hmem
    have hvalue : int (some (wrapMessage (list.idxOf a)).read) WRAPPED_VALUE = list.idxOf a :=
      DeviceMessage.int_of_once (h.sub hf) List.mem_cons_self
    rw [settingMessage, Option.map_some, Option.map_some, Option.map_some, Option.getD_some, hvalue,
      elemAt_idxOf (hall a)]

theorem settingsOf_message (hreader : reader.Lawful) {m : DeviceMessage} (h : m.Sendable)
    (hf : .sub ROOM.CUSTOM s.message.fields ∈ m.once) :
    settingsOf (rawDpCodec reader) (some m.read) = s.settings := by
  have hcustom := h.sub hf
  have htimes : int (some s.message.read) ROOM_CUSTOM.CLEAN_TIMES = s.cleanTimes :=
    DeviceMessage.int_of_once hcustom (by simp [message])
  have hclean : elemAt VACUUM_CLEAN_TYPES _ = s.cleanType :=
    elemAt_wrapped hreader hcustom (fun a => by cases a <;> decide) List.mem_cons_self
  have hsuction : elemAt ROOM_SUCTIONS _ = s.suction :=
    elemAt_wrapped hreader hcustom (fun a => by cases a <;> decide)
      (List.mem_cons_of_mem _ List.mem_cons_self)
  have hmop : elemAt MOP_LEVELS ((wrapped (rawDpCodec reader) (some s.message.read)
      ROOM_CUSTOM.MOP_MODE).getD (-1)) = s.mopLevel :=
    elemAt_wrapped hreader hcustom (fun a => by cases a <;> decide) (by simp [made])
  have hextent : elemAt CLEAN_EXTENTS ((wrapped (rawDpCodec reader) (some s.message.read)
      ROOM_CUSTOM.CLEAN_EXTENT).getD (-1)) = s.cleanExtent :=
    elemAt_wrapped hreader hcustom (fun a => by cases a <;> decide) (by simp [made])
  rw [settingsOf, DeviceMessage.sub_of_once hreader h hf, htimes, hclean, hsuction, hmop, hextent]
  rfl

end Settings

structure Room where
  id : ℤ
  name : Buffer
  scene : RoomScene
  sceneIndex : ℤ
  floor : FloorType
  order : ℤ
  settings : Settings

namespace Room

variable (r : Room)

def sceneMessage : DeviceMessage where
  once := [.int ROOM_SCENE.TYPE (ROOM_SCENES.idxOf r.scene),
    .sub ROOM_SCENE.INDEX (wrapMessage r.sceneIndex).fields]

def message : DeviceMessage where
  once := [.int ROOM.ID r.id, .bytes ROOM.NAME r.name,
    .sub ROOM.FLOOR (wrapMessage (FLOOR_TYPES.idxOf r.floor)).fields,
    .sub ROOM.SCENE r.sceneMessage.fields, .sub ROOM.ORDER (wrapMessage r.order).fields,
    .sub ROOM.CUSTOM r.settings.message.fields]

def room : VacuumRoom where
  id := r.id
  name := textOf toText r.name
  scene := r.scene
  sceneIndex := r.sceneIndex
  floor := r.floor
  order := r.order
  settings := r.settings.settings

theorem roomOf_message (hreader : reader.Lawful) {r : Room} (h : r.message.Sendable) :
    roomOf (rawDpCodec reader) toText r.message.read = r.room toText := by
  have hscene : .sub ROOM.SCENE r.sceneMessage.fields ∈ r.message.once := by simp [message]
  have hid : int (some r.message.read) ROOM.ID = r.id :=
    DeviceMessage.int_of_once h List.mem_cons_self
  have hname : ProtoRead.text (some r.message.read) ROOM.NAME toText = textOf toText r.name :=
    text_of_once toText h (by simp [message])
  have htype : int (some r.sceneMessage.read) ROOM_SCENE.TYPE = ROOM_SCENES.idxOf r.scene :=
    DeviceMessage.int_of_once (h.sub hscene) List.mem_cons_self
  have hindex : int (sub (rawDpCodec reader) (some r.sceneMessage.read) ROOM_SCENE.INDEX)
      WRAPPED_VALUE = r.sceneIndex :=
    int_wrapMessage hreader (h.sub hscene) (List.mem_cons_of_mem _ List.mem_cons_self)
  have hfloor : int (sub (rawDpCodec reader) (some r.message.read) ROOM.FLOOR) WRAPPED_VALUE =
      FLOOR_TYPES.idxOf r.floor := int_wrapMessage hreader h (by simp [message])
  have horder : int (sub (rawDpCodec reader) (some r.message.read) ROOM.ORDER) WRAPPED_VALUE =
      r.order := int_wrapMessage hreader h (by simp [message])
  have hsettings : settingsOf (rawDpCodec reader) (some r.message.read) = r.settings.settings :=
    Settings.settingsOf_message hreader h (by simp [message])
  have hkind : elemAt ROOM_SCENES (ROOM_SCENES.idxOf r.scene) = some r.scene :=
    elemAt_idxOf (by cases r.scene <;> decide)
  have hground : elemAt FLOOR_TYPES (FLOOR_TYPES.idxOf r.floor) = some r.floor :=
    elemAt_idxOf (by cases r.floor <;> decide)
  rw [roomOf, DeviceMessage.sub_of_once hreader h hscene, hid, hname, htype, hkind, hindex, hfloor,
    hground, horder, hsettings]
  rfl

end Room

structure Rooms where
  mapId : ℤ
  releases : ℤ
  customEnabled : Bool
  smartMode : Bool
  rooms : List Room

namespace Rooms

variable (r : Rooms)

def smartMessage : DeviceMessage where
  once := [.bool WRAPPED_VALUE r.smartMode]

def message : DeviceMessage where
  once := [.bool ROOM_PARAMS.CUSTOM_ENABLE r.customEnabled, .int ROOM_PARAMS.MAP_ID r.mapId,
    .int ROOM_PARAMS.RELEASES r.releases, .sub ROOM_PARAMS.SMART_MODE r.smartMessage.fields]
  repeats := r.rooms.map fun room => ((ROOM_PARAMS.ROOMS : ℤ), room.message.fields)
  apart q hq := by
    obtain ⟨room, -, rfl⟩ := List.mem_map.mp hq
    exact (by decide : (2 : ℤ) ∉ [(1 : ℤ), 3, 4, 6])

def value : VacuumRoomParams where
  mapId := named r.mapId
  releases := r.releases
  customEnabled := r.customEnabled
  smartMode := r.smartMode
  rooms := r.rooms.map fun room => room.room toText

end Rooms

theorem decodeVacuumRoomParams_message (hreader : reader.Lawful) {r : Rooms}
    (h : r.message.Sendable) {raw : String}
    (hraw : (rawDpCodec reader).decode raw = some r.message.read) :
    decodeVacuumRoomParams (rawDpCodec reader) toText raw = some (r.value toText) := by
  have hsmart : .sub ROOM_PARAMS.SMART_MODE r.smartMessage.fields ∈ r.message.once := by
    simp [Rooms.message]
  have hid : mapIdOf (some r.message.read) ROOM_PARAMS.MAP_ID = named r.mapId :=
    named_eq r.message h (by simp [Rooms.message])
  have hreleases : int (some r.message.read) ROOM_PARAMS.RELEASES = r.releases :=
    DeviceMessage.int_of_once h (by simp [Rooms.message])
  have hcustom : flag (some r.message.read) ROOM_PARAMS.CUSTOM_ENABLE = r.customEnabled :=
    DeviceMessage.flag_of_once h List.mem_cons_self
  have hmode : flag (some r.smartMessage.read) WRAPPED_VALUE = r.smartMode :=
    DeviceMessage.flag_of_once (h.sub hsmart) List.mem_cons_self
  have hrooms : each (rawDpCodec reader) (some r.message.read) ROOM_PARAMS.ROOMS =
      r.rooms.map fun room => room.message.read :=
    DeviceMessage.each_of_under hreader h (by exact (by decide : (2 : ℤ) ∉ [(1 : ℤ), 3, 4, 6]))
      (DeviceMessage.under_map_self r.rooms _ _)
  rw [decodeVacuumRoomParams, hraw]
  dsimp only [bind, Option.bind, pure]
  rw [hid, hreleases, hcustom, DeviceMessage.sub_of_once hreader h hsmart, hmode, hrooms,
    List.map_map, Rooms.value]
  refine congrArg (fun rooms => some (VacuumRoomParams.mk _ _ _ _ rooms))
    (List.map_congr_left fun room hroom => ?_)
  exact Room.roomOf_message toText hreader (h.repeated (List.mem_map_of_mem hroom))

/-! ## Zones -/

structure Line where
  «from» : Point
  «to» : Point

def Line.message (l : Line) : DeviceMessage where
  once := [.sub LINE.P0 l.from.message.fields, .sub LINE.P1 l.to.message.fields]

def Line.line (l : Line) : MapLine := ⟨l.from.point, l.to.point⟩

theorem lineOf_message (hreader : reader.Lawful) {l : Line} (h : l.message.Sendable) :
    lineOf (rawDpCodec reader) (some l.message.read) = l.line := by
  rw [lineOf, pointOf_message hreader h List.mem_cons_self,
    pointOf_message hreader h (List.mem_cons_of_mem _ List.mem_cons_self)]
  rfl

structure Quad where
  p0 : Point
  p1 : Point
  p2 : Point
  p3 : Point

def Quad.message (q : Quad) : DeviceMessage where
  once := [.sub QUAD.P0 q.p0.message.fields, .sub QUAD.P1 q.p1.message.fields,
    .sub QUAD.P2 q.p2.message.fields, .sub QUAD.P3 q.p3.message.fields]

def Quad.quad (q : Quad) : MapQuad := ⟨q.p0.point, q.p1.point, q.p2.point, q.p3.point⟩

theorem quadOf_message (hreader : reader.Lawful) {q : Quad} (h : q.message.Sendable) :
    quadOf (rawDpCodec reader) (some q.message.read) = q.quad := by
  have hp2 : pointOf (rawDpCodec reader) (some q.message.read) QUAD.P2 = q.p2.point :=
    pointOf_message hreader h (by simp [Quad.message])
  have hp3 : pointOf (rawDpCodec reader) (some q.message.read) QUAD.P3 = q.p3.point :=
    pointOf_message hreader h (by simp [Quad.message])
  rw [quadOf, pointOf_message hreader h List.mem_cons_self,
    pointOf_message hreader h (List.mem_cons_of_mem _ List.mem_cons_self), hp2, hp3]
  rfl

structure Zones where
  mapId : ℤ
  releases : ℤ
  virtualWalls : List Line
  noGoZones : List Quad
  noMopZones : List Quad

namespace Zones

variable (z : Zones)

def message : DeviceMessage where
  once := [.int ZONES.MAP_ID z.mapId, .int ZONES.RELEASES z.releases]
  repeats := (z.virtualWalls.map fun l => ((ZONES.VIRTUAL_WALLS : ℤ), l.message.fields)) ++
    (z.noGoZones.map fun q => ((ZONES.FORBIDDEN : ℤ), q.message.fields)) ++
    z.noMopZones.map fun q => ((ZONES.BAN_MOP : ℤ), q.message.fields)
  apart r hr := by
    rcases List.mem_append.mp hr with hr | hr
    · rcases List.mem_append.mp hr with hr | hr
      · obtain ⟨l, -, rfl⟩ := List.mem_map.mp hr
        exact (by decide : (1 : ℤ) ∉ [(4 : ℤ), 5])
      · obtain ⟨q, -, rfl⟩ := List.mem_map.mp hr
        exact (by decide : (2 : ℤ) ∉ [(4 : ℤ), 5])
    · obtain ⟨q, -, rfl⟩ := List.mem_map.mp hr
      exact (by decide : (3 : ℤ) ∉ [(4 : ℤ), 5])

def value : VacuumRestrictedZones where
  mapId := named z.mapId
  releases := z.releases
  virtualWalls := z.virtualWalls.map Line.line
  noGoZones := z.noGoZones.map Quad.quad
  noMopZones := z.noMopZones.map Quad.quad

end Zones

theorem decodeVacuumRestrictedZones_message (hreader : reader.Lawful) {z : Zones}
    (h : z.message.Sendable) {raw : String}
    (hraw : (rawDpCodec reader).decode raw = some z.message.read) :
    decodeVacuumRestrictedZones (rawDpCodec reader) raw = some z.value := by
  have hid : mapIdOf (some z.message.read) ZONES.MAP_ID = named z.mapId :=
    named_eq z.message h List.mem_cons_self
  have hreleases : int (some z.message.read) ZONES.RELEASES = z.releases :=
    DeviceMessage.int_of_once h (List.mem_cons_of_mem _ List.mem_cons_self)
  have hwalls : each (rawDpCodec reader) (some z.message.read) ZONES.VIRTUAL_WALLS =
      z.virtualWalls.map fun l => l.message.read := by
    refine DeviceMessage.each_of_under hreader h (by exact (by decide : (1 : ℤ) ∉ [(4 : ℤ), 5])) ?_
    rw [Zones.message, DeviceMessage.under_append, DeviceMessage.under_append,
      DeviceMessage.under_map_self, DeviceMessage.under_map_of_ne _ _ (by decide),
      DeviceMessage.under_map_of_ne _ _ (by decide), List.append_nil, List.append_nil]
  have hnoGo : each (rawDpCodec reader) (some z.message.read) ZONES.FORBIDDEN =
      z.noGoZones.map fun q => q.message.read := by
    refine DeviceMessage.each_of_under hreader h (by exact (by decide : (2 : ℤ) ∉ [(4 : ℤ), 5])) ?_
    rw [Zones.message, DeviceMessage.under_append, DeviceMessage.under_append,
      DeviceMessage.under_map_self, DeviceMessage.under_map_of_ne _ _ (by decide),
      DeviceMessage.under_map_of_ne _ _ (by decide), List.nil_append, List.append_nil]
  have hnoMop : each (rawDpCodec reader) (some z.message.read) ZONES.BAN_MOP =
      z.noMopZones.map fun q => q.message.read := by
    refine DeviceMessage.each_of_under hreader h (by exact (by decide : (3 : ℤ) ∉ [(4 : ℤ), 5])) ?_
    rw [Zones.message, DeviceMessage.under_append, DeviceMessage.under_append,
      DeviceMessage.under_map_self, DeviceMessage.under_map_of_ne _ _ (by decide),
      DeviceMessage.under_map_of_ne _ _ (by decide), List.nil_append, List.nil_append]
  have hlines : (z.virtualWalls.map fun l => l.message.read).map
      (fun l => lineOf (rawDpCodec reader) (some l)) = z.virtualWalls.map Line.line := by
    rw [List.map_map]
    refine List.map_congr_left fun l hl => lineOf_message hreader ?_
    exact h.repeated
      (List.mem_append_left _ (List.mem_append_left _ (List.mem_map_of_mem hl)))
  have hforbidden : (z.noGoZones.map fun q => q.message.read).map
      (fun q => quadOf (rawDpCodec reader) (some q)) = z.noGoZones.map Quad.quad := by
    rw [List.map_map]
    refine List.map_congr_left fun q hq => quadOf_message hreader ?_
    exact h.repeated
      (List.mem_append_left _ (List.mem_append_right _ (List.mem_map_of_mem hq)))
  have hbanned : (z.noMopZones.map fun q => q.message.read).map
      (fun q => quadOf (rawDpCodec reader) (some q)) = z.noMopZones.map Quad.quad := by
    rw [List.map_map]
    refine List.map_congr_left fun q hq => quadOf_message hreader ?_
    exact h.repeated (List.mem_append_right _ (List.mem_map_of_mem hq))
  rw [decodeVacuumRestrictedZones, hraw]
  dsimp only [bind, Option.bind, pure]
  rw [hid, hreleases, hwalls, hnoGo, hnoMop, hlines, hforbidden, hbanned]
  rfl

/-! ## Description -/

structure Description where
  mapId : ℤ
  releases : ℤ
  name : Buffer
  createCause : ℤ
  createTime : ℤ
  lastTime : ℤ

namespace Description

variable (d : Description)

def message : DeviceMessage where
  once := [.bytes DESCRIPTION.NAME d.name, .int DESCRIPTION.CREATE_CAUSE d.createCause,
    .int DESCRIPTION.CREATE_TIME d.createTime, .int DESCRIPTION.LAST_TIME d.lastTime,
    .int DESCRIPTION.MAP_ID d.mapId, .int DESCRIPTION.RELEASES d.releases]

def value : VacuumMapDescription where
  mapId := named d.mapId
  releases := d.releases
  name := textOf toText d.name
  createCause := d.createCause
  createdAt := named d.createTime
  lastUsedAt := named d.lastTime

end Description

theorem decodeVacuumMapDescription_message (reader : WireReader) {d : Description}
    (h : d.message.Sendable) {raw : String}
    (hraw : (rawDpCodec reader).decode raw = some d.message.read) :
    decodeVacuumMapDescription (rawDpCodec reader) toText raw = some (d.value toText) := by
  have hname : ProtoRead.text (some d.message.read) DESCRIPTION.NAME toText =
      textOf toText d.name := text_of_once toText h List.mem_cons_self
  have hcause : int (some d.message.read) DESCRIPTION.CREATE_CAUSE = d.createCause :=
    DeviceMessage.int_of_once h (by simp [Description.message])
  have hcreated : int (some d.message.read) DESCRIPTION.CREATE_TIME = d.createTime :=
    DeviceMessage.int_of_once h (by simp [Description.message])
  have hused : int (some d.message.read) DESCRIPTION.LAST_TIME = d.lastTime :=
    DeviceMessage.int_of_once h (by simp [Description.message])
  have hid : mapIdOf (some d.message.read) DESCRIPTION.MAP_ID = named d.mapId :=
    named_eq d.message h (by simp [Description.message])
  have hreleases : int (some d.message.read) DESCRIPTION.RELEASES = d.releases :=
    DeviceMessage.int_of_once h (by simp [Description.message])
  rw [decodeVacuumMapDescription, hraw]
  dsimp only [bind, Option.bind, pure]
  rw [hname, hcause, hcreated, hused, hid, hreleases]
  rfl

/-! ## Parts and backups -/

/-- A part of a map that is stamped. -/
inductive Part : StampedKind → Type
  | plane (m : Map) : Part .plane
  | outline (o : Outline) : Part .outline
  | rooms (r : Rooms) : Part .rooms
  | zones (z : Zones) : Part .zones
  | description (d : Description) : Part .description

namespace Part

variable {kind : StampedKind}

def message : Part kind → DeviceMessage
  | plane m => m.message
  | outline o => o.message
  | rooms r => r.message
  | zones z => z.message
  | description d => d.message

/-- What is to be read of it. -/
def stamped : Part kind → Stamped MapBody kind
  | plane m => stamp .plane (named m.mapId) m.releases (m.value toText)
  | outline o => stamp .outline (named o.mapId) o.releases o.value
  | rooms r => stamp .rooms (named r.mapId) r.releases (r.value toText)
  | zones z => stamp .zones (named z.mapId) z.releases z.value
  | description d => stamp .description (named d.mapId) d.releases (d.value toText)

theorem decodePart_message (hreader : reader.Lawful) {p : Part kind} (h : p.message.Sendable)
    {raw : String} (hraw : (rawDpCodec reader).decode raw = some p.message.read) :
    decodePart (rawDpCodec reader) toText raw kind = some (p.stamped toText) := by
  cases p with
  | plane m =>
    rw [decodePart, decodeVacuumMap_message toText hreader h hraw]
    rfl
  | outline o =>
    rw [decodePart, decodeVacuumRoomOutline_message hreader h hraw]
    rfl
  | rooms r =>
    rw [decodePart, decodeVacuumRoomParams_message toText hreader h hraw]
    rfl
  | zones z =>
    rw [decodePart, decodeVacuumRestrictedZones_message hreader h hraw]
    rfl
  | description d =>
    rw [decodePart, decodeVacuumMapDescription_message toText reader h hraw]
    rfl

end Part

/-- What a robot sends when a map is switched or edited: of each kind a part, or none. -/
structure Backup where
  description : Option (Part .description)
  map : Option (Part .plane)
  outline : Option (Part .outline)
  rooms : Option (Part .rooms)
  zones : Option (Part .zones)

namespace Backup

variable (b : Backup)

def parts : List (ℕ × Option DeviceMessage) :=
  [(BACKUP.DESC, b.description.map Part.message), (BACKUP.MAP, b.map.map Part.message),
    (BACKUP.ROOMS, b.outline.map Part.message), (BACKUP.ROOM_PARAMS, b.rooms.map Part.message),
    (BACKUP.RESTRICTED_ZONE, b.zones.map Part.message)]

theorem nodup_parts : (DeviceMessage.optionalNumbers b.parts []).Nodup := of_decide_eq_true rfl

def message : DeviceMessage where
  once := DeviceMessage.optional b.parts ++ []
  distinct := DeviceMessage.nodup_optional b.nodup_parts

/-- What is to be read of a part. One that holds nothing but zeros is as one that was not sent. -/
def readPart {kind : StampedKind} (part : Option (Part kind)) : Option (Stamped MapBody kind) :=
  part.bind fun p => if p.message.fields = [] then none else some (p.stamped toText)

def backup : VacuumMapBackup MapBody where
  description := readPart toText b.description
  map := readPart toText b.map
  outline := readPart toText b.outline
  rooms := readPart toText b.rooms
  zones := readPart toText b.zones

variable {b}

theorem encodeAll_eq_nil {fields : List Field} : encodeAll fields = [] ↔ fields = [] := by
  constructor
  · intro h
    have hlength := length_le_encodeAll fields
    rw [h] at hlength
    exact List.eq_nil_of_length_eq_zero (Nat.le_zero.mp hlength)
  · rintro rfl
    rfl

/-- A part is read off its own field, and off no field where it was not sent. -/
theorem part_message (hreader : reader.Lawful) (h : b.message.Sendable) {field : ℕ}
    {kind : StampedKind} {p : Option (Part kind)} (hmem : (field, p.map Part.message) ∈ b.parts) :
    part (rawDpCodec reader) toText b.message.read field kind = readPart toText p := by
  rw [part, ProtoRead.bytes, DeviceMessage.find_of_optional h rfl b.nodup_parts rfl hmem]
  cases p with
  | none => rfl
  | some p =>
    have hp := h.sub (DeviceMessage.mem_of_optional (m := b.message) rfl hmem)
    rw [Option.map_some, Option.map_some, readPart, Option.bind_some]
    by_cases hempty : p.message.fields = []
    · rw [if_pos hempty, hempty]
      rfl
    · dsimp only
      rw [if_neg hempty, if_neg (mt encodeAll_eq_nil.mp hempty), Option.bind_some]
      exact p.decodePart_message toText hreader hp (decode_reframe_fields hreader hp)

/-- **A backup is read as the robot holds it.** -/
theorem decodeVacuumMapBackup_message (hreader : reader.Lawful) (h : b.message.Sendable)
    {raw : String} (hraw : (rawDpCodec reader).decode raw = some b.message.read) :
    decodeVacuumMapBackup (rawDpCodec reader) toText raw = some (b.backup toText) := by
  have hdescription := part_message toText hreader h (p := b.description) List.mem_cons_self
  have hmap := part_message toText hreader h (p := b.map)
    (List.mem_cons_of_mem _ List.mem_cons_self)
  have houtline : part (rawDpCodec reader) toText b.message.read BACKUP.ROOMS .outline =
      readPart toText b.outline := part_message toText hreader h (by simp [parts])
  have hrooms : part (rawDpCodec reader) toText b.message.read BACKUP.ROOM_PARAMS .rooms =
      readPart toText b.rooms := part_message toText hreader h (by simp [parts])
  have hzones : part (rawDpCodec reader) toText b.message.read BACKUP.RESTRICTED_ZONE .zones =
      readPart toText b.zones := part_message toText hreader h (by simp [parts])
  rw [decodeVacuumMapBackup, hraw]
  dsimp only [bind, Option.bind, pure]
  rw [hdescription, hmap, houtline, hrooms, hzones]
  rfl

/-- The message of a part on its own, if it was sent and holds anything. -/
def textsOf {kind : StampedKind} (part : Option (Part kind)) : List (StampedKind × String) :=
  (part.toList.filter fun p => !p.message.fields.isEmpty).map fun p =>
    (kind, String.ofList (text p.message.fields))

/-- The messages of the parts of a backup, one each. -/
def texts (b : Backup) : List (StampedKind × String) :=
  textsOf b.description ++ textsOf b.map ++ textsOf b.outline ++ textsOf b.rooms ++ textsOf b.zones

/-- The piece of a message that stands alone. -/
def pieceOf (codec : RawDpCodec) (t : StampedKind × String) : Option (AnyPiece MapBody) :=
  (decodePart codec toText t.2 t.1).map fun p => ⟨t.1, p⟩

theorem filterMap_textsOf (hreader : reader.Lawful) (h : b.message.Sendable) (field : ℕ)
    {kind : StampedKind} (part : Option (Part kind))
    (hmem : (field, part.map Part.message) ∈ b.parts) :
    (textsOf part).filterMap (pieceOf toText (rawDpCodec reader)) =
      (readPart toText part).toList.map fun p => (⟨kind, p⟩ : AnyPiece MapBody) := by
  cases part with
  | none => rfl
  | some p =>
    have hp := h.sub (DeviceMessage.mem_of_optional (m := b.message) rfl hmem)
    have hpiece : pieceOf toText (rawDpCodec reader) (kind, String.ofList (text p.message.fields)) =
        some ⟨kind, p.stamped toText⟩ := by
      rw [pieceOf, p.decodePart_message toText hreader hp (DeviceMessage.decode_fields hreader hp)]
      rfl
    by_cases hempty : p.message.fields = []
    · simp [textsOf, readPart, hempty]
    · simp [textsOf, readPart, hempty, hpiece]

theorem pieces_texts (hreader : reader.Lawful) (h : b.message.Sendable) :
    b.texts.filterMap (pieceOf toText (rawDpCodec reader)) = piecesOf (b.backup toText) := by
  have hdescription := filterMap_textsOf toText hreader h BACKUP.DESC b.description
    List.mem_cons_self
  have hmap := filterMap_textsOf toText hreader h BACKUP.MAP b.map
    (List.mem_cons_of_mem _ List.mem_cons_self)
  have houtline := filterMap_textsOf toText hreader h BACKUP.ROOMS b.outline (by simp [parts])
  have hrooms := filterMap_textsOf toText hreader h BACKUP.ROOM_PARAMS b.rooms (by simp [parts])
  have hzones := filterMap_textsOf toText hreader h BACKUP.RESTRICTED_ZONE b.zones
    (by simp [parts])
  rw [texts, List.filterMap_append, List.filterMap_append, List.filterMap_append,
    List.filterMap_append, hdescription, hmap, houtline, hrooms, hzones]
  rfl

/-- A backup changes a store if any of its pieces does, where its turn comes. -/
theorem applyBackup_snd {Body : StampedKind → Type} (s : VacuumMapStore Body)
    (backup : VacuumMapBackup Body) : (s.applyBackup backup).2 = true ↔
      ∃ before p after, piecesOf backup = before ++ p :: after ∧
        ((s.putAll before).put p).2 = true := by
  have hfold (pieces : List (AnyPiece Body)) (r : VacuumMapStore Body × Bool) :
      (pieces.foldl (fun r p => ((r.1.put p).1, (r.1.put p).2 || r.2)) r).2 = true ↔
        r.2 = true ∨ ∃ before p after, pieces = before ++ p :: after ∧
          ((r.1.putAll before).put p).2 = true := by
    induction pieces generalizing r with
    | nil => simp
    | cons q pieces ih =>
      rw [List.foldl_cons, ih, Bool.or_eq_true]
      constructor
      · rintro ((hq | hr) | ⟨before, p, after, rfl, hp⟩)
        · exact .inr ⟨[], q, pieces, rfl, hq⟩
        · exact .inl hr
        · exact .inr ⟨q :: before, p, after, rfl, hp⟩
      · rintro (hr | ⟨before, p, after, hsplit, hp⟩)
        · exact .inl (.inr hr)
        · cases before with
          | nil =>
            obtain ⟨rfl, rfl⟩ := List.cons.inj hsplit
            exact .inl (.inl hp)
          | cons q' before =>
            obtain ⟨rfl, rfl⟩ := List.cons.inj hsplit
            exact .inr ⟨before, p, after, rfl, hp⟩
  refine (hfold (piecesOf backup) (s, false)).trans ?_
  simp

/-- **A backup is its parts**: it is read as the robot holds it, and a store is left as it would be by
the messages of the parts, one after the other, and changed if it would be by any of these. -/
theorem backup_as_parts (hreader : reader.Lawful) (b : Backup) (h : b.message.Sendable)
    (s : VacuumMapStore MapBody) :
    let codec := rawDpCodec reader
    let pieces := b.texts.filterMap (pieceOf toText codec)
    decodeVacuumMapBackup codec toText (String.ofList (text b.message.fields)) =
        some (b.backup toText) ∧
      (s.apply (.backup (b.backup toText))).1 = s.putAll pieces ∧
      ((s.apply (.backup (b.backup toText))).2 = true ↔
        ∃ before p after, pieces = before ++ p :: after ∧
          ((s.putAll before).put p).2 = true) := by
  dsimp only
  rw [pieces_texts toText hreader h]
  exact ⟨decodeVacuumMapBackup_message toText hreader h (DeviceMessage.decode_fields hreader h),
    s.applyBackup_fst (b.backup toText), applyBackup_snd s (b.backup toText)⟩

def sweptKitchen : Room where
  id := 4
  name := []
  scene := .kitchen
  sceneIndex := 1
  floor := .tile
  order := 0
  settings :=
    { cleanType := some .sweep, suction := none, mopLevel := none, cleanExtent := none
      cleanTimes := 0 }

def kitchenOnly : Rooms where
  mapId := 3
  releases := 8
  customEnabled := false
  smartMode := true
  rooms := [sweptKitchen]

/-- A rename of map 3 with the one room it has, and with zones that hold nothing. -/
def rename : Backup where
  description := some (.description
    { mapId := 3, releases := 8, name := [97], createCause := 0, createTime := 0, lastTime := 0 })
  map := none
  outline := none
  rooms := some (.rooms kitchenOnly)
  zones := some (.zones
    { mapId := 0, releases := 0, virtualWalls := [], noGoZones := [], noMopZones := [] })

theorem backup_as_parts_rename :
    let pieces := rename.texts.filterMap (pieceOf (fun _ => "a") (rawDpCodec wireFormat))
    decodeVacuumMapBackup (rawDpCodec wireFormat) (fun _ => "a")
        (String.ofList (text rename.message.fields)) = some (rename.backup fun _ => "a") ∧
      (VacuumMapStore.apply {} (.backup (rename.backup fun _ => "a"))).1 =
        VacuumMapStore.putAll {} pieces ∧
      (rename.backup fun _ => "a").zones = none := by
  obtain ⟨hdecode, hstore, -⟩ :=
    backup_as_parts (fun _ => "a") lawful_wireFormat rename (by decide) {}
  exact ⟨hdecode, hstore, rfl⟩

end Backup

end EufySdk.HeldMap
