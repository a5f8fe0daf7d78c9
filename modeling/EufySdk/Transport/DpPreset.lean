import Mathlib.Tactic
import EufySdk.Core.Scalar
import EufySdk.Lib.Bytes

/-!
# Light effects

`transport/dp-preset.ts`: a light effect of the catalog as the fields of a frame. Its values come
from the cloud in any shape; a value that is not known how to pack is refused. Whether an effect can be
packed is decided without packing it, by a walk of its own over the same layers. The mixing of a
colour into the five channels of the lamp is a parameter.

- `b8`, `rangeBytes2` — a value as a byte, or as two
- `layerHeader`, `layerTrailer`, `layerBlob` — a layer
- `dpPresetFields` — the fields
- `specIsSerializable` — whether they can be built
-/

namespace EufySdk

open Bytes

/-- A value of the catalog. What is neither a number, a string nor an array is `other`, but for
`undefined` and `null`. -/
inductive CatalogValue
  | undefined
  | null
  | num (n : JsNumber)
  | str (s : String)
  | arr (elems : List CatalogValue)
  | other

namespace CatalogValue

/-- `v ?? w`. -/
def orElse : CatalogValue → CatalogValue → CatalogValue
  | undefined, w => w
  | null, w => w
  | v, _ => v

/-- `v[i]` of an array. -/
def at_ (elems : List CatalogValue) (i : ℕ) : CatalogValue := elems.getD i undefined

end CatalogValue

structure DpPresetLayer where
  current_layer_type : CatalogValue := .undefined
  colors : CatalogValue := .undefined
  layer_priority : CatalogValue := .undefined
  layer_speed : CatalogValue := .undefined
  layer_range : CatalogValue := .undefined
  interval_type : CatalogValue := .undefined
  interval_value : CatalogValue := .undefined
  layer_execution_parameter : CatalogValue := .undefined
  light_effect_post_cycle_status : CatalogValue := .undefined
  color_pick_mode : CatalogValue := .undefined
  gradient_value : CatalogValue := .undefined
  flow_direction : CatalogValue := .undefined
  direction_change_mode : CatalogValue := .undefined
  length_range : CatalogValue := .undefined
  color_fill_mode : CatalogValue := .undefined
  insert_block_mode : CatalogValue := .undefined
  insert_block_range : CatalogValue := .undefined
  insert_black_block_mode : CatalogValue := .undefined
  insert_black_block_range : CatalogValue := .undefined
  brightness_variation_type : CatalogValue := .undefined
  brightness_range : CatalogValue := .undefined
  light_effect_cycle_method : CatalogValue := .undefined
  execution_parameter : CatalogValue := .undefined
  is_lights_move_with_people : CatalogValue := .undefined
  brightness_value : CatalogValue := .undefined
  display_mode : CatalogValue := .undefined
  color_quantity_range : CatalogValue := .undefined
  transition_mode : CatalogValue := .undefined
  unit_transition_duration : CatalogValue := .undefined
  color_switch_mode : CatalogValue := .undefined
  switch_count : CatalogValue := .undefined
  color_pick_sequence : CatalogValue := .undefined
  blink_cycle_count : CatalogValue := .undefined
  blink_position_mode : CatalogValue := .undefined
  blink_interval : CatalogValue := .undefined
  blink_quantity : CatalogValue := .undefined
  blink_asynchrony : CatalogValue := .undefined
  blink_color_switch_mode : CatalogValue := .undefined

structure DpPresetSpec where
  lightId : JsNumber
  speed : JsNumber
  layerExecutionMode : JsNumber
  layers : List DpPresetLayer

/-- A field of a frame. -/
structure DpField where
  tag : ℕ
  value : Buffer
  deriving DecidableEq, Repr

inductive DpPresetError
  | singleByte (v : CatalogValue)
  | colors (v : CatalogValue)
  /-- `colors` is no string: it has no `split`. -/
  | split
  | layerType (v : CatalogValue)

/-- The texts, but for what the platform throws; `stringify` and `text` are `JSON.stringify` and the
conversion of a template. -/
def DpPresetError.message (stringify text : CatalogValue → String) : DpPresetError → Option String
  | singleByte v =>
    some ("light-effect carries " ++ stringify v ++ " in a single-byte field — that shape's packing " ++
      "isn't reverse-engineered; refusing to send a silently mis-packed frame")
  | colors v => some ("light-effect layer colors " ++ stringify v ++ " not parseable as RGB hex")
  | split => none
  | layerType v =>
    some ("light-effect layer current_layer_type=" ++ text v ++ " has no known frame shape")

/-- What the serializer is given: `Number(s)`, and the mixing of a colour into red, green, blue,
warm and cold white. -/
structure DpPlatform where
  toNumber : String → JsNumber
  mix : List Char → Buffer
  length_mix : ∀ hex, (mix hex).length = 5

/-- A number without its fraction; what is not finite counts as zero. -/
def JsNumber.whole : JsNumber → ℤ
  | finite q => q.num.tdiv q.den
  | _ => 0

/-- `n & 0xff`. -/
def JsNumber.lowByte (n : JsNumber) : UInt8 := UInt8.ofNat (n.whole % 256).toNat

/-- `u32le` of `core/util.ts`. -/
def u32le (n : JsNumber) : Buffer := uint32LE (n.whole % 4294967296).toNat

variable (P : DpPlatform)

namespace DpPreset

/-- `b8`. -/
def b8 (v : CatalogValue) : Except DpPresetError UInt8 :=
  match v with
  | .undefined | .null => .ok 0
  | .num (.finite q) => .ok (JsNumber.finite q).lowByte
  | .str s =>
    match P.toNumber s with
    | .finite q => .ok (JsNumber.finite q).lowByte
    | _ => .error (.singleByte v)
  | _ => .error (.singleByte v)

def rangeBytes2 (v : CatalogValue) : Except DpPresetError Buffer :=
  match v with
  | .undefined | .null => .ok [0, 0]
  | .arr elems => do
    let high ← b8 P (CatalogValue.at_ elems 1)
    let low ← b8 P (CatalogValue.at_ elems 0)
    return [high, low]
  | v => do
    let low ← b8 P v
    return [low, 0]

/-- One byte of a layer, as a part of it. -/
def one (v : CatalogValue) : Except DpPresetError Buffer := (b8 P v).map fun b => [b]

/-- The parts of a layer one after the other: the first that throws is the one thrown. -/
def parts : List (Except DpPresetError Buffer) → Except DpPresetError Buffer
  | [] => .ok []
  | part :: rest => do
    let bytes ← part
    let more ← parts rest
    return bytes ++ more

def layerHeader (l : DpPresetLayer) : Except DpPresetError Buffer :=
  parts [one P l.layer_priority, one P l.layer_speed, rangeBytes2 P l.layer_range,
    one P l.interval_type, one P l.interval_value, one P l.light_effect_post_cycle_status,
    one P l.layer_execution_parameter]

/-- The types of layers that are known. -/
inductive LayerType
  | gradient
  | solid
  | blink
  deriving DecidableEq, Repr

/-- The `switch` of `layerTrailer`. -/
def layerType : CatalogValue → Option LayerType
  | .num (.finite q) =>
    if q = 0 then some .gradient else if q = 1 then some .solid else if q = 2 then some .blink
    else none
  | _ => none

def execOrMove (l : DpPresetLayer) : Except DpPresetError Buffer :=
  one P (l.execution_parameter.orElse l.is_lights_move_with_people)

/-- The trailer of a layer of a known type. -/
def trailer (l : DpPresetLayer) : LayerType → Except DpPresetError Buffer
  | .gradient =>
    parts [one P l.color_pick_mode, one P l.gradient_value, one P l.flow_direction,
      one P l.direction_change_mode, one P l.length_range, one P l.color_fill_mode,
      one P l.insert_block_mode, rangeBytes2 P l.insert_block_range,
      one P l.insert_black_block_mode, rangeBytes2 P l.insert_black_block_range,
      one P l.brightness_variation_type, rangeBytes2 P l.brightness_range,
      one P l.light_effect_cycle_method, execOrMove P l]
  | .solid =>
    parts [one P l.brightness_value, one P l.display_mode, one P l.color_quantity_range,
      one P l.transition_mode, one P l.unit_transition_duration, one P l.color_switch_mode,
      one P l.switch_count, one P l.color_pick_sequence, .ok [0], one P l.execution_parameter]
  | .blink =>
    parts [one P l.brightness_variation_type, rangeBytes2 P l.brightness_range,
      one P l.blink_cycle_count, one P l.blink_position_mode, rangeBytes2 P l.blink_interval,
      one P l.blink_quantity, one P l.blink_asynchrony, one P l.blink_color_switch_mode,
      one P l.light_effect_cycle_method, execOrMove P l]

/-- Nothing for a layer of a type that is not known. -/
def layerTrailer (l : DpPresetLayer) : Except DpPresetError (Option Buffer) :=
  match layerType l.current_layer_type with
  | none => .ok none
  | some type => (trailer P l type).map some

/-- `RGB_HEX.test(c)`. -/
def isRgbHex (c : List Char) : Bool :=
  c.length = 6 &&
    c.all fun d => d.isDigit || ('a' ≤ d && d ≤ 'f') || ('A' ≤ d && d ≤ 'F')

def rgbcwBlock (hex : List Char) : Option Buffer := if isRgbHex hex then some (P.mix hex) else none

/-- `(l.colors ?? "").split("|").filter(Boolean)`. -/
def layerColors (l : DpPresetLayer) : Except DpPresetError (List (List Char)) :=
  match l.colors.orElse (.str "") with
  | .str s => .ok ((s.toList.splitOn '|').filter (· ≠ []))
  | _ => .error .split

/-- `current_layer_type & 0xff`, of a type that is known. -/
def typeByte : CatalogValue → UInt8
  | .num n => n.lowByte
  | _ => 0

def layerBlob (l : DpPresetLayer) : Except DpPresetError Buffer := do
  let colors ← layerColors l
  let blocks := colors.map (rgbcwBlock P)
  if colors = [] ∨ none ∈ blocks then .error (.colors l.colors)
  else
    match ← layerTrailer P l with
    | none => .error (.layerType l.current_layer_type)
    | some trailer =>
      let header ← layerHeader P l
      return header ++ [0, typeByte l.current_layer_type, UInt8.ofNat colors.length] ++
        (blocks.filterMap id).flatten ++ trailer

/-- The layers of a preset, from one on, under consecutive tags. -/
def layerFields (tag : ℕ) : List DpPresetLayer → Except DpPresetError (List DpField)
  | [] => .ok []
  | l :: layers => do
    let value ← layerBlob P l
    let rest ← layerFields (tag + 1) layers
    return { tag, value } :: rest

def dpPresetFields (spec : DpPresetSpec) : Except DpPresetError (List DpField) :=
  (layerFields P 0xa9 spec.layers).map fun layers =>
    [{ tag := 0xa3, value := u32le spec.lightId },
      { tag := 0xa4, value := [spec.speed.lowByte] },
      { tag := 0xa5, value := [UInt8.ofNat spec.layers.length] },
      { tag := 0xa6, value := [spec.layerExecutionMode.lowByte] },
      { tag := 0xa8, value := [0] }] ++ layers

/-- What the validator's loop makes of a layer: `false` where it returns, and what a step throws. -/
def checkLayer (l : DpPresetLayer) : Except DpPresetError Bool := do
  let _ ← layerHeader P l
  match ← layerTrailer P l with
  | none => return false
  | some _ =>
    let colors ← layerColors l
    return colors ≠ [] && colors.all isRgbHex

def checkLayers : List DpPresetLayer → Except DpPresetError Bool
  | [] => .ok true
  | l :: layers => do
    if ← checkLayer P l then checkLayers layers else return false

/-- What is thrown is caught. -/
def specIsSerializable (speed layerExecutionMode : CatalogValue) (layers : List DpPresetLayer) :
    Bool :=
  if layers = [] then false
  else
    let checked : Except DpPresetError Bool := do
      let _ ← b8 P speed
      let _ ← b8 P layerExecutionMode
      checkLayers P layers
    match checked with
    | .ok answer => answer
    | .error _ => false

/-! ## The validator and the encoder -/

/-- A layer that can be packed: every value in it, its type and its colours. -/
structure Packable (l : DpPresetLayer) : Prop where
  header : ∃ header, layerHeader P l = .ok header
  trailer : ∃ trailer, layerTrailer P l = .ok (some trailer)
  colors : ∃ colors, layerColors l = .ok colors ∧ colors ≠ [] ∧ colors.all isRgbHex = true

variable {P} {l : DpPresetLayer} {layers : List DpPresetLayer}

/-- A colour has no block exactly when it is no hex colour. -/
theorem none_mem_blocks_iff (colors : List (List Char)) :
    none ∈ colors.map (rgbcwBlock P) ↔ colors.all isRgbHex = false := by
  rw [List.mem_map, List.all_eq_false]
  refine exists_congr fun c => and_congr_right fun _ => ?_
  rw [rgbcwBlock]
  split
  · next hhex => simp [hhex]
  · next hhex => simp [hhex]

theorem checkLayer_iff : checkLayer P l = .ok true ↔ Packable P l := by
  constructor
  · intro h
    obtain ⟨header, hheader, h⟩ := bind_eq_ok.mp h
    obtain ⟨trailer, htrailer, h⟩ := bind_eq_ok.mp h
    cases trailer with
    | none => cases h
    | some trailer =>
      obtain ⟨colors, hcolors, h⟩ := bind_eq_ok.mp h
      obtain ⟨hne, hhex⟩ := Bool.and_eq_true_iff.mp (Except.ok.inj h)
      exact ⟨⟨header, hheader⟩, ⟨trailer, htrailer⟩, ⟨colors, hcolors, of_decide_eq_true hne, hhex⟩⟩
  · rintro ⟨⟨header, hheader⟩, ⟨trailer, htrailer⟩, ⟨colors, hcolors, hne, hhex⟩⟩
    simp [checkLayer, hheader, htrailer, hcolors, hne, hhex, pure, Except.pure]

/-- The blocks of hex colours. -/
theorem filterMap_blocks {colors : List (List Char)} (h : colors.all isRgbHex = true) :
    (colors.map (rgbcwBlock P)).filterMap id = colors.map P.mix := by
  rw [List.filterMap_map]
  refine List.filterMap_eq_map_iff_forall_eq_some.mpr fun c hc => ?_
  exact if_pos (List.all_eq_true.mp h c hc)

/-- A layer that is packed, part by part. -/
theorem layerBlob_eq_ok {blob : Buffer} :
    layerBlob P l = .ok blob ↔ ∃ header trailer colors, layerHeader P l = .ok header ∧
      layerTrailer P l = .ok (some trailer) ∧ layerColors l = .ok colors ∧ colors ≠ [] ∧
      colors.all isRgbHex = true ∧
      header ++ [0, typeByte l.current_layer_type, UInt8.ofNat colors.length] ++
        (colors.map P.mix).flatten ++ trailer = blob := by
  constructor
  · intro h
    obtain ⟨colors, hcolors, h⟩ := bind_eq_ok.mp h
    dsimp only at h
    split at h
    · cases h
    · next hsome =>
      obtain ⟨hne, hblocks⟩ := not_or.mp hsome
      rw [none_mem_blocks_iff, Bool.not_eq_false] at hblocks
      obtain ⟨trailer, htrailer, h⟩ := bind_eq_ok.mp h
      cases trailer with
      | none => cases h
      | some trailer =>
        obtain ⟨header, hheader, h⟩ := bind_eq_ok.mp h
        rw [filterMap_blocks hblocks] at h
        exact ⟨header, trailer, colors, hheader, htrailer, hcolors, hne, hblocks, Except.ok.inj h⟩
  · rintro ⟨header, trailer, colors, hheader, htrailer, hcolors, hne, hhex, rfl⟩
    have hsome : ¬(colors = [] ∨ none ∈ colors.map (rgbcwBlock P)) := by
      rw [none_mem_blocks_iff, hhex]
      simp [hne]
    rw [layerBlob, hcolors, ok_bind]
    dsimp only
    rw [if_neg hsome, htrailer, ok_bind]
    dsimp only
    rw [hheader, ok_bind, filterMap_blocks hhex]
    rfl

theorem layerBlob_iff : (∃ blob, layerBlob P l = .ok blob) ↔ Packable P l := by
  constructor
  · rintro ⟨blob, h⟩
    obtain ⟨header, trailer, colors, hheader, htrailer, hcolors, hne, hhex, -⟩ :=
      layerBlob_eq_ok.mp h
    exact ⟨⟨header, hheader⟩, ⟨trailer, htrailer⟩, ⟨colors, hcolors, hne, hhex⟩⟩
  · rintro ⟨⟨header, hheader⟩, ⟨trailer, htrailer⟩, ⟨colors, hcolors, hne, hhex⟩⟩
    exact ⟨_, layerBlob_eq_ok.mpr
      ⟨header, trailer, colors, hheader, htrailer, hcolors, hne, hhex, rfl⟩⟩

theorem checkLayers_iff : checkLayers P layers = .ok true ↔ ∀ l ∈ layers, Packable P l := by
  induction layers with
  | nil => exact ⟨fun _ => nofun, fun _ => rfl⟩
  | cons l layers ih =>
    rw [checkLayers, List.forall_mem_cons, ← checkLayer_iff, ← ih, bind_eq_ok]
    constructor
    · rintro ⟨answer, hl, hrest⟩
      cases answer with
      | true => exact ⟨hl, hrest⟩
      | false => cases hrest
    · rintro ⟨hl, hrest⟩
      exact ⟨true, hl, hrest⟩

theorem layerFields_iff (tag : ℕ) :
    (∃ fields, layerFields P tag layers = .ok fields) ↔ ∀ l ∈ layers, Packable P l := by
  induction layers generalizing tag with
  | nil => exact ⟨fun _ => nofun, fun _ => ⟨[], rfl⟩⟩
  | cons l layers ih =>
    rw [List.forall_mem_cons, ← layerBlob_iff, ← ih (tag + 1)]
    constructor
    · rintro ⟨fields, h⟩
      obtain ⟨value, hvalue, h⟩ := bind_eq_ok.mp h
      obtain ⟨rest, hrest, -⟩ := bind_eq_ok.mp h
      exact ⟨⟨value, hvalue⟩, ⟨rest, hrest⟩⟩
    · rintro ⟨⟨value, hvalue⟩, ⟨rest, hrest⟩⟩
      refine ⟨{ tag, value } :: rest, ?_⟩
      rw [layerFields, hvalue, ok_bind, hrest]
      rfl

theorem dpPresetFields_iff (spec : DpPresetSpec) :
    (∃ fields, dpPresetFields P spec = .ok fields) ↔ ∀ l ∈ spec.layers, Packable P l := by
  rw [← layerFields_iff 0xa9, dpPresetFields]
  cases layerFields P 0xa9 spec.layers with
  | error e => exact ⟨nofun, nofun⟩
  | ok fields => exact ⟨fun _ => ⟨fields, rfl⟩, fun _ => ⟨_, rfl⟩⟩

/-- A finite number is a byte. -/
theorem b8_num_iff {n : JsNumber} : (∃ b, b8 P (.num n) = .ok b) ↔ ∃ q, n = .finite q := by
  cases n with
  | finite q => exact ⟨fun _ => ⟨q, rfl⟩, fun _ => ⟨_, rfl⟩⟩
  | infinity _ | nan => exact ⟨nofun, nofun⟩

theorem specIsSerializable_iff (speed mode : CatalogValue) :
    specIsSerializable P speed mode layers = true ↔
      layers ≠ [] ∧ (∃ b, b8 P speed = .ok b) ∧ (∃ b, b8 P mode = .ok b) ∧
        ∀ l ∈ layers, Packable P l := by
  rw [specIsSerializable]
  split
  · next hnone => simp [hnone]
  · next hsome =>
    rw [← checkLayers_iff]
    cases hspeed : b8 P speed with
    | error e => simp
    | ok b =>
      cases hmode : b8 P mode with
      | error e => simp
      | ok b' =>
        cases checkLayers P layers <;> simp [hsome]

/-- **The validator agrees with the encoder**: a preset with a layer and finite numbers for its
speed and its mode is accepted if and only if it can be encoded. -/
theorem specIsSerializable_iff_dpPresetFields (spec : DpPresetSpec) (hlayers : spec.layers ≠ [])
    (hspeed : ∃ q, spec.speed = .finite q) (hmode : ∃ q, spec.layerExecutionMode = .finite q) :
    specIsSerializable P (.num spec.speed) (.num spec.layerExecutionMode) spec.layers = true ↔
      ∃ fields, dpPresetFields P spec = .ok fields := by
  rw [specIsSerializable_iff, dpPresetFields_iff]
  exact ⟨fun h => h.2.2.2, fun h => ⟨hlayers, b8_num_iff.mpr hspeed, b8_num_iff.mpr hmode, h⟩⟩

/-- A platform for numerals of two digits, with a lamp that mixes white alone. -/
def samplePlatform : DpPlatform where
  toNumber s := if s = "80" then .finite 80 else .nan
  mix _ := [0, 0, 0, 255, 255]
  length_mix _ := rfl

/-- A solid layer of two colours, with a number that came as text and a pair for a range. -/
def solidSpec : DpPresetSpec where
  lightId := .finite 1042
  speed := .finite 50
  layerExecutionMode := .finite 0
  layers := [
    { current_layer_type := .num (.finite 1)
      colors := .str "ff0000|00FF00"
      layer_speed := .str "80"
      layer_range := .arr [.num (.finite 1), .num (.finite 30)] }]

theorem specIsSerializable_iff_solid :
    ∃ fields, dpPresetFields samplePlatform solidSpec = .ok fields :=
  (specIsSerializable_iff_dpPresetFields solidSpec (List.cons_ne_nil _ _) ⟨50, rfl⟩ ⟨0, rfl⟩).mp
    (by decide)

/-! ## The size of a layer -/

/-- A part has `n` bytes when it does not throw. -/
def HasLength (part : Except DpPresetError Buffer) (n : ℕ) : Prop :=
  ∀ bytes, part = .ok bytes → bytes.length = n

theorem hasLength_one (v : CatalogValue) : HasLength (one P v) 1 := by
  intro bytes h
  rw [one] at h
  cases hb : b8 P v with
  | error e => rw [hb] at h; cases h
  | ok b => rw [hb] at h; cases h; rfl

theorem hasLength_rangeBytes2 (v : CatalogValue) : HasLength (rangeBytes2 P v) 2 := by
  intro bytes h
  cases v with
  | undefined | null => cases h; rfl
  | arr elems =>
    obtain ⟨high, -, h⟩ := bind_eq_ok.mp h
    obtain ⟨low, -, h⟩ := bind_eq_ok.mp h
    cases h; rfl
  | num _ | str _ | other =>
    obtain ⟨low, -, h⟩ := bind_eq_ok.mp h
    cases h; rfl

theorem hasLength_ok (bytes : Buffer) : HasLength (.ok bytes) bytes.length := by
  rintro _ ⟨⟩
  rfl

/-- Parts one after the other have as many bytes as they have together. -/
theorem hasLength_parts {ps : List (Except DpPresetError Buffer)} (ns : List ℕ)
    (h : List.Forall₂ HasLength ps ns) : HasLength (parts ps) ns.sum := by
  induction h with
  | nil => exact hasLength_ok []
  | cons hpart _ ih =>
    intro bytes h
    obtain ⟨front, hfront, h⟩ := bind_eq_ok.mp h
    obtain ⟨back, hback, h⟩ := bind_eq_ok.mp h
    cases h
    rw [List.length_append, List.sum_cons, hpart front hfront, ih back hback]

theorem hasLength_layerHeader (l : DpPresetLayer) : HasLength (layerHeader P l) 8 := by
  refine hasLength_parts [1, 1, 2, 1, 1, 1, 1] ?_
  simp only [List.forall₂_cons, hasLength_one, hasLength_rangeBytes2, List.Forall₂.nil, and_self]

/-- How long the trailer of a layer is. -/
def LayerType.trailerLength : LayerType → ℕ
  | .gradient => 17
  | .solid => 10
  | .blink => 12

theorem hasLength_trailer (l : DpPresetLayer) (type : LayerType) :
    HasLength (trailer P l type) type.trailerLength := by
  cases type with
  | gradient =>
    refine hasLength_parts [1, 1, 1, 1, 1, 1, 1, 2, 1, 2, 1, 2, 1, 1] ?_
    simp only [List.forall₂_cons, execOrMove, hasLength_one, hasLength_rangeBytes2,
      List.Forall₂.nil, and_self]
  | solid =>
    refine hasLength_parts [1, 1, 1, 1, 1, 1, 1, 1, 1, 1] ?_
    simp only [List.forall₂_cons, hasLength_one, List.Forall₂.nil, and_true, true_and]
    exact hasLength_ok [0]
  | blink =>
    refine hasLength_parts [1, 2, 1, 1, 2, 1, 1, 1, 1, 1] ?_
    simp only [List.forall₂_cons, execOrMove, hasLength_one, hasLength_rangeBytes2,
      List.Forall₂.nil, and_self]

theorem layerTrailer_eq_ok {bytes : Buffer} :
    layerTrailer P l = .ok (some bytes) ↔
      ∃ type, layerType l.current_layer_type = some type ∧ trailer P l type = .ok bytes := by
  rw [layerTrailer]
  cases layerType l.current_layer_type with
  | none => exact ⟨nofun, fun ⟨_, h, _⟩ => nomatch h⟩
  | some type =>
    dsimp only
    cases hfound : trailer P l type with
    | error e =>
      refine ⟨nofun, fun ⟨_, h, hbytes⟩ => ?_⟩
      cases h
      cases hfound.symm.trans hbytes
    | ok found =>
      constructor
      · intro h
        cases h
        exact ⟨type, rfl, hfound⟩
      · rintro ⟨_, h, hbytes⟩
        cases h
        cases hfound.symm.trans hbytes
        rfl

theorem length_flatten_mix (colors : List (List Char)) :
    (colors.map P.mix).flatten.length = 5 * colors.length := by
  induction colors with
  | nil => rfl
  | cons c colors ih =>
    rw [List.map_cons, List.flatten_cons, List.length_append, P.length_mix, ih, List.length_cons]
    omega

/-- **The size of a layer**: eleven bytes before its colours, five for each of them, and its
trailer. -/
theorem length_layerBlob {blob : Buffer} (h : layerBlob P l = .ok blob) :
    ∃ type colors, layerType l.current_layer_type = some type ∧ layerColors l = .ok colors ∧
      blob.length = 11 + 5 * colors.length + type.trailerLength := by
  obtain ⟨header, trailer, colors, hheader, htrailer, hcolors, -, -, rfl⟩ := layerBlob_eq_ok.mp h
  obtain ⟨type, htype, htrailer⟩ := layerTrailer_eq_ok.mp htrailer
  refine ⟨type, colors, htype, hcolors, ?_⟩
  rw [List.length_append, List.length_append, List.length_append, length_flatten_mix,
    hasLength_layerHeader l header hheader, hasLength_trailer l type trailer htrailer]
  rfl

/-- The most colours of a layer that one byte can announce. -/
def LayerType.maxColors : LayerType → ℕ
  | .gradient => 45
  | .solid => 46
  | .blink => 46

/-- A layer of a known type has no more colours than its length byte can announce. -/
def LayerFits (l : DpPresetLayer) : Prop :=
  ∀ type colors, layerType l.current_layer_type = some type → layerColors l = .ok colors →
    colors.length ≤ type.maxColors

theorem layerFits_iff {type : LayerType} {colors : List (List Char)}
    (htype : layerType l.current_layer_type = some type) (hcolors : layerColors l = .ok colors) :
    LayerFits l ↔ colors.length ≤ type.maxColors := by
  constructor
  · intro hfits
    exact hfits type colors htype hcolors
  · intro hle type' colors' htype' hcolors'
    cases htype.symm.trans htype'
    cases hcolors.symm.trans hcolors'
    exact hle

theorem length_layerBlob_le_iff {blob : Buffer} (h : layerBlob P l = .ok blob) :
    blob.length ≤ 255 ↔ LayerFits l := by
  obtain ⟨type, colors, htype, hcolors, hlen⟩ := length_layerBlob h
  rw [layerFits_iff htype hcolors, hlen]
  cases type <;> simp only [LayerType.trailerLength, LayerType.maxColors] <;> omega

end DpPreset

end EufySdk
