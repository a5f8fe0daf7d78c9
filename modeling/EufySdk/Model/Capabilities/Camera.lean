import Mathlib.Tactic
import EufySdk.Model.DeviceFamily

/-!
# `camera`

The value members of `model/capabilities/camera.ts`: power, picture, sound detection, night vision,
quality and the switches beside them, each with the frame its write sends.

- `isEnableBitPolarity`, `powerValue` — the family's polarity of the power param
- `enablementReflection` — where a power write will show, and as what
- `CAMERA_MEMBERS`
-/

namespace EufySdk.Capabilities.Camera

namespace CAMERA_CMD

def CAMERA_ENABLE : ℕ := 1035
def DEV_LED_SWITCH : ℕ := 1045
def ROTATE_IMAGE : ℕ := 1207
def SET_DEVS_OSD : ℕ := 1214
def DOORBELL_LED : ℕ := 1716
def NIGHT_VISION_TYPE : ℕ := 1277
def IRCUT_SWITCH : ℕ := 1013
def PUSH_NOTIFY_TYPE : ℕ := 6020
def SOUND_DETECTION : ℕ := 6043
def SOUND_DETECTION_SENSITIVITY : ℕ := 6044
def SOUND_DETECTION_TYPE : ℕ := 6046
def EAS_SWITCH : ℕ := 1015
def RECORDING_QUALITY_SET : ℕ := 2731
def RECORDING_QUALITY_INDOOR_PT_READ : ℕ := 2034
def RECORDING_QUALITY_INDOOR_PT_SET : ℕ := 1023

end CAMERA_CMD

def Watermark : List (String × ℕ) := [("Off", 0), ("Timestamp", 1), ("TimestampAndLogo", 2)]

def T8410_WATERMARK_LABELS : EnumValues := [(0, "Timestamp"), (1, "Timestamp + Logo"), (2, "Off")]

def NotificationStyle : List (String × ℕ) :=
  [("TextOnly", 1), ("IncludedThumbnail", 2), ("TextFirstThenThumbnail", 3)]

def SoundDetectionType : List (String × ℕ) := [("Crying", 1), ("AllSound", 2)]

def NightVision : List (String × ℕ) := [("Off", 0), ("Infrared", 1), ("FullColor", 2)]

def RECORDING_QUALITY_TIERS : EnumValues := [(1, "HD (720P)"), (2, "Full HD (1080P)"), (3, "Max")]

def STREAMING_QUALITY_TIERS : EnumValues := (0, "Auto") :: RECORDING_QUALITY_TIERS

section Quality

variable (P : Platform)

def resolveRecordingQualityValue (name : String) : Option ℕ :=
  (RECORDING_QUALITY_TIERS.find? fun e => sameLabel e.2 name).map Prod.fst

/-- The tier that a resolution name or a raw tier stands for. -/
def resolveRecordingQualityTier (value : Scalar) : Option ℕ :=
  let tier (n : JsNumber) :=
    match n with
    | .finite q => (RECORDING_QUALITY_TIERS.map Prod.fst).find? fun t => (t : ℚ) = q
    | _ => none
  match value with
  | .bool _ => none
  | .str s =>
    if allDigits (trim s) then tier (P.toNumber s) else resolveRecordingQualityValue s
  | .num n => tier n

end Quality

/-! ### Power -/

section Power

variable (on : Bool) (ctx : CommandContext)

def ENABLE_BIT_FLOODLIGHT_TYPES : List ℕ :=
  [DeviceType.FLOODLIGHT_CAMERA_8422, DeviceType.FLOODLIGHT_CAMERA_8424]

/-- Whether the power param is an enable bit on this device, not a disable bit. -/
def isEnableBitPolarity : Bool :=
  match ctx.deviceType with
  | none => false
  | some t =>
    if isIndoorCamera ctx && !isIndoorCamMini ctx && !isIndoorPanTiltS350 ctx then true
    else t ∈ ENABLE_BIT_FLOODLIGHT_TYPES

/-- The raw value of the power param for a power state. -/
def powerValue : ℕ :=
  if isEnableBitPolarity ctx then (if on then 1 else 0) else if on then 0 else 1

def powerCommand : Command :=
  setScalar CAMERA_CMD.CAMERA_ENABLE (.finite (powerValue on ctx)) ctx .auto

/-- The alias that a standalone camera reports its power under. -/
def OPEN_DEVICE : ℕ := 2001

/-- The param a power write will be reflected under on this device and the raw value to expect there:
the alias where the device reports it, else the param that is written. -/
def enablementReflection : Option Reflection :=
  if OPEN_DEVICE ∈ ctx.paramIds then
    some ⟨OPEN_DEVICE, .scalar (.bool on), some (.bool on)⟩
  else if CAMERA_CMD.CAMERA_ENABLE ∈ ctx.paramIds then
    some ⟨CAMERA_CMD.CAMERA_ENABLE, .nat (powerValue on ctx), some (.bool on)⟩
  else none

end Power

/-! ### The table -/

section Table

variable (P : Platform)

/-- `asBool(v) ? 1 : 0`. -/
def bit (v : Scalar) : ℕ := if asBool v then 1 else 0

def enabled : ValueMember where
  param := some CAMERA_CMD.CAMERA_ENABLE
  type := .bool
  invert := some true
  readAliases := [{ paramType := OPEN_DEVICE, invert := some false }]
  observation := some
    { event := "cameraEnabledChanged"
      reflects := fun value ctx => enablementReflection (asBool value) ctx
      timeoutMs := 20000 }
  write := some fun v ctx => .ok (some (powerCommand (asBool v) ctx))

def imageFlipped : ValueMember where
  param := some CAMERA_CMD.ROTATE_IMAGE
  type := .bool
  write := some fun v ctx =>
    .ok (some (setScalar CAMERA_CMD.ROTATE_IMAGE (.finite (bit v)) ctx .auto))

def watermark : ValueMember where
  param := some CAMERA_CMD.SET_DEVS_OSD
  type := .enum
  enumValues := some [(0, "Off"), (1, "Timestamp"), (2, "Timestamp + Logo")]
  enumValuesFor := fun ctx =>
    if ctx.model.map String.toUpper = some "T8410" then some T8410_WATERMARK_LABELS else none
  write := some fun v ctx => .ok ((P.coerceEnumValue Watermark v).map fun w : ℕ =>
    setScalar CAMERA_CMD.SET_DEVS_OSD (.finite w) ctx .auto)

def soundDetection : ValueMember where
  param := some CAMERA_CMD.SOUND_DETECTION
  type := .bool
  write := some fun v ctx =>
    .ok (some (setJson CAMERA_CMD.SOUND_DETECTION [("status", .nat (bit v))] ctx))

def soundDetectionSensitivity : ValueMember where
  param := some CAMERA_CMD.SOUND_DETECTION_SENSITIVITY
  type := .number
  write := some fun v ctx =>
    match P.numberOf v with
    | .finite n =>
      if n.den ≠ 1 || n < 1 || n > 5 then .ok none
      else
        .ok (some (setJson CAMERA_CMD.SOUND_DETECTION_SENSITIVITY [("index", .num (.finite n))] ctx))
    | _ => .ok none

def soundDetectionType : ValueMember where
  param := some CAMERA_CMD.SOUND_DETECTION_TYPE
  type := .enum
  enumValues := some [(1, "Crying"), (2, "All Sound")]
  write := some fun v ctx => .ok ((P.coerceEnumValue SoundDetectionType v).map fun type =>
    setJson CAMERA_CMD.SOUND_DETECTION_TYPE [("type", .nat type)] ctx)

def notificationStyle : ValueMember where
  param := some CAMERA_CMD.PUSH_NOTIFY_TYPE
  type := .enum
  enumValues := some [(1, "Text Only"), (2, "Included Thumbnail"), (3, "Text First, Then Thumbnail")]
  write := some fun v ctx => .ok ((P.coerceEnumValue NotificationStyle v).map fun style =>
    setJson CAMERA_CMD.PUSH_NOTIFY_TYPE
      [("value", .nat style), ("transaction", .scalar (.str (toString P.now)))] ctx)

def nightVision : ValueMember where
  param := some CAMERA_CMD.NIGHT_VISION_TYPE
  type := .enum
  enumValues := some [(0, "Off"), (1, "Infrared"), (2, "Full Color")]
  available := fun ctx => !isPlainIndoorPanTilt ctx
  write := some fun v ctx => .ok ((P.coerceEnumValue NightVision v).map fun nv =>
    setPayload CAMERA_CMD.NIGHT_VISION_TYPE
      [("channel", .nat ctx.channel), ("night_sion", .nat nv)] ctx (some 0) (some 0) none)

def autoNightVision : ValueMember where
  param := some CAMERA_CMD.IRCUT_SWITCH
  type := .bool
  available := isPlainIndoorPanTilt
  write := some fun v ctx =>
    if isPlainIndoorPanTilt ctx then
      .ok (some (setScalar CAMERA_CMD.IRCUT_SWITCH (.finite (bit v)) ctx .intString))
    else
      .error ("camera: autoNightVision write wire is only known for the plain indoor pan-tilt " ++
        "family [" ++ describeDevice ctx ++ "]")

def streamingQuality : ValueMember where
  param := some 1020
  type := .number
  enumValues := some STREAMING_QUALITY_TIERS
  unverified := true

def recordingQuality : ValueMember where
  param := some CAMERA_CMD.RECORDING_QUALITY_SET
  type := .string
  readAvailable := fun ctx => !isPlainIndoorPanTilt ctx
  readAliases :=
    [{ paramType := CAMERA_CMD.RECORDING_QUALITY_INDOOR_PT_READ, available := isPlainIndoorPanTilt }]
  decode := true
  decodedValues := some (RECORDING_QUALITY_TIERS.map fun e => .num (.finite e.1))
  enumValues := some RECORDING_QUALITY_TIERS
  write := some fun v ctx => .ok ((resolveRecordingQualityTier P v).map fun q =>
    if isPlainIndoorPanTilt ctx then
      setJson CAMERA_CMD.RECORDING_QUALITY_INDOOR_PT_SET [("quality", .nat q)] ctx
    else
      setPayload CAMERA_CMD.RECORDING_QUALITY_SET
        [("channel", .nat 0), ("mode", .nat 0), ("primary_view", .nat 0), ("quality", .nat q)] ctx
        (some 0) none none)

def antiTheftDetection : ValueMember where
  param := some CAMERA_CMD.EAS_SWITCH
  type := .bool
  available := fun ctx => !isPlainIndoorPanTilt ctx
  write := some fun v ctx =>
    .ok (some (setScalar CAMERA_CMD.EAS_SWITCH (.finite (bit v)) ctx .auto))

def privacy : ValueMember where
  type := .bool
  writeOnly := true
  write := some fun v ctx => .ok (some (.privacyBurst (asBool v) ctx.channel))

def statusLedCommand (on : Bool) (ctx : CommandContext) : Command :=
  let value := if on then 1 else 0
  if hasCapability ctx .doorbell then
    setPayload CAMERA_CMD.DOORBELL_LED [("light_enable", .nat value)] ctx none none none
  else setScalar CAMERA_CMD.DEV_LED_SWITCH (.finite value) ctx .intString

def statusLed : ValueMember where
  param := some CAMERA_CMD.DEV_LED_SWITCH
  type := .bool
  readAvailable := fun ctx => !hasCapability ctx .doorbell
  readAliases :=
    [{ paramType := CAMERA_CMD.DOORBELL_LED, available := fun ctx => hasCapability ctx .doorbell }]
  write := some fun v ctx => .ok (some (statusLedCommand (asBool v) ctx))

def CAMERA_MEMBERS : Members :=
  [("enabled", enabled), ("imageFlipped", imageFlipped), ("watermark", watermark P),
    ("soundDetection", soundDetection),
    ("soundDetectionSensitivity", soundDetectionSensitivity P),
    ("soundDetectionType", soundDetectionType P), ("notificationStyle", notificationStyle P),
    ("nightVision", nightVision P), ("autoNightVision", autoNightVision),
    ("streamingQuality", streamingQuality), ("recordingQuality", recordingQuality P),
    ("antiTheftDetection", antiTheftDetection), ("privacy", privacy), ("statusLed", statusLed)]

end Table

end EufySdk.Capabilities.Camera
