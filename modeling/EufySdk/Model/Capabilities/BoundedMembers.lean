import Mathlib.Tactic
import EufySdk.Model.DeviceFamily

/-!
# Members with a declared domain

The value members outside the camera and the guard mode that declare bounds or options and have a
write, from the tables under `model/capabilities`: each with the conversion and the frame of its own.
-/

namespace EufySdk.Capabilities

variable (P : Platform)

/-! ### `audio` -/

namespace Audio

namespace AUDIO_CMD

def SPEAKER_VOLUME : ℕ := 1230
def DOORBELL_RINGTONE_VOLUME : ℕ := 1708
def HUB_PROMPT_VOLUME : ℕ := 1292

end AUDIO_CMD

def audioCommand (param : ℕ) (value : JsNumber) (ctx : CommandContext) : Command :=
  setScalar param value ctx .directBinary

def volume : ValueMember where
  param := some AUDIO_CMD.SPEAKER_VOLUME
  property := some "speakerVolume"
  type := .number
  available := fun ctx => ctx.codec = .camera
  min := some 0
  max := some 100
  write := some fun v ctx => .ok (some (audioCommand AUDIO_CMD.SPEAKER_VOLUME (P.numberOf v) ctx))

def ringtoneVolume : ValueMember where
  param := some AUDIO_CMD.DOORBELL_RINGTONE_VOLUME
  type := .number
  writeOnly := true
  available := fun ctx => hasCapability ctx .doorbell
  min := some 0
  max := some 100
  write := some fun v ctx =>
    .ok (some (audioCommand AUDIO_CMD.DOORBELL_RINGTONE_VOLUME (P.numberOf v) ctx))

def promptVolume : ValueMember where
  param := some AUDIO_CMD.HUB_PROMPT_VOLUME
  type := .number
  writeOnly := true
  available := isHomeBase
  min := some 0
  max := some 100
  write := some fun v ctx =>
    .ok (some (setPayload AUDIO_CMD.HUB_PROMPT_VOLUME [("value", .num (P.numberOf v))] ctx none none
      none))

end Audio

/-! ### `battery` -/

namespace Battery

namespace BATTERY_PARAM

def POWER_CHARGE : ℕ := 1293
def WORKING_MODE : ℕ := 1246
def RECORD_DURATION : ℕ := 1249
def RECORD_INTERVAL : ℕ := 1250

end BATTERY_PARAM

def DEFAULT_WORKING_MODES : EnumValues :=
  [(0, "Optimal Battery Life"), (1, "Optimal Surveillance"), (2, "Customize Recording")]

/-- The models with working modes of their own. -/
def WORKING_MODE_MAPS : List (String × EnumValues) :=
  [("T8214", [(0, "Balance Surveillance"), (1, "Optimal Surveillance"), (2, "Customize Recording"),
    (3, "Optimal Battery Life")])]

def WORKING_MODE_DEFAULT_MODELS : List String := ["T8114", "T8124", "T8170", "T8171"]

/-- `model.toUpperCase().startsWith(code)`. -/
def isModel (model : Option String) (code : String) : Bool :=
  code.toList.isPrefixOf (model.getD "").toUpper.toList

def workingModeMap (model : Option String) : EnumValues :=
  ((WORKING_MODE_MAPS.find? fun e => isModel model e.1).map Prod.snd).getD DEFAULT_WORKING_MODES

/-- The working modes to publish for a device; none for a model whose modes are not confirmed. -/
def publishedWorkingModeDomain (ctx : CommandContext) : Option EnumValues :=
  match WORKING_MODE_MAPS.find? fun e => isModel ctx.model e.1 with
  | some (_, modes) => some modes
  | none =>
    if WORKING_MODE_DEFAULT_MODELS.any (isModel ctx.model) then some DEFAULT_WORKING_MODES else none

def resolveWorkingModeValue (model : Option String) (name : String) : Option ℕ :=
  ((workingModeMap model).find? fun e => sameLabel e.2 name).map Prod.fst

def recordSetting (param : ℕ) (value : JsNumber) (ctx : CommandContext) : Command :=
  .stationScalar param value ctx.channel

def powerSource : ValueMember where
  param := some BATTERY_PARAM.POWER_CHARGE
  type := .enum
  enumValues := some [(0, "Battery"), (1, "External Solar Panel")]
  write := some fun v ctx => .ok (some (setPayload BATTERY_PARAM.POWER_CHARGE
    [("charge_mode", .nat (if v = .str "external" then 1 else if v = .str "battery" then 0
      else if asBool v then 1 else 0))] ctx (some 0) none none))

/-- Whether a value is taken for a mode's name. -/
def isModeName : Scalar → Bool
  | .str s => !allDigits (trim s)
  | _ => false

/-- The mode a write asks for: by its name, or by its index as a number. -/
def modeOf (v : Scalar) (ctx : CommandContext) : Option JsNumber :=
  match v with
  | .str s =>
    if allDigits (trim s) then some (P.toNumber s)
    else (resolveWorkingModeValue ctx.model s).map fun n : ℕ => .finite n
  | v => some (P.numberOf v)

def workingMode : ValueMember where
  param := some BATTERY_PARAM.WORKING_MODE
  type := .number
  enumValuesFor := publishedWorkingModeDomain
  min := some 0
  write := some fun v ctx =>
    match modeOf P v ctx with
    | none | some .nan => .ok none
    | some mode => .ok (some (setScalar BATTERY_PARAM.WORKING_MODE mode ctx .directBinary))

def recordDuration : ValueMember where
  param := some BATTERY_PARAM.RECORD_DURATION
  type := .number
  min := some 0
  write := some fun v ctx =>
    .ok (some (recordSetting BATTERY_PARAM.RECORD_DURATION (P.numberOf v) ctx))

def recordInterval : ValueMember where
  param := some BATTERY_PARAM.RECORD_INTERVAL
  type := .number
  min := some 0
  write := some fun v ctx =>
    .ok (some (recordSetting BATTERY_PARAM.RECORD_INTERVAL (P.numberOf v) ctx))

end Battery

/-! ### `contact` -/

namespace Contact

namespace CONTACT_CMD

def ALARM_SOUND_TYPE : ℕ := 1507
def ALARM_VOLUME : ℕ := 1508

end CONTACT_CMD

def EntryAlarmTone : List (String × ℕ) :=
  [("None", 0), ("Water", 1), ("Classic", 2), ("Light", 3), ("Ding", 4)]

def ALARM_VOLUME_MIN : ℚ := 1
def ALARM_VOLUME_MAX : ℚ := 26

def alarmSoundType : ValueMember where
  param := some CONTACT_CMD.ALARM_SOUND_TYPE
  type := .enum
  enumValues := some (enumLabels EntryAlarmTone)
  write := some fun v ctx => .ok ((P.coerceEnumValue EntryAlarmTone v).map fun tone : ℕ =>
    setScalar CONTACT_CMD.ALARM_SOUND_TYPE (.finite tone) ctx .auto)

def alarmVolume : ValueMember where
  param := some CONTACT_CMD.ALARM_VOLUME
  type := .number
  min := some ALARM_VOLUME_MIN
  max := some ALARM_VOLUME_MAX
  write := some fun v ctx =>
    match P.numberOf v with
    | .finite level =>
      if level.den = 1 ∧ ALARM_VOLUME_MIN ≤ level ∧ level ≤ ALARM_VOLUME_MAX then
        .ok (some (setPayload CONTACT_CMD.ALARM_VOLUME
          [("channel", .nat ctx.channel), ("volume", .num (.finite level)),
            ("transaction", .scalar (.str (toString P.now)))] ctx (some 0) none none))
      else .ok none
    | _ => .ok none

end Contact

/-! ### `doorbell` -/

namespace Doorbell

namespace DOORBELL_CMD

def DINGDONG_VOLUME : ℕ := 1717
def DINGDONG_RINGTONE : ℕ := 1718

end DOORBELL_CMD

def DoorbellRingtone : List (String × ℕ) :=
  [("Default", 0), ("Silent", 1), ("Beacon", 2), ("Chord", 3), ("Christmas", 4), ("Circuit", 5),
    ("Clock", 6), ("Ding", 7), ("Hillside", 8), ("Presto", 9)]

def dingdongVolume : ValueMember where
  param := some DOORBELL_CMD.DINGDONG_VOLUME
  type := .number
  min := some 0
  max := some 100
  write := some fun v ctx => .ok (some (setPayload DOORBELL_CMD.DINGDONG_VOLUME
    [("dingdong_volume", .num (P.numberOf v))] ctx (some 0) none none))

def dingdongRingtone : ValueMember where
  param := some DOORBELL_CMD.DINGDONG_RINGTONE
  type := .number
  enumValues := some (enumLabels DoorbellRingtone)
  write := some fun v ctx => .ok ((P.coerceEnumValue DoorbellRingtone v).map fun tone =>
    setPayload DOORBELL_CMD.DINGDONG_RINGTONE [("dingdong_ringtone", .nat tone)] ctx (some 0) none
      none)

end Doorbell

/-! ### `light` -/

namespace Light

namespace LIGHT_CMD

def SPOTLIGHT_BRIGHTNESS : ℕ := 1401
def SPOTLIGHT_COLOR_TEMP : ℕ := 1410

end LIGHT_CMD

def BRIGHTNESS_MIN : ℚ := 1
def BRIGHTNESS_MAX : ℚ := 100

def directBinary (param : ℕ) (value : JsNumber) (ctx : CommandContext) : Command :=
  setScalar param value ctx .directBinary

def brightness : ValueMember where
  param := some LIGHT_CMD.SPOTLIGHT_BRIGHTNESS
  type := .number
  min := some BRIGHTNESS_MIN
  max := some BRIGHTNESS_MAX
  write := some fun v ctx =>
    .ok (some (directBinary LIGHT_CMD.SPOTLIGHT_BRIGHTNESS (P.numberOf v) ctx))

def colorTemp : ValueMember where
  param := some LIGHT_CMD.SPOTLIGHT_COLOR_TEMP
  type := .number
  writeOnly := true
  min := some 0
  max := some 100
  write := some fun v ctx =>
    .ok (some (directBinary LIGHT_CMD.SPOTLIGHT_COLOR_TEMP (P.numberOf v) ctx))

end Light

/-! ### `motion` -/

namespace Motion

namespace MOTION_CMD

def AI_DETECT_TYPE : ℕ := 1298
def INDOOR_MOTION_DETECT_TYPE : ℕ := 6045
def SNOOZE_TIME : ℕ := 1271

end MOTION_CMD

def INDOOR_MOTION_DETECTION_TYPES : EnumValues :=
  [(1, "Person"), (2, "Pet"), (3, "Person and Pet"), (4, "All other motions"),
    (5, "Person and all other motions"), (6, "Pet and all other motions"),
    (7, "Person, Pet and all other motions")]

/-- A write that is verified on cameras only throws on a sensor. -/
def requireCamera (action : String) (ctx : CommandContext) : Except String Unit :=
  if ctx.codec = .sensor then
    .error ("motion: " ++ action ++ " write wire is verified only on a camera, not this device [" ++
      describeDevice ctx ++ "]")
  else .ok ()

def aiDetectType : ValueMember where
  param := some MOTION_CMD.AI_DETECT_TYPE
  type := .number
  readAvailable := fun ctx => !isPlainIndoorPanTilt ctx
  readAliases :=
    [{ paramType := MOTION_CMD.INDOOR_MOTION_DETECT_TYPE, available := isPlainIndoorPanTilt }]
  enumValuesFor := fun ctx =>
    if isPlainIndoorPanTilt ctx then some INDOOR_MOTION_DETECTION_TYPES else none
  write := some fun v ctx => do
    requireCamera "aiDetectType" ctx
    match P.numberOf v with
    | .finite n =>
      if n.den ≠ 1 || n < 0 then .ok none
      else if isPlainIndoorPanTilt ctx then
        if n < 1 || n > 7 then .ok none
        else
          .ok (some (setJson MOTION_CMD.INDOOR_MOTION_DETECT_TYPE [("type", .num (.finite n))] ctx))
      else
        .ok (some (setPayload MOTION_CMD.AI_DETECT_TYPE
          [("ai_detect_type", .num (.finite n)), ("channel", .nat ctx.channel)] ctx (some 0) (some 0)
          none))
    | _ => .ok none

def snoozePayload (seconds : ℚ) : List (String × FrameValue) :=
  if seconds ≤ 0 then [("snooze_time", .nat 0)]
  else
    [("snooze_time", .num (.finite (JsNumber.round seconds))), ("startTime", .nat (P.now / 1000)),
      ("chime_onoff", .nat 0), ("homebase_onoff", .nat 0), ("motion_notify_onoff", .nat 1)]

def snoozeCommand (value : Scalar) (ctx : CommandContext) : Option Command :=
  match P.numberOf value with
  | .finite v =>
    if 0 ≤ v then some (setJsonRaw MOTION_CMD.SNOOZE_TIME (snoozePayload P v) ctx) else none
  | _ => none

def snoozeTime : ValueMember where
  param := some MOTION_CMD.SNOOZE_TIME
  type := .string
  min := some 0
  decode := true
  write := some fun v ctx => do
    requireCamera "snoozeTime" ctx
    .ok (snoozeCommand P v ctx)

end Motion

/-! ### `siren` -/

namespace Siren

namespace SIREN_PARAM

def ALARM_VOLUME : ℕ := 1825
def ALARM_TIMEOUT : ℕ := 61006

end SIREN_PARAM

namespace SIREN_CMD

def HUB_SPK_VOLUME : ℕ := 1235
def HUB_ALARM_TONE : ℕ := 1281

end SIREN_CMD

def STATION_CHANNEL : ℕ := 255

def SirenVolume : List (String × ℕ) := [("Low", 1), ("Mid", 2), ("High", 3)]

def SirenAlarmDuration : List (String × ℕ) :=
  [("Min1", 60), ("Min5", 300), ("Min10", 600), ("Min15", 900)]

def HubAlarmTone : List (String × ℕ) := [("Tone1", 1), ("Tone2", 2)]

def isSensorCodec (ctx : CommandContext) : Bool := ctx.codec = .sensor

def sirenPayload (cmd : ℕ) (body : List (String × FrameValue)) (ctx : CommandContext) : Command :=
  setPayload cmd (body ++ [("transaction", .scalar (.str (toString P.now)))]) ctx (some 0) none none

def volume : ValueMember where
  param := some SIREN_PARAM.ALARM_VOLUME
  property := some "sirenVolume"
  type := .number
  available := isSensorCodec
  enumValues := some (enumLabels SirenVolume)
  write := some fun v ctx => .ok ((P.coerceEnumValue SirenVolume v).map fun level =>
    sirenPayload P SIREN_PARAM.ALARM_VOLUME [("volume", .nat level)] ctx)

def alarmDuration : ValueMember where
  param := some SIREN_PARAM.ALARM_TIMEOUT
  type := .number
  available := isSensorCodec
  enumValues := some (enumLabels SirenAlarmDuration)
  write := some fun v ctx => .ok ((P.coerceEnumValue SirenAlarmDuration v).map fun seconds =>
    sirenPayload P SIREN_PARAM.ALARM_TIMEOUT [("value", .nat seconds)] ctx)

def alarmVolume : ValueMember where
  param := some SIREN_CMD.HUB_SPK_VOLUME
  type := .number
  writeOnly := true
  available := isHomeBase
  min := some 0
  max := some 100
  write := some fun v _ =>
    .ok (some (.stationScalar SIREN_CMD.HUB_SPK_VOLUME (P.numberOf v) STATION_CHANNEL))

def alarmTone : ValueMember where
  param := some SIREN_CMD.HUB_ALARM_TONE
  property := some "hubAlarmTone"
  type := .number
  available := isHomeBase
  enumValues := some (enumLabels HubAlarmTone)
  write := some fun v ctx => .ok ((P.coerceEnumValue HubAlarmTone v).map fun tone =>
    setPayload SIREN_CMD.HUB_ALARM_TONE [("type", .nat tone)] ctx (some 0) none none)

end Siren

/-! ### `smart_light` -/

namespace SmartLight

def LIGHT_MQTT_CMD : ℕ := 17
def SET_DEVICE_INFO : ℕ := 0x0201
def BRIGHTNESS : ℕ := 162

namespace WRITE_TAG

def IS_ON : ℕ := 0xa3
def LEVEL : ℕ := 0xa4

end WRITE_TAG

def BRIGHTNESS_MIN : ℤ := 0
def BRIGHTNESS_MAX : ℤ := 100

def deviceInfoCommand (isOn : Option Bool) (level : Option JsNumber) : Command :=
  let power := isOn.toList.map fun on => (WRITE_TAG.IS_ON, [if on then 1 else 0])
  let brightness := level.toList.map fun level =>
    (WRITE_TAG.LEVEL, [(level.clamp BRIGHTNESS_MIN BRIGHTNESS_MAX).toNat % 256])
  .mqttDp LIGHT_MQTT_CMD SET_DEVICE_INFO (power ++ brightness)

def brightness : ValueMember where
  param := some BRIGHTNESS
  property := some "lightBrightness"
  type := .number
  realtime := true
  min := some BRIGHTNESS_MIN
  max := some BRIGHTNESS_MAX
  write := some fun v _ => .ok (some (deviceInfoCommand none (some (P.numberOf v))))

end SmartLight

/-! ### `suction` -/

namespace Suction

def SUCTION : ℕ := 158

def SuctionLevel : List (String × ℕ) :=
  [("Quiet", 0), ("Standard", 1), ("Turbo", 2), ("Max", 3), ("BoostIQ", 4), ("MaxPro", 5)]

def ALL_SUCTION_LEVELS : List ℕ := [0, 1, 2, 3, 4, 5]

def level : ValueMember where
  param := some SUCTION
  property := some "suction"
  type := .number
  enumValues := some (enumLabels SuctionLevel)
  decode := true
  decodedValues := some (ALL_SUCTION_LEVELS.map fun n : ℕ => .num (.finite n))
  available := isAiotVacuum
  write := some fun v _ => .ok (some (.aiotDp SUCTION v))

end Suction

end EufySdk.Capabilities
