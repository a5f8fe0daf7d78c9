import Mathlib.Tactic
import EufySdk.Model.Capabilities.Members

/-!
# Device families

The predicates of `model/device-family.ts` on the vendor's device type, as far as the modelled
capabilities ask them. An unknown type is in no family.
-/

namespace EufySdk.Capabilities

namespace DeviceType

def STATION : ℕ := 0
def HB3 : ℕ := 18
def MINIBASE_CHIME : ℕ := 25
def HOMEBASE_MINI : ℕ := 28
def INDOOR_CAMERA : ℕ := 30
def INDOOR_PT_CAMERA : ℕ := 31
def INDOOR_CAMERA_1080 : ℕ := 34
def INDOOR_PT_CAMERA_1080 : ℕ := 35
def FLOODLIGHT_CAMERA_8422 : ℕ := 37
def FLOODLIGHT_CAMERA_8424 : ℕ := 39
def INDOOR_OUTDOOR_CAMERA_1080P_NO_LIGHT : ℕ := 44
def INDOOR_OUTDOOR_CAMERA_2K : ℕ := 45
def INDOOR_OUTDOOR_CAMERA_1080P : ℕ := 46
def INDOOR_COST_DOWN_CAMERA : ℕ := 100
def INDOOR_PT_CAMERA_S350 : ℕ := 104
def INDOOR_PT_CAMERA_E30 : ℕ := 105
def INDOOR_PT_CAMERA_C220 : ℕ := 10008
def INDOOR_PT_CAMERA_C210 : ℕ := 10009
def INDOOR_PT_CAMERA_C220_V2 : ℕ := 10010

end DeviceType

def INDOOR_CAMERA_TYPES : List ℕ :=
  [DeviceType.INDOOR_CAMERA, DeviceType.INDOOR_CAMERA_1080, DeviceType.INDOOR_PT_CAMERA,
    DeviceType.INDOOR_PT_CAMERA_1080, DeviceType.INDOOR_OUTDOOR_CAMERA_1080P,
    DeviceType.INDOOR_OUTDOOR_CAMERA_1080P_NO_LIGHT, DeviceType.INDOOR_OUTDOOR_CAMERA_2K,
    DeviceType.INDOOR_COST_DOWN_CAMERA, DeviceType.INDOOR_PT_CAMERA_S350,
    DeviceType.INDOOR_PT_CAMERA_E30, DeviceType.INDOOR_PT_CAMERA_C210,
    DeviceType.INDOOR_PT_CAMERA_C220, DeviceType.INDOOR_PT_CAMERA_C220_V2]

def INDOOR_PT_S350_TYPES : List ℕ :=
  [DeviceType.INDOOR_PT_CAMERA_S350, DeviceType.INDOOR_PT_CAMERA_E30,
    DeviceType.INDOOR_PT_CAMERA_C210, DeviceType.INDOOR_PT_CAMERA_C220,
    DeviceType.INDOOR_PT_CAMERA_C220_V2]

def HOMEBASE_TYPES : List ℕ :=
  [DeviceType.STATION, DeviceType.HB3, DeviceType.MINIBASE_CHIME, DeviceType.HOMEBASE_MINI]

variable (ctx : CommandContext)

def isIndoorCamera : Bool := ctx.deviceType.any (· ∈ INDOOR_CAMERA_TYPES)

def isIndoorCamMini : Bool := ctx.deviceType = some DeviceType.INDOOR_COST_DOWN_CAMERA

def isIndoorPanTiltS350 : Bool := ctx.deviceType.any (· ∈ INDOOR_PT_S350_TYPES)

def isHomeBase : Bool := ctx.deviceType.any (· ∈ HOMEBASE_TYPES)

def isAiotVacuum : Bool := ctx.category ≠ some "eufy_home_tuya"

/-- The original indoor pan and tilt family. -/
def isPlainIndoorPanTilt : Bool :=
  ctx.deviceType = some DeviceType.INDOOR_PT_CAMERA ||
    ctx.deviceType = some DeviceType.INDOOR_PT_CAMERA_1080

end EufySdk.Capabilities
