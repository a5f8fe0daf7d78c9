import Mathlib.Tactic
import EufySdk.Model.Capabilities.Arming
import EufySdk.Model.Capabilities.BoundedMembers
import EufySdk.Model.Capabilities.Camera

/-!
# Is a declared domain enforced?

The members that declare bounds or options and have a write, and whether what `memberWrite` puts on
the wire keeps to them. The domain judges values of the stored type only, and the member's own
conversion then decides: most check again, some take whatever `Number` makes of the value.

- `ValueMember.Allows` — the wire values that a declaration allows
- `boundedMembers` — the members, each with how it converts a value
- `Enforced`, `Loose` — no command carries a value outside; the inputs that slip through
- `enforced_iff` — there are no others
-/

namespace EufySdk.Capabilities

/-- The value that a command carries: its own, or in a payload that of the first field among the
keys. -/
def Command.wireValue (keys : List String) : Command → Option FrameValue
  | setParam _ value _ _ | stationScalar _ value _ => some (.num value)
  | setJson _ data _ | setJsonRaw _ data _ | setPayload _ data _ _ _ =>
    (data.find? fun e => keys.contains e.1).map Prod.snd
  | mqttDp _ _ fields => fields.head?.bind fun field => field.2.head?.map fun byte => .nat byte
  | aiotDp _ value => some (.scalar value)
  | privacyBurst _ _ => none

namespace ValueMember

variable (m : ValueMember) (ctx : CommandContext)

/-- The options that a member publishes for a device. -/
def publishedDomain : Option (List Scalar) :=
  m.argValues.or (m.decodedValues.or ((m.resolvedEnum (some ctx)).1.map fun values =>
    values.map fun e => .num (.finite e.1)))

/-- A number within the bounds and, where options are published, one of them. -/
structure Allows (n : JsNumber) : Prop where
  ne_nan : n ≠ .nan
  min : m.belowMin (.num n) = false
  max : m.aboveMax (.num n) = false
  option : ∀ options, m.publishedDomain ctx = some options → Scalar.num n ∈ options

variable {m}

/-- A member whose write has no options judges by its bounds alone. -/
theorem inDomain_eq_bounds (htype : m.type ≠ .bool) (hoptions : m.writeDomain = none) (v : Scalar) :
    m.inDomain v = (!m.belowMin v && !m.aboveMax v) := by
  rw [inDomain.eq_def]
  cases hkind : m.type with
  | bool => exact absurd hkind htype
  | _ => cases m.belowMin v <;> cases m.aboveMax v <;> simp [hoptions]

/-- A number that is not refused is a wire value of such a member, unless it is NaN. -/
theorem allows_of_bounds (hpublished : m.publishedDomain ctx = none) {n : JsNumber} :
    m.Allows ctx n ↔ n ≠ .nan ∧ m.belowMin (.num n) = false ∧ m.aboveMax (.num n) = false := by
  constructor
  · exact fun h => ⟨h.ne_nan, h.min, h.max⟩
  · rintro ⟨hnan, hmin, hmax⟩
    exact ⟨hnan, hmin, hmax, by simp [hpublished]⟩

/-- A member without bounds allows its options. -/
theorem allows_of_mem (hmin : m.min = none) (hmax : m.max = none) {options : List Scalar}
    (hpublished : m.publishedDomain ctx = some options) {q : ℚ}
    (hq : Scalar.num (.finite q) ∈ options) : m.Allows ctx (.finite q) where
  ne_nan := by simp
  min := by simp [belowMin, hmin]
  max := by simp [aboveMax, hmax]
  option options' h := by
    obtain rfl := Option.some.inj (hpublished.symm.trans h)
    exact hq

end ValueMember

/-- How the write of a member takes what its domain lets through. -/
inductive Conversion
  /-- What it converts to is checked. -/
  | judged
  /-- `Number(v)`, unchecked. -/
  | number
  /-- `v as number`. -/
  | uncast
  /-- The name of a working mode, or an index that is checked to be a number. -/
  | modeIndex
  /-- A name that `ArmingMode` is found to have, or what `Number` makes a settable mode of. -/
  | guardMode
  deriving DecidableEq, Repr

/-- A member that declares bounds or options. The keys are those of the payload field that its value
is in; the words, where they are stated, are all it means to accept. -/
structure BoundedMember where
  name : String
  member : ValueMember
  conversion : Conversion := .judged
  keys : List String := []
  words : Option (List Scalar) := none

/-- The settable guard modes, by name and by wire integer. -/
def guardModeWords : List Scalar :=
  Arming.ArmingMode.map .str ++ Arming.SETTABLE_MODES.map (fun n : ℕ => .num (.finite n)) ++
    Arming.SETTABLE_MODES.map fun n => .str (toString n)

section Enforce

variable (P : Platform)

namespace BoundedMember

def mode : BoundedMember where
  name := "mode"
  member := Arming.mode P
  conversion := .guardMode
  keys := ["mode_type"]
  words := some guardModeWords

def powerSource : BoundedMember where
  name := "powerSource"
  member := Battery.powerSource
  keys := ["charge_mode"]

def workingMode : BoundedMember where
  name := "workingMode"
  member := Battery.workingMode P
  conversion := .modeIndex

def contactAlarmVolume : BoundedMember where
  name := "alarmVolume"
  member := Contact.alarmVolume P
  keys := ["volume"]

def aiDetectType : BoundedMember where
  name := "aiDetectType"
  member := Motion.aiDetectType P
  keys := ["type", "ai_detect_type"]

def snoozeTime : BoundedMember where
  name := "snoozeTime"
  member := Motion.snoozeTime P
  keys := ["snooze_time"]

def lightBrightness : BoundedMember where
  name := "brightness"
  member := SmartLight.brightness P

def suctionLevel : BoundedMember where
  name := "level"
  member := Suction.level
  conversion := .uncast

/-- A member whose write sends `Number(v)`. -/
def number (name : String) (member : ValueMember) (keys : List String) : BoundedMember :=
  { name, member, conversion := .number, keys }

/-- A member whose write sends one of its options. -/
def option (name : String) (member : ValueMember) (keys : List String) : BoundedMember :=
  { name, member, keys }

end BoundedMember

open BoundedMember in
/-- The bounded members of the capability tables that have a write. -/
def boundedMembers : List BoundedMember :=
  [mode P,
    number "volume" (Audio.volume P) [],
    number "ringtoneVolume" (Audio.ringtoneVolume P) [],
    number "promptVolume" (Audio.promptVolume P) ["value"],
    powerSource,
    workingMode P,
    number "recordDuration" (Battery.recordDuration P) [],
    number "recordInterval" (Battery.recordInterval P) [],
    option "watermark" (Camera.watermark P) [],
    option "soundDetectionType" (Camera.soundDetectionType P) ["type"],
    option "notificationStyle" (Camera.notificationStyle P) ["value"],
    option "nightVision" (Camera.nightVision P) ["night_sion"],
    option "recordingQuality" (Camera.recordingQuality P) ["quality"],
    option "alarmSoundType" (Contact.alarmSoundType P) [],
    contactAlarmVolume P,
    number "dingdongVolume" (Doorbell.dingdongVolume P) ["dingdong_volume"],
    option "dingdongRingtone" (Doorbell.dingdongRingtone P) ["dingdong_ringtone"],
    number "brightness" (Light.brightness P) [],
    number "colorTemp" (Light.colorTemp P) [],
    aiDetectType P,
    snoozeTime P,
    option "volume" (Siren.volume P) ["volume"],
    option "alarmDuration" (Siren.alarmDuration P) ["value"],
    number "alarmVolume" (Siren.alarmVolume P) [],
    option "alarmTone" (Siren.alarmTone P) ["type"],
    lightBrightness P,
    suctionLevel]

variable (b : BoundedMember) (v : Scalar) (ctx : CommandContext)

/-- A command that carries an allowed number. -/
def BoundedMember.Carries (cmd : Command) : Prop :=
  ∃ n, cmd.wireValue b.keys = some (.num n) ∧ b.member.Allows ctx n

/-- A command that carries an allowed number, for a value that is meant to be accepted. -/
def BoundedMember.Meets (cmd : Command) : Prop :=
  b.Carries ctx cmd ∧ ∀ words, b.words = some words → v ∈ words

/-- A write throws, or gives a command that keeps to the declaration. -/
def Enforced : Prop :=
  ∀ cmd obs, b.member.memberWrite P b.name v ctx = .ok (cmd, obs) → b.Meets v ctx cmd

/-- The inputs that a member's conversion lets through: for `Number`, a NaN and every text or boolean
that becomes a number outside; for an uncast value, what is no number; for a working mode, an index
outside the model's; for the guard mode, a word that is on a prototype or that becomes a settable
mode's number. -/
def Loose : Prop :=
  match b.conversion with
  | .judged => False
  | .number =>
    match v with
    | .num n => n = .nan
    | v => ¬b.member.Allows ctx (P.numberOf v)
  | .uncast => ∀ n, v ≠ .num n
  | .modeIndex =>
    Battery.isModeName v = false ∧ b.member.belowMin v = false ∧ P.numberOf v ≠ .nan ∧
      ¬b.member.Allows ctx (P.numberOf v)
  | .guardMode =>
    (∃ name, ctx.accountName = some name ∧ name ≠ "") ∧ (∀ n, v ≠ .num n) ∧ v ∉ guardModeWords ∧
      (v.text P.numberToString ∈ Arming.OBJECT_PROTOTYPE.map Prod.fst ∨
        ∃ n ∈ Arming.SETTABLE_MODES, P.numberOf v = .finite n)

variable {P b}

/-- Enforcement is about what the member's own write builds. -/
theorem enforced_iff_write {write : Scalar → CommandContext → Except String (Option Command)}
    (hwrite : b.member.write = some write) :
    Enforced P b v ctx ↔
      (b.member.inDomain v = true → ∀ cmd, write v ctx = .ok (some cmd) → b.Meets v ctx cmd) := by
  constructor
  · intro h hdomain cmd hcmd
    obtain ⟨obs, hok⟩ := ValueMember.exists_memberWrite_iff.mpr ⟨hdomain, write, hwrite, hcmd⟩
    exact h cmd obs hok
  · intro h cmd obs hok
    obtain ⟨hdomain, write', hwrite', hcmd⟩ := ValueMember.exists_memberWrite_iff.mp ⟨obs, hok⟩
    obtain rfl := Option.some.inj (hwrite.symm.trans hwrite')
    exact h hdomain cmd hcmd

/-- A member whose write checks what it converts to is enforced. -/
theorem enforced_judged {write : Scalar → CommandContext → Except String (Option Command)}
    (hwrite : b.member.write = some write) (hconversion : b.conversion = .judged)
    (hwords : b.words = none) (h : ∀ cmd, write v ctx = .ok (some cmd) → b.Carries ctx cmd) :
    Enforced P b v ctx ↔ ¬Loose P b v ctx := by
  have hloose : ¬Loose P b v ctx := by simp [Loose, hconversion]
  refine iff_of_true ((enforced_iff_write v ctx hwrite).mpr fun _ cmd hcmd => ?_) hloose
  exact ⟨h cmd hcmd, by simp [hwords]⟩

/-! ### `Number(v)` -/

theorem enforced_number {frame : JsNumber → CommandContext → Command}
    (hwrite : b.member.write = some fun v ctx => .ok (some (frame (P.numberOf v) ctx)))
    (hwire : ∀ n ctx, (frame n ctx).wireValue b.keys = some (.num n))
    (hconversion : b.conversion = .number) (hwords : b.words = none)
    (htype : b.member.type ≠ .bool) (hoptions : b.member.writeDomain = none)
    (hpublished : ∀ ctx, b.member.publishedDomain ctx = none) :
    Enforced P b v ctx ↔ ¬Loose P b v ctx := by
  have hmeets : b.Meets v ctx (frame (P.numberOf v) ctx) ↔ b.member.Allows ctx (P.numberOf v) := by
    simp [BoundedMember.Meets, BoundedMember.Carries, hwire, hwords]
  have hdomain := ValueMember.inDomain_eq_bounds htype hoptions v
  rw [enforced_iff_write v ctx hwrite, hdomain]
  simp only [Except.ok.injEq, Option.some.injEq, forall_eq', hmeets, Loose, hconversion]
  cases v with
  | num n =>
    -- a number was judged by the bounds, which NaN passes
    simp only [Platform.numberOf, ValueMember.allows_of_bounds ctx (hpublished ctx)]
    constructor
    · rintro h rfl
      exact (h (by simp [ValueMember.belowMin, ValueMember.aboveMax, JsNumber.lt])).1 rfl
    · intro hnan hbounds
      simp only [Bool.and_eq_true, Bool.not_eq_true'] at hbounds
      exact ⟨hnan, hbounds⟩
  | bool _ => simp [ValueMember.belowMin, ValueMember.aboveMax]
  | str _ => simp [ValueMember.belowMin, ValueMember.aboveMax]

/-! ### One of the options -/

theorem coerceEnumValue_mem {enumObj : List (String × ℕ)} {n : ℕ}
    (h : P.coerceEnumValue enumObj v = some n) : n ∈ enumObj.map Prod.snd := by
  rw [Platform.coerceEnumValue] at h
  split at h
  · exact List.mem_of_find?_eq_some h
  · cases h

theorem enforced_option {resolve : Scalar → Option ℕ} {frame : ℕ → CommandContext → Command}
    {values : List ℕ}
    (hwrite : b.member.write = some fun v ctx => .ok ((resolve v).map fun n => frame n ctx))
    (hresolve : ∀ v n, resolve v = some n → n ∈ values)
    (hwire : ∀ n ctx, (frame n ctx).wireValue b.keys = some (.nat n))
    (hconversion : b.conversion = .judged) (hwords : b.words = none)
    (hmin : b.member.min = none) (hmax : b.member.max = none)
    (hpublished : ∀ ctx, ∃ options, b.member.publishedDomain ctx = some options ∧
      ∀ n ∈ values, Scalar.num (.finite n) ∈ options) :
    Enforced P b v ctx ↔ ¬Loose P b v ctx := by
  refine enforced_judged v ctx hwrite hconversion hwords fun cmd hcmd => ?_
  obtain ⟨n, hn, rfl⟩ := Option.map_eq_some_iff.mp (Except.ok.inj hcmd)
  obtain ⟨options, hoptions, hvalues⟩ := hpublished ctx
  have hallowed := ValueMember.allows_of_mem ctx hmin hmax hoptions (hvalues n (hresolve v n hn))
  exact ⟨.finite n, hwire n ctx, hallowed⟩

theorem publishedDomain_watermark :
    (Camera.watermark P).publishedDomain ctx = some ([0, 1, 2].map fun n : ℕ => .num (.finite n)) := by
  simp only [ValueMember.publishedDomain, ValueMember.resolvedEnum, Option.bind_some, Camera.watermark]
  split_ifs <;> rfl

theorem resolveRecordingQualityTier_mem {n : ℕ}
    (h : Camera.resolveRecordingQualityTier P v = some n) :
    n ∈ Camera.RECORDING_QUALITY_TIERS.map Prod.fst := by
  rw [Camera.resolveRecordingQualityTier.eq_def] at h
  cases v with
  | bool _ => cases h
  | num q =>
    cases q with
    | finite q => exact List.mem_of_find?_eq_some h
    | infinity _ | nan => cases h
  | str s =>
    dsimp only at h
    split_ifs at h with hdigits
    · split at h
      · exact List.mem_of_find?_eq_some h
      · cases h
    · obtain ⟨e, he, rfl⟩ := Option.map_eq_some_iff.mp h
      exact List.mem_map_of_mem (List.mem_of_find?_eq_some he)

theorem enforced_recordingQuality :
    Enforced P (.option "recordingQuality" (Camera.recordingQuality P) ["quality"]) v ctx ↔
      ¬Loose P (.option "recordingQuality" (Camera.recordingQuality P) ["quality"]) v ctx := by
  refine enforced_option v ctx rfl (fun v n => resolveRecordingQualityTier_mem v) (fun n ctx => ?_) rfl
    rfl rfl rfl fun _ => ⟨_, rfl, by decide⟩
  split <;> rfl

/-! ### Bounds that the write checks -/

/-- A finite number between the bounds of a member without options. -/
theorem allows_finite {m : ValueMember} (hpublished : m.publishedDomain ctx = none) {q : ℚ}
    (hmin : ∀ min, m.min = some min → min ≤ q) (hmax : ∀ max, m.max = some max → q ≤ max) :
    m.Allows ctx (.finite q) := by
  refine (ValueMember.allows_of_bounds ctx hpublished).mpr ⟨by simp, ?_, ?_⟩
  · cases hbound : m.min with
    | none => simp [ValueMember.belowMin, hbound]
    | some min => simpa [ValueMember.belowMin, hbound, JsNumber.lt] using hmin min hbound
  · cases hbound : m.max with
    | none => simp [ValueMember.aboveMax, hbound]
    | some max => simpa [ValueMember.aboveMax, hbound, JsNumber.lt] using hmax max hbound

theorem enforced_powerSource :
    Enforced P .powerSource v ctx ↔ ¬Loose P .powerSource v ctx := by
  refine enforced_judged v ctx rfl rfl rfl fun cmd hcmd => ?_
  obtain rfl := Option.some.inj (Except.ok.inj hcmd)
  have hpublished : Battery.powerSource.publishedDomain ctx =
      some ([0, 1].map fun n : ℕ => .num (.finite n)) := rfl
  have hallows (n : ℕ) (hn : n ∈ [0, 1]) : Battery.powerSource.Allows ctx (.finite n) :=
    ValueMember.allows_of_mem ctx rfl rfl hpublished (by simpa using hn)
  refine ⟨_, rfl, hallows _ ?_⟩
  split_ifs <;> decide

theorem enforced_contactAlarmVolume :
    Enforced P (.contactAlarmVolume P) v ctx ↔ ¬Loose P (.contactAlarmVolume P) v ctx := by
  refine enforced_judged v ctx rfl rfl rfl fun cmd hcmd => ?_
  split at hcmd
  · rename_i level hlevel
    split_ifs at hcmd with hbounds
    · obtain rfl := Option.some.inj (Except.ok.inj hcmd)
      refine ⟨.finite level, rfl, allows_finite ctx rfl ?_ ?_⟩
      · rintro min hmin
        exact Option.some.inj hmin ▸ hbounds.2.1
      · rintro max hmax
        exact Option.some.inj hmax ▸ hbounds.2.2
    · cases hcmd
  · cases hcmd

/-- A write that is for cameras only gives what follows the check. -/
theorem of_requireCamera {action : String} {built : Except String (Option Command)}
    {cmd : Option Command} (h : (do Motion.requireCamera action ctx; built) = .ok cmd) : built = .ok cmd := by
  rw [Motion.requireCamera] at h
  split_ifs at h
  · cases h
  · exact h

theorem enforced_aiDetectType :
    Enforced P (.aiDetectType P) v ctx ↔ ¬Loose P (.aiDetectType P) v ctx := by
  refine enforced_judged v ctx rfl rfl rfl fun cmd hcmd => ?_
  have hbuilt := of_requireCamera ctx hcmd
  split at hbuilt
  · rename_i n hn
    split_ifs at hbuilt with hwhole hindoor hbounds
    · cases hbuilt
    · cases hbuilt
    · -- an index into the published types
      obtain rfl := Option.some.inj (Except.ok.inj hbuilt)
      have hpublished : (Motion.aiDetectType P).publishedDomain ctx =
          some (Motion.INDOOR_MOTION_DETECTION_TYPES.map fun e => .num (.finite e.1)) := by
        simp [Motion.aiDetectType, ValueMember.publishedDomain, ValueMember.resolvedEnum, hindoor]
      refine ⟨.finite n, rfl, ValueMember.allows_of_mem ctx rfl rfl hpublished ?_⟩
      simp only [Bool.or_eq_true, decide_eq_true_eq, not_or, not_not, not_lt] at hwhole hbounds
      obtain ⟨k, rfl⟩ : ∃ k : ℤ, (k : ℚ) = n := ⟨n.num, Rat.coe_int_num_of_den_eq_one hwhole.1⟩
      have hlow : 1 ≤ k := by exact_mod_cast hbounds.1
      have hhigh : k ≤ 7 := by exact_mod_cast hbounds.2
      interval_cases k <;> simp [Motion.INDOOR_MOTION_DETECTION_TYPES]
    · obtain rfl := Option.some.inj (Except.ok.inj hbuilt)
      refine ⟨.finite n, rfl, allows_finite ctx ?_ nofun nofun⟩
      simp [BoundedMember.aiDetectType, Motion.aiDetectType, ValueMember.publishedDomain,
        ValueMember.resolvedEnum, hindoor]
  · cases hbuilt

theorem enforced_snoozeTime :
    Enforced P (.snoozeTime P) v ctx ↔ ¬Loose P (.snoozeTime P) v ctx := by
  refine enforced_judged v ctx rfl rfl rfl fun cmd hcmd => ?_
  have hbuilt := Except.ok.inj (of_requireCamera ctx hcmd)
  rw [Motion.snoozeCommand] at hbuilt
  split at hbuilt
  · rename_i seconds hseconds
    split_ifs at hbuilt with hmin
    obtain rfl := Option.some.inj hbuilt
    have hallows {q : ℚ} (hq : 0 ≤ q) : (Motion.snoozeTime P).Allows ctx (.finite q) := by
      refine allows_finite ctx rfl ?_ nofun
      rintro min hmin
      exact Option.some.inj hmin ▸ hq
    rw [Motion.snoozePayload]
    split_ifs
    · exact ⟨_, rfl, hallows (by simp)⟩
    · refine ⟨_, rfl, hallows ?_⟩
      have hround : (0 : ℤ) ≤ JsNumber.round seconds := Int.floor_nonneg.mpr (by linarith)
      exact_mod_cast hround
  · cases hbuilt

theorem enforced_lightBrightness :
    Enforced P (.lightBrightness P) v ctx ↔ ¬Loose P (.lightBrightness P) v ctx := by
  refine enforced_judged v ctx rfl rfl rfl fun cmd hcmd => ?_
  obtain rfl := Option.some.inj (Except.ok.inj hcmd)
  refine ⟨_, rfl, ?_⟩
  have hclamp (n : JsNumber) :
      0 ≤ n.clamp SmartLight.BRIGHTNESS_MIN SmartLight.BRIGHTNESS_MAX ∧
        n.clamp SmartLight.BRIGHTNESS_MIN SmartLight.BRIGHTNESS_MAX ≤ 100 := by
    rw [JsNumber.clamp.eq_def, SmartLight.BRIGHTNESS_MIN, SmartLight.BRIGHTNESS_MAX]
    split <;> omega
  have hlevel := hclamp (P.numberOf v)
  revert hlevel
  generalize (P.numberOf v).clamp SmartLight.BRIGHTNESS_MIN SmartLight.BRIGHTNESS_MAX = level
  rintro ⟨-, hmost⟩
  refine allows_finite ctx rfl ?_ ?_
  · rintro min hmin
    obtain rfl := Option.some.inj hmin
    simp [SmartLight.BRIGHTNESS_MIN]
  · rintro max hmax
    obtain rfl := Option.some.inj hmax
    have hbyte : ((level.toNat % 256 : ℕ) : ℤ) ≤ SmartLight.BRIGHTNESS_MAX := by
      rw [SmartLight.BRIGHTNESS_MAX]
      omega
    have hcast : (((level.toNat % 256 : ℕ) : ℤ) : ℚ) ≤ SmartLight.BRIGHTNESS_MAX :=
      Int.cast_le.mpr hbyte
    rwa [Int.cast_natCast] at hcast

/-! ### A value as it came -/

theorem enforced_suctionLevel :
    Enforced P .suctionLevel v ctx ↔ ¬Loose P .suctionLevel v ctx := by
  have hpublished : Suction.level.publishedDomain ctx =
      some (Suction.ALL_SUCTION_LEVELS.map fun n : ℕ => .num (.finite n)) := rfl
  rw [enforced_iff_write v ctx rfl]
  simp only [Except.ok.injEq, Option.some.injEq, forall_eq']
  cases v with
  | num n =>
    refine iff_of_true (fun hdomain => ⟨⟨n, rfl, ?_⟩, nofun⟩) fun hloose => hloose n rfl
    have hmem : Scalar.num n ∈ Suction.ALL_SUCTION_LEVELS.map fun n : ℕ => Scalar.num (.finite n) := by
      simpa [BoundedMember.suctionLevel, Suction.level, ValueMember.inDomain, ValueMember.belowMin,
        ValueMember.aboveMax, ValueMember.writeDomain, ValueMember.sameType,
        Suction.ALL_SUCTION_LEVELS] using hdomain
    obtain ⟨level, -, hlevel⟩ := List.mem_map.mp hmem
    obtain rfl := Scalar.num.inj hlevel
    exact ValueMember.allows_of_mem ctx rfl rfl hpublished hmem
  | bool _ | str _ =>
    refine iff_of_false (fun h => ?_) (not_not.mpr nofun)
    obtain ⟨⟨n, hn, -⟩, -⟩ := h rfl
    cases hn

/-! ### A working mode -/

theorem workingModeMap_of_published {modes : EnumValues}
    (h : Battery.publishedWorkingModeDomain ctx = some modes) :
    Battery.workingModeMap ctx.model = modes := by
  rw [Battery.publishedWorkingModeDomain] at h
  rw [Battery.workingModeMap]
  split at h
  · rename_i hown
    rw [hown]
    exact Option.some.inj h
  · rename_i hnone
    rw [hnone]
    split_ifs at h
    exact Option.some.inj h

/-- What a name resolves to is among the modes that are published, where any are. -/
theorem allows_workingModeMap {name : String} {n : ℕ}
    (h : Battery.resolveWorkingModeValue ctx.model name = some n) :
    (Battery.workingMode P).Allows ctx (.finite n) where
  ne_nan := by simp
  min := by simp [ValueMember.belowMin, Battery.workingMode, JsNumber.lt]
  max := by simp [ValueMember.aboveMax, Battery.workingMode]
  option options hoptions := by
    obtain ⟨e, he, rfl⟩ := Option.map_eq_some_iff.mp h
    have hmem := List.mem_of_find?_eq_some he
    simp only [ValueMember.publishedDomain, ValueMember.resolvedEnum, Battery.workingMode,
      Option.bind_some, Option.none_or] at hoptions
    cases hmodes : Battery.publishedWorkingModeDomain ctx with
    | none =>
      rw [hmodes] at hoptions
      cases hoptions
    | some modes =>
      rw [hmodes] at hoptions
      obtain rfl := Option.some.inj hoptions
      rw [workingModeMap_of_published ctx hmodes] at hmem
      exact List.mem_map_of_mem hmem

theorem enforced_workingMode :
    Enforced P (.workingMode P) v ctx ↔ ¬Loose P (.workingMode P) v ctx := by
  have hdomain := ValueMember.inDomain_eq_bounds (m := Battery.workingMode P) nofun rfl v
  have hmax : (Battery.workingMode P).aboveMax v = false := by
    cases v <;> simp [ValueMember.aboveMax, Battery.workingMode]
  -- the write gives the mode asked for, unless it is not a number
  have hwrites : Enforced P (.workingMode P) v ctx ↔
      ((Battery.workingMode P).belowMin v = false → ∀ mode, Battery.modeOf P v ctx = some mode →
        mode ≠ .nan → (Battery.workingMode P).Allows ctx mode) := by
    rw [enforced_iff_write v ctx rfl]
    have hin : (BoundedMember.workingMode P).member.inDomain v = true ↔
        (Battery.workingMode P).belowMin v = false := by
      rw [BoundedMember.workingMode, hdomain, hmax]
      simp
    rw [hin]
    refine imp_congr Iff.rfl ⟨fun h mode hmode hnan => ?_, fun h cmd hcmd => ?_⟩
    · obtain ⟨⟨n, hn, hallows⟩, -⟩ := h
        (setScalar Battery.BATTERY_PARAM.WORKING_MODE mode ctx .directBinary) (by
          cases mode with
          | nan => exact absurd rfl hnan
          | _ => simp only [hmode])
      cases hn
      exact hallows
    · cases hmode : Battery.modeOf P v ctx with
      | none =>
        rw [hmode] at hcmd
        cases hcmd
      | some mode =>
        rw [hmode] at hcmd
        cases mode with
        | nan => cases hcmd
        | _ =>
          cases hcmd
          exact ⟨⟨_, rfl, h _ hmode (by simp)⟩, nofun⟩
  rw [hwrites]
  cases hname : Battery.isModeName v with
  | true =>
    -- a name stands for one of the model's own modes
    have hloose : ¬Loose P (.workingMode P) v ctx := by
      simp [Loose, BoundedMember.workingMode, hname]
    refine iff_of_true (fun _ mode hmode _ => ?_) hloose
    obtain ⟨s, rfl⟩ : ∃ s, v = .str s := by
      cases v with
      | str s => exact ⟨s, rfl⟩
      | _ => cases hname
    have hdigits : allDigits (trim s) = false := by simpa [Battery.isModeName] using hname
    simp only [Battery.modeOf, hdigits, Bool.false_eq_true, if_false] at hmode
    obtain ⟨n, hn, rfl⟩ := Option.map_eq_some_iff.mp hmode
    exact allows_workingModeMap ctx hn
  | false =>
    have hmode : Battery.modeOf P v ctx = some (P.numberOf v) := by
      cases v with
      | str s =>
        have hdigits : allDigits (trim s) = true := by simpa [Battery.isModeName] using hname
        simp [Battery.modeOf, hdigits, Platform.numberOf]
      | _ => rfl
    simp [hmode, Loose, BoundedMember.workingMode, hname]

/-! ### A guard mode -/

/-- The words are not names that an object finds on its prototype. -/
theorem text_guardModeWords (hv : v ∈ guardModeWords) :
    v.text P.numberToString ∉ Arming.OBJECT_PROTOTYPE.map Prod.fst := by
  have hnames : ∀ name ∈ Arming.ArmingMode ++ Arming.SETTABLE_MODES.map toString,
      name ∉ Arming.OBJECT_PROTOTYPE.map Prod.fst := by decide
  simp only [guardModeWords, List.mem_append, List.mem_map] at hv
  rcases hv with (⟨name, hname, rfl⟩ | ⟨n, hn, rfl⟩) | ⟨n, hn, rfl⟩
  · exact hnames name (List.mem_append_left _ hname)
  · have hsmall : ∀ n ∈ Arming.SETTABLE_MODES, n < 2 ^ 53 := by decide
    have htext : (Scalar.num (.finite n)).text P.numberToString = toString n :=
      P.numberToString_nat n (hsmall n hn)
    rw [htext]
    exact hnames _ (List.mem_append_right _ (List.mem_map_of_mem hn))
  · exact hnames _ (List.mem_append_right _ (List.mem_map_of_mem hn))

/-- A number that the domain lets through is a settable mode. -/
theorem mem_words_of_num {n : JsNumber} (h : (Arming.mode P).inDomain (.num n) = true) :
    Scalar.num n ∈ guardModeWords := by
  have hmem : Scalar.num n ∈ Arming.SETTABLE_MODES.map fun n : ℕ => Scalar.num (.finite n) := by
    simpa [Arming.mode, ValueMember.inDomain, ValueMember.belowMin, ValueMember.aboveMax,
      ValueMember.writeDomain, ValueMember.sameType, Arming.SETTABLE_MODES] using h
  simp only [guardModeWords, List.mem_append]
  exact .inl (.inr hmem)

/-- A word or boolean that stands for a mode although it is none of the words. -/
theorem loose_of_armingModeOf {m : String} (hmode : Arming.armingModeOf P v = some m)
    (hnum : ∀ n, v ≠ .num n) (hwords : v ∉ guardModeWords) :
    v.text P.numberToString ∈ Arming.OBJECT_PROTOTYPE.map Prod.fst ∨
      ∃ n ∈ Arming.SETTABLE_MODES, P.numberOf v = .finite n := by
  rw [Arming.armingModeOf] at hmode
  split_ifs at hmode with hname
  · rcases List.mem_append.mp hname with hown | hinherited
    · -- a mode's own name is among the words
      refine absurd ?_ hwords
      cases v with
      | num n => exact absurd rfl (hnum n)
      | bool on =>
        have htexts : ∀ text ∈ ["true", "false"], text ∉ Arming.ArmingMode := by decide
        cases on <;> exact absurd hown (htexts _ (by simp [Scalar.text]))
      | str s => exact List.mem_append_left _ (List.mem_append_left _ (List.mem_map_of_mem hown))
    · exact .inl hinherited
  · have hwire := List.find?_some hmode
    have hsettable : ∀ m ∈ Arming.ArmingMode, ∃ n ∈ Arming.SETTABLE_MODES,
        Arming.modeWire m = .nat n := by decide
    obtain ⟨n, hn, hmodeWire⟩ := hsettable m (List.mem_of_find?_eq_some hmode)
    rw [decide_eq_true_eq, hmodeWire] at hwire
    exact .inr ⟨n, hn, (FrameValue.scalar.inj hwire |> Scalar.num.inj).symm⟩

/-- Such a name or number does stand for a mode. -/
theorem exists_armingModeOf (h : v.text P.numberToString ∈ Arming.OBJECT_PROTOTYPE.map Prod.fst ∨
    ∃ n ∈ Arming.SETTABLE_MODES, P.numberOf v = .finite n) :
    ∃ m, Arming.armingModeOf P v = some m := by
  rw [Arming.armingModeOf]
  split_ifs with hname
  · exact ⟨_, rfl⟩
  · obtain hinherited | ⟨n, hn, hnumber⟩ := h
    · exact absurd (List.mem_append_right _ hinherited) hname
    · have hmodes : ∀ n ∈ Arming.SETTABLE_MODES, ∃ m ∈ Arming.ArmingMode,
          Arming.modeWire m = .nat n := by decide
      obtain ⟨m, hm, hwire⟩ := hmodes n hn
      refine Option.isSome_iff_exists.mp (List.find?_isSome.mpr ⟨m, hm, ?_⟩)
      rw [hnumber]
      exact decide_eq_true hwire

/-- The command for a word carries the wire integer of a mode that can be set. -/
theorem mode_carries {m : String} {cmd : Command} (hv : v ∈ guardModeWords)
    (hmode : Arming.armingModeOf P v = some m) (hcmd : Arming.armingCommand m ctx = .ok cmd) :
    (BoundedMember.mode P).Carries ctx cmd := by
  obtain ⟨name, -, -, rfl⟩ := Arming.armingCommand_eq_ok.mp hcmd
  obtain ⟨n, hn, hwire⟩ | ⟨e, he, rfl, -⟩ := Arming.modeWire_of_armingModeOf hmode
  · have hoption : Scalar.num (.finite n) ∈
        Arming.SETTABLE_MODES.map fun n : ℕ => Scalar.num (.finite n) := List.mem_map_of_mem hn
    refine ⟨.finite n, ?_, ValueMember.allows_of_mem ctx rfl rfl rfl hoption⟩
    exact congrArg some hwire
  · -- no word stands for what is found on the prototype
    have hinherited := List.mem_map_of_mem (f := Prod.fst) he
    rw [Arming.armingModeOf] at hmode
    split_ifs at hmode
    · exact absurd (Option.some.inj hmode ▸ hinherited) (text_guardModeWords v hv)
    · have hown := List.mem_of_find?_eq_some hmode
      have hdisjoint : ∀ m ∈ Arming.ArmingMode, m ∉ Arming.OBJECT_PROTOTYPE.map Prod.fst := by decide
      exact absurd hinherited (hdisjoint _ hown)

theorem enforced_mode :
    Enforced P (.mode P) v ctx ↔ ¬Loose P (.mode P) v ctx := by
  rw [enforced_iff_write v ctx rfl]
  constructor
  · rintro h ⟨⟨name, haccount, hname⟩, hnum, hwords, hloose⟩
    have hdomain : (Arming.mode P).inDomain v = true := by
      cases v with
      | num n => exact absurd rfl (hnum n)
      | bool _ | str _ => rfl
    obtain ⟨m, hmode⟩ := exists_armingModeOf v hloose
    have hcmd : Arming.armingCommand m ctx = .ok _ :=
      Arming.armingCommand_eq_ok.mpr ⟨name, haccount, hname, rfl⟩
    have hmeets := h hdomain _ (by rw [hmode]; exact congrArg (Except.map some) hcmd)
    exact hwords (hmeets.2 _ rfl)
  · intro hloose hdomain cmd hcmd
    obtain ⟨m, hmode, hbuilt⟩ := Arming.mode_write rfl hcmd
    have hwords : v ∈ guardModeWords := by
      by_contra hwords
      have hnum (n : JsNumber) : v ≠ .num n := by
        rintro rfl
        exact hwords (mem_words_of_num hdomain)
      obtain ⟨name, haccount, hname, -⟩ := Arming.armingCommand_eq_ok.mp hbuilt
      exact hloose ⟨⟨name, haccount, hname⟩, hnum, hwords, loose_of_armingModeOf v hmode hnum hwords⟩
    refine ⟨mode_carries v ctx hwords hmode hbuilt, ?_⟩
    rintro words hwords'
    exact Option.some.inj hwords' ▸ hwords

variable (P)

/-- **Where the declared domain is enforced**: for every bounded member and every input but the loose
ones. -/
theorem enforced_iff (hb : b ∈ boundedMembers P) :
    Enforced P b v ctx ↔ ¬Loose P b v ctx := by
  have hnumber {name : String} {m : ValueMember} {keys : List String}
      {f : JsNumber → CommandContext → Command}
      (hwrite : m.write = some fun v ctx => .ok (some (f (P.numberOf v) ctx)))
      (hwire : ∀ n ctx, (f n ctx).wireValue keys = some (.num n)) (htype : m.type ≠ .bool)
      (hoptions : m.writeDomain = none) (hpublished : ∀ ctx, m.publishedDomain ctx = none) :
      Enforced P (.number name m keys) v ctx ↔ ¬Loose P (.number name m keys) v ctx :=
    enforced_number v ctx hwrite hwire rfl rfl htype hoptions hpublished
  have hoption {name : String} {m : ValueMember} {keys : List String}
      {f : ℕ → CommandContext → Command} {enumObj : List (String × ℕ)}
      (hwrite : m.write = some fun v ctx => .ok ((P.coerceEnumValue enumObj v).map fun n => f n ctx))
      (hwire : ∀ n ctx, (f n ctx).wireValue keys = some (.nat n))
      (hmin : m.min = none) (hmax : m.max = none)
      (hpublished : ∀ ctx, ∃ options, m.publishedDomain ctx = some options ∧
        ∀ n ∈ enumObj.map Prod.snd, Scalar.num (.finite n) ∈ options) :
      Enforced P (.option name m keys) v ctx ↔ ¬Loose P (.option name m keys) v ctx :=
    enforced_option v ctx hwrite (fun v n => coerceEnumValue_mem v) hwire rfl rfl hmin hmax hpublished
  simp only [boundedMembers, List.mem_cons, List.not_mem_nil, or_false] at hb
  rcases hb with rfl | rfl | rfl | rfl | rfl | rfl | rfl | rfl | rfl | rfl | rfl | rfl | rfl | rfl |
    rfl | rfl | rfl | rfl | rfl | rfl | rfl | rfl | rfl | rfl | rfl | rfl | rfl
  · exact enforced_mode v ctx
  · exact hnumber rfl (fun _ _ => rfl) nofun rfl fun _ => rfl
  · exact hnumber rfl (fun _ _ => rfl) nofun rfl fun _ => rfl
  · exact hnumber (f := fun n ctx => setPayload _ [("value", .num n)] ctx none none none) rfl
      (fun _ _ => rfl) nofun rfl fun _ => rfl
  · exact enforced_powerSource v ctx
  · exact enforced_workingMode v ctx
  · exact hnumber rfl (fun _ _ => rfl) nofun rfl fun _ => rfl
  · exact hnumber rfl (fun _ _ => rfl) nofun rfl fun _ => rfl
  · exact hoption rfl (fun _ _ => rfl) rfl rfl fun ctx => ⟨_, publishedDomain_watermark ctx, by decide⟩
  · exact hoption rfl (fun _ _ => rfl) rfl rfl fun _ => ⟨_, rfl, by decide⟩
  · exact hoption rfl (fun _ _ => rfl) rfl rfl fun _ => ⟨_, rfl, by decide⟩
  · exact hoption rfl (fun _ _ => rfl) rfl rfl fun _ => ⟨_, rfl, by decide⟩
  · exact enforced_recordingQuality v ctx
  · exact hoption rfl (fun _ _ => rfl) rfl rfl fun _ => ⟨_, rfl, by decide⟩
  · exact enforced_contactAlarmVolume v ctx
  · exact hnumber (f := fun n ctx => setPayload _ [("dingdong_volume", .num n)] ctx (some 0) none none)
      rfl (fun _ _ => rfl) nofun rfl fun _ => rfl
  · exact hoption rfl (fun _ _ => rfl) rfl rfl fun _ => ⟨_, rfl, by decide⟩
  · exact hnumber rfl (fun _ _ => rfl) nofun rfl fun _ => rfl
  · exact hnumber rfl (fun _ _ => rfl) nofun rfl fun _ => rfl
  · exact enforced_aiDetectType v ctx
  · exact enforced_snoozeTime v ctx
  · exact hoption rfl (fun _ _ => rfl) rfl rfl fun _ => ⟨_, rfl, by decide⟩
  · exact hoption rfl (fun _ _ => rfl) rfl rfl fun _ => ⟨_, rfl, by decide⟩
  · exact hnumber (f := fun n _ => .stationScalar _ n _) rfl (fun _ _ => rfl) nofun rfl fun _ => rfl
  · exact hoption rfl (fun _ _ => rfl) rfl rfl fun _ => ⟨_, rfl, by decide⟩
  · exact enforced_lightBrightness v ctx
  · exact enforced_suctionLevel v ctx

end Enforce

/-! ### Durations of a recording -/

theorem sixty_seconds_enforced :
    Enforced wholePlatform (.number "recordDuration" (Battery.recordDuration wholePlatform) [])
      (.str "60") { codec := .camera } := by
  refine (enforced_iff wholePlatform _ _ (by simp [boundedMembers])).mpr (not_not.mpr ?_)
  have hnumber : wholePlatform.numberOf (.str "60") = .finite 60 := by decide
  show (Battery.recordDuration wholePlatform).Allows _ (wholePlatform.numberOf (.str "60"))
  rw [hnumber]
  refine allows_finite _ rfl ?_ nofun
  rintro min hmin
  exact Option.some.inj hmin ▸ by norm_num

theorem negative_text_sent :
    ¬∀ (P : Platform), ∀ b ∈ boundedMembers P, ∀ v ctx, Enforced P b v ctx := by
  intro hclaim
  have henforced := hclaim wholePlatform
    (.number "recordDuration" (Battery.recordDuration wholePlatform) []) (by simp [boundedMembers])
    (.str "-5") { codec := .camera }
  obtain ⟨⟨n, hn, hallows⟩, -⟩ := henforced _ none rfl
  cases hn
  exact absurd hallows.min (by decide)

end EufySdk.Capabilities
