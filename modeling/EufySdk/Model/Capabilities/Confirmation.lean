import Mathlib.Tactic
import EufySdk.Model.Capabilities.Arming
import EufySdk.Model.Capabilities.Camera
import EufySdk.Model.Capabilities.ReadEvidence

/-!
# A write that landed is confirmed

The members that declare an observation, camera power and the guard mode: what `memberWrite` says
will be observed, against what a device of the same context reads once it reports just that.
`refreshEventState` of `client/eufy-mega.ts` compares the two as text.

- `ParamTables` — the param dictionaries, as far as the observed params go
- `Confirmable` — the property then reads what the write asked for
- `confirmable_iff` — for which devices
-/

namespace EufySdk.Capabilities

inductive ParamNamespace
  | security
  | clean
  | life
  | print
  deriving DecidableEq, Repr

def namespaceForCodec : Codec → ParamNamespace
  | .station | .camera | .sensor | .lock | .keypad | .display => .security
  | .vacuum | .mower => .clean
  | .light => .life
  | .printer => .print

/-- Param dictionaries that have the source's rows for the observed params. -/
structure ParamTables where
  paramDef : ParamNamespace → ℕ → Option ParamDef
  cameraSwitch :
    paramDef .security Camera.CAMERA_CMD.CAMERA_ENABLE = some ⟨"cameraSwitch", .bool, none⟩
  openDevice : paramDef .security Camera.OPEN_DEVICE = some ⟨"paramTypeOpenDevice", .string, none⟩
  armingMode : paramDef .security Arming.SET_ARMING = some ⟨"armingMode", .bool, none⟩
  elsewhere : ∀ ns, ns ≠ .security → ∀ pt ∈
    [Camera.CAMERA_CMD.CAMERA_ENABLE, Camera.OPEN_DEVICE, Arming.SET_ARMING], paramDef ns pt = none

namespace ParamTables

variable (T : ParamTables)

/-- The dictionary of a device's namespace. -/
def dict (ctx : CommandContext) : ℕ → Option ParamDef := T.paramDef (namespaceForCodec ctx.codec)

/-- No observed param is encoded. -/
theorem encoding_eq_none (ctx : CommandContext) {pt : ℕ}
    (hpt : pt ∈ [Camera.CAMERA_CMD.CAMERA_ENABLE, Camera.OPEN_DEVICE, Arming.SET_ARMING]) :
    (T.dict ctx pt).bind ParamDef.encoding = none := by
  rw [dict]
  by_cases hns : namespaceForCodec ctx.codec = .security
  · rw [hns]
    simp only [List.mem_cons, List.not_mem_nil, or_false] at hpt
    rcases hpt with rfl | rfl | rfl
    · rw [T.cameraSwitch]
      rfl
    · rw [T.openDevice]
      rfl
    · rw [T.armingMode]
      rfl
  · rw [T.elsewhere _ hns pt hpt]
    rfl

end ParamTables

/-- `String(value)` of a value that is neither an array nor an object. -/
def scalarText (numberToString : ℚ → String) : Json → Option String
  | .null => some "null"
  | .bool b => some (if b then "true" else "false")
  | .num n => some (numberToString n)
  | .str s => some s
  | .arr _ | .obj _ => none

section Confirm

variable (P : Platform) (T : ParamTables)

/-- What is observed of a write is read back: on a device of the same context, once the observed param
reports the expected value, the property reads the observed one. -/
def Confirmable (members : Members) (name : String) (m : ValueMember) (value : Scalar)
    (ctx : CommandContext) : Prop :=
  ∀ cmd obs, m.memberWrite P name value ctx = .ok (cmd, some obs) →
    ∀ d : Device, d.schema = Members.schema members (T.dict ctx) ctx →
      ((d.applyParams P.toConversions
          (SortedMap.single obs.param (obs.expected.text P.numberToString))).1.read
        obs.property).bind (scalarText P.numberToString) =
          some ((obs.observed.map (Scalar.text P.numberToString)).getD
            (obs.expected.text P.numberToString))

variable {P T}

/-- A device that gets one param reads it as the table files it. -/
theorem read_single {members : Members} {dict : ℕ → Option ParamDef} {ctx : CommandContext}
    (cv : Conversions) (raw : String) {d : Device} (hd : d.schema = Members.schema members dict ctx)
    {pt : ℕ} {name : String} {m : ValueMember} {invert : Bool}
    (hkeeper : Members.keeper members ctx pt = some (name, m, invert))
    (hplain : (dict pt).bind ParamDef.encoding = none) :
    (d.applyParams cv (SortedMap.single pt raw)).1.read (m.propertyName name) =
      some (m.coerceRaw cv (.str raw) invert) := by
  have hname : Members.nameOf members dict ctx pt = m.propertyName name := by
    rw [Members.nameOf, hkeeper]
  have hvalue : Members.valueOf members dict ctx cv pt raw = m.coerceRaw cv (.str raw) invert := by
    rw [Members.valueOf, hplain, hkeeper]
    rfl
  have hfind : (SortedMap.single pt raw).find? pt = some raw := by
    simp [SortedMap.single, SortedMap.find?]
  have hread := Members.read_eq_later cv hfind hd
  rw [hname, hvalue] at hread
  rw [hread]
  simp [SortedMap.single]

/-! ### Camera power -/

theorem keeper_power (ctx : CommandContext) :
    Members.keeper (Camera.CAMERA_MEMBERS P) ctx Camera.CAMERA_CMD.CAMERA_ENABLE =
      some ("enabled", Camera.enabled, true) := rfl

theorem keeper_openDevice (ctx : CommandContext) :
    Members.keeper (Camera.CAMERA_MEMBERS P) ctx Camera.OPEN_DEVICE =
      some ("enabled", Camera.enabled, false) := rfl

/-- The text of the power state that a raw value of an id reads as. -/
theorem text_power (raw : String) (invert : Bool) :
    scalarText P.numberToString (Camera.enabled.coerceRaw P.toConversions (.str raw) invert) =
      some ((Scalar.bool (invert ^^ (raw = "1" || raw = "true"))).text P.numberToString) := by
  have hread : Camera.enabled.coerceRaw P.toConversions (.str raw) invert =
      .bool (invert ^^ (raw = "1" || raw = "true")) := by
    cases invert <;> simp [ValueMember.coerceRaw, coerce, coerceByType, Camera.enabled]
  rw [hread]
  rfl

/-- A camera whose power param is an enable bit, and the only one of the two that it reports. -/
def enableBitOnly (ctx : CommandContext) : Bool :=
  Camera.isEnableBitPolarity ctx && Camera.CAMERA_CMD.CAMERA_ENABLE ∈ ctx.paramIds &&
    Camera.OPEN_DEVICE ∉ ctx.paramIds

/-- What is read after an observed power write: the state that was written, or its opposite. -/
theorem read_reflection {ctx : CommandContext} {on : Bool} {reflected : Reflection}
    (hreflected : Camera.enablementReflection on ctx = some reflected) {d : Device}
    (hd : d.schema = Members.schema (Camera.CAMERA_MEMBERS P) (T.dict ctx) ctx) :
    reflected.observed = some (.bool on) ∧
      ((d.applyParams P.toConversions
          (SortedMap.single reflected.param (reflected.expected.text P.numberToString))).1.read
        "enabled").bind (scalarText P.numberToString) =
          some ((Scalar.bool (on ^^ enableBitOnly ctx)).text P.numberToString) := by
  have hencoding (pt : ℕ) (hpt : pt ∈ [Camera.CAMERA_CMD.CAMERA_ENABLE, Camera.OPEN_DEVICE,
      Arming.SET_ARMING]) := T.encoding_eq_none ctx hpt
  rw [Camera.enablementReflection] at hreflected
  split_ifs at hreflected with halias hpower
  · obtain rfl := Option.some.inj hreflected
    refine ⟨rfl, ?_⟩
    have hread := read_single P.toConversions ((Scalar.bool on).text P.numberToString) hd
      (keeper_openDevice ctx) (hencoding _ (by simp))
    have hfamily : enableBitOnly ctx = false := by simp [enableBitOnly, halias]
    rw [hfamily]
    refine (congrArg (Option.bind · _) hread).trans ((text_power (P := P) _ _).trans ?_)
    cases on <;> rfl
  · obtain rfl := Option.some.inj hreflected
    refine ⟨rfl, ?_⟩
    have htext (n : ℕ) (hn : n < 2 ^ 53) : (FrameValue.nat n).text P.numberToString = toString n :=
      P.numberToString_nat n hn
    have hread := read_single P.toConversions (toString (Camera.powerValue on ctx)) hd
      (keeper_power ctx) (hencoding _ (by simp))
    have hfamily : enableBitOnly ctx = Camera.isEnableBitPolarity ctx := by
      simp [enableBitOnly, halias, hpower]
    have hsmall : Camera.powerValue on ctx < 2 ^ 53 := by
      rw [Camera.powerValue]
      split_ifs <;> norm_num
    rw [htext _ hsmall, hfamily]
    refine (congrArg (Option.bind · _) hread).trans ((text_power (P := P) _ _).trans ?_)
    rw [Camera.powerValue]
    cases on <;> cases Camera.isEnableBitPolarity ctx <;> rfl

/-- **Camera power is confirmed but on an enable bit**: the read takes the power param for a disable
bit on every family, where the write has the family's own polarity. -/
theorem confirmable_power_iff (value : Scalar) (ctx : CommandContext) :
    Confirmable P T (Camera.CAMERA_MEMBERS P) "enabled" Camera.enabled value ctx ↔
      ¬(enableBitOnly ctx = true ∧ Camera.enabled.inDomain value = true) := by
  have hobserved {reflected : Reflection}
      (hreflected : Camera.enablementReflection (asBool value) ctx = some reflected) {d : Device}
      (hd : d.schema = Members.schema (Camera.CAMERA_MEMBERS P) (T.dict ctx) ctx) :=
    read_reflection hreflected hd
  constructor
  · rintro h ⟨hfamily, hdomain⟩
    obtain ⟨reflected, hreflected⟩ : ∃ reflected,
        Camera.enablementReflection (asBool value) ctx = some reflected := by
      simp only [enableBitOnly, Bool.and_eq_true, decide_eq_true_eq] at hfamily
      rw [Camera.enablementReflection, if_neg hfamily.2, if_pos hfamily.1.2]
      exact ⟨_, rfl⟩
    have hwrite : Camera.enabled.memberWrite P "enabled" value ctx =
        .ok (Camera.powerCommand (asBool value) ctx, some
          { event := "cameraEnabledChanged"
            expected := reflected.expected
            observed := reflected.observed
            param := reflected.param
            property := "enabled"
            resetStandaloneSession := false
            timeoutMs := 20000 }) := by
      rw [ValueMember.memberWrite, hdomain]
      simp only [Camera.enabled, Bool.not_true, Bool.false_eq_true, if_false, Option.bind_some,
        hreflected]
      rfl
    obtain ⟨hasked, hread⟩ := hobserved hreflected
      (d := ⟨Members.schema (Camera.CAMERA_MEMBERS P) (T.dict ctx) ctx, fun _ => none⟩) rfl
    have hsame := (h _ _ hwrite ⟨_, fun _ => none⟩ rfl).symm.trans hread
    rw [hasked, hfamily] at hsame
    -- the opposite state has the other text
    cases hon : asBool value <;> rw [hon] at hsame <;>
      exact absurd (Option.some.inj hsame) (by simp [Scalar.text])
  · intro h cmd obs hwrite d hd
    obtain ⟨hdomain, -, hobs⟩ := ValueMember.memberWrite_eq_ok hwrite
    have hfamily : enableBitOnly ctx = false := by
      by_contra hfamily
      exact h ⟨Bool.not_eq_false _ ▸ hfamily, hdomain⟩
    obtain ⟨reflected, hreflected, rfl⟩ := Option.map_eq_some_iff.mp hobs.symm
    obtain ⟨hasked, hread⟩ := hobserved hreflected hd
    rw [hfamily, Bool.xor_false] at hread
    refine hread.trans ?_
    rw [hasked]
    rfl

/-! ### The guard mode -/

theorem keeper_mode (ctx : CommandContext) :
    Members.keeper (Arming.ARMING_MEMBERS P) ctx Arming.SET_ARMING =
      some ("mode", Arming.mode P, false) := by
  rfl

theorem confirmable_mode (value : Scalar) (ctx : CommandContext) :
    Confirmable P T (Arming.ARMING_MEMBERS P) "mode" (Arming.mode P) value ctx := by
  intro cmd obs hwrite d hd
  obtain ⟨-, ⟨write, hw, hbuilt⟩, hobs⟩ := ValueMember.memberWrite_eq_ok hwrite
  obtain rfl := Option.some.inj hobs
  obtain ⟨mode, hmode, -⟩ := Arming.mode_write hw hbuilt
  have hread (raw : String) := read_single P.toConversions raw hd (keeper_mode ctx)
    (T.encoding_eq_none ctx (by simp))
  refine (congrArg (Option.bind · _) (hread _)).trans ?_
  have hvalue (raw : String) : (Arming.mode P).coerceRaw P.toConversions (.str raw) false =
      (P.number raw).elim (.str raw) .num := by
    dsimp only [ValueMember.coerceRaw, EufySdk.coerce, Arming.mode, coerceByType, finiteNumber]
    cases P.number raw <;> rfl
  have hexpected : Arming.modeWire ((Arming.armingModeOf P value).getD "undefined") =
      Arming.modeWire mode := by
    rw [hmode]
    rfl
  show scalarText _ ((Arming.mode P).coerceRaw _ (.str ((Arming.modeWire _).text _)) false) =
    some ((Arming.modeWire _).text _)
  rw [hexpected, hvalue]
  obtain ⟨n, hn, hwire⟩ | ⟨e, he, -, hwire⟩ := Arming.modeWire_of_armingModeOf hmode
  · have hsmall : n < 2 ^ 53 := by
      have hmodes : ∀ n ∈ Arming.SETTABLE_MODES, n < 2 ^ 53 := by decide
      exact hmodes n hn
    have htext : (FrameValue.nat n).text P.numberToString = toString n :=
      P.numberToString_nat n hsmall
    rw [hwire, htext, P.number_eq, P.toNumber_nat n hsmall]
    exact congrArg some htext
  · -- what is found on the prototype is no numeral, and is kept as it came
    have hbracket := Arming.bracket_of_inherited he
    rw [hwire, FrameValue.text, P.number_eq, P.toNumber_bracket e.2 hbracket]
    rfl

/-- The members of the two tables that declare an observation. -/
theorem observed_members :
    ((Camera.CAMERA_MEMBERS P ++ Arming.ARMING_MEMBERS P).filter fun e =>
      e.2.observation.isSome).map Prod.fst = ["enabled", "mode"] := rfl

variable (P T)

/-- **Which landed writes are confirmed**: those of the guard mode always, and those of camera power on
every device but one that reports its power under an enable bit alone. -/
theorem confirmable_iff (value : Scalar) (ctx : CommandContext) :
    (Confirmable P T (Camera.CAMERA_MEMBERS P) "enabled" Camera.enabled value ctx ↔
      ¬(enableBitOnly ctx = true ∧ Camera.enabled.inDomain value = true)) ∧
      Confirmable P T (Arming.ARMING_MEMBERS P) "mode" (Arming.mode P) value ctx :=
  ⟨confirmable_power_iff value ctx, confirmable_mode value ctx⟩

end Confirm

/-! ### An indoor camera turned on -/

/-- The source's rows and no others. -/
def observedRows : ParamTables where
  paramDef ns pt :=
    if ns ≠ .security then none
    else if pt = Camera.CAMERA_CMD.CAMERA_ENABLE then some ⟨"cameraSwitch", .bool, none⟩
    else if pt = Camera.OPEN_DEVICE then some ⟨"paramTypeOpenDevice", .string, none⟩
    else if pt = Arming.SET_ARMING then some ⟨"armingMode", .bool, none⟩
    else none
  cameraSwitch := rfl
  openDevice := rfl
  armingMode := rfl
  elsewhere _ hns _ _ := if_pos hns

/-- An indoor camera that has reported its power param. -/
def indoorCamera : CommandContext :=
  { codec := .camera, deviceType := some DeviceType.INDOOR_CAMERA
    paramIds := {Camera.CAMERA_CMD.CAMERA_ENABLE} }

theorem enable_bit_unconfirmed :
    ¬∀ (P : Platform) (T : ParamTables) (value : Scalar) (ctx : CommandContext),
      Confirmable P T (Camera.CAMERA_MEMBERS P) "enabled" Camera.enabled value ctx := by
  intro hclaim
  have hconfirmed := hclaim wholePlatform observedRows (.bool true) indoorCamera
  exact confirmable_power_iff (.bool true) indoorCamera |>.mp hconfirmed ⟨by decide, by decide⟩

end EufySdk.Capabilities
