import Mathlib.Tactic
import EufySdk.Model.Device

/-!
# Capability members

The value members of a capability's table, of `model/capabilities/members.ts`: each is declared once,
and the property schema, the getter with its evidence gate and the write are all derived from the
declaration.

- `propertiesOf` — the schema a table contributes for a device
- `reads`, `bindGetter` — whether the device has reported the value, and the getter that installs
- `memberWrite` — the one write path: the domain, the member's own wire, what is observed of it
-/

namespace EufySdk.Capabilities

inductive Codec
  | station
  | camera
  | sensor
  | lock
  | keypad
  | vacuum
  | mower
  | light
  | printer
  | display
  deriving DecidableEq, Repr

inductive Capability
  | video
  | snapshot
  | motion
  | personDetection
  | battery
  | light
  | ptz
  | doorbell
  | contact
  | leak
  | smoke
  | co
  | siren
  | lock
  | keypad
  | arming
  | storage
  | rtsp
  | camera
  | audio
  | vacuumClean
  | vacuumDock
  | suction
  | locate
  | smartLight
  | info
  deriving DecidableEq, Repr

/-- What is known of the device that a table is read for. -/
structure CommandContext where
  codec : Codec
  deviceType : Option ℕ := none
  model : Option String := none
  category : Option String := none
  capabilities : Option (Finset Capability) := none
  paramIds : Finset ℕ := ∅
  channel : ℕ := 0
  accountName : Option String := none
  serial : Option String := none

def hasCapability (ctx : CommandContext) (cap : Capability) : Bool :=
  ctx.capabilities.any fun caps => cap ∈ caps

/-- The platform beneath the capabilities: `Number(s)`, `JSON.stringify`, the clock, and what is
relied on of the conversions. -/
structure Platform extends Conversions where
  toNumber : String → JsNumber
  stringify : Scalar → String
  now : ℕ
  number_eq : ∀ s, number s = (toNumber s).finite?
  numberToString_nat : ∀ n : ℕ, n < 2 ^ 53 → numberToString n = toString n
  toNumber_nat : ∀ n : ℕ, n < 2 ^ 53 → toNumber (toString n) = .finite n
  /-- No numeral has a bracket. -/
  toNumber_bracket : ∀ s : String, '[' ∈ s.toList → toNumber s = .nan

namespace Platform

variable (P : Platform)

/-- `Number(value)`. -/
def numberOf : Scalar → JsNumber
  | .bool b => .finite (if b then 1 else 0)
  | .num n => n
  | .str s => P.toNumber s

/-- `coerceEnumValue` of `core/util.ts`: the value of an enum that a value is, if it is one. -/
def coerceEnumValue (enumObj : List (String × ℕ)) (value : Scalar) : Option ℕ :=
  match P.numberOf value with
  | .finite q => (enumObj.map Prod.snd).find? fun n => (n : ℚ) = q
  | _ => none

end Platform

/-- `Number(s)` for whole decimals and for words. -/
def wholeNumber (s : String) : JsNumber :=
  match s.toList with
  | [] => .finite 0
  | '-' :: digits =>
    if digits ≠ [] ∧ digits.all Char.isDigit then .finite (-(Nat.ofDigitChars 10 digits 0 : ℕ))
    else .nan
  | digits => if digits.all Char.isDigit then .finite (Nat.ofDigitChars 10 digits 0 : ℕ) else .nan

theorem wholeNumber_toString (n : ℕ) : wholeNumber (toString n) = .finite n := by
  have hlist : (toString n).toList = Nat.toDigits 10 n := Nat.toList_repr
  have hdigits : ∀ c ∈ Nat.toDigits 10 n, c.isDigit = true :=
    fun c hc => Nat.isDigit_of_mem_toDigits (by decide) (by decide) hc
  have hvalue : Nat.ofDigitChars 10 (Nat.toDigits 10 n) 0 = n := Nat.ofDigitChars_ten_toDigits
  have hne : Nat.toDigits 10 n ≠ [] := Nat.toDigits_ne_nil
  rw [wholeNumber, hlist]
  split
  · rename_i hnil
    exact absurd hnil hne
  · rename_i hminus
    exact absurd (hdigits '-' (hminus ▸ List.mem_cons_self)) (by decide)
  · rw [if_pos (List.all_eq_true.mpr hdigits), hvalue]

theorem wholeNumber_bracket {s : String} (h : '[' ∈ s.toList) : wholeNumber s = .nan := by
  have hnot {digits : List Char} (hmem : '[' ∈ digits) : ¬digits.all Char.isDigit = true :=
    fun hall => absurd (List.all_eq_true.mp hall '[' hmem) (by decide)
  rw [wholeNumber]
  split
  · rename_i hnil
    rw [hnil] at h
    cases h
  · rename_i digits hminus
    rw [hminus] at h
    have hmem : '[' ∈ digits := (List.mem_cons.mp h).resolve_left (by decide)
    exact if_neg fun hall => hnot hmem hall.2
  · exact if_neg (hnot h)

/-- A platform that knows the whole numbers. -/
def wholePlatform : Platform where
  number s := (wholeNumber s).finite?
  numberToString q := if q.den = 1 then toString q.num else ""
  jsonParse _ := none
  base64 raw := raw
  toNumber := wholeNumber
  stringify v := v.text fun q => toString q.num
  now := 0
  number_eq _ := rfl
  numberToString_nat _ _ := rfl
  toNumber_nat n _ := wholeNumber_toString n
  toNumber_bracket _ h := wholeNumber_bracket h

/-- The name of a codec in a message. -/
def Codec.text : Codec → String
  | station => "station"
  | camera => "camera"
  | sensor => "sensor"
  | lock => "lock"
  | keypad => "keypad"
  | vacuum => "vacuum"
  | mower => "mower"
  | light => "light"
  | printer => "printer"
  | display => "display"

/-- The line on a device that a refusal ends in. -/
def describeDevice (ctx : CommandContext) : String :=
  "deviceType=" ++ (ctx.deviceType.map toString).getD "?" ++ " model=" ++ ctx.model.getD "?" ++
    " serial=" ++ ctx.serial.getD "?" ++ " channel=" ++ toString ctx.channel ++
    " codec=" ++ ctx.codec.text

/-! ### Commands -/

inductive ScalarForm
  | auto
  | intString
  | directBinary
  deriving DecidableEq, Repr

/-- A value in a frame: a scalar, or a function or object of the language with its text. -/
inductive FrameValue
  | scalar (v : Scalar)
  | builtin (text : String)
  deriving DecidableEq, Repr

abbrev FrameValue.num (n : JsNumber) : FrameValue := .scalar (.num n)

abbrev FrameValue.nat (n : ℕ) : FrameValue := .num (.finite n)

/-- `String(value)`. -/
def FrameValue.text (numberToString : ℚ → String) : FrameValue → String
  | .scalar v => v.text numberToString
  | .builtin text => text

/-- The commands of `core/contracts.ts` that the modelled members build. -/
inductive Command
  | setParam (param : ℕ) (value : JsNumber) (form : ScalarForm) (channel : ℕ)
  | setJson (param : ℕ) (data : List (String × FrameValue)) (channel : ℕ)
  | setJsonRaw (cmd : ℕ) (data : List (String × FrameValue)) (channel : ℕ)
  | setPayload (cmd : ℕ) (payload : List (String × FrameValue)) (channel : ℕ)
      (mValue3 : Option ℕ) (form : Option ScalarForm)
  | privacyBurst (enabled : Bool) (channel : ℕ)
  | stationScalar (cmd : ℕ) (value : JsNumber) (channel : ℕ)
  | mqttDp (mqttCmdCode cmdCode : ℕ) (fields : List (ℕ × List ℕ))
  | aiotDp (dp : ℕ) (value : Scalar)
  deriving DecidableEq, Repr

def setScalar (param : ℕ) (value : JsNumber) (ctx : CommandContext) (form : ScalarForm) : Command :=
  .setParam param value form ctx.channel

def setJson (param : ℕ) (data : List (String × FrameValue)) (ctx : CommandContext) : Command :=
  .setJson param data ctx.channel

def setJsonRaw (cmd : ℕ) (data : List (String × FrameValue)) (ctx : CommandContext) : Command :=
  .setJsonRaw cmd data ctx.channel

def setPayload (cmd : ℕ) (payload : List (String × FrameValue)) (ctx : CommandContext)
    (mValue3 channel : Option ℕ) (form : Option ScalarForm) : Command :=
  .setPayload cmd payload (channel.getD ctx.channel) mValue3 form

/-- How a write is confirmed: the param that will reflect it, the raw value expected there and what
the property then reads. -/
structure CommandObservation where
  event : String
  param : ℕ
  property : String
  expected : FrameValue
  observed : Option Scalar
  resetStandaloneSession : Bool
  timeoutMs : ℕ

/-! ### Members -/

/-- A further wire id of a member; an absent gate is open. -/
structure ReadAliasDecl where
  paramType : ℕ
  invert : Option Bool := none
  available : CommandContext → Bool := fun _ => true

structure Reflection where
  param : ℕ
  expected : FrameValue
  observed : Option Scalar := none

structure ObservationPolicy where
  event : String
  reflects : Scalar → CommandContext → Option Reflection
  resetStandaloneSession : Bool := false
  timeoutMs : ℕ

/-- Raw value → label, by ascending value. -/
abbrev EnumValues := List (ℕ × String)

/-- `enumLabels` of `core/util.ts`, for an enum that lists its values in ascending order. -/
def enumLabels (enumObj : List (String × ℕ)) : EnumValues := enumObj.map Prod.swap

/-- The property and the param that another member's payload is stored under. -/
structure Owner where
  property : String
  param : ℕ

inductive ReadsFrom
  | sibling (name : String)
  | owner (o : Owner)

/-- A member backed by a device property. Its `write` throws, refuses or gives a command. -/
structure ValueMember where
  param : Option ℕ := none
  property : Option String := none
  type : PropertyValueType
  enumValues : Option EnumValues := none
  enumValuesFor : CommandContext → Option EnumValues := fun _ => none
  invert : Option Bool := none
  write : Option (Scalar → CommandContext → Except String (Option Command)) := none
  observation : Option ObservationPolicy := none
  readAvailable : CommandContext → Bool := fun _ => true
  available : CommandContext → Bool := fun _ => true
  unverified : Bool := false
  readAliases : List ReadAliasDecl := []
  /-- `args[0].values`. -/
  argValues : Option (List Scalar) := none
  min : Option ℚ := none
  max : Option ℚ := none
  realtime : Bool := false
  writeOnly : Bool := false
  unexposed : Bool := false
  coerce : Option (Scalar → {j : Json // j.scalar = true}) := none
  /-- Whether the getter decodes the stored value. -/
  decode : Bool := false
  readsFrom : Option ReadsFrom := none
  decodedValues : Option (List Scalar) := none

/-- The value members of a table, in its order. -/
abbrev Members := List (String × ValueMember)

namespace ValueMember

variable (m : ValueMember)

/-- The name of the member's value among the device's properties. -/
def propertyName (name : String) : String := m.property.getD name

/-- The options for a device, and whether they came from its context. -/
def resolvedEnum (ctx : Option CommandContext) : Option EnumValues × Bool :=
  match ctx.bind m.enumValuesFor with
  | some values => (some values, true)
  | none => (m.enumValues, false)

def openAliases (ctx : Option CommandContext) : List ReadAliasDecl :=
  m.readAliases.filter fun a => ctx.all a.available

def readAlias (a : ReadAliasDecl) : ReadAlias := ⟨a.paramType, a.invert.getD false⟩

/-- The property a member contributes. Where its own id does not carry the value on this device, the
first open alias is promoted to it. -/
def specOf (name : String) (ctx : Option CommandContext) : Option PropertySpec :=
  match m.param with
  | none => none
  | some param =>
    if m.writeOnly || !ctx.all m.available then none
    else
      let spec (paramType : ℕ) (invert : Option Bool) (aliases : List ReadAliasDecl) : PropertySpec :=
        { name := m.propertyName name
          paramType
          type := m.type
          invert := invert.getD false
          decode := m.coerce
          raw := m.decode
          readAliases := aliases.map readAlias }
      match ctx.all m.readAvailable, m.openAliases ctx with
      | true, aliases => some (spec param m.invert aliases)
      | false, promoted :: aliases =>
        some (spec promoted.paramType (promoted.invert.or m.invert) aliases)
      | false, [] => none

/-- Whether the device reported the value: its evidence gate. -/
def reads (ctx : CommandContext) : Bool :=
  m.realtime || (m.readAvailable ctx && m.param.any (· ∈ ctx.paramIds)) ||
    m.readAliases.any fun a => a.available ctx && a.paramType ∈ ctx.paramIds

end ValueMember

def propertiesOf (members : Members) (ctx : Option CommandContext) : List PropertySpec :=
  members.filterMap fun e => e.2.specOf e.1 ctx

/-- The owner of the payload that a member reads a field of. -/
def borrowedBy (m : ValueMember) (members : Members) : Option Owner :=
  match m.readsFrom with
  | none => none
  | some (.owner o) => some o
  | some (.sibling name) =>
    match members.find? fun e => e.1 = name with
    | none => none
    | some (_, owner) => owner.param.map fun param => ⟨owner.propertyName name, param⟩

/-- The property that a member's getter reads, where `bindMembers` installs one. -/
def bindGetter (members : Members) (name : String) (m : ValueMember) (ctx : CommandContext) :
    Option String :=
  let reported := m.available ctx &&
    (m.reads ctx || (borrowedBy m members).any fun owner => owner.param ∈ ctx.paramIds)
  if reported && !m.writeOnly && !m.unexposed then some (m.propertyName name) else none

/-! ### The write path -/

section Write

variable (P : Platform)

def BOOL_VALUES : List Scalar :=
  [.bool true, .bool false, .num (.finite 0), .num (.finite 1), .str "0", .str "1", .str "true",
    .str "false"]

namespace ValueMember

variable (m : ValueMember)

/-- The options that the write accepts. -/
def writeDomain : Option (List Scalar) :=
  m.argValues.or (m.decodedValues.or (m.enumValues.map fun values =>
    values.map fun e => .num (.finite e.1)))

/-- `typeof a === typeof b`. -/
def sameType : Scalar → Scalar → Bool
  | .bool _, .bool _ | .num _, .num _ | .str _, .str _ => true
  | _, _ => false

def belowMin : Scalar → Bool
  | .num n => m.min.any fun min => JsNumber.lt n (.finite min)
  | _ => false

def aboveMax : Scalar → Bool
  | .num n => m.max.any fun max => JsNumber.lt (.finite max) n
  | _ => false

/-- Whether a value falls in the domain that the member publishes. Only options of the value's own
type judge it. -/
def inDomain (value : Scalar) : Bool :=
  match m.type with
  | .bool =>
    BOOL_VALUES.contains <|
      match value with
      | .str s => .str s.toLower
      | v => v
  | _ =>
    if m.belowMin value || m.aboveMax value then false
    else
      match (m.writeDomain.getD []).filter fun v => sameType v value with
      | [] => true
      -- `includes` finds NaN, but no domain has it
      | domain => domain.contains value

/-- Why a value was refused, naming the options or the bounds. -/
def rejection (name : String) (value : Scalar) : String :=
  let number (q : ℚ) := P.numberToString q
  let domain :=
    match m.writeDomain, m.min, m.max with
    | some (v :: vs), _, _ =>
      some ("one of " ++ "/".intercalate ((v :: vs).map (Scalar.text P.numberToString)))
    | _, some min, some max => some ("in " ++ number min ++ ".." ++ number max)
    | _, some min, none => some (">= " ++ number min)
    | _, none, _ => none
  name ++ ": " ++ P.stringify value ++ " is not a valid value" ++
    (domain.elim "" fun d => " (must be " ++ d ++ ")")

/-- A member's wire for a value with what is observed of it, or the reason it will not. -/
def memberWrite (name : String) (value : Scalar) (ctx : CommandContext) :
    Except String (Command × Option CommandObservation) :=
  if !m.inDomain value then .error (m.rejection P name value)
  else
    match m.write with
    | none => .error (m.rejection P name value)
    | some write =>
      match write value ctx with
      | .error e => .error e
      | .ok none => .error (m.rejection P name value)
      | .ok (some cmd) =>
        .ok (cmd, m.observation.bind fun policy => (policy.reflects value ctx).map fun reflected =>
          { event := policy.event
            expected := reflected.expected
            observed := reflected.observed
            param := reflected.param
            property := m.propertyName name
            resetStandaloneSession := policy.resetStandaloneSession
            timeoutMs := policy.timeoutMs })

variable {P}

/-- What is observed of an accepted write is what the member's policy reflects. -/
theorem memberWrite_eq_ok {m : ValueMember} {name : String} {value : Scalar} {ctx : CommandContext}
    {cmd : Command} {obs : Option CommandObservation}
    (h : m.memberWrite P name value ctx = .ok (cmd, obs)) :
    m.inDomain value = true ∧
      (∃ write, m.write = some write ∧ write value ctx = .ok (some cmd)) ∧
      obs = m.observation.bind fun policy => (policy.reflects value ctx).map fun reflected =>
        { event := policy.event
          expected := reflected.expected
          observed := reflected.observed
          param := reflected.param
          property := m.propertyName name
          resetStandaloneSession := policy.resetStandaloneSession
          timeoutMs := policy.timeoutMs } := by
  rw [ValueMember.memberWrite] at h
  split_ifs at h with hdomain
  cases hwrite : m.write with
  | none =>
    rw [hwrite] at h
    cases h
  | some write =>
    rw [hwrite] at h
    dsimp only at h
    cases hresult : write value ctx with
    | error e =>
      rw [hresult] at h
      cases h
    | ok result =>
      rw [hresult] at h
      cases result with
      | none => cases h
      | some built =>
        cases h
        exact ⟨by simpa using hdomain, ⟨write, rfl, hresult⟩, rfl⟩

/-- The commands that a write gives: what the member's own write builds of a value in the domain. -/
theorem exists_memberWrite_iff {m : ValueMember} {name : String} {value : Scalar}
    {ctx : CommandContext} {cmd : Command} :
    (∃ obs, m.memberWrite P name value ctx = .ok (cmd, obs)) ↔
      m.inDomain value = true ∧ ∃ write, m.write = some write ∧ write value ctx = .ok (some cmd) := by
  constructor
  · rintro ⟨obs, h⟩
    have ⟨hdomain, hwrite, _⟩ := memberWrite_eq_ok h
    exact ⟨hdomain, hwrite⟩
  · rintro ⟨hdomain, write, hwrite, hcmd⟩
    rw [memberWrite, hdomain, hwrite]
    simp only [Bool.not_true, Bool.false_eq_true, if_false, hcmd]
    exact ⟨_, rfl⟩

end ValueMember

end Write

end EufySdk.Capabilities
