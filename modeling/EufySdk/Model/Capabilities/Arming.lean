import Mathlib.Tactic
import EufySdk.Model.Capabilities.Members

/-!
# `arming`

The guard mode of `model/capabilities/arming.ts`: nine modes a station may report, three of which can
be set, each by its name or by its wire integer.
-/

namespace EufySdk.Capabilities.Arming

def SET_ARMING : ℕ := 1224

/-- The modes that can be set. -/
def ArmingMode : List String := ["away", "home", "disarmed"]

/-- The modes a station may report, with their wire integers. -/
def ARMING_MODE_WIRE : List (String × ℕ) :=
  [("away", 0), ("home", 1), ("schedule", 2), ("custom1", 3), ("custom2", 4), ("custom3", 5),
    ("off", 6), ("geo", 47), ("disarmed", 63)]

def ARMING_MODE_LABELS : EnumValues := enumLabels ARMING_MODE_WIRE

/-- `String(f)` of a function of the language. -/
def nativeCode (name : String) : String := "function " ++ name ++ "() \x7b [native code] \x7d"

/-- The names that every object finds on its prototype, each with the text of what it finds. -/
def OBJECT_PROTOTYPE : List (String × String) :=
  [("constructor", nativeCode "Object"), ("__proto__", "[object Object]")] ++
    ["__defineGetter__", "__defineSetter__", "__lookupGetter__", "__lookupSetter__",
      "hasOwnProperty", "isPrototypeOf", "propertyIsEnumerable", "toLocaleString", "toString",
      "valueOf"].map fun name => (name, nativeCode name)

theorem bracket_nativeCode (name : String) : '[' ∈ (nativeCode name).toList := by
  simp [nativeCode]

theorem bracket_of_inherited {e : String × String} (he : e ∈ OBJECT_PROTOTYPE) :
    '[' ∈ e.2.toList := by
  rcases List.mem_append.mp he with hown | hfunction
  · rcases List.mem_pair.mp hown with rfl | rfl
    · exact bracket_nativeCode "Object"
    · simp
  · obtain ⟨name, -, rfl⟩ := List.mem_map.mp hfunction
    exact bracket_nativeCode name

/-- `ARMING_MODE_WIRE[mode]`. -/
def modeWire (mode : String) : FrameValue :=
  match ARMING_MODE_WIRE.find? fun e => e.1 = mode with
  | some (_, n) => .nat n
  | none =>
    match OBJECT_PROTOTYPE.find? fun e => e.1 = mode with
    | some (_, text) => .builtin text
    | none => .builtin "undefined"

def SETTABLE_MODES : List ℕ := [0, 1, 63]

section Mode

variable (P : Platform)

/-- The mode that a name or a wire integer stands for. A name counts if `ArmingMode` has it, on its
prototype included. -/
def armingModeOf (v : Scalar) : Option String :=
  let name := v.text P.numberToString
  if name ∈ ArmingMode ++ OBJECT_PROTOTYPE.map Prod.fst then some name
  else
    ArmingMode.find? fun m => modeWire m = .num (P.numberOf v)

def armingCommand (mode : String) (ctx : CommandContext) : Except String Command :=
  match ctx.accountName with
  | none | some "" =>
    .error ("arming: missing account identity (user_name) [" ++ describeDevice ctx ++ "]")
  | some accountName =>
    .ok (setPayload SET_ARMING
      [("mode_type", modeWire mode), ("user_name", .scalar (.str accountName))] ctx (some 0) none
      none)

def mode : ValueMember where
  param := some SET_ARMING
  property := some "armingMode"
  type := .enum
  enumValues := some ARMING_MODE_LABELS
  argValues := some (SETTABLE_MODES.map fun n : ℕ => .num (.finite n))
  observation := some
    { event := "armingModeChanged"
      reflects := fun value _ =>
        some { param := SET_ARMING, expected := modeWire ((armingModeOf P value).getD "undefined") }
      resetStandaloneSession := true
      timeoutMs := 20000 }
  write := some fun v ctx =>
    match armingModeOf P v with
    | some mode => (armingCommand mode ctx).map some
    | none => .ok none

def ARMING_MEMBERS : Members := [("mode", mode P)]

/-- A mode is sent in the name of the account. -/
theorem armingCommand_eq_ok {mode : String} {ctx : CommandContext} {cmd : Command} :
    armingCommand mode ctx = .ok cmd ↔ ∃ name, ctx.accountName = some name ∧ name ≠ "" ∧
      setPayload SET_ARMING
        [("mode_type", modeWire mode), ("user_name", .scalar (.str name))] ctx (some 0) none none =
          cmd := by
  rw [armingCommand.eq_def]
  split
  · rename_i hnone
    simp [hnone]
  · rename_i hempty
    simp [hempty]
  · rename_i name hne hname
    simp [hname, show name ≠ "" from hne]

variable {P}

/-- What a mode stands for is the wire integer of one that can be set, or something found on the
prototype. -/
theorem modeWire_of_armingModeOf {v : Scalar} {m : String} (h : armingModeOf P v = some m) :
    (∃ n ∈ SETTABLE_MODES, modeWire m = .nat n) ∨
      ∃ e ∈ OBJECT_PROTOTYPE, e.1 = m ∧ modeWire m = .builtin e.2 := by
  have hsettable : ∀ m ∈ ArmingMode, ∃ n ∈ SETTABLE_MODES, modeWire m = .nat n := by decide
  have hprototype : ∀ e ∈ OBJECT_PROTOTYPE, modeWire e.1 = .builtin e.2 := by decide
  rw [armingModeOf] at h
  split_ifs at h with hname
  · obtain rfl := Option.some.inj h
    rcases List.mem_append.mp hname with hown | hinherited
    · exact .inl (hsettable _ hown)
    · obtain ⟨e, he, hm⟩ := List.mem_map.mp hinherited
      exact .inr ⟨e, he, hm, hm ▸ hprototype e he⟩
  · exact .inl (hsettable m (List.mem_of_find?_eq_some h))

/-- A write that gives a command is of a mode, for an account that has a name. -/
theorem mode_write {write : Scalar → CommandContext → Except String (Option Command)}
    (hwrite : (mode P).write = some write) {v : Scalar} {ctx : CommandContext} {cmd : Command}
    (h : write v ctx = .ok (some cmd)) :
    ∃ m, armingModeOf P v = some m ∧ armingCommand m ctx = .ok cmd := by
  obtain rfl := Option.some.inj hwrite
  dsimp only at h
  cases hm : armingModeOf P v with
  | none =>
    rw [hm] at h
    cases h
  | some m =>
    rw [hm] at h
    dsimp only at h
    cases hbuilt : armingCommand m ctx with
    | error e =>
      rw [hbuilt] at h
      cases h
    | ok built =>
      rw [hbuilt] at h
      cases h
      exact ⟨m, rfl, hbuilt⟩

end Mode

end EufySdk.Capabilities.Arming
