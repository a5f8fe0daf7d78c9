import Mathlib.Tactic
import EufySdk.Transport.Ff09
import EufySdk.Transport.Ff09AutolockSet

/-!
# The commands a lock is sent

The builders of `transport/ff09.ts` for every command: lock and unlock, the settings GET, the
settings SET and the single-setting SET, each an opcode and some fields in the same outer frame. What
a lock makes of a frame is read from its opcode and its fields alone.

- `buildFf09Frame`, `buildFf09QueryFrame`, `buildFf09SettingToggleFrame`
- `LockRequest`, `readRequest` — what a frame asks of a lock
- `build_iff_readRequest` — when a command is built, and that it asks for itself
-/

namespace EufySdk.Ff09

open Bytes

namespace LOCK_API_COMMAND

def ON_OFF_LOCK : ℕ := 6018

def GET_SETTINGS : ℕ := 6016

end LOCK_API_COMMAND

namespace LOCK_COMMAND_CODE

def ON_OFF_LOCK : ℕ := 35

def GET_SETTINGS : ℕ := 53

end LOCK_COMMAND_CODE

/-- What a builder throws: an error of the frame, or one of the user it is attributed to. -/
inductive Ff09BuildError
  | frame (e : Ff09Error)
  | userRequired
  | shortUserIdNotHex (shortUserId : List Char)
  deriving DecidableEq, Repr

def Ff09BuildError.message (jsonStringify : String → String) : Ff09BuildError → String
  | frame e => e.message
  | userRequired => "ff09: username + shortUserId are required unless omitUserFields is set"
  | shortUserIdNotHex s =>
    "ff09: shortUserId must be an even-length hex string, got " ++ jsonStringify (String.ofList s)

structure Ff09FrameInput where
  engage : Bool
  adminUserId : Units
  username : Option Units := none
  shortUserId : Option (List Char) := none
  omitUserFields : Bool := false
  deviceSn : Units

/-- `/^([0-9a-fA-F]{2})+$/`. -/
def isHexPairs (s : List Char) : Bool :=
  s ≠ [] && s.length % 2 = 0 && s.all fun c => (Hex.value? c).isSome

/-- The fields that attribute a command to a user. -/
def userFields (input : Ff09FrameInput) : Except Ff09BuildError (List Buffer) :=
  if input.omitUserFields then .ok []
  else
    match input.username.filter (· ≠ []), input.shortUserId.filter (· ≠ []) with
    | some username, some shortUserId =>
      if isHexPairs shortUserId then .ok [ascii username, Hex.decode shortUserId]
      else .error (.shortUserIdNotHex shortUserId)
    | _, _ => .error .userRequired

/-- The frame that locks or unlocks: its direction is the byte behind the user id. -/
def buildFf09Frame (C : Cipher) (input : Ff09FrameInput) (unixTime nonce : ℕ) :
    Except Ff09BuildError Ff09Frame := do
  let stamps ←
    (resolveFf09Identity input.adminUserId input.deviceSn unixTime nonce).mapError .frame
  let user ← userFields input
  (frameOf C LOCK_COMMAND_CODE.ON_OFF_LOCK LOCK_API_COMMAND.ON_OFF_LOCK input.adminUserId
    input.deviceSn stamps
    ([uint32LE stamps.unixTime, ascii input.adminUserId, [if input.engage then 0 else 1]] ++
      user)).mapError .frame

def buildFf09QueryFrame (C : Cipher) (adminUserId deviceSn : Units) (unixTime nonce : ℕ) :
    Except Ff09Error Ff09Frame := do
  let stamps ← resolveFf09Identity adminUserId deviceSn unixTime nonce
  frameOf C LOCK_COMMAND_CODE.GET_SETTINGS LOCK_API_COMMAND.GET_SETTINGS adminUserId deviceSn stamps
    [uint32LE stamps.unixTime, ascii adminUserId]

structure Ff09SettingToggleFrameInput where
  adminUserId : Units
  deviceSn : Units
  settingId : ℕ
  value : Bool

def buildFf09SettingToggleFrame (C : Cipher) (input : Ff09SettingToggleFrameInput)
    (unixTime nonce : ℕ) : Except Ff09Error Ff09Frame := do
  let stamps ← resolveFf09Identity input.adminUserId input.deviceSn unixTime nonce
  frameOf C LOCK_COMMAND_CODE.SET_SETTINGS LOCK_API_COMMAND.SET_SETTINGS input.adminUserId
    input.deviceSn stamps
    [uint32LE stamps.unixTime, ascii input.adminUserId, [UInt8.ofNat input.settingId],
      [if input.value then 1 else 0]]

/-! ## What a frame asks of a lock -/

inductive LockRequest
  /-- With the name and the short id of the user it is attributed to. -/
  | onOff (engage : Bool) (user : Option (Buffer × Buffer))
  | getSettings
  | setSettings (autoLockEnabled : Bool) (autoLockDelaySeconds a7 a8 : ℕ)
  | setSetting (settingId : ℕ) (value : Bool)
  deriving DecidableEq, Repr

/-- The opcode of a frame, which is in clear. -/
def opcode (frame : Ff09Frame) : ℕ := readUIntBE (Buf.subarray (Hex.decode frame.lockPayload) 7 9)

/-- What the fields behind an opcode ask for. A SET of all settings has a delay, one of a single
setting has none. -/
def requestOf (cmdEnc : ℕ) (fields : List (UInt8 × Buffer)) : Except Ff09Error LockRequest :=
  let field := OrderedMap.get fields
  if cmdEnc = 0x4000 ||| LOCK_COMMAND_CODE.ON_OFF_LOCK then do
    let direction ← readFf09U8 (field 0xa3) "A3"
    return .onOff (direction = 0) ((field 0xa4).bind fun name => (field 0xa5).map (name, ·))
  else if cmdEnc = 0x4000 ||| LOCK_COMMAND_CODE.GET_SETTINGS then .ok .getSettings
  else if (field 0xa5).isSome then do
    let enabled ← readFf09U8 (field 0xa4) "A4"
    let delay ← readFf09U16LE (field 0xa5) "A5"
    let a7 ← readFf09U16LE (field 0xa7) "A7"
    let a8 ← readFf09U16LE (field 0xa8) "A8"
    return .setSettings (enabled ≠ 0) delay a7 a8
  else do
    let settingId ← readFf09U8 (field 0xa3) "A3"
    let value ← readFf09U8 (field 0xa4) "A4"
    return .setSetting settingId (value ≠ 0)

/-- A frame as a lock reads it: when it was sent, for whom, and what it asks for. -/
structure ReadRequest where
  unixTime : Buffer
  adminUserId : Buffer
  request : LockRequest
  deriving DecidableEq, Repr

def readRequest (C : Cipher) (frame : Ff09Frame) (adminUserId deviceSn : Units) :
    Except Ff09Error ReadRequest := do
  let fields ← parseCommand C frame adminUserId deviceSn
  let request ← requestOf (opcode frame) fields
  return ⟨((OrderedMap.get fields 0xa1).getD []), ((OrderedMap.get fields 0xa2).getD []), request⟩

/-! ## The commands -/

/-- A command, by what its builder is given. -/
inductive LockCommand
  | onOff (engage : Bool) (user : Option (Units × List Char))
  | getSettings
  | setSettings (autoLockEnabled : Bool) (autoLockDelaySeconds a7 a8 : ℕ)
  | setSetting (settingId : ℕ) (value : Bool)

namespace LockCommand

def build (C : Cipher) (adminUserId deviceSn : Units) (unixTime nonce : ℕ) :
    LockCommand → Except Ff09BuildError Ff09Frame
  | onOff engage user =>
    buildFf09Frame C
      { engage, adminUserId, deviceSn, username := user.map Prod.fst
        shortUserId := user.map Prod.snd, omitUserFields := user.isNone } unixTime nonce
  | getSettings => (buildFf09QueryFrame C adminUserId deviceSn unixTime nonce).mapError .frame
  | setSettings autoLockEnabled autoLockDelaySeconds a7 a8 =>
    (buildFf09SettingsFrame C
      { adminUserId, deviceSn, autoLockEnabled, autoLockDelaySeconds, a7, a8 } unixTime
      nonce).mapError .frame
  | setSetting settingId value =>
    (buildFf09SettingToggleFrame C { adminUserId, deviceSn, settingId, value } unixTime
      nonce).mapError .frame

/-- What a command asks for, numbers by as many bytes as the frame has for them. -/
def asks : LockCommand → LockRequest
  | onOff engage user => .onOff engage (user.map fun u => (ascii u.1, Hex.decode u.2))
  | getSettings => .getSettings
  | setSettings autoLockEnabled delay a7 a8 =>
    .setSettings autoLockEnabled (delay % 65536) (a7 % 65536) (a8 % 65536)
  | setSetting settingId value => .setSetting (settingId % 256) value

def user : LockCommand → Option (Units × List Char)
  | onOff _ user => user
  | _ => none

/-- A command that can be built: its ids are long enough for a key, and fit the fields. -/
structure Buildable (adminUserId deviceSn : Units) (cmd : LockCommand) : Prop where
  identified : Identified adminUserId deviceSn
  short : adminUserId.length ≤ 255
  user : ∀ u ∈ cmd.user, u.1 ≠ [] ∧ u.1.length ≤ 255 ∧ isHexPairs u.2 = true ∧ u.2.length ≤ 510

def code : LockCommand → ℕ
  | onOff _ _ => LOCK_COMMAND_CODE.ON_OFF_LOCK
  | getSettings => LOCK_COMMAND_CODE.GET_SETTINGS
  | setSettings _ _ _ _ => LOCK_COMMAND_CODE.SET_SETTINGS
  | setSetting _ _ => LOCK_COMMAND_CODE.SET_SETTINGS

def api : LockCommand → ℕ
  | onOff _ _ => LOCK_API_COMMAND.ON_OFF_LOCK
  | getSettings => LOCK_API_COMMAND.GET_SETTINGS
  | setSettings _ _ _ _ => LOCK_API_COMMAND.SET_SETTINGS
  | setSetting _ _ => LOCK_API_COMMAND.SET_SETTINGS

/-- The fields behind the time and the user id. -/
def ownFields : LockCommand → List Buffer
  | onOff engage user =>
    [if engage then 0 else 1] :: (user.map fun u => [ascii u.1, Hex.decode u.2]).getD []
  | getSettings => []
  | setSettings autoLockEnabled delay a7 a8 =>
    [[0x00], [if autoLockEnabled then 1 else 0], uint16LE delay, [0x00], uint16LE a7, uint16LE a8,
      [0x00]]
  | setSetting settingId value => [[UInt8.ofNat settingId], [if value then 1 else 0]]

def fields (cmd : LockCommand) (adminUserId : Units) (unixTime : ℕ) : List Buffer :=
  uint32LE unixTime :: ascii adminUserId :: cmd.ownFields

end LockCommand

section

variable {C : Cipher} {adminUserId deviceSn : Units} {unixTime nonce : ℕ} {frame : Ff09Frame}
  {cmd : LockCommand}

theorem mapError_eq_ok {ε ε' α : Type} {x : Except ε α} {f : ε → ε'} {a : α} :
    x.mapError f = .ok a ↔ x = .ok a := by
  cases x with
  | error e => exact ⟨nofun, nofun⟩
  | ok b => exact ⟨fun h => congrArg _ (Except.ok.inj h), fun h => congrArg _ (Except.ok.inj h)⟩

theorem length_decode_hexPairs {s : List Char} (h : isHexPairs s = true) :
    (Hex.decode s).length = s.length / 2 := by
  simp only [isHexPairs, Bool.and_eq_true, decide_eq_true_eq, List.all_eq_true] at h
  obtain ⟨⟨-, heven⟩, hclean⟩ := h
  have hlength := congrArg List.length (Hex.encode_decode heven hclean)
  rw [Hex.length_encode, List.length_map] at hlength
  omega

/-- The user of a command, where there is one, is checked and named. -/
theorem userFields_eq_ok {engage : Bool} {user : Option (Units × List Char)} {out : List Buffer} :
    userFields
      { engage, adminUserId, deviceSn, username := user.map Prod.fst
        shortUserId := user.map Prod.snd, omitUserFields := user.isNone } = .ok out ↔
      (∀ u ∈ user, u.1 ≠ [] ∧ isHexPairs u.2 = true) ∧
        out = (user.map fun u => [ascii u.1, Hex.decode u.2]).getD [] := by
  cases user with
  | none =>
    change (Except.ok [] : Except Ff09BuildError (List Buffer)) = .ok out ↔ _
    exact ⟨fun h => ⟨nofun, (Except.ok.inj h).symm⟩, fun h => congrArg _ h.2.symm⟩
  | some u =>
    obtain ⟨name, short⟩ := u
    simp only [userFields, Option.isNone_some, Bool.false_eq_true, if_false, Option.map_some,
      Option.mem_def, Option.some.injEq, forall_eq', Option.getD_some]
    by_cases hname : name = []
    · rw [Option.filter_some_neg (by simp [hname])]
      exact ⟨nofun, fun h => absurd hname h.1.1⟩
    · rw [Option.filter_some_pos (by simp [hname])]
      by_cases hshort : short = []
      · rw [Option.filter_some_neg (by simp [hshort])]
        refine ⟨nofun, fun h => ?_⟩
        have hpairs := h.1.2
        rw [hshort] at hpairs
        cases hpairs
      · rw [Option.filter_some_pos (by simp [hshort])]
        dsimp only
        split
        · rename_i hpairs
          exact ⟨fun h => ⟨⟨hname, hpairs⟩, (Except.ok.inj h).symm⟩, fun h => congrArg _ h.2.symm⟩
        · rename_i hpairs
          exact ⟨nofun, fun h => absurd h.1.2 hpairs⟩

/-- What is stamped at a time and with a nonce. -/
def stampsAt (unixTime nonce : ℕ) : Stamps :=
  ⟨unixTime % 2 ^ 32, (unixTime % 2 ^ 32 ||| nonce) % 2 ^ 32, unixTime % 2 ^ 32⟩

theorem resolve_bind_eq_ok {β : Type} {f : Stamps → Except Ff09Error β} {b : β} :
    (resolveFf09Identity adminUserId deviceSn unixTime nonce >>= f) = .ok b ↔
      Identified adminUserId deviceSn ∧ f (stampsAt unixTime nonce) = .ok b := by
  rw [bind_eq_ok]
  constructor
  · rintro ⟨stamps, hstamps, hf⟩
    obtain ⟨hid, rfl⟩ := resolve_eq_ok.mp hstamps
    exact ⟨hid, hf⟩
  · rintro ⟨hid, hf⟩
    exact ⟨_, resolve_eq_ok.mpr ⟨hid, rfl⟩, hf⟩

/-- Every command is the frame of its fields. -/
theorem build_eq_ok :
    cmd.build C adminUserId deviceSn unixTime nonce = .ok frame ↔
      Identified adminUserId deviceSn ∧ (∀ u ∈ cmd.user, u.1 ≠ [] ∧ isHexPairs u.2 = true) ∧
        frameOf C cmd.code cmd.api adminUserId deviceSn (stampsAt unixTime nonce)
          (cmd.fields adminUserId (unixTime % 2 ^ 32)) = .ok frame := by
  have hnone : ∀ u ∈ (none : Option (Units × List Char)), u.1 ≠ [] ∧ isHexPairs u.2 = true := nofun
  cases cmd with
  | onOff engage user =>
    rw [LockCommand.build, buildFf09Frame, bind_eq_ok]
    constructor
    · rintro ⟨stamps, hstamps, h⟩
      obtain ⟨hid, rfl⟩ := resolve_eq_ok.mp (mapError_eq_ok.mp hstamps)
      obtain ⟨out, hout, h⟩ := bind_eq_ok.mp h
      obtain ⟨huser, rfl⟩ := userFields_eq_ok.mp hout
      exact ⟨hid, huser, mapError_eq_ok.mp h⟩
    · rintro ⟨hid, huser, h⟩
      exact ⟨_, mapError_eq_ok.mpr (resolve_eq_ok.mpr ⟨hid, rfl⟩),
        bind_eq_ok.mpr ⟨_, userFields_eq_ok.mpr ⟨huser, rfl⟩, mapError_eq_ok.mpr h⟩⟩
  | getSettings =>
    rw [LockCommand.build, mapError_eq_ok, buildFf09QueryFrame, resolve_bind_eq_ok]
    exact and_congr_right fun _ => (and_iff_right hnone).symm
  | setSettings autoLockEnabled delay a7 a8 =>
    rw [LockCommand.build, mapError_eq_ok, buildFf09SettingsFrame, resolve_bind_eq_ok]
    exact and_congr_right fun _ => (and_iff_right hnone).symm
  | setSetting settingId value =>
    rw [LockCommand.build, mapError_eq_ok, buildFf09SettingToggleFrame, resolve_bind_eq_ok]
    exact and_congr_right fun _ => (and_iff_right hnone).symm

theorem frameOf_isOk {commandCode apiCommand : ℕ} {stamps : Stamps} {fields : List Buffer} :
    (∃ frame, frameOf C commandCode apiCommand adminUserId deviceSn stamps fields = .ok frame) ↔
      ∀ f ∈ fields, f.length ≤ 255 := by
  rw [← writeTlvFrom_isOk 0xa1, frameOf, writeTlv]
  cases writeTlvFrom 0xa1 fields with
  | error e =>
    constructor
    · rintro ⟨frame, hframe⟩
      cases hframe
    · rintro ⟨tlv, htlv⟩
      cases htlv
  | ok tlv =>
    constructor
    · intro
      exact ⟨tlv, rfl⟩
    · intro
      exact ⟨_, rfl⟩

theorem fields_fit (cmd : LockCommand) (adminUserId : Units) (unixTime : ℕ) :
    (∀ f ∈ cmd.fields adminUserId unixTime, f.length ≤ 255) ↔
      adminUserId.length ≤ 255 ∧
        ∀ u ∈ cmd.user, u.1.length ≤ 255 ∧ (Hex.decode u.2).length ≤ 255 := by
  cases cmd with
  | onOff engage user =>
    cases user with
    | none => simp [LockCommand.fields, LockCommand.ownFields, LockCommand.user, ascii]
    | some u => simp [LockCommand.fields, LockCommand.ownFields, LockCommand.user, ascii]
  | getSettings => simp [LockCommand.fields, LockCommand.ownFields, LockCommand.user, ascii]
  | setSettings autoLockEnabled delay a7 a8 =>
    simp [LockCommand.fields, LockCommand.ownFields, LockCommand.user, ascii]
  | setSetting settingId value =>
    simp [LockCommand.fields, LockCommand.ownFields, LockCommand.user, ascii]

theorem build_isOk :
    (∃ frame, cmd.build C adminUserId deviceSn unixTime nonce = .ok frame) ↔
      cmd.Buildable adminUserId deviceSn := by
  constructor
  · rintro ⟨frame, hframe⟩
    obtain ⟨hid, huser, hbuilt⟩ := build_eq_ok.mp hframe
    obtain ⟨hshort, hfits⟩ := (fields_fit _ _ _).mp (frameOf_isOk.mp ⟨frame, hbuilt⟩)
    refine ⟨hid, hshort, fun u hu => ?_⟩
    obtain ⟨hname, hpairs⟩ := huser u hu
    obtain ⟨hnamed, hdecoded⟩ := hfits u hu
    rw [length_decode_hexPairs hpairs] at hdecoded
    simp only [isHexPairs, Bool.and_eq_true, decide_eq_true_eq] at hpairs
    exact ⟨hname, hnamed, by simpa [isHexPairs] using hpairs, by omega⟩
  · intro h
    have hfits : ∀ f ∈ cmd.fields adminUserId (unixTime % 2 ^ 32), f.length ≤ 255 := by
      refine (fields_fit _ _ _).mpr ⟨h.short, fun u hu => ?_⟩
      obtain ⟨-, hnamed, hpairs, hlength⟩ := h.user u hu
      rw [length_decode_hexPairs hpairs]
      exact ⟨hnamed, by omega⟩
    obtain ⟨frame, hframe⟩ := frameOf_isOk.mpr hfits
    exact ⟨frame, build_eq_ok.mpr ⟨h.identified, fun u hu => ⟨(h.user u hu).1, (h.user u hu).2.2.1⟩,
      hframe⟩⟩

theorem opcode_frameOf {commandCode apiCommand : ℕ} {stamps : Stamps} {fields : List Buffer}
    (hcode : 0x4000 ||| commandCode < 65536)
    (hframe : frameOf C commandCode apiCommand adminUserId deviceSn stamps fields = .ok frame) :
    opcode frame = 0x4000 ||| commandCode := by
  rw [frameOf] at hframe
  cases htlv : writeTlv fields with
  | error e =>
    rw [htlv] at hframe
    cases hframe
  | ok tlv =>
    rw [htlv] at hframe
    obtain rfl := Except.ok.inj hframe
    simp only [opcode, assembleFf09Frame, Hex.decode_encode]
    exact readUIntBE_uint16BE hcode

/-- The fields of a command are read as what it asks for, behind those that all of them have. -/
theorem requestOf_ownFields (cmd : LockCommand) (time user : Buffer) :
    requestOf (0x4000 ||| cmd.code)
      (fieldMap (Tlv.tagged 0xa1 (time :: user :: cmd.ownFields))) = .ok cmd.asks := by
  cases cmd with
  | onOff engage user =>
    cases user with
    | none => cases engage <;> rfl
    | some u =>
      have hread (direction : UInt8) (name short : Buffer) :
          requestOf (0x4000 ||| 35)
            (fieldMap (Tlv.tagged 0xa1 [time, user, [direction], name, short])) =
              .ok (.onOff (direction.toNat = 0) (some (name, short))) := rfl
      cases engage with
      | false => exact hread 1 _ _
      | true => exact hread 0 _ _
  | getSettings => rfl
  | setSettings autoLockEnabled delay a7 a8 =>
    have hread (flag : UInt8) :
        requestOf (0x4000 ||| 52) (fieldMap (Tlv.tagged 0xa1
          [time, user, [0x00], [flag], uint16LE delay, [0x00], uint16LE a7, uint16LE a8, [0x00]])) =
            .ok (.setSettings (flag.toNat ≠ 0) (readUIntLE (uint16LE delay))
              (readUIntLE (uint16LE a7)) (readUIntLE (uint16LE a8))) := rfl
    simp only [readUIntLE_uint16LE_mod] at hread
    cases autoLockEnabled with
    | false => exact hread 0
    | true => exact hread 1
  | setSetting settingId value =>
    have hread (flag : UInt8) :
        requestOf (0x4000 ||| 52)
          (fieldMap (Tlv.tagged 0xa1 [time, user, [UInt8.ofNat settingId], [flag]])) =
            .ok (.setSetting (UInt8.ofNat settingId).toNat (flag.toNat ≠ 0)) := rfl
    rw [UInt8.toNat_ofNat'] at hread
    cases value with
    | false => exact hread 0
    | true => exact hread 1

theorem get_ownFields (cmd : LockCommand) (time user : Buffer) :
    OrderedMap.get (fieldMap (Tlv.tagged 0xa1 (time :: user :: cmd.ownFields))) 0xa1 = some time ∧
      OrderedMap.get (fieldMap (Tlv.tagged 0xa1 (time :: user :: cmd.ownFields))) 0xa2 =
        some user := by
  cases cmd with
  | onOff engage user => cases user <;> exact ⟨rfl, rfl⟩
  | getSettings => exact ⟨rfl, rfl⟩
  | setSettings autoLockEnabled delay a7 a8 => exact ⟨rfl, rfl⟩
  | setSetting settingId value => exact ⟨rfl, rfl⟩

theorem code_lt (cmd : LockCommand) : 0x4000 ||| cmd.code < 65536 := by
  cases cmd with
  | onOff engage user => exact (by decide : 0x4000 ||| 35 < 65536)
  | getSettings => exact (by decide : 0x4000 ||| 53 < 65536)
  | setSettings autoLockEnabled delay a7 a8 => exact (by decide : 0x4000 ||| 52 < 65536)
  | setSetting settingId value => exact (by decide : 0x4000 ||| 52 < 65536)

/-- A command that is built asks for itself. -/
theorem readRequest_build (hC : C.Inverts)
    (hframe : cmd.build C adminUserId deviceSn unixTime nonce = .ok frame) :
    readRequest C frame adminUserId deviceSn =
      .ok ⟨uint32LE (unixTime % 2 ^ 32), ascii adminUserId, cmd.asks⟩ := by
  obtain ⟨hid, -, hbuilt⟩ := build_eq_ok.mp hframe
  have hfits := frameOf_isOk.mp ⟨frame, hbuilt⟩
  have hcount : (cmd.fields adminUserId (unixTime % 2 ^ 32)).length ≤ 90 := by
    cases cmd with
    | onOff engage user => cases user <;> exact Nat.le_of_ble_eq_true rfl
    | getSettings => exact Nat.le_of_ble_eq_true rfl
    | setSettings autoLockEnabled delay a7 a8 => exact Nat.le_of_ble_eq_true rfl
    | setSetting settingId value => exact Nat.le_of_ble_eq_true rfl
  have hopcode := opcode_frameOf (code_lt cmd) hbuilt
  obtain ⟨htime, huser⟩ :=
    get_ownFields cmd (uint32LE (unixTime % 2 ^ 32)) (ascii adminUserId)
  rw [readRequest, parseCommand_frameOf hC hid hfits hcount hbuilt, ok_bind, hopcode,
    LockCommand.fields, requestOf_ownFields, ok_bind, htime, huser]
  rfl

end

/-! ### An unlock -/

/-- `ana`, whose short id is `0003`, unlocks. -/
def unlock : LockCommand := .onOff false (some ([0x61, 0x6e, 0x61], ['0', '0', '0', '3']))

/-- The cipher of `aes-128-cbc` at the unlock. -/
def unlockUses : List CipherUse :=
  [⟨frameKey sampleUserId 1700000011, frameIv sampleSn,
    zeroPadToBlock (Tlv.writeFields (Tlv.tagged 0xa1 (unlock.fields sampleUserId 1700000010))), [
    0xf0, 0xfc, 0x53, 0x2c, 0x89, 0xc4, 0x7d, 0x88, 0x39, 0x68, 0xe3, 0x0b, 0xba, 0x74, 0xd8, 0x39,
    0xd5, 0x3a, 0xc7, 0xc0, 0x27, 0x40, 0x5f, 0xb1, 0xad, 0x7a, 0xe2, 0x39, 0x3e, 0x78, 0x77, 0x81,
    0x8b, 0x1e, 0xac, 0xe1, 0x53, 0x24, 0x16, 0xe7, 0xd3, 0x01, 0xe3, 0xdc, 0x3e, 0x44, 0x55, 0x71,
    0x99, 0x92, 0x2e, 0x76, 0x3c, 0x0a, 0x44, 0x98, 0x34, 0x72, 0x5f, 0x39, 0x5e, 0x64, 0xda, 0x1c,
    0x50, 0x75, 0x96, 0x9c, 0xb9, 0x9d, 0xe3, 0x11, 0x88, 0xb6, 0xc8, 0x1d, 0x10, 0xae, 0xa4, 0x16]⟩]

theorem consistent_unlockUses : Consistent unlockUses where
  unique := by decide +kernel
  unlike := by decide +kernel
  length := by decide +kernel

theorem buildable_unlock : unlock.Buildable sampleUserId sampleSn where
  identified := ⟨by decide, by decide, by decide⟩
  short := by decide
  user u hu := by
    obtain rfl := Option.mem_some.mp hu
    decide

end EufySdk.Ff09
