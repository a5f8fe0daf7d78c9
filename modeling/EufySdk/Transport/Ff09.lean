import Mathlib.Tactic
import EufySdk.Core.Thrown
import EufySdk.Lib.Hex
import EufySdk.Lib.OrderedMap
import EufySdk.Lib.Tlv

/-!
# The `ff09` settings frame

The settings SET frame of `transport/ff09.ts`, the reading of a settings reply, and the
read-modify-write that sets the auto-lock from one. The cipher of `node:crypto` is a parameter.

- `assembleFf09Frame`, `decryptFf09Frame` — the outer frame in both directions
- `parseFf09SettingsResponse` — a reply's status byte and fields
- `buildFf09AutolockSetFrame` — the command built from a reply
- `decrypt_assemble`, `parseCommand_frameOf` — a built frame is read back
-/

namespace EufySdk.Ff09

open Bytes

/-- A string, by its UTF-16 code units. -/
abbrev Units := List UInt16

/-- `Buffer.from(s, "ascii")`: the low byte of every unit. -/
def ascii (s : Units) : Buffer := s.map UInt16.toUInt8

inductive Ff09Error
  | adminUserIdRequired
  | deviceSnRequired
  | adminUserIdTooShort (length : ℕ)
  | deviceSnTooLong (length : ℕ)
  | fieldTooLong (length : ℕ)
  | missingMagic
  | sizeMismatch (size got : ℕ)
  | badChecksum
  | missingStatus
  | missingShortField (name : String)
  | missingField (name : String)
  /-- What the decipher throws. -/
  | cipher (text : String)
  deriving DecidableEq, Repr

namespace Ff09Error

def message : Ff09Error → String
  | adminUserIdRequired => "ff09: adminUserId (member.admin_user_id) is required"
  | deviceSnRequired => "ff09: deviceSn is required (AES IV)"
  | adminUserIdTooShort n => "ff09: adminUserId too short (" ++ toString n ++ " < 12)"
  | deviceSnTooLong n =>
    "ff09: deviceSn too long for the 16-byte IV (" ++ toString n ++ " > 16)"
  | fieldTooLong n =>
    "ff09: TLV field too long for a 1-byte length (" ++ toString n ++ " > 255)"
  | missingMagic => "ff09: response frame missing ff09 magic"
  | sizeMismatch size got =>
    "ff09: response frame size mismatch (header says " ++ toString size ++ ", got " ++
      toString got ++ ")"
  | badChecksum => "ff09: response frame failed its XOR checksum"
  | missingStatus => "ff09: settings response too short (missing status byte)"
  | missingShortField name => "ff09: settings response missing/short field " ++ name
  | missingField name => "ff09: settings response missing field " ++ name
  | cipher text => text

end Ff09Error

namespace LOCK_API_COMMAND

def SET_SETTINGS : ℕ := 6015

end LOCK_API_COMMAND

namespace LOCK_COMMAND_CODE

def SET_SETTINGS : ℕ := 52

end LOCK_COMMAND_CODE

/-- `createCipheriv` and `createDecipheriv` for `aes-128-cbc`, run to their end. -/
structure Cipher where
  encipher (key iv plain : Buffer) : Buffer
  decipher (key iv ct : Buffer) : Except String Buffer

/-- What the documentation of the cipher says of 16-byte keys and initialisation vectors. -/
structure Cipher.Inverts (C : Cipher) : Prop where
  decipher_encipher : ∀ key iv plain : Buffer, key.length = 16 → iv.length = 16 →
    C.decipher key iv (C.encipher key iv plain) = .ok plain
  /-- The padding fills the last block, or is one of its own. -/
  length_encipher : ∀ key iv plain : Buffer, key.length = 16 → iv.length = 16 →
    (C.encipher key iv plain).length = 16 * (plain.length / 16 + 1)

structure Ff09Frame where
  lockPayload : List Char
  time : ℕ
  seqNum : ℕ
  apiCommand : ℕ
  deriving DecidableEq, Repr

/-- `writeTlv`, from a separator on. -/
def writeTlvFrom (sep : UInt8) : List Buffer → Except Ff09Error Buffer
  | [] => .ok []
  | f :: rest =>
    if f.length > 255 then .error (.fieldTooLong f.length)
    else (writeTlvFrom (sep + 1) rest).map fun out => sep :: UInt8.ofNat f.length :: (f ++ out)

def writeTlv (fields : List Buffer) : Except Ff09Error Buffer := writeTlvFrom 0xa1 fields

/-- Zeros up to a multiple of 16 bytes, of which there is at least one. -/
def zeroPadToBlock (data : Buffer) : Buffer :=
  let size := if data.length < 16 then 16 else (data.length + 15) / 16 * 16
  data ++ List.replicate (size - data.length) 0

/-- The key of a frame: the end of the user id, and the time. -/
def frameKey (adminUserId : Units) (keyTime : ℕ) : Buffer :=
  ascii (adminUserId.drop (adminUserId.length - 12)) ++ uint32BE keyTime

/-- The serial, copied over 16 zeros. -/
def frameIv (deviceSn : Units) : Buffer := (ascii deviceSn ++ List.replicate 16 0).take 16

/-- The checksum of a frame. -/
def xorHash (b : Buffer) : UInt8 := b.foldl (fun xor byte => xor ^^^ byte) 0

def assembleFf09Frame (C : Cipher) (commandCode apiCommand : ℕ) (plain : Buffer)
    (adminUserId deviceSn : Units) (keyTime seqNum : ℕ) : Ff09Frame :=
  let ct := C.encipher (frameKey adminUserId keyTime) (frameIv deviceSn) plain
  let body := [0x03, 0x00, 0x02] ++ uint16BE (0x4000 ||| commandCode) ++ ct
  let size := 2 + 2 + body.length + 1
  let preXor := [0xff, 0x09] ++ uint16LE size ++ body
  { lockPayload := Hex.encode (preXor ++ [xorHash preXor]), time := keyTime, seqNum, apiCommand }

structure Stamps where
  unixTime : ℕ
  keyTime : ℕ
  seqNum : ℕ

/-- `resolveFf09Identity`, at a time and with a nonce. -/
def resolveFf09Identity (adminUserId deviceSn : Units) (unixTime nonce : ℕ) :
    Except Ff09Error Stamps :=
  if adminUserId = [] then .error .adminUserIdRequired
  else if deviceSn = [] then .error .deviceSnRequired
  else if adminUserId.length < 12 then .error (.adminUserIdTooShort adminUserId.length)
  else if deviceSn.length > 16 then .error (.deviceSnTooLong deviceSn.length)
  else
    let unixTime := unixTime % 2 ^ 32
    .ok { unixTime, keyTime := (unixTime ||| nonce) % 2 ^ 32, seqNum := unixTime }

/-- The fields as a frame. -/
def frameOf (C : Cipher) (commandCode apiCommand : ℕ) (adminUserId deviceSn : Units)
    (stamps : Stamps) (fields : List Buffer) : Except Ff09Error Ff09Frame :=
  (writeTlv fields).map fun tlv =>
    assembleFf09Frame C commandCode apiCommand (zeroPadToBlock tlv) adminUserId deviceSn
      stamps.keyTime stamps.seqNum

structure Ff09SettingsFrameInput where
  adminUserId : Units
  deviceSn : Units
  autoLockEnabled : Bool
  autoLockDelaySeconds : ℕ
  a7 : ℕ
  a8 : ℕ

/-- The fields of a settings SET frame. -/
def settingsFields (input : Ff09SettingsFrameInput) (unixTime : ℕ) : List Buffer :=
  [uint32LE unixTime, ascii input.adminUserId,
    -- A3, the selector
    [0x00],
    [if input.autoLockEnabled then 1 else 0], uint16LE input.autoLockDelaySeconds,
    -- A6, the schedule flag: a constant
    [0x00],
    uint16LE input.a7, uint16LE input.a8,
    -- A9
    [0x00]]

def buildFf09SettingsFrame (C : Cipher) (input : Ff09SettingsFrameInput) (unixTime nonce : ℕ) :
    Except Ff09Error Ff09Frame := do
  let stamps ← resolveFf09Identity input.adminUserId input.deviceSn unixTime nonce
  frameOf C LOCK_COMMAND_CODE.SET_SETTINGS LOCK_API_COMMAND.SET_SETTINGS input.adminUserId
    input.deviceSn stamps (settingsFields input stamps.unixTime)

def decryptFf09Frame (C : Cipher) (lockPayload : List Char) (keyTime : ℕ)
    (adminUserId deviceSn : Units) : Except Ff09Error Buffer :=
  if adminUserId = [] then .error .adminUserIdRequired
  else if deviceSn = [] then .error .deviceSnRequired
  else if adminUserId.length < 12 then .error (.adminUserIdTooShort adminUserId.length)
  else
    let buf := Hex.decode lockPayload
    let size := readUIntLE (Buf.subarray buf 2 4)
    if buf.length < 10 ∨ Buf.subarray buf 0 2 ≠ [0xff, 0x09] then .error .missingMagic
    else if size ≠ buf.length then .error (.sizeMismatch size buf.length)
    else if buf.getLast? ≠ some (xorHash (Buf.subarray buf 0 (buf.length - 1))) then
      .error .badChecksum
    else
      -- the header has nine bytes, the checksum is the last one
      (C.decipher (frameKey adminUserId keyTime) (frameIv deviceSn)
        (Buf.subarray buf 9 (buf.length - 1))).mapError .cipher

/-- The fields read, by their separators; a later one takes the place of one before it. -/
def fieldMap (fields : List (UInt8 × Buffer)) : List (UInt8 × Buffer) :=
  fields.foldl (fun map e => OrderedMap.set map e.1 e.2) []

structure Ff09SettingsResponse where
  status : UInt8
  fields : List (UInt8 × Buffer)

def parseFf09SettingsResponse : Buffer → Except Ff09Error Ff09SettingsResponse
  | [] => .error .missingStatus
  | status :: rest => .ok ⟨status, fieldMap (Tlv.read rest)⟩

def readFf09U16LE (field : Option Buffer) (name : String) : Except Ff09Error ℕ :=
  match field with
  | some (b0 :: b1 :: _) => .ok (readUIntLE [b0, b1])
  | _ => .error (.missingShortField name)

def readFf09U8 (field : Option Buffer) (name : String) : Except Ff09Error ℕ :=
  match field with
  | some (b :: _) => .ok b.toNat
  | _ => .error (.missingField name)

def readFf09HourMinute (field : Option Buffer) (name : String) : Except Ff09Error (ℕ × ℕ) :=
  match field with
  | some (b0 :: b1 :: _) => .ok (b0.toNat, b1.toNat)
  | _ => .error (.missingShortField name)

structure AutoLockSnapshot where
  enabled : Bool
  delaySeconds : ℕ
  isSchedule : Bool
  scheduleStartTime : ℕ × ℕ
  scheduleEndTime : ℕ × ℕ
  deriving DecidableEq, Repr

def decodeFf09AutoLockSnapshot (parsed : Ff09SettingsResponse) :
    Except Ff09Error AutoLockSnapshot := do
  let field := OrderedMap.get parsed.fields
  let enabled ← readFf09U8 (field 0xa1) "a1 (enabled)"
  let delaySeconds ← readFf09U16LE (field 0xa2) "a2 (delaySeconds)"
  let isSchedule ← readFf09U8 (field 0xa3) "a3 (isSchedule)"
  let scheduleStartTime ← readFf09HourMinute (field 0xa4) "a4 (scheduleStartTime)"
  let scheduleEndTime ← readFf09HourMinute (field 0xa5) "a5 (scheduleEndTime)"
  return { enabled := enabled ≠ 0, delaySeconds, isSchedule := isSchedule ≠ 0, scheduleStartTime
           scheduleEndTime }

/-- What a settings reply and a requested change make a command of. -/
structure AutolockSetInput where
  lockPayload : List Char
  keyTime : ℕ
  adminUserId : Units
  deviceSn : Units
  enabled : Bool
  delaySeconds : Option ℕ

/-- `buildFf09AutolockSetFrame`, at a time and with a nonce. -/
def buildFf09AutolockSetFrame (C : Cipher) (input : AutolockSetInput) (unixTime nonce : ℕ) :
    Except Ff09Error Ff09Frame := do
  let plain ← decryptFf09Frame C input.lockPayload input.keyTime input.adminUserId input.deviceSn
  let parsed ← parseFf09SettingsResponse plain
  let currentDelay ← readFf09U16LE (OrderedMap.get parsed.fields 0xa2) "a2 (delay)"
  let currentA7 ← readFf09U16LE (OrderedMap.get parsed.fields 0xa4) "a4 (A7 readback)"
  let currentA8 ← readFf09U16LE (OrderedMap.get parsed.fields 0xa5) "a5 (A8 readback)"
  buildFf09SettingsFrame C
    { adminUserId := input.adminUserId, deviceSn := input.deviceSn
      autoLockEnabled := input.enabled
      autoLockDelaySeconds := input.delaySeconds.getD currentDelay
      a7 := currentA7, a8 := currentA8 } unixTime nonce

/-! ### A built frame is read back -/

section ReadBack

variable {C : Cipher} {adminUserId deviceSn : Units} {plain : Buffer} {fields : List Buffer}

theorem length_frameKey (hlong : 12 ≤ adminUserId.length) (keyTime : ℕ) :
    (frameKey adminUserId keyTime).length = 16 := by
  rw [frameKey, List.length_append, length_uint32BE, ascii, List.length_map, List.length_drop]
  omega

theorem length_frameIv (deviceSn : Units) : (frameIv deviceSn).length = 16 := by
  rw [frameIv, List.length_take, List.length_append, List.length_replicate]
  omega

/-- A buffer but for its last byte, from an offset on. -/
theorem subarray_concat (start : ℕ) (pre : Buffer) (x : UInt8) :
    Buf.subarray (pre ++ [x]) start ((pre ++ [x]).length - 1) = pre.drop start := by
  rw [Buf.subarray, List.length_append, List.length_singleton, Nat.add_sub_cancel, List.take_left]

/-- What a frame of any ciphertext deciphers to. -/
theorem decrypt_frame (hlong : 12 ≤ adminUserId.length) (hsn : deviceSn ≠ []) (ct : Buffer)
    (hfits : ct.length < 65526) (cmdEnc keyTime : ℕ) :
    let preXor := [0xff, 0x09] ++ uint16LE (ct.length + 10) ++
      ([0x03, 0x00, 0x02] ++ uint16BE cmdEnc ++ ct)
    decryptFf09Frame C (Hex.encode (preXor ++ [xorHash preXor])) keyTime adminUserId deviceSn =
      (C.decipher (frameKey adminUserId keyTime) (frameIv deviceSn) ct).mapError .cipher := by
  intro preXor
  have hid : adminUserId ≠ [] := by
    rintro rfl
    exact absurd hlong (by decide)
  have hlength : (preXor ++ [xorHash preXor]).length = ct.length + 10 := by
    simp only [preXor, List.length_append, length_uint16LE, length_uint16BE, List.length_cons,
      List.length_nil]
    omega
  -- each part of the header lies at a fixed offset
  have hmagic : Buf.subarray (preXor ++ [xorHash preXor]) 0 2 = [0xff, 0x09] := rfl
  have hsize : Buf.subarray (preXor ++ [xorHash preXor]) 2 4 = uint16LE (ct.length + 10) := rfl
  have hbody : preXor.drop 9 = ct := rfl
  rw [decryptFf09Frame, if_neg hid, if_neg hsn, if_neg (by omega)]
  dsimp only
  rw [Hex.decode_encode, subarray_concat, subarray_concat, List.drop_zero, hbody, hmagic, hsize,
    readUIntLE_uint16LE (by omega), hlength, if_neg (by simp), if_neg (by simp),
    List.getLast?_concat, if_neg (by simp)]

/-- **A frame is deciphered** under the identity and the time that it was built with, where its
length fits the header. -/
theorem decrypt_assemble (hC : C.Inverts) (hlong : 12 ≤ adminUserId.length) (hsn : deviceSn ≠ [])
    (hfits : plain.length < 65000) (commandCode apiCommand keyTime seqNum : ℕ) :
    let frame :=
      assembleFf09Frame C commandCode apiCommand plain adminUserId deviceSn keyTime seqNum
    decryptFf09Frame C frame.lockPayload keyTime adminUserId deviceSn = .ok plain := by
  intro frame
  have hkey := length_frameKey hlong keyTime
  have hiv := length_frameIv deviceSn
  have hinverse := hC.decipher_encipher _ _ plain hkey hiv
  have hct := hC.length_encipher _ _ plain hkey hiv
  have hpayload : frame.lockPayload = (assembleFf09Frame C commandCode apiCommand plain adminUserId
    deviceSn keyTime seqNum).lockPayload := rfl
  rw [hpayload, assembleFf09Frame]
  generalize C.encipher (frameKey adminUserId keyTime) (frameIv deviceSn) plain = ct at hct hinverse
  have hsize : 2 + 2 + ([0x03, 0x00, 0x02] ++ uint16BE (0x4000 ||| commandCode) ++ ct).length + 1 =
      ct.length + 10 := by
    rw [List.length_append, List.length_append, length_uint16BE]
    simp only [List.length_cons, List.length_nil]
    omega
  dsimp only
  rw [hsize, decrypt_frame hlong hsn ct (by omega) (0x4000 ||| commandCode) keyTime, hinverse]
  rfl

theorem writeTlvFrom_ok (h : ∀ f ∈ fields, f.length ≤ 255) (sep : UInt8) :
    writeTlvFrom sep fields = .ok (Tlv.writeFields (Tlv.tagged sep fields)) := by
  induction fields generalizing sep with
  | nil => rfl
  | cons f rest ih =>
    have hf := h f List.mem_cons_self
    rw [writeTlvFrom, if_neg (by omega), ih fun g hg => h g (List.mem_cons_of_mem _ hg)]
    rfl

/-- Fields are written exactly if a length byte can announce each of them. -/
theorem writeTlvFrom_isOk (sep : UInt8) :
    (∃ out, writeTlvFrom sep fields = .ok out) ↔ ∀ f ∈ fields, f.length ≤ 255 := by
  refine ⟨?_, fun h => ⟨_, writeTlvFrom_ok h sep⟩⟩
  induction fields generalizing sep with
  | nil => exact fun _ => nofun
  | cons f rest ih =>
    rintro ⟨out, hout⟩
    rw [writeTlvFrom] at hout
    split at hout
    · cases hout
    · rename_i hf
      cases hrest : writeTlvFrom (sep + 1) rest with
      | error e =>
        rw [hrest] at hout
        cases hout
      | ok tlv => exact List.forall_mem_cons.mpr ⟨by omega, ih _ ⟨tlv, hrest⟩⟩

theorem zeroPadToBlock_eq (data : Buffer) :
    ∃ k ≤ 16, zeroPadToBlock data = data ++ List.replicate k 0 := by
  refine ⟨_, ?_, rfl⟩
  split
  · exact Nat.sub_le _ _
  · omega

/-- What a command's frame carries: its fields by their separators, as the lock reads them. -/
def parseCommand (C : Cipher) (frame : Ff09Frame) (adminUserId deviceSn : Units) :
    Except Ff09Error (List (UInt8 × Buffer)) :=
  (decryptFf09Frame C frame.lockPayload frame.time adminUserId deviceSn).map fun plain =>
    fieldMap (Tlv.read plain)

/-- An identity that frames are built for. -/
structure Identified (adminUserId deviceSn : Units) : Prop where
  long : 12 ≤ adminUserId.length
  sn : deviceSn ≠ []
  fits : deviceSn.length ≤ 16

theorem resolve_eq_ok {unixTime nonce : ℕ} {stamps : Stamps} :
    resolveFf09Identity adminUserId deviceSn unixTime nonce = .ok stamps ↔
      Identified adminUserId deviceSn ∧ stamps =
        ⟨unixTime % 2 ^ 32, (unixTime % 2 ^ 32 ||| nonce) % 2 ^ 32, unixTime % 2 ^ 32⟩ := by
  rw [resolveFf09Identity]
  by_cases hid : adminUserId = []
  · rw [if_pos hid]
    refine ⟨nofun, fun ⟨h, _⟩ => ?_⟩
    have hlong := h.long
    rw [hid] at hlong
    exact absurd hlong (by decide)
  · rw [if_neg hid]
    by_cases hsn : deviceSn = []
    · rw [if_pos hsn]
      exact ⟨nofun, fun ⟨h, _⟩ => absurd hsn h.sn⟩
    · rw [if_neg hsn]
      split
      · rename_i hshort
        exact ⟨nofun, fun ⟨h, _⟩ => absurd h.long (by omega)⟩
      · rename_i hlong
        split
        · rename_i hwide
          exact ⟨nofun, fun ⟨h, _⟩ => absurd h.fits (by omega)⟩
        · rename_i hfits
          constructor
          · intro h
            exact ⟨⟨by omega, hsn, by omega⟩, (Except.ok.inj h).symm⟩
          · rintro ⟨_, rfl⟩
            rfl

/-- **A command built is read back**: its fields, under the separators from `a1` on. -/
theorem parseCommand_frameOf (hC : C.Inverts) (hid : Identified adminUserId deviceSn)
    (hlen : ∀ f ∈ fields, f.length ≤ 255) (hcount : fields.length ≤ 90)
    {commandCode apiCommand : ℕ} {stamps : Stamps} {frame : Ff09Frame}
    (hframe : frameOf C commandCode apiCommand adminUserId deviceSn stamps fields = .ok frame) :
    parseCommand C frame adminUserId deviceSn = .ok (fieldMap (Tlv.tagged 0xa1 fields)) := by
  rw [frameOf, writeTlv, writeTlvFrom_ok hlen] at hframe
  obtain rfl := Except.ok.inj hframe
  obtain ⟨k, hk, hpad⟩ := zeroPadToBlock_eq (Tlv.writeFields (Tlv.tagged 0xa1 fields))
  have hwidth := Tlv.length_writeFields_tagged_le hlen 0xa1
  have hfits : (zeroPadToBlock (Tlv.writeFields (Tlv.tagged 0xa1 fields))).length < 65000 := by
    rw [hpad, List.length_append, List.length_replicate]
    omega
  have hplain := decrypt_assemble hC hid.long hid.sn hfits commandCode apiCommand stamps.keyTime
    stamps.seqNum
  have htags : Tlv.WellFormed (Tlv.tagged 0xa1 fields) :=
    Tlv.wellFormed_tagged hlen (by decide) (by
      rw [show (0xa1 : UInt8).toNat = 161 from rfl]
      omega)
  have htime : (assembleFf09Frame C commandCode apiCommand
      (zeroPadToBlock (Tlv.writeFields (Tlv.tagged 0xa1 fields))) adminUserId deviceSn
      stamps.keyTime stamps.seqNum).time = stamps.keyTime := rfl
  rw [parseCommand, htime, hplain, hpad]
  exact congrArg (fun read => Except.ok (fieldMap read)) (Tlv.read_writeFields htags k)

end ReadBack

end EufySdk.Ff09
