import Mathlib.Tactic
import EufySdk.Transport.Ff09

/-!
# What an auto-lock command carries

The command that `buildFf09AutolockSetFrame` builds from a settings reply, read back as the lock
reads it, against what the reply reported.

- `Carries` — the requested change, and the rest as reported
- `autolockSet_carries_iff` — when a command is built, and when it carries that
-/

namespace EufySdk.Ff09

open Bytes

namespace Ff09SettingsResponse

variable (parsed : Ff09SettingsResponse)

def field (tag : UInt8) : Option Buffer := OrderedMap.get parsed.fields tag

/-- The reply has two bytes or more under a tag. -/
def ReportsPair (tag : UInt8) : Prop := ∃ field, parsed.field tag = some field ∧ 2 ≤ field.length

/-- The reply does not report a schedule switched on. -/
def Unscheduled : Prop := ∀ v, readFf09U8 (parsed.field 0xa3) "a3 (isSchedule)" = .ok v → v = 0

end Ff09SettingsResponse

/-- The fields of a command against a reply and a request: `a4` to `a8` are the enable flag, the
delay, the schedule flag, its start and its end; the reply has them as `a1` to `a5`. -/
structure Carries (parsed : Ff09SettingsResponse) (enabled : Bool) (delaySeconds : Option ℕ)
    (command : List (UInt8 × Buffer)) : Prop where
  enabled : readFf09U8 (OrderedMap.get command 0xa4) "A4" = .ok (if enabled then 1 else 0)
  delay : ∀ d, delaySeconds = some d →
    readFf09U16LE (OrderedMap.get command 0xa5) "A5" = .ok d
  keptDelay : delaySeconds = none → ∀ d,
    readFf09U16LE (parsed.field 0xa2) "a2 (delaySeconds)" = .ok d →
      readFf09U16LE (OrderedMap.get command 0xa5) "A5" = .ok d
  isSchedule : ∀ v, readFf09U8 (parsed.field 0xa3) "a3 (isSchedule)" = .ok v →
    ∃ w, readFf09U8 (OrderedMap.get command 0xa6) "A6" = .ok w ∧ (w ≠ 0 ↔ v ≠ 0)
  scheduleStartTime : ∀ t,
    readFf09HourMinute (parsed.field 0xa4) "a4 (scheduleStartTime)" = .ok t →
      readFf09HourMinute (OrderedMap.get command 0xa7) "A7" = .ok t
  scheduleEndTime : ∀ t,
    readFf09HourMinute (parsed.field 0xa5) "a5 (scheduleEndTime)" = .ok t →
      readFf09HourMinute (OrderedMap.get command 0xa8) "A8" = .ok t

section Built

variable {C : Cipher} {input : AutolockSetInput} {parsed : Ff09SettingsResponse} {name : String}

theorem readFf09U16LE_eq_ok {field : Option Buffer} {n : ℕ} :
    readFf09U16LE field name = .ok n ↔
      ∃ b0 b1 rest, field = some (b0 :: b1 :: rest) ∧ readUIntLE [b0, b1] = n := by
  match field with
  | none => exact ⟨nofun, nofun⟩
  | some [] => exact ⟨nofun, nofun⟩
  | some [_] => exact ⟨nofun, nofun⟩
  | some (b0 :: b1 :: rest) =>
    constructor
    · exact fun h => ⟨b0, b1, rest, rfl, Except.ok.inj h⟩
    · rintro ⟨_, _, _, ⟨⟩, rfl⟩
      rfl

/-- Two bytes are written as they were read. -/
theorem uint16LE_readUIntLE (b0 b1 : UInt8) : uint16LE (readUIntLE [b0, b1]) = [b0, b1] := by
  have hpair := uint16BE_readUIntBE b1 b0
  rw [readUIntBE, List.reverse_cons, List.reverse_singleton, List.singleton_append] at hpair
  exact congrArg List.reverse hpair

theorem readUIntLE_pair_lt (b0 b1 : UInt8) : readUIntLE [b0, b1] < 65536 := by
  simpa using readUIntLE_lt [b0, b1]

/-- A pair is reported exactly if it can be read. -/
theorem reportsPair_iff {tag : UInt8} (name : String) :
    parsed.ReportsPair tag ↔ ∃ n, readFf09U16LE (parsed.field tag) name = .ok n := by
  constructor
  · rintro ⟨field, hfield, hlen⟩
    match field, hlen with
    | b0 :: b1 :: rest, _ => exact ⟨_, readFf09U16LE_eq_ok.mpr ⟨b0, b1, rest, hfield, rfl⟩⟩
  · rintro ⟨n, hread⟩
    obtain ⟨b0, b1, rest, hfield, -⟩ := readFf09U16LE_eq_ok.mp hread
    exact ⟨_, hfield, by simp⟩

/-- A pair read as a number is written back as the pair read as a time. -/
theorem hourMinute_of_u16LE {field : Option Buffer} {n : ℕ} {t : ℕ × ℕ} {times back : String}
    (hread : readFf09U16LE field name = .ok n) (ht : readFf09HourMinute field times = .ok t) :
    readFf09HourMinute (some (uint16LE n)) back = .ok t := by
  obtain ⟨b0, b1, rest, rfl, rfl⟩ := readFf09U16LE_eq_ok.mp hread
  rw [uint16LE_readUIntLE]
  exact ht

theorem identified_of_decrypt {lockPayload : List Char} {keyTime : ℕ}
    {adminUserId deviceSn : Units} {plain : Buffer}
    (h : decryptFf09Frame C lockPayload keyTime adminUserId deviceSn = .ok plain) :
    12 ≤ adminUserId.length ∧ deviceSn ≠ [] := by
  rw [decryptFf09Frame] at h
  split at h
  · cases h
  · split at h
    · cases h
    · rename_i hsn
      split at h
      · cases h
      · exact ⟨by omega, hsn⟩

/-- The fields of a settings frame fit exactly if the user id does. -/
theorem settingsFields_fit (settings : Ff09SettingsFrameInput) (unixTime : ℕ) :
    (∀ f ∈ settingsFields settings unixTime, f.length ≤ 255) ↔
      settings.adminUserId.length ≤ 255 := by
  simp [settingsFields, ascii]

/-- When a settings frame is built. -/
theorem buildSettings_isOk (settings : Ff09SettingsFrameInput) (unixTime nonce : ℕ) :
    (∃ frame, buildFf09SettingsFrame C settings unixTime nonce = .ok frame) ↔
      Identified settings.adminUserId settings.deviceSn ∧ settings.adminUserId.length ≤ 255 := by
  constructor
  · rintro ⟨frame, hframe⟩
    obtain ⟨stamps, hstamps, hbuilt⟩ := bind_eq_ok.mp hframe
    refine ⟨(resolve_eq_ok.mp hstamps).1, (settingsFields_fit settings stamps.unixTime).mp ?_⟩
    rw [← writeTlvFrom_isOk 0xa1]
    cases htlv : writeTlvFrom 0xa1 (settingsFields settings stamps.unixTime) with
    | ok tlv => exact ⟨tlv, rfl⟩
    | error e =>
      rw [frameOf, writeTlv, htlv] at hbuilt
      cases hbuilt
  · rintro ⟨hid, hfits⟩
    have hfields := (settingsFields_fit settings (unixTime % 2 ^ 32)).mpr hfits
    rw [buildFf09SettingsFrame, resolve_eq_ok.mpr ⟨hid, rfl⟩, ok_bind, frameOf, writeTlv,
      writeTlvFrom_ok hfields]
    exact ⟨_, rfl⟩

/-- What a settings frame is read back as. -/
theorem parseCommand_buildSettings (hC : C.Inverts) {settings : Ff09SettingsFrameInput}
    {unixTime nonce : ℕ} {frame : Ff09Frame}
    (hframe : buildFf09SettingsFrame C settings unixTime nonce = .ok frame) :
    parseCommand C frame settings.adminUserId settings.deviceSn =
      .ok (fieldMap (Tlv.tagged 0xa1 (settingsFields settings (unixTime % 2 ^ 32)))) := by
  obtain ⟨hid, hfits⟩ := (buildSettings_isOk settings unixTime nonce).mp ⟨frame, hframe⟩
  obtain ⟨stamps, hstamps, hbuilt⟩ := bind_eq_ok.mp hframe
  obtain rfl := (resolve_eq_ok.mp hstamps).2
  exact parseCommand_frameOf hC hid ((settingsFields_fit settings _).mpr hfits)
    (by rw [settingsFields]; simp) hbuilt

/-- The settings of a command, behind what is read from a reply. -/
def AutolockSetInput.settings (input : AutolockSetInput) (currentDelay currentA7 currentA8 : ℕ) :
    Ff09SettingsFrameInput where
  adminUserId := input.adminUserId
  deviceSn := input.deviceSn
  autoLockEnabled := input.enabled
  autoLockDelaySeconds := input.delaySeconds.getD currentDelay
  a7 := currentA7
  a8 := currentA8

/-- A command is the settings frame of what was read from the reply. -/
theorem buildAutolockSet_eq_ok {plain : Buffer} {unixTime nonce : ℕ} {frame : Ff09Frame}
    (hplain : decryptFf09Frame C input.lockPayload input.keyTime input.adminUserId
      input.deviceSn = .ok plain)
    (hparsed : parseFf09SettingsResponse plain = .ok parsed) :
    buildFf09AutolockSetFrame C input unixTime nonce = .ok frame ↔
      ∃ delay a7 a8, readFf09U16LE (parsed.field 0xa2) "a2 (delay)" = .ok delay ∧
        readFf09U16LE (parsed.field 0xa4) "a4 (A7 readback)" = .ok a7 ∧
        readFf09U16LE (parsed.field 0xa5) "a5 (A8 readback)" = .ok a8 ∧
        buildFf09SettingsFrame C (input.settings delay a7 a8) unixTime nonce = .ok frame := by
  rw [buildFf09AutolockSetFrame, hplain, ok_bind, hparsed, ok_bind]
  constructor
  · intro h
    obtain ⟨delay, hdelay, h⟩ := bind_eq_ok.mp h
    obtain ⟨a7, ha7, h⟩ := bind_eq_ok.mp h
    obtain ⟨a8, ha8, h⟩ := bind_eq_ok.mp h
    exact ⟨delay, a7, a8, hdelay, ha7, ha8, h⟩
  · rintro ⟨delay, a7, a8, hdelay, ha7, ha8, h⟩
    exact bind_eq_ok.mpr ⟨delay, hdelay, bind_eq_ok.mpr ⟨a7, ha7, bind_eq_ok.mpr ⟨a8, ha8, h⟩⟩⟩

/-- **What a command carries**: everything, exactly if no schedule is switched on. -/
theorem carries_settings_iff {delay a7 a8 : ℕ}
    (hdelay : readFf09U16LE (parsed.field 0xa2) "a2 (delay)" = .ok delay)
    (ha7 : readFf09U16LE (parsed.field 0xa4) "a4 (A7 readback)" = .ok a7)
    (ha8 : readFf09U16LE (parsed.field 0xa5) "a5 (A8 readback)" = .ok a8)
    (hrequest : ∀ d, input.delaySeconds = some d → d < 65536) (unixTime : ℕ) :
    Carries parsed input.enabled input.delaySeconds
        (fieldMap (Tlv.tagged 0xa1 (settingsFields (input.settings delay a7 a8) unixTime))) ↔
      parsed.Unscheduled := by
  have hwritten : ∀ n name, n < 65536 → readFf09U16LE (some (uint16LE n)) name = .ok n :=
    fun n name hn => congrArg Except.ok (readUIntLE_uint16LE hn)
  constructor
  · intro h v hv
    obtain ⟨w, hw, hiff⟩ := h.isSchedule v hv
    -- whatever was reported, the command has a zero here
    have hcleared : OrderedMap.get (fieldMap (Tlv.tagged 0xa1
        (settingsFields (input.settings delay a7 a8) unixTime))) 0xa6 = some [0] := rfl
    rw [hcleared, readFf09U8, UInt8.toNat_zero, Except.ok.injEq] at hw
    by_contra hne
    exact hiff.mpr hne hw.symm
  · intro hflag
    refine ⟨?_, fun d hd => ?_, fun hnone d hd => ?_, fun v hv => ?_, fun t ht => ?_, fun t ht => ?_⟩
    · show readFf09U8 (some [if input.enabled then 1 else 0]) "A4" = _
      cases input.enabled with
      | true => rfl
      | false => rfl
    · show readFf09U16LE (some (uint16LE (input.delaySeconds.getD delay))) "A5" = _
      rw [hd]
      exact hwritten d _ (hrequest d hd)
    · show readFf09U16LE (some (uint16LE (input.delaySeconds.getD delay))) "A5" = _
      rw [hnone]
      obtain ⟨b0, b1, rest, hfield, rfl⟩ := readFf09U16LE_eq_ok.mp hdelay
      rw [hfield] at hd
      obtain rfl : readUIntLE [b0, b1] = d := Except.ok.inj hd
      exact hwritten _ _ (readUIntLE_pair_lt b0 b1)
    · exact ⟨0, rfl, by simp [hflag v hv]⟩
    · exact hourMinute_of_u16LE ha7 ht
    · exact hourMinute_of_u16LE ha8 ht

/-- **When a command is built, and what it carries.** A command is built from every reply with a
delay and both times, for an identity that its fields have room for; it carries the requested
change and every other field as reported if and only if the reply reports no schedule switched
on. -/
theorem autolockSet_carries_iff (hC : C.Inverts) {plain : Buffer} (unixTime nonce : ℕ)
    (hplain : decryptFf09Frame C input.lockPayload input.keyTime input.adminUserId
      input.deviceSn = .ok plain)
    (hparsed : parseFf09SettingsResponse plain = .ok parsed)
    (hrequest : ∀ d, input.delaySeconds = some d → d < 65536) :
    ((∃ frame, buildFf09AutolockSetFrame C input unixTime nonce = .ok frame) ↔
      input.adminUserId.length ≤ 255 ∧ input.deviceSn.length ≤ 16 ∧
        parsed.ReportsPair 0xa2 ∧ parsed.ReportsPair 0xa4 ∧ parsed.ReportsPair 0xa5) ∧
    ∀ frame, buildFf09AutolockSetFrame C input unixTime nonce = .ok frame →
      ((∃ command, parseCommand C frame input.adminUserId input.deviceSn = .ok command ∧
        Carries parsed input.enabled input.delaySeconds command) ↔ parsed.Unscheduled) := by
  obtain ⟨hlong, hsn⟩ := identified_of_decrypt hplain
  refine ⟨⟨?_, ?_⟩, fun frame hframe => ?_⟩
  · rintro ⟨frame, hframe⟩
    obtain ⟨delay, a7, a8, hdelay, ha7, ha8, hbuilt⟩ :=
      (buildAutolockSet_eq_ok hplain hparsed).mp hframe
    obtain ⟨hid, hfits⟩ := (buildSettings_isOk _ _ _).mp ⟨frame, hbuilt⟩
    exact ⟨hfits, hid.fits, (reportsPair_iff _).mpr ⟨delay, hdelay⟩,
      (reportsPair_iff _).mpr ⟨a7, ha7⟩, (reportsPair_iff _).mpr ⟨a8, ha8⟩⟩
  · rintro ⟨hfits, hserial, hdelay, ha7, ha8⟩
    obtain ⟨delay, hdelay⟩ := (reportsPair_iff "a2 (delay)").mp hdelay
    obtain ⟨a7, ha7⟩ := (reportsPair_iff "a4 (A7 readback)").mp ha7
    obtain ⟨a8, ha8⟩ := (reportsPair_iff "a5 (A8 readback)").mp ha8
    obtain ⟨frame, hbuilt⟩ :=
      (buildSettings_isOk (C := C) (input.settings delay a7 a8) unixTime nonce).mpr
        ⟨⟨hlong, hsn, hserial⟩, hfits⟩
    exact ⟨frame, (buildAutolockSet_eq_ok hplain hparsed).mpr
      ⟨delay, a7, a8, hdelay, ha7, ha8, hbuilt⟩⟩
  · obtain ⟨delay, a7, a8, hdelay, ha7, ha8, hbuilt⟩ :=
      (buildAutolockSet_eq_ok hplain hparsed).mp hframe
    have hcommand := parseCommand_buildSettings hC hbuilt
    have hcarries := carries_settings_iff hdelay ha7 ha8 hrequest (unixTime % 2 ^ 32)
    constructor
    · rintro ⟨command, hread, hcarry⟩
      obtain rfl := Except.ok.inj (hcommand.symm.trans hread)
      exact hcarries.mp hcarry
    · exact fun hflag => ⟨_, hcommand, hcarries.mpr hflag⟩

end Built

/-! ### A lock with a schedule -/

section Sample

/-- A plaintext with the padding that the cipher adds. -/
def padded (plain : Buffer) : Buffer :=
  let n := 16 - plain.length % 16
  plain ++ List.replicate n (UInt8.ofNat n)

def unpadded (b : Buffer) : Except String Buffer :=
  let n := (b.getLast?.getD 0).toNat
  if 1 ≤ n ∧ n ≤ 16 ∧ b = b.take (b.length - n) ++ List.replicate n (UInt8.ofNat n) then
    .ok (b.take (b.length - n))
  else .error "bad decrypt"

/-- One use of a cipher. -/
structure CipherUse where
  key : Buffer
  iv : Buffer
  plain : Buffer
  ct : Buffer
  deriving DecidableEq

/-- A cipher that is known at some uses, and only pads elsewhere. -/
def knownAt (uses : List CipherUse) : Cipher where
  encipher key iv plain :=
    match uses.find? fun u => u.key = key ∧ u.iv = iv ∧ u.plain = plain with
    | some u => u.ct
    | none => padded plain
  decipher key iv ct :=
    match uses.find? fun u => u.key = key ∧ u.iv = iv ∧ u.ct = ct with
    | some u => .ok u.plain
    | none => unpadded ct

theorem unpadded_padded (plain : Buffer) : unpadded (padded plain) = .ok plain := by
  have hn : 1 ≤ 16 - plain.length % 16 ∧ 16 - plain.length % 16 ≤ 16 := by omega
  rw [padded]
  generalize 16 - plain.length % 16 = n at hn
  obtain ⟨m, rfl⟩ : ∃ m, n = m + 1 := ⟨n - 1, by omega⟩
  have hlast : (plain ++ List.replicate (m + 1) (UInt8.ofNat (m + 1))).getLast? =
      some (UInt8.ofNat (m + 1)) := by
    rw [List.replicate_succ', ← List.append_assoc, List.getLast?_concat]
  have hbyte : (UInt8.ofNat (m + 1)).toNat = m + 1 := by
    rw [UInt8.toNat_ofNat']
    omega
  have htake : (plain ++ List.replicate (m + 1) (UInt8.ofNat (m + 1))).take
      ((plain ++ List.replicate (m + 1) (UInt8.ofNat (m + 1))).length - (m + 1)) = plain := by
    rw [List.length_append, List.length_replicate, Nat.add_sub_cancel, List.take_left]
  rw [unpadded, hlast, Option.getD_some, hbyte]
  rw [htake, if_pos ⟨hn.1, hn.2, rfl⟩]

/-- Uses of one cipher: a ciphertext has one plaintext under a key, and is padded as long as it. -/
structure Consistent (uses : List CipherUse) : Prop where
  unique : ∀ u ∈ uses, ∀ v ∈ uses, v.key = u.key → v.iv = u.iv → v.ct = u.ct → v.plain = u.plain
  unlike : ∀ u ∈ uses, unpadded u.ct = .error "bad decrypt"
  length : ∀ u ∈ uses, u.ct.length = 16 * (u.plain.length / 16 + 1)

theorem inverts_knownAt {uses : List CipherUse} (h : Consistent uses) :
    (knownAt uses).Inverts where
  decipher_encipher := fun key iv plain _ _ => by
    rw [knownAt]
    dsimp only
    cases hplain : uses.find? fun u => u.key = key ∧ u.iv = iv ∧ u.plain = plain with
    | some u =>
      have hu := List.mem_of_find?_eq_some hplain
      have hused := List.find?_some hplain
      obtain ⟨rfl, rfl, rfl⟩ := of_decide_eq_true hused
      cases hct : uses.find? fun v => v.key = u.key ∧ v.iv = u.iv ∧ v.ct = u.ct with
      | some v =>
        have hused := List.find?_some hct
        obtain ⟨hkey, hiv, hsame⟩ := of_decide_eq_true hused
        exact congrArg _ (h.unique u hu v (List.mem_of_find?_eq_some hct) hkey hiv hsame)
      | none => exact absurd (List.find?_eq_none.mp hct u hu) (by simp)
    | none =>
      cases hct : uses.find? fun u => u.key = key ∧ u.iv = iv ∧ u.ct = padded plain with
      -- what is only padded looks like none of the known ciphertexts
      | some v =>
        have hunlike := h.unlike v (List.mem_of_find?_eq_some hct)
        have hused := List.find?_some hct
        obtain ⟨-, -, hsame⟩ := of_decide_eq_true hused
        rw [hsame, unpadded_padded] at hunlike
        cases hunlike
      | none => exact unpadded_padded plain
  length_encipher := fun key iv plain _ _ => by
    rw [knownAt]
    dsimp only
    cases hplain : uses.find? fun u => u.key = key ∧ u.iv = iv ∧ u.plain = plain with
    | some u =>
      have hused := List.find?_some hplain
      obtain ⟨-, -, rfl⟩ := of_decide_eq_true hused
      exact h.length u (List.mem_of_find?_eq_some hplain)
    | none =>
      dsimp only
      rw [padded, List.length_append, List.length_replicate]
      omega

def sampleUserId : Units := List.replicate 40 0x30

/-- `T85D0K0000000000`. -/
def sampleSn : Units := [0x54, 0x38, 0x35, 0x44, 0x30, 0x4b] ++ List.replicate 10 0x30

/-- A reply: enabled, a delay of 60 s, a schedule from 22:00 to 06:00, switched on or off. -/
def sampleReply (isSchedule : UInt8) : Buffer :=
  [0x00, 0xa1, 0x01, 0x01, 0xa2, 0x02, 0x3c, 0x00, 0xa3, 0x01, isSchedule, 0xa4, 0x02, 0x16, 0x00,
    0xa5, 0x02, 0x06, 0x00]

/-- What switches the auto-lock off, with the rest kept. -/
def sampleSettings : Ff09SettingsFrameInput where
  adminUserId := sampleUserId
  deviceSn := sampleSn
  autoLockEnabled := false
  autoLockDelaySeconds := 60
  a7 := 22
  a8 := 6

/-- The cipher of `aes-128-cbc` at the two replies and at the command. -/
def sampleUses : List CipherUse :=
  [⟨frameKey sampleUserId 1700000001, frameIv sampleSn, sampleReply 1, [
    0x66, 0x97, 0xf9, 0xec, 0x76, 0x82, 0x19, 0x70, 0xc9, 0xf6, 0x8c, 0x1c, 0x9f, 0x0f, 0xe5, 0x3c,
    0xcb, 0xc0, 0x75, 0x32, 0x4e, 0x7f, 0x8e, 0xf8, 0x7f, 0x56, 0xe7, 0x16, 0xe5, 0x9c, 0xeb, 0x1f]⟩,
  ⟨frameKey sampleUserId 1700000001, frameIv sampleSn, sampleReply 0, [
    0xdc, 0x5c, 0x0d, 0x23, 0x7d, 0xff, 0xd7, 0xc0, 0x42, 0xae, 0x35, 0x62, 0xfa, 0x03, 0x22, 0x85,
    0x08, 0x47, 0xc9, 0xfe, 0x6f, 0xde, 0x81, 0xd6, 0xa7, 0x09, 0x0b, 0xad, 0x27, 0xfd, 0x93, 0x99]⟩,
  ⟨frameKey sampleUserId 1700000011, frameIv sampleSn,
    zeroPadToBlock (Tlv.writeFields (Tlv.tagged 0xa1 (settingsFields sampleSettings 1700000010))), [
    0xf0, 0xfc, 0x53, 0x2c, 0x89, 0xc4, 0x7d, 0x88, 0x39, 0x68, 0xe3, 0x0b, 0xba, 0x74, 0xd8, 0x39,
    0xd5, 0x3a, 0xc7, 0xc0, 0x27, 0x40, 0x5f, 0xb1, 0xad, 0x7a, 0xe2, 0x39, 0x3e, 0x78, 0x77, 0x81,
    0x8b, 0x1e, 0xac, 0xe1, 0x53, 0x24, 0x16, 0xe7, 0xd3, 0x01, 0xe3, 0xdc, 0x3e, 0x44, 0x55, 0x71,
    0xfc, 0x8b, 0xc3, 0x9a, 0x14, 0x4e, 0x84, 0x2a, 0xe0, 0x32, 0x08, 0xb7, 0x8e, 0x9c, 0x1d, 0x33,
    0x80, 0x8a, 0xd2, 0x87, 0x26, 0xdb, 0xda, 0xdd, 0x12, 0x12, 0x58, 0xd0, 0xeb, 0x59, 0x14, 0xfa,
    0xe5, 0x43, 0xa5, 0xd0, 0xec, 0xfa, 0x99, 0x5a, 0xd0, 0x89, 0x53, 0x09, 0x18, 0x8c, 0x05, 0x12]⟩]

theorem consistent_sampleUses : Consistent sampleUses where
  unique := by decide +kernel
  unlike := by decide +kernel
  length := by decide +kernel

/-- The frame of a reply, and a request to switch the auto-lock off. -/
def sampleInput (ct : Buffer) (xor : UInt8) : AutolockSetInput where
  lockPayload :=
    Hex.encode ([0xff, 0x09, 0x2a, 0x00, 0x03, 0x00, 0x02, 0x48, 0x35] ++ ct ++ [xor])
  keyTime := 1700000001
  adminUserId := sampleUserId
  deviceSn := sampleSn
  enabled := false
  delaySeconds := none

def scheduledInput : AutolockSetInput :=
  sampleInput (sampleUses.getD 0 ⟨[], [], [], []⟩).ct 0x61

def unscheduledInput : AutolockSetInput :=
  sampleInput (sampleUses.getD 1 ⟨[], [], [], []⟩).ct 0x38

/-- What a reply parses to. -/
def sampleParsed (isSchedule : UInt8) : Ff09SettingsResponse :=
  ⟨0x00, fieldMap (Tlv.read (sampleReply isSchedule).tail)⟩

theorem decrypt_scheduledInput :
    decryptFf09Frame (knownAt sampleUses) scheduledInput.lockPayload scheduledInput.keyTime
      scheduledInput.adminUserId scheduledInput.deviceSn = .ok (sampleReply 1) := by
  decide +kernel

theorem decrypt_unscheduledInput :
    decryptFf09Frame (knownAt sampleUses) unscheduledInput.lockPayload unscheduledInput.keyTime
      unscheduledInput.adminUserId unscheduledInput.deviceSn = .ok (sampleReply 0) := by
  decide +kernel

/-- Switched off with its schedule on, the lock is sent a command without the schedule. -/
theorem scheduledInput_not_carried :
    ∃ frame, buildFf09AutolockSetFrame (knownAt sampleUses) scheduledInput 1700000010 1 = .ok frame ∧
      ¬ ∃ command, parseCommand (knownAt sampleUses) frame sampleUserId sampleSn = .ok command ∧
        Carries (sampleParsed 1) false none command := by
  have hinverts := inverts_knownAt consistent_sampleUses
  obtain ⟨frame, hframe⟩ :=
    (buildSettings_isOk (C := knownAt sampleUses) sampleSettings 1700000010 1).mpr
      ⟨⟨by decide, by decide, by decide⟩, by decide⟩
  refine ⟨frame, (buildAutolockSet_eq_ok decrypt_scheduledInput rfl).mpr
    ⟨60, 22, 6, rfl, rfl, rfl, hframe⟩, ?_⟩
  rintro ⟨command, hread, hcarries⟩
  have hcommand := parseCommand_buildSettings hinverts hframe
  obtain rfl := Except.ok.inj (hcommand.symm.trans hread)
  obtain ⟨w, hw, hflag⟩ := hcarries.isSchedule 1 rfl
  obtain rfl : 0 = w := Except.ok.inj hw
  exact hflag.mpr (by decide) rfl

/-- The same lock with its schedule off keeps everything. -/
theorem unscheduledInput_carried :
    ∃ frame,
      buildFf09AutolockSetFrame (knownAt sampleUses) unscheduledInput 1700000010 1 = .ok frame ∧
        ∃ command, parseCommand (knownAt sampleUses) frame sampleUserId sampleSn = .ok command ∧
          Carries (sampleParsed 0) false none command := by
  obtain ⟨hbuilt, hcarries⟩ := autolockSet_carries_iff (inverts_knownAt consistent_sampleUses)
    1700000010 1 decrypt_unscheduledInput rfl nofun
  have hpair : ∀ tag ∈ [0xa2, 0xa4, 0xa5], (sampleParsed 0).ReportsPair tag := by
    intro tag htag
    simp only [List.mem_cons, List.not_mem_nil, or_false] at htag
    obtain rfl | rfl | rfl := htag
    · exact ⟨[0x3c, 0x00], rfl, by decide⟩
    · exact ⟨[0x16, 0x00], rfl, by decide⟩
    · exact ⟨[0x06, 0x00], rfl, by decide⟩
  obtain ⟨frame, hframe⟩ := hbuilt.mpr ⟨by decide, by decide, hpair 0xa2 (by decide),
    hpair 0xa4 (by decide), hpair 0xa5 (by decide)⟩
  refine ⟨frame, hframe, (hcarries frame hframe).mpr fun v hv => ?_⟩
  obtain rfl : 0 = v := Except.ok.inj hv
  rfl

end Sample

end EufySdk.Ff09
