import Mathlib.Tactic
import EufySdk.Client.Availability
import EufySdk.Lib.Base64
import EufySdk.Lib.Hex
import EufySdk.Lib.Tlv
import EufySdk.Transport.DpPreset
import EufySdk.Transport.P2p.Codec

/-!
# Frames of a light

`transport/mqtt/dp-codec.ts`: a frame is a header with its size, a row of fields and a checksum. A
message from the device carries a frame as hex inside two levels of JSON; a message of any other
shape is nobody's error, and is dropped. A field announces its length in one byte.

- `buildDpFrame` — the frame a light is sent
- `parseDpMessage` — the frame in a message from a light
- `InboundMessage` — a message that carries a given frame
- `Fits` — when an effect comes through its own frame
-/

namespace EufySdk

open Bytes Codec

def DP_MAGIC : Buffer := [0xff, 0x09]

def DP_HEADER_LEN : ℕ := 9

def xorChecksum (buf : Buffer) : UInt8 := buf.foldl (· ^^^ ·) 0

/-- `tlv`: what `Buffer.from` keeps of the tag and of the length is a byte. -/
def DpField.tlv (f : DpField) : Buffer := UInt8.ofNat f.tag :: UInt8.ofNat f.value.length :: f.value

/-- The four bytes `writeUInt32LE(value)` writes. -/
def Buf.writeUInt32LE (value : ℕ) : Except Thrown Buffer :=
  if value < 4294967296 then .ok (uint32LE value) else .error .rangeError

/-- The fields of a frame behind its timestamp and its account. -/
def opened (timestamp : Buffer) (accountId : String) (fields : List DpField) : List DpField :=
  { tag := 0xa1, value := timestamp } :: { tag := 0xa2, value := utf8 accountId } :: fields

/-- `buildDpFrame`, at `now` seconds. -/
def buildDpFrame (now cmdCode : ℕ) (accountId : String) (fields : List DpField) :
    Except Thrown Buffer := do
  let subtype := UInt8.ofNat cmdCode
  let timestamp ← Buf.writeUInt32LE now
  let tlvBytes := (opened timestamp accountId fields).flatMap DpField.tlv
  let size ← Buf.writeUInt16LE (DP_HEADER_LEN + tlvBytes.length + 1)
  let header := DP_MAGIC ++ size ++ [0x03, 0x00, 0x02, 0x02, subtype]
  let body := header ++ tlvBytes
  return body ++ [xorChecksum body]

/-! ## Inbound -/

def RESPONSE_CMD_HI : ℕ := 0x0a

structure DpInboundFrame where
  envelopeCmd : ℚ
  cmd : ℕ
  status : Option UInt8
  fields : List DpField
  deriving DecidableEq

/-- The part of `parseDpMessage` behind the JSON. The walk over the fields ends at the checksum. -/
def parseDpFrame (envelopeCmd : ℚ) (buf : Buffer) : Option DpInboundFrame :=
  if buf.length < DP_HEADER_LEN + 1 ∨ Buf.subarray buf 0 2 ≠ DP_MAGIC then none
  else if readUIntLE (Buf.subarray buf 2 4) ≠ buf.length then none
  else
    let cmd := readUIntBE (Buf.subarray buf 7 9)
    let hasStatus := cmd / 256 = RESPONSE_CMD_HI
    let start := DP_HEADER_LEN + if hasStatus then 1 else 0
    if start > buf.length - 1 then none
    else
      some
        { envelopeCmd
          cmd
          status := if hasStatus then buf[DP_HEADER_LEN]? else none
          fields := (Tlv.walk (Buf.subarray buf start (buf.length - 1))).map fun e =>
            { tag := e.1.toNat, value := e.2 } }

/-- `/^(?:[0-9a-f]{2})+$/i`. -/
def isHexText (text : List Char) : Bool :=
  text ≠ [] && text.length % 2 = 0 && text.all fun c => (Hex.value? c).isSome

/-- `JSON.parse`, and the text of UTF-8 bytes. -/
structure DpText where
  jsonParse : String → Option Json
  utf8Text : Buffer → String
  utf8Text_utf8 : ∀ s, utf8Text (utf8 s) = s

/-- `jsonObject(value)?.data`, of a string. -/
def dataOf (T : DpText) (value : Option Json) : Option String :=
  match (Availability.jsonObject T.jsonParse value).bind (Json.get? "data") with
  | some (.str data) => some data
  | _ => none

def parseDpMessage (T : DpText) (raw : Json) : Option DpInboundFrame :=
  match (raw.get? "head").bind (Json.get? "cmd") with
  | some (.num envelopeCmd) =>
    match dataOf T (raw.get? "payload") with
    | none => none
    | some data =>
      match dataOf T (some (.str (T.utf8Text (Base64.decode data.toList)))) with
      | none => none
      | some hex =>
        if isHexText hex.toList then parseDpFrame envelopeCmd (Hex.decode hex.toList) else none
  | _ => none

/-- A message that carries a frame, with whatever else its objects hold. -/
structure InboundMessage (T : DpText) (frame : Buffer) where
  raw : Json
  envelopeCmd : ℚ
  payload : String
  outer : List (String × Json)
  text : String
  inner : List (String × Json)
  cmd_eq : (raw.get? "head").bind (Json.get? "cmd") = some (.num envelopeCmd)
  payload_eq : raw.get? "payload" = some (.str payload)
  outer_eq : T.jsonParse payload = some (.obj outer)
  outer_data : (Json.obj outer).get? "data" =
    some (.str (String.ofList (Base64.encode (utf8 text))))
  inner_eq : T.jsonParse text = some (.obj inner)
  inner_data : (Json.obj inner).get? "data" = some (.str (String.ofList (Hex.encode frame)))

/-! ## A frame through its codec -/

variable {now cmdCode : ℕ} {accountId : String} {fields : List DpField}

/-- The fields are written as a row with a tag byte and a length byte each. -/
theorem flatMap_tlv (fields : List DpField) :
    fields.flatMap DpField.tlv =
      Tlv.writeFields (fields.map fun f => (UInt8.ofNat f.tag, f.value)) := by
  rw [Tlv.writeFields, List.flatMap_map]
  rfl

/-- A field that one byte each for its tag and its length describes. -/
def DpField.Narrow (f : DpField) : Prop := f.tag ≤ 255 ∧ f.value.length ≤ 255

/-- **The row of fields**: it is walked back if and only if no tag and no length wraps. -/
theorem walk_tlv_iff :
    ((Tlv.walk (fields.flatMap DpField.tlv)).map fun e => DpField.mk e.1.toNat e.2) = fields ↔
      ∀ f ∈ fields, f.Narrow := by
  constructor
  · intro h f hf
    rw [← h] at hf
    obtain ⟨e, he, rfl⟩ := List.mem_map.mp hf
    exact ⟨Nat.le_of_lt_succ e.1.toNat_lt, Tlv.length_le_of_mem_walk he⟩
  · intro h
    have hlen : ∀ e ∈ fields.map fun f => (UInt8.ofNat f.tag, f.value), e.2.length ≤ 255 := by
      rintro _ he
      obtain ⟨f, hf, rfl⟩ := List.mem_map.mp he
      exact (h f hf).2
    rw [flatMap_tlv, Tlv.walk_writeFields hlen, List.map_map]
    refine (List.map_congr_left fun f hf => ?_).trans (List.map_id fields)
    have htag := (h f hf).1
    rw [Function.comp_apply, UInt8.toNat_ofNat', Nat.mod_eq_of_lt (by omega)]
    rfl

/-- A frame but for its checksum, its size in the header. -/
def frameBody (subtype : UInt8) (tlvBytes : Buffer) : Buffer :=
  DP_MAGIC ++ uint16LE (DP_HEADER_LEN + tlvBytes.length + 1) ++ [0x03, 0x00, 0x02, 0x02, subtype] ++
    tlvBytes

/-- The one way to build a frame: a clock of four bytes and a size of two. -/
theorem buildDpFrame_eq_ok {frame : Buffer} {tlvBytes : Buffer}
    (htlv : (opened (uint32LE now) accountId fields).flatMap DpField.tlv = tlvBytes) :
    buildDpFrame now cmdCode accountId fields = .ok frame ↔
      now < 4294967296 ∧ DP_HEADER_LEN + tlvBytes.length + 1 < 65536 ∧
        frameBody (UInt8.ofNat cmdCode) tlvBytes ++
          [xorChecksum (frameBody (UInt8.ofNat cmdCode) tlvBytes)] = frame := by
  constructor
  · intro h
    obtain ⟨timestamp, htime, h⟩ := bind_eq_ok.mp h
    obtain ⟨size, hsize, h⟩ := bind_eq_ok.mp h
    rw [Buf.writeUInt32LE] at htime
    split at htime
    · next hclock =>
      cases htime
      rw [Buf.writeUInt16LE, htlv] at hsize
      split at hsize
      · next hfits =>
        cases hsize
        rw [htlv] at h
        exact ⟨hclock, hfits, Except.ok.inj h⟩
      · cases hsize
    · cases htime
  · rintro ⟨hclock, hfits, rfl⟩
    rw [buildDpFrame, Buf.writeUInt32LE, if_pos hclock, ok_bind]
    dsimp only
    rw [htlv, Buf.writeUInt16LE, if_pos hfits]
    rfl

/-- A frame is read back, up to its fields. -/
theorem parseDpFrame_frame (envelopeCmd : ℚ) (subtype check : UInt8) {tlvBytes : Buffer}
    (hsize : DP_HEADER_LEN + tlvBytes.length + 1 < 65536) :
    parseDpFrame envelopeCmd (frameBody subtype tlvBytes ++ [check]) =
      some
        { envelopeCmd
          cmd := 0x0200 + subtype.toNat
          status := none
          fields := (Tlv.walk tlvBytes).map fun e => { tag := e.1.toNat, value := e.2 } } := by
  have htotal : (frameBody subtype tlvBytes ++ [check]).length =
      DP_HEADER_LEN + tlvBytes.length + 1 := by
    rw [List.length_append, frameBody, List.length_append]
    rfl
  have hread : readUIntLE (Buf.subarray (frameBody subtype tlvBytes ++ [check]) 2 4) =
      DP_HEADER_LEN + tlvBytes.length + 1 := readUIntLE_uint16LE hsize
  have hcmd : readUIntBE (Buf.subarray (frameBody subtype tlvBytes ++ [check]) 7 9) =
      0x0200 + subtype.toNat := by
    change subtype.toNat + 256 * 2 = _
    omega
  have hreport : (0x0200 + subtype.toNat) / 256 ≠ RESPONSE_CMD_HI := by
    have hbyte := subtype.toNat_lt
    rw [RESPONSE_CMD_HI]
    omega
  have hfields : Buf.subarray (frameBody subtype tlvBytes ++ [check]) (DP_HEADER_LEN + 0)
      (DP_HEADER_LEN + tlvBytes.length + 1 - 1) = tlvBytes := by
    have hstop : DP_HEADER_LEN + tlvBytes.length = (frameBody subtype tlvBytes).length := by
      rw [frameBody, List.length_append]
      rfl
    rw [Buf.subarray, Nat.add_sub_cancel, hstop, List.take_left]
    exact List.drop_left' rfl
  have hshape : ¬((frameBody subtype tlvBytes ++ [check]).length < DP_HEADER_LEN + 1 ∨
      Buf.subarray (frameBody subtype tlvBytes ++ [check]) 0 2 ≠ DP_MAGIC) := by
    rw [htotal]
    rintro (hshort | hmagic)
    · omega
    · exact hmagic rfl
  rw [parseDpFrame, if_neg hshape, hread, htotal, if_neg (not_not_intro rfl), hcmd]
  dsimp only
  rw [if_neg hreport, if_neg (by omega), if_neg hreport, hfields]

theorem isHexText_encode {frame : Buffer} (h : frame ≠ []) :
    isHexText (Hex.encode frame) = true := by
  have hdigits : ∀ frame : Buffer, (Hex.encode frame).length % 2 = 0 ∧
      ((Hex.encode frame).all fun c => (Hex.value? c).isSome) = true := by
    intro frame
    induction frame with
    | nil => exact ⟨rfl, rfl⟩
    | cons b frame ih =>
      have hb := b.toNat_lt
      rw [Hex.encode, List.length_cons, List.length_cons, List.all_cons, List.all_cons,
        Hex.value?_digit (by omega), Hex.value?_digit (by omega)]
      exact ⟨by omega, ih.2⟩
  obtain ⟨hlen, hall⟩ := hdigits frame
  have hne : Hex.encode frame ≠ [] := by
    cases frame with
    | nil => exact absurd rfl h
    | cons b frame => exact List.cons_ne_nil _ _
  rw [isHexText, hlen, hall, decide_eq_true hne]
  rfl

/-- The frame is what comes out of the message that carries it. -/
theorem InboundMessage.parseDpMessage_eq {T : DpText} {frame : Buffer} (m : InboundMessage T frame)
    (h : frame ≠ []) : parseDpMessage T m.raw = parseDpFrame m.envelopeCmd frame := by
  have houter : dataOf T (m.raw.get? "payload") =
      some (String.ofList (Base64.encode (utf8 m.text))) := by
    rw [m.payload_eq, dataOf, Availability.jsonObject, m.outer_eq]
    dsimp only
    rw [Option.bind_some, m.outer_data]
  have htext : T.utf8Text (Base64.decode (String.ofList (Base64.encode (utf8 m.text))).toList) =
      m.text := by
    rw [String.toList_ofList, Base64.decode_encode, T.utf8Text_utf8]
  have hinner : dataOf T (some (.str m.text)) = some (String.ofList (Hex.encode frame)) := by
    rw [dataOf, Availability.jsonObject, m.inner_eq]
    dsimp only
    rw [Option.bind_some, m.inner_data]
  rw [parseDpMessage, m.cmd_eq]
  dsimp only
  rw [houter]
  dsimp only
  rw [htext, hinner]
  dsimp only
  rw [String.toList_ofList, if_pos (isHexText_encode h), Hex.decode_encode]

/-- What a device that sends a frame back, as a report, makes the client read. -/
def report (envelopeCmd : ℚ) (now cmdCode : ℕ) (accountId : String) (fields : List DpField) :
    DpInboundFrame where
  envelopeCmd
  cmd := 0x0200 + cmdCode % 256
  status := none
  fields := opened (uint32LE now) accountId fields

/-- **The codec**: a frame is built and its fields are read back if and only if the clock fits four
bytes, the size two, and every tag and length one. -/
theorem report_iff {T : DpText} (envelope : ∀ frame, InboundMessage T frame) (cmdCode : ℕ) :
    (∃ frame, buildDpFrame now cmdCode accountId fields = .ok frame ∧
      parseDpMessage T (envelope frame).raw =
        some (report (envelope frame).envelopeCmd now cmdCode accountId fields)) ↔
    now < 4294967296 ∧
      DP_HEADER_LEN + ((opened (uint32LE now) accountId fields).flatMap DpField.tlv).length + 1 <
        65536 ∧
      ∀ f ∈ opened (uint32LE now) accountId fields, f.Narrow := by
  set tlvBytes := (opened (uint32LE now) accountId fields).flatMap DpField.tlv with htlv
  set frame := frameBody (UInt8.ofNat cmdCode) tlvBytes ++
    [xorChecksum (frameBody (UInt8.ofNat cmdCode) tlvBytes)] with hframe
  have hread (hsize : DP_HEADER_LEN + tlvBytes.length + 1 < 65536) :
      parseDpMessage T (envelope frame).raw =
          some (report (envelope frame).envelopeCmd now cmdCode accountId fields) ↔
        ∀ f ∈ opened (uint32LE now) accountId fields, f.Narrow := by
    rw [(envelope frame).parseDpMessage_eq (List.concat_ne_nil _ _), hframe,
      parseDpFrame_frame _ _ _ hsize, UInt8.toNat_ofNat', report, Option.some_inj,
      DpInboundFrame.mk.injEq, ← walk_tlv_iff]
    exact ⟨fun h => h.2.2.2, fun h => ⟨rfl, rfl, rfl, h⟩⟩
  simp only [buildDpFrame_eq_ok htlv.symm, and_assoc]
  constructor
  · rintro ⟨_, hclock, hfits, rfl, hparse⟩
    exact ⟨hclock, hfits, (hread hfits).mp hparse⟩
  · rintro ⟨hclock, hfits, hnarrow⟩
    exact ⟨frame, hclock, hfits, rfl, (hread hfits).mpr hnarrow⟩

/-! ## An effect through its frame -/

namespace DpPreset

variable {P : DpPlatform} {layers : List DpPresetLayer}

/-- The layers have consecutive tags, and are as long as their colours make them. -/
theorem narrow_layerFields_iff {tag : ℕ} (htag : tag ≤ 256)
    (h : layerFields P tag layers = .ok fields) :
    (∀ f ∈ fields, f.Narrow) ↔ tag + layers.length ≤ 256 ∧ ∀ l ∈ layers, LayerFits l := by
  induction layers generalizing tag fields with
  | nil =>
    cases h
    exact ⟨fun _ => ⟨htag, nofun⟩, fun _ => nofun⟩
  | cons l layers ih =>
    obtain ⟨value, hvalue, h⟩ := bind_eq_ok.mp h
    obtain ⟨rest, hrest, h⟩ := bind_eq_ok.mp h
    cases h
    rw [List.forall_mem_cons, List.forall_mem_cons, List.length_cons, DpField.Narrow,
      length_layerBlob_le_iff hvalue]
    dsimp only
    constructor
    · rintro ⟨⟨hbyte, hfits⟩, hnarrow⟩
      obtain ⟨hcount, hlayers⟩ := (ih (by omega) hrest).mp hnarrow
      exact ⟨by omega, hfits, hlayers⟩
    · rintro ⟨hcount, hfits, hlayers⟩
      exact ⟨⟨by omega, hfits⟩, (ih (by omega) hrest).mpr ⟨by omega, hlayers⟩⟩

theorem length_layerFields {tag : ℕ} (h : layerFields P tag layers = .ok fields) :
    fields.length = layers.length := by
  induction layers generalizing tag fields with
  | nil =>
    cases h
    rfl
  | cons l layers ih =>
    obtain ⟨value, -, h⟩ := bind_eq_ok.mp h
    obtain ⟨rest, hrest, h⟩ := bind_eq_ok.mp h
    cases h
    rw [List.length_cons, List.length_cons, ih hrest]

/-- An effect that its frame can carry: the clock fits four bytes, the account and every layer
one length byte, and the last layer one tag byte. -/
structure Fits (now : ℕ) (accountId : String) (spec : DpPresetSpec) : Prop where
  clock : now < 4294967296
  account : (utf8 accountId).length ≤ 255
  layers : spec.layers.length ≤ 87
  colors : ∀ l ∈ spec.layers, LayerFits l

variable {spec : DpPresetSpec}

/-- The fields of an effect are narrow exactly when its layers are. -/
theorem narrow_dpPresetFields_iff (now : ℕ) (h : dpPresetFields P spec = .ok fields) :
    (∀ f ∈ opened (uint32LE now) accountId fields, f.Narrow) ↔
      (utf8 accountId).length ≤ 255 ∧ spec.layers.length ≤ 87 ∧ ∀ l ∈ spec.layers, LayerFits l := by
  rw [dpPresetFields] at h
  cases hlayers : layerFields P 0xa9 spec.layers with
  | error e =>
    rw [hlayers] at h
    cases h
  | ok found =>
    rw [hlayers] at h
    cases h
    have hfound := narrow_layerFields_iff (by decide) hlayers
    have hcount : 0xa9 + spec.layers.length ≤ 256 ↔ spec.layers.length ≤ 87 := by omega
    simp only [opened, List.cons_append, List.nil_append, List.forall_mem_cons, hfound, hcount]
    constructor
    · rintro ⟨-, haccount, -, -, -, -, -, hrest⟩
      exact ⟨haccount.2, hrest⟩
    · rintro ⟨haccount, hrest⟩
      have hword (tag n : ℕ) (htag : tag ≤ 255) : (DpField.mk tag (uint32LE n)).Narrow :=
        ⟨htag, Nat.le_of_ble_eq_true rfl⟩
      have hbyte (tag : ℕ) (b : UInt8) (htag : tag ≤ 255) : (DpField.mk tag [b]).Narrow :=
        ⟨htag, Nat.le_of_ble_eq_true rfl⟩
      exact ⟨hword _ _ (by decide), ⟨(by decide : 0xa2 ≤ 255), haccount⟩, hword _ _ (by decide),
        hbyte _ _ (by decide), hbyte _ _ (by decide), hbyte _ _ (by decide),
        hbyte _ _ (by decide), hrest⟩

theorem length_dpPresetFields (h : dpPresetFields P spec = .ok fields) :
    fields.length = 5 + spec.layers.length := by
  rw [dpPresetFields] at h
  cases hlayers : layerFields P 0xa9 spec.layers with
  | error e =>
    rw [hlayers] at h
    cases h
  | ok found =>
    rw [hlayers] at h
    cases h
    rw [List.length_append, length_layerFields hlayers]
    rfl

/-- Narrow fields of so few layers never fill the two bytes of the size. -/
theorem size_lt (h : dpPresetFields P spec = .ok fields) (hlayers : spec.layers.length ≤ 87)
    (hnarrow : ∀ f ∈ opened (uint32LE now) accountId fields, f.Narrow) :
    DP_HEADER_LEN + ((opened (uint32LE now) accountId fields).flatMap DpField.tlv).length + 1 <
      65536 := by
  have hlen : ∀ e ∈ (opened (uint32LE now) accountId fields).map
      fun f => (UInt8.ofNat f.tag, f.value), e.2.length ≤ 255 := by
    intro e he
    obtain ⟨f, hf, rfl⟩ := List.mem_map.mp he
    exact (hnarrow f hf).2
  have hsize := Tlv.length_writeFields_le hlen
  rw [← flatMap_tlv, List.length_map, opened, List.length_cons, List.length_cons,
    length_dpPresetFields h] at hsize
  rw [DP_HEADER_LEN]
  simp only [opened]
  omega

/-- **An effect through its own frame**: of the effects that the validator accepts, exactly those
that fit come back with every field they were sent with. -/
theorem roundTrip_iff_fits {T : DpText} (envelope : ∀ frame, InboundMessage T frame)
    (cmdCode now : ℕ) (accountId : String) (spec : DpPresetSpec)
    (hser : specIsSerializable P (.num spec.speed) (.num spec.layerExecutionMode) spec.layers =
      true) :
    (∃ fields frame, dpPresetFields P spec = .ok fields ∧
      buildDpFrame now cmdCode accountId fields = .ok frame ∧
      parseDpMessage T (envelope frame).raw =
        some (report (envelope frame).envelopeCmd now cmdCode accountId fields)) ↔
      Fits now accountId spec := by
  obtain ⟨-, -, -, hpackable⟩ := (specIsSerializable_iff _ _).mp hser
  obtain ⟨fields, hfields⟩ := (dpPresetFields_iff spec).mpr hpackable
  constructor
  · rintro ⟨fields', frame, hfields', hframe⟩
    cases hfields.symm.trans hfields'
    obtain ⟨hclock, -, hnarrow⟩ := (report_iff envelope cmdCode).mp ⟨frame, hframe⟩
    obtain ⟨haccount, hlayers, hcolors⟩ := (narrow_dpPresetFields_iff now hfields).mp hnarrow
    exact ⟨hclock, haccount, hlayers, hcolors⟩
  · intro hfits
    have hnarrow := (narrow_dpPresetFields_iff now hfields).mpr
      ⟨hfits.account, hfits.layers, hfits.colors⟩
    obtain ⟨frame, hframe⟩ := (report_iff envelope cmdCode).mpr
      ⟨hfits.clock, size_lt hfields hfits.layers hnarrow, hnarrow⟩
    exact ⟨fields, frame, hfields, hframe⟩

/-! ## A message without escapes -/

def quoteOpen : List Char := ['{', '"', 'd', 'a', 't', 'a', '"', ':', '"']

def quoteClose : List Char := ['"', '}']

/-- The data of a text that is one string behind the key `data`. -/
def unquote (text : List Char) : Option (List Char) :=
  let data := (text.drop quoteOpen.length).take
    (text.length - (quoteOpen.length + quoteClose.length))
  if quoteOpen ++ data ++ quoteClose = text then some data else none

theorem unquote_quote (data : List Char) :
    unquote (quoteOpen ++ data ++ quoteClose) = some data := by
  have hlen : (quoteOpen ++ data ++ quoteClose).length -
      (quoteOpen.length + quoteClose.length) = data.length := by
    rw [List.length_append, List.length_append]
    omega
  have hdata : ((quoteOpen ++ data ++ quoteClose).drop quoteOpen.length).take data.length =
      data := by
    rw [List.append_assoc, List.drop_left, List.take_left]
  rw [unquote, hlen, hdata]
  exact if_pos rfl

/-- Texts without a quote or an escape in their data are parsed. -/
def sampleText : DpText where
  jsonParse text :=
    (unquote text.toList).map fun data => .obj [("data", .str (String.ofList data))]
  utf8Text b :=
    match b.toByteArray.utf8Decode? with
    | some chars => String.ofList chars.toList
    | none => ""
  utf8Text_utf8 s := by
    change (match (List.utf8Encode s.toList).utf8Decode? with
      | some chars => String.ofList chars.toList
      | none => "") = s
    rw [List.utf8Decode?_utf8Encode]
    exact String.ofList_toList

theorem jsonParse_quote (data : List Char) :
    sampleText.jsonParse (String.ofList (quoteOpen ++ data ++ quoteClose)) =
      some (.obj [("data", .str (String.ofList data))]) := by
  change (unquote (String.ofList _).toList).map _ = _
  rw [String.toList_ofList, unquote_quote]
  rfl

/-- A message with nothing but what is read of it. -/
def sampleEnvelope (frame : Buffer) : InboundMessage sampleText frame :=
  let text := String.ofList (quoteOpen ++ Hex.encode frame ++ quoteClose)
  let data := Base64.encode (utf8 text)
  let payload := String.ofList (quoteOpen ++ data ++ quoteClose)
  { raw := .obj [("head", .obj [("cmd", .num 17)]), ("payload", .str payload)]
    envelopeCmd := 17
    payload
    outer := [("data", .str (String.ofList data))]
    text
    inner := [("data", .str (String.ofList (Hex.encode frame)))]
    cmd_eq := rfl
    payload_eq := rfl
    outer_eq := jsonParse_quote data
    outer_data := rfl
    inner_eq := jsonParse_quote (Hex.encode frame)
    inner_data := rfl }

theorem roundTrip_solid :
    ∃ fields frame, dpPresetFields samplePlatform solidSpec = .ok fields ∧
      buildDpFrame 1700000000 0x020d "0" fields = .ok frame ∧
      parseDpMessage sampleText (sampleEnvelope frame).raw =
        some (report 17 1700000000 0x020d "0" fields) := by
  refine (roundTrip_iff_fits sampleEnvelope 0x020d 1700000000 "0" solidSpec (by decide)).mpr
    ⟨by decide, by decide, by decide, ?_⟩
  intro l hl
  obtain rfl := List.mem_singleton.mp hl
  exact (layerFits_iff rfl rfl).mpr (by decide)

/-- A gradient over forty-six colours, one more than its length byte can announce. -/
def wideLayer : DpPresetLayer where
  current_layer_type := .num (.finite 0)
  colors := .str (String.ofList (List.replicate 46 "ff0000|".toList).flatten)

def wideSpec : DpPresetSpec where
  lightId := .finite 1042
  speed := .finite 50
  layerExecutionMode := .finite 0
  layers := [wideLayer]

theorem layerColors_wideLayer :
    layerColors wideLayer = .ok (List.replicate 46 "ff0000".toList) := by
  have hsplit : (((List.replicate 46 "ff0000|".toList).flatten.splitOn '|').filter (· ≠ [])) =
      List.replicate 46 "ff0000".toList := by decide +kernel
  rw [← hsplit, layerColors, wideLayer]
  dsimp only [CatalogValue.orElse]
  rw [String.toList_ofList]

/-- The validator accepts the wide layer, and its frame is not read back. -/
theorem wide_layer_swallowed :
    specIsSerializable samplePlatform (.num wideSpec.speed) (.num wideSpec.layerExecutionMode)
        wideSpec.layers = true ∧
      ¬∃ fields frame, dpPresetFields samplePlatform wideSpec = .ok fields ∧
        buildDpFrame 1700000000 0x020d "0" fields = .ok frame ∧
        parseDpMessage sampleText (sampleEnvelope frame).raw =
          some (report 17 1700000000 0x020d "0" fields) := by
  constructor
  · have hwide : Packable samplePlatform wideLayer :=
      ⟨⟨_, rfl⟩, ⟨_, rfl⟩, ⟨_, layerColors_wideLayer, by decide, by decide⟩⟩
    rw [specIsSerializable_iff]
    exact ⟨List.cons_ne_nil _ _, ⟨_, rfl⟩, ⟨_, rfl⟩, List.forall_mem_singleton.mpr hwide⟩
  · rintro ⟨fields, frame, hfields, hframe⟩
    obtain ⟨-, -, hnarrow⟩ := (report_iff sampleEnvelope 0x020d).mp ⟨frame, hframe⟩
    obtain ⟨-, -, hcolors⟩ := (narrow_dpPresetFields_iff 1700000000 hfields).mp hnarrow
    have hfits := hcolors wideLayer List.mem_cons_self
    rw [layerFits_iff rfl layerColors_wideLayer, List.length_replicate] at hfits
    exact absurd hfits (by decide)

end DpPreset

end EufySdk
