import Mathlib.Tactic
import EufySdk.Client.Availability
import EufySdk.Lib.Base64
import EufySdk.Lib.Hex
import EufySdk.Transport.DpCodec

/-!
# The map stream of a robot

`transport/mqtt/biz-stream.ts` and `core/raw-dp-hex.ts`: a message of the stream is unwrapped to the
frame it carries, which comes as hexadecimal text and goes on as the base64 text of the same bytes.
Text that is not clean is refused, since it would be read as shorter than it is.

- `hexToRawDp`, `parseBizMapFrame`
- `BizMessage` — a message that carries a frame, however its envelope is spelled
- `parseBizMapFrame_message` — the frame is unwrapped
-/

namespace EufySdk

open Bytes

def hexToRawDp (hex : String) : Option String :=
  if hex.toList.length = 0 ∨ hex.toList.length % 2 ≠ 0 ∨
      ¬hex.toList.all (fun c => (Hex.value? c).isSome) = true then none
  else some (String.ofList (Base64.encode (Hex.decode hex.toList)))

/-- Bytes that are sent as their digits go on as they are. -/
theorem hexToRawDp_encode {b : Buffer} (hb : b ≠ []) :
    hexToRawDp (String.ofList (Hex.encode b)) = some (String.ofList (Base64.encode b)) := by
  have htext := isHexText_encode hb
  rw [isHexText, Bool.and_eq_true, Bool.and_eq_true] at htext
  obtain ⟨⟨hne, heven⟩, hall⟩ := htext
  rw [hexToRawDp, String.toList_ofList, Hex.decode_encode, if_neg]
  rintro (hlength | hodd | hnot)
  · exact of_decide_eq_true hne (List.eq_nil_of_length_eq_zero hlength)
  · exact hodd (of_decide_eq_true heven)
  · exact hnot hall

/-- What goes on is every byte of the text, of which none is lost. -/
theorem hexToRawDp_eq_some {hex raw : String} (h : hexToRawDp hex = some raw) :
    ∃ b : Buffer, b ≠ [] ∧ raw = String.ofList (Base64.encode b) ∧
      Hex.encode b = hex.toList.map Char.toLower := by
  rw [hexToRawDp] at h
  split_ifs at h with hrefused
  simp only [not_or, not_not] at hrefused
  obtain ⟨hne, heven, hclean⟩ := hrefused
  have hwhole := Hex.encode_decode heven (List.all_eq_true.mp hclean)
  refine ⟨Hex.decode hex.toList, fun hnil => hne ?_, (Option.some.inj h).symm, hwhole⟩
  rw [hnil] at hwhole
  exact List.length_eq_zero_iff.mpr (List.map_eq_nil_iff.mp hwhole.symm)

namespace BizStream

namespace BIZ_PROTOCOL

def MAP_DATA : ℕ := 41
def LIVE_PHOTO : ℕ := 43

end BIZ_PROTOCOL

namespace BIZ_CHANNEL

def SCENES : ℕ := 0
def MAP_INFO : ℕ := 1
def PATH : ℕ := 2
def ROOM_OUTLINE : ℕ := 3
def ROOM_PARAMS : ℕ := 4
def RESTRICTED_ZONE : ℕ := 5
def DYNAMIC_DATA : ℕ := 6
def TEMPORARY_DATA : ℕ := 7
def OBSTACLE_INFO : ℕ := 8
def MAP_DATA : ℕ := 9
def CRUISE_DATA : ℕ := 10

end BIZ_CHANNEL

structure BizMapFrame where
  channelId : ℕ
  clearType : ℕ
  dataType : ℕ
  offset : ℕ
  len : ℕ
  payload : String
  deriving DecidableEq, Repr

/-- `JSON.parse`, and `Number(text)` where it is finite. -/
structure BizText where
  jsonParse : String → Option Json
  number : String → Option ℚ

def safeCount (n : ℚ) : Option ℕ :=
  if n.den = 1 ∧ 0 ≤ n ∧ n ≤ 2 ^ 53 - 1 then some n.num.toNat else none

variable (T : BizText)

def count : Option Json → Option ℕ
  | some (.num n) => safeCount n
  | some (.str text) => (T.number text).bind safeCount
  | _ => none

/-- An object that is no array. -/
def objectOf : Option Json → Option Json
  | some (.obj fields) => some (.obj fields)
  | _ => none

def parseBizMapFrame (raw : Json) : Option BizMapFrame := do
  let outer := raw.get? "payload"
  let payload ← (Availability.jsonObject T.jsonParse outer).or (objectOf outer)
  if count T (payload.get? "protocol") ≠ some BIZ_PROTOCOL.MAP_DATA then none
  else
    let d ← objectOf (payload.get? "data")
    let channelId ← count T (d.get? "channel_id")
    let clearType ← count T (d.get? "clear_type")
    let dataType ← count T (d.get? "data_type")
    let offset ← count T (d.get? "offset")
    let len ← count T (d.get? "len")
    let payload ← (match d.get? "data" with
      | some (.str hex) => hexToRawDp hex
      | _ => none)
    return { channelId, clearType, dataType, offset, len, payload }

/-! ### Messages -/

/-- A count as a sender spells it: a number, or the text of one. -/
def Spelled (n : ℕ) (value : Option Json) : Prop :=
  n < 2 ^ 53 ∧
    (value = some (.num n) ∨ ∃ text, value = some (.str text) ∧ T.number text = some (n : ℚ))

/-- A message that carries bytes of a channel, with whatever else its objects hold; the payload is
an object or the text of one. -/
structure BizMessage (channelId offset : ℕ) (bytes : Buffer) where
  raw : Json
  payload : List (String × Json)
  data : List (String × Json)
  clearType : ℕ
  dataType : ℕ
  len : ℕ
  raw_payload : raw.get? "payload" = some (.obj payload) ∨
    ∃ text, raw.get? "payload" = some (.str text) ∧ T.jsonParse text = some (.obj payload)
  protocol : Spelled T BIZ_PROTOCOL.MAP_DATA ((Json.obj payload).get? "protocol")
  payload_data : (Json.obj payload).get? "data" = some (.obj data)
  channel : Spelled T channelId ((Json.obj data).get? "channel_id")
  clear : Spelled T clearType ((Json.obj data).get? "clear_type")
  kind : Spelled T dataType ((Json.obj data).get? "data_type")
  place : Spelled T offset ((Json.obj data).get? "offset")
  length : Spelled T len ((Json.obj data).get? "len")
  hex : (Json.obj data).get? "data" = some (.str (String.ofList (Hex.encode bytes)))

variable {T}

theorem count_of_spelled {n : ℕ} {value : Option Json} (h : Spelled T n value) :
    count T value = some n := by
  obtain ⟨hlt, hvalue⟩ := h
  have hsafe : safeCount (n : ℚ) = some n := by
    have hle : (n : ℚ) ≤ 2 ^ 53 - 1 := by
      have : n + 1 ≤ 2 ^ 53 := hlt
      have hcast : ((n + 1 : ℕ) : ℚ) ≤ ((2 ^ 53 : ℕ) : ℚ) := Nat.cast_le.mpr this
      push_cast at hcast
      linarith
    rw [safeCount, if_pos ⟨Rat.den_natCast n, Nat.cast_nonneg n, hle⟩, Rat.num_natCast,
      Int.toNat_natCast]
  rcases hvalue with rfl | ⟨text, rfl, hnumber⟩
  · exact hsafe
  · rw [count, hnumber, Option.bind_some, hsafe]

/-- **A frame is unwrapped** from its message: its channel, its place and its bytes. -/
theorem parseBizMapFrame_message {channelId offset : ℕ} {bytes : Buffer}
    (m : BizMessage T channelId offset bytes) (hbytes : bytes ≠ []) :
    parseBizMapFrame T m.raw =
      some
        { channelId
          clearType := m.clearType
          dataType := m.dataType
          offset
          len := m.len
          payload := String.ofList (Base64.encode bytes) } := by
  have hpayload : (Availability.jsonObject T.jsonParse (m.raw.get? "payload")).or
      (objectOf (m.raw.get? "payload")) = some (.obj m.payload) := by
    rcases m.raw_payload with hobject | ⟨text, htext, hparse⟩
    · rw [hobject]
      rfl
    · rw [htext, Availability.jsonObject, hparse]
      rfl
  rw [parseBizMapFrame, hpayload]
  dsimp only [bind, Option.bind]
  rw [count_of_spelled m.protocol, if_neg (fun h => h rfl), m.payload_data]
  dsimp only [objectOf]
  rw [count_of_spelled m.channel, count_of_spelled m.clear, count_of_spelled m.kind,
    count_of_spelled m.place, count_of_spelled m.length, m.hex]
  dsimp only
  rw [hexToRawDp_encode hbytes]
  rfl

end BizStream

end EufySdk
