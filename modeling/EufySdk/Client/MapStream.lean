import Mathlib.Tactic
import EufySdk.Model.HeldMap
import EufySdk.Transport.Mqtt.BizStream

/-!
# The maps of a client

What `client/eufy-mega.ts` makes of the map stream: a message that carries a frame is decoded by the
channel it came on (`client/map-channels.ts`) and given to the map of its robot, and the map is
announced if that changed it. A message of a Tuya robot is offered to the reader of its data points
first (`transport/tuya/dp-codec.ts`).

- `decodeMapFrame`, `MapClient.applyMapFrame`, `MapClient.onMessage`
- `mapStores_eq` — the map of a robot is what its own frames have made of it
- `Broadcast` — a message in which a robot sends a part it holds
- `mapStream_delivers` — each map holds what its robot sent, among the messages of others
-/

namespace EufySdk

open Bytes BizStream Latest

/-- `/^[1-9]\d*$/`. -/
def isDpKey (key : String) : Bool :=
  match key.toList with
  | [] => false
  | c :: cs => c.isDigit && c ≠ '0' && cs.all Char.isDigit

/-- The keys of an object that is no array. -/
def entriesOf : Option Json → Option (List (String × Json))
  | some (.obj fields) => some fields
  | _ => none

def parseTuyaDpReport (jsonParse : String → Option Json) (raw : Json) :
    Option (List (String × Json)) :=
  match raw with
  | .obj _ =>
    match (Availability.jsonObject jsonParse (raw.get? "payload")).bind fun payload =>
        entriesOf (payload.get? "data") with
    | some data =>
      match entriesOf ((Json.obj data).get? "dps") with
      | some dps => some dps
      | none =>
        let filtered := data.filter fun f => isDpKey f.1
        if filtered.isEmpty then none else some filtered
    | none =>
      match entriesOf (raw.get? "dps") with
      | some dps => some dps
      | none => (entriesOf (raw.get? "data")).bind fun data => entriesOf ((Json.obj data).get? "dps")
  | _ => none

namespace MapStream

/-- The reader of a channel, if it has one. -/
def readerOf (codec : RawDpCodec) (toText : Buffer → String) (channelId : ℕ) (raw : String) :
    Option (VacuumMapPiece MapBody) :=
  if channelId = BIZ_CHANNEL.MAP_DATA then
    (decodePart codec toText raw .plane).map fun p => .stamped ⟨.plane, p⟩
  else if channelId = BIZ_CHANNEL.ROOM_OUTLINE then
    (decodePart codec toText raw .outline).map fun p => .stamped ⟨.outline, p⟩
  else if channelId = BIZ_CHANNEL.ROOM_PARAMS then
    (decodePart codec toText raw .rooms).map fun p => .stamped ⟨.rooms, p⟩
  else if channelId = BIZ_CHANNEL.RESTRICTED_ZONE then
    (decodePart codec toText raw .zones).map fun p => .stamped ⟨.zones, p⟩
  else if channelId = BIZ_CHANNEL.DYNAMIC_DATA then (decodeVacuumPose codec raw).map .pose
  else none

def decodeMapFrame (codec : RawDpCodec) (toText : Buffer → String) (frame : BizMapFrame) :
    Option (VacuumMapPiece MapBody) :=
  if frame.offset ≠ 0 then none else readerOf codec toText frame.channelId frame.payload

/-- The maps, and what was emitted, each with the robot it is about. -/
structure MapClient where
  mapStores : String → Option (VacuumMapStore MapBody) := fun _ => none
  mapFrames : List (String × BizMapFrame) := []
  maps : List (String × VacuumMapSnapshot MapBody) := []

/-- A message, with the robot its topic names, and whether that is a Tuya one. -/
structure RealtimeMessage where
  deviceSn : Option String
  raw : Json
  tuya : Bool

section Client

variable (T : BizText) (codec : RawDpCodec) (toText : Buffer → String)

/-- The frame a message comes to, unless it has no robot or is taken for data points. -/
def frameOf (m : RealtimeMessage) : Option (String × BizMapFrame) := do
  let sn ← m.deviceSn
  if m.tuya && (parseTuyaDpReport T.jsonParse m.raw).isSome then none
  else
    let frame ← parseBizMapFrame T m.raw
    return (sn, frame)

theorem object_le_newStore : (0 : ℕ) ≤ 0 := le_rfl

def newStore : VacuumMapStore MapBody := { object_le := object_le_newStore }

namespace MapClient

def applyMapFrame (c : MapClient) (deviceSn : String) (frame : BizMapFrame) : MapClient :=
  match decodeMapFrame codec toText frame with
  | none => c
  | some piece =>
    let result := ((c.mapStores deviceSn).getD newStore).apply piece
    { c with
      mapStores := Function.update c.mapStores deviceSn (some result.1)
      maps := if result.2 then c.maps ++ [(deviceSn, result.1.current)] else c.maps }

/-- The part of the handler of a message that the map stream takes. -/
def onMessage (c : MapClient) (m : RealtimeMessage) : MapClient :=
  match frameOf T m with
  | none => c
  | some (deviceSn, frame) =>
    applyMapFrame codec toText { c with mapFrames := c.mapFrames ++ [(deviceSn, frame)] } deviceSn
      frame

def onMessages (messages : List RealtimeMessage) : MapClient :=
  messages.foldl (onMessage T codec toText) {}

end MapClient

/-! ## The frames of one robot -/

/-- The piece a message has for a robot. -/
def pieceFor (sn : String) (m : RealtimeMessage) : Option (VacuumMapPiece MapBody) :=
  (frameOf T m).bind fun f => if f.1 = sn then decodeMapFrame codec toText f.2 else none

/-- The snapshots a store announces, given some pieces. -/
def announced (s : VacuumMapStore MapBody) :
    List (VacuumMapPiece MapBody) → List (VacuumMapSnapshot MapBody)
  | [] => []
  | piece :: pieces =>
    (if (s.apply piece).2 then [(s.apply piece).1.current] else []) ++
      announced (s.apply piece).1 pieces

/-- The store of a robot behind some pieces, which is made when the first one comes. -/
def storeBehind (store : Option (VacuumMapStore MapBody)) (pieces : List (VacuumMapPiece MapBody)) :
    Option (VacuumMapStore MapBody) :=
  if pieces = [] then store else some ((store.getD newStore).applyAll pieces)

/-- What was announced of a robot. -/
def MapClient.mapsOf (c : MapClient) (sn : String) : List (VacuumMapSnapshot MapBody) :=
  (c.maps.filter fun e => e.1 = sn).map Prod.snd

/-- A message leaves the map of a robot for which it has nothing. -/
theorem onMessage_of_none (c : MapClient) {m : RealtimeMessage} {sn : String}
    (h : pieceFor T codec toText sn m = none) :
    (c.onMessage T codec toText m).mapStores sn = c.mapStores sn ∧
      (c.onMessage T codec toText m).mapsOf sn = c.mapsOf sn := by
  rw [MapClient.onMessage]
  rw [pieceFor] at h
  cases hframe : frameOf T m with
  | none => exact ⟨rfl, rfl⟩
  | some f =>
    obtain ⟨deviceSn, frame⟩ := f
    rw [hframe, Option.bind_some] at h
    dsimp only at h ⊢
    rw [MapClient.applyMapFrame]
    cases hpiece : decodeMapFrame codec toText frame with
    | none => exact ⟨rfl, rfl⟩
    | some piece =>
      have hother : deviceSn ≠ sn := by
        rintro rfl
        rw [if_pos rfl, hpiece] at h
        cases h
      dsimp only
      refine ⟨Function.update_of_ne hother.symm _ _, ?_⟩
      rw [MapClient.mapsOf, MapClient.mapsOf]
      split_ifs
      · rw [List.filter_append, List.filter_cons_of_neg (by simpa using hother), List.filter_nil,
          List.append_nil]
      · rfl

/-- A piece goes to the map of its robot, and its snapshot is announced if the map says so. -/
theorem onMessage_of_some (c : MapClient) {m : RealtimeMessage} {sn : String}
    {piece : VacuumMapPiece MapBody} (h : pieceFor T codec toText sn m = some piece) :
    (c.onMessage T codec toText m).mapStores sn =
        some (((c.mapStores sn).getD newStore).apply piece).1 ∧
      (c.onMessage T codec toText m).mapsOf sn =
        c.mapsOf sn ++ announced ((c.mapStores sn).getD newStore) [piece] := by
  obtain ⟨⟨deviceSn, frame⟩, hframe, hpiece⟩ := Option.bind_eq_some_iff.mp h
  dsimp only at hpiece
  split_ifs at hpiece with hsn
  subst hsn
  rw [MapClient.onMessage, hframe]
  dsimp only
  rw [MapClient.applyMapFrame, hpiece]
  dsimp only
  refine ⟨Function.update_self _ _ _, ?_⟩
  rw [MapClient.mapsOf, MapClient.mapsOf, announced, announced, List.append_nil]
  split_ifs
  · rw [List.filter_append, List.map_append, List.filter_cons_of_pos (by simp), List.filter_nil]
    rfl
  · rw [List.append_nil]

/-- **The map of a robot is what the pieces for it have made of it**, whatever else comes. -/
theorem mapStores_eq (c : MapClient) (messages : List RealtimeMessage) (sn : String) :
    (messages.foldl (MapClient.onMessage T codec toText) c).mapStores sn =
        storeBehind (c.mapStores sn) (messages.filterMap (pieceFor T codec toText sn)) ∧
      (messages.foldl (MapClient.onMessage T codec toText) c).mapsOf sn =
        c.mapsOf sn ++ announced ((c.mapStores sn).getD newStore)
          (messages.filterMap (pieceFor T codec toText sn)) := by
  induction messages generalizing c with
  | nil =>
    refine ⟨rfl, ?_⟩
    rw [List.filterMap_nil, announced, List.append_nil]
    rfl
  | cons m messages ih =>
    obtain ⟨hstores, hmaps⟩ := ih (c.onMessage T codec toText m)
    rw [List.foldl_cons, hstores, hmaps]
    cases hpiece : pieceFor T codec toText sn m with
    | none =>
      obtain ⟨hstore, hannounced⟩ := onMessage_of_none T codec toText c hpiece
      rw [List.filterMap_cons_none hpiece, hstore, hannounced]
      exact ⟨rfl, rfl⟩
    | some piece =>
      obtain ⟨hstore, hannounced⟩ := onMessage_of_some T codec toText c hpiece
      rw [List.filterMap_cons_some hpiece, hstore, hannounced, List.append_assoc]
      refine ⟨?_, ?_⟩
      · rw [storeBehind, storeBehind, if_neg (List.cons_ne_nil _ _)]
        split_ifs with hnil
        · rw [hnil]
          rfl
        · rfl
      · rw [announced, announced, announced, List.append_nil]
        rfl

end Client

/-! ## Broadcasts -/

/-- What a robot sends of a map while it goes. -/
inductive Live
  | plane (m : HeldMap.Map)
  | outline (o : HeldMap.Outline)
  | rooms (r : HeldMap.Rooms)
  | zones (z : HeldMap.Zones)
  | pose (p : MapPose)

namespace Live

def channel : Live → ℕ
  | plane _ => BIZ_CHANNEL.MAP_DATA
  | outline _ => BIZ_CHANNEL.ROOM_OUTLINE
  | rooms _ => BIZ_CHANNEL.ROOM_PARAMS
  | zones _ => BIZ_CHANNEL.RESTRICTED_ZONE
  | pose _ => BIZ_CHANNEL.DYNAMIC_DATA

def message : Live → DeviceMessage
  | plane m => m.message
  | outline o => o.message
  | rooms r => r.message
  | zones z => z.message
  | pose p => HeldMap.dynamicMessage p

def piece (toText : Buffer → String) : Live → VacuumMapPiece MapBody
  | plane m => .stamped ⟨.plane, (HeldMap.Part.plane m).stamped toText⟩
  | outline o => .stamped ⟨.outline, (HeldMap.Part.outline o).stamped toText⟩
  | rooms r => .stamped ⟨.rooms, (HeldMap.Part.rooms r).stamped toText⟩
  | zones z => .stamped ⟨.zones, (HeldMap.Part.zones z).stamped toText⟩
  | pose p => .pose p

/-- The bytes of a message as they are sent. -/
def bytes (l : Live) : Buffer := framed (encodeAll l.message.fields)

theorem readerOf_text {reader : WireReader} (toText : Buffer → String) (hreader : reader.Lawful)
    {l : Live} (h : l.message.Sendable) :
    readerOf (rawDpCodec reader) toText l.channel (String.ofList (Base64.encode l.bytes)) =
      some (l.piece toText) := by
  have hraw : (rawDpCodec reader).decode (String.ofList (Base64.encode l.bytes)) =
      some l.message.read := DeviceMessage.decode_fields hreader h
  cases l with
  | plane m =>
    rw [readerOf, channel, if_pos rfl,
      (HeldMap.Part.plane m).decodePart_message toText hreader h hraw]
    rfl
  | outline o =>
    rw [readerOf, channel, if_neg (by decide), if_pos rfl,
      (HeldMap.Part.outline o).decodePart_message toText hreader h hraw]
    rfl
  | rooms r =>
    rw [readerOf, channel, if_neg (by decide), if_neg (by decide), if_pos rfl,
      (HeldMap.Part.rooms r).decodePart_message toText hreader h hraw]
    rfl
  | zones z =>
    rw [readerOf, channel, if_neg (by decide), if_neg (by decide), if_neg (by decide), if_pos rfl,
      (HeldMap.Part.zones z).decodePart_message toText hreader h hraw]
    rfl
  | pose p =>
    rw [readerOf, channel, if_neg (by decide), if_neg (by decide), if_neg (by decide),
      if_neg (by decide), if_pos rfl, HeldMap.decodeVacuumPose_message hreader h hraw]
    rfl

end Live

/-- A message in which a robot sends a part it holds, whole. Nothing in it is like a data point. -/
structure Broadcast (T : BizText) where
  sn : String
  live : Live
  sendable : live.message.Sendable
  message : BizMessage T live.channel 0 live.bytes
  tuya : Bool
  noKey : ∀ f ∈ message.data, f.1 ≠ "dps" ∧ isDpKey f.1 = false
  noDps : message.raw.get? "dps" = none
  noData : message.raw.get? "data" = none

/-- The stream of a robot is not taken for data points. -/
theorem parseTuyaDpReport_eq_none {jsonParse : String → Option Json} {raw : Json}
    {payload data : List (String × Json)}
    (hpayload : raw.get? "payload" = some (.obj payload) ∨
      ∃ text, raw.get? "payload" = some (.str text) ∧ jsonParse text = some (.obj payload))
    (hdata : (Json.obj payload).get? "data" = some (.obj data))
    (hkeys : ∀ f ∈ data, f.1 ≠ "dps" ∧ isDpKey f.1 = false) (hnoDps : raw.get? "dps" = none)
    (hnoData : raw.get? "data" = none) : parseTuyaDpReport jsonParse raw = none := by
  have hdps : (Json.obj data).get? "dps" = none := by
    rw [Json.get?, List.find?_eq_none.mpr, Option.map_none]
    intro f hf hkey
    exact (hkeys f hf).1 (of_decide_eq_true hkey)
  have hempty : (data.filter fun f => isDpKey f.1).isEmpty = true := by
    rw [List.isEmpty_iff, List.filter_eq_nil_iff]
    exact fun f hf => Bool.eq_false_iff.mp (hkeys f hf).2
  cases raw with
  | obj fields =>
    rw [parseTuyaDpReport, hnoDps, hnoData]
    rcases hpayload with hobject | ⟨text, htext, hparse⟩
    · rw [hobject]
      rfl
    · rw [htext, Availability.jsonObject, hparse]
      dsimp only
      rw [Option.bind_some, hdata]
      dsimp only [entriesOf]
      rw [hdps]
      dsimp only
      rw [hempty]
      rfl
  | _ => rfl

/-- What a client receives: broadcasts, and messages in which there is nothing for a map. -/
inductive Event (T : BizText) (codec : RawDpCodec) (toText : Buffer → String)
  | broadcast (b : Broadcast T)
  | other (m : RealtimeMessage) (nothing : ∀ sn, pieceFor T codec toText sn m = none)

section Events

variable {T : BizText} {reader : WireReader} {toText : Buffer → String}

namespace Event

def message {codec : RawDpCodec} : Event T codec toText → RealtimeMessage
  | broadcast b => ⟨some b.sn, b.message.raw, b.tuya⟩
  | other m _ => m

/-- What a robot sends in it. -/
def liveOf {codec : RawDpCodec} (sn : String) : Event T codec toText → Option Live
  | broadcast b => if b.sn = sn then some b.live else none
  | other _ _ => none

end Event

/-- A frame of a channel that nothing reads, or from inside a message, has nothing for a map. -/
theorem pieceFor_of_unread {codec : RawDpCodec} {m : RealtimeMessage}
    (h : ∀ f, frameOf T m = some f → f.2.offset ≠ 0 ∨
      f.2.channelId ∉ [BIZ_CHANNEL.MAP_DATA, BIZ_CHANNEL.ROOM_OUTLINE, BIZ_CHANNEL.ROOM_PARAMS,
        BIZ_CHANNEL.RESTRICTED_ZONE, BIZ_CHANNEL.DYNAMIC_DATA])
    (sn : String) : pieceFor T codec toText sn m = none := by
  rw [pieceFor]
  cases hframe : frameOf T m with
  | none => rfl
  | some f =>
    have hunread : decodeMapFrame codec toText f.2 = none := by
      rw [decodeMapFrame]
      rcases h f hframe with hoffset | hchannel
      · exact if_pos hoffset
      · simp only [List.mem_cons, List.not_mem_nil, or_false, not_or] at hchannel
        obtain ⟨hplane, houtline, hrooms, hzones, hpose⟩ := hchannel
        split_ifs
        · rfl
        · rw [readerOf, if_neg hplane, if_neg houtline, if_neg hrooms, if_neg hzones,
            if_neg hpose]
    rw [Option.bind_some, hunread, ite_self]

theorem pieceFor_broadcast (hreader : reader.Lawful) (b : Broadcast T) (sn : String) :
    pieceFor T (rawDpCodec reader) toText sn ⟨some b.sn, b.message.raw, b.tuya⟩ =
      if b.sn = sn then some (b.live.piece toText) else none := by
  have hbytes : b.live.bytes ≠ [] := by
    simp [Live.bytes, framed, Varint.encode_ne_nil]
  have hunclaimed := parseTuyaDpReport_eq_none b.message.raw_payload b.message.payload_data b.noKey
    b.noDps b.noData
  have hframe := parseBizMapFrame_message b.message hbytes
  rw [pieceFor, frameOf]
  dsimp only [bind, Option.bind]
  rw [hunclaimed, Option.isSome_none, Bool.and_false, if_neg Bool.false_ne_true, hframe]
  dsimp only [pure]
  have hpiece := Live.readerOf_text toText hreader b.sendable
  split_ifs with hsn
  · exact hpiece
  · rfl

theorem filterMap_pieceFor (hreader : reader.Lawful)
    (events : List (Event T (rawDpCodec reader) toText)) (sn : String) :
    (events.map Event.message).filterMap (pieceFor T (rawDpCodec reader) toText sn) =
      (events.filterMap (Event.liveOf sn)).map (Live.piece toText) := by
  rw [List.filterMap_map, List.map_filterMap]
  refine List.filterMap_congr fun e _ => ?_
  cases e with
  | broadcast b =>
    refine (pieceFor_broadcast hreader b sn).trans ?_
    rw [Event.liveOf]
    split_ifs <;> rfl
  | other m nothing => exact nothing sn

/-- **The map of a robot holds what the robot sent**, among the messages of others and whatever else
comes: it is the store the parts have made, one after the other, it is announced when they changed
it, and as long as they are of one map, it has of each kind the part of the last revision. -/
theorem mapStream_delivers (hreader : reader.Lawful)
    (events : List (Event T (rawDpCodec reader) toText)) (sn : String) :
    let client := MapClient.onMessages T (rawDpCodec reader) toText (events.map Event.message)
    let pieces := (events.filterMap (Event.liveOf sn)).map (Live.piece toText)
    client.mapStores sn = storeBehind none pieces ∧
      client.mapsOf sn = announced {} pieces ∧
      ∀ m, (∀ p ∈ pieces.flatMap VacuumMapPiece.stampedPieces, p.2.mapId = some m) →
        ∀ s, client.mapStores sn = some s → ∀ kind, s.current.piece kind =
          kept Stamped.releases none (ofKind kind (pieces.flatMap VacuumMapPiece.stampedPieces)) := by
  obtain ⟨hstores, hmaps⟩ := mapStores_eq T (rawDpCodec reader) toText {}
    (events.map Event.message) sn
  rw [filterMap_pieceFor hreader] at hstores hmaps
  refine ⟨hstores, hmaps, fun m hnames s hs kind => ?_⟩
  rw [MapClient.onMessages, hstores, storeBehind] at hs
  split_ifs at hs
  obtain rfl := Option.some.inj hs
  rw [Option.getD_none]
  have hstep : ({} : VacuumMapStore MapBody).InStep := fun _ => rfl
  obtain ⟨hleft, hsame, hpiece⟩ := VacuumMapStore.left_applyAll hstep hnames
  have hkept := hleft kind
  rw [VacuumMapStore.left, hsame (.inr rfl), if_neg Bool.false_ne_true] at hkept
  exact hkept

end Events

/-! ### Two robots -/

def noText : BizText where
  jsonParse _ := none
  number _ := none

/-- The data of a message, spelled in numbers. -/
def plainData (channelId offset : ℕ) (bytes : Buffer) : List (String × Json) :=
  [("channel_id", .num channelId), ("clear_type", .num (0 : ℕ)), ("data_type", .num (0 : ℕ)),
    ("offset", .num offset), ("len", .num bytes.length),
    ("data", .str (String.ofList (Hex.encode bytes)))]

def plainPayload (channelId offset : ℕ) (bytes : Buffer) : List (String × Json) :=
  [("protocol", .num (41 : ℕ)), ("data", .obj (plainData channelId offset bytes))]

def plainMessage {channelId offset : ℕ} {bytes : Buffer} (hchannel : channelId < 2 ^ 53)
    (hoffset : offset < 2 ^ 53) (hlength : bytes.length < 2 ^ 53) :
    BizMessage noText channelId offset bytes where
  raw := .obj [("payload", .obj (plainPayload channelId offset bytes))]
  payload := plainPayload channelId offset bytes
  data := plainData channelId offset bytes
  clearType := 0
  dataType := 0
  len := bytes.length
  raw_payload := .inl rfl
  protocol := ⟨by decide, .inl rfl⟩
  payload_data := rfl
  channel := ⟨hchannel, .inl rfl⟩
  clear := ⟨by decide, .inl rfl⟩
  kind := ⟨by decide, .inl rfl⟩
  place := ⟨hoffset, .inl rfl⟩
  length := ⟨hlength, .inl rfl⟩
  hex := rfl

theorem Live.channel_lt (l : Live) : l.channel < 2 ^ 53 := by
  cases l <;> exact of_decide_eq_true rfl

def plainBroadcast (sn : String) (live : Live) (sendable : live.message.Sendable)
    (hlength : live.bytes.length < 2 ^ 53) : Broadcast noText where
  sn
  live
  sendable
  message := plainMessage live.channel_lt (by decide) hlength
  tuya := true
  noKey f hf := by
    have hkeys : ∀ key ∈ ["channel_id", "clear_type", "data_type", "offset", "len", "data"],
        key ≠ "dps" ∧ isDpKey key = false := by decide
    exact hkeys f.1 (List.mem_map_of_mem hf)
  noDps := rfl
  noData := rfl

/-- Room 4 beside room 5, at a revision. -/
def twoRooms (releases : ℤ) : HeldMap.Outline where
  width := 2
  height := 1
  width_pos := by decide
  height_pos := by decide
  mapId := 3
  releases
  resolution := 5
  origin := ⟨-150, 20⟩
  plane := [16, 20]
  pixels := [16, 20]
  pixelSize := 2
  sent := .verbatim
  most := by decide
  long := by decide

def fragmentMessage : BizMessage noText BIZ_CHANNEL.MAP_DATA 64 [1] :=
  plainMessage (by decide) (by decide) (by decide)

/-- A frame from inside a message, which the client does not put together. -/
def fragment : RealtimeMessage where
  deviceSn := some "A"
  raw := fragmentMessage.raw
  tuya := false

theorem pieceFor_fragment (codec : RawDpCodec) (toText : Buffer → String) :
    ∀ sn, pieceFor noText codec toText sn fragment = none := by
  refine pieceFor_of_unread fun f hf => .inl ?_
  have hframe := parseBizMapFrame_message fragmentMessage (List.cons_ne_nil _ _)
  obtain ⟨frame, hparse, hf⟩ := Option.bind_eq_some_iff.mp hf
  obtain rfl := Option.some.inj hf
  obtain rfl := Option.some.inj (hframe.symm.trans hparse)
  exact (by decide : 64 ≠ 0)

/-- Outlines of two revisions, the newer one first, with a fragment and another robot's pose
between them. -/
def strayEvents : List (Event noText (rawDpCodec wireFormat) fun _ => "") :=
  [.broadcast (plainBroadcast "A" (.outline (twoRooms 7)) (by decide) (by decide)),
    .other fragment (pieceFor_fragment _ _),
    .broadcast (plainBroadcast "B" (.pose ⟨10, -3, 157⟩) (by decide) (by decide)),
    .broadcast (plainBroadcast "A" (.outline (twoRooms 6)) (by decide) (by decide))]

theorem lives_strayEvents : strayEvents.filterMap (Event.liveOf "A") =
    [.outline (twoRooms 7), .outline (twoRooms 6)] := rfl

theorem mapStream_delivers_strayEvents :
    let client := MapClient.onMessages noText (rawDpCodec wireFormat) (fun _ => "")
      (strayEvents.map Event.message)
    ∃ s, client.mapStores "A" = some s ∧ (client.mapsOf "A").length = 1 ∧
      s.current.piece .outline = some ((HeldMap.Part.outline (twoRooms 7)).stamped fun _ => "") := by
  obtain ⟨hstore, hmaps, hheld⟩ :=
    mapStream_delivers lawful_wireFormat strayEvents "A"
  rw [lives_strayEvents] at hstore hmaps hheld
  refine ⟨_, hstore, ?_, ?_⟩
  · rw [hmaps]
    rfl
  · refine (hheld 3 ?_ _ hstore .outline).trans rfl
    exact List.forall_mem_cons.mpr ⟨rfl, List.forall_mem_cons.mpr ⟨rfl, List.forall_mem_nil _⟩⟩

end MapStream

end EufySdk
