import Mathlib.Tactic
import EufySdk.Lib.Varint
import EufySdk.Transport.Push.Parser

/-!
# Messages in any chunks

What a parser has not used of a stream, with the tag and the size it has taken off already, is
where the stream goes on: at the start of a message. A turn keeps this, and either hands over the
message that the rest begins with or leaves it as it is; a chunk is appended to it. So where a
stream is cut makes no difference.

- `Message.encode`, `Message.arrives` — a message as it is sent, and as it is emitted
- `Holds` — what a parser has not used of the messages of a stream
- `turned_of_holds` — what a turn makes of it
- `feed_messages` — a stream in chunks
-/

namespace EufySdk.McsParser

open Bytes

variable {Object : Type} {pb : Protobuf Object}

/-- A message as it is sent. -/
structure Message where
  tag : UInt8
  body : Buffer

def Message.encode (m : Message) : Buffer :=
  m.tag :: (Varint.encode m.body.length ++ m.body)

/-- A message as it is emitted. -/
def Message.arrives (pb : Protobuf Object) (m : Message) : McsMessage Object where
  tag := int8 m.tag
  object :=
    if m.body = [] then none
    else (TAG_TO_TYPE (int8 m.tag)).bind fun typeName => pb.decode typeName m.body

/-- The size of a message is an `int32`, and its bytes are a message of the type of its tag. -/
structure Message.Sound (pb : Protobuf Object) (m : Message) : Prop where
  size : m.body.length < 2 ^ 31
  decodes : ∀ typeName, TAG_TO_TYPE (int8 m.tag) = some typeName → m.body ≠ [] →
    ∃ object, pb.decode typeName m.body = some object

/-- The varint reader: a size is read as it was written, and of one that is cut short the reader
throws "index out of range", at the end of its bytes. -/
structure ReadsVarints (pb : Protobuf Object) : Prop where
  complete : ∀ (size : ℕ) (rest : Buffer), size < 2 ^ 31 →
    pb.int32 (Varint.encode size ++ rest) = .value size (Varint.encode size).length
  truncated : ∀ (size : ℕ) (b : Buffer), size < 2 ^ 31 → b <+: Varint.encode size →
    b.length < (Varint.encode size).length → pb.int32 b = .outOfRange b.length

/-! ## Single calls -/

theorem subarrayFrom_append (a b : Buffer) : subarrayFrom (a ++ b) a.length = b := by
  have hbound : bound (a ++ b).length a.length = a.length := by
    rw [bound, if_neg (by omega), List.length_append]
    omega
  rw [subarrayFrom, hbound, List.drop_left]

theorem subarray_append (a b : Buffer) : subarray (a ++ b) 0 a.length = a := by
  have hstop : bound (a ++ b).length a.length = a.length := by
    rw [bound, if_neg (by omega), List.length_append]
    omega
  have hstart : bound (a ++ b).length 0 = 0 := by
    rw [bound, if_neg (by omega)]
    exact Nat.zero_min _
  rw [subarray, hstop, hstart, List.take_left, List.drop_zero]

/-- Bytes that go on with a body have all of it, or less. -/
theorem body_or_less {data rest body more : Buffer} (h : data ++ rest = body ++ more) :
    data.length < body.length ∨ ∃ tail, data = body ++ tail ∧ tail ++ rest = more := by
  rcases List.append_eq_append_iff.mp h with ⟨tail, hbody, hrest⟩ | ⟨tail, hdata, hmore⟩
  · cases tail with
    | nil => exact .inr ⟨[], by simpa using hbody.symm, by simpa using hrest⟩
    | cons b tail =>
      left
      rw [hbody, List.length_append, List.length_cons]
      omega
  · exact .inr ⟨tail, hdata, hmore.symm⟩

theorem onBytes_empty (pb : Protobuf Object) {p : McsParser} {m : Message}
    (htag : p.messageTag = int8 m.tag) (hsize : p.messageSize = 0) (hbody : m.body = []) :
    p.onBytes pb = { parser := { p with state := .TAG_AND_SIZE }, emitted := [m.arrives pb],
                     next := .enters } := by
  rw [onBytes, if_pos hsize, emitMessage, htag, Message.arrives, if_pos hbody]

theorem onBytes_whole {p : McsParser} {m : Message} {tail : Buffer} (hm : m.Sound pb)
    (htag : p.messageTag = int8 m.tag) (hsize : p.messageSize = m.body.length)
    (hbody : m.body ≠ []) (hdata : p.data = m.body ++ tail) :
    p.onBytes pb = { parser := { p with data := tail, state := .TAG_AND_SIZE },
                     emitted := [m.arrives pb], next := .enters } := by
  obtain ⟨data, state, messageTag, messageSize, sizePacketSoFar⟩ := p
  dsimp only at htag hsize hdata
  subst htag hsize hdata
  have hpos := List.length_pos_of_ne_nil hbody
  have hlong : ¬((m.body ++ tail).length : ℤ) < m.body.length := by
    rw [List.length_append]
    omega
  rw [onBytes, if_neg (by dsimp only; omega), if_neg hlong, subarray_append, subarrayFrom_append]
  dsimp only
  cases htype : TAG_TO_TYPE (int8 m.tag) with
  | none =>
    rw [Message.arrives, if_neg hbody, htype]
    rfl
  | some typeName =>
    obtain ⟨object, hobject⟩ := hm.decodes typeName htype hbody
    rw [Message.arrives, if_neg hbody, htype]
    dsimp only [Option.bind_some]
    rw [hobject]
    rfl

theorem onSize_cut (hpb : ReadsVarints pb) {p : McsParser} {m : Message} (hm : m.Sound pb)
    (hpart : p.data <+: Varint.encode m.body.length)
    (hshort : p.data.length < (Varint.encode m.body.length).length) :
    p.onSize pb = { parser := { p with sizePacketSoFar := p.data.length, state := .SIZE },
                    emitted := [], next := .enters } := by
  rw [onSize, hpb.truncated m.body.length p.data hm.size hpart hshort]

theorem onSize_empty (hpb : ReadsVarints pb) {p : McsParser} {m : Message} {tail : Buffer}
    (hm : m.Sound pb) (htag : p.messageTag = int8 m.tag) (hbody : m.body = [])
    (hdata : p.data = Varint.encode m.body.length ++ tail) :
    p.onSize pb =
      { parser := { p with messageSize := 0, data := tail, sizePacketSoFar := 0,
                           state := .TAG_AND_SIZE },
        emitted := [m.arrives pb], next := .enters } := by
  have hzero : (m.body.length : ℤ) = 0 := by
    rw [hbody]
    rfl
  rw [onSize, hdata, hpb.complete _ tail hm.size]
  dsimp only
  rw [hzero, if_neg (lt_irrefl 0), subarrayFrom_append]
  exact onBytes_empty pb htag rfl hbody

theorem onSize_body (hpb : ReadsVarints pb) {p : McsParser} {m : Message} {tail : Buffer}
    (hm : m.Sound pb) (hbody : m.body ≠ [])
    (hdata : p.data = Varint.encode m.body.length ++ tail) :
    p.onSize pb =
      { parser := { p with messageSize := m.body.length, data := tail, sizePacketSoFar := 0,
                           state := .PROTO_BYTES },
        emitted := [], next := .enters } := by
  have hpos : (0 : ℤ) < m.body.length := by
    have hlength := List.length_pos_of_ne_nil hbody
    omega
  rw [onSize, hdata, hpb.complete _ tail hm.size]
  dsimp only
  rw [if_pos hpos, subarrayFrom_append]

/-! ## Turns -/

/-- What a parser has not used of the messages of a stream, from the start of one on. -/
inductive Holds : McsParser → Buffer → Prop
  | version (p : McsParser) (version : UInt8) (r : Buffer)
    (hstate : p.state = .VERSION_TAG_AND_SIZE) (hversion : 38 ≤ int8 version)
    (hdata : p.data = version :: r) : Holds p r
  | tag (p : McsParser) (r : Buffer) (hstate : p.state = .TAG_AND_SIZE) (hdata : p.data = r) :
    Holds p r
  | size (p : McsParser) (tag : UInt8) (r : Buffer) (hstate : p.state = .SIZE)
    (htag : p.messageTag = int8 tag) (hsome : p.data ≠ []) (hdata : tag :: p.data = r)
    (hlength : p.sizePacketSoFar ≤ p.data.length)
    (hcut : ∀ b ∈ p.data.take p.sizePacketSoFar, 128 ≤ b) : Holds p r
  | body (p : McsParser) (tag : UInt8) (size : ℕ) (r : Buffer) (hstate : p.state = .PROTO_BYTES)
    (htag : p.messageTag = int8 tag) (hsize : p.messageSize = size) (hpos : 0 < size)
    (hdata : tag :: (Varint.encode size ++ p.data) = r) : Holds p r

/-- What is appended to the bytes of a parser is appended to what it has not used. -/
theorem Holds.append {p : McsParser} {r : Buffer} (h : Holds p r) (chunk : Buffer) :
    Holds { p with data := p.data ++ chunk } (r ++ chunk) := by
  cases h with
  | version version r hstate hversion hdata =>
    exact .version _ version _ hstate hversion (by rw [hdata]; rfl)
  | tag r hstate hdata => exact .tag _ _ hstate (by rw [hdata])
  | size tag r hstate htag hsome hdata hlength hcut =>
    refine .size _ tag _ hstate htag (by simp [hsome]) (by rw [← hdata]; rfl) ?_ ?_
    · dsimp only
      rw [List.length_append]
      omega
    · dsimp only
      rwa [List.take_append_of_le_length hlength]
  | body tag size r hstate htag hsize hpos hdata =>
    exact .body _ tag size _ hstate htag hsize hpos (by rw [← hdata]; simp)

/-- The bytes a parser holds come to no message. -/
def Short (r : Buffer) (messages : List Message) : Prop :=
  ∀ m ms, messages = m :: ms → r.length < m.encode.length

/-- What a turn can make of the bytes a parser holds, before the `rest` of `messages`. -/
inductive Turned (pb : Protobuf Object) (p : McsParser) (r rest : Buffer) :
    List Message → Prop
  | waits (messages : List Message)
    (hturn : p.turn pb = { parser := p, emitted := [], next := .returns })
    (hshort : Short r messages) : Turned pb p r rest messages
  /-- The size is cut short. -/
  | cut (messages : List Message) (q : McsParser)
    (hturn : p.turn pb = { parser := q, emitted := [], next := .enters }) (hq : Holds q r)
    (hwaits : q.turn pb = { parser := q, emitted := [], next := .returns })
    (hshort : Short r messages) : Turned pb p r rest messages
  /-- The size is read, and the body is next. -/
  | sized (messages : List Message) (q : McsParser)
    (hturn : p.turn pb = { parser := q, emitted := [], next := .enters }) (hq : Holds q r)
    (hless : q.data.length < p.data.length) : Turned pb p r rest messages
  | emits (m : Message) (messages : List Message) (q : McsParser) (left : Buffer)
    (hturn : p.turn pb = { parser := q, emitted := [m.arrives pb], next := .enters })
    (hq : Holds q left) (hrest : left ++ rest = messages.flatMap Message.encode)
    (hless : q.data.length < p.data.length) : Turned pb p r rest (m :: messages)

theorem turn_returns (pb : Protobuf Object) {p : McsParser}
    (h : (p.data.length : ℤ) < p.minBytesNeeded) :
    p.turn pb = { parser := p, emitted := [], next := .returns } := if_pos h

/-- A turn that comes to read the size of a message. -/
theorem turned_of_onSize (hpb : ReadsVarints pb) {p q : McsParser} {m : Message}
    {messages : List Message} {rest : Buffer} (hm : m.Sound pb) (hturn : p.turn pb = q.onSize pb)
    (htag : q.messageTag = int8 m.tag) (hsome : q.data ≠ [])
    (hless : q.data.length ≤ p.data.length)
    (hstream : q.data ++ rest =
      Varint.encode m.body.length ++ (m.body ++ messages.flatMap Message.encode)) :
    Turned pb p (m.tag :: q.data) rest (m :: messages) := by
  rcases Varint.split_encode hstream with ⟨hpart, hshort⟩ | ⟨tail, hdata, htail⟩
  · refine .cut _ _ (hturn.trans (onSize_cut hpb hm hpart hshort)) ?_ ?_ ?_
    · refine .size _ m.tag _ rfl htag hsome rfl (le_refl _) ?_
      dsimp only
      rw [List.take_length]
      exact Varint.continues_of_part hpart hshort
    · exact turn_returns pb (by simp only [minBytesNeeded]; omega)
    · rintro m' ms heq
      cases heq
      simp only [Message.encode, List.length_cons, List.length_append]
      omega
  have hlength : q.data.length = (Varint.encode m.body.length).length + tail.length := by
    rw [hdata, List.length_append]
  have hpos := Varint.length_encode_pos m.body.length
  by_cases hbody : m.body = []
  · refine .emits m messages _ tail (hturn.trans (onSize_empty hpb hm htag hbody hdata))
      (.tag _ _ rfl rfl) ?_ (by dsimp only; omega)
    rw [htail, hbody, List.nil_append]
  · refine .sized _ _ (hturn.trans (onSize_body hpb hm hbody hdata)) ?_ (by dsimp only; omega)
    exact .body _ m.tag m.body.length _ rfl htag rfl (List.length_pos_of_ne_nil hbody)
      (by rw [hdata])

theorem short_of_length_lt {r : Buffer} (messages : List Message) (h : r.length < 2) :
    Short r messages := by
  rintro m ms -
  have hpos := Varint.length_encode_pos m.body.length
  simp only [Message.encode, List.length_cons, List.length_append]
  omega

/-- A turn that begins with a tag. -/
theorem turned_of_onTag (hpb : ReadsVarints pb) {p q : McsParser} {messages : List Message}
    {rest : Buffer} (hmessages : ∀ m ∈ messages, m.Sound pb) (hturn : p.turn pb = q.onTag pb)
    (hlong : 2 ≤ q.data.length) (hless : q.data.length ≤ p.data.length)
    (hstream : q.data ++ rest = messages.flatMap Message.encode) :
    Turned pb p q.data rest messages := by
  obtain ⟨tag, data, hdata⟩ := List.exists_cons_of_length_pos (by omega : 0 < q.data.length)
  cases messages with
  | nil =>
    rw [hdata] at hstream
    cases hstream
  | cons m messages =>
    have hm := hmessages m List.mem_cons_self
    rw [hdata, List.flatMap_cons, Message.encode, List.cons_append, List.cons_append,
      List.cons.injEq, List.append_assoc] at hstream
    obtain ⟨rfl, hstream⟩ := hstream
    have honTag : q.onTag pb = { q with messageTag := int8 m.tag, data := data }.onSize pb := by
      rw [onTag, hdata]
    rw [hdata, List.length_cons] at hlong hless
    have hsome : data ≠ [] := List.ne_nil_of_length_pos (by omega)
    rw [hdata]
    exact turned_of_onSize hpb hm (hturn.trans honTag) rfl hsome (by dsimp only; omega) hstream

/-- **A turn** leaves the bytes a parser holds as they are, or hands over the message they begin
with and leaves the others. -/
theorem turned_of_holds (hpb : ReadsVarints pb) {p : McsParser} {r rest : Buffer}
    {messages : List Message} (hmessages : ∀ m ∈ messages, m.Sound pb) (h : Holds p r)
    (hstream : r ++ rest = messages.flatMap Message.encode) : Turned pb p r rest messages := by
  cases h with
  | version version r hstate hversion hdata =>
    by_cases hlong : p.data.length < 3
    · refine .waits _ (turn_returns pb ?_) (short_of_length_lt _ ?_)
      · rw [minBytesNeeded, hstate]
        dsimp only
        omega
      · rw [hdata, List.length_cons] at hlong
        omega
    · have hturn : p.turn pb = { p with data := r }.onTag pb := by
        rw [turn, minBytesNeeded, hstate, if_neg (by dsimp only; omega)]
        dsimp only
        rw [onVersion, hdata]
        dsimp only
        rw [if_neg (by omega), hstate]
      rw [hdata, List.length_cons] at hlong
      exact turned_of_onTag (q := { p with data := r }) hpb hmessages hturn (by dsimp only; omega)
        (by rw [hdata]; exact Nat.le_succ _) hstream
  | tag r hstate hdata =>
    subst hdata
    by_cases hlong : p.data.length < 2
    · refine .waits _ (turn_returns pb ?_) (short_of_length_lt _ hlong)
      rw [minBytesNeeded, hstate]
      dsimp only
      omega
    · have hturn : p.turn pb = p.onTag pb := by
        rw [turn, minBytesNeeded, hstate, if_neg (by dsimp only; omega)]
      exact turned_of_onTag hpb hmessages hturn (by omega) (le_refl _) hstream
  | size tag r hstate htag hsome hdata hlength hcut =>
    subst hdata
    cases messages with
    | nil => simp at hstream
    | cons m messages =>
      rw [List.flatMap_cons, Message.encode, List.cons_append, List.cons_append, List.cons.injEq,
        List.append_assoc] at hstream
      obtain ⟨rfl, hstream⟩ := hstream
      by_cases hlong : p.data.length < p.sizePacketSoFar + 1
      · refine .waits _ (turn_returns pb ?_) ?_
        · rw [minBytesNeeded, hstate]
          dsimp only
          omega
        · -- the bytes at hand all say that the size goes on
          rw [List.take_of_length_le (by omega)] at hcut
          rintro m' ms heq
          cases heq
          rcases Varint.split_encode hstream with ⟨-, hshort⟩ | ⟨tail, hwhole, -⟩
          · simp only [Message.encode, List.length_cons, List.length_append]
            omega
          · have hnone := Varint.decode_of_continues hcut
            rw [hwhole, Varint.decode_encode] at hnone
            cases hnone
      · have hturn : p.turn pb = p.onSize pb := by
          rw [turn, minBytesNeeded, hstate, if_neg (by dsimp only; omega)]
        exact turned_of_onSize hpb (hmessages m List.mem_cons_self) hturn htag hsome (le_refl _)
          hstream
  | body tag size r hstate htag hsize hpos hdata =>
    subst hdata
    cases messages with
    | nil => simp at hstream
    | cons m messages =>
      rw [List.flatMap_cons, Message.encode, List.cons_append, List.cons_append, List.cons.injEq,
        List.append_assoc, List.append_assoc] at hstream
      obtain ⟨rfl, hstream⟩ := hstream
      obtain ⟨rfl, hbody⟩ := Varint.encode_append_inj hstream
      have hturn : ¬p.data.length < m.body.length → p.turn pb = p.onBytes pb := by
        intro hlong
        rw [turn, minBytesNeeded, hstate, if_neg (by dsimp only; omega)]
      rcases body_or_less hbody with hshort | ⟨tail, hwhole, htail⟩
      · refine .waits _ (turn_returns pb ?_) ?_
        · rw [minBytesNeeded, hstate]
          dsimp only
          omega
        · rintro m' ms heq
          cases heq
          simp only [Message.encode, List.length_cons, List.length_append]
          omega
      · have hlength : p.data.length = m.body.length + tail.length := by
          rw [hwhole, List.length_append]
        have hbytes := onBytes_whole (hmessages m List.mem_cons_self) htag hsize
          (List.ne_nil_of_length_pos hpos) hwhole
        exact .emits m messages _ tail ((hturn (by omega)).trans hbytes) (.tag _ _ rfl rfl) htail
          (by dsimp only; omega)

/-! ## Runs -/

/-- What is left of a stream behind a call, and what the call has handed over. -/
structure Handed (pb : Protobuf Object) (messages : List Message) (rest : Buffer)
    (fed : Fed Object) (left : Buffer) (todo : List Message) : Prop where
  messages : ∃ done, messages = done ++ todo ∧ fed.emitted = done.map (Message.arrives pb)
  threw : fed.threw = false
  holds : Holds fed.parser left
  stream : left ++ rest = todo.flatMap Message.encode
  short : Short left todo

theorem waitForData_holds (hpb : ReadsVarints pb) {calls : ℕ} {p : McsParser} {r rest : Buffer}
    {messages : List Message} (hcalls : 2 * p.data.length + 2 ≤ calls)
    (hmessages : ∀ m ∈ messages, m.Sound pb) (h : Holds p r)
    (hstream : r ++ rest = messages.flatMap Message.encode) :
    ∃ fed left todo, waitForData pb calls p = some fed ∧
      Handed pb messages rest fed left todo := by
  induction calls generalizing p r messages with
  | zero => omega
  | succ calls ih =>
    cases turned_of_holds hpb hmessages h hstream with
    | waits messages hturn hshort =>
      exact ⟨{ parser := p, emitted := [], threw := false }, r, messages,
        by rw [waitForData, hturn], ⟨[], rfl, rfl⟩, rfl, h, hstream, hshort⟩
    | cut messages q hturn hq hwaits hshort =>
      obtain ⟨calls, rfl⟩ : ∃ more, calls = more + 1 := ⟨calls - 1, by omega⟩
      refine ⟨{ parser := q, emitted := [], threw := false }, r, messages, ?_, ⟨[], rfl, rfl⟩,
        rfl, hq, hstream, hshort⟩
      rw [waitForData, hturn]
      dsimp only
      rw [waitForData, hwaits]
      rfl
    | sized messages q hturn hq hless =>
      obtain ⟨fed, left, todo, hfed, hhanded⟩ := ih (by omega) hmessages hq hstream
      refine ⟨fed, left, todo, ?_, hhanded⟩
      rw [waitForData, hturn]
      dsimp only
      rw [hfed]
      rfl
    | emits m messages q left hturn hq hrest hless =>
      obtain ⟨fed, left, todo, hfed, hhanded⟩ :=
        ih (by omega) (fun m' hm' => hmessages m' (List.mem_cons_of_mem m hm')) hq hrest
      obtain ⟨done, hdone, hemitted⟩ := hhanded.messages
      refine ⟨{ fed with emitted := m.arrives pb :: fed.emitted }, left, todo, ?_,
        ⟨m :: done, ?_, ?_⟩, hhanded.threw, hhanded.holds, hhanded.stream, hhanded.short⟩
      · rw [waitForData, hturn]
        dsimp only
        rw [hfed]
        rfl
      · rw [hdone]
        rfl
      · rw [List.map_cons, hemitted]

/-- A chunk that goes on with the stream. -/
theorem handleData_holds (hpb : ReadsVarints pb) {p : McsParser} {r chunk rest : Buffer}
    {messages : List Message} (hmessages : ∀ m ∈ messages, m.Sound pb) (h : Holds p r)
    (hstream : r ++ (chunk ++ rest) = messages.flatMap Message.encode) :
    ∃ fed left todo, p.handleData pb chunk = some fed ∧ Handed pb messages rest fed left todo := by
  refine waitForData_holds hpb ?_ hmessages (h.append chunk) ?_
  · rw [List.length_append]
  · rw [List.append_assoc]
    exact hstream

/-- What chunks that end with the stream make a parser hand over, from the first byte of a message
on. -/
theorem feed_holds (hpb : ReadsVarints pb) {p : McsParser} {r : Buffer} {chunks : List Buffer}
    {messages : List Message} (hmessages : ∀ m ∈ messages, m.Sound pb) (h : Holds p r)
    (hshort : Short r messages)
    (hstream : r ++ chunks.flatten = messages.flatMap Message.encode) :
    ∃ q, p.feed pb chunks =
      some { parser := q, emitted := messages.map (Message.arrives pb), threw := false } := by
  induction chunks generalizing p r messages with
  | nil =>
    cases messages with
    | nil => exact ⟨p, rfl⟩
    | cons m messages =>
      have hlength := hshort m messages rfl
      rw [List.flatten_nil, List.append_nil, List.flatMap_cons] at hstream
      rw [hstream, List.length_append] at hlength
      omega
  | cons chunk chunks ih =>
    obtain ⟨fed, left, todo, hfed, hhanded⟩ := handleData_holds hpb hmessages h hstream
    obtain ⟨done, rfl, hemitted⟩ := hhanded.messages
    have htodo : ∀ m ∈ todo, m.Sound pb := fun m hm => hmessages m (List.mem_append_right done hm)
    obtain ⟨q, hq⟩ := ih htodo hhanded.holds hhanded.short hhanded.stream
    refine ⟨q, ?_⟩
    rw [feed, hfed, Option.bind_some, hq, Option.map_some, hemitted, hhanded.threw,
      List.map_append]
    rfl

/-- A stream of messages behind its version byte, in any chunks: the parser emits every message
once, in order, and throws nothing. -/
theorem feed_messages (hpb : ReadsVarints pb) {version : UInt8} (hversion : 38 ≤ int8 version)
    {messages : List Message} (hmessages : ∀ m ∈ messages, m.Sound pb) {chunks : List Buffer}
    (hstream : chunks.flatten = version :: messages.flatMap Message.encode) :
    ∃ p, feed pb {} chunks =
      some { parser := p, emitted := messages.map (Message.arrives pb), threw := false } := by
  induction chunks with
  | nil => cases hstream
  | cons chunk chunks ih =>
    cases chunk with
    | nil =>
      obtain ⟨p, hp⟩ := ih hstream
      refine ⟨p, ?_⟩
      have hnothing : handleData pb {} [] = some ⟨{}, [], false⟩ := rfl
      rw [feed, hnothing, Option.bind_some, hp]
      rfl
    | cons b chunk =>
      rw [List.flatten_cons, List.cons_append, List.cons.injEq] at hstream
      obtain ⟨rfl, hstream⟩ := hstream
      have hholds : Holds { data := b :: chunk } chunk := .version _ b _ rfl hversion rfl
      have hcalls : 2 * (b :: chunk).length + 2 ≤
          2 * (([] : Buffer).length + (b :: chunk).length) + 2 := by
        rw [List.length_nil, Nat.zero_add]
      obtain ⟨fed, left, todo, hfed, hhanded⟩ :=
        waitForData_holds hpb hcalls hmessages hholds hstream
      obtain ⟨done, rfl, hemitted⟩ := hhanded.messages
      have htodo : ∀ m ∈ todo, m.Sound pb := fun m hm => hmessages m (List.mem_append_right done hm)
      obtain ⟨q, hq⟩ := feed_holds hpb htodo hhanded.holds hhanded.short hhanded.stream
      have hchunk : handleData pb {} (b :: chunk) = some fed := hfed
      refine ⟨q, ?_⟩
      rw [feed, hchunk, Option.bind_some, hq, Option.map_some, hemitted, hhanded.threw,
        List.map_append]
      rfl

/-- A varint as a signed 32-bit number. -/
def toInt32 (n : ℕ) : ℤ := ((n + 2 ^ 31) % 2 ^ 32 : ℕ) - 2 ^ 31

/-- A reader of varints, with a decoder that takes a message for its bytes. -/
def wireReader : Protobuf (String × Buffer) where
  int32 b :=
    match Varint.decode b with
    | some (n, rest) => .value (toInt32 n) (b.length - rest.length)
    | none => .outOfRange b.length
  decode typeName b := some (typeName, b)

theorem wireReader_encode (size : ℕ) (rest : Buffer) :
    wireReader.int32 (Varint.encode size ++ rest) =
      .value (toInt32 size) (Varint.encode size).length := by
  dsimp only [wireReader]
  rw [Varint.decode_encode]
  dsimp only
  rw [List.length_append, Nat.add_sub_cancel]

theorem readsVarints_wireReader : ReadsVarints wireReader where
  complete size rest hsize := by
    have hvalue : toInt32 size = size := by
      rw [toInt32, Nat.mod_eq_of_lt (by omega)]
      omega
    rw [wireReader_encode, hvalue]
  truncated size b hsize hpart hshort := by
    dsimp only [wireReader]
    rw [Varint.decode_of_continues (Varint.continues_of_part hpart hshort)]

theorem sound_wireReader {m : Message} (h : m.body.length < 2 ^ 31) : m.Sound wireReader :=
  ⟨h, fun _ _ _ => ⟨_, rfl⟩⟩

set_option maxRecDepth 4000 in
/-- Two messages in five chunks, the size of the second one in pieces. -/
theorem feed_two_messages :
    ∃ p, feed wireReader {} [[41, 3], [0, 8], [0xc8], [], 1 :: List.replicate 200 7] =
      some { parser := p, emitted := [⟨3, none⟩, ⟨8, some ("mcs_proto.DataMessageStanza",
        List.replicate 200 7)⟩], threw := false } := by
  have hversion : 38 ≤ int8 41 := by decide
  have hsound : ∀ m ∈ [Message.mk 3 [], Message.mk 8 (List.replicate 200 7)],
      m.Sound wireReader := by
    intro m hm
    simp only [List.mem_cons, List.not_mem_nil, or_false] at hm
    rcases hm with rfl | rfl
    · exact sound_wireReader (by decide)
    · exact sound_wireReader (by decide)
  exact feed_messages readsVarints_wireReader hversion hsound (by decide)

theorem emitted_of_turns {p q t : McsParser} {a b : McsMessage Object} {calls : ℕ} {fed : Fed Object}
    (hp : p.turn pb = { parser := q, emitted := [a], next := .enters })
    (hq : q.turn pb = { parser := t, emitted := [b], next := .enters })
    (h : waitForData pb (calls + 2) p = some fed) : ∃ more, fed.emitted = a :: b :: more := by
  rw [waitForData, hp] at h
  obtain ⟨rest, hrest, rfl⟩ := Option.map_eq_some_iff.mp h
  rw [waitForData, hq] at hrest
  obtain ⟨more, -, rfl⟩ := Option.map_eq_some_iff.mp hrest
  exact ⟨more.emitted, rfl⟩

/-- A size that is no `int32` is read as a negative one: the body is taken for messages. -/
theorem emitted_of_oversized {n : ℕ} (hn : n = 2 ^ 31) {fed : Fed (String × Buffer)}
    (h : handleData wireReader {} (41 :: (Message.mk 12 (List.replicate n 0)).encode) = some fed) :
    ∃ more, fed.emitted = ⟨12, none⟩ :: ⟨0, none⟩ :: more := by
  have hsize : toInt32 n = -(2 ^ 31 : ℤ) := by
    rw [hn]
    decide
  obtain ⟨zeros, hzeros⟩ : ∃ zeros : Buffer, List.replicate n (0 : UInt8) = 0 :: 0 :: zeros := by
    obtain ⟨k, rfl⟩ : ∃ k, n = k + 2 := ⟨n - 2, by omega⟩
    exact ⟨List.replicate k 0, rfl⟩
  have hlength : (List.replicate n (0 : UInt8)).length = n := List.length_replicate
  -- counted from the end, the body is empty and all of it is left
  have hbound : bound n (-(2 ^ 31)) = 0 := by
    rw [bound, if_pos (by omega), hn]
    rfl
  have hnegative : onBytes wireReader
      { data := List.replicate n 0, messageTag := 12, messageSize := -(2 ^ 31) } =
      { parser := { data := List.replicate n 0, state := .TAG_AND_SIZE, messageTag := 12,
                    messageSize := -(2 ^ 31) },
        emitted := [⟨12, none⟩], next := .enters } := by
    rw [onBytes, if_neg (by dsimp only; omega), if_neg (by dsimp only; omega), subarrayFrom, hlength,
      hbound]
    rfl
  have hfirst : turn wireReader { data := 41 :: 12 :: (Varint.encode n ++ List.replicate n 0) } =
      { parser := { data := List.replicate n 0, state := .TAG_AND_SIZE, messageTag := 12,
                    messageSize := -(2 ^ 31) },
        emitted := [⟨12, none⟩], next := .enters } := by
    have hpos := Varint.length_encode_pos n
    rw [turn, if_neg]
    · dsimp only
      rw [onVersion]
      dsimp only
      rw [if_neg (by decide), onTag]
      dsimp only
      rw [onSize, wireReader_encode, hsize]
      dsimp only
      rw [if_neg (by omega), subarrayFrom_append]
      exact hnegative
    · rw [minBytesNeeded]
      simp only [List.length_cons, List.length_append]
      omega
  have hsecond : turn wireReader { data := List.replicate n 0, state := .TAG_AND_SIZE,
                                   messageTag := 12, messageSize := -(2 ^ 31) } =
      { parser := { data := zeros, state := .TAG_AND_SIZE }, emitted := [⟨0, none⟩],
        next := .enters } := by
    have hread : wireReader.int32 (0 :: zeros) = .value 0 1 := wireReader_encode 0 zeros
    have hdrop : subarrayFrom (0 :: zeros) (1 : ℕ) = zeros := subarrayFrom_append [0] zeros
    rw [hzeros, turn, if_neg]
    · dsimp only
      rw [onTag]
      dsimp only
      rw [onSize, hread]
      dsimp only
      rw [if_neg (lt_irrefl 0), hdrop, onBytes, if_pos rfl]
      rfl
    · rw [minBytesNeeded]
      simp only [List.length_cons]
      omega
  have hstart : (Message.mk 12 (List.replicate n 0)).encode =
      12 :: (Varint.encode n ++ List.replicate n 0) := by
    rw [Message.encode, hlength]
  rw [handleData, hstart] at h
  exact emitted_of_turns hfirst hsecond h

/-- A tag from 128 on comes out as a negative one, and a body of 2³¹ bytes as other messages. -/
theorem no_message_beyond_signed :
    (¬∃ p, feed wireReader {} [41 :: (Message.mk 200 []).encode] =
      some { parser := p, emitted := [⟨200, none⟩], threw := false }) ∧
    ¬∃ p, feed wireReader {} [41 :: (Message.mk 12 (List.replicate (2 ^ 31) 0)).encode] =
      some { parser := p, emitted := [⟨12, none⟩], threw := false } := by
  constructor
  · rintro ⟨p, hp⟩
    have hemitted : (feed wireReader {} [41 :: (Message.mk 200 []).encode]).map Fed.emitted =
        some [⟨-56, none⟩] := by decide
    rw [hp] at hemitted
    cases hemitted
  · generalize hn : (2 ^ 31 : ℕ) = n
    rintro ⟨p, hp⟩
    obtain ⟨fed, hfed, hrest⟩ := Option.bind_eq_some_iff.mp hp
    obtain ⟨more, hmore⟩ := emitted_of_oversized hn.symm hfed
    obtain ⟨rest, -, hemitted⟩ := Option.map_eq_some_iff.mp hrest
    have hall := congrArg Fed.emitted hemitted
    dsimp only at hall
    rw [hmore] at hall
    cases hall

end EufySdk.McsParser
