import Mathlib.Tactic
import EufySdk.Core.Thrown
import EufySdk.Model.ProtoRead
import EufySdk.Model.VacuumClean

/-!
# Messages there and back

A message is a tree of fields. Its bytes are a function of the tree, and the writer comes to
these bytes or throws; the codec reads the fields back off them, and a nested message off the
bytes of its field, so trees come back whole. The requests that clean areas of a map are two
such trees.

- `Field` — a message as it is given to the writer
- `encodeAll`, `Field.read` — its bytes, and what the codec makes of each field
- `ReadsAll` — that fields read are the fields of a tree, with what is nested in them
- `raw_dp_round_trip` — trees, rooms and zones
-/

namespace EufySdk

open Bytes

/-- A field as it is given to the writer. -/
inductive Field
  | int (field value : ℤ)
  | sint (field value : ℤ)
  | bool (field : ℤ) (value : Bool)
  | bytes (field : ℤ) (value : Buffer)
  | sub (field : ℤ) (fields : List Field)

mutual

/-- The writer, given a field. -/
def Field.write : Field → RawDpWriter → Except WriteError RawDpWriter
  | .int field value, w => w.int field value
  | .sint field value, w => w.sint field value
  | .bool field value, w => w.bool field value
  | .bytes field value, w => w.bytes field value
  | .sub field fields, w => w.sub field (writeAll fields)

def writeAll : List Field → RawDpWriter → Except WriteError RawDpWriter
  | [], w => .ok w
  | f :: fs, w => f.write w >>= writeAll fs

end

/-- What follows the tag of a field. -/
inductive Payload
  | varint (n : ℕ)
  | bytes (b : Buffer)

def Field.number : Field → ℤ
  | .int field _ | .sint field _ | .bool field _ | .bytes field _ | .sub field _ => field

/-- The bytes of a field. -/
def encodeField (field : ℤ) : Payload → Buffer
  | .varint n => Varint.encode (field * 8).toNat ++ Varint.encode n
  | .bytes b => Varint.encode (field * 8 + 2).toNat ++ Varint.encode b.length ++ b

mutual

def Field.payload : Field → Payload
  | .int _ value => .varint value.toNat
  | .sint _ value => .varint (Varint.zigzag value)
  | .bool _ value => .varint (if value then 1 else 0)
  | .bytes _ value => .bytes value
  | .sub _ fields => .bytes (encodeAll fields)

/-- The bytes of a message. -/
def encodeAll : List Field → Buffer
  | [] => []
  | f :: fs => encodeField f.number f.payload ++ encodeAll fs

end

/-- A field as the codec reads it. -/
def Field.read (f : Field) : RawDpField :=
  match f.payload with
  | .varint n => .int f.number.toNat n
  | .bytes b => .bytes f.number.toNat b

def fieldAllowed (field : ℤ) : Prop := 1 ≤ field ∧ field < 2 ^ 29

mutual

/-- The values the writer takes, under the numbers a tag has room for. -/
def Field.Allowed : Field → Prop
  | .int field value => fieldAllowed field ∧ 0 ≤ value ∧ isSafeInteger value = true
  | .sint field value => fieldAllowed field ∧ -(2 ^ 52) ≤ value ∧ value < 2 ^ 52
  | .bool field _ => fieldAllowed field
  | .bytes field _ => fieldAllowed field
  | .sub field fields => fieldAllowed field ∧ AllowedAll fields

def AllowedAll : List Field → Prop
  | [] => True
  | f :: fs => f.Allowed ∧ AllowedAll fs

end

theorem Field.Allowed.field {f : Field} (h : f.Allowed) : fieldAllowed f.number := by
  cases f with
  | int field value => exact h.1
  | sint field value => exact h.1
  | bool field value => exact h
  | bytes field value => exact h
  | sub field fields => exact h.1

/-! ## Writing -/

theorem isSafeInteger_iff {value : ℤ} :
    isSafeInteger value = true ↔ -(2 ^ 53 - 1) ≤ value ∧ value ≤ 2 ^ 53 - 1 := by
  rw [isSafeInteger, Bool.and_eq_true, decide_eq_true_eq, decide_eq_true_eq]

theorem encodeVarint_of_safe {value : ℤ} (h0 : 0 ≤ value) (h : value ≤ 2 ^ 53 - 1) :
    encodeVarint value = .ok (Varint.encode value.toNat) := by
  have hsafe : isSafeInteger value = true := isSafeInteger_iff.mpr ⟨by omega, h⟩
  rw [encodeVarint, hsafe, if_neg]
  simp [h0]

theorem encodeVarint_eq_ok {value : ℤ} {b : Buffer} (h : encodeVarint value = .ok b) :
    b = Varint.encode value.toNat := by
  rw [encodeVarint] at h
  split at h <;> cases h
  rfl

theorem tag_of_allowed {field : ℤ} (h : fieldAllowed field) (wire : ℤ) :
    tag field wire = .ok (field * 8 + wire) := by
  obtain ⟨hpos, hlt⟩ := h
  have hsafe : isSafeInteger field = true := isSafeInteger_iff.mpr ⟨by omega, by omega⟩
  rw [tag, hsafe, if_neg]
  simp [hpos]

theorem tag_eq_ok {field wire t : ℤ} (h : tag field wire = .ok t) : t = field * 8 + wire := by
  rw [tag] at h
  split at h <;> cases h
  rfl

namespace RawDpWriter

theorem int_of_allowed {field value : ℤ} (hfield : fieldAllowed field) (h0 : 0 ≤ value)
    (h : value ≤ 2 ^ 53 - 1) (w : RawDpWriter) :
    w.int field value = .ok { body := w.body ++ encodeField field (.varint value.toNat) } := by
  have htag : encodeVarint (field * 8 + WIRE.VARINT) = .ok (Varint.encode (field * 8).toNat) := by
    obtain ⟨hpos, hlt⟩ := hfield
    rw [WIRE.VARINT, add_zero]
    exact encodeVarint_of_safe (by omega) (by omega)
  rw [int, tag_of_allowed hfield]
  dsimp only [bind, Except.bind]
  rw [htag, encodeVarint_of_safe h0 h]
  simp only [encodeField, List.append_assoc]
  rfl

theorem int_eq_ok {field value : ℤ} {w w' : RawDpWriter} (h : w.int field value = .ok w') :
    w'.body = w.body ++ encodeField field (.varint value.toNat) := by
  obtain ⟨t, ht, h⟩ := bind_eq_ok.mp h
  obtain ⟨head, hhead, h⟩ := bind_eq_ok.mp h
  obtain ⟨b, hb, h⟩ := bind_eq_ok.mp h
  obtain rfl := tag_eq_ok ht
  obtain rfl := encodeVarint_eq_ok hhead
  obtain rfl := encodeVarint_eq_ok hb
  cases h
  simp only [encodeField, WIRE.VARINT, add_zero, List.append_assoc]

theorem bytes_of_allowed {field : ℤ} (hfield : fieldAllowed field) {value : Buffer}
    (h : value.length < 2 ^ 32) (w : RawDpWriter) :
    w.bytes field value = .ok { body := w.body ++ encodeField field (.bytes value) } := by
  have htag : encodeVarint (field * 8 + WIRE.LENGTH_DELIMITED) =
      .ok (Varint.encode (field * 8 + 2).toNat) := by
    obtain ⟨hpos, hlt⟩ := hfield
    rw [WIRE.LENGTH_DELIMITED]
    exact encodeVarint_of_safe (by omega) (by omega)
  have hlength : encodeVarint value.length = .ok (Varint.encode value.length) := by
    rw [encodeVarint_of_safe (by omega) (by omega), Int.toNat_natCast]
  rw [bytes, tag_of_allowed hfield]
  dsimp only [bind, Except.bind]
  rw [htag, hlength]
  simp only [encodeField, List.append_assoc]
  rfl

theorem bytes_eq_ok {field : ℤ} {value : Buffer} {w w' : RawDpWriter}
    (h : w.bytes field value = .ok w') :
    w'.body = w.body ++ encodeField field (.bytes value) := by
  obtain ⟨t, ht, h⟩ := bind_eq_ok.mp h
  obtain ⟨head, hhead, h⟩ := bind_eq_ok.mp h
  obtain ⟨length, hlength, h⟩ := bind_eq_ok.mp h
  obtain rfl := tag_eq_ok ht
  obtain rfl := encodeVarint_eq_ok hhead
  obtain rfl := encodeVarint_eq_ok hlength
  cases h
  simp only [encodeField, WIRE.LENGTH_DELIMITED, Int.toNat_natCast, List.append_assoc]

end RawDpWriter

theorem zigzag_toNat (value : ℤ) :
    (if value < 0 then -2 * value - 1 else 2 * value).toNat = Varint.zigzag value := by
  rw [Varint.zigzag]
  split <;> rfl

theorem length_payload_lt (field : ℤ) (b : Buffer) :
    b.length < (encodeField field (.bytes b)).length := by
  have hpos := Varint.length_encode_pos b.length
  simp only [encodeField, List.length_append]
  omega

mutual

/-- The writer takes what is allowed, while lengths can be told. -/
theorem Field.write_of_allowed : ∀ (f : Field), f.Allowed →
    (encodeField f.number f.payload).length < 2 ^ 32 → ∀ w : RawDpWriter,
      f.write w = .ok { body := w.body ++ encodeField f.number f.payload }
  | .int field value, h, _, w => by
    obtain ⟨hfield, h0, hsafe⟩ := h
    rw [Field.write, Field.number, Field.payload]
    exact RawDpWriter.int_of_allowed hfield h0 (isSafeInteger_iff.mp hsafe).2 w
  | .sint field value, h, _, w => by
    obtain ⟨hfield, hlow, hhigh⟩ := h
    have hsafe : isSafeInteger value = true := isSafeInteger_iff.mpr ⟨by omega, by omega⟩
    rw [Field.write, RawDpWriter.sint, zigzag, hsafe, Field.number, Field.payload,
      ← zigzag_toNat]
    refine RawDpWriter.int_of_allowed hfield ?_ ?_ w
    · split_ifs <;> omega
    · split_ifs <;> omega
  | .bool field value, h, _, w => by
    rw [Field.write, RawDpWriter.bool, Field.number, Field.payload]
    cases value with
    | false => exact RawDpWriter.int_of_allowed h (by decide) (by decide) w
    | true => exact RawDpWriter.int_of_allowed h (by decide) (by decide) w
  | .bytes field value, h, hlength, w => by
    rw [Field.write, Field.number, Field.payload]
    exact RawDpWriter.bytes_of_allowed h ((length_payload_lt field value).trans hlength) w
  | .sub field fields, h, hlength, w => by
    obtain ⟨hfield, hall⟩ := h
    have hinner := (length_payload_lt field (encodeAll fields)).trans hlength
    have hbuild := writeAll_of_allowed fields hall hinner {}
    rw [Field.write, RawDpWriter.sub, hbuild, Field.number, Field.payload]
    exact RawDpWriter.bytes_of_allowed hfield hinner w

theorem writeAll_of_allowed : ∀ (fields : List Field), AllowedAll fields →
    (encodeAll fields).length < 2 ^ 32 → ∀ w : RawDpWriter,
      writeAll fields w = .ok { body := w.body ++ encodeAll fields }
  | [], _, _, w => by rw [writeAll, encodeAll, List.append_nil]
  | f :: fs, h, hlength, w => by
    rw [encodeAll, List.length_append] at hlength
    rw [writeAll, Field.write_of_allowed f h.1 (by omega) w]
    have hrest := writeAll_of_allowed fs h.2 (by omega)
      { body := w.body ++ encodeField f.number f.payload }
    rw [encodeAll, ← List.append_assoc]
    exact hrest

end

mutual

/-- Where the writer throws nothing, it has put the bytes of the message. -/
theorem Field.write_eq_ok : ∀ (f : Field) {w w' : RawDpWriter}, f.write w = .ok w' →
    w'.body = w.body ++ encodeField f.number f.payload
  | .int field value, w, w', h => RawDpWriter.int_eq_ok h
  | .sint field value, w, w', h => by
    obtain ⟨z, hz, h⟩ := bind_eq_ok.mp h
    rw [zigzag] at hz
    split at hz <;> cases hz
    rw [RawDpWriter.int_eq_ok h, zigzag_toNat]
    rfl
  | .bool field value, w, w', h => by
    rw [RawDpWriter.int_eq_ok h]
    cases value <;> rfl
  | .bytes field value, w, w', h => RawDpWriter.bytes_eq_ok h
  | .sub field fields, w, w', h => by
    obtain ⟨inner, hinner, h⟩ := bind_eq_ok.mp h
    rw [RawDpWriter.bytes_eq_ok h, writeAll_eq_ok fields hinner]
    rfl

theorem writeAll_eq_ok : ∀ (fields : List Field) {w w' : RawDpWriter},
    writeAll fields w = .ok w' → w'.body = w.body ++ encodeAll fields
  | [], w, w', h => by
    cases h
    rw [encodeAll, List.append_nil]
  | f :: fs, w, w', h => by
    obtain ⟨v, hv, h⟩ := bind_eq_ok.mp h
    rw [writeAll_eq_ok fs h, Field.write_eq_ok f hv, encodeAll, List.append_assoc]

end

/-- A message with its length. -/
def framed (message : Buffer) : Buffer := Varint.encode message.length ++ message

/-- The text a value goes out as. -/
def text (fields : List Field) : List Char := Base64.encode (framed (encodeAll fields))

/-- A value goes out and reads as it should, or it would be longer than a string can be. -/
def Sent (result : Except WriteError String) (fields : List Field) (reads : String → Prop) :
    Prop :=
  (∃ value, result = .ok value ∧ reads value) ∨
    (∃ e, result = .error e) ∧ MAX_STRING_LENGTH < (text fields).length

theorem length_le_text (fields : List Field) :
    (encodeAll fields).length ≤ (text fields).length := by
  have htext := Base64.length_le_encode (framed (encodeAll fields))
  rw [framed, List.length_append] at htext
  rw [text, framed]
  omega

/-- Where lengths can be told, every field that is allowed goes out. -/
theorem sent_rawDp {fields : List Field} {reads : String → Prop}
    (hallowed : (encodeAll fields).length ≤ MAX_STRING_LENGTH → AllowedAll fields)
    (hreads : (encodeAll fields).length ≤ MAX_STRING_LENGTH →
      reads (String.ofList (text fields))) : Sent (rawDp (writeAll fields)) fields reads := by
  have hmessage := length_le_text fields
  by_cases hfits : (text fields).length ≤ MAX_STRING_LENGTH
  · have hsmall : (encodeAll fields).length < 2 ^ 32 := by
      rw [MAX_STRING_LENGTH] at hfits
      omega
    have hbuild := writeAll_of_allowed fields (hallowed (by omega)) hsmall {}
    have hlength : encodeVarint (encodeAll fields).length =
        .ok (Varint.encode (encodeAll fields).length) := by
      rw [encodeVarint_of_safe (by omega) (by omega), Int.toNat_natCast]
    refine .inl ⟨String.ofList (text fields), ?_, hreads (by omega)⟩
    rw [rawDp, hbuild]
    dsimp only [bind, Except.bind, List.nil_append, RawDpWriter.finish]
    rw [hlength]
    exact if_neg (not_lt.mpr hfits)
  · refine .inr ⟨?_, not_le.mp hfits⟩
    cases hresult : rawDp (writeAll fields) with
    | error e => exact ⟨e, rfl⟩
    | ok value =>
      obtain ⟨w, hw, h⟩ := bind_eq_ok.mp hresult
      obtain ⟨length, hlength, h⟩ := bind_eq_ok.mp h
      have hbody := writeAll_eq_ok fields hw
      obtain rfl := encodeVarint_eq_ok hlength
      rw [Int.toNat_natCast, hbody] at h
      have htoo : MAX_STRING_LENGTH < (Base64.encode (framed (encodeAll fields))).length :=
        not_le.mp hfits
      cases (if_pos htoo).symm.trans h

/-! ## Reading -/

/-- The readers of single values, on what a writer puts. -/
structure WireReader.Lawful (reader : WireReader) : Prop where
  uint32 : ∀ (n : ℕ) (rest : Buffer), n < 2 ^ 32 →
    reader.uint32 (Varint.encode n ++ rest) = some (n, rest)
  uint64 : ∀ (n : ℕ) (rest : Buffer), n < 2 ^ 64 →
    reader.uint64 (Varint.encode n ++ rest) = some (n, rest)
  bytes : ∀ b rest : Buffer, b.length < 2 ^ 32 →
    reader.bytes (Varint.encode b.length ++ (b ++ rest)) = some (b, rest)

variable {reader : WireReader}

/-- A varint the writer takes is one of 64 bits. -/
theorem Field.Allowed.varint {f : Field} {n : ℕ} (h : f.Allowed) (hn : f.payload = .varint n) :
    n < 2 ^ 53 := by
  cases f with
  | int field value =>
    cases hn
    have hsafe := isSafeInteger_iff.mp h.2.2
    omega
  | sint field value =>
    cases hn
    obtain ⟨-, hlow, hhigh⟩ := h
    rw [← zigzag_toNat]
    split_ifs <;> omega
  | bool field value =>
    cases hn
    split_ifs <;> omega
  | bytes field value => cases hn
  | sub field fields => cases hn

theorem tag_parts {field : ℤ} (h : fieldAllowed field) {wire : ℕ} (hwire : wire < 8) :
    (field * 8 + wire).toNat < 2 ^ 32 ∧ (field * 8 + wire).toNat >>> 3 = field.toNat ∧
      (field * 8 + wire).toNat &&& 7 = wire := by
  obtain ⟨hpos, hlt⟩ := h
  have hshift := Nat.shiftRight_eq_div_pow (field * 8 + wire).toNat 3
  have hmask : (field * 8 + wire).toNat &&& 7 = (field * 8 + wire).toNat % 8 :=
    Nat.and_two_pow_sub_one_eq_mod _ 3
  exact ⟨by omega, by omega, by omega⟩

theorem readField_encode (hreader : reader.Lawful) {f : Field} (h : f.Allowed)
    (hlength : (encodeField f.number f.payload).length < 2 ^ 32) (rest : Buffer) :
    readField reader (encodeField f.number f.payload ++ rest) = some (f.read, rest) := by
  rw [Field.read]
  cases hpayload : f.payload with
  | varint n =>
    have hn := h.varint hpayload
    obtain ⟨htag, hfield, hwire⟩ := tag_parts h.field (by decide : 0 < 8)
    rw [Nat.cast_zero, add_zero] at htag hfield hwire
    rw [encodeField, List.append_assoc, readField, hreader.uint32 _ _ htag]
    dsimp only [bind, Option.bind]
    rw [hfield, hwire, hreader.uint64 n rest (by omega)]
    rfl
  | bytes b =>
    rw [hpayload] at hlength
    have hb := (length_payload_lt f.number b).trans hlength
    obtain ⟨htag, hfield, hwire⟩ := tag_parts h.field (by decide : 2 < 8)
    rw [Nat.cast_ofNat] at htag hfield hwire
    rw [encodeField, List.append_assoc, List.append_assoc, readField, hreader.uint32 _ _ htag]
    dsimp only [bind, Option.bind]
    rw [hfield, hwire, hreader.bytes b rest hb]
    rfl

theorem length_encodeField_pos (field : ℤ) (payload : Payload) :
    0 < (encodeField field payload).length := by
  cases payload with
  | varint n =>
    have hpos := Varint.length_encode_pos n
    rw [encodeField, List.length_append]
    omega
  | bytes b => exact Nat.zero_lt_of_lt (length_payload_lt field b)

theorem readLoop_encodeAll (hreader : reader.Lawful) {fields : List Field} {rounds : ℕ}
    (h : AllowedAll fields) (hlength : (encodeAll fields).length < 2 ^ 32)
    (hrounds : (encodeAll fields).length ≤ rounds) :
    readLoop reader rounds (encodeAll fields) = some (fields.map Field.read) := by
  induction fields generalizing rounds with
  | nil => cases rounds <;> rfl
  | cons f fs ih =>
    rw [encodeAll, List.length_append] at hlength hrounds
    have hpos := length_encodeField_pos f.number f.payload
    obtain ⟨rounds, rfl⟩ : ∃ more, rounds = more + 1 := ⟨rounds - 1, by omega⟩
    obtain ⟨b, body, hbody⟩ := List.exists_cons_of_length_pos hpos
    have hread := readField_encode hreader h.1 (by omega) (encodeAll fs)
    rw [hbody, List.cons_append] at hread
    rw [encodeAll, hbody, List.cons_append, readLoop, hread]
    dsimp only [bind, Option.bind]
    rw [ih h.2 (by omega) (by omega)]
    rfl

/-- The codec reads the fields of a message off its bytes. -/
theorem readFields_encodeAll (hreader : reader.Lawful) {fields : List Field}
    (h : AllowedAll fields) (hlength : (encodeAll fields).length < 2 ^ 32) :
    readFields reader (encodeAll fields) = some (fields.map Field.read) :=
  readLoop_encodeAll hreader h hlength (le_refl _)

/-- The codec reads a value that went out. -/
theorem decode_text (hreader : reader.Lawful) {fields : List Field} (h : AllowedAll fields)
    (hlength : (encodeAll fields).length < 2 ^ 32) :
    (rawDpCodec reader).decode (String.ofList (text fields)) = some (fields.map Field.read) := by
  have hframed : framed (encodeAll fields) ≠ [] := by
    simp [framed, Varint.encode_ne_nil]
  have htext : String.ofList (text fields) ≠ "" := by
    intro hempty
    have hlist : text fields = [] := by
      have h := congrArg String.toList hempty
      rwa [String.toList_ofList] at h
    have hbytes := congrArg Base64.decode hlist
    rw [text, Base64.decode_encode] at hbytes
    exact hframed hbytes
  rw [rawDpCodec]
  dsimp only
  rw [if_neg htext, String.toList_ofList, text, Base64.decode_encode, if_neg hframed, framed,
    hreader.uint32 _ _ hlength]
  dsimp only
  rw [if_neg (by exact fun h => h rfl)]
  exact readFields_encodeAll hreader h hlength

mutual

/-- What is read is a field of a tree: by its number, its kind and its value, and where the field is
a message of its own, by what the codec finds nested in it. -/
def Field.Reads (codec : RawDpCodec) : Field → RawDpField → Prop
  | .int field value, .int number n => number = field ∧ n = value
  | .sint field value, .int number n => number = field ∧ Varint.unzigzag n = value
  | .bool field value, .int number n => number = field ∧ n = if value then 1 else 0
  | .bytes field value, .bytes number b => number = field ∧ b = value
  | .sub field fields, .bytes number b =>
    number = field ∧ ∃ read, codec.nested b = some read ∧ ReadsAll codec fields read
  | _, _ => False

/-- The same of a whole message, in order. -/
def ReadsAll (codec : RawDpCodec) : List Field → List RawDpField → Prop
  | [], [] => True
  | f :: fs, r :: rs => f.Reads codec r ∧ ReadsAll codec fs rs
  | _, _ => False

end

theorem toNat_number {field : ℤ} (h : fieldAllowed field) : (field.toNat : ℤ) = field :=
  Int.toNat_of_nonneg (le_trans (by decide) h.1)

mutual

theorem Field.reads_read (hreader : reader.Lawful) : ∀ (f : Field), f.Allowed →
    (encodeField f.number f.payload).length < 2 ^ 32 → f.Reads (rawDpCodec reader) f.read
  | .int field value, h, _ => ⟨toNat_number h.1, Int.toNat_of_nonneg h.2.1⟩
  | .sint field value, h, _ => ⟨toNat_number h.1, Varint.unzigzag_zigzag value⟩
  | .bool field value, h, _ => ⟨toNat_number h, rfl⟩
  | .bytes field value, h, _ => ⟨toNat_number h, rfl⟩
  | .sub field fields, h, hlength => by
    have hinner := (length_payload_lt field (encodeAll fields)).trans hlength
    exact ⟨toNat_number h.1, _, readFields_encodeAll hreader h.2 hinner,
      readsAll_read hreader fields h.2 hinner⟩

/-- **Trees come back.** -/
theorem readsAll_read (hreader : reader.Lawful) : ∀ (fields : List Field), AllowedAll fields →
    (encodeAll fields).length < 2 ^ 32 →
      ReadsAll (rawDpCodec reader) fields (fields.map Field.read)
  | [], _, _ => trivial
  | f :: fs, h, hlength => by
    rw [encodeAll, List.length_append] at hlength
    exact ⟨Field.reads_read hreader f h.1 (by omega),
      readsAll_read hreader fs h.2 (by omega)⟩

end

/-! ## Reading single fields -/

theorem allowedAll_iff {fields : List Field} : AllowedAll fields ↔ ∀ f ∈ fields, f.Allowed := by
  induction fields with
  | nil => exact ⟨fun _ => nofun, fun _ => trivial⟩
  | cons f fs ih => rw [AllowedAll, ih, List.forall_mem_cons]

theorem length_le_encodeAll (fields : List Field) : fields.length ≤ (encodeAll fields).length := by
  induction fields with
  | nil => exact le_refl _
  | cons f fs ih =>
    have hpos := length_encodeField_pos f.number f.payload
    rw [encodeAll, List.length_append, List.length_cons]
    omega

/-- A message is longer than any that is nested in it. -/
theorem length_nested {fields inner : List Field} {field : ℤ} (h : .sub field inner ∈ fields) :
    (encodeAll inner).length < (encodeAll fields).length := by
  induction fields with
  | nil => cases h
  | cons f fs ih =>
    rw [encodeAll, List.length_append]
    rcases List.mem_cons.mp h with rfl | h
    · have hlt := length_payload_lt field (encodeAll inner)
      rw [Field.number, Field.payload]
      omega
    · have hlt := ih h
      omega

theorem toNumber_of_lt {n : ℕ} (h : n < 2 ^ 53) : ProtoRead.toNumber n = n := if_pos h

theorem int_of_find {fields : Option (List RawDpField)} {field n : ℕ} {value : ℤ}
    (hfind : ProtoRead.find fields field = some (.int n value.toNat)) (h0 : 0 ≤ value)
    (hsafe : isSafeInteger value = true) : ProtoRead.int fields field = value := by
  have hlt := (isSafeInteger_iff.mp hsafe).2
  rw [ProtoRead.int, hfind]
  dsimp only
  rw [toNumber_of_lt (by omega), Int.toNat_of_nonneg h0]

/-- The reader of signed numbers undoes the writer's zigzag. -/
theorem signed_of_find {fields : Option (List RawDpField)} {field n : ℕ} {value : ℤ}
    (hfind : ProtoRead.find fields field = some (.int n (Varint.zigzag value)))
    (hlow : -(2 ^ 52) ≤ value) (hhigh : value < 2 ^ 52) :
    ProtoRead.signed fields field = value := by
  have hlt : Varint.zigzag value < 2 ^ 53 := by
    rw [← zigzag_toNat]
    split_ifs <;> omega
  have hraw : ProtoRead.int fields field = if value < 0 then -2 * value - 1 else 2 * value := by
    rw [ProtoRead.int, hfind]
    dsimp only
    rw [toNumber_of_lt hlt, ← zigzag_toNat]
    split_ifs <;> omega
  simp only [ProtoRead.signed, hraw]
  split_ifs <;> omega

theorem sub_of_find (hreader : reader.Lawful) {fields : Option (List RawDpField)} {field n : ℕ}
    {inner : List Field} (hfind : ProtoRead.find fields field = some (.bytes n (encodeAll inner)))
    (h : AllowedAll inner) (hlength : (encodeAll inner).length < 2 ^ 32) :
    ProtoRead.sub (rawDpCodec reader) fields field = some (inner.map Field.read) := by
  rw [ProtoRead.sub, hfind]
  exact readFields_encodeAll hreader h hlength

/-- Fields under other numbers are passed over. -/
theorem find_append {a b : List RawDpField} {field : ℕ} (h : ∀ f ∈ a, f.field ≠ field) :
    ProtoRead.find (some (a ++ b)) field = ProtoRead.find (some b) field := by
  have hnone : a.find? (fun f => f.field = field) = none :=
    List.find?_eq_none.mpr fun f hf => by simpa using h f hf
  rw [ProtoRead.find, ProtoRead.find, Option.bind_some, Option.bind_some, List.find?_append, hnone,
    Option.none_or]

theorem find_head {f : RawDpField} {field : ℕ} (h : f.field = field) (rest : List RawDpField) :
    ProtoRead.find (some (f :: rest)) field = some f := by
  rw [ProtoRead.find, Option.bind_some, List.find?_cons, decide_eq_true h]

/-- Every repeat of a message is stepped into. -/
theorem each_subs (hreader : reader.Lawful) {α : Type} {l : List α} {inner : α → List Field}
    {number : ℕ} {rest : List RawDpField}
    (h : ∀ a ∈ l, AllowedAll (inner a) ∧ (encodeAll (inner a)).length < 2 ^ 32)
    (hrest : ∀ f ∈ rest, f.field ≠ number) :
    ProtoRead.each (rawDpCodec reader)
        (some ((l.map fun a => (Field.sub number (inner a)).read) ++ rest)) number =
      l.map fun a => (inner a).map Field.read := by
  induction l with
  | nil =>
    refine List.filterMap_eq_nil_iff.mpr fun f hf => ?_
    cases f with
    | int field value => rfl
    | bytes field value => exact if_pos (hrest _ hf)
  | cons a l ih =>
    obtain ⟨ha, hlength⟩ := h a List.mem_cons_self
    have hhead := readFields_encodeAll hreader ha hlength
    have htail := ih fun b hb => h b (List.mem_cons_of_mem a hb)
    rw [ProtoRead.each, Option.getD_some] at htail ⊢
    rw [List.map_cons, List.cons_append, List.filterMap_cons_some, htail, List.map_cons]
    rw [Field.read, Field.payload, Field.number, Int.toNat_natCast]
    dsimp only
    rw [if_neg (by exact fun hne => hne rfl)]
    exact hhead

/-! ## Area cleans -/

namespace VacuumClean

theorem writeAll_append (a b : List Field) (w : RawDpWriter) :
    writeAll (a ++ b) w = writeAll a w >>= writeAll b := by
  induction a generalizing w with
  | nil => rfl
  | cons f fs ih =>
    rw [List.cons_append, writeAll, writeAll]
    cases f.write w with
    | error e => rfl
    | ok v => exact ih v

theorem foldlM_write {α : Type} (g : α → Field) (l : List α) (w : RawDpWriter) :
    l.foldlM (fun w a => (g a).write w) w = writeAll (l.map g) w := by
  induction l generalizing w with
  | nil => rfl
  | cons a l ih =>
    rw [List.foldlM_cons, List.map_cons, writeAll]
    cases (g a).write w with
    | error e => rfl
    | ok v => exact ih v

/-- The frame of a request, as a tree. -/
def modeCtrlFields (modeCtrlSeq : ℤ) (verb : ModeCtrlParam) (fields : List Field) : List Field :=
  [.int MODE_CTRL_FIELD.METHOD verb.method,
    .int MODE_CTRL_FIELD.SEQ (nextModeCtrlSeq modeCtrlSeq), .sub verb.param fields]

def roomFields (room : VacuumRoomTarget) : List Field :=
  .int SELECT_ROOMS_FIELD.ROOM_ID room.id ::
    (room.order.map fun order => .int SELECT_ROOMS_FIELD.ROOM_ORDER order).toList

def roomsFields (mapId : ℤ) (rooms : List VacuumRoomTarget) (cleanTimes : ℤ) : List Field :=
  (rooms.map fun room => .sub SELECT_ROOMS_FIELD.ROOMS (roomFields room)) ++
    [.int SELECT_ROOMS_FIELD.CLEAN_TIMES cleanTimes, .int SELECT_ROOMS_FIELD.MAP_ID mapId]

def pointFields (corner : Corner) : List Field :=
  [.sint SELECT_ZONES_FIELD.POINT_X corner.x, .sint SELECT_ZONES_FIELD.POINT_Y corner.y]

def quadrangleFields (corners : List Corner) : List Field :=
  corners.zipIdx.map fun corner => .sub (corner.2 + 1) (pointFields corner.1)

def zoneFields (zone : VacuumZoneTarget) : List Field :=
  .sub SELECT_ZONES_FIELD.QUADRANGLE (quadrangleFields zone.corners) ::
    (zone.cleanTimes.map fun times => .int SELECT_ZONES_FIELD.ZONE_CLEAN_TIMES times).toList

def zonesFields (mapId : ℤ) (zones : List VacuumZoneTarget) : List Field :=
  (zones.map fun zone => .sub SELECT_ZONES_FIELD.ZONES (zoneFields zone)) ++
    [.int SELECT_ZONES_FIELD.MAP_ID mapId]

theorem writeAll_singleton (f : Field) (w : RawDpWriter) : writeAll [f] w = f.write w := by
  rw [writeAll]
  cases f.write w <;> rfl

theorem writeRoom_eq (room : VacuumRoomTarget) : writeRoom room = writeAll (roomFields room) := by
  funext w
  obtain ⟨id, order⟩ := room
  cases order with
  | none => rfl
  | some order =>
    have hlast : ∀ r : RawDpWriter, r.int SELECT_ROOMS_FIELD.ROOM_ORDER order =
        writeAll [.int SELECT_ROOMS_FIELD.ROOM_ORDER order] r :=
      fun r => (writeAll_singleton (.int _ order) r).symm
    rw [writeRoom]
    dsimp only
    simp only [hlast]
    rfl

theorem writePoint_eq (corner : Corner) :
    writePoint corner = writeAll (pointFields corner) := by
  funext w
  have hlast : ∀ r : RawDpWriter, r.sint SELECT_ZONES_FIELD.POINT_Y corner.y =
      writeAll [.sint SELECT_ZONES_FIELD.POINT_Y corner.y] r :=
    fun r => (writeAll_singleton (.sint _ corner.y) r).symm
  rw [writePoint]
  simp only [hlast]
  rfl

theorem writeZone_eq (zone : VacuumZoneTarget) : writeZone zone = writeAll (zoneFields zone) := by
  funext w
  obtain ⟨corners, cleanTimes⟩ := zone
  have hquadrangle : ∀ q : RawDpWriter,
      corners.zipIdx.foldlM (fun q corner => q.sub (corner.2 + 1) (writePoint corner.1)) q =
        writeAll (quadrangleFields corners) q := by
    intro q
    rw [quadrangleFields, ← foldlM_write]
    simp only [writePoint_eq]
    rfl
  rw [writeZone]
  simp only [hquadrangle]
  cases cleanTimes with
  | none => rfl
  | some cleanTimes =>
    have hlast : ∀ r : RawDpWriter, r.int SELECT_ZONES_FIELD.ZONE_CLEAN_TIMES cleanTimes =
        writeAll [.int SELECT_ZONES_FIELD.ZONE_CLEAN_TIMES cleanTimes] r :=
      fun r => (writeAll_singleton (.int _ cleanTimes) r).symm
    simp only [hlast]
    rfl

theorem encodeModeCtrlParam_eq (modeCtrlSeq : ℤ) {verb : ModeCtrlParam} (hverb : verb.method ≠ 0)
    (fields : List Field) :
    encodeModeCtrlParam modeCtrlSeq verb.method verb.param (writeAll fields) =
      rawDp (writeAll (modeCtrlFields modeCtrlSeq verb fields)) := by
  have hlast : ∀ w : RawDpWriter, w.sub verb.param (writeAll fields) =
      writeAll [.sub verb.param fields] w :=
    fun w => (writeAll_singleton (.sub verb.param fields) w).symm
  rw [encodeModeCtrlParam]
  congr 1
  funext w
  dsimp only
  rw [if_pos hverb]
  simp only [hlast]
  rfl

/-- The request that names rooms is a tree. -/
theorem encodeSelectRoomsClean_eq (modeCtrlSeq mapId : ℤ) (rooms : List VacuumRoomTarget)
    (cleanTimes : ℤ) :
    encodeSelectRoomsClean modeCtrlSeq mapId rooms cleanTimes =
      rawDp (writeAll (modeCtrlFields modeCtrlSeq ModeCtrlParamMethod.SELECT_ROOMS
        (roomsFields mapId rooms cleanTimes))) := by
  have hrooms : ∀ p : RawDpWriter,
      rooms.foldlM (fun p room => p.sub SELECT_ROOMS_FIELD.ROOMS (writeRoom room)) p =
        writeAll (rooms.map fun room => .sub SELECT_ROOMS_FIELD.ROOMS (roomFields room)) p := by
    intro p
    rw [← foldlM_write]
    simp only [writeRoom_eq]
    rfl
  have hlast : ∀ p : RawDpWriter, p.int SELECT_ROOMS_FIELD.MAP_ID mapId =
      writeAll [.int SELECT_ROOMS_FIELD.MAP_ID mapId] p :=
    fun p => (writeAll_singleton (.int _ mapId) p).symm
  rw [← encodeModeCtrlParam_eq modeCtrlSeq (by decide), encodeSelectRoomsClean]
  congr 1
  funext p
  rw [roomsFields, writeAll_append]
  simp only [hrooms, hlast]
  rfl

/-- So is the one that names zones. -/
theorem encodeSelectZonesClean_eq (modeCtrlSeq mapId : ℤ) (zones : List VacuumZoneTarget) :
    encodeSelectZonesClean modeCtrlSeq mapId zones =
      rawDp (writeAll (modeCtrlFields modeCtrlSeq ModeCtrlParamMethod.SELECT_ZONES
        (zonesFields mapId zones))) := by
  have hzones : ∀ p : RawDpWriter,
      zones.foldlM (fun p zone => p.sub SELECT_ZONES_FIELD.ZONES (writeZone zone)) p =
        writeAll (zones.map fun zone => .sub SELECT_ZONES_FIELD.ZONES (zoneFields zone)) p := by
    intro p
    rw [← foldlM_write]
    simp only [writeZone_eq]
    rfl
  have hlast : ∀ p : RawDpWriter, p.int SELECT_ZONES_FIELD.MAP_ID mapId =
      writeAll [.int SELECT_ZONES_FIELD.MAP_ID mapId] p :=
    fun p => (writeAll_singleton (.int _ mapId) p).symm
  rw [← encodeModeCtrlParam_eq modeCtrlSeq (by decide), encodeSelectZonesClean]
  congr 1
  funext p
  rw [zonesFields, writeAll_append]
  simp only [hzones, hlast]

/-- A number the writer takes as it is. -/
def Plain (value : ℤ) : Prop := 0 ≤ value ∧ isSafeInteger value = true

/-- The rooms of a request can be written. -/
def RoomsPlain (rooms : List VacuumRoomTarget) : Prop :=
  ∀ room ∈ rooms, Plain room.id ∧ ∀ order, room.order = some order → Plain order

/-- The zones of a request can be written: coordinates have at most 52 bits beside their sign. -/
def ZonesPlain (zones : List VacuumZoneTarget) : Prop :=
  ∀ zone ∈ zones, (∀ times, zone.cleanTimes = some times → Plain times) ∧
    ∀ corner ∈ zone.corners,
      (-(2 ^ 52) < corner.x ∧ corner.x < 2 ^ 52) ∧ -(2 ^ 52) < corner.y ∧ corner.y < 2 ^ 52

variable (codec : RawDpCodec) (value : String)

open ProtoRead in
/-- The map, the rooms with their order, and the passes that a request names. -/
def readSelectRooms : ℤ × List (ℤ × ℤ) × ℤ :=
  let p := sub codec (codec.decode value) 4
  (int p 3, (each codec p 1).map fun r => (int (some r) 1, int (some r) 2), int p 2)

open ProtoRead in
/-- The map, and the zones by their corners and passes, that a request names. -/
def readSelectZones : ℤ × List (List (ℤ × ℤ) × ℤ) :=
  let p := sub codec (codec.decode value) 5
  (int p 2, (each codec p 1).map fun z =>
    let q := sub codec (some z) 1
    ((List.range (q.getD []).length).map fun i =>
      let pt := sub codec q (i + 1)
      (signed pt 1, signed pt 2), int (some z) 2))

/-! ### The trees are allowed -/

theorem allowed_int {field value : ℤ} (hfield : fieldAllowed field) (h : Plain value) :
    (Field.int field value).Allowed := ⟨hfield, h.1, h.2⟩

theorem allowed_roomFields {room : VacuumRoomTarget} (hid : Plain room.id)
    (horder : ∀ order, room.order = some order → Plain order) : AllowedAll (roomFields room) := by
  obtain ⟨id, order⟩ := room
  have hfirst := allowed_int (by exact ⟨by decide, by decide⟩ :
    fieldAllowed SELECT_ROOMS_FIELD.ROOM_ID) hid
  cases order with
  | none => exact ⟨hfirst, trivial⟩
  | some order =>
    exact ⟨hfirst, allowed_int (by exact ⟨by decide, by decide⟩) (horder order rfl), trivial⟩

theorem allowed_roomsFields {mapId cleanTimes : ℤ} {rooms : List VacuumRoomTarget}
    (hmap : Plain mapId) (hrooms : RoomsPlain rooms) (htimes : Plain cleanTimes) :
    AllowedAll (roomsFields mapId rooms cleanTimes) := by
  refine allowedAll_iff.mpr fun f hf => ?_
  rw [roomsFields, List.mem_append] at hf
  rcases hf with hf | hf
  · obtain ⟨room, hroom, rfl⟩ := List.mem_map.mp hf
    obtain ⟨hid, horder⟩ := hrooms room hroom
    exact ⟨⟨by decide, by decide⟩, allowed_roomFields hid horder⟩
  · rcases List.mem_pair.mp hf with rfl | rfl
    · exact allowed_int ⟨by decide, by decide⟩ htimes
    · exact allowed_int ⟨by decide, by decide⟩ hmap

theorem allowed_pointFields {corner : Corner} (hx : -(2 ^ 52) < corner.x ∧ corner.x < 2 ^ 52)
    (hy : -(2 ^ 52) < corner.y ∧ corner.y < 2 ^ 52) : AllowedAll (pointFields corner) :=
  ⟨⟨⟨by decide, by decide⟩, le_of_lt hx.1, hx.2⟩, ⟨⟨by decide, by decide⟩, le_of_lt hy.1, hy.2⟩,
    trivial⟩

theorem allowed_quadrangleFields {corners : List Corner} (hcount : corners.length < 2 ^ 29 - 1)
    (h : ∀ corner ∈ corners,
      (-(2 ^ 52) < corner.x ∧ corner.x < 2 ^ 52) ∧ -(2 ^ 52) < corner.y ∧ corner.y < 2 ^ 52) :
    AllowedAll (quadrangleFields corners) := by
  refine allowedAll_iff.mpr fun f hf => ?_
  obtain ⟨⟨corner, i⟩, hcorner, rfl⟩ := List.mem_map.mp hf
  have hget := List.mem_zipIdx_iff_getElem?.mp hcorner
  obtain ⟨hi, -⟩ := List.getElem?_eq_some_iff.mp hget
  obtain ⟨hx, hy⟩ := h corner (List.mem_of_getElem? hget)
  dsimp only at hi
  exact ⟨⟨by omega, by omega⟩, allowed_pointFields hx hy⟩

/-- A message has room for fewer fields than a tag has numbers. -/
theorem length_quadrangle {mapId : ℤ} {zones : List VacuumZoneTarget} {zone : VacuumZoneTarget}
    (hzone : zone ∈ zones) : zone.corners.length < (encodeAll (zonesFields mapId zones)).length := by
  have hcorners := length_le_encodeAll (quadrangleFields zone.corners)
  rw [quadrangleFields, List.length_map, List.length_zipIdx] at hcorners
  have hinner : (encodeAll (quadrangleFields zone.corners)).length <
      (encodeAll (zoneFields zone)).length := length_nested List.mem_cons_self
  have houter : (encodeAll (zoneFields zone)).length <
      (encodeAll (zonesFields mapId zones)).length :=
    length_nested (List.mem_append_left _ (List.mem_map_of_mem hzone))
  rw [quadrangleFields] at hinner
  omega

theorem allowed_zoneFields {zone : VacuumZoneTarget}
    (htimes : ∀ times, zone.cleanTimes = some times → Plain times)
    (hquadrangle : AllowedAll (quadrangleFields zone.corners)) : AllowedAll (zoneFields zone) := by
  obtain ⟨corners, cleanTimes⟩ := zone
  cases cleanTimes with
  | none => exact ⟨⟨⟨by decide, by decide⟩, hquadrangle⟩, trivial⟩
  | some times =>
    exact ⟨⟨⟨by decide, by decide⟩, hquadrangle⟩,
      allowed_int ⟨by decide, by decide⟩ (htimes times rfl), trivial⟩

theorem allowed_zonesFields {mapId : ℤ} {zones : List VacuumZoneTarget} (hmap : Plain mapId)
    (hzones : ZonesPlain zones)
    (hfits : (encodeAll (zonesFields mapId zones)).length ≤ MAX_STRING_LENGTH) :
    AllowedAll (zonesFields mapId zones) := by
  refine allowedAll_iff.mpr fun f hf => ?_
  rw [zonesFields, List.mem_append] at hf
  rcases hf with hf | hf
  · obtain ⟨zone, hzone, rfl⟩ := List.mem_map.mp hf
    obtain ⟨htimes, hcorners⟩ := hzones zone hzone
    have hcount := @length_quadrangle mapId zones zone hzone
    rw [MAX_STRING_LENGTH] at hfits
    exact ⟨⟨by decide, by decide⟩,
      allowed_zoneFields htimes (allowed_quadrangleFields (by omega) hcorners)⟩
  · obtain rfl := List.mem_singleton.mp hf
    exact allowed_int ⟨by decide, by decide⟩ hmap

theorem allowed_modeCtrlFields {modeCtrlSeq : ℤ} {verb : ModeCtrlParam} {fields : List Field}
    (hseq : Plain (nextModeCtrlSeq modeCtrlSeq)) (hmethod : Plain verb.method)
    (hparam : fieldAllowed verb.param) (h : AllowedAll fields) :
    AllowedAll (modeCtrlFields modeCtrlSeq verb fields) :=
  ⟨allowed_int ⟨by decide, by decide⟩ hmethod, allowed_int ⟨by decide, by decide⟩ hseq,
    ⟨hparam, h⟩, trivial⟩

/-! ### What is read of them -/

/-- The payload of a request is found in the field of its verb. -/
theorem sub_modeCtrlFields (hreader : reader.Lawful) {modeCtrlSeq : ℤ} {verb : ModeCtrlParam}
    {fields : List Field} (hallowed : AllowedAll (modeCtrlFields modeCtrlSeq verb fields))
    (hlength : (encodeAll (modeCtrlFields modeCtrlSeq verb fields)).length < 2 ^ 32)
    (hparam : 2 < verb.param) :
    ProtoRead.sub (rawDpCodec reader) ((rawDpCodec reader).decode
      (String.ofList (text (modeCtrlFields modeCtrlSeq verb fields)))) verb.param.toNat =
        some (fields.map Field.read) := by
  have hinner : (encodeAll fields).length < 2 ^ 32 := by
    have hmem : .sub verb.param fields ∈ modeCtrlFields modeCtrlSeq verb fields := by
      simp [modeCtrlFields]
    exact (length_nested hmem).trans hlength
  have hfind : ProtoRead.find (some ((modeCtrlFields modeCtrlSeq verb fields).map Field.read))
      verb.param.toNat = some (.bytes verb.param.toNat (encodeAll fields)) := by
    have hskip : ∀ f ∈ [(Field.int MODE_CTRL_FIELD.METHOD verb.method).read,
        (Field.int MODE_CTRL_FIELD.SEQ (nextModeCtrlSeq modeCtrlSeq)).read],
        f.field ≠ verb.param.toNat := by
      intro f hf
      rcases List.mem_pair.mp hf with rfl | rfl
      · change (1 : ℕ) ≠ verb.param.toNat
        omega
      · change (2 : ℕ) ≠ verb.param.toNat
        omega
    exact (find_append (b := [(Field.sub verb.param fields).read]) hskip).trans (find_head rfl [])
  rw [decode_text hreader hallowed hlength]
  exact sub_of_find hreader hfind hallowed.2.2.1.2 hinner

theorem read_roomFields {room : VacuumRoomTarget} (hid : Plain room.id)
    (horder : ∀ order, room.order = some order → Plain order) :
    (ProtoRead.int (some ((roomFields room).map Field.read)) 1,
      ProtoRead.int (some ((roomFields room).map Field.read)) 2) =
        (room.id, room.order.getD 0) := by
  obtain ⟨id, order⟩ := room
  cases order with
  | none =>
    have hfirst : ProtoRead.int (some ((roomFields { id }).map Field.read)) 1 = id :=
      int_of_find (n := 1) rfl hid.1 hid.2
    exact Prod.ext hfirst rfl
  | some order =>
    obtain ⟨h0, hsafe⟩ := horder order rfl
    have hfirst : ProtoRead.int
        (some ((roomFields { id, order := some order }).map Field.read)) 1 = id :=
      int_of_find (n := 1) rfl hid.1 hid.2
    have hsecond : ProtoRead.int
        (some ((roomFields { id, order := some order }).map Field.read)) 2 = order :=
      int_of_find (n := 2) rfl h0 hsafe
    exact Prod.ext hfirst hsecond

/-- A room's fields take fewer bytes than the request. -/
theorem length_repeated {α : Type} {l : List α} {number : ℤ} {inner : α → List Field}
    {more : List Field} {a : α} (ha : a ∈ l) :
    (encodeAll (inner a)).length <
      (encodeAll ((l.map fun a => .sub number (inner a)) ++ more)).length :=
  length_nested (List.mem_append_left _ (List.mem_map_of_mem ha))

/-- The payload of a request: repeats of one message, and what comes behind them. -/
theorem read_repeated {α : Type} (l : List α) (number : ℕ) (inner : α → List Field)
    (more : List Field) :
    ((l.map fun a => Field.sub number (inner a)) ++ more).map Field.read =
      (l.map fun a => (Field.sub number (inner a)).read) ++ more.map Field.read := by
  rw [List.map_append, List.map_map]
  rfl

/-- The numbers behind the repeats are found. -/
theorem find_behind {α : Type} {l : List α} {number : ℕ} {inner : α → List Field}
    {more : List RawDpField} {field : ℕ} (h : number ≠ field) :
    ProtoRead.find (some ((l.map fun a => (Field.sub number (inner a)).read) ++ more)) field =
      ProtoRead.find (some more) field := by
  refine find_append fun f hf => ?_
  obtain ⟨a, -, rfl⟩ := List.mem_map.mp hf
  exact h

theorem readSelectRooms_text (hreader : reader.Lawful) {modeCtrlSeq mapId cleanTimes : ℤ}
    {rooms : List VacuumRoomTarget} (hseq : Plain (nextModeCtrlSeq modeCtrlSeq))
    (hmap : Plain mapId) (hrooms : RoomsPlain rooms) (htimes : Plain cleanTimes)
    (hfits : (encodeAll (modeCtrlFields modeCtrlSeq ModeCtrlParamMethod.SELECT_ROOMS
      (roomsFields mapId rooms cleanTimes))).length ≤ MAX_STRING_LENGTH) :
    readSelectRooms (rawDpCodec reader) (String.ofList (text (modeCtrlFields modeCtrlSeq
      ModeCtrlParamMethod.SELECT_ROOMS (roomsFields mapId rooms cleanTimes)))) =
        (mapId, rooms.map fun room => (room.id, room.order.getD 0), cleanTimes) := by
  have hmethod : Plain ModeCtrlParamMethod.SELECT_ROOMS.method := ⟨by decide, by decide⟩
  have hparam : fieldAllowed ModeCtrlParamMethod.SELECT_ROOMS.param := ⟨by decide, by decide⟩
  have hallowed := allowed_modeCtrlFields hseq hmethod hparam
    (allowed_roomsFields hmap hrooms htimes)
  have hinner : (encodeAll (roomsFields mapId rooms cleanTimes)).length < 2 ^ 32 := by
    have hmem : .sub ModeCtrlParamMethod.SELECT_ROOMS.param (roomsFields mapId rooms cleanTimes) ∈
        modeCtrlFields modeCtrlSeq ModeCtrlParamMethod.SELECT_ROOMS
          (roomsFields mapId rooms cleanTimes) := by simp [modeCtrlFields]
    have hlt := length_nested hmem
    rw [MAX_STRING_LENGTH] at hfits
    omega
  rw [MAX_STRING_LENGTH] at hfits
  have hpayload := sub_modeCtrlFields hreader hallowed (by omega) (by decide)
  have hread := read_repeated rooms 1 roomFields
    [.int SELECT_ROOMS_FIELD.CLEAN_TIMES cleanTimes, .int SELECT_ROOMS_FIELD.MAP_ID mapId]
  have hmapId : ProtoRead.int (some ((roomsFields mapId rooms cleanTimes).map Field.read)) 3 =
      mapId := by
    refine int_of_find (n := 3) ?_ hmap.1 hmap.2
    exact (congrArg (fun fields => ProtoRead.find (some fields) 3) hread).trans
      (find_behind (by decide))
  have hcleanTimes : ProtoRead.int (some ((roomsFields mapId rooms cleanTimes).map Field.read)) 2 =
      cleanTimes := by
    refine int_of_find (n := 2) ?_ htimes.1 htimes.2
    exact (congrArg (fun fields => ProtoRead.find (some fields) 2) hread).trans
      (find_behind (by decide))
  have heach : ProtoRead.each (rawDpCodec reader)
      (some ((roomsFields mapId rooms cleanTimes).map Field.read)) 1 =
        rooms.map fun room => (roomFields room).map Field.read := by
    refine (congrArg (fun fields => ProtoRead.each (rawDpCodec reader) (some fields) 1)
      hread).trans (each_subs hreader (fun room hroom => ?_) ?_)
    · obtain ⟨hid, horder⟩ := hrooms room hroom
      exact ⟨allowed_roomFields hid horder, (length_repeated hroom).trans hinner⟩
    · intro f hf
      rcases List.mem_pair.mp hf with rfl | rfl
      · exact (by decide : (2 : ℕ) ≠ 1)
      · exact (by decide : (3 : ℕ) ≠ 1)
  have hlist : (rooms.map fun room => (roomFields room).map Field.read).map (fun r =>
      (ProtoRead.int (some r) 1, ProtoRead.int (some r) 2)) =
        rooms.map fun room => (room.id, room.order.getD 0) := by
    rw [List.map_map]
    refine List.map_congr_left fun room hroom => ?_
    obtain ⟨hid, horder⟩ := hrooms room hroom
    exact read_roomFields hid horder
  have hpayload' : ProtoRead.sub (rawDpCodec reader) ((rawDpCodec reader).decode
      (String.ofList (text (modeCtrlFields modeCtrlSeq ModeCtrlParamMethod.SELECT_ROOMS
        (roomsFields mapId rooms cleanTimes))))) 4 =
          some ((roomsFields mapId rooms cleanTimes).map Field.read) := hpayload
  rw [readSelectRooms, hpayload', hmapId, hcleanTimes, heach, hlist]

/-- The corners of a zone are found one after the other. -/
theorem find_corner {corners : List Corner} {k i : ℕ} {corner : Corner}
    (hi : corners[i]? = some corner) :
    ProtoRead.find (some ((corners.zipIdx k).map fun c =>
      (Field.sub (c.2 + 1) (pointFields c.1)).read)) (k + i + 1) =
        some (.bytes (k + i + 1) (encodeAll (pointFields corner))) := by
  induction corners generalizing k i with
  | nil => cases hi
  | cons c corners ih =>
    rw [List.zipIdx_cons, List.map_cons]
    cases i with
    | zero =>
      obtain rfl := Option.some.inj hi
      exact find_head rfl _
    | succ i =>
      have hskip : ∀ f ∈ [(Field.sub ((k : ℤ) + 1) (pointFields c)).read],
          f.field ≠ k + (i + 1) + 1 := by
        intro f hf
        obtain rfl := List.mem_singleton.mp hf
        change k + 1 ≠ k + (i + 1) + 1
        omega
      have hrest := @ih (k + 1) i hi
      have hsame : k + 1 + i + 1 = k + (i + 1) + 1 := by omega
      rw [hsame] at hrest
      exact (find_append hskip).trans hrest

theorem read_point (hreader : reader.Lawful) {corners : List Corner} {i : ℕ} {corner : Corner}
    (hi : corners[i]? = some corner)
    (hx : -(2 ^ 52) < corner.x ∧ corner.x < 2 ^ 52) (hy : -(2 ^ 52) < corner.y ∧ corner.y < 2 ^ 52)
    (hlength : (encodeAll (pointFields corner)).length < 2 ^ 32) :
    let pt := ProtoRead.sub (rawDpCodec reader)
      (some ((quadrangleFields corners).map Field.read)) (i + 1)
    (ProtoRead.signed pt 1, ProtoRead.signed pt 2) = (corner.x, corner.y) := by
  have hfind : ProtoRead.find (some ((quadrangleFields corners).map Field.read)) (i + 1) =
      some (.bytes (i + 1) (encodeAll (pointFields corner))) := by
    have hfirst := @find_corner corners 0 i corner hi
    rw [Nat.zero_add] at hfirst
    rw [quadrangleFields, List.map_map]
    exact hfirst
  have hpoint := sub_of_find hreader hfind (allowed_pointFields hx hy) hlength
  have hxs : ProtoRead.signed (some ((pointFields corner).map Field.read)) 1 = corner.x :=
    signed_of_find (n := 1) rfl (le_of_lt hx.1) hx.2
  have hys : ProtoRead.signed (some ((pointFields corner).map Field.read)) 2 = corner.y :=
    signed_of_find (n := 2) rfl (le_of_lt hy.1) hy.2
  dsimp only
  rw [hpoint, hxs, hys]

theorem read_zoneFields (hreader : reader.Lawful) {zone : VacuumZoneTarget}
    (htimes : ∀ times, zone.cleanTimes = some times → Plain times)
    (hcorners : ∀ corner ∈ zone.corners,
      (-(2 ^ 52) < corner.x ∧ corner.x < 2 ^ 52) ∧ -(2 ^ 52) < corner.y ∧ corner.y < 2 ^ 52)
    (hallowed : AllowedAll (quadrangleFields zone.corners))
    (hlength : (encodeAll (zoneFields zone)).length < 2 ^ 32) :
    let q := ProtoRead.sub (rawDpCodec reader) (some ((zoneFields zone).map Field.read)) 1
    ((List.range (q.getD []).length).map fun i =>
      let pt := ProtoRead.sub (rawDpCodec reader) q (i + 1)
      (ProtoRead.signed pt 1, ProtoRead.signed pt 2),
      ProtoRead.int (some ((zoneFields zone).map Field.read)) 2) =
        (zone.corners.map fun corner => (corner.x, corner.y), zone.cleanTimes.getD 0) := by
  have hinner : (encodeAll (quadrangleFields zone.corners)).length < 2 ^ 32 :=
    lt_trans (length_nested List.mem_cons_self) hlength
  have hq : ProtoRead.sub (rawDpCodec reader) (some ((zoneFields zone).map Field.read)) 1 =
      some ((quadrangleFields zone.corners).map Field.read) := by
    refine sub_of_find hreader (n := 1) ?_ hallowed hinner
    rw [zoneFields, List.map_cons]
    exact find_head rfl _
  have hpasses : ProtoRead.int (some ((zoneFields zone).map Field.read)) 2 =
      zone.cleanTimes.getD 0 := by
    obtain ⟨corners, cleanTimes⟩ := zone
    cases cleanTimes with
    | none => rfl
    | some times =>
      obtain ⟨h0, hsafe⟩ := htimes times rfl
      exact int_of_find (n := 2) rfl h0 hsafe
  have hpoints : (List.range ((quadrangleFields zone.corners).map Field.read).length).map (fun i =>
      let pt := ProtoRead.sub (rawDpCodec reader)
        (some ((quadrangleFields zone.corners).map Field.read)) (i + 1)
      (ProtoRead.signed pt 1, ProtoRead.signed pt 2)) =
        zone.corners.map fun corner => (corner.x, corner.y) := by
    have hcount : ((quadrangleFields zone.corners).map Field.read).length = zone.corners.length := by
      rw [quadrangleFields, List.length_map, List.length_map, List.length_zipIdx]
    rw [hcount]
    refine List.ext_getElem (by simp) fun i hi hi' => ?_
    rw [List.length_map] at hi'
    have hget : zone.corners[i]? = some zone.corners[i] := List.getElem?_eq_getElem hi'
    obtain ⟨hx, hy⟩ := hcorners _ (List.getElem_mem hi')
    have hmem : .sub ((i : ℤ) + 1) (pointFields zone.corners[i]) ∈
        quadrangleFields zone.corners := by
      refine List.mem_map.mpr ⟨(zone.corners[i], i), ?_, rfl⟩
      exact List.mem_zipIdx_iff_getElem?.mpr hget
    rw [List.getElem_map, List.getElem_map, List.getElem_range]
    exact read_point hreader hget hx hy ((length_nested hmem).trans hinner)
  dsimp only
  rw [hq, Option.getD_some, hpasses]
  exact Prod.ext hpoints rfl

theorem readSelectZones_text (hreader : reader.Lawful) {modeCtrlSeq mapId : ℤ}
    {zones : List VacuumZoneTarget} (hseq : Plain (nextModeCtrlSeq modeCtrlSeq))
    (hmap : Plain mapId) (hzones : ZonesPlain zones)
    (hallowed : AllowedAll (zonesFields mapId zones))
    (hfits : (encodeAll (modeCtrlFields modeCtrlSeq ModeCtrlParamMethod.SELECT_ZONES
      (zonesFields mapId zones))).length ≤ MAX_STRING_LENGTH) :
    readSelectZones (rawDpCodec reader) (String.ofList (text (modeCtrlFields modeCtrlSeq
      ModeCtrlParamMethod.SELECT_ZONES (zonesFields mapId zones)))) =
        (mapId, zones.map fun zone =>
          (zone.corners.map fun corner => (corner.x, corner.y), zone.cleanTimes.getD 0)) := by
  have hmethod : Plain ModeCtrlParamMethod.SELECT_ZONES.method := ⟨by decide, by decide⟩
  have hparam : fieldAllowed ModeCtrlParamMethod.SELECT_ZONES.param := ⟨by decide, by decide⟩
  have hframe := allowed_modeCtrlFields hseq hmethod hparam hallowed
  have hinner : (encodeAll (zonesFields mapId zones)).length < 2 ^ 32 := by
    have hmem : .sub ModeCtrlParamMethod.SELECT_ZONES.param (zonesFields mapId zones) ∈
        modeCtrlFields modeCtrlSeq ModeCtrlParamMethod.SELECT_ZONES (zonesFields mapId zones) := by
      simp [modeCtrlFields]
    have hlt := length_nested hmem
    rw [MAX_STRING_LENGTH] at hfits
    omega
  rw [MAX_STRING_LENGTH] at hfits
  have hpayload : ProtoRead.sub (rawDpCodec reader) ((rawDpCodec reader).decode
      (String.ofList (text (modeCtrlFields modeCtrlSeq ModeCtrlParamMethod.SELECT_ZONES
        (zonesFields mapId zones))))) 5 = some ((zonesFields mapId zones).map Field.read) :=
    sub_modeCtrlFields hreader hframe (by omega) (by decide)
  have hread := read_repeated zones 1 zoneFields [.int SELECT_ZONES_FIELD.MAP_ID mapId]
  have hmapId : ProtoRead.int (some ((zonesFields mapId zones).map Field.read)) 2 = mapId := by
    refine int_of_find (n := 2) ?_ hmap.1 hmap.2
    exact (congrArg (fun fields => ProtoRead.find (some fields) 2) hread).trans
      (find_behind (by decide))
  have hzone : ∀ zone ∈ zones, AllowedAll (quadrangleFields zone.corners) ∧
      (encodeAll (zoneFields zone)).length < 2 ^ 32 := by
    intro zone hzone
    have hmem : .sub SELECT_ZONES_FIELD.ZONES (zoneFields zone) ∈ zonesFields mapId zones :=
      List.mem_append_left _ (List.mem_map_of_mem hzone)
    exact ⟨(allowedAll_iff.mp hallowed _ hmem).2.1.2, (length_repeated hzone).trans hinner⟩
  have heach : ProtoRead.each (rawDpCodec reader)
      (some ((zonesFields mapId zones).map Field.read)) 1 =
        zones.map fun zone => (zoneFields zone).map Field.read := by
    refine (congrArg (fun fields => ProtoRead.each (rawDpCodec reader) (some fields) 1)
      hread).trans (each_subs hreader (fun zone hz => ?_) ?_)
    · exact ⟨allowed_zoneFields (hzones zone hz).1 (hzone zone hz).1, (hzone zone hz).2⟩
    · intro f hf
      obtain rfl := List.mem_singleton.mp hf
      exact (by decide : (2 : ℕ) ≠ 1)
  rw [readSelectZones, hpayload, hmapId, heach, List.map_map]
  refine Prod.ext rfl (List.map_congr_left fun zone hz => ?_)
  exact read_zoneFields hreader (hzones zone hz).1 (hzones zone hz).2 (hzone zone hz).1
    (hzone zone hz).2

end VacuumClean

open VacuumClean in
/-- Messages go out and come back: every tree of fields with its numbers, kinds, order and values,
and the arguments of the requests that clean rooms and zones. -/
theorem raw_dp_round_trip {reader : WireReader} (hreader : reader.Lawful) :
    (∀ fields, AllowedAll fields →
      Sent (rawDp (writeAll fields)) fields fun value =>
        ∃ read, (rawDpCodec reader).decode value = some read ∧
          ReadsAll (rawDpCodec reader) fields read) ∧
    (∀ modeCtrlSeq mapId rooms cleanTimes, Plain (nextModeCtrlSeq modeCtrlSeq) → Plain mapId →
      RoomsPlain rooms → Plain cleanTimes →
      Sent (encodeSelectRoomsClean modeCtrlSeq mapId rooms cleanTimes)
        (modeCtrlFields modeCtrlSeq ModeCtrlParamMethod.SELECT_ROOMS
          (roomsFields mapId rooms cleanTimes)) fun value =>
        readSelectRooms (rawDpCodec reader) value =
          (mapId, rooms.map fun room => (room.id, room.order.getD 0), cleanTimes)) ∧
    ∀ modeCtrlSeq mapId zones, Plain (nextModeCtrlSeq modeCtrlSeq) → Plain mapId →
      ZonesPlain zones →
      Sent (encodeSelectZonesClean modeCtrlSeq mapId zones)
        (modeCtrlFields modeCtrlSeq ModeCtrlParamMethod.SELECT_ZONES (zonesFields mapId zones))
        fun value =>
          readSelectZones (rawDpCodec reader) value =
            (mapId, zones.map fun zone =>
              (zone.corners.map fun corner => (corner.x, corner.y), zone.cleanTimes.getD 0)) := by
  refine ⟨fun fields hfields => ?_, fun modeCtrlSeq mapId rooms cleanTimes hseq hmap hrooms htimes =>
    ?_, fun modeCtrlSeq mapId zones hseq hmap hzones => ?_⟩
  · refine sent_rawDp (fun _ => hfields) fun hfits => ?_
    rw [MAX_STRING_LENGTH] at hfits
    exact ⟨_, decode_text hreader hfields (by omega), readsAll_read hreader fields hfields (by omega)⟩
  · rw [encodeSelectRoomsClean_eq]
    refine sent_rawDp (fun _ => ?_) fun hfits => ?_
    · exact allowed_modeCtrlFields hseq ⟨by decide, by decide⟩ ⟨by decide, by decide⟩
        (allowed_roomsFields hmap hrooms htimes)
    · exact readSelectRooms_text hreader hseq hmap hrooms htimes hfits
  · rw [encodeSelectZonesClean_eq]
    have hzonesFit : (encodeAll (modeCtrlFields modeCtrlSeq ModeCtrlParamMethod.SELECT_ZONES
        (zonesFields mapId zones))).length ≤ MAX_STRING_LENGTH →
          AllowedAll (zonesFields mapId zones) := by
      intro hfits
      have hmem : .sub ModeCtrlParamMethod.SELECT_ZONES.param (zonesFields mapId zones) ∈
          modeCtrlFields modeCtrlSeq ModeCtrlParamMethod.SELECT_ZONES (zonesFields mapId zones) := by
        simp [modeCtrlFields]
      exact allowed_zonesFields hmap hzones (le_trans (le_of_lt (length_nested hmem)) hfits)
    refine sent_rawDp (fun hfits => ?_) fun hfits => ?_
    · exact allowed_modeCtrlFields hseq ⟨by decide, by decide⟩ ⟨by decide, by decide⟩
        (hzonesFit hfits)
    · exact readSelectZones_text hreader hseq hmap hzones (hzonesFit hfits) hfits

/-- A reader of the wire format. -/
def wireFormat : WireReader where
  uint32 b := (Varint.decode b).map fun r => (r.1 % 2 ^ 32, r.2)
  uint64 b := (Varint.decode b).map fun r => (r.1 % 2 ^ 64, r.2)
  fixed64 b := if b.length < 8 then none else some (readUIntLE (b.take 8), b.drop 8)
  fixed32 b := if b.length < 4 then none else some (readUIntLE (b.take 4), b.drop 4)
  bytes b :=
    (Varint.decode b).bind fun r =>
      if r.2.length < r.1 then none else some (r.2.take r.1, r.2.drop r.1)

theorem lawful_wireFormat : wireFormat.Lawful where
  uint32 n rest hn := by
    dsimp only [wireFormat]
    rw [Varint.decode_encode, Option.map_some, Nat.mod_eq_of_lt hn]
  uint64 n rest hn := by
    dsimp only [wireFormat]
    rw [Varint.decode_encode, Option.map_some, Nat.mod_eq_of_lt hn]
  bytes b rest hb := by
    dsimp only [wireFormat]
    rw [Varint.decode_encode, Option.bind_some, if_neg]
    · rw [List.take_left, List.drop_left]
    · rw [List.length_append]
      omega

/-- A tree with every kind of field. -/
def everyKind : List Field :=
  [.int 1 6, .sint 2 (-150), .bool 3 true, .bytes 4 [104, 105], .sub 5 [.int 1 0, .sub 300 []]]

open VacuumClean in
/-- A tree with every kind of field, two rooms of a map, and a zone of another. -/
theorem raw_dp_round_trip_wireFormat :
    (Sent (rawDp (writeAll everyKind)) everyKind fun value =>
      ∃ read, (rawDpCodec wireFormat).decode value = some read ∧
        ReadsAll (rawDpCodec wireFormat) everyKind read) ∧
    (Sent (encodeSelectRoomsClean 111 3 [{ id := 7 }, { id := 2, order := some 1 }] 1)
        (modeCtrlFields 111 ModeCtrlParamMethod.SELECT_ROOMS
          (roomsFields 3 [{ id := 7 }, { id := 2, order := some 1 }] 1)) fun value =>
      readSelectRooms (rawDpCodec wireFormat) value = (3, [(7, 0), (2, 1)], 1)) ∧
    Sent (encodeSelectZonesClean 112 1 [{ corners := [⟨-150, 20⟩, ⟨0, -1⟩] }])
        (modeCtrlFields 112 ModeCtrlParamMethod.SELECT_ZONES
          (zonesFields 1 [{ corners := [⟨-150, 20⟩, ⟨0, -1⟩] }])) fun value =>
      readSelectZones (rawDpCodec wireFormat) value = (1, [([(-150, 20), (0, -1)], 0)]) := by
  obtain ⟨htrees, hrooms, hzones⟩ := raw_dp_round_trip lawful_wireFormat
  have hallowed : AllowedAll everyKind := by
    simp [everyKind, AllowedAll, Field.Allowed, fieldAllowed, isSafeInteger]
  have hplain : ∀ value ∈ ([0, 1, 2, 3, 7, 112, 113] : List ℤ), Plain value := by
    simp [Plain, isSafeInteger]
  refine ⟨htrees _ hallowed, hrooms 111 3 _ 1 (hplain _ (by decide)) (hplain _ (by decide)) ?_
    (hplain _ (by decide)), hzones 112 1 _ (hplain _ (by decide)) (hplain _ (by decide)) ?_⟩
  · simp [RoomsPlain, Plain, isSafeInteger]
  · simp [ZonesPlain]

end EufySdk
