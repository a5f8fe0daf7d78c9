import Mathlib.Tactic
import EufySdk.Model.RawDpMessages

/-!
# Messages of a device

A device leaves a field out that is zero, and so does not tell a zero from nothing. The readers
answer nothing with the zero, so every field that comes once reads as the device holds it, written
or not; a nested message is always written, and repeats of one come in order.

- `DeviceMessage` — the fields that come once and the repeats, with numbers that keep them apart
- `Sendable` — what the wire carries, and `Sendable.sub`, `Sendable.repeated` for what is nested
- `int_of_once`, `sub_of_once`, `each_of_repeats` — the readers, on a message of a device
-/

namespace EufySdk

open Bytes

/-- The fields that are not put on the wire. -/
def Field.omitted : Field → Bool
  | .int _ value => value = 0
  | .sint _ value => value = 0
  | .bool _ value => !value
  | .bytes _ value => value = []
  | .sub _ _ => false

instance (field : ℤ) : Decidable (fieldAllowed field) :=
  inferInstanceAs (Decidable (1 ≤ field ∧ field < 2 ^ 29))

mutual

def Field.decidableAllowed : (f : Field) → Decidable f.Allowed
  | .int field value =>
    inferInstanceAs (Decidable (fieldAllowed field ∧ 0 ≤ value ∧ isSafeInteger value = true))
  | .sint field value =>
    inferInstanceAs (Decidable (fieldAllowed field ∧ -(2 ^ 52) ≤ value ∧ value < 2 ^ 52))
  | .bool field _ => inferInstanceAs (Decidable (fieldAllowed field))
  | .bytes field _ => inferInstanceAs (Decidable (fieldAllowed field))
  | .sub field fields =>
    have := decidableAllowedAll fields
    inferInstanceAs (Decidable (fieldAllowed field ∧ AllowedAll fields))

def decidableAllowedAll : (fields : List Field) → Decidable (AllowedAll fields)
  | [] => isTrue trivial
  | f :: fs =>
    have := f.decidableAllowed
    have := decidableAllowedAll fs
    inferInstanceAs (Decidable (f.Allowed ∧ AllowedAll fs))

end

instance (fields : List Field) : Decidable (AllowedAll fields) := decidableAllowedAll fields

structure DeviceMessage where
  once : List Field := []
  repeats : List (ℤ × List Field) := []
  distinct : (once.map Field.number).Nodup := by exact of_decide_eq_true rfl
  apart : ∀ r ∈ repeats, r.1 ∉ once.map Field.number := by exact List.forall_mem_nil _

/-- The fields of a response that tell which request it answers. -/
theorem distinct_answer (method seq result : ℤ) :
    ([Field.int 1 method, .int 2 seq, .int 3 result].map Field.number).Nodup :=
  of_decide_eq_true rfl

namespace DeviceMessage

variable (m : DeviceMessage)

/-- What the device writes. -/
def fields : List Field :=
  m.once.filter (fun f => !f.omitted) ++ m.repeats.map fun r => .sub r.1 r.2

/-- What the codec reads. -/
def read : List RawDpField := m.fields.map Field.read

structure Sendable : Prop where
  allowed : AllowedAll m.fields
  small : (encodeAll m.fields).length < 2 ^ 32

instance : Decidable m.Sendable :=
  decidable_of_iff (AllowedAll m.fields ∧ (encodeAll m.fields).length < 2 ^ 32)
    ⟨fun h => ⟨h.1, h.2⟩, fun h => ⟨h.1, h.2⟩⟩

variable {m} {reader : WireReader} {field : ℕ}

theorem mem_fields_of_once {f : Field} (hf : f ∈ m.once) (hwritten : f.omitted = false) :
    f ∈ m.fields :=
  List.mem_append_left _ (List.mem_filter.mpr ⟨hf, by rw [hwritten]; rfl⟩)

theorem mem_fields_of_repeats {number : ℤ} {inner : List Field}
    (h : (number, inner) ∈ m.repeats) : .sub number inner ∈ m.fields :=
  List.mem_append_right _ (List.mem_map.mpr ⟨_, h, rfl⟩)

theorem Sendable.nested (h : m.Sendable) {inner : List Field} {number : ℤ}
    (hmem : .sub number inner ∈ m.fields) :
    AllowedAll inner ∧ (encodeAll inner).length < 2 ^ 32 :=
  ⟨(allowedAll_iff.mp h.allowed _ hmem).2, (length_nested hmem).trans h.small⟩

theorem Sendable.sub (h : m.Sendable) {m' : DeviceMessage} {number : ℤ}
    (hmem : .sub number m'.fields ∈ m.once) : m'.Sendable :=
  let hinner := h.nested (mem_fields_of_once hmem rfl)
  ⟨hinner.1, hinner.2⟩

theorem Sendable.repeated (h : m.Sendable) {m' : DeviceMessage} {number : ℤ}
    (hmem : (number, m'.fields) ∈ m.repeats) : m'.Sendable :=
  let hinner := h.nested (mem_fields_of_repeats hmem)
  ⟨hinner.1, hinner.2⟩

/-- A message is read off the text it goes out as. -/
theorem decode_fields (hreader : reader.Lawful) (h : m.Sendable) :
    (rawDpCodec reader).decode (String.ofList (text m.fields)) = some m.read :=
  decode_text hreader h.allowed h.small

/-! ### What is found -/

theorem field_read (f : Field) : f.read.field = f.number.toNat := by
  cases f <;> rfl

theorem field_read_eq_iff {f : Field} (hf : fieldAllowed f.number) :
    f.read.field = field ↔ f.number = field := by
  have hpos := hf.1
  rw [field_read]
  omega

/-- Numbers that come once are found in one place. -/
theorem eq_of_number (m : DeviceMessage) {f g : Field} (hf : f ∈ m.once) (hg : g ∈ m.once)
    (hnumber : g.number = f.number) : g = f :=
  List.inj_on_of_nodup_map m.distinct hg hf hnumber

theorem find_of_once (h : m.Sendable) {f : Field} (hf : f ∈ m.once) (hnumber : f.number = field) :
    ProtoRead.find (some m.read) field = if f.omitted then none else some f.read := by
  have hmatch (g : Field) (hg : g ∈ m.fields) : g.read.field = field ↔ g = f := by
    rw [field_read_eq_iff (allowedAll_iff.mp h.allowed g hg).field]
    rcases List.mem_append.mp hg with honce | hrepeat
    · refine ⟨fun heq => ?_, fun heq => heq ▸ hnumber⟩
      exact m.eq_of_number hf (List.mem_of_mem_filter honce) (heq.trans hnumber.symm)
    · obtain ⟨r, hr, rfl⟩ := List.mem_map.mp hrepeat
      have hne : r.1 ≠ field := by
        rintro heq
        exact m.apart r hr (heq.trans hnumber.symm ▸ List.mem_map_of_mem hf)
      refine ⟨fun heq => absurd heq hne, ?_⟩
      rintro rfl
      exact hnumber
  rw [ProtoRead.find, Option.bind_some, read, List.find?_map]
  split_ifs with homitted
  · rw [List.find?_eq_none.mpr fun g hg => ?_, Option.map_none]
    intro hread
    obtain rfl := (hmatch g hg).mp (of_decide_eq_true hread)
    rcases List.mem_append.mp hg with honce | hrepeat
    · have hwritten := (List.mem_filter.mp honce).2
      rw [homitted] at hwritten
      cases hwritten
    · obtain ⟨r, -, rfl⟩ := List.mem_map.mp hrepeat
      cases homitted
  · have hmem := mem_fields_of_once hf (Bool.eq_false_iff.mpr homitted)
    have hsome : (m.fields.find? ((fun f => decide (f.field = field)) ∘ Field.read)).isSome := by
      rw [List.find?_isSome]
      exact ⟨f, hmem, decide_eq_true ((hmatch f hmem).mpr rfl)⟩
    obtain ⟨g, hg⟩ := Option.isSome_iff_exists.mp hsome
    have hread := List.find?_some hg
    rw [hg, (hmatch g (List.mem_of_find?_eq_some hg)).mp (of_decide_eq_true hread)]
    rfl

theorem find_of_absent (h : m.Sendable) (honce : (field : ℤ) ∉ m.once.map Field.number)
    (hrepeats : (field : ℤ) ∉ m.repeats.map Prod.fst) :
    ProtoRead.find (some m.read) field = none := by
  rw [ProtoRead.find, Option.bind_some, List.find?_eq_none]
  intro read hread
  obtain ⟨f, hf, rfl⟩ := List.mem_map.mp hread
  rw [decide_eq_true_eq, field_read_eq_iff (allowedAll_iff.mp h.allowed f hf).field]
  rintro hnumber
  rcases List.mem_append.mp hf with hf | hf
  · exact honce (hnumber ▸ List.mem_map_of_mem (List.mem_of_mem_filter hf))
  · obtain ⟨r, hr, rfl⟩ := List.mem_map.mp hf
    exact hrepeats (List.mem_map.mpr ⟨r, hr, hnumber⟩)

/-! ### What is read -/

theorem int_of_once (h : m.Sendable) {value : ℤ} (hf : .int field value ∈ m.once) :
    ProtoRead.int (some m.read) field = value := by
  have hfind := find_of_once h hf rfl
  split_ifs at hfind with homitted
  · rw [ProtoRead.int, hfind]
    exact (of_decide_eq_true homitted).symm
  · obtain ⟨-, h0, hsafe⟩ :=
      allowedAll_iff.mp h.allowed _ (mem_fields_of_once hf (Bool.eq_false_iff.mpr homitted))
    exact int_of_find hfind h0 hsafe

theorem signed_of_once (h : m.Sendable) {value : ℤ} (hf : .sint field value ∈ m.once) :
    ProtoRead.signed (some m.read) field = value := by
  have hfind := find_of_once h hf rfl
  split_ifs at hfind with homitted
  · obtain rfl : value = 0 := of_decide_eq_true homitted
    rw [ProtoRead.signed, ProtoRead.int, hfind]
    rfl
  · obtain ⟨-, hlow, hhigh⟩ :=
      allowedAll_iff.mp h.allowed _ (mem_fields_of_once hf (Bool.eq_false_iff.mpr homitted))
    exact signed_of_find hfind hlow hhigh

theorem flag_of_once (h : m.Sendable) {value : Bool} (hf : .bool field value ∈ m.once) :
    ProtoRead.flag (some m.read) field = value := by
  have hfind := find_of_once h hf rfl
  rw [ProtoRead.flag, hfind]
  cases value <;> rfl

theorem bytes_of_once (h : m.Sendable) {value : Buffer} (hf : .bytes field value ∈ m.once) :
    ProtoRead.bytes (some m.read) field = if value = [] then none else some value := by
  have hfind := find_of_once h hf rfl
  rw [ProtoRead.bytes, hfind]
  by_cases hempty : value = []
  · rw [if_pos (by exact decide_eq_true hempty), if_pos hempty]
  · rw [if_neg (by exact fun h => hempty (of_decide_eq_true h)), if_neg hempty]
    exact if_neg hempty

theorem sub_of_once (hreader : reader.Lawful) (h : m.Sendable) {m' : DeviceMessage}
    (hf : .sub field m'.fields ∈ m.once) :
    ProtoRead.sub (rawDpCodec reader) (some m.read) field = some m'.read := by
  have hfind := find_of_once h hf rfl
  exact sub_of_find hreader hfind (h.sub hf).allowed (h.sub hf).small

theorem int_of_absent (h : m.Sendable) (honce : (field : ℤ) ∉ m.once.map Field.number)
    (hrepeats : (field : ℤ) ∉ m.repeats.map Prod.fst) :
    ProtoRead.int (some m.read) field = 0 := by
  rw [ProtoRead.int, find_of_absent h honce hrepeats]

theorem sub_of_absent (h : m.Sendable) (honce : (field : ℤ) ∉ m.once.map Field.number)
    (hrepeats : (field : ℤ) ∉ m.repeats.map Prod.fst) :
    ProtoRead.sub (rawDpCodec reader) (some m.read) field = none := by
  rw [ProtoRead.sub, find_of_absent h honce hrepeats]

/-- The messages under one number, in order. -/
def under (repeats : List (ℤ × List Field)) (field : ℤ) : List (List Field) :=
  (repeats.filter fun r => r.1 = field).map Prod.snd

@[simp]
theorem under_append (a b : List (ℤ × List Field)) (field : ℤ) :
    under (a ++ b) field = under a field ++ under b field := by
  rw [under, List.filter_append, List.map_append, under, under]

@[simp]
theorem under_map_self {α : Type} (l : List α) (inner : α → List Field) (field : ℤ) :
    under (l.map fun a => (field, inner a)) field = l.map inner := by
  rw [under, List.filter_eq_self.mpr, List.map_map]
  · rfl
  · intro r hr
    obtain ⟨a, -, rfl⟩ := List.mem_map.mp hr
    exact decide_eq_true rfl

theorem under_map_of_ne {α : Type} (l : List α) (inner : α → List Field) {number field : ℤ}
    (h : number ≠ field) : under (l.map fun a => (number, inner a)) field = [] := by
  rw [under, List.filter_eq_nil_iff.mpr, List.map_nil]
  intro r hr
  obtain ⟨a, -, rfl⟩ := List.mem_map.mp hr
  simpa using h

theorem each_of_repeats (hreader : reader.Lawful) (h : m.Sendable)
    (honce : (field : ℤ) ∉ m.once.map Field.number) :
    ProtoRead.each (rawDpCodec reader) (some m.read) field =
      (under m.repeats field).map fun inner => inner.map Field.read := by
  have hfirst : ∀ f ∈ m.once.filter (fun f => !f.omitted), f.read.field ≠ field := by
    intro f hf hread
    have hallowed := allowedAll_iff.mp h.allowed f (List.mem_append_left _ hf)
    have hnumber := (field_read_eq_iff hallowed.field).mp hread
    exact honce (hnumber ▸ List.mem_map_of_mem (List.mem_of_mem_filter hf))
  have hnested : ∀ r ∈ m.repeats, fieldAllowed r.1 ∧
      (rawDpCodec reader).nested (encodeAll r.2) = some (r.2.map Field.read) := by
    intro r hr
    have hmem := mem_fields_of_repeats hr
    have hinner := h.nested hmem
    exact ⟨(allowedAll_iff.mp h.allowed _ hmem).field,
      readFields_encodeAll hreader hinner.1 hinner.2⟩
  rw [ProtoRead.each, Option.getD_some, read, fields, List.map_append, List.filterMap_append,
    List.filterMap_eq_nil_iff.mpr fun r hr => ?_, List.nil_append, under]
  · generalize m.repeats = repeats at hnested
    induction repeats with
    | nil => rfl
    | cons r repeats ih =>
      have hrest := ih fun r' hr' => hnested r' (List.mem_cons_of_mem r hr')
      obtain ⟨hallowed, hread⟩ := hnested r List.mem_cons_self
      have hpos := hallowed.1
      by_cases hfield : r.1 = field
      · rw [List.map_cons, List.map_cons, List.filterMap_cons_some (b := r.2.map Field.read),
          hrest, List.filter_cons_of_pos (by exact decide_eq_true hfield), List.map_cons,
          List.map_cons]
        have hnumber : r.1.toNat = field := by omega
        exact (if_neg (by exact fun hne => hne hnumber)).trans hread
      · rw [List.map_cons, List.map_cons, List.filterMap_cons_none, hrest,
          List.filter_cons_of_neg (by exact fun h => hfield (of_decide_eq_true h))]
        have hnumber : r.1.toNat ≠ field := by omega
        exact if_pos hnumber
  · obtain ⟨f, hf, rfl⟩ := List.mem_map.mp hr
    have hne := hfirst f hf
    cases hread : f.read with
    | int number value => rfl
    | bytes number value =>
      rw [hread] at hne
      exact if_pos hne

/-- The repeats of one message, where the others go under other numbers. -/
theorem each_of_under (hreader : reader.Lawful) (h : m.Sendable)
    (honce : (field : ℤ) ∉ m.once.map Field.number) {α : Type} {l : List α}
    {inner : α → DeviceMessage} (hunder : under m.repeats field = l.map fun a => (inner a).fields) :
    ProtoRead.each (rawDpCodec reader) (some m.read) field = l.map fun a => (inner a).read := by
  rw [each_of_repeats hreader h honce, hunder, List.map_map]
  rfl

/-! ### Messages that are there or not -/

/-- Nested messages that are sent or not, each under its number. -/
def optional (l : List (ℕ × Option DeviceMessage)) : List Field :=
  l.filterMap fun o => o.2.map fun m => .sub o.1 m.fields

def optionalNumbers (l : List (ℕ × Option DeviceMessage)) (more : List Field) : List ℤ :=
  (l.map fun o => (o.1 : ℤ)) ++ more.map Field.number

variable {l : List (ℕ × Option DeviceMessage)} {more : List Field}

theorem number_optional_sublist (l : List (ℕ × Option DeviceMessage)) :
    ((optional l).map Field.number).Sublist (l.map fun o => (o.1 : ℤ)) := by
  induction l with
  | nil => exact List.Sublist.slnil
  | cons o l ih =>
    obtain ⟨number, _ | m⟩ := o
    · exact ih.cons _
    · exact ih.cons_cons _

theorem nodup_optional (h : (optionalNumbers l more).Nodup) :
    ((optional l ++ more).map Field.number).Nodup := by
  rw [List.map_append]
  exact h.sublist ((number_optional_sublist l).append_right _)

theorem mem_of_optional (honce : m.once = optional l ++ more) {m' : DeviceMessage}
    (hmem : (field, some m') ∈ l) : .sub field m'.fields ∈ m.once := by
  rw [honce]
  exact List.mem_append_left _ (List.mem_filterMap.mpr ⟨_, hmem, rfl⟩)

/-- What was sent is found, and only that. -/
theorem find_of_optional (h : m.Sendable) (honce : m.once = optional l ++ more)
    (hnumbers : (optionalNumbers l more).Nodup) (hrepeats : m.repeats = [])
    {o : Option DeviceMessage} (hmem : (field, o) ∈ l) :
    ProtoRead.find (some m.read) field =
      o.map fun m' => RawDpField.bytes field (encodeAll m'.fields) := by
  cases o with
  | some m' =>
    exact find_of_once h (mem_of_optional honce hmem) rfl
  | none =>
    refine find_of_absent h ?_ (by rw [hrepeats]; exact List.not_mem_nil)
    rw [honce, List.map_append, List.mem_append]
    obtain ⟨hleft, -, hdisjoint⟩ := List.nodup_append'.mp hnumbers
    rintro (hmem' | hmem')
    · obtain ⟨f, hf, hnumber⟩ := List.mem_map.mp hmem'
      obtain ⟨⟨number, o⟩, ho, hsub⟩ := List.mem_filterMap.mp hf
      obtain ⟨m', rfl, rfl⟩ := Option.map_eq_some_iff.mp hsub
      have hsame := List.inj_on_of_nodup_map hleft ho hmem hnumber
      cases hsame
    · exact hdisjoint (List.mem_map_of_mem hmem) hmem'

theorem sub_of_optional (hreader : reader.Lawful) (h : m.Sendable)
    (honce : m.once = optional l ++ more) (hnumbers : (optionalNumbers l more).Nodup)
    (hrepeats : m.repeats = []) {o : Option DeviceMessage} (hmem : (field, o) ∈ l) :
    ProtoRead.sub (rawDpCodec reader) (some m.read) field = o.map DeviceMessage.read := by
  cases o with
  | some m' => exact sub_of_once hreader h (mem_of_optional honce hmem)
  | none => rw [ProtoRead.sub, find_of_optional h honce hnumbers hrepeats hmem]; rfl

end DeviceMessage

end EufySdk
