import Mathlib.Tactic
import EufySdk.Lib.Bytes

/-!
# Fields with a tag and a length byte

Fields in a row, each behind its tag and its length. Written fields get consecutive tags; reading
stops at a zero tag, which only padding has, and at a field that the rest does not hold.

- `write`, `read` — the two directions
- `read_write` — what is written is read back, with any zero padding behind it
- `walk` — reading where a zero tag is a tag like any other
- `walk_writeFields` — what is written is walked back
-/

namespace Tlv

open Bytes

/-- The fields with consecutive tags. -/
def tagged (tag : UInt8) : List Buffer → List (UInt8 × Buffer)
  | [] => []
  | field :: rest => (tag, field) :: tagged (tag + 1) rest

def writeFields (fields : List (UInt8 × Buffer)) : Buffer :=
  fields.flatMap fun e => e.1 :: UInt8.ofNat e.2.length :: e.2

/-- Fields in a row, behind at most `fuel` of them. -/
def readFuel : ℕ → Buffer → List (UInt8 × Buffer)
  | fuel + 1, tag :: len :: rest =>
    if tag = 0 then []
    else if len.toNat ≤ rest.length then
      (tag, rest.take len.toNat) :: readFuel fuel (rest.drop len.toNat)
    else []
  | _, _ => []

/-- Every field takes two bytes or more, so the length is enough fuel. -/
def read (b : Buffer) : List (UInt8 × Buffer) := readFuel b.length b

/-- Fields that a length byte can announce, under tags that are no padding. -/
def WellFormed (fields : List (UInt8 × Buffer)) : Prop :=
  ∀ e ∈ fields, e.1 ≠ 0 ∧ e.2.length ≤ 255

/-- Consecutive tags are no padding as long as they do not wrap. -/
theorem wellFormed_tagged {fields : List Buffer} (hlen : ∀ f ∈ fields, f.length ≤ 255) :
    ∀ {tag : UInt8}, tag ≠ 0 → tag.toNat + fields.length ≤ 256 →
      WellFormed (tagged tag fields) := by
  induction fields with
  | nil => exact fun _ _ => nofun
  | cons field rest ih =>
    intro tag htag hcount e he
    rw [List.length_cons] at hcount
    obtain rfl | hrest := List.mem_cons.mp he
    · exact ⟨htag, hlen field List.mem_cons_self⟩
    · have hnext : rest ≠ [] → (tag + 1).toNat = tag.toNat + 1 := by
        intro hne
        have hpos := List.length_pos_iff.mpr hne
        rw [UInt8.toNat_add]
        exact Nat.mod_eq_of_lt (by simp only [UInt8.toNat_one]; omega)
      cases rest with
      | nil => cases hrest
      | cons f fs =>
        have hnat := hnext (List.cons_ne_nil _ _)
        refine ih (fun f hf => hlen f (List.mem_cons_of_mem _ hf)) ?_ (by omega) e hrest
        intro hzero
        rw [hzero] at hnat
        exact absurd hnat (by simp)

theorem readFuel_zeros (fuel k : ℕ) : readFuel fuel (List.replicate k 0) = [] := by
  cases fuel with
  | zero => rfl
  | succ fuel =>
    match k with
    | 0 => rfl
    | 1 => rfl
    | k + 2 => rfl

theorem length_le_writeFields (fields : List (UInt8 × Buffer)) :
    fields.length ≤ (writeFields fields).length := by
  induction fields with
  | nil => exact Nat.le_refl 0
  | cons e rest ih =>
    rw [writeFields, List.flatMap_cons, ← writeFields, List.length_append, List.length_cons,
      List.length_cons, List.length_cons]
    omega

theorem length_writeFields_le {fields : List (UInt8 × Buffer)}
    (hlen : ∀ e ∈ fields, e.2.length ≤ 255) :
    (writeFields fields).length ≤ 257 * fields.length := by
  induction fields with
  | nil => exact Nat.le_refl 0
  | cons e rest ih =>
    have hfield := hlen e List.mem_cons_self
    have hrest := ih fun e he => hlen e (List.mem_cons_of_mem _ he)
    rw [writeFields, List.flatMap_cons, ← writeFields, List.length_append,
      List.length_cons, List.length_cons, List.length_cons]
    omega

/-- The fields that are tagged, and no other. -/
theorem map_snd_tagged (fields : List Buffer) (tag : UInt8) :
    (tagged tag fields).map Prod.snd = fields := by
  induction fields generalizing tag with
  | nil => rfl
  | cons field rest ih => rw [tagged, List.map_cons, ih]

theorem length_writeFields_tagged_le {fields : List Buffer} (hlen : ∀ f ∈ fields, f.length ≤ 255)
    (tag : UInt8) : (writeFields (tagged tag fields)).length ≤ 257 * fields.length := by
  have hsnd := map_snd_tagged fields tag
  have hcount : (tagged tag fields).length = fields.length := by rw [← List.length_map, hsnd]
  rw [← hcount]
  refine length_writeFields_le fun e he => hlen e.2 ?_
  rw [← hsnd]
  exact List.mem_map_of_mem he

/-- Fields are read back with as much fuel as there are of them. -/
theorem readFuel_writeFields {fields : List (UInt8 × Buffer)} (h : WellFormed fields) (k : ℕ) :
    ∀ fuel, fields.length ≤ fuel →
      readFuel fuel (writeFields fields ++ List.replicate k 0) = fields := by
  induction fields with
  | nil => exact fun fuel _ => readFuel_zeros fuel k
  | cons e rest ih =>
    intro fuel hfuel
    obtain ⟨tag, field⟩ := e
    obtain ⟨htag, hlen⟩ := h _ List.mem_cons_self
    have hrest := ih fun e he => h e (List.mem_cons_of_mem _ he)
    match fuel, hfuel with
    | fuel + 1, hfuel =>
      have hbyte : (UInt8.ofNat field.length).toNat = field.length := by
        rw [UInt8.toNat_ofNat']
        dsimp only at hlen
        omega
      have hfits : field.length ≤ (field ++ (writeFields rest ++ List.replicate k 0)).length := by
        rw [List.length_append]
        exact Nat.le_add_right _ _
      rw [writeFields, List.flatMap_cons, ← writeFields, List.cons_append, List.cons_append,
        List.cons_append, List.cons_append, readFuel, if_neg htag, hbyte, List.append_assoc,
        if_pos hfits, List.take_left, List.drop_left,
        hrest fuel (Nat.le_of_succ_le_succ hfuel)]

/-- **Fields written are read back**, with any zero padding behind them. -/
theorem read_writeFields {fields : List (UInt8 × Buffer)} (h : WellFormed fields) (k : ℕ) :
    read (writeFields fields ++ List.replicate k 0) = fields := by
  refine readFuel_writeFields h k _ ?_
  rw [List.length_append]
  exact (length_le_writeFields fields).trans (Nat.le_add_right _ _)

/-! ## Without padding -/

/-- Fields in a row with any tags, behind at most `fuel` of them. -/
def walkFuel : ℕ → Buffer → List (UInt8 × Buffer)
  | fuel + 1, tag :: len :: rest =>
    if len.toNat ≤ rest.length then
      (tag, rest.take len.toNat) :: walkFuel fuel (rest.drop len.toNat)
    else []
  | _, _ => []

def walk (b : Buffer) : List (UInt8 × Buffer) := walkFuel b.length b

/-- What is walked fits its length byte. -/
theorem length_le_of_mem_walkFuel {fuel : ℕ} {b : Buffer} {e : UInt8 × Buffer}
    (h : e ∈ walkFuel fuel b) : e.2.length ≤ 255 := by
  fun_induction walkFuel fuel b with
  | case1 fuel tag len rest hfits ih =>
    rcases List.mem_cons.mp h with rfl | hrest
    · have hbyte := len.toNat_lt
      rw [List.length_take]
      omega
    · exact ih hrest
  | case2 => cases h
  | case3 => cases h

theorem length_le_of_mem_walk {b : Buffer} {e : UInt8 × Buffer} (h : e ∈ walk b) :
    e.2.length ≤ 255 :=
  length_le_of_mem_walkFuel h

theorem walkFuel_writeFields {fields : List (UInt8 × Buffer)}
    (h : ∀ e ∈ fields, e.2.length ≤ 255) :
    ∀ fuel, fields.length ≤ fuel → walkFuel fuel (writeFields fields) = fields := by
  induction fields with
  | nil =>
    intro fuel _
    cases fuel <;> rfl
  | cons e rest ih =>
    intro fuel hfuel
    obtain ⟨tag, field⟩ := e
    have hlen := h _ List.mem_cons_self
    have hrest := ih fun e he => h e (List.mem_cons_of_mem _ he)
    match fuel, hfuel with
    | fuel + 1, hfuel =>
      have hbyte : (UInt8.ofNat field.length).toNat = field.length := by
        rw [UInt8.toNat_ofNat']
        dsimp only at hlen
        omega
      have hfits : field.length ≤ (field ++ writeFields rest).length := by
        rw [List.length_append]
        exact Nat.le_add_right _ _
      rw [writeFields, List.flatMap_cons, ← writeFields, List.cons_append, List.cons_append,
        walkFuel, hbyte, if_pos hfits, List.take_left, List.drop_left,
        hrest fuel (Nat.le_of_succ_le_succ hfuel)]

/-- **Fields written are walked back** when a length byte can announce them. -/
theorem walk_writeFields {fields : List (UInt8 × Buffer)} (h : ∀ e ∈ fields, e.2.length ≤ 255) :
    walk (writeFields fields) = fields :=
  walkFuel_writeFields h _ (length_le_writeFields fields)

end Tlv
