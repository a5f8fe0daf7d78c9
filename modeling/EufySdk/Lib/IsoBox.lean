import Mathlib.Tactic
import EufySdk.Lib.Bytes

/-!
# Boxes of the ISO base media format

A box is its size, a type of four characters and a payload; the size counts all three. A file is
a sequence of boxes, and the payload of some types is again one, behind a header whose length
the type fixes.

Main definitions:

- `Box.encode`, `encodeAll` — a box, and a sequence of boxes, as bytes
- `parse` — the boxes that cover some bytes exactly
- `containers` — the types whose payload is a sequence of boxes
- `Nested` — bytes that are boxes all the way down
-/

namespace IsoBox

open Bytes

/-- The four characters of a box type. -/
structure FourCC where
  (a b c d : UInt8)
  deriving DecidableEq, Repr

def FourCC.ofChars (a b c d : Char) : FourCC :=
  ⟨UInt8.ofNat a.toNat, UInt8.ofNat b.toNat, UInt8.ofNat c.toNat, UInt8.ofNat d.toNat⟩

def FourCC.bytes (t : FourCC) : Buffer := [t.a, t.b, t.c, t.d]

@[simp] theorem FourCC.length_bytes (t : FourCC) : t.bytes.length = 4 := rfl

namespace FourCC

def ftyp : FourCC := ofChars 'f' 't' 'y' 'p'
def moov : FourCC := ofChars 'm' 'o' 'o' 'v'
def mvhd : FourCC := ofChars 'm' 'v' 'h' 'd'
def trak : FourCC := ofChars 't' 'r' 'a' 'k'
def tkhd : FourCC := ofChars 't' 'k' 'h' 'd'
def mdia : FourCC := ofChars 'm' 'd' 'i' 'a'
def mdhd : FourCC := ofChars 'm' 'd' 'h' 'd'
def hdlr : FourCC := ofChars 'h' 'd' 'l' 'r'
def minf : FourCC := ofChars 'm' 'i' 'n' 'f'
def vmhd : FourCC := ofChars 'v' 'm' 'h' 'd'
def smhd : FourCC := ofChars 's' 'm' 'h' 'd'
def dinf : FourCC := ofChars 'd' 'i' 'n' 'f'
def dref : FourCC := ofChars 'd' 'r' 'e' 'f'
def url : FourCC := ofChars 'u' 'r' 'l' ' '
def stbl : FourCC := ofChars 's' 't' 'b' 'l'
def stsd : FourCC := ofChars 's' 't' 's' 'd'
def stts : FourCC := ofChars 's' 't' 't' 's'
def stsc : FourCC := ofChars 's' 't' 's' 'c'
def stsz : FourCC := ofChars 's' 't' 's' 'z'
def stco : FourCC := ofChars 's' 't' 'c' 'o'
def avc1 : FourCC := ofChars 'a' 'v' 'c' '1'
def avcC : FourCC := ofChars 'a' 'v' 'c' 'C'
def hvc1 : FourCC := ofChars 'h' 'v' 'c' '1'
def hvcC : FourCC := ofChars 'h' 'v' 'c' 'C'
def mp4a : FourCC := ofChars 'm' 'p' '4' 'a'
def esds : FourCC := ofChars 'e' 's' 'd' 's'
def mvex : FourCC := ofChars 'm' 'v' 'e' 'x'
def trex : FourCC := ofChars 't' 'r' 'e' 'x'
def moof : FourCC := ofChars 'm' 'o' 'o' 'f'
def mfhd : FourCC := ofChars 'm' 'f' 'h' 'd'
def traf : FourCC := ofChars 't' 'r' 'a' 'f'
def tfhd : FourCC := ofChars 't' 'f' 'h' 'd'
def tfdt : FourCC := ofChars 't' 'f' 'd' 't'
def trun : FourCC := ofChars 't' 'r' 'u' 'n'
def mdat : FourCC := ofChars 'm' 'd' 'a' 't'

end FourCC

/-- The types that hold boxes, with the length of the header before them. -/
def containers (t : FourCC) : Option ℕ :=
  if t ∈ [FourCC.moov, .trak, .mdia, .minf, .dinf, .stbl, .mvex, .moof, .traf] then some 0
  else if t ∈ [FourCC.stsd, .dref] then some 8
  else if t ∈ [FourCC.avc1, .hvc1] then some 78
  else if t = .mp4a then some 28
  else none

structure Box where
  type : FourCC
  payload : Buffer
  deriving DecidableEq, Repr

namespace Box

def size (box : Box) : ℕ := 8 + box.payload.length

def encode (box : Box) : Buffer := uint32BE box.size ++ box.type.bytes ++ box.payload

theorem size_mk (type : FourCC) (payload : Buffer) :
    size ⟨type, payload⟩ = 8 + payload.length := rfl

@[simp] theorem length_encode (box : Box) : box.encode.length = box.size := by
  simp only [encode, List.length_append, length_uint32BE, FourCC.length_bytes, size]

end Box

def encodeAll (boxes : List Box) : Buffer := boxes.flatMap Box.encode

theorem encodeAll_nil : encodeAll [] = [] := rfl

theorem encodeAll_cons (box : Box) (boxes : List Box) :
    encodeAll (box :: boxes) = box.encode ++ encodeAll boxes := rfl

theorem encodeAll_append (left right : List Box) :
    encodeAll (left ++ right) = encodeAll left ++ encodeAll right := List.flatMap_append

/-- The box of the given size and type whose payload some bytes start with, and the bytes
behind it. -/
def cut (size : ℕ) (type : FourCC) (rest : Buffer) : Option (Box × Buffer) :=
  if 8 ≤ size ∧ size ≤ 8 + rest.length then
    some (⟨type, rest.take (size - 8)⟩, rest.drop (size - 8))
  else none

/-- The box at the start of some bytes, and the bytes behind it. -/
def split : Buffer → Option (Box × Buffer)
  | s₀ :: s₁ :: s₂ :: s₃ :: a :: b :: c :: d :: rest =>
    cut (readUIntBE [s₀, s₁, s₂, s₃]) ⟨a, b, c, d⟩ rest
  | _ => none

/-- The boxes that cover some bytes exactly, at most as many as the first argument. -/
def parseUpTo : ℕ → Buffer → Option (List Box)
  | _, [] => some []
  | 0, _ :: _ => none
  | fuel + 1, b :: bytes =>
    (split (b :: bytes)).bind fun r => (parseUpTo fuel r.2).map (r.1 :: ·)

/-- The boxes that cover some bytes exactly. -/
def parse (bytes : Buffer) : Option (List Box) := parseUpTo bytes.length bytes

theorem split_encode {box : Box} (h : box.size < 2 ^ 32) (rest : Buffer) :
    split (box.encode ++ rest) = some (box, rest) := by
  have hsplit : split (box.encode ++ rest) =
      cut (readUIntBE (uint32BE box.size)) box.type (box.payload ++ rest) := rfl
  have hfits : 8 ≤ box.size ∧ box.size ≤ 8 + (box.payload ++ rest).length := by
    rw [Box.size, List.length_append]
    omega
  rw [hsplit, readUIntBE_uint32BE h, cut, if_pos hfits, Box.size, Nat.add_sub_cancel_left,
    List.take_left, List.drop_left]

/-- What is read from the start of some bytes is what they start with. -/
theorem encode_of_split {bytes rest : Buffer} {box : Box} (h : split bytes = some (box, rest)) :
    box.encode ++ rest = bytes ∧ box.size < 2 ^ 32 := by
  rw [split.eq_def] at h
  split at h
  · next s₀ s₁ s₂ s₃ a b c d tail =>
    have hlt : readUIntBE [s₀, s₁, s₂, s₃] < 256 ^ 4 := readUIntBE_lt [s₀, s₁, s₂, s₃]
    have hbytes := uint32BE_readUIntBE s₀ s₁ s₂ s₃
    generalize readUIntBE [s₀, s₁, s₂, s₃] = size at h hlt hbytes
    rw [cut] at h
    split at h
    · next hfits =>
      simp only [Option.some.injEq, Prod.mk.injEq] at h
      obtain ⟨rfl, rfl⟩ := h
      have hsize : Box.size ⟨⟨a, b, c, d⟩, tail.take (size - 8)⟩ = size := by
        rw [Box.size, List.length_take]
        omega
      refine ⟨?_, by omega⟩
      rw [Box.encode, hsize, hbytes, List.append_assoc, List.take_append_drop]
      rfl
    · cases h
  · cases h

theorem parseUpTo_encodeAll {boxes : List Box} (hfits : ∀ box ∈ boxes, box.size < 2 ^ 32)
    {fuel : ℕ} (hfuel : boxes.length ≤ fuel) : parseUpTo fuel (encodeAll boxes) = some boxes := by
  induction boxes generalizing fuel with
  | nil => cases fuel <;> rfl
  | cons box boxes ih =>
    cases fuel with
    | zero => cases hfuel
    | succ fuel =>
      have hrest := ih (fun b hb => hfits b (List.mem_cons_of_mem box hb))
        (Nat.le_of_succ_le_succ hfuel)
      have hsplit := split_encode (hfits box List.mem_cons_self) (encodeAll boxes)
      have hcons : ∃ b bytes, box.encode ++ encodeAll boxes = b :: bytes := ⟨_, _, rfl⟩
      obtain ⟨b, bytes, hcons⟩ := hcons
      rw [hcons] at hsplit
      rw [encodeAll_cons, hcons, parseUpTo, hsplit, Option.bind_some, hrest, Option.map_some]

theorem encodeAll_of_parseUpTo {fuel : ℕ} {bytes : Buffer} {boxes : List Box}
    (h : parseUpTo fuel bytes = some boxes) :
    encodeAll boxes = bytes ∧ ∀ box ∈ boxes, box.size < 2 ^ 32 := by
  induction fuel generalizing bytes boxes with
  | zero =>
    cases bytes with
    | nil =>
      obtain rfl := Option.some.inj h
      exact ⟨rfl, nofun⟩
    | cons b bytes => cases h
  | succ fuel ih =>
    cases bytes with
    | nil =>
      obtain rfl := Option.some.inj h
      exact ⟨rfl, nofun⟩
    | cons b bytes =>
      obtain ⟨⟨box, rest⟩, hsplit, hrest⟩ := Option.bind_eq_some_iff.mp h
      obtain ⟨tail, htail, rfl⟩ := Option.map_eq_some_iff.mp hrest
      obtain ⟨hbytes, hbox⟩ := encode_of_split hsplit
      obtain ⟨htailBytes, htailFits⟩ := ih htail
      refine ⟨by rw [encodeAll_cons, htailBytes, hbytes], ?_⟩
      intro x hx
      cases List.mem_cons.mp hx with
      | inl heq => exact heq ▸ hbox
      | inr hmem => exact htailFits x hmem

theorem size_le_encodeAll {box : Box} {boxes : List Box} (h : box ∈ boxes) :
    box.size ≤ (encodeAll boxes).length := by
  obtain ⟨left, right, rfl⟩ := List.append_of_mem h
  rw [encodeAll_append, encodeAll_cons, List.length_append, List.length_append,
    Box.length_encode]
  omega

theorem length_le_encodeAll (boxes : List Box) : boxes.length ≤ (encodeAll boxes).length := by
  induction boxes with
  | nil => exact Nat.le_refl 0
  | cons box boxes ih =>
    rw [encodeAll_cons, List.length_append, Box.length_encode, List.length_cons, Box.size]
    omega

/-- **Parsing inverts encoding**, and reads nothing else. -/
theorem parse_eq_some_iff {bytes : Buffer} {boxes : List Box} :
    parse bytes = some boxes ↔ encodeAll boxes = bytes ∧ ∀ box ∈ boxes, box.size < 2 ^ 32 := by
  constructor
  · exact encodeAll_of_parseUpTo
  · rintro ⟨rfl, hfits⟩
    exact parseUpTo_encodeAll hfits (length_le_encodeAll boxes)

theorem parse_encodeAll {boxes : List Box} (h : ∀ box ∈ boxes, box.size < 2 ^ 32) :
    parse (encodeAll boxes) = some boxes := parse_eq_some_iff.mpr ⟨rfl, h⟩

/-! ## Boxes in boxes -/

section Nested

variable (schema : FourCC → Option ℕ)

/-- Whether bytes are boxes, and the payloads of containers again so behind their headers, down
to the given depth. -/
def nestedTo : ℕ → Buffer → Bool
  | 0, bytes => bytes.isEmpty
  | depth + 1, bytes =>
    match parse bytes with
    | none => false
    | some boxes => boxes.all fun box =>
      match schema box.type with
      | none => true
      | some head => head ≤ box.payload.length && nestedTo depth (box.payload.drop head)

/-- Bytes that are boxes all the way down, each one covered exactly by what is in it. -/
def Nested (bytes : Buffer) : Prop := ∃ depth, nestedTo schema depth bytes = true

variable {schema}

/-- What is asked of each box. -/
theorem nestedTo_succ {depth : ℕ} {bytes : Buffer} :
    nestedTo schema (depth + 1) bytes = true ↔ ∃ boxes, encodeAll boxes = bytes ∧
      ∀ box ∈ boxes, box.size < 2 ^ 32 ∧ ∀ head, schema box.type = some head →
        head ≤ box.payload.length ∧ nestedTo schema depth (box.payload.drop head) = true := by
  rw [nestedTo]
  cases hparse : parse bytes with
  | none =>
    constructor
    · exact nofun
    · rintro ⟨boxes, hbytes, hboxes⟩
      rw [parse_eq_some_iff.mpr ⟨hbytes, fun box hbox => (hboxes box hbox).1⟩] at hparse
      cases hparse
  | some boxes =>
    obtain ⟨hbytes, hfits⟩ := parse_eq_some_iff.mp hparse
    simp only [List.all_eq_true]
    constructor
    · intro h
      refine ⟨boxes, hbytes, fun box hbox => ⟨hfits box hbox, fun head hhead => ?_⟩⟩
      simpa [hhead] using h box hbox
    · rintro ⟨others, hothers, h⟩ box hbox
      rw [parse_eq_some_iff.mpr ⟨hothers, fun b hb => (h b hb).1⟩, Option.some.injEq] at hparse
      subst hparse
      cases hhead : schema box.type with
      | none => rfl
      | some head => simpa using (h box hbox).2 head hhead

theorem nestedTo_mono {depth : ℕ} {bytes : Buffer} (h : nestedTo schema depth bytes = true) :
    nestedTo schema (depth + 1) bytes = true := by
  induction depth generalizing bytes with
  | zero =>
    obtain rfl := List.isEmpty_iff.mp h
    exact nestedTo_succ.mpr ⟨[], rfl, nofun⟩
  | succ depth ih =>
    obtain ⟨boxes, hbytes, hboxes⟩ := nestedTo_succ.mp h
    refine nestedTo_succ.mpr ⟨boxes, hbytes, fun box hbox => ⟨(hboxes box hbox).1, ?_⟩⟩
    intro head hhead
    obtain ⟨hle, hinner⟩ := (hboxes box hbox).2 head hhead
    exact ⟨hle, ih hinner⟩

theorem nestedTo_of_le {depth deeper : ℕ} (hle : depth ≤ deeper) {bytes : Buffer}
    (h : nestedTo schema depth bytes = true) : nestedTo schema deeper bytes = true := by
  induction hle with
  | refl => exact h
  | step _ ih => exact nestedTo_mono ih

theorem Nested.nil : Nested schema [] := ⟨0, rfl⟩

theorem Nested.append {left right : Buffer} (hleft : Nested schema left)
    (hright : Nested schema right) : Nested schema (left ++ right) := by
  obtain ⟨m, hm⟩ := hleft
  obtain ⟨n, hn⟩ := hright
  obtain ⟨boxes, rfl, hboxes⟩ :=
    nestedTo_succ.mp (nestedTo_of_le (Nat.le_succ_of_le (Nat.le_max_left m n)) hm)
  obtain ⟨others, rfl, hothers⟩ :=
    nestedTo_succ.mp (nestedTo_of_le (Nat.le_succ_of_le (Nat.le_max_right m n)) hn)
  refine ⟨max m n + 1, nestedTo_succ.mpr ⟨boxes ++ others, encodeAll_append _ _, ?_⟩⟩
  intro box hbox
  cases List.mem_append.mp hbox with
  | inl h => exact hboxes box h
  | inr h => exact hothers box h

theorem Nested.all {boxes : List Box} (h : ∀ box ∈ boxes, Nested schema box.encode) :
    Nested schema (encodeAll boxes) := by
  induction boxes with
  | nil => exact Nested.nil
  | cons box boxes ih =>
    exact (h box List.mem_cons_self).append (ih fun b hb => h b (List.mem_cons_of_mem box hb))

/-- A box whose payload is of no concern. -/
theorem Nested.leaf {type : FourCC} {payload : Buffer} (htype : schema type = none)
    (hsize : 8 + payload.length < 2 ^ 32) : Nested schema (Box.encode ⟨type, payload⟩) := by
  refine ⟨1, nestedTo_succ.mpr ⟨[⟨type, payload⟩], List.append_nil _, ?_⟩⟩
  intro box hbox
  obtain rfl := List.mem_singleton.mp hbox
  exact ⟨hsize, fun head hhead => (by rw [htype] at hhead; cases hhead)⟩

/-- A box of boxes. -/
theorem Nested.container {type : FourCC} (head : Buffer) {inner : Buffer}
    (htype : schema type = some head.length) (hinner : Nested schema inner)
    (hsize : 8 + (head ++ inner).length < 2 ^ 32) :
    Nested schema (Box.encode ⟨type, head ++ inner⟩) := by
  obtain ⟨depth, hdepth⟩ := hinner
  refine ⟨depth + 1, nestedTo_succ.mpr ⟨[⟨type, head ++ inner⟩], List.append_nil _, ?_⟩⟩
  intro box hbox
  obtain rfl := List.mem_singleton.mp hbox
  refine ⟨hsize, fun length hlength => ?_⟩
  obtain rfl := Option.some.inj (htype.symm.trans hlength)
  exact ⟨by rw [List.length_append]; omega, by rw [List.drop_left]; exact hdepth⟩

end Nested

end IsoBox
