import Mathlib.Tactic
import EufySdk.Lib.Bytes
import EufySdk.Lib.Checked
import EufySdk.Transport.P2p.CodedGeometry

/-!
# The geometry of an image

`transport/p2p/media.ts`: the size a JPEG declares in its frame header. The marker segments are
walked from the start of the image, as bytes like those of a marker occur inside of a segment. Every
byte is read by its index, and within the steps the walk is given.

- `jpegGeometry` — the walk
- `scan` — the same on the bytes that are left, which knows neither indices nor steps
- `Segment`, `FrameHeader` — what an image is built of, well formed by its fields
-/

namespace EufySdk.Jpeg

open Bytes Checked

def JPEG_STANDALONE_MARKERS : List UInt8 :=
  [0x01, 0xd8, 0xd9, 0xd0, 0xd1, 0xd2, 0xd3, 0xd4, 0xd5, 0xd6, 0xd7]

def JPEG_NOT_FRAME_HEADERS : List UInt8 := [0xc4, 0xc8, 0xcc]

/-- The marker of a frame header, `SOFn`. -/
def isFrameHeader (marker : UInt8) : Bool :=
  0xc0 ≤ marker && marker ≤ 0xcf && marker ∉ JPEG_NOT_FRAME_HEADERS

/-- `jpeg.readUInt16BE(at)`. -/
def readUInt16BE (jpeg : Buffer) (pos : ℕ) : Run ℕ := do
  let high ← read jpeg pos
  let low ← read jpeg (pos + 1)
  return readUIntBE [high, low]

/-- The loop of `jpegGeometry` from `pos` on, in at most `steps` rounds. -/
def jpegGeometryFrom (jpeg : Buffer) : ℕ → ℕ → Run (Option Size)
  | 0, _ => .error .outOfSteps
  | steps + 1, pos =>
    if pos + 1 < jpeg.length then do
      let lead ← read jpeg pos
      if lead = 0xff then
        let marker ← read jpeg (pos + 1)
        if marker = 0xff then jpegGeometryFrom jpeg steps (pos + 1)
        else if isFrameHeader marker then
          if pos + 9 > jpeg.length then return none
          else
            let height ← readUInt16BE jpeg (pos + 5)
            let width ← readUInt16BE jpeg (pos + 7)
            return some { width, height }
        else if marker ∈ JPEG_STANDALONE_MARKERS then jpegGeometryFrom jpeg steps (pos + 2)
        else if pos + 4 ≤ jpeg.length then
          let length ← readUInt16BE jpeg (pos + 2)
          jpegGeometryFrom jpeg steps (pos + (2 + length))
        else return none
      else return none
    else return none

/-- Every round passes a byte, so there are no more rounds than bytes. -/
def jpegGeometry (jpeg : Buffer) : Run (Option Size) := jpegGeometryFrom jpeg (jpeg.length + 1) 2

/-! ## The bytes that are left -/

/-- The height and the width behind a marker of a frame header. -/
def sizeOf : Buffer → Option Size
  | _ :: _ :: _ :: h₁ :: h₀ :: w₁ :: w₀ :: _ =>
    some { width := readUIntBE [w₁, w₀], height := readUIntBE [h₁, h₀] }
  | _ => none

/-- What is behind a segment, from its length on. -/
def skip : Buffer → Buffer
  | n₁ :: n₀ :: rest => (n₁ :: n₀ :: rest).drop (readUIntBE [n₁, n₀])
  | _ => []

theorem length_skip_le (rest : Buffer) : (skip rest).length ≤ rest.length := by
  match rest with
  | n₁ :: n₀ :: rest =>
    rw [skip, List.length_drop]
    exact Nat.sub_le _ _
  | [] => exact Nat.zero_le _
  | [_] => exact Nat.zero_le _

/-- The size declared behind the bytes that are left. -/
def scan : Buffer → Option Size
  | lead :: marker :: rest =>
    if lead ≠ 0xff then none
    else if marker = 0xff then scan (marker :: rest)
    else if isFrameHeader marker then sizeOf rest
    else if marker ∈ JPEG_STANDALONE_MARKERS then scan rest
    else scan (skip rest)
  | _ => none
termination_by bytes => bytes.length
decreasing_by
  · simp only [List.length_cons]; omega
  · simp only [List.length_cons]; omega
  · have hskip := length_skip_le rest
    simp only [List.length_cons]
    omega

theorem scan_nil : scan [] = none := by
  rw [scan]
  exact nofun

theorem scan_singleton (b : UInt8) : scan [b] = none := by
  rw [scan]
  exact nofun

variable {jpeg rest : Buffer} {pos : ℕ}

/-- A byte that is left is read by its index. -/
theorem read_of_drop {bytes : Buffer} (h : jpeg.drop pos = bytes) (k : ℕ) {b : UInt8}
    (hb : bytes[k]? = some b) : read jpeg (pos + k) = .ok b := by
  refine read_of_lt ?_
  rw [← List.getElem?_drop, h, hb]

theorem readUInt16BE_of_drop {bytes : Buffer} (h : jpeg.drop pos = bytes) (k : ℕ) {high low : UInt8}
    (hhigh : bytes[k]? = some high) (hlow : bytes[k + 1]? = some low) :
    readUInt16BE jpeg (pos + k) = .ok (readUIntBE [high, low]) := by
  rw [readUInt16BE, read_of_drop h k hhigh, ok_bind, Nat.add_assoc, read_of_drop h (k + 1) hlow,
    ok_bind]
  rfl

/-- The read of the frame header is the one that the bytes left allow. -/
theorem readSize_eq {lead marker : UInt8} (h : jpeg.drop pos = lead :: marker :: rest) :
    (if pos + 9 > jpeg.length then return none
      else do
        let height ← readUInt16BE jpeg (pos + 5)
        let width ← readUInt16BE jpeg (pos + 7)
        return some { width, height } : Run (Option Size)) = .ok (sizeOf rest) := by
  have hlen : jpeg.length - pos = rest.length + 2 := by
    rw [← List.length_drop, h, List.length_cons, List.length_cons]
  match rest, h, hlen with
  | n₁ :: n₀ :: precision :: h₁ :: h₀ :: w₁ :: w₀ :: rest, h, hlen =>
    simp only [List.length_cons] at hlen
    rw [if_neg (by omega), readUInt16BE_of_drop h 5 rfl rfl, ok_bind,
      readUInt16BE_of_drop h 7 rfl rfl]
    rfl
  | [], _, hlen | [_], _, hlen | [_, _], _, hlen | [_, _, _], _, hlen | [_, _, _, _], _, hlen
  | [_, _, _, _, _], _, hlen | [_, _, _, _, _, _], _, hlen =>
    simp only [List.length_cons, List.length_nil] at hlen
    rw [if_pos (by omega)]
    rfl

/-- A segment with a length is passed as the bytes left are skipped. -/
theorem skip_eq {steps : ℕ} {lead marker : UInt8} (h : jpeg.drop pos = lead :: marker :: rest)
    (hnext : ∀ n, jpegGeometryFrom jpeg steps (pos + (2 + n)) =
      .ok (scan (jpeg.drop (pos + (2 + n))))) :
    (if pos + 4 ≤ jpeg.length then do
        let length ← readUInt16BE jpeg (pos + 2)
        jpegGeometryFrom jpeg steps (pos + (2 + length))
      else return none) = .ok (scan (skip rest)) := by
  have hlen : jpeg.length - pos = rest.length + 2 := by
    rw [← List.length_drop, h, List.length_cons, List.length_cons]
  match rest, h, hlen with
  | n₁ :: n₀ :: rest, h, hlen =>
    simp only [List.length_cons] at hlen
    rw [if_pos (by omega), readUInt16BE_of_drop h 2 rfl rfl, ok_bind, hnext, ← Nat.add_assoc,
      ← List.drop_drop, ← List.drop_drop, h]
    rfl
  | [], _, hlen | [_], _, hlen =>
    simp only [List.length_cons, List.length_nil] at hlen
    rw [if_neg (by omega)]
    exact congrArg Except.ok scan_nil.symm

/-- **The walk by indices** reads no byte past the end, comes to its end, and answers what the
bytes that are left declare. -/
theorem jpegGeometryFrom_eq {steps : ℕ} (hpos : 0 < steps) (hsteps : jpeg.length < pos + steps) :
    jpegGeometryFrom jpeg steps pos = .ok (scan (jpeg.drop pos)) := by
  induction steps generalizing pos with
  | zero => exact absurd hpos (Nat.lt_irrefl 0)
  | succ steps ih =>
    rw [jpegGeometryFrom]
    match hleft : jpeg.drop pos with
    | [] =>
      have hend : jpeg.length ≤ pos := List.drop_eq_nil_iff.mp hleft
      rw [if_neg (by omega), scan_nil]
      rfl
    | [lead] =>
      have hlen : jpeg.length - pos = 1 := by rw [← List.length_drop, hleft, List.length_singleton]
      rw [if_neg (by omega), scan_singleton]
      rfl
    | lead :: marker :: rest =>
      have hlen : jpeg.length - pos = rest.length + 2 := by
        rw [← List.length_drop, hleft, List.length_cons, List.length_cons]
      have hlead : read jpeg pos = .ok lead := read_of_drop hleft 0 rfl
      have hmarker : read jpeg (pos + 1) = .ok marker := read_of_drop hleft 1 rfl
      have htail : jpeg.drop (pos + 2) = rest := by rw [← List.drop_drop, hleft]; rfl
      rw [if_pos (by omega), hlead, ok_bind, scan]
      by_cases hff : lead = 0xff
      · rw [if_pos hff, if_neg (not_not_intro hff), hmarker, ok_bind]
        by_cases hfill : marker = 0xff
        · rw [if_pos hfill, if_pos hfill, ih (by omega) (by omega), ← List.drop_drop, hleft]
          rfl
        · rw [if_neg hfill, if_neg hfill]
          by_cases hframe : isFrameHeader marker
          · rw [if_pos hframe, if_pos hframe]
            exact readSize_eq hleft
          · rw [if_neg hframe, if_neg hframe]
            by_cases halone : marker ∈ JPEG_STANDALONE_MARKERS
            · rw [if_pos halone, if_pos halone, ih (by omega) (by omega), htail]
            · rw [if_neg halone, if_neg halone]
              exact skip_eq hleft fun n => ih (by omega) (by omega)
      · rw [if_neg hff, if_pos hff]
        rfl

/-! ## Images -/

/-- A marker behind its lead and any fill bytes. -/
def marked (fill : ℕ) (marker : UInt8) : Buffer := List.replicate (fill + 1) 0xff ++ [marker]

/-- A marker segment that is no frame header, with any payload. -/
inductive Segment
  | standalone (fill : ℕ) (marker : UInt8) (alone : marker ∈ JPEG_STANDALONE_MARKERS)
  | sized (fill : ℕ) (marker : UInt8) (payload : Buffer) (nofill : marker ≠ 0xff)
      (noframe : ¬isFrameHeader marker) (notalone : marker ∉ JPEG_STANDALONE_MARKERS)
      (fits : payload.length + 2 < 65536)

/-- The length that a segment carries counts itself. -/
def Segment.bytes : Segment → Buffer
  | standalone fill marker _ => marked fill marker
  | sized fill marker payload _ _ _ _ =>
    marked fill marker ++ (uint16BE (payload.length + 2) ++ payload)

/-- A frame header: what is behind the size is of no interest here. -/
structure FrameHeader where
  fill : ℕ
  marker : UInt8
  frame : isFrameHeader marker
  precision : UInt8
  height : ℕ
  width : ℕ
  components : Buffer
  height_lt : height < 65536
  width_lt : width < 65536
  fits : components.length + 7 < 65536

def FrameHeader.bytes (f : FrameHeader) : Buffer :=
  marked f.fill f.marker ++ (uint16BE (f.components.length + 7) ++
    (f.precision :: (uint16BE f.height ++ (uint16BE f.width ++ f.components))))

/-- An image up to its frame header, and anything behind it. -/
def image (segments : List Segment) (header : FrameHeader) (rest : Buffer) : Buffer :=
  [0xff, 0xd8] ++ (segments.flatMap Segment.bytes ++ (header.bytes ++ rest))

/-- Fill bytes are passed. -/
theorem scan_marked (fill : ℕ) {marker : UInt8} (h : marker ≠ 0xff) :
    scan (marked fill marker ++ rest) =
      if isFrameHeader marker then sizeOf rest
      else if marker ∈ JPEG_STANDALONE_MARKERS then scan rest
      else scan (skip rest) := by
  induction fill with
  | zero =>
    change scan (0xff :: marker :: rest) = _
    rw [scan, if_neg (not_not_intro rfl), if_neg h]
  | succ fill ih =>
    change scan (0xff :: 0xff :: (List.replicate fill 0xff ++ [marker] ++ rest)) = _
    rw [scan, if_neg (not_not_intro rfl), if_pos rfl]
    exact ih

theorem skip_sized (payload : Buffer) (h : payload.length + 2 < 65536) :
    skip (uint16BE (payload.length + 2) ++ payload ++ rest) = rest := by
  have hread := readUIntBE_uint16BE h
  rw [uint16BE] at hread ⊢
  change (_ :: _ :: (payload ++ rest)).drop (readUIntBE [_, _]) = rest
  rw [hread, List.drop_succ_cons, List.drop_succ_cons, List.drop_left]

/-- A segment is passed, whatever its payload looks like. -/
theorem scan_segment (segment : Segment) : scan (segment.bytes ++ rest) = scan rest := by
  cases segment with
  | standalone fill marker alone =>
    have hall : ∀ m ∈ JPEG_STANDALONE_MARKERS, m ≠ 0xff ∧ ¬isFrameHeader m := by
      decide +kernel
    obtain ⟨hfill, hframe⟩ := hall marker alone
    rw [Segment.bytes, scan_marked fill hfill, if_neg hframe, if_pos alone]
  | sized fill marker payload nofill noframe notalone fits =>
    rw [Segment.bytes, List.append_assoc, scan_marked fill nofill, if_neg noframe,
      if_neg notalone, skip_sized payload fits]

theorem scan_segments (segments : List Segment) :
    scan (segments.flatMap Segment.bytes ++ rest) = scan rest := by
  induction segments with
  | nil => rfl
  | cons segment segments ih => rw [List.flatMap_cons, List.append_assoc, scan_segment, ih]

/-- The frame header answers. -/
theorem scan_header (header : FrameHeader) :
    scan (header.bytes ++ rest) = some { width := header.width, height := header.height } := by
  have hfill : header.marker ≠ 0xff := by
    intro h
    have hframe := header.frame
    rw [h] at hframe
    exact absurd hframe (by decide)
  have hheight := readUIntBE_uint16BE header.height_lt
  have hwidth := readUIntBE_uint16BE header.width_lt
  rw [FrameHeader.bytes, List.append_assoc, scan_marked header.fill hfill, if_pos header.frame]
  rw [uint16BE] at hheight hwidth
  change some (Size.mk (readUIntBE [_, _]) (readUIntBE [_, _])) = _
  rw [hheight, hwidth]

/-- **The geometry is that of the frame header**, behind any segments; and every walk comes to its
end without a read past that of the image. -/
theorem jpegGeometry_image :
    (∀ segments header rest, jpegGeometry (image segments header rest) =
      .ok (some { width := header.width, height := header.height })) ∧
    ∀ jpeg, ∃ size, jpegGeometry jpeg = .ok size := by
  have hwalk (jpeg : Buffer) : jpegGeometry jpeg = .ok (scan (jpeg.drop 2)) :=
    jpegGeometryFrom_eq (Nat.succ_pos _) (by omega)
  constructor
  · intro segments header rest
    rw [hwalk, image]
    change Except.ok (scan (segments.flatMap Segment.bytes ++ (header.bytes ++ rest))) = _
    rw [scan_segments, scan_header]
  · intro jpeg
    exact ⟨_, hwalk jpeg⟩

/-- A segment that holds the bytes of a frame header, and the frame header behind fill bytes. -/
example :
    jpegGeometry ([0xff, 0xd8] ++ [0xff, 0xe1, 0, 8, 0xff, 0xc0, 0, 9, 1, 2] ++
      [0xff, 0xff, 0xff, 0xc2, 0, 8, 8, 0x01, 0x68, 0x02, 0x80, 0]) =
    .ok (some { width := 640, height := 360 }) := by decide

end EufySdk.Jpeg
