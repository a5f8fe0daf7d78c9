import Mathlib.Tactic
import EufySdk.Core.Scalar
import EufySdk.Lib.Grid
import EufySdk.Model.RawDpMessages
import EufySdk.Model.VacuumMap

/-!
# Reading single cells

`model/map-pixels.ts`: the value of a cell and the room of a cell out of their packed planes, and
the conversion between cells and points. The planes are packed as the messages document it and sent
as they are or as an LZ4 block; what is read is what was packed.

- `mapCellValue`, `roomIdAt`, `cellAtPoint`, `pointAtCell`
- `SentPlane` — the two ways a plane is sent
- `planes_read_back` — planes are accepted and read cell for cell, and cells and points round-trip
-/

namespace EufySdk

open Bytes

structure MapCell where
  col : ℤ
  row : ℤ
  deriving DecidableEq, Repr

/-- What the planes have in common. -/
structure PlacedPlane where
  width : ℤ
  height : ℤ
  resolution : Option ℤ
  origin : MapPoint

def VacuumMapGeometry.placed (g : VacuumMapGeometry) : PlacedPlane :=
  ⟨g.width, g.height, g.resolution, g.origin⟩

def VacuumRoomOutline.placed (o : VacuumRoomOutline) : PlacedPlane :=
  ⟨o.width, o.height, o.resolution, o.origin⟩

/-- A cell outside a grid. -/
def MapCell.outside (cell : MapCell) (width height : ℤ) : Prop :=
  cell.col < 0 ∨ cell.row < 0 ∨ cell.col ≥ width ∨ cell.row ≥ height

instance (cell : MapCell) (width height : ℤ) : Decidable (cell.outside width height) :=
  inferInstanceAs (Decidable (_ ∨ _))

/-- The cell that covers a point, if there is a scale and the plane has it. -/
def cellAtPoint (plane : PlacedPlane) (point : MapPoint) : Option MapCell := do
  let resolution ← plane.resolution
  if resolution = 0 then none
  else
    let nearest (p origin : ℚ) := JsNumber.round (double (double (p - origin) / resolution))
    let cell : MapCell := ⟨nearest point.x plane.origin.x, nearest point.y plane.origin.y⟩
    if cell.outside plane.width plane.height then none else some cell

/-- The point that a cell is anchored at. -/
def pointAtCell (plane : PlacedPlane) (cell : MapCell) : Option MapPoint := do
  let resolution ← plane.resolution
  if resolution = 0 then none
  else if cell.outside plane.width plane.height then none
  else
    let along (origin : ℚ) (index : ℤ) := double (origin + double (index * resolution))
    some ⟨along plane.origin.x cell.col, along plane.origin.y cell.row⟩

/-- `row * width + col`. -/
def MapCell.place (cell : MapCell) (width : ℤ) : ℤ := ⌊double (double (cell.row * width) + cell.col)⌋

def mapCellValue (map : VacuumMapPlane) (cell : MapCell) : Option MapCellValue :=
  let width := map.geometry.width
  if cell.outside width map.geometry.height then none
  else do
    let i := toInt32 (cell.place width)
    let byte ← elemAt map.cells (i >>> (2 : ℕ))
    MAP_CELL_VALUES[(byte.toNat >>> ((i % 4).toNat * 2)) &&& 3]?

/-- The value at a point. -/
def mapCellValueAt (map : VacuumMapPlane) (point : MapPoint) : Option MapCellValue :=
  (cellAtPoint map.geometry.placed point).bind (mapCellValue map)

def roomIdAt (outline : VacuumRoomOutline) (cell : MapCell) : Option ℕ :=
  if cell.outside outline.width outline.height then none
  else do
    let byte ← elemAt outline.cells (cell.place outline.width)
    let id := byte.toNat >>> 2
    if id = 0 then none else some id

/-- The room at a point. -/
def roomIdAtPoint (outline : VacuumRoomOutline) (point : MapPoint) : Option ℕ :=
  (cellAtPoint outline.placed point).bind (roomIdAt outline)

/-! ### Planes as they are sent -/

/-- A plane as it is, or as a block of another length, beside its own length. -/
inductive SentPlane (plane : Buffer) : Buffer → ℕ → Prop
  | verbatim : SentPlane plane plane plane.length
  | compressed (b : Lz4.Block) (hb : b.WellFormed) (houtput : b.output = plane)
      (hlength : b.bytes.length ≠ plane.length) : SentPlane plane b.bytes plane.length

/-- The two bits of a value. -/
def MapCellValue.bits : MapCellValue → Fin 4
  | unknown => 0
  | obstacle => 1
  | free => 2
  | carpet => 3

/-- The plane of a map: its cells by two bits, with whatever follows in the last byte and behind. -/
def mapPlane (width height : ℕ) (grid : ℕ → ℕ → MapCellValue) (rest : List (Fin 4)) : Buffer :=
  Grid.packFour ((Grid.rowMajor width height grid).map MapCellValue.bits ++ rest)

/-- A cell of an outline: a room, and two bits below its id. -/
structure RoomCell where
  id : Fin 64
  subType : Fin 4

def RoomCell.byte (cell : RoomCell) : UInt8 := UInt8.ofNat (cell.id * 4 + cell.subType)

/-- The plane of an outline, with whatever follows. -/
def outlinePlane (width height : ℕ) (grid : ℕ → ℕ → RoomCell) (rest : Buffer) : Buffer :=
  (Grid.rowMajor width height grid).map RoomCell.byte ++ rest

section Frames

variable (codec : RawDpCodec) (raw : String) (width height : ℕ) (pixels : Buffer) (pixelSize : ℕ)

/-- A frame of a map with dimensions and pixels. -/
def MapFrame : Prop :=
  ∃ fields, codec.decode raw = some fields ∧
    ProtoRead.int (ProtoRead.sub codec (some fields) MAP.INFO) MAP_INFO.WIDTH = width ∧
    ProtoRead.int (ProtoRead.sub codec (some fields) MAP.INFO) MAP_INFO.HEIGHT = height ∧
    (∃ number, ProtoRead.find (some fields) MAP.PIXELS = some (.bytes number pixels)) ∧
    ProtoRead.int (some fields) MAP.PIXEL_SIZE = pixelSize

/-- A frame of an outline with dimensions and pixels. -/
def OutlineFrame : Prop :=
  ∃ fields, codec.decode raw = some fields ∧
    ProtoRead.int (some fields) OUTLINE.WIDTH = width ∧
    ProtoRead.int (some fields) OUTLINE.HEIGHT = height ∧
    (∃ number, ProtoRead.find (some fields) OUTLINE.PIXELS = some (.bytes number pixels)) ∧
    ProtoRead.int (some fields) OUTLINE.PIXEL_SIZE = pixelSize

end Frames

/-! ### Accepted planes -/

theorem SentPlane.pixelSize {plane pixels : Buffer} {size : ℕ} (h : SentPlane plane pixels size) :
    size = plane.length := by
  cases h <;> rfl

/-- A plane that is read has the declared size. -/
theorem length_planeOf {fields : Option (List RawDpField)} {pixels size : ℕ} {needed : ℚ}
    {plane : Buffer} (h : planeOf fields pixels size needed = some plane) :
    needed ≤ plane.length ∧ (plane.length : ℤ) = ProtoRead.int fields size := by
  obtain ⟨raw, -, h⟩ := Option.bind_eq_some_iff.mp h
  obtain ⟨decoded, hdecoded, h⟩ := Option.bind_eq_some_iff.mp h
  split_ifs at h with hneeded
  obtain rfl := Option.some.inj h
  refine ⟨hneeded, ?_⟩
  split_ifs at hdecoded with hsame
  · exact Option.some.inj hdecoded ▸ hsame
  · exact length_lz4BlockDecompress hdecoded

/-- A plane that was sent is read if it is long enough. -/
theorem planeOf_sent {fields : Option (List RawDpField)} {pixels size number declared : ℕ}
    {needed : ℚ} {plane bytes : Buffer} (hsent : SentPlane plane bytes declared)
    (hmost : plane.length ≤ MAX_OUTPUT) (hplane : plane ≠ [])
    (hbytes : ProtoRead.find fields pixels = some (.bytes number bytes))
    (hsize : ProtoRead.int fields size = declared) (hneeded : needed ≤ plane.length) :
    planeOf fields pixels size needed = some plane := by
  have hread (h : bytes ≠ []) : ProtoRead.bytes fields pixels = some bytes := by
    rw [ProtoRead.bytes, hbytes]
    exact if_neg h
  cases hsent with
  | verbatim =>
    rw [planeOf, hread hplane, hsize]
    simp [hneeded]
  | compressed b hb houtput hlength =>
    have hblock : b.bytes ≠ [] := by simp [Lz4.Block.bytes, Lz4.Block.lastBytes]
    have hdecompressed := lz4BlockDecompress_bytes hb (houtput ▸ hmost)
    rw [houtput] at hdecompressed
    rw [planeOf, hread hblock, hsize]
    simp [hlength, hdecompressed, hneeded]

section Grids

variable {width height : ℕ}

/-- Dimensions within bounds are each within bounds. -/
theorem dimensions_lt (hwidth : 0 < width) (hheight : 0 < height) (hgrid : width * height < 2 ^ 31) :
    width < 2 ^ 31 ∧ height < 2 ^ 31 :=
  ⟨lt_of_le_of_lt (Nat.le_mul_of_pos_right width hheight) hgrid,
    lt_of_le_of_lt (Nat.le_mul_of_pos_left height hwidth) hgrid⟩

theorem double_grid (hgrid : width * height < 2 ^ 31) :
    double (((width : ℤ) : ℚ) * ((height : ℤ) : ℚ)) = (width * height : ℕ) := by
  have hdouble := double_natCast (n := width * height) (by omega)
  push_cast at hdouble ⊢
  exact hdouble

/-- Four cells to the byte, rounded up. -/
theorem needed_le_iff (hgrid : width * height < 2 ^ 31) (length : ℕ) :
    ((⌈double (((width : ℤ) : ℚ) * ((height : ℤ) : ℚ)) / 4⌉ : ℤ) : ℚ) ≤ length ↔
      width * height ≤ 4 * length := by
  rw [double_grid hgrid, ← Int.cast_natCast length, Int.cast_le, Int.ceil_le,
    div_le_iff₀ (by norm_num)]
  push_cast
  constructor
  · intro h
    have h' : ((width * height : ℕ) : ℚ) ≤ ((length * 4 : ℕ) : ℚ) := by
      push_cast
      exact h
    have := Nat.cast_le.mp h'
    omega
  · intro h
    have h' : ((width * height : ℕ) : ℚ) ≤ ((length * 4 : ℕ) : ℚ) := Nat.cast_le.mpr (by omega)
    push_cast at h'
    exact h'

variable {codec : RawDpCodec} {toText : Buffer → String} {raw : String} {pixels plane : Buffer}
variable {size : ℕ}

variable (toText) in
/-- A map is accepted with its grid and the plane that was sent. -/
theorem decodeVacuumMap_sent (hframe : MapFrame codec raw width height pixels size)
    (hwidth : 0 < width) (hheight : 0 < height) (hgrid : width * height < 2 ^ 31)
    (hsent : SentPlane plane pixels size) (hmost : plane.length ≤ MAX_OUTPUT)
    (hlong : width * height ≤ 4 * plane.length) :
    ∃ map, decodeVacuumMap codec toText raw = some map ∧ map.geometry.width = width ∧
      map.geometry.height = height ∧ map.cells = plane := by
  obtain ⟨fields, hdecode, hw, hh, ⟨number, hpixels⟩, hsize⟩ := hframe
  have hplane : plane ≠ [] := by
    rintro rfl
    have := Nat.mul_pos hwidth hheight
    simp at hlong
    omega
  obtain ⟨geometry, hgeometry, hgw, hgh⟩ : ∃ geometry,
      geometryOf codec (ProtoRead.sub codec (some fields) MAP.INFO) = some geometry ∧
        geometry.width = width ∧ geometry.height = height := by
    rw [geometryOf, hw, hh, if_neg (by omega)]
    exact ⟨_, rfl, rfl, rfl⟩
  have hneeded := (needed_le_iff hgrid plane.length).mpr hlong
  rw [← hgw, ← hgh] at hneeded
  have hcells := planeOf_sent hsent hmost hplane hpixels hsize hneeded
  rw [decodeVacuumMap, hdecode]
  simp only [Option.bind_eq_bind, Option.bind_some, hgeometry, hcells]
  exact ⟨_, rfl, hgw, hgh, rfl⟩

/-- A map is rejected whose plane is too short for its grid. -/
theorem decodeVacuumMap_short (hframe : MapFrame codec raw width height pixels size)
    (hgrid : width * height < 2 ^ 31) (hshort : 4 * size < width * height) :
    decodeVacuumMap codec toText raw = none := by
  obtain ⟨fields, hdecode, hw, hh, -, hsize⟩ := hframe
  rw [Option.eq_none_iff_forall_ne_some]
  intro map hmap
  rw [decodeVacuumMap, hdecode] at hmap
  simp only [Option.bind_eq_bind, Option.bind_some] at hmap
  obtain ⟨geometry, hgeometry, hmap⟩ := Option.bind_eq_some_iff.mp hmap
  obtain ⟨cells, hcells, -⟩ := Option.bind_eq_some_iff.mp hmap
  obtain ⟨hneeded, hlength⟩ := length_planeOf hcells
  have hdimensions : geometry.width = width ∧ geometry.height = height := by
    rw [geometryOf, hw, hh] at hgeometry
    split_ifs at hgeometry
    obtain rfl := Option.some.inj hgeometry
    exact ⟨rfl, rfl⟩
  rw [hdimensions.1, hdimensions.2, needed_le_iff hgrid] at hneeded
  omega

/-- An outline is accepted with its grid and the plane that was sent. -/
theorem decodeVacuumRoomOutline_sent (hframe : OutlineFrame codec raw width height pixels size)
    (hwidth : 0 < width) (hheight : 0 < height) (hgrid : width * height < 2 ^ 31)
    (hsent : SentPlane plane pixels size) (hmost : plane.length ≤ MAX_OUTPUT)
    (hlong : width * height ≤ plane.length) :
    ∃ outline, decodeVacuumRoomOutline codec raw = some outline ∧ outline.width = width ∧
      outline.height = height ∧ outline.cells = plane := by
  obtain ⟨fields, hdecode, hw, hh, ⟨number, hpixels⟩, hsize⟩ := hframe
  have hplane : plane ≠ [] := by
    rintro rfl
    have := Nat.mul_pos hwidth hheight
    simp at hlong
    omega
  have hneeded : double (((width : ℤ) : ℚ) * ((height : ℤ) : ℚ)) ≤ plane.length := by
    rw [double_grid hgrid]
    exact_mod_cast hlong
  have hcells := planeOf_sent hsent hmost hplane hpixels hsize hneeded
  rw [decodeVacuumRoomOutline, hdecode]
  simp only [Option.bind_eq_bind, Option.bind_some, hw, hh, hcells]
  rw [if_neg (by omega)]
  exact ⟨_, rfl, rfl, rfl, rfl⟩

/-- An outline is rejected whose plane is too short for its grid. -/
theorem decodeVacuumRoomOutline_short (hframe : OutlineFrame codec raw width height pixels size)
    (hgrid : width * height < 2 ^ 31) (hshort : size < width * height) :
    decodeVacuumRoomOutline codec raw = none := by
  obtain ⟨fields, hdecode, hw, hh, -, hsize⟩ := hframe
  rw [Option.eq_none_iff_forall_ne_some]
  intro outline houtline
  rw [decodeVacuumRoomOutline, hdecode] at houtline
  simp only [Option.bind_eq_bind, Option.bind_some, hw, hh] at houtline
  split_ifs at houtline
  obtain ⟨cells, hcells, -⟩ := Option.bind_eq_some_iff.mp houtline
  obtain ⟨hneeded, hlength⟩ := length_planeOf hcells
  rw [double_grid hgrid] at hneeded
  have hlong : width * height ≤ cells.length := by exact_mod_cast hneeded
  omega

/-! ### Cells -/

theorem elemAt_natCast {α : Type} (list : List α) (i : ℕ) : elemAt list i = list[i]? := by
  rw [elemAt, if_neg (by omega), Int.toNat_natCast]

variable {col row : ℕ}

theorem not_outside (hcol : col < width) (hrow : row < height) :
    ¬(⟨col, row⟩ : MapCell).outside width height := by
  simp only [MapCell.outside]
  omega

/-- The place of a cell of a grid, without rounding. -/
theorem place_natCast (hcol : col < width) (hrow : row < height) (hgrid : width * height < 2 ^ 31) :
    (⟨col, row⟩ : MapCell).place width = (row * width + col : ℕ) := by
  have hplace := Grid.place_lt hcol hrow
  have hproduct := double_natCast (n := row * width) (by omega)
  have hsum := double_natCast (n := row * width + col) (by omega)
  rw [MapCell.place]
  push_cast at hproduct hsum ⊢
  rw [hproduct, hsum]
  exact_mod_cast Int.floor_natCast (R := ℚ) (row * width + col)

theorem getElem?_bits (value : MapCellValue) : MAP_CELL_VALUES[(value.bits : ℕ)]? = some value := by
  cases value <;> rfl

/-- A cell of a packed map is read. -/
theorem mapCellValue_mapPlane {map : VacuumMapPlane} (hw : map.geometry.width = width)
    (hh : map.geometry.height = height) {grid : ℕ → ℕ → MapCellValue} {rest : List (Fin 4)}
    (hcells : map.cells = mapPlane width height grid rest) (hgrid : width * height < 2 ^ 31)
    (hcol : col < width) (hrow : row < height) :
    mapCellValue map ⟨col, row⟩ = some (grid col row) := by
  have hplace := Grid.place_lt hcol hrow
  have hdigit : ((Grid.rowMajor width height grid).map MapCellValue.bits ++ rest)[row * width + col]? =
      some (grid col row).bits := by
    rw [List.getElem?_append_left (by simpa using hplace), List.getElem?_map,
      Grid.getElem?_rowMajor grid hcol hrow]
    rfl
  obtain ⟨byte, hbyte, hbits⟩ := Grid.getElem?_packFour hdigit
  rw [mapCellValue, hw, hh, if_neg (not_outside hcol hrow)]
  rw [place_natCast hcol hrow hgrid, toInt32_natCast (by omega)]
  have hshift : ((row * width + col : ℕ) : ℤ) >>> (2 : ℕ) = ((row * width + col) / 4 : ℕ) := by
    rw [Int.shiftRight_eq_div_pow]
    omega
  have hmod : (((row * width + col : ℕ) : ℤ) % 4).toNat = (row * width + col) % 4 := by omega
  simp only [hshift, hmod, elemAt_natCast, hcells, mapPlane, hbyte, Option.bind_eq_bind,
    Option.bind_some, hbits]
  exact getElem?_bits (grid col row)

/-- A cell of a packed outline is read. -/
theorem roomIdAt_outlinePlane {outline : VacuumRoomOutline} (hw : outline.width = width)
    (hh : outline.height = height) {grid : ℕ → ℕ → RoomCell} {rest : Buffer}
    (hcells : outline.cells = outlinePlane width height grid rest) (hgrid : width * height < 2 ^ 31)
    (hcol : col < width) (hrow : row < height) :
    roomIdAt outline ⟨col, row⟩ =
      if (grid col row).id.val = 0 then none else some (grid col row).id.val := by
  have hplace := Grid.place_lt hcol hrow
  have hbyte : outline.cells[row * width + col]? = some (grid col row).byte := by
    rw [hcells, outlinePlane, List.getElem?_append_left (by simpa using hplace), List.getElem?_map,
      Grid.getElem?_rowMajor grid hcol hrow]
    rfl
  have hid : (grid col row).byte.toNat >>> 2 = (grid col row).id := by
    rw [RoomCell.byte, UInt8.toNat_ofNat', Nat.shiftRight_eq_div_pow]
    omega
  rw [roomIdAt, hw, hh, if_neg (not_outside hcol hrow), place_natCast hcol hrow hgrid, elemAt_natCast,
    hbyte]
  simp only [Option.bind_eq_bind, Option.bind_some, hid]

end Grids

/-! ### Points -/

/-- An anchor along an axis leads back to its index. -/
theorem nearest_along {index : ℕ} {resolution origin : ℤ} (hindex : index < 2 ^ 53)
    (hresolution : 0 < resolution) (hproduct : index * resolution < 2 ^ 53)
    (hsum : |origin + index * resolution| < 2 ^ 53) :
    JsNumber.round (double (double (double (origin + double ((index : ℤ) * resolution)) - origin) /
      resolution)) = index := by
  have hnonneg : 0 ≤ index * resolution := mul_nonneg (Int.natCast_nonneg index) hresolution.le
  have hoffset : double ((index * resolution : ℤ) : ℚ) = (index * resolution : ℤ) :=
    double_intCast (abs_lt.mpr ⟨by omega, hproduct⟩)
  have hanchor : double ((origin + index * resolution : ℤ) : ℚ) = (origin + index * resolution : ℤ) :=
    double_intCast hsum
  have hback : ((origin + index * resolution : ℤ) : ℚ) - origin = (index * resolution : ℤ) := by
    push_cast
    ring
  have hquotient : ((index * resolution : ℤ) : ℚ) / resolution = index := by
    have hne : (resolution : ℚ) ≠ 0 := by exact_mod_cast hresolution.ne'
    push_cast
    field_simp
  rw [← Int.cast_mul, hoffset, ← Int.cast_add, hanchor, hback, hoffset, hquotient,
    double_natCast hindex, JsNumber.round, Int.floor_natCast_add]
  norm_num

/-- **Cells and points round-trip** while whole numbers are exact. -/
theorem cellAtPoint_pointAtCell {plane : PlacedPlane} {width height : ℕ} (hw : plane.width = width)
    (hh : plane.height = height) (hwidth : width < 2 ^ 31) (hheight : height < 2 ^ 31)
    {resolution x y : ℤ} (hresolution : 0 < resolution) (hscale : plane.resolution = some resolution)
    (horigin : plane.origin = ⟨x, y⟩) {col row : ℕ} (hcol : col < width) (hrow : row < height)
    (hcolumns : col * resolution < 2 ^ 53) (hrows : row * resolution < 2 ^ 53)
    (hx : |x + col * resolution| < 2 ^ 53) (hy : |y + row * resolution| < 2 ^ 53) :
    (pointAtCell plane ⟨col, row⟩).bind (cellAtPoint plane) = some ⟨col, row⟩ := by
  have hin : ¬(⟨col, row⟩ : MapCell).outside plane.width plane.height := by
    rw [hw, hh]
    exact not_outside hcol hrow
  have hcol' := nearest_along (by omega) hresolution hcolumns hx
  have hrow' := nearest_along (by omega) hresolution hrows hy
  have hpoint : pointAtCell plane ⟨col, row⟩ =
      some ⟨double (x + double ((col : ℤ) * resolution)),
        double (y + double ((row : ℤ) * resolution))⟩ := by
    rw [pointAtCell, hscale, Option.bind_eq_bind, Option.bind_some, if_neg hresolution.ne',
      if_neg hin, horigin]
  rw [hpoint, Option.bind_some, cellAtPoint, hscale, Option.bind_eq_bind, Option.bind_some,
    if_neg hresolution.ne']
  simp only [horigin, hcol', hrow']
  rw [if_neg hin]

/-- Where cells and points round-trip, what is read at a cell's point is what is read at the cell. -/
theorem bind_anchor {α : Type} {plane : PlacedPlane} {cell : MapCell} (read : MapCell → Option α)
    (h : (pointAtCell plane cell).bind (cellAtPoint plane) = some cell) :
    ((pointAtCell plane cell).bind fun point => (cellAtPoint plane point).bind read) = read cell := by
  rw [← Option.bind_assoc, h, Option.bind_some]

theorem mapCellValueAt_anchor {map : VacuumMapPlane} {cell : MapCell}
    (h : (pointAtCell map.geometry.placed cell).bind (cellAtPoint map.geometry.placed) = some cell) :
    (pointAtCell map.geometry.placed cell).bind (mapCellValueAt map) = mapCellValue map cell :=
  bind_anchor (mapCellValue map) h

theorem roomIdAtPoint_anchor {outline : VacuumRoomOutline} {cell : MapCell}
    (h : (pointAtCell outline.placed cell).bind (cellAtPoint outline.placed) = some cell) :
    (pointAtCell outline.placed cell).bind (roomIdAtPoint outline) = roomIdAt outline cell :=
  bind_anchor (roomIdAt outline) h

/-! ### Planes there and back -/

theorem length_mapPlane (width height : ℕ) (grid : ℕ → ℕ → MapCellValue) (rest : List (Fin 4)) :
    (mapPlane width height grid rest).length = (width * height + rest.length + 3) / 4 := by
  rw [mapPlane, Grid.length_packFour, List.length_append, List.length_map, Grid.length_rowMajor]

theorem length_outlinePlane (width height : ℕ) (grid : ℕ → ℕ → RoomCell) (rest : Buffer) :
    (outlinePlane width height grid rest).length = width * height + rest.length := by
  rw [outlinePlane, List.length_append, List.length_map, Grid.length_rowMajor]

/-- **Planes are read cell for cell**, however they are sent; those too short for their grid are
rejected; and the cells of any plane with such a grid are those of their points, as long as offsets
and coordinates are below 2^53. -/
theorem planes_read_back (codec : RawDpCodec) (toText : Buffer → String) (raw : String)
    {width height : ℕ} (hwidth : 0 < width) (hheight : 0 < height) (hgrid : width * height < 2 ^ 31)
    {plane pixels : Buffer} {size : ℕ} (hsent : SentPlane plane pixels size) :
    (MapFrame codec raw width height pixels size →
      (∀ grid rest, plane = mapPlane width height grid rest → plane.length ≤ MAX_OUTPUT →
        ∃ map, decodeVacuumMap codec toText raw = some map ∧
          ∀ col < width, ∀ row < height, mapCellValue map ⟨col, row⟩ = some (grid col row)) ∧
      (4 * plane.length < width * height → decodeVacuumMap codec toText raw = none)) ∧
    (OutlineFrame codec raw width height pixels size →
      (∀ grid rest, plane = outlinePlane width height grid rest → plane.length ≤ MAX_OUTPUT →
        ∃ outline, decodeVacuumRoomOutline codec raw = some outline ∧
          ∀ col < width, ∀ row < height, roomIdAt outline ⟨col, row⟩ =
            if (grid col row).id.val = 0 then none else some (grid col row).id.val) ∧
      (plane.length < width * height → decodeVacuumRoomOutline codec raw = none)) ∧
    ∀ (placed : PlacedPlane) (resolution x y : ℤ), placed.width = width → placed.height = height →
      0 < resolution → placed.resolution = some resolution → placed.origin = ⟨x, y⟩ →
        ∀ col < width, ∀ row < height,
          col * resolution < 2 ^ 53 → row * resolution < 2 ^ 53 →
          |x + col * resolution| < 2 ^ 53 → |y + row * resolution| < 2 ^ 53 →
            (pointAtCell placed ⟨col, row⟩).bind (cellAtPoint placed) = some ⟨col, row⟩ := by
  obtain ⟨hw, hh⟩ := dimensions_lt hwidth hheight hgrid
  refine ⟨fun hframe => ⟨?_, ?_⟩, fun hframe => ⟨?_, ?_⟩, ?_⟩
  · intro grid rest hplane hmost
    have hlength := length_mapPlane width height grid rest
    rw [← hplane] at hlength
    obtain ⟨map, hmap, hmw, hmh, hcells⟩ :=
      decodeVacuumMap_sent toText hframe hwidth hheight hgrid hsent hmost (by omega)
    exact ⟨map, hmap, fun col hcol row hrow =>
      mapCellValue_mapPlane hmw hmh (hcells.trans hplane) hgrid hcol hrow⟩
  · intro hshort
    exact decodeVacuumMap_short hframe hgrid (hsent.pixelSize ▸ hshort)
  · intro grid rest hplane hmost
    have hlength := length_outlinePlane width height grid rest
    rw [← hplane] at hlength
    obtain ⟨outline, houtline, how, hoh, hcells⟩ :=
      decodeVacuumRoomOutline_sent hframe hwidth hheight hgrid hsent hmost (by omega)
    exact ⟨outline, houtline, fun col hcol row hrow =>
      roomIdAt_outlinePlane how hoh (hcells.trans hplane) hgrid hcol hrow⟩
  · intro hshort
    exact decodeVacuumRoomOutline_short hframe hgrid (hsent.pixelSize ▸ hshort)
  · intro placed resolution x y hpw hph hresolution hscale horigin col hcol row hrow
    exact cellAtPoint_pointAtCell hpw hph hw hh hresolution hscale horigin hcol hrow

/-! ### A wall -/

/-- A wall of 128 cells as one byte, a match of the 26 behind it, and the last five. -/
def wallBlock : Lz4.Block := ⟨[⟨[0x55], 1, 22⟩], [0x55, 0x55, 0x55, 0x55, 0x55]⟩

/-- The frame of the wall, 16 cells by 8. -/
def wallFields : List Field :=
  [.bytes MAP.PIXELS wallBlock.bytes, .int MAP.PIXEL_SIZE 32,
    .sub MAP.INFO [.int MAP_INFO.WIDTH 16, .int MAP_INFO.HEIGHT 8]]

theorem mapFrame_wall :
    MapFrame (rawDpCodec wireFormat) (String.ofList (text wallFields)) 16 8 wallBlock.bytes 32 := by
  have hallowed : AllowedAll wallFields := by
    simp [wallFields, AllowedAll, Field.Allowed, fieldAllowed, isSafeInteger, MAP.PIXELS,
      MAP.PIXEL_SIZE, MAP.INFO, MAP_INFO.WIDTH, MAP_INFO.HEIGHT]
  have hdecode := decode_text lawful_wireFormat hallowed (by decide)
  have hinfo : ProtoRead.sub (rawDpCodec wireFormat) (some (wallFields.map Field.read)) MAP.INFO =
      some ([.int MAP_INFO.WIDTH 16, .int MAP_INFO.HEIGHT 8].map Field.read) :=
    sub_of_find lawful_wireFormat rfl hallowed.2.2.1.2 (by decide)
  refine ⟨_, hdecode, ?_, ?_, ⟨4, rfl⟩, rfl⟩
  · rw [hinfo]
    rfl
  · rw [hinfo]
    rfl

theorem wall_read_back :
    ∃ map, decodeVacuumMap (rawDpCodec wireFormat) (fun _ => "") (String.ofList (text wallFields)) =
        some map ∧
      ∀ col row : ℕ, col < 16 → row < 8 → mapCellValue map ⟨col, row⟩ = some .obstacle := by
  have hsent : SentPlane (List.replicate 32 0x55) wallBlock.bytes 32 :=
    .compressed wallBlock (by simp [Lz4.Block.WellFormed, wallBlock, Lz4.ReachBack]) (by decide)
      (by decide)
  have hread := (planes_read_back (rawDpCodec wireFormat) (fun _ => "") _ (by decide) (by decide)
    (by decide) hsent).1 mapFrame_wall
  obtain ⟨map, hmap, hcells⟩ := hread.1 (fun _ _ => .obstacle) [] (by decide) (by decide)
  exact ⟨map, hmap, fun col row hcol => hcells col hcol row⟩

end EufySdk
