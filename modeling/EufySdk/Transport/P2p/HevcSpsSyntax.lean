import Mathlib.Tactic
import EufySdk.Transport.P2p.SpsSyntax

/-!
# The H.265 sequence parameter set

The syntax of the standard as a tree, its code, and the size of the cropped picture it declares.
The records of the sub-layers stand in front of the size, each half of one only where a flag says
so. `h265Geometry` of `transport/p2p/annexb.ts` answers the size of the tree.

- `Sps` — the syntax tree, `Sps.encode` its code up to the conformance window
- `Sps.croppedSize` — the size by the standard
- `reads_h265Geometry` — what the parse takes and answers
-/

namespace EufySdk.H265

open Bytes BitStrings Reading RbspReader H264

/-- The profile of a `profile_tier_level` or of one of its sub-layers. -/
structure Profile where
  profileSpace : Fin 4
  tierFlag : Bool
  profileIdc : Fin 32
  profileCompatibilityFlags : BitVec 32
  /-- The source flags and the bits that are reserved or belong to single profiles. -/
  constraintFlags : BitVec 48

def Profile.encode (p : Profile) : List Bool :=
  [ofNat 2 p.profileSpace, [p.tierFlag], ofNat 5 p.profileIdc,
    ofNat 32 p.profileCompatibilityFlags.toNat, ofNat 48 p.constraintFlags.toNat].flatten

structure SubLayer where
  profile : Option Profile
  levelIdc : Option UInt8

def SubLayer.encodePresent (s : SubLayer) : List Bool := [s.profile.isSome, s.levelIdc.isSome]

def SubLayer.encode (s : SubLayer) : List Bool :=
  (s.profile.map Profile.encode).getD [] ++
    (s.levelIdc.map fun level => ofNat 8 level.toNat).getD []

/-- `profile_tier_level`, with the sub-layers below the highest. -/
structure ProfileTierLevel where
  general : Profile
  generalLevelIdc : UInt8
  subLayers : List SubLayer
  maxSubLayersMinus1_le : subLayers.length ≤ 6

/-- The flags of the sub-layers are filled up to eight pairs where there are any. -/
def encodeSubLayers (subLayers : List SubLayer) : List Bool :=
  [subLayers.flatMap SubLayer.encodePresent,
    if subLayers = [] then [] else List.replicate (2 * (8 - subLayers.length)) false,
    subLayers.flatMap SubLayer.encode].flatten

def ProfileTierLevel.encode (p : ProfileTierLevel) : List Bool :=
  [p.general.encode, ofNat 8 p.generalLevelIdc.toNat, encodeSubLayers p.subLayers].flatten

/-- The format of the chroma samples, with a flag where there are as many of them as luma ones. -/
structure ChromaFormat where
  chromaFormatIdc : ℕ
  format_le : chromaFormatIdc ≤ 3
  separateColourPlane : Bool

def ChromaFormat.encode (c : ChromaFormat) : List Bool :=
  expGolomb c.chromaFormatIdc ++ if c.chromaFormatIdc = 3 then [c.separateColourPlane] else []

/-- A sequence parameter set up to its conformance window. -/
structure Sps where
  videoParameterSetId : Fin 16
  temporalIdNesting : Bool
  profileTierLevel : ProfileTierLevel
  seqParameterSetId : Ue
  chroma : ChromaFormat
  picWidthInLumaSamples : Ue
  picHeightInLumaSamples : Ue
  conformanceWindow : Option FrameCropping

def Sps.encode (s : Sps) : List Bool :=
  [ofNat 4 s.videoParameterSetId, ofNat 3 s.profileTierLevel.subLayers.length,
    [s.temporalIdNesting], s.profileTierLevel.encode, expGolomb s.seqParameterSetId,
    s.chroma.encode, expGolomb s.picWidthInLumaSamples, expGolomb s.picHeightInLumaSamples,
    encodeCropping s.conformanceWindow].flatten

/-- `SubWidthC`, which is 1 for a picture without chroma. -/
def subWidthC (chromaFormatIdc : ℕ) : ℤ :=
  if chromaFormatIdc = 1 ∨ chromaFormatIdc = 2 then 2 else 1

/-- `SubHeightC`, which is 1 for a picture without chroma. -/
def subHeightC (chromaFormatIdc : ℕ) : ℤ := if chromaFormatIdc = 1 then 2 else 1

/-- The size of the conformance window in luma samples. -/
def Sps.croppedSize (s : Sps) : Size :=
  match s.conformanceWindow with
  | none => ⟨s.picWidthInLumaSamples.1, s.picHeightInLumaSamples.1⟩
  | some w =>
    ⟨s.picWidthInLumaSamples.1 - subWidthC s.chroma.chromaFormatIdc * (w.left + w.right),
      s.picHeightInLumaSamples.1 - subHeightC s.chroma.chromaFormatIdc * (w.top + w.bottom)⟩

/-! ### What the parse takes -/

theorem Profile.length_encode (p : Profile) : p.encode.length = 88 := by
  simp [encode, length_ofNat]

/-- A record is passed over in three fields, whatever it says. -/
theorem reads_record {α : Type} {w w' : List Bool} (hw : w.length = 88) {m : StateM RbspReader α}
    {a : α} (h : Reads Ahead m w' a) :
    Reads Ahead (do
      let _ ← u 32
      let _ ← u 32
      let _ ← u 24
      m) (w ++ w') a := by
  have hparts : w = w.take 32 ++ ((w.drop 32).take 32 ++ (w.drop 32).drop 32) := by
    rw [List.take_append_drop, List.take_append_drop]
  rw [hparts, List.append_assoc, List.append_assoc]
  refine (reads_u (by simp [hw])).bind ?_
  refine (reads_u (by simp [hw])).bind ?_
  exact (reads_u (by simp [hw])).bind h

theorem reads_present (s : SubLayer) :
    Reads Ahead (do
      let profile ← flag
      let level ← flag
      return (profile, level)) s.encodePresent (s.profile.isSome, s.levelIdc.isSome) := by
  rw [SubLayer.encodePresent, ← List.singleton_append]
  exact (reads_flag _).bind ((reads_flag _).bind_answer (.answer _))

/-- The halves of a sub-layer's record that are there. -/
theorem SubLayer.reads (s : SubLayer) :
    Reads Ahead (do
      if s.profile.isSome then
        let _ ← u 32
        let _ ← u 32
        let _ ← u 24
      if s.levelIdc.isSome then
        let _ ← u 8) s.encode () := by
  have hlevel : Reads Ahead (do
      if s.levelIdc.isSome then
        let _ ← u 8) ((s.levelIdc.map fun level => ofNat 8 level.toNat).getD []) () := by
    cases s.levelIdc with
    | none => exact .answer ()
    | some level => exact (reads_byte level).bind_answer (.answer ())
  rw [encode]
  cases s.profile with
  | none => exact hlevel
  | some p => exact reads_record p.length_encode hlevel

theorem reads_reserved (count : ℕ) :
    Reads Ahead ((List.replicate count ()).forM fun _ => do
      let _ ← u 2) (List.replicate (2 * count) false) () := by
  have hbits : (List.replicate count ()).flatMap (fun _ => [false, false]) =
      List.replicate (2 * count) false := by
    induction count with
    | zero => rfl
    | succ count ih =>
      rw [List.replicate_succ, List.flatMap_cons, ih]
      rfl
  have hfield : Reads Ahead (do
      let _ ← u 2) [false, false] () := (reads_u rfl).bind_answer (.answer ())
  have hread : Reads Ahead (((List.replicate count ()).map id).forM fun _ => do
      let _ ← u 2) _ () := Reads.forM _ fun _ => hfield
  rwa [List.map_id, hbits] at hread

/-- The sub-layers, however many and with whichever halves. -/
theorem reads_subLayers (subLayers : List SubLayer) :
    Reads Ahead (RbspReader.subLayers subLayers.length) (encodeSubLayers subLayers) () := by
  rw [RbspReader.subLayers, encodeSubLayers]
  simp only [List.flatten_cons, List.flatten_nil, List.append_nil]
  refine (Reads.mapM subLayers reads_present).bind ?_
  cases subLayers with
  | nil => exact .answer ()
  | cons s subLayers =>
    refine (reads_reserved _).bind (Reads.forM (s :: subLayers) fun x => ?_)
    exact x.reads

/-- What the parse answers. -/
def Sps.geometry (s : Sps) : CodedGeometry :=
  .ofWindow ⟨s.picWidthInLumaSamples.1, s.picHeightInLumaSamples.1⟩
    ((cropWindowOf s.conformanceWindow).scale (subWidthC s.chroma.chromaFormatIdc)
      (subHeightC s.chroma.chromaFormatIdc))

theorem Sps.geometry_toSize (s : Sps) : s.geometry.toSize = s.croppedSize := by
  rw [croppedSize]
  cases hwindow : s.conformanceWindow with
  | none =>
    simp only [geometry, hwindow, CodedGeometry.ofWindow, cropWindowOf, CropWindow.scale]
    simp
  | some w =>
    simp only [geometry, hwindow, CodedGeometry.ofWindow, cropWindowOf, CropWindow.scale]
    refine congrArg₂ Size.mk ?_ ?_ <;> ring

/-- The subsampling of the source is the factors of the standard. -/
theorem ChromaFormat.subsampling (c : ChromaFormat) :
    CHROMA_SUBSAMPLING c.chromaFormatIdc =
      some ⟨subWidthC c.chromaFormatIdc, subHeightC c.chromaFormatIdc⟩ := by
  have hformat := c.format_le
  generalize c.chromaFormatIdc = format at hformat ⊢
  interval_cases format <;> rfl

theorem ChromaFormat.reads (c : ChromaFormat) {α : Type} {w : List Bool}
    {m : ℕ → StateM RbspReader α} {a : α} (h : Reads Ahead (m c.chromaFormatIdc) w a) :
    Reads Ahead (do
      let chromaFormatIdc ← ue
      if chromaFormatIdc = 3 then
        let _ ← u 1
      m chromaFormatIdc) (c.encode ++ w) a := by
  have hformat := c.format_le
  rw [encode, List.append_assoc]
  refine (reads_ue (by omega)).bind ?_
  by_cases h444 : c.chromaFormatIdc = 3
  · rw [if_pos h444, if_pos h444]
    exact (reads_bit c.separateColourPlane).bind h
  · rw [if_neg h444, if_neg h444]
    exact h

/-- **The parse takes the whole set** up to its conformance window, and answers the geometry. -/
theorem Sps.reads_h265Geometry (s : Sps) :
    Reads Ahead readH265Geometry s.encode (some s.geometry) := by
  have hsubLayers := s.profileTierLevel.maxSubLayersMinus1_le
  rw [readH265Geometry, Sps.encode, ProfileTierLevel.encode]
  simp only [List.flatten_cons, List.flatten_nil, List.append_nil, List.append_assoc]
  refine (reads_u_ofNat s.videoParameterSetId.2).bind ?_
  refine (reads_u_ofNat (by omega)).bind ?_
  refine (reads_bit s.temporalIdNesting).bind ?_
  refine reads_record s.profileTierLevel.general.length_encode ?_
  refine (reads_byte s.profileTierLevel.generalLevelIdc).bind ?_
  refine (reads_subLayers s.profileTierLevel.subLayers).bind ?_
  refine (reads_ue_of s.seqParameterSetId).bind ?_
  refine s.chroma.reads ?_
  refine (reads_ue_of s.picWidthInLumaSamples).bind ?_
  refine (reads_ue_of s.picHeightInLumaSamples).bind ?_
  refine (reads_cropWindow s.conformanceWindow).bind_answer (reads_unless_failed ?_)
  rw [s.chroma.subsampling]
  exact .answer _

/-- **The geometry is the standard's.** Of a unit without escapes the size answered is that of the
conformance window of the set it begins with, whatever is behind the window's offsets. -/
theorem h265Geometry_encode (s : Sps) (header₀ header₁ : UInt8) {payload : Buffer}
    {rest : List Bool} (hcoded : ofBytes payload = s.encode ++ rest)
    (hfree : ¬EmulationPrevention.ESCAPED <:+: payload) :
    (h265Geometry (header₀ :: header₁ :: payload)).map CodedGeometry.toSize =
      some s.croppedSize := by
  have hahead := ahead_ofNal [header₀, header₁] hfree
  rw [hcoded] at hahead
  have hanswer : (readH265Geometry.run (.ofNal ([header₀, header₁] ++ payload) 2)).1 =
      some s.geometry := (s.reads_h265Geometry _ rest hahead).1
  rw [h265Geometry, ← s.geometry_toSize]
  exact congrArg (Option.map CodedGeometry.toSize) hanswer

/-- A set of two sub-layers, the lower one with a level of its own, with 128 by 96 samples of which
120 by 90 are shown. -/
def layeredSps : Sps where
  videoParameterSetId := 0
  temporalIdNesting := true
  profileTierLevel :=
    { general := ⟨⟨0, by decide⟩, false, 1, 0x60000000, 0x900000000000⟩
      generalLevelIdc := 93
      subLayers := [⟨none, some 90⟩]
      maxSubLayersMinus1_le := by decide }
  seqParameterSetId := Ue.zero
  chroma := ⟨1, by decide, false⟩
  picWidthInLumaSamples := ⟨128, by decide⟩
  picHeightInLumaSamples := ⟨96, by decide⟩
  conformanceWindow := some ⟨Ue.zero, ⟨4, by decide⟩, Ue.zero, ⟨3, by decide⟩⟩

theorem h265Geometry_encode_layered :
    (h265Geometry [0x42, 1, 3, 1, 0x60, 0, 0, 0, 0x90, 0, 0, 0, 0, 0, 93, 0x40, 0, 90, 0xa0, 0x10,
      0x20, 0x61, 0xcb, 0x20]).map CodedGeometry.toSize = some ⟨120, 90⟩ := by
  have hcoded : ofBytes [3, 1, 0x60, 0, 0, 0, 0x90, 0, 0, 0, 0, 0, 93, 0x40, 0, 90, 0xa0, 0x10,
      0x20, 0x61, 0xcb, 0x20] = layeredSps.encode ++ [false, false, false] := by decide +kernel
  exact h265Geometry_encode layeredSps 0x42 1 hcoded (by decide)

end EufySdk.H265
