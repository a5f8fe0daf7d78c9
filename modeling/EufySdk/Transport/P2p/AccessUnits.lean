import Mathlib.Tactic
import Mathlib.Data.List.DropRight
import EufySdk.Transport.P2p.Announcements
import EufySdk.Transport.P2p.NalSplitting

/-!
# Access units and their codec

An access unit as the byte stream format lays it out: each NAL unit behind a start code with any
number of zeros ahead of it. `transport/p2p/annexb.ts` finds all of them, names the codec by the
first one near the start whose header is that of a parameter set of one codec or the other, and
takes the parameter sets of that codec.

- `AccessUnit` — NAL units of one codec and the zeros between them
- `nalStartsFrom_encode`, `splitAnnexbNals_encode` — the units are found where they are
- `sniffAnnexbCodec_bytes` — whose header decides
-/

namespace EufySdk

open Bytes

/-- A NAL unit as a byte stream can carry it: no start code within, no zero at its end, and the
forbidden bit clear. -/
structure NalUnit where
  bytes : Buffer
  ne_nil : bytes ≠ []
  no_start_code : ¬[0, 0, 1] <:+: bytes
  last_ne_zero : bytes.getLast ne_nil ≠ 0
  forbidden_zero_bit : bytes.headD 0 < 128

/-- NAL units in the byte stream format, each with the number of zeros ahead of its start code. -/
def encodeNals : List (ℕ × NalUnit) → Buffer
  | [] => []
  | (zeros, nal) :: nals => List.replicate zeros 0 ++ ([0, 0, 1] ++ (nal.bytes ++ encodeNals nals))

/-- Where the units are that begin behind the byte at `i`. -/
def layout (i : ℕ) : List (ℕ × NalUnit) → List (ℕ × NalUnit)
  | [] => []
  | (zeros, nal) :: nals =>
    (i + zeros + 3, nal) :: layout (i + zeros + 3 + nal.bytes.length) nals

/-- What the scan finds: a start with a zero ahead of its code is found twice. -/
def foundStarts (i : ℕ) : List (ℕ × NalUnit) → List ℕ
  | [] => []
  | (zeros, nal) :: nals =>
    List.replicate (if zeros = 0 then 1 else 2) (i + zeros + 3) ++
      foundStarts (i + zeros + 3 + nal.bytes.length) nals

/-! ### The units as the split finds them -/

/-- The unit, its header aside. -/
def NalUnit.nal (nal : NalUnit) : Nal :=
  ⟨nal.bytes, nal.ne_nil, nal.no_start_code, by
    rw [List.getLast?_eq_some_getLast nal.ne_nil]
    exact fun h => nal.last_ne_zero (Option.some.inj h)⟩

/-- The units with the zeros ahead of them, their headers aside. -/
abbrev framedNals (nals : List (ℕ × NalUnit)) : List (ℕ × Nal) :=
  nals.map (Prod.map id NalUnit.nal)

theorem encodeNals_eq (nals : List (ℕ × NalUnit)) :
    encodeNals nals = frameNals (framedNals nals) := by
  induction nals with
  | nil => rfl
  | cons piece nals ih =>
    rw [encodeNals, ih]
    rfl

theorem foundStarts_eq (i : ℕ) (nals : List (ℕ × NalUnit)) :
    foundStarts i nals = framedStarts i (framedNals nals) := by
  induction nals generalizing i with
  | nil => rfl
  | cons piece nals ih =>
    rw [foundStarts, ih]
    rfl

/-- **Every unit is found where it is.** -/
theorem nalStartsFrom_encode (i trailing : ℕ) (nals : List (ℕ × NalUnit)) :
    nalStartsFrom i (encodeNals nals ++ List.replicate trailing 0) = foundStarts i nals := by
  rw [encodeNals_eq, foundStarts_eq]
  exact nalStartsFrom_frame i trailing (framedNals nals)

/-! ### The header that decides -/

/-- The codec whose parameter set a header is taken for. -/
def namedCodec (header : UInt8) : Option VideoCodec :=
  if hevcNalType header = 32 ∨ hevcNalType header = 33 ∨ hevcNalType header = 34 then some .h265
  else if h264NalType header = 7 ∨ h264NalType header = 8 then some .h264
  else none

def NalUnit.header (nal : NalUnit) : UInt8 := nal.bytes.headD 0

theorem namedCodec_cases (header : UInt8) :
    namedCodec header = none ∨ namedCodec header = some .h264 ∨
      namedCodec header = some .h265 := by
  rw [namedCodec]
  split_ifs
  · exact .inr (.inr rfl)
  · exact .inr (.inl rfl)
  · exact .inl rfl

theorem sniffFrom_cons (buf : Buffer) (p : ℕ) (starts : List ℕ) :
    sniffFrom buf (p :: starts) =
      if 64 < p then none else (namedCodec (buf.getD p 0)).or (sniffFrom buf starts) := by
  simp only [sniffFrom, namedCodec]
  split_ifs <;> rfl

/-- A start that is found twice decides once. -/
theorem sniffFrom_twice (buf : Buffer) (p : ℕ) (starts : List ℕ) :
    sniffFrom buf (p :: p :: starts) = sniffFrom buf (p :: starts) := by
  rw [sniffFrom_cons, sniffFrom_cons]
  split_ifs with hfar
  · rfl
  · rw [← Option.or_assoc, Option.or_self]

theorem le_of_mem_layout {i : ℕ} {nals : List (ℕ × NalUnit)} {piece : ℕ × NalUnit}
    (h : piece ∈ layout i nals) : i ≤ piece.1 := by
  induction nals generalizing i with
  | nil => exact absurd h List.not_mem_nil
  | cons first nals ih =>
    rcases List.mem_cons.mp h with rfl | hmem
    · simp only
      omega
    · have := ih hmem
      omega

/-- The bytes up to a unit, and those from it on. -/
theorem encodeNals_cons (front : Buffer) (zeros : ℕ) (nal : NalUnit) (nals : List (ℕ × NalUnit))
    (tail : Buffer) :
    ∃ code : Buffer, code.length = front.length + zeros + 3 ∧
      front ++ (encodeNals ((zeros, nal) :: nals) ++ tail) =
        code ++ (nal.bytes ++ (encodeNals nals ++ tail)) := by
  refine ⟨front ++ (List.replicate zeros 0 ++ [0, 0, 1]), ?_, ?_⟩
  · rw [List.length_append, List.length_append, List.length_replicate]
    rfl
  · simp only [encodeNals, List.append_assoc]

/-- The units that begin up to the 64th byte decide, the first of them that is taken for a
parameter set. -/
theorem sniffFrom_encode (front tail : Buffer) (nals : List (ℕ × NalUnit)) :
    sniffFrom (front ++ (encodeNals nals ++ tail)) (foundStarts front.length nals) =
      ((layout front.length nals).filter (·.1 ≤ 64)).findSome? (namedCodec ·.2.header) := by
  induction nals generalizing front with
  | nil => rfl
  | cons piece nals ih =>
    obtain ⟨zeros, nal⟩ := piece
    obtain ⟨code, hcode, hsplit⟩ := encodeNals_cons front zeros nal nals tail
    have hrest := ih (code ++ nal.bytes)
    rw [List.length_append, List.append_assoc, ← hsplit, hcode] at hrest
    have hheader : (front ++ (encodeNals ((zeros, nal) :: nals) ++ tail)).getD
        (front.length + zeros + 3) 0 = nal.header := by
      rw [hsplit, ← hcode, List.getD_eq_getElem?_getD, List.getElem?_append_right le_rfl,
        Nat.sub_self, NalUnit.header]
      obtain ⟨b, rest, hbytes⟩ := List.exists_cons_of_ne_nil nal.ne_nil
      rw [hbytes]
      rfl
    have honce : sniffFrom (front ++ (encodeNals ((zeros, nal) :: nals) ++ tail))
        (foundStarts front.length ((zeros, nal) :: nals)) =
        sniffFrom (front ++ (encodeNals ((zeros, nal) :: nals) ++ tail))
          ((front.length + zeros + 3) ::
            foundStarts (front.length + zeros + 3 + nal.bytes.length) nals) := by
      rw [foundStarts]
      split_ifs
      · rfl
      · exact sniffFrom_twice _ _ _
    rw [honce, sniffFrom_cons, hheader, layout]
    split_ifs with hfar
    · have hnone : ((front.length + zeros + 3, nal) :: layout
          (front.length + zeros + 3 + nal.bytes.length) nals).filter (·.1 ≤ 64) = [] := by
        rw [List.filter_eq_nil_iff]
        intro piece hpiece
        rw [decide_eq_true_eq, not_le]
        rcases List.mem_cons.mp hpiece with rfl | hlater
        · exact hfar
        · have hge := le_of_mem_layout hlater
          omega
      rw [hnone]
      rfl
    · rw [List.filter_cons_of_pos (by simpa using hfar), List.findSome?_cons, ← hrest]
      cases namedCodec nal.header <;> rfl

/-! ### The units -/

/-- The units as they are split: each with the zeros behind it, but for the one that the start code
of the next unit takes. -/
def padded (trailing : ℕ) : List (ℕ × NalUnit) → List Buffer
  | [] => []
  | [(_, nal)] => [nal.bytes ++ List.replicate trailing 0]
  | (_, nal) :: (zeros, next) :: nals =>
    (nal.bytes ++ List.replicate (zeros - 1) 0) :: padded trailing ((zeros, next) :: nals)

theorem padded_eq (trailing : ℕ) (nals : List (ℕ × NalUnit)) :
    padded trailing nals = framedBodies trailing (framedNals nals) := by
  induction nals using padded.induct with
  | case1 => rfl
  | case2 zeros nal => rfl
  | case3 zeros nal zeros' next nals ih =>
    rw [padded, ih]
    rfl

theorem splitAnnexbNals_encode (trailing : ℕ) (nals : List (ℕ × NalUnit)) :
    splitAnnexbNals (encodeNals nals ++ List.replicate trailing 0) = padded trailing nals := by
  rw [encodeNals_eq, padded_eq]
  exact splitAnnexbNals_frame (framedNals nals) trailing

/-! ### The codec and its parameter sets -/

/-- An access unit of one of the two codecs. -/
structure AccessUnit where
  hevc : Bool
  nals : List (ℕ × NalUnit)
  trailing : ℕ

namespace AccessUnit

def codec (unit : AccessUnit) : VideoCodec := if unit.hevc then .h265 else .h264

/-- The codec it is not of. -/
def otherCodec (unit : AccessUnit) : VideoCodec := if unit.hevc then .h264 else .h265

def bytes (unit : AccessUnit) : Buffer :=
  encodeNals unit.nals ++ List.replicate unit.trailing 0

/-- The units that begin up to the 64th byte. -/
def leading (unit : AccessUnit) : List NalUnit :=
  ((layout 0 unit.nals).filter (·.1 ≤ 64)).map (·.2)

/-- A header of a parameter set of its codec. -/
def IsSet (unit : AccessUnit) (kind : ParamKind) (header : UInt8) : Prop :=
  paramType unit.hevc kind = some (nalType unit.hevc header)

instance (unit : AccessUnit) (kind : ParamKind) (header : UInt8) :
    Decidable (unit.IsSet kind header) :=
  inferInstanceAs (Decidable (_ = _))

/-- A parameter set of its codec. -/
def IsOwn (unit : AccessUnit) (nal : NalUnit) : Prop := ∃ kind, unit.IsSet kind nal.header

/-- The parameter sets of one kind. -/
def setsOf (unit : AccessUnit) (kind : ParamKind) : List Buffer :=
  (unit.nals.map (·.2.bytes)).filter fun bytes => unit.IsSet kind (bytes.headD 0)

variable (unit : AccessUnit)

theorem exists_paramType (hevc : Bool) (type : UInt8) :
    (∃ kind, paramType hevc kind = some type) ↔
      if hevc then type = 32 ∨ type = 33 ∨ type = 34 else type = 7 ∨ type = 8 := by
  constructor
  · rintro ⟨kind, h⟩
    cases hevc <;> cases kind <;> simp_all [paramType]
  · cases hevc with
    | false =>
      rintro (rfl | rfl)
      · exact ⟨.sps, rfl⟩
      · exact ⟨.pps, rfl⟩
    | true =>
      rintro (rfl | rfl | rfl)
      · exact ⟨.vps, rfl⟩
      · exact ⟨.sps, rfl⟩
      · exact ⟨.pps, rfl⟩

theorem isOwn_iff (nal : NalUnit) :
    unit.IsOwn nal ↔
      if unit.hevc then nalType unit.hevc nal.header = 32 ∨ nalType unit.hevc nal.header = 33 ∨
        nalType unit.hevc nal.header = 34
      else nalType unit.hevc nal.header = 7 ∨ nalType unit.hevc nal.header = 8 :=
  exists_paramType unit.hevc (nalType unit.hevc nal.header)

instance : DecidablePred unit.IsOwn := fun nal => decidable_of_iff _ (unit.isOwn_iff nal).symm

/-- No unit that begins up to the 64th byte, ahead of the parameter sets of its codec, is taken for
one of the other. -/
def Clear : Prop :=
  ∀ nal ∈ unit.leading.takeWhile (¬unit.IsOwn ·), namedCodec nal.header ≠ some unit.otherCodec

instance : Decidable unit.Clear := List.decidableBAll _ _

/-- No parameter set of H.264 is one of H.265, the forbidden bit being clear. -/
theorem not_hevc_of_h264 {header : UInt8} (hlt : header < 128)
    (h : h264NalType header = 7 ∨ h264NalType header = 8) :
    ¬(hevcNalType header = 32 ∨ hevcNalType header = 33 ∨ hevcNalType header = 34) := by
  have hall : ∀ n : Fin 128,
      h264NalType (UInt8.ofNat n) = 7 ∨ h264NalType (UInt8.ofNat n) = 8 →
        ¬(hevcNalType (UInt8.ofNat n) = 32 ∨ hevcNalType (UInt8.ofNat n) = 33 ∨
          hevcNalType (UInt8.ofNat n) = 34) := by decide
  have hat := hall ⟨header.toNat, UInt8.lt_iff_toNat_lt.mp hlt⟩
  rw [UInt8.ofNat_toNat] at hat
  exact hat h

/-- A header is taken for a parameter set of its codec exactly when it is one. -/
theorem namedCodec_eq_own (nal : NalUnit) :
    namedCodec nal.header = some unit.codec ↔ unit.IsOwn nal := by
  have hlt : nal.header < 128 := nal.forbidden_zero_bit
  have hnot := not_hevc_of_h264 hlt
  rw [isOwn_iff, codec, namedCodec, nalType]
  cases unit.hevc with
  | true => split_ifs <;> simp_all
  | false => split_ifs <;> simp_all

/-- The first parameter set of the codec decides, where none of the other is seen ahead of it. -/
theorem findSome?_namedCodec {nals : List NalUnit}
    (hclear : ∀ nal ∈ nals.takeWhile (¬unit.IsOwn ·),
      namedCodec nal.header ≠ some unit.otherCodec) :
    nals.findSome? (namedCodec ·.header) =
      if ∃ nal ∈ nals, unit.IsOwn nal then some unit.codec else none := by
  induction nals with
  | nil => rw [if_neg (by simp), List.findSome?_nil]
  | cons nal nals ih =>
    rw [List.findSome?_cons]
    by_cases hown : unit.IsOwn nal
    · rw [(unit.namedCodec_eq_own nal).mpr hown, if_pos ⟨nal, List.mem_cons_self, hown⟩]
    · rw [List.takeWhile_cons_of_pos (by simpa using hown), List.forall_mem_cons] at hclear
      have hnone : namedCodec nal.header = none := by
        have hother := hclear.1
        have hcodec := mt (unit.namedCodec_eq_own nal).mp hown
        rw [otherCodec] at hother
        rw [codec] at hcodec
        rcases namedCodec_cases nal.header with hnone | h264 | h265
        · exact hnone
        · cases hhevc : unit.hevc <;> simp [hhevc, h264] at hother hcodec
        · cases hhevc : unit.hevc <;> simp [hhevc, h265] at hother hcodec
      rw [hnone, ih hclear.2]
      refine if_congr ?_ rfl rfl
      rw [List.exists_mem_cons_iff, or_iff_right hown]

theorem sniffAnnexbCodec_bytes (hclear : unit.Clear) :
    sniffAnnexbCodec unit.bytes =
      if ∃ nal ∈ unit.leading, unit.IsOwn nal then some unit.codec else none := by
  rw [← unit.findSome?_namedCodec hclear, sniffAnnexbCodec, nalStarts, bytes,
    nalStartsFrom_encode, leading, List.findSome?_map]
  exact sniffFrom_encode [] _ unit.nals

/-- A body without the zeros behind it. -/
def stripZeros (body : Buffer) : Buffer := body.rdropWhile (· = 0)

theorem stripZeros_padded (nal : NalUnit) (n : ℕ) :
    stripZeros (nal.bytes ++ List.replicate n 0) = nal.bytes := by
  induction n with
  | zero =>
    rw [List.replicate_zero, List.append_nil, stripZeros, List.rdropWhile_eq_self_iff]
    exact fun _ => by simpa using nal.last_ne_zero
  | succ n ih =>
    rw [List.replicate_succ', ← List.append_assoc, stripZeros, List.rdropWhile_concat_pos _ _ _
      (by simp)]
    exact ih

/-- Each unit that is split off is one of the units, with zeros behind it. -/
theorem padded_zeros (trailing : ℕ) (nals : List (ℕ × NalUnit)) :
    List.Forall₂ (fun body piece => ∃ n, body = piece.2.bytes ++ List.replicate n 0)
      (padded trailing nals) nals := by
  induction nals using padded.induct with
  | case1 => exact .nil
  | case2 zeros nal => exact .cons ⟨trailing, rfl⟩ .nil
  | case3 zeros nal zeros' next nals ih => exact .cons ⟨zeros' - 1, rfl⟩ ih

theorem strip_filter (typeOf : UInt8 → UInt8) (type : UInt8) {bodies : List Buffer}
    {nals : List (ℕ × NalUnit)}
    (h : List.Forall₂ (fun body piece => ∃ n, body = piece.2.bytes ++ List.replicate n 0)
      bodies nals) :
    (nalsOfType typeOf bodies type).map stripZeros =
      (nals.map (·.2.bytes)).filter fun bytes => typeOf (bytes.headD 0) = type := by
  induction h with
  | nil => rfl
  | @cons body piece bodies nals hbody _ ih =>
    obtain ⟨n, rfl⟩ := hbody
    have hheader : (piece.2.bytes ++ List.replicate n 0).headD 0 = piece.2.bytes.headD 0 := by
      obtain ⟨b, rest, hbytes⟩ := List.exists_cons_of_ne_nil piece.2.ne_nil
      rw [hbytes]
      rfl
    rw [nalsOfType] at ih ⊢
    simp only [List.filter_cons, List.map_cons, hheader]
    split_ifs
    · rw [List.map_cons, stripZeros_padded, ih]
    · exact ih

/-- The bodies of a type are the units of the type. -/
theorem strip_nalsOfType (typeOf : UInt8 → UInt8) (type : UInt8) :
    (nalsOfType typeOf (splitAnnexbNals unit.bytes) type).map stripZeros =
      (unit.nals.map (·.2.bytes)).filter fun bytes => typeOf (bytes.headD 0) = type := by
  rw [bytes, splitAnnexbNals_encode]
  exact strip_filter typeOf type (padded_zeros unit.trailing unit.nals)

/-- It has parameter sets of its codec that make a record of it, one of them near the start. -/
def Announces : Prop :=
  (∃ nal ∈ unit.leading, unit.IsOwn nal) ∧ (unit.setsOf .sps ≠ [] ∨ unit.setsOf .pps ≠ [])

instance : Decidable unit.Announces := inferInstanceAs (Decidable (_ ∧ _))

/-- The sets as they are found, before it is asked whether there are any. -/
def foundSets : ParamSets :=
  let nals := splitAnnexbNals unit.bytes
  if unit.codec = .h265 then
    { codec := unit.codec, vps := nalsOfType hevcNalType nals 32,
      sps := nalsOfType hevcNalType nals 33, pps := nalsOfType hevcNalType nals 34 }
  else
    { codec := unit.codec, vps := [], sps := nalsOfType h264NalType nals 7,
      pps := nalsOfType h264NalType nals 8 }

theorem foundSets_codec : unit.foundSets.codec = unit.codec := by
  rw [foundSets]
  split_ifs <;> rfl

/-- **All parameter sets of the codec are found**, and nothing else. -/
theorem foundSets_ofKind (kind : ParamKind) :
    (unit.foundSets.ofKind kind).map stripZeros = unit.setsOf kind := by
  have hset (type : UInt8) (h : paramType unit.hevc kind = some type) :
      unit.setsOf kind = (unit.nals.map (·.2.bytes)).filter fun bytes =>
        nalType unit.hevc (bytes.headD 0) = type := by
    rw [setsOf]
    refine List.filter_congr fun bytes _ => ?_
    rw [decide_eq_decide, IsSet, h, Option.some.injEq, eq_comm]
  cases hhevc : unit.hevc with
  | true =>
    have hcodec : unit.codec = .h265 := by rw [codec, hhevc]; rfl
    rw [foundSets, if_pos hcodec]
    rw [hhevc] at hset
    cases kind with
    | vps => exact (unit.strip_nalsOfType hevcNalType 32).trans (hset 32 rfl).symm
    | sps => exact (unit.strip_nalsOfType hevcNalType 33).trans (hset 33 rfl).symm
    | pps => exact (unit.strip_nalsOfType hevcNalType 34).trans (hset 34 rfl).symm
  | false =>
    have hcodec : unit.codec ≠ .h265 := by rw [codec, hhevc]; decide
    rw [foundSets, if_neg hcodec]
    rw [hhevc] at hset
    cases kind with
    | vps =>
      have hnone : unit.setsOf .vps = [] := by
        rw [setsOf, List.filter_eq_nil_iff]
        intro bytes _
        rw [decide_eq_true_eq, IsSet, hhevc, paramType]
        exact fun h => nomatch h
      rw [hnone]
      rfl
    | sps => exact (unit.strip_nalsOfType h264NalType 7).trans (hset 7 rfl).symm
    | pps => exact (unit.strip_nalsOfType h264NalType 8).trans (hset 8 rfl).symm

theorem extractParamSets_bytes (hclear : unit.Clear) :
    extractParamSets unit.bytes = if unit.Announces then some unit.foundSets else none := by
  have hempty (kind : ParamKind) : unit.foundSets.ofKind kind = [] ↔ unit.setsOf kind = [] := by
    rw [← unit.foundSets_ofKind kind, List.map_eq_nil_iff]
  rw [extractParamSets, unit.sniffAnnexbCodec_bytes hclear]
  by_cases hown : ∃ nal ∈ unit.leading, unit.IsOwn nal
  · rw [if_pos hown]
    have hfound : (some unit.codec >>= fun codec : VideoCodec =>
        let nals := splitAnnexbNals unit.bytes
        let sets : ParamSets :=
          if codec = .h265 then
            { codec, vps := nalsOfType hevcNalType nals 32, sps := nalsOfType hevcNalType nals 33,
              pps := nalsOfType hevcNalType nals 34 }
          else
            { codec, vps := [], sps := nalsOfType h264NalType nals 7,
              pps := nalsOfType h264NalType nals 8 }
        if sets.sps = [] ∧ sets.pps = [] then none else some sets) =
        if unit.foundSets.ofKind .sps = [] ∧ unit.foundSets.ofKind .pps = [] then none
        else some unit.foundSets := rfl
    rw [hfound]
    simp only [hempty]
    by_cases hnone : unit.setsOf .sps = [] ∧ unit.setsOf .pps = []
    · rw [if_pos hnone, if_neg]
      rintro ⟨-, hsps | hpps⟩
      · exact hsps hnone.1
      · exact hpps hnone.2
    · rw [if_neg hnone, if_pos ⟨hown, not_and_or.mp hnone⟩]
  · rw [if_neg hown, if_neg fun h => hown h.1]
    rfl

/-- The sets of a kind that stay in force when a unit of a codec has none. -/
def carried (current : Option ParamSets) (codec : VideoCodec) (kind : ParamKind) : List Buffer :=
  match current with
  | none => []
  | some sets => if sets.codec = codec then sets.ofKind kind else []

theorem unitsHeld_eq_carried (current : Option ParamSets) (codec : VideoCodec) (kind : ParamKind) :
    unitsHeld (·.ofKind kind) codec current = carried current codec kind := by
  cases current with
  | none => rfl
  | some sets => exact unitsHeld_some _ codec sets

/-- Each kind that a unit has is replaced, the others are kept. -/
theorem updatedParamSets_bytes (hclear : unit.Clear) (hannounces : unit.Announces)
    (current : Option ParamSets) :
    ∃ sets, updatedParamSets unit.bytes current = some sets ∧ sets.codec = unit.codec ∧
      ∀ kind, sets.ofKind kind =
        if unit.setsOf kind = [] then carried current unit.codec kind
        else unit.foundSets.ofKind kind := by
  have hempty (kind : ParamKind) : unit.foundSets.ofKind kind = [] ↔ unit.setsOf kind = [] := by
    rw [← unit.foundSets_ofKind kind, List.map_eq_nil_iff]
  have hextract := unit.extractParamSets_bytes hclear
  rw [if_pos hannounces] at hextract
  obtain ⟨sets, hsets, hcodec, hkinds⟩ := updatedParamSets_of_extract hextract current
  refine ⟨sets, hsets, hcodec.trans unit.foundSets_codec, fun kind => ?_⟩
  rw [hkinds, unit.foundSets_codec, unitsHeld_eq_carried]
  simp only [hempty]

/-- **A parameter set near the start names the codec, and nothing is discarded.** Where no unit
ahead of them is taken for a set of the other codec, the codec is named by the sets that begin up to
the 64th byte and not at all without them. A unit of the codec named so gives all its sets, and of
each kind those are in force behind it; any other leaves the sets in force as they were. -/
theorem sniff_own (hclear : unit.Clear) :
    sniffAnnexbCodec unit.bytes =
        (if ∃ nal ∈ unit.leading, unit.IsOwn nal then some unit.codec else none) ∧
      (unit.Announces → ∃ sets, extractParamSets unit.bytes = some sets ∧
        sets.codec = unit.codec ∧ ∀ kind, (sets.ofKind kind).map stripZeros = unit.setsOf kind) ∧
      (unit.Announces → ∀ current, ∃ sets, updatedParamSets unit.bytes current = some sets ∧
        sets.codec = unit.codec ∧ ∀ kind,
          (unit.setsOf kind ≠ [] → (sets.ofKind kind).map stripZeros = unit.setsOf kind) ∧
          (unit.setsOf kind = [] → sets.ofKind kind = carried current unit.codec kind)) ∧
      (¬unit.Announces → extractParamSets unit.bytes = none ∧
        ∀ current, updatedParamSets unit.bytes current = current) := by
  have hextract := unit.extractParamSets_bytes hclear
  refine ⟨unit.sniffAnnexbCodec_bytes hclear, fun hannounces => ?_, fun hannounces current => ?_,
    fun hsilent => ?_⟩
  · rw [if_pos hannounces] at hextract
    exact ⟨_, hextract, unit.foundSets_codec, unit.foundSets_ofKind⟩
  · obtain ⟨sets, hsets, hcodec, hkinds⟩ := unit.updatedParamSets_bytes hclear hannounces current
    refine ⟨sets, hsets, hcodec, fun kind => ⟨fun hsome => ?_, fun hnone => ?_⟩⟩
    · rw [hkinds, if_neg hsome, foundSets_ofKind]
    · rw [hkinds, if_pos hnone]
  · rw [if_neg hsilent] at hextract
    refine ⟨hextract, fun current => ?_⟩
    rw [updatedParamSets, hextract]

end AccessUnit

/-- A NAL unit of given bytes, without a start code among them. -/
def NalUnit.of (header : UInt8) (rest : Buffer) (hfree : ¬[0, 0, 1] <:+: header :: rest)
    (hlast : (header :: rest).getLast (List.cons_ne_nil _ _) ≠ 0) (hlt : header < 128) : NalUnit :=
  ⟨header :: rest, List.cons_ne_nil _ _, hfree, hlast, hlt⟩

/-- An H.264 keyframe behind a message of 64 bytes. -/
def lateSets : AccessUnit where
  hevc := false
  nals :=
    [(1, .of 0x06 (5 :: 64 :: List.replicate 64 0x55 ++ [0x80]) (by decide +kernel) (by decide +kernel)
        (by decide)),
      (1, .of 0x67 [66, 0xc0, 30, 0xda, 0x02, 0x80, 0xf6] (by decide) (by decide) (by decide)),
      (1, .of 0x68 [0xce, 0x3c, 0x80] (by decide) (by decide) (by decide)),
      (1, .of 0x65 [0x88, 0x84, 0x21] (by decide) (by decide) (by decide))]
  trailing := 0

/-- Parameter sets behind the 64th byte are not looked at. -/
theorem late_sets_unnamed :
    ¬∀ unit : AccessUnit, (∃ piece ∈ unit.nals, unit.IsOwn piece.2) →
      sniffAnnexbCodec unit.bytes = some unit.codec := by
  intro hclaim
  have hnone : sniffAnnexbCodec lateSets.bytes = none := by decide +kernel
  have hown : ∃ piece ∈ lateSets.nals, lateSets.IsOwn piece.2 := by decide +kernel
  have hnamed := hclaim lateSets hown
  rw [hnone] at hnamed
  exact absurd hnamed (by decide)

/-- An H.265 keyframe with its parameter sets in front. -/
def hevcKeyframe : AccessUnit where
  hevc := true
  nals :=
    [(1, .of 0x40 [1, 12] (by decide) (by decide) (by decide)),
      (1, .of 0x42 [1, 1] (by decide) (by decide) (by decide)),
      (1, .of 0x44 [1, 0xc1] (by decide) (by decide) (by decide)),
      (0, .of 0x26 [1, 0xaf] (by decide) (by decide) (by decide))]
  trailing := 0

theorem sniff_own_hevcKeyframe :
    hevcKeyframe.Clear ∧ sniffAnnexbCodec hevcKeyframe.bytes = some .h265 := by
  have hclear : hevcKeyframe.Clear := by decide +kernel
  have hown : ∃ nal ∈ hevcKeyframe.leading, hevcKeyframe.IsOwn nal := by decide +kernel
  refine ⟨hclear, ?_⟩
  rw [(AccessUnit.sniff_own hevcKeyframe hclear).1, if_pos hown]
  rfl

end EufySdk
