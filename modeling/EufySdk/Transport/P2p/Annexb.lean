import Mathlib.Tactic
import EufySdk.Core.Thrown

/-!
# Annex-B access units

`transport/p2p/annexb.ts`: an access unit is a row of NAL units, each behind a start code of
three or four bytes. The scan for start codes finds a code of four bytes twice, once at its
first byte and once at its second; the unit between the two is empty and is left out.

- `nalStarts` — where the units of a buffer begin
- `splitAnnexbNals` — the units
- `extractParamSets` — the parameter sets among them
- `updatedParamSets` — the parameter sets in force after a unit
- `prefixParamSets` — a unit with the parameter sets in force ahead of it
-/

namespace EufySdk

open Bytes

inductive VideoCodec
  | h264
  | h265
  | av1
  deriving DecidableEq, Repr

/-- `nalStarts` from the byte at `i` on. -/
def nalStartsFrom (i : ℕ) : Buffer → List ℕ
  | b₀ :: b₁ :: b₂ :: b₃ :: rest =>
    let more := nalStartsFrom (i + 1) (b₁ :: b₂ :: b₃ :: rest)
    if b₀ = 0 ∧ b₁ = 0 ∧ b₂ = 1 then (i + 3) :: more
    else if rest ≠ [] ∧ b₀ = 0 ∧ b₁ = 0 ∧ b₂ = 0 ∧ b₃ = 1 then (i + 4) :: more
    else more
  | _ => []

def nalStarts (buf : Buffer) : List ℕ := nalStartsFrom 0 buf

/-- The first byte of the start code before a unit. -/
def startCodeBegin (buf : Buffer) (payloadOffset : ℕ) : ℕ :=
  let threeByte := payloadOffset - 3
  if 1 ≤ threeByte ∧ buf[threeByte - 1]? = some 0 then threeByte - 1 else threeByte

/-- The units that begin at the given places, the empty ones included. -/
def nalBodies (buf : Buffer) : List ℕ → List Buffer
  | [] => []
  | [start] => [Buf.subarray buf start buf.length]
  | start :: next :: offsets =>
    Buf.subarray buf start (startCodeBegin buf next) :: nalBodies buf (next :: offsets)

def splitAnnexbNals (buf : Buffer) : List Buffer :=
  (nalBodies buf (nalStarts buf)).filter (· ≠ [])

/-- The type of an H.265 unit, in its first byte. -/
def hevcNalType (b : UInt8) : UInt8 := (b >>> 1) &&& 0x3f

/-- The type of an H.264 unit, in its first byte. -/
def h264NalType (b : UInt8) : UInt8 := b &&& 0x1f

/-- The codec of the first of some units that is a parameter set, up to the 64th byte. -/
def sniffFrom (buf : Buffer) : List ℕ → Option VideoCodec
  | [] => none
  | p :: starts =>
    if 64 < p then none
    else
      let b := buf.getD p 0
      if hevcNalType b = 32 ∨ hevcNalType b = 33 ∨ hevcNalType b = 34 then some .h265
      else if h264NalType b = 7 ∨ h264NalType b = 8 then some .h264
      else sniffFrom buf starts

def sniffAnnexbCodec (buf : Buffer) : Option VideoCodec := sniffFrom buf (nalStarts buf)

structure ParamSets where
  codec : VideoCodec
  sps : List Buffer
  pps : List Buffer
  vps : List Buffer
  deriving DecidableEq, Repr

/-- The units of one type. -/
def nalsOfType (typeOf : UInt8 → UInt8) (nals : List Buffer) (type : UInt8) : List Buffer :=
  nals.filter fun nal => typeOf (nal.headD 0) = type

def extractParamSets (buf : Buffer) : Option ParamSets := do
  let codec ← sniffAnnexbCodec buf
  let nals := splitAnnexbNals buf
  let sets : ParamSets :=
    if codec = .h265 then
      { codec, vps := nalsOfType hevcNalType nals 32, sps := nalsOfType hevcNalType nals 33,
        pps := nalsOfType hevcNalType nals 34 }
    else
      { codec, vps := [], sps := nalsOfType h264NalType nals 7,
        pps := nalsOfType h264NalType nals 8 }
  if sets.sps = [] ∧ sets.pps = [] then none else some sets

/-- The sets in force after an access unit: each kind it announces, and the others as they were,
unless they are of another codec. -/
def updatedParamSets (buf : Buffer) (current : Option ParamSets) : Option ParamSets :=
  match extractParamSets buf with
  | none => current
  | some announced =>
    match current with
    | none => some announced
    | some current =>
      if current.codec ≠ announced.codec then some announced
      else
        some
          { codec := announced.codec
            sps := if announced.sps ≠ [] then announced.sps else current.sps
            pps := if announced.pps ≠ [] then announced.pps else current.pps
            vps := if announced.vps ≠ [] then announced.vps else current.vps }

/-- The start code ahead of a unit that is written again. -/
def ANNEXB_START : Buffer := [0, 0, 0, 1]

/-- The sets in the order they are emitted in. -/
def ParamSets.ordered (sets : ParamSets) : List Buffer := sets.vps ++ sets.sps ++ sets.pps

def prefixParamSets (annexb : Buffer) (sets : ParamSets) : Buffer :=
  if sets.ordered = [] then annexb
  else sets.ordered.flatMap (ANNEXB_START ++ ·) ++ annexb

example : splitAnnexbNals [0, 0, 0, 1, 0x67, 7, 0, 0, 1, 0x68] = [[0x67, 7], [0x68]] := by decide

end EufySdk
