import Mathlib.Tactic
import EufySdk.Core.Thrown

/-!
# ADTS headers

`transport/p2p/adts.ts`: the header in front of an AAC frame, which declares the length of the
two together.
-/

namespace EufySdk

open Bytes

def AAC_SAMPLES_PER_FRAME : ℕ := 1024
def AAC_SAMPLE_RATE : ℕ := 16000

structure AdtsHeader where
  frameLength : ℕ
  headerLength : ℕ
  profile : ℕ
  frequencyIndex : ℕ
  channels : ℕ
  deriving DecidableEq, Repr

/-- The header at `offset`, where the bytes there are a plausible one. The fields are runs of bits
across its bytes. -/
def parseAdtsHeader (buf : Buffer) (offset : ℕ := 0) : Option AdtsHeader :=
  match buf.drop offset with
  | b₀ :: b₁ :: b₂ :: b₃ :: b₄ :: b₅ :: _ :: _ =>
    if b₀ ≠ 0xff ∨ b₁ &&& 0xf0 ≠ 0xf0 then none
    else
      let headerLength := if b₁ &&& 0x01 ≠ 0 then 7 else 9
      let frameLength := b₃.toNat % 4 * 2048 + b₄.toNat * 8 + b₅.toNat / 32
      if frameLength < headerLength then none
      else some
        { frameLength
          headerLength
          profile := b₂.toNat / 64
          frequencyIndex := b₂.toNat / 4 % 16
          channels := b₂.toNat % 2 * 4 + b₃.toNat / 64 }
  | _ => none

/-- How long a frame plays, in milliseconds. -/
def AAC_FRAME_MS : ℕ := AAC_SAMPLES_PER_FRAME * 1000 / AAC_SAMPLE_RATE

def MAX_AUDIO_FRAME_BYTES : ℕ := 640

def PROFILE_AAC_LC : ℕ := 1
def FREQ_INDEX_16K : ℕ := 8
def CHANNELS_MONO : ℕ := 1

def isSupportedAdts (h : AdtsHeader) : Bool :=
  h.profile = PROFILE_AAC_LC && h.frequencyIndex = FREQ_INDEX_16K && h.channels = CHANNELS_MONO

end EufySdk
