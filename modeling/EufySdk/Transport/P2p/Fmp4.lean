import Mathlib.Tactic
import EufySdk.Lib.IsoBox
import EufySdk.Transport.P2p.Adts
import EufySdk.Transport.P2p.CodedGeometry

/-!
# The fragmented MP4 muxer

`transport/p2p/fmp4.ts`: access units come in, and a recording goes out as an initialisation
segment and fragments, each of which is closed by a keyframe or by `flush`. The duration of a
sample is known when the next one comes.

Ticks and timestamps are rational numbers. A call that throws leaves the muxer as it is at the
throw.

- `Fmp4Muxer` — the fields of the muxer
- `buildInit`, `buildFragment` — the two kinds of segment, byte by byte
- `push`, `pushAudio`, `flush` — the calls
-/

namespace EufySdk

open Bytes IsoBox

def TIMESCALE : ℕ := 90000
def DEFAULT_FRAME_TICKS : ℚ := TIMESCALE / 15

structure Fmp4Options where
  fragmentSeconds : Option ℚ := none
  fps : Option ℚ := none
  audio : Option Bool := none

/-- The codecs of `VideoCodec` that the muxer has boxes for. -/
inductive BoxedCodec
  | h264
  | h265
  deriving DecidableEq, Repr

def VideoCodec.boxed : VideoCodec → Option BoxedCodec
  | .h264 => some .h264
  | .h265 => some .h265
  | .av1 => none

inductive AacCodec
  | lc
  | eld
  deriving DecidableEq, Repr

inductive AudioCodec
  | aac (codec : AacCodec)
  | g711a
  deriving DecidableEq, Repr

structure LiveVideoFrame where
  keyframe : Bool
  width : ℕ
  height : ℕ
  codec : VideoCodec
  data : Buffer
  deriving DecidableEq, Repr

structure LiveAudioFrame where
  codec : AudioCodec
  data : Buffer
  deriving DecidableEq, Repr

structure MediaFragment where
  init : Option Buffer
  data : Buffer
  keyframe : Bool
  deriving DecidableEq, Repr

/-- The sample entry box of a codec, and the box of its configuration. -/
def CODEC_BOXES : BoxedCodec → FourCC × FourCC
  | .h264 => (.avc1, .avcC)
  | .h265 => (.hvc1, .hvcC)

structure Sample where
  data : Buffer
  duration : ℚ
  keyframe : Bool
  deriving DecidableEq, Repr

def AAC_ELD_SAMPLES_PER_FRAME : ℕ := 512
def ADTS_FREQUENCY_INDEX_16K : ℕ := 8
def ADTS_CHANNELS_MONO : ℕ := 1

/-- What a call throws. -/
inductive MuxError
  /-- `fMP4 muxer: AV1 is not supported` -/
  | av1
  /-- `fMP4 muxer: … frame is not a complete ADTS access unit` -/
  | incompleteAdts (codec : AacCodec)
  /-- `fMP4 muxer: missing trun data offset` -/
  | missingDataOffset
  /-- `fMP4 muxer: trun count does not match data offsets` -/
  | dataOffsetCount
  /-- `fMP4 muxer: invalid box structure` -/
  | invalidBox
  /-- `fMP4 muxer: MPEG-4 descriptor is too large` -/
  | descriptorTooLarge
  /-- What a buffer throws. -/
  | thrown (e : Thrown)
  deriving DecidableEq, Repr

/-! ## Bytes -/

/-- `Buffer.alloc(length)`. -/
def alloc (length : ℕ) : Buffer := List.replicate length 0

/-- Bytes written over others, within their length. -/
def writeAt (b : Buffer) (offset : ℕ) (bytes : Buffer) : Buffer :=
  b.take offset ++ bytes ++ b.drop (offset + bytes.length)

def ascii (s : List Char) : Buffer := s.map fun c => UInt8.ofNat c.toNat

/-- `n << 16`, on 32 bits with a sign. -/
def shiftLeft16 (n : ℤ) : ℤ := (n * 65536).bmod (2 ^ 32)

/-- `n >>> 0`. -/
def toUint32 (n : ℚ) : ℕ := ((if 0 ≤ n then ⌊n⌋ else ⌈n⌉) % 2 ^ 32).toNat

/-- `Math.round`. -/
def mathRound (n : ℚ) : ℤ := ⌊n + 1 / 2⌋

/-- The four bytes `writeUInt32BE(value)` writes. -/
def writeUInt32BE (value : ℤ) : Except MuxError Buffer :=
  (Buf.writeUInt32BE (some value)).mapError .thrown

/-- The two bytes `writeUInt16BE(value)` writes. -/
def writeUInt16BE (value : ℤ) : Except MuxError Buffer :=
  if 0 ≤ value ∧ value < 65536 then .ok (uint16BE value.toNat) else .error (.thrown .rangeError)

/-- `buf.readUInt32BE(offset)`. -/
def readUInt32BE (buf : Buffer) (offset : ℕ) : Except MuxError ℕ :=
  if offset + 4 ≤ buf.length then .ok (readUIntBE ((buf.drop offset).take 4))
  else .error (.thrown .rangeError)

/-- `buf.writeInt32BE(value, offset)` of a number that is not negative. -/
def writeInt32BE (buf : Buffer) (value offset : ℕ) : Except MuxError Buffer :=
  if value < 2 ^ 31 ∧ offset + 4 ≤ buf.length then .ok (writeAt buf offset (uint32BE value))
  else .error (.thrown .rangeError)

def u16 (n : ℕ) : Except MuxError Buffer := writeUInt16BE n

/-- Four bytes, of the number modulo `2 ^ 32`. -/
def u32 (n : ℕ) : Buffer := uint32BE n

def u64 (n : ℚ) : Except MuxError Buffer :=
  if n.den = 1 ∧ 0 ≤ n.num ∧ n.num < 2 ^ 64 then .ok (uint64BE n.num.toNat)
  else .error (.thrown .rangeError)

/-- Wrap a payload in a box. -/
def box (type : FourCC) (payload : Buffer) : Except MuxError Buffer := do
  let size ← writeUInt32BE (8 + payload.length : ℕ)
  return size ++ type.bytes ++ payload

/-- Buffers that are built one after the other, joined. -/
def concat (parts : List (Except MuxError Buffer)) : Except MuxError Buffer := do
  return (← parts.mapM id).flatten

/-- A box of parts that are built one after the other. -/
def boxOf (type : FourCC) (parts : List (Except MuxError Buffer)) : Except MuxError Buffer := do
  box type (← concat parts)

/-- The unity matrix at offset `o`. -/
def writeMatrix (b : Buffer) (o : ℕ) : Buffer :=
  writeAt (writeAt (writeAt b o (uint32BE 0x00010000)) (o + 16) (uint32BE 0x00010000)) (o + 32)
    (uint32BE 0x40000000)

def annexbToAvcc (annexb : Buffer) : Buffer :=
  (splitAnnexbNals annexb).flatMap fun nal => u32 nal.length ++ nal

def descriptor (tag : UInt8) (payload : Buffer) : Except MuxError Buffer :=
  if 128 ≤ payload.length then .error .descriptorTooLarge
  else .ok ([tag, UInt8.ofNat payload.length] ++ payload)

/-! ## Patching the data offsets -/

/-- A box in a buffer. -/
structure ChildBox where
  type : FourCC
  start : ℕ

/-- The type of the box at `start`, which `toString("ascii")` reads with seven bits a byte. -/
def typeAt (buf : Buffer) (start : ℕ) : FourCC :=
  let byte := fun i => buf.getD (start + i) 0 &&& 0x7f
  ⟨byte 4, byte 5, byte 6, byte 7⟩

/-- The loop of `childBoxes`, which moves on by eight bytes or more each time. -/
def childBoxesFrom (buf : Buffer) (parentEnd : ℕ) : ℕ → ℕ → Except MuxError (List ChildBox)
  | 0, _ => .ok []
  | left + 1, start =>
    if start + 8 ≤ parentEnd then do
      let size ← readUInt32BE buf start
      if size < 8 ∨ parentEnd < start + size then throw .invalidBox
      let rest ← childBoxesFrom buf parentEnd left (start + size)
      return ⟨typeAt buf start, start⟩ :: rest
    else .ok []

def childBoxes (buf : Buffer) (parentStart : ℕ) : Except MuxError (List ChildBox) := do
  let parentEnd := parentStart + (← readUInt32BE buf parentStart)
  childBoxesFrom buf parentEnd parentEnd (parentStart + 8)

/-- Set the offsets of the runs among the children of one `traf`. -/
def patchTruns (offsets : List ℕ) : List ChildBox → Buffer × ℕ → Except MuxError (Buffer × ℕ)
  | [], state => .ok state
  | child :: children, (moof, offsetIndex) =>
    if child.type ≠ .trun then patchTruns offsets children (moof, offsetIndex)
    else
      match offsets[offsetIndex]? with
      | none => .error .missingDataOffset
      | some offset => do
        let moof ← writeInt32BE moof offset (child.start + 16)
        patchTruns offsets children (moof, offsetIndex + 1)

/-- Set the offsets of the runs of the `traf` boxes among some children. -/
def patchTrafs (offsets : List ℕ) : List ChildBox → Buffer × ℕ → Except MuxError (Buffer × ℕ)
  | [], state => .ok state
  | traf :: children, (moof, offsetIndex) =>
    if traf.type ≠ .traf then patchTrafs offsets children (moof, offsetIndex)
    else do
      let state ← patchTruns offsets (← childBoxes moof traf.start) (moof, offsetIndex)
      patchTrafs offsets children state

/-- Set the data offset of each run in a freshly built `moof`. -/
def patchTrunDataOffsets (moof : Buffer) (offsets : List ℕ) : Except MuxError Buffer := do
  let (moof, offsetIndex) ← patchTrafs offsets (← childBoxes moof 0) (moof, 0)
  if offsetIndex ≠ offsets.length then throw .dataOffsetCount
  return moof

/-! ## The muxer -/

structure Fmp4Muxer where
  params : Option ParamSets := none
  codec : BoxedCodec := .h264
  width : ℤ := 0
  height : ℤ := 0
  initSent : Bool := false
  seq : ℕ := 1
  baseDecodeTime : ℚ := 0
  fragTicks : ℚ := 0
  samples : List Sample := []
  lastVideoTimestampMs : Option ℚ := none
  audioRequested : Bool
  audioCodec : Option AacCodec := none
  audioDisabled : Bool := false
  audioSamples : List Sample := []
  audioBaseDecodeTime : ℚ := 0
  firstVideoTimestampMs : Option ℚ := none
  firstAudioTimestampMs : Option ℚ := none
  lastAudioTimestampMs : Option ℚ := none
  timelineOriginMs : Option ℚ := none
  timelineAligned : Bool := false
  fragmentTicks : ℚ
  firstDuration : ℚ

/-- The muxer as the constructor leaves it. No frame rate, or zero, is the default one. -/
def Fmp4Muxer.new (opts : Fmp4Options) : Fmp4Muxer where
  fragmentTicks := opts.fragmentSeconds.getD 2 * TIMESCALE
  firstDuration :=
    match opts.fps with
    | none => DEFAULT_FRAME_TICKS
    | some fps => if fps = 0 then DEFAULT_FRAME_TICKS else TIMESCALE / fps
  audioRequested := opts.audio.getD false

/-- What a method returns or throws, and the muxer behind it. -/
abbrev Outcome (α : Type) := Except MuxError α × Fmp4Muxer

/-- Go on with what a method returned. -/
def Outcome.bind {α β : Type} (r : Outcome α) (f : α → Fmp4Muxer → Outcome β) : Outcome β :=
  match r with
  | (.ok a, s) => f a s
  | (.error e, s) => (.error e, s)

@[simp] theorem Outcome.bind_ok {α β : Type} (a : α) (s : Fmp4Muxer)
    (f : α → Fmp4Muxer → Outcome β) : Outcome.bind (.ok a, s) f = f a s := rfl

@[simp] theorem Outcome.bind_error {α β : Type} (e : MuxError) (s : Fmp4Muxer)
    (f : α → Fmp4Muxer → Outcome β) : Outcome.bind (.error e, s) f = (.error e, s) := rfl

namespace Fmp4Muxer

def hasAudioTrack (s : Fmp4Muxer) : Bool := s.audioCodec.isSome && !s.audioDisabled

/-! ### The initialisation segment -/

def ftyp : Except MuxError Buffer :=
  box .ftyp (ascii ['i', 's', 'o', '5'] ++ u32 0 ++ ascii ['i', 's', 'o', '5'] ++
    ascii ['i', 's', 'o', '6'] ++ ascii ['m', 'p', '4', '1'] ++ ascii ['c', 'm', 'f', 'c'])

def mvhd (s : Fmp4Muxer) : Except MuxError Buffer :=
  let b := writeAt (alloc 100) 12 (uint32BE TIMESCALE)
  let b := writeAt b 20 (uint32BE 0x00010000)
  let b := writeAt b 24 (uint16BE 0x0100)
  let b := writeMatrix b 32
  let b := writeAt b 96 (uint32BE (if s.hasAudioTrack then 3 else 2))
  box .mvhd b

/-- The track header with the bytes of the picture size. -/
def tkhdBody (width height : Buffer) : Buffer :=
  let b := writeAt (alloc 84) 0 (uint32BE 0x00000007)
  let b := writeAt b 12 (uint32BE 1)
  let b := writeMatrix b 40
  let b := writeAt b 76 width
  writeAt b 80 height

def tkhd (s : Fmp4Muxer) : Except MuxError Buffer := do
  let width ← writeUInt32BE (shiftLeft16 s.width)
  let height ← writeUInt32BE (shiftLeft16 s.height)
  box .tkhd (tkhdBody width height)

def avcC (ps : ParamSets) : Except MuxError Buffer := do
  let sps := ps.sps.headD (alloc 4)
  let head : Buffer := [1, sps.getD 1 0x42, sps.getD 2 0x00, sps.getD 3 0x1e, 0xff,
    UInt8.ofNat (0xe0 ||| ps.sps.length)]
  let spsParts ← concat (ps.sps.map fun nal => do return (← u16 nal.length) ++ nal)
  let ppsParts ← concat (ps.pps.map fun nal => do return (← u16 nal.length) ++ nal)
  return head ++ spsParts ++ [UInt8.ofNat ps.pps.length] ++ ppsParts

/-- The array of the units of one type in a configuration, where there are any. -/
def hvcCArray (nalType : UInt8) (nals : List Buffer) : Except MuxError (List Buffer) := do
  if nals = [] then return []
  let count ← u16 nals.length
  let parts ← concat (nals.map fun nal => do return (← u16 nal.length) ++ nal)
  return [[0x80 ||| nalType] ++ count ++ parts]

def hvcC (ps : ParamSets) : Except MuxError Buffer := do
  let header : Buffer := [1, 0x01, 0x60, 0x00, 0x00, 0x00, 0x90, 0x00, 0x00, 0x00, 0x00, 0x00,
    0x5a, 0xf0, 0x00, 0xfc, 0xfd, 0xf8, 0xf8, 0x00, 0x00, 0x0f]
  let vps ← hvcCArray 32 ps.vps
  let sps ← hvcCArray 33 ps.sps
  let pps ← hvcCArray 34 ps.pps
  let arrays := vps ++ sps ++ pps
  return header ++ [UInt8.ofNat arrays.length] ++ arrays.flatten

/-- The head of a sample entry with the bytes of the picture size. -/
def sampleEntryHead (width height : Buffer) : Buffer :=
  let head := writeAt (alloc 78) 6 (uint16BE 1)
  let head := writeAt head 24 width
  let head := writeAt head 26 height
  let head := writeAt head 28 (uint32BE 0x00480000)
  let head := writeAt head 32 (uint32BE 0x00480000)
  let head := writeAt head 40 (uint16BE 1)
  let head := writeAt head 74 (uint16BE 0x18)
  writeAt head 76 [0xff, 0xff]

/-- The configuration of the decoder, which needs the parameter sets. -/
def decoderConfig (s : Fmp4Muxer) : Except MuxError Buffer :=
  match s.params, s.codec with
  | none, _ => .error (.thrown .typeError)
  | some ps, .h264 => avcC ps
  | some ps, .h265 => hvcC ps

def sampleEntry (s : Fmp4Muxer) : Except MuxError Buffer := do
  let width ← writeUInt16BE s.width
  let height ← writeUInt16BE s.height
  let config ← s.decoderConfig
  boxOf (CODEC_BOXES s.codec).1
    [.ok (sampleEntryHead width height), box (CODEC_BOXES s.codec).2 config]

/-- The sample tables of a track, which are empty but for the entry. -/
def stbl (sampleEntry : Except MuxError Buffer) : Except MuxError Buffer :=
  boxOf .stbl
    [boxOf .stsd [.ok (u32 0 ++ u32 1), sampleEntry],
      box .stts (u32 0 ++ u32 0),
      box .stsc (u32 0 ++ u32 0),
      box .stsz (u32 0 ++ u32 0 ++ u32 0),
      box .stco (u32 0 ++ u32 0)]

def dinf : Except MuxError Buffer :=
  boxOf .dinf [boxOf .dref [.ok (u32 0 ++ u32 1), box .url (u32 1)]]

def minf (s : Fmp4Muxer) : Except MuxError Buffer :=
  boxOf .minf [box .vmhd (u32 1 ++ alloc 8), dinf, stbl s.sampleEntry]

def hdlr (handler name : List Char) : Except MuxError Buffer :=
  box .hdlr (u32 0 ++ u32 0 ++ ascii handler ++ u32 0 ++ u32 0 ++ u32 0 ++ (ascii name ++ [0]))

def mdhd (timescale : ℕ) : Except MuxError Buffer :=
  box .mdhd (writeAt (writeAt (alloc 32) 12 (uint32BE timescale)) 24 (uint16BE 0x55c4))

def mdia (s : Fmp4Muxer) : Except MuxError Buffer :=
  boxOf .mdia
    [mdhd TIMESCALE,
      hdlr ['v', 'i', 'd', 'e'] ['V', 'i', 'd', 'e', 'o', 'H', 'a', 'n', 'd', 'l', 'e', 'r'],
      s.minf]

def trak (s : Fmp4Muxer) : Except MuxError Buffer := boxOf .trak [s.tkhd, s.mdia]

def audioTkhd : Except MuxError Buffer :=
  let b := writeAt (alloc 84) 0 (uint32BE 0x00000007)
  let b := writeAt b 12 (uint32BE 2)
  let b := writeAt b 36 (uint16BE 0x0100)
  box .tkhd (writeMatrix b 40)

/-- The decoder configuration of an audio codec. -/
def audioConfig (s : Fmp4Muxer) : Buffer :=
  if s.audioCodec = some .eld then [0xf8, 0xf0, 0x20] else [0x14, 0x08]

def esds (s : Fmp4Muxer) : Except MuxError Buffer := do
  let specific ← descriptor 0x05 s.audioConfig
  let decoder ← descriptor 0x04 ([0x40, 0x15, 0, 0, 0] ++ u32 64000 ++ u32 32000 ++ specific)
  let sl ← descriptor 0x06 [0x02]
  let es ← descriptor 0x03 (uint16BE 2 ++ [0] ++ decoder ++ sl)
  box .esds (u32 0 ++ es)

def audioSampleEntry (s : Fmp4Muxer) : Except MuxError Buffer :=
  let head := writeAt (alloc 28) 6 (uint16BE 1)
  let head := writeAt head 16 (uint16BE 1)
  let head := writeAt head 18 (uint16BE 16)
  let head := writeAt head 24 (uint32BE (AAC_SAMPLE_RATE * 65536))
  boxOf .mp4a [.ok head, s.esds]

def audioMinf (s : Fmp4Muxer) : Except MuxError Buffer :=
  boxOf .minf [box .smhd (alloc 8), dinf, stbl s.audioSampleEntry]

def audioMdia (s : Fmp4Muxer) : Except MuxError Buffer :=
  boxOf .mdia
    [mdhd AAC_SAMPLE_RATE,
      hdlr ['s', 'o', 'u', 'n'] ['S', 'o', 'u', 'n', 'd', 'H', 'a', 'n', 'd', 'l', 'e', 'r'],
      s.audioMinf]

def audioTrak (s : Fmp4Muxer) : Except MuxError Buffer := boxOf .trak [audioTkhd, s.audioMdia]

def trex (trackId : ℕ) : Except MuxError Buffer :=
  box .trex (writeAt (writeAt (alloc 24) 4 (uint32BE trackId)) 8 (uint32BE 1))

def mvex (s : Fmp4Muxer) : Except MuxError Buffer :=
  boxOf .mvex ([trex 1] ++ if s.hasAudioTrack then [trex 2] else [])

def moov (s : Fmp4Muxer) : Except MuxError Buffer :=
  boxOf .moov ([s.mvhd, s.trak] ++ (if s.hasAudioTrack then [s.audioTrak] else []) ++ [s.mvex])

/-- Fix the origin of the two tracks: the earlier one of their first timestamps. -/
def alignTimeline (s : Fmp4Muxer) : Fmp4Muxer :=
  match s.timelineAligned, s.firstVideoTimestampMs with
  | false, some firstVideo =>
    let origin := min firstVideo (s.firstAudioTimestampMs.getD firstVideo)
    { s with
      timelineOriginMs := some origin
      baseDecodeTime := mathRound ((firstVideo - origin) * (TIMESCALE / 1000))
      audioBaseDecodeTime :=
        mathRound ((s.firstAudioTimestampMs.getD origin - origin) * (AAC_SAMPLE_RATE / 1000))
      timelineAligned := true }
  | _, _ => s

def buildInit (s : Fmp4Muxer) : Outcome Buffer :=
  let s := s.alignTimeline
  (concat [ftyp, s.moov], s)

/-! ### Fragments -/

/-- One run of a track, its data offset zero until it is patched. -/
def trun (samples : List Sample) : Except MuxError Buffer :=
  box .trun (u32 0x000701 ++ u32 samples.length ++ u32 0 ++ samples.flatMap fun sample =>
    u32 (toUint32 sample.duration) ++ u32 sample.data.length ++
      u32 (if sample.keyframe then 0x02000000 else 0x01010000))

def traf (trackId : ℕ) (baseDecodeTime : ℚ) (samples : List Sample) : Except MuxError Buffer :=
  boxOf .traf
    [box .tfhd (u32 0x020000 ++ u32 trackId),
      do box .tfdt (u32 0x01000000 ++ (← u64 baseDecodeTime)),
      trun samples]

def moof (s : Fmp4Muxer) (seq : ℕ) (samples audioSamples : List Sample) :
    Except MuxError Buffer :=
  boxOf .moof ([box .mfhd (u32 0 ++ u32 seq), traf 1 s.baseDecodeTime samples] ++
    if s.hasAudioTrack ∧ audioSamples ≠ [] then [traf 2 s.audioBaseDecodeTime audioSamples]
    else [])

/-- The bytes of a fragment. -/
def fragmentBytes (s : Fmp4Muxer) (seq : ℕ) (samples audioSamples : List Sample) :
    Except MuxError Buffer := do
  let moof ← s.moof seq samples audioSamples
  let videoData := samples.flatMap Sample.data
  let audioData := audioSamples.flatMap Sample.data
  let mdat ← box .mdat (videoData ++ audioData)
  let dataOffset := moof.length + 8
  let moof ← patchTrunDataOffsets moof
    (if audioSamples ≠ [] then [dataOffset, dataOffset + videoData.length] else [dataOffset])
  return moof ++ mdat

def ticks (samples : List Sample) : ℚ := (samples.map Sample.duration).sum

/-- Take what is queued, and the next number. -/
def taken (s : Fmp4Muxer) : Fmp4Muxer :=
  { s with samples := [], audioSamples := [], fragTicks := 0, seq := s.seq + 1 }

/-- Move the decode times on behind some samples. -/
def advance (s : Fmp4Muxer) (samples audioSamples : List Sample) : Fmp4Muxer :=
  { s with
    baseDecodeTime := s.baseDecodeTime + ticks samples
    audioBaseDecodeTime := s.audioBaseDecodeTime + ticks audioSamples }

/-- Write the open fragment. The queues are emptied first, whatever comes of it. -/
def buildFragment (s : Fmp4Muxer) : Outcome Buffer :=
  Outcome.bind (s.taken.fragmentBytes s.seq s.samples s.audioSamples, s.taken) fun bytes t =>
    (.ok bytes, t.advance s.samples s.audioSamples)

/-- Build the initialisation segment where it is still to be sent. A source that has declared no
audio by now has none. -/
def settleInit (s : Fmp4Muxer) : Outcome (Option Buffer) :=
  if s.initSent then (.ok none, s)
  else
    { s with audioDisabled := s.audioCodec.isNone }.buildInit.bind fun init s =>
      (.ok (some init), { s with initSent := true })

/-- Close the open fragment. -/
def closeFragment (s : Fmp4Muxer) : Outcome (Option Buffer × Buffer) :=
  s.settleInit.bind fun init s => s.buildFragment.bind fun data s => (.ok (init, data), s)

/-- Send the initialisation segment by itself, where it can be built and is still to be sent. -/
def announceInit (s : Fmp4Muxer) : Outcome (Option MediaFragment) :=
  if s.params.isNone || s.initSent then (.ok none, s)
  else
    { s with initSent := true }.buildInit.bind fun init s =>
      (.ok (some { init := some init, data := [], keyframe := false }), s)

/-! ### Video -/

/-- The last sample with the duration measured for it. -/
def setLastDuration (duration : ℚ) : List Sample → List Sample
  | [] => []
  | [sample] => [{ sample with duration }]
  | sample :: samples => sample :: setLastDuration duration samples

/-- The picture size of a recording: what its parameter sets declare, or else what the frame says. -/
def declaredSize (ps : ParamSets) (frame : LiveVideoFrame) : Size :=
  match codedGeometry ps with
  | some declared => declared.toSize
  | none => ⟨frame.width, frame.height⟩

/-- Take up the parameter sets of the first keyframe that has them; `none` while there are none. -/
def adopt (s : Fmp4Muxer) (frame : LiveVideoFrame) (timestampMs : ℚ) : Option Fmp4Muxer :=
  if s.params.isSome then some s
  else if !frame.keyframe then none
  else do
    let ps ← extractParamSets frame.data
    let codec ← ps.codec.boxed
    return { s with
      params := some ps
      codec
      width := (declaredSize ps frame).width
      height := (declaredSize ps frame).height
      firstVideoTimestampMs := some timestampMs }

/-- Give the sample before this one its duration. -/
def measure (s : Fmp4Muxer) (timestampMs : ℚ) : Fmp4Muxer :=
  let s := match s.lastVideoTimestampMs, s.samples.getLast? with
    | some last, some previous =>
      let measured := mathRound ((timestampMs - last) * (TIMESCALE / 1000))
      if 0 < measured then
        { s with
          fragTicks := s.fragTicks + (measured - previous.duration)
          samples := setLastDuration measured s.samples }
      else s
    | _, _ => s
  { s with lastVideoTimestampMs := some timestampMs }

/-- Close the open fragment before a keyframe, where it is long enough. -/
def cut (s : Fmp4Muxer) (frame : LiveVideoFrame) : Outcome (Option Buffer × Option Buffer) :=
  if frame.keyframe ∧ s.samples ≠ [] ∧ s.fragmentTicks ≤ s.fragTicks then
    s.closeFragment.bind fun segments s => (.ok (segments.1, some segments.2), s)
  else (.ok (none, none), s)

def enqueue (s : Fmp4Muxer) (frame : LiveVideoFrame) : Fmp4Muxer :=
  { s with
    samples := s.samples ++ [⟨annexbToAvcc frame.data, s.firstDuration, frame.keyframe⟩]
    fragTicks := s.fragTicks + s.firstDuration }

/-- Build the initialisation segment, where nothing is left to wait for; the segment built
before, where it is not. -/
def openInit (s : Fmp4Muxer) (init : Option Buffer) : Outcome (Option Buffer) :=
  if !s.initSent && (!s.audioRequested || s.audioCodec.isSome || s.audioDisabled) then
    s.buildInit.bind fun init s => (.ok (some init), { s with initSent := true })
  else (.ok init, s)

def samplesStartKeyframe (s : Fmp4Muxer) : Bool := (s.samples.head?.map Sample.keyframe).getD false

/-- The segments of a call, where there are any. -/
def emit (s : Fmp4Muxer) (init fragment : Option Buffer) : Option MediaFragment :=
  if init.isSome || fragment.isSome then
    some
      { init
        data := fragment.getD []
        keyframe := fragment.isSome && s.samplesStartKeyframe }
  else none

/-- Push one access unit. -/
def push (s : Fmp4Muxer) (frame : LiveVideoFrame) (timestampMs : ℚ) :
    Outcome (Option MediaFragment) :=
  if frame.codec = .av1 then (.error .av1, s)
  else
    match s.adopt frame timestampMs with
    | none => (.ok none, s)
    | some s =>
      ((s.measure timestampMs).cut frame).bind fun segments s =>
        ((s.enqueue frame).openInit segments.1).bind fun init s =>
          (.ok (s.emit init segments.2), s)

/-- Close the last fragment. -/
def flush (s : Fmp4Muxer) : Outcome (Option MediaFragment) :=
  if s.samples = [] then (.ok none, s)
  else s.closeFragment.bind fun segments s =>
    (.ok (some { init := segments.1, data := segments.2, keyframe := true }), s)

/-! ### Audio -/

/-- Leave out the audio for good. -/
def disableAudio (s : Fmp4Muxer) : Outcome (Option MediaFragment) :=
  { s with audioDisabled := true, audioSamples := [] }.announceInit

/-- The decode time of a run that begins with this frame, or the duration of the frame before. -/
def alignAudio (s : Fmp4Muxer) (measured : ℤ) (timestampMs : ℚ) : Fmp4Muxer :=
  match s.timelineAligned, s.audioSamples, s.timelineOriginMs with
  | true, [], some origin =>
    { s with
      audioBaseDecodeTime := mathRound ((timestampMs - origin) * (AAC_SAMPLE_RATE / 1000)) }
  | _, _, _ =>
    if 0 < measured then { s with audioSamples := setLastDuration measured s.audioSamples } else s

def enqueueAudio (s : Fmp4Muxer) (codec : AacCodec) (payload : Buffer) (timestampMs : ℚ) :
    Fmp4Muxer :=
  let measured := match s.lastAudioTimestampMs with
    | none => 0
    | some last => mathRound ((timestampMs - last) * (AAC_SAMPLE_RATE / 1000))
  let s := { s with
    audioCodec := some codec
    firstAudioTimestampMs := some (s.firstAudioTimestampMs.getD timestampMs)
    lastAudioTimestampMs := some timestampMs }
  let s := s.alignAudio measured timestampMs
  let duration : ℕ := if codec = .eld then AAC_ELD_SAMPLES_PER_FRAME else AAC_SAMPLES_PER_FRAME
  { s with audioSamples := s.audioSamples ++ [⟨payload, duration, true⟩] }

/-- Push one audio frame. -/
def pushAudio (s : Fmp4Muxer) (frame : LiveAudioFrame) (timestampMs : ℚ) :
    Outcome (Option MediaFragment) :=
  if !s.audioRequested || s.audioDisabled then (.ok none, s)
  else
    match frame.codec with
    | .g711a =>
      if s.initSent then (.ok none, s) else { s with audioDisabled := true }.announceInit
    | .aac codec =>
      if s.audioCodec.isSome && s.audioCodec ≠ some codec then s.disableAudio
      else
        match parseAdtsHeader frame.data with
        | none => (.error (.incompleteAdts codec), s)
        | some header =>
          if frame.data.length < header.frameLength then (.error (.incompleteAdts codec), s)
          else if header.frequencyIndex ≠ ADTS_FREQUENCY_INDEX_16K ∨
              header.channels ≠ ADTS_CHANNELS_MONO then s.disableAudio
          else
            (s.enqueueAudio codec
              (Buf.subarray frame.data header.headerLength header.frameLength)
              timestampMs).announceInit

end Fmp4Muxer

end EufySdk
