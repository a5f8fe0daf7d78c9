import Mathlib.Tactic
import EufySdk.Core.Thrown
import EufySdk.Transport.P2p.Codec

/-!
# Video frames and their ciphers

`transport/p2p/video.ts` up to the decoder, with `eciesUnwrap` of `transport/p2p/codec.ts` and
`decodeVideoFrame` of `transport/p2p/p2p-session.ts`: a `CMD_VIDEO_FRAME` payload is a header of 22
bytes and a share of an access unit, plain or under one of two ciphers. An end-to-end encrypted
camera wraps the key of its stream in each keyframe, and the frames behind it are read with the key
of the last keyframe that could be unwrapped.

- `parseVideoFrameHeader` — the 22-byte header
- `VideoCiphers` — the ciphers of Node.js
- `eciesUnwrap` — the key in an envelope
- `VideoFrameDecoder.decodeFrame` — a frame of an end-to-end encrypted camera
- `decodeVideoFrame` — a frame of a camera that wraps a key for the session
-/

namespace EufySdk.Video

open Bytes

def HEADER_LEN : ℕ := 0x16
def ENVELOPE_OFFSET : ℕ := 0x16
def ENVELOPE_LEN : ℕ := 0x81
def GCM_TAG_OFFSET : ℕ := 0x97
def GCM_TAG_LEN : ℕ := 16
def GCM_NONCE_OFFSET : ℕ := 0xa7
def GCM_NONCE_LEN : ℕ := 12
def BODY_OFFSET : ℕ := 0xb3

/-- The bytes of `"eufy security"`. -/
def VIDEO_GCM_AAD : Buffer := Codec.utf8 "eufy security"

structure VideoFrameHeader where
  payloadLength : ℕ
  keyframe : Bool
  flags : UInt8
  sequence : ℕ
  width : ℤ
  height : ℤ
  timestamp : ℕ
  deriving DecidableEq, Repr

/-- `buf.readUInt16LE(offset)`, where the buffer is long enough. -/
def readUInt16LE (b : Buffer) (offset : ℕ) : ℕ :=
  Bytes.readUIntLE (Buf.subarray b offset (offset + 2))

/-- `buf.readUInt32LE(offset)`, where the buffer is long enough. -/
def readUInt32LE (b : Buffer) (offset : ℕ) : ℕ :=
  Bytes.readUIntLE (Buf.subarray b offset (offset + 4))

/-- `buf.readInt16LE(offset)`, where the buffer is long enough. -/
def readInt16LE (b : Buffer) (offset : ℕ) : ℤ :=
  let n := readUInt16LE b offset
  if n < 32768 then n else (n : ℤ) - 65536

def parseVideoFrameHeader (payload : Buffer) : Option VideoFrameHeader :=
  if payload.length < HEADER_LEN then none
  else
    let flags := payload.getD 0x04 0
    some
      { payloadLength := readUInt32LE payload 0x00
        keyframe := flags &&& 0x01 = 1
        flags
        sequence := readUInt16LE payload 0x06
        width := readInt16LE payload 0x0a
        height := readInt16LE payload 0x0c
        timestamp := readUInt32LE payload 0x0e }

theorem readUInt16LE_append {b : Buffer} {offset : ℕ} (h : offset + 2 ≤ b.length)
    (rest : Buffer) : readUInt16LE (b ++ rest) offset = readUInt16LE b offset := by
  rw [readUInt16LE, readUInt16LE, Buf.subarray, Buf.subarray, List.take_append_of_le_length h]

theorem readUInt32LE_append {b : Buffer} {offset : ℕ} (h : offset + 4 ≤ b.length)
    (rest : Buffer) : readUInt32LE (b ++ rest) offset = readUInt32LE b offset := by
  rw [readUInt32LE, readUInt32LE, Buf.subarray, Buf.subarray, List.take_append_of_le_length h]

theorem readInt16LE_append {b : Buffer} {offset : ℕ} (h : offset + 2 ≤ b.length)
    (rest : Buffer) : readInt16LE (b ++ rest) offset = readInt16LE b offset := by
  unfold readInt16LE
  rw [readUInt16LE_append h]

/-- A header is read from the first 22 bytes alone. -/
theorem parseVideoFrameHeader_append {head : Buffer} (hlength : head.length = HEADER_LEN)
    (rest : Buffer) : parseVideoFrameHeader (head ++ rest) = parseVideoFrameHeader head := by
  have hle {stop : ℕ} (hstop : stop ≤ 22) : stop ≤ head.length := hlength ▸ hstop
  have hflags : (head ++ rest).getD 0x04 0 = head.getD 0x04 0 := by
    rw [List.getD_eq_getElem?_getD, List.getD_eq_getElem?_getD,
      List.getElem?_append_left (hle (by decide))]
  have hlong : ¬(head ++ rest).length < HEADER_LEN := by
    rw [List.length_append]
    omega
  rw [parseVideoFrameHeader, parseVideoFrameHeader, if_neg hlong, if_neg hlength.not_lt, hflags,
    readUInt32LE_append (hle (by decide)), readUInt16LE_append (hle (by decide)),
    readInt16LE_append (hle (by decide)), readInt16LE_append (hle (by decide)),
    readUInt32LE_append (hle (by decide))]

/-- The ciphers of Node.js. A call that throws is `none`. -/
structure VideoCiphers where
  /-- The secret that a private key and a compressed public key on P-256 share. -/
  computeSecret : Buffer → Buffer → Option Buffer
  hmacSha256 : Buffer → Buffer → Buffer
  /-- AES-128-CBC without padding, under key and initialisation vector. -/
  aes128CbcDecrypt : Buffer → Buffer → Buffer → Option Buffer
  /-- AES-256-GCM under key, nonce, additional data and tag. -/
  aes256GcmDecrypt : Buffer → Buffer → Buffer → Buffer → Buffer → Option Buffer
  /-- AES-ECB without padding, under a key of 16 or 32 bytes. -/
  aesEcbDecrypt : Buffer → Buffer → Option Buffer

/-! ## The envelope of a keyframe -/

/-- The turns of `eufyKdf`, while there are fewer than `outLen` bytes; a digest has 32. -/
def kdfFrom (hmac : Buffer → Buffer → Buffer) (shared : Buffer) : ℕ → Buffer → Buffer
  | 0, _ => []
  | turns + 1, t =>
    let t := hmac shared t
    hmac shared (t ++ Codec.utf8 "ECIES") ++ kdfFrom hmac shared turns t

def eufyKdf (hmac : Buffer → Buffer → Buffer) (shared : Buffer) (outLen : ℕ) : Buffer :=
  (kdfFrom hmac shared ((outLen + 31) / 32) (Codec.utf8 "ECIES")).take outLen

structure EciesUnwrapOptions where
  verifyHmac : Bool := false
  pkcs7 : Bool := false

/-- A padding of as many bytes as its last one says is taken off, another end is left. -/
def stripPkcs7 (full : Buffer) : Buffer :=
  match full.getLast? with
  | none => full
  | some pad =>
    if 1 ≤ pad ∧ pad ≤ 16 ∧ (full.drop (full.length - pad.toNat)).all (· = pad) then
      full.take (full.length - pad.toNat)
    else full

def eciesUnwrap (c : VideoCiphers) (envelope eccPrivateKey : Buffer)
    (options : EciesUnwrapOptions) : Option Buffer := do
  let minLen := 33 + 16 + 48 + if options.verifyHmac then 32 else 0
  if envelope.length < minLen then none
  let ephemeralPub := Buf.subarray envelope 0 33
  let iv := Buf.subarray envelope 33 49
  let ct := Buf.subarray envelope 49 (49 + 48)
  let shared ← c.computeSecret eccPrivateKey ephemeralPub
  let kdf := eufyKdf c.hmacSha256 shared 48
  if options.verifyHmac then
    let tag := Buf.subarray envelope 97 (97 + 32)
    let computed := c.hmacSha256 (Buf.subarray kdf 16 48) (Buf.subarray envelope 33 97)
    if computed ≠ tag then none
  let full ← c.aes128CbcDecrypt (Buf.subarray kdf 0 16) iv ct
  return if options.pkcs7 then stripPkcs7 full else full

/-! ## End-to-end encrypted cameras -/

structure DecodedVideoFrame where
  keyframe : Bool
  h264 : Buffer
  width : ℤ
  height : ℤ
  deriving DecidableEq, Repr

/-- A decoder; its constructor throws for a private key of another length. -/
structure VideoFrameDecoder where
  eccPrivateKey : Buffer
  length_eccPrivateKey : eccPrivateKey.length = 32
  mediaKey : Option Buffer := none

namespace VideoFrameDecoder

def unwrapMediaKey (c : VideoCiphers) (d : VideoFrameDecoder) (envelope : Buffer) :
    Option Buffer :=
  (eciesUnwrap c envelope d.eccPrivateKey { verifyHmac := true, pkcs7 := true }).filter
    (·.length = 32)

/-- The body of a frame under the key that is in force. -/
def decryptBody (c : VideoCiphers) (d : VideoFrameDecoder) (header : VideoFrameHeader)
    (payload : Buffer) : Option DecodedVideoFrame := do
  let mediaKey ← d.mediaKey
  if payload.length < BODY_OFFSET then none
  let tag := Buf.subarray payload GCM_TAG_OFFSET (GCM_TAG_OFFSET + GCM_TAG_LEN)
  let nonce := Buf.subarray payload GCM_NONCE_OFFSET (GCM_NONCE_OFFSET + GCM_NONCE_LEN)
  let h264 ← c.aes256GcmDecrypt mediaKey nonce VIDEO_GCM_AAD tag (payload.drop BODY_OFFSET)
  return { keyframe := header.keyframe, h264, width := header.width, height := header.height }

/-- What the decoder makes of a frame, and the decoder behind it. -/
def decodeFrame (c : VideoCiphers) (d : VideoFrameDecoder) (payload : Buffer) :
    Option DecodedVideoFrame × VideoFrameDecoder :=
  match parseVideoFrameHeader payload with
  | none => (none, d)
  | some header =>
    if header.keyframe then
      if payload.length < ENVELOPE_OFFSET + ENVELOPE_LEN then (none, d)
      else
        match d.unwrapMediaKey c
            (Buf.subarray payload ENVELOPE_OFFSET (ENVELOPE_OFFSET + ENVELOPE_LEN)) with
        -- The wrong key or a damaged envelope: the key that is there is kept.
        | none => (none, d)
        | some key =>
          let d := { d with mediaKey := some key }
          (d.decryptBody c header payload, d)
    else (d.decryptBody c header payload, d)

end VideoFrameDecoder

/-! ## Cameras that wrap a key for the session -/

/-- `decodeVideoFrame` of a session; `rsaPrivateKey` is what the key of the session decrypts, where
the session has one. -/
def decodeVideoFrame (c : VideoCiphers) (rsaPrivateKey : Option (Buffer → Option Buffer))
    (data : Buffer) (signCode : ℕ) : Option Buffer :=
  if data.length < 22 then none
  else
    let videoDataLength := readUInt32LE data 0
    if 0 < signCode ∧ 128 ≤ videoDataLength then do
      let privateDecrypt ← rsaPrivateKey
      if data.length < 150 then none
      let aesKey ← privateDecrypt (Buf.subarray data 22 150)
      let payloadStart := 151
      if 16 ≤ aesKey.length then
        let enc := Buf.subarray data payloadStart (payloadStart + 128)
        let tail := Buf.subarray data (payloadStart + 128) (payloadStart + videoDataLength)
        let head ← c.aesEcbDecrypt (aesKey.take (if 32 ≤ aesKey.length then 32 else 16)) enc
        return head ++ tail
      else return Buf.subarray data payloadStart (payloadStart + videoDataLength)
    else some (Buf.subarray data 22 (22 + videoDataLength))

/-! ## A stream under changing keys -/

/-- A key as a camera wraps it: padded by a block, encrypted under one half of what the shared secret
is stretched to, and authenticated under the other. -/
structure Envelope (c : VideoCiphers) (eccPrivateKey key : Buffer) where
  ephemeralPub : Buffer
  iv : Buffer
  ct : Buffer
  shared : Buffer
  length_ephemeralPub : ephemeralPub.length = 33
  length_iv : iv.length = 16
  length_ct : ct.length = 48
  secret : c.computeSecret eccPrivateKey ephemeralPub = some shared
  opens : c.aes128CbcDecrypt (Buf.subarray (eufyKdf c.hmacSha256 shared 48) 0 16) iv ct =
    some (key ++ List.replicate 16 16)
  length_tag : (c.hmacSha256 (Buf.subarray (eufyKdf c.hmacSha256 shared 48) 16 48)
    (iv ++ ct)).length = 32

namespace Envelope

variable {c : VideoCiphers} {eccPrivateKey key : Buffer} (e : Envelope c eccPrivateKey key)

def tag : Buffer :=
  c.hmacSha256 (Buf.subarray (eufyKdf c.hmacSha256 e.shared 48) 16 48) (e.iv ++ e.ct)

def bytes : Buffer := e.ephemeralPub ++ (e.iv ++ e.ct) ++ e.tag

theorem length_bytes : e.bytes.length = ENVELOPE_LEN := by
  have htag : e.tag.length = 32 := e.length_tag
  simp [bytes, e.length_ephemeralPub, e.length_iv, e.length_ct, htag, ENVELOPE_LEN]

/-- The padding of a whole block is taken off. -/
theorem stripPkcs7_block (key : Buffer) : stripPkcs7 (key ++ List.replicate 16 16) = key := by
  have hlast : (key ++ List.replicate 16 (16 : UInt8)).getLast? = some 16 := by
    rw [List.getLast?_append_of_ne_nil _ (by decide)]
    rfl
  have hstart : (key ++ List.replicate 16 (16 : UInt8)).length - (16 : UInt8).toNat =
      key.length := by
    rw [List.length_append, List.length_replicate]
    exact Nat.add_sub_cancel _ _
  rw [stripPkcs7, hlast]
  simp only [hstart, List.drop_left, List.take_left]
  exact if_pos (by decide)

/-- An envelope gives up the key that was put in it. -/
theorem eciesUnwrap_bytes :
    eciesUnwrap c e.bytes eccPrivateKey { verifyHmac := true, pkcs7 := true } = some key := by
  have htag : e.tag.length = 32 := e.length_tag
  have hpub : Buf.subarray e.bytes 0 33 = e.ephemeralPub := by
    rw [Buf.subarray, bytes, List.append_assoc, List.drop_zero, ← e.length_ephemeralPub,
      List.take_left]
  have hmac : Buf.subarray e.bytes 33 97 = e.iv ++ e.ct := by
    have hfront : (e.ephemeralPub ++ (e.iv ++ e.ct)).length = 97 := by
      simp [e.length_ephemeralPub, e.length_iv, e.length_ct]
    rw [Buf.subarray, bytes, ← hfront, List.take_left, ← e.length_ephemeralPub, List.drop_left]
  have htail : Buf.subarray e.bytes 97 (97 + 32) = e.tag := by
    have hfront : (e.ephemeralPub ++ (e.iv ++ e.ct)).length = 97 := by
      simp [e.length_ephemeralPub, e.length_iv, e.length_ct]
    have hall : e.bytes.take (97 + 32) = e.bytes := List.take_of_length_le e.length_bytes.le
    rw [Buf.subarray, hall, bytes, ← hfront, List.drop_left]
  have hiv : Buf.subarray e.bytes 33 49 = e.iv := by
    have hshort : Buf.subarray e.bytes 33 49 = (Buf.subarray e.bytes 33 97).take 16 := by
      rw [Buf.subarray, Buf.subarray, List.take_drop, List.take_take]
      rfl
    rw [hshort, hmac, ← e.length_iv, List.take_left]
  have hct : Buf.subarray e.bytes 49 (49 + 48) = e.ct := by
    have hrest : Buf.subarray e.bytes 49 (49 + 48) = (Buf.subarray e.bytes 33 97).drop 16 := by
      rw [Buf.subarray, Buf.subarray, List.drop_drop]
    rw [hrest, hmac, ← e.length_iv, List.drop_left]
  have hlong : ¬e.bytes.length < 33 + 16 + 48 + 32 := by
    rw [e.length_bytes]
    decide
  simp only [eciesUnwrap, if_true, hlong, if_false, hpub, hiv, hct, hmac, htail, e.secret,
    Option.bind_eq_bind, Option.bind_some, e.opens, stripPkcs7_block]
  exact if_neg (not_not.mpr rfl)

end Envelope

/-- The body of a payload under a key. -/
def openBody (c : VideoCiphers) (payload key : Buffer) : Option Buffer :=
  if payload.length < BODY_OFFSET then none
  else
    c.aes256GcmDecrypt key
      (Buf.subarray payload GCM_NONCE_OFFSET (GCM_NONCE_OFFSET + GCM_NONCE_LEN)) VIDEO_GCM_AAD
      (Buf.subarray payload GCM_TAG_OFFSET (GCM_TAG_OFFSET + GCM_TAG_LEN))
      (payload.drop BODY_OFFSET)

/-- A frame that a camera has sealed under a key; a keyframe wraps the key. Its body opens under that
key alone, and under none where it has been damaged. -/
structure SealedFrame (c : VideoCiphers) (eccPrivateKey : Buffer) where
  payload : Buffer
  header : VideoFrameHeader
  key : Buffer
  h264 : Option Buffer
  length_key : key.length = 32
  parses : parseVideoFrameHeader payload = some header
  wraps : header.keyframe = true → ∃ e : Envelope c eccPrivateKey key,
    Buf.subarray payload ENVELOPE_OFFSET (ENVELOPE_OFFSET + ENVELOPE_LEN) = e.bytes
  opens : ∀ k, openBody c payload k = if k = key then h264 else none

def SealedFrame.picture {c : VideoCiphers} {eccPrivateKey : Buffer}
    (f : SealedFrame c eccPrivateKey) : Option DecodedVideoFrame :=
  f.h264.map fun h264 =>
    { keyframe := f.header.keyframe, h264, width := f.header.width, height := f.header.height }

/-- A payload that a decoder for the private key cannot begin to read: it has no header, or is that
of a keyframe whose envelope gives no key. -/
def Unreadable (c : VideoCiphers) (eccPrivateKey payload : Buffer) : Prop :=
  ∀ header ∈ parseVideoFrameHeader payload, header.keyframe = true ∧
    (ENVELOPE_OFFSET + ENVELOPE_LEN ≤ payload.length →
      (eciesUnwrap c (Buf.subarray payload ENVELOPE_OFFSET (ENVELOPE_OFFSET + ENVELOPE_LEN))
        eccPrivateKey { verifyHmac := true, pkcs7 := true }).filter (·.length = 32) = none)

/-- A payload that arrives. -/
inductive Arrival (c : VideoCiphers) (eccPrivateKey : Buffer)
  | sent (f : SealedFrame c eccPrivateKey)
  | damaged (payload : Buffer) (h : Unreadable c eccPrivateKey payload)

namespace Arrival

variable {c : VideoCiphers} {eccPrivateKey : Buffer}

def payload : Arrival c eccPrivateKey → Buffer
  | sent f => f.payload
  | damaged payload _ => payload

/-- The key that a keyframe brings. -/
def newKey : Arrival c eccPrivateKey → Option Buffer
  | sent f => if f.header.keyframe then some f.key else none
  | damaged _ _ => none

/-- What a payload is read as while a key is in force. -/
def readUnder (key : Option Buffer) : Arrival c eccPrivateKey → Option DecodedVideoFrame
  | sent f => if key = some f.key then f.picture else none
  | damaged _ _ => none

/-- The key of the last keyframe that has arrived whole. -/
def lastKey (arrivals : List (Arrival c eccPrivateKey)) : Option Buffer :=
  arrivals.reverse.findSome? newKey

end Arrival

namespace VideoFrameDecoder

variable {c : VideoCiphers} {eccPrivateKey : Buffer} {d : VideoFrameDecoder}

/-- The payloads of a stream, one after the other. -/
def decodeAll (c : VideoCiphers) (d : VideoFrameDecoder) :
    List Buffer → List (Option DecodedVideoFrame) × VideoFrameDecoder
  | [] => ([], d)
  | payload :: payloads =>
    let here := d.decodeFrame c payload
    let rest := decodeAll c here.2 payloads
    (here.1 :: rest.1, rest.2)

theorem decryptBody_eq (header : VideoFrameHeader) (payload : Buffer) :
    d.decryptBody c header payload = do
      let key ← d.mediaKey
      let h264 ← openBody c payload key
      return { keyframe := header.keyframe, h264, width := header.width, height := header.height } := by
  rw [decryptBody]
  cases d.mediaKey with
  | none => rfl
  | some key =>
    simp only [Option.bind_eq_bind, Option.bind_some, openBody]
    by_cases hshort : payload.length < BODY_OFFSET
    · simp [hshort]
    · simp [hshort]

theorem decryptBody_sealed (f : SealedFrame c eccPrivateKey) :
    d.decryptBody c f.header f.payload = if d.mediaKey = some f.key then f.picture else none := by
  rw [decryptBody_eq]
  cases hkey : d.mediaKey with
  | none => rfl
  | some key =>
    simp only [Option.bind_eq_bind, Option.bind_some, f.opens, Option.some.injEq,
      SealedFrame.picture]
    by_cases hsame : key = f.key
    · simp [hsame, Option.map_eq_bind]
    · simp [hsame]

/-- **One payload.** A keyframe that can be unwrapped changes the key, and a frame is read under the
key that is then in force. -/
theorem decodeFrame_arrival (hd : d.eccPrivateKey = eccPrivateKey)
    (a : Arrival c eccPrivateKey) :
    d.decodeFrame c a.payload =
      (a.readUnder (a.newKey.or d.mediaKey), { d with mediaKey := a.newKey.or d.mediaKey }) := by
  cases a with
  | damaged payload h =>
    simp only [Arrival.payload, Arrival.newKey, Arrival.readUnder, Option.none_or]
    rw [decodeFrame]
    cases hparse : parseVideoFrameHeader payload with
    | none => rfl
    | some header =>
      obtain ⟨hkeyframe, hkey⟩ := h header hparse
      simp only [hkeyframe, if_true]
      by_cases hshort : payload.length < ENVELOPE_OFFSET + ENVELOPE_LEN
      · simp only [hshort, if_true]
      · have hnone : d.unwrapMediaKey c
            (Buf.subarray payload ENVELOPE_OFFSET (ENVELOPE_OFFSET + ENVELOPE_LEN)) = none := by
          rw [unwrapMediaKey, hd]
          exact hkey (not_lt.mp hshort)
        simp only [hshort, if_false, hnone]
  | sent f =>
    simp only [Arrival.payload, Arrival.newKey, Arrival.readUnder]
    rw [decodeFrame, f.parses]
    by_cases hkeyframe : f.header.keyframe = true
    · obtain ⟨e, he⟩ := f.wraps hkeyframe
      have hlong : ¬f.payload.length < ENVELOPE_OFFSET + ENVELOPE_LEN := by
        intro hshort
        have hlength := congrArg List.length he
        rw [Buf.length_subarray, e.length_bytes, min_eq_right hshort.le] at hlength
        have hpos : 0 < ENVELOPE_LEN := by decide
        omega
      have hkey : d.unwrapMediaKey c
          (Buf.subarray f.payload ENVELOPE_OFFSET (ENVELOPE_OFFSET + ENVELOPE_LEN)) =
            some f.key := by
        rw [unwrapMediaKey, he, hd, e.eciesUnwrap_bytes]
        simp [f.length_key]
      simp only [hkeyframe, if_true, hlong, if_false, hkey, decryptBody_sealed, Option.some_or]
    · simp only [hkeyframe, Bool.false_eq_true, if_false, decryptBody_sealed, Option.none_or]

theorem lastKey_cons (a : Arrival c eccPrivateKey) (arrivals : List (Arrival c eccPrivateKey)) :
    Arrival.lastKey (a :: arrivals) = (Arrival.lastKey arrivals).or a.newKey := by
  rw [Arrival.lastKey, List.reverse_cons, List.findSome?_append]
  congr 1
  cases h : a.newKey <;> simp [h]

/-- The payloads of a stream from any key on. -/
theorem decodeAll_from (arrivals : List (Arrival c eccPrivateKey))
    (hd : d.eccPrivateKey = eccPrivateKey) :
    (∀ (i : ℕ) (a : Arrival c eccPrivateKey), arrivals[i]? = some a →
      (decodeAll c d (arrivals.map Arrival.payload)).1[i]? =
        some (a.readUnder ((Arrival.lastKey (arrivals.take (i + 1))).or d.mediaKey))) ∧
      (decodeAll c d (arrivals.map Arrival.payload)).2.mediaKey =
        (Arrival.lastKey arrivals).or d.mediaKey := by
  induction arrivals generalizing d with
  | nil => exact ⟨fun i a h => absurd h (by simp), rfl⟩
  | cons b arrivals ih =>
    obtain ⟨hrest, hkey⟩ := ih (d := { d with mediaKey := b.newKey.or d.mediaKey }) hd
    rw [List.map_cons, decodeAll, decodeFrame_arrival hd b]
    refine ⟨fun i a hi => ?_, ?_⟩
    · cases i with
      | zero =>
        obtain rfl := Option.some.inj hi
        rw [List.take_succ_cons, List.take_zero, lastKey_cons]
        rfl
      | succ i =>
        rw [List.take_succ_cons, lastKey_cons, Option.or_assoc]
        exact hrest i a hi
    · rw [lastKey_cons, Option.or_assoc]
      exact hkey

/-- **Each frame is read under the key of the last keyframe that has arrived.** Whichever frames are
lost or damaged, a frame that arrives is the camera's own picture when the last keyframe with a whole
envelope among those up to it wraps the frame's key, and nothing when it does not; a payload that
cannot be read leaves the key as it is. -/
theorem decodeAll_arrivals (arrivals : List (Arrival c eccPrivateKey))
    (hd : d.eccPrivateKey = eccPrivateKey) (hfresh : d.mediaKey = none) :
    (∀ (i : ℕ) (a : Arrival c eccPrivateKey), arrivals[i]? = some a →
      (decodeAll c d (arrivals.map Arrival.payload)).1[i]? =
        some (a.readUnder (Arrival.lastKey (arrivals.take (i + 1))))) ∧
      (decodeAll c d (arrivals.map Arrival.payload)).2.mediaKey = Arrival.lastKey arrivals := by
  obtain ⟨hread, hkey⟩ := decodeAll_from arrivals hd
  rw [hfresh, Option.or_none] at hkey
  refine ⟨fun i a hi => ?_, hkey⟩
  rw [hread i a hi, hfresh, Option.or_none]

end VideoFrameDecoder

/-! ### A stream that is joined inside of a group of pictures -/

namespace JoinedStream

def eccPrivateKey : Buffer := List.replicate 32 7

def mediaKey : Buffer := List.replicate 32 0x42

def iv : Buffer := List.replicate 16 3

def ephemeralPub : Buffer :=
  [0x02, 0x71, 0x35, 0xfa, 0x4f, 0xd9, 0x3a, 0x09, 0xdc, 0xe9, 0x8b, 0xbf, 0x68, 0x1b, 0x4b,
   0xfc, 0xf5, 0x0e, 0x7c, 0x0d, 0x63, 0x54, 0xe6, 0x2a, 0xfb, 0x0b, 0xff, 0x2a, 0x34, 0x29,
   0x61, 0x78, 0x65]

def shared : Buffer :=
  [0x69, 0xd2, 0x20, 0xc6, 0xab, 0x7e, 0x61, 0x94, 0x92, 0x7a, 0x8c, 0xa5, 0xda, 0x11, 0x2e,
   0x57, 0x3c, 0x08, 0xdf, 0xcc, 0xb7, 0x43, 0xd3, 0xf7, 0xf7, 0x69, 0x00, 0x48, 0x45, 0x11,
   0xfe, 0xb5]

def chained₁ : Buffer :=
  [0xf9, 0xfc, 0xe4, 0x41, 0x9c, 0x51, 0x53, 0x33, 0x42, 0x61, 0x03, 0xc9, 0x24, 0x84, 0x9e,
   0x45, 0x2e, 0x76, 0xd6, 0xbe, 0xa4, 0x6f, 0x0f, 0x81, 0x54, 0xd0, 0x29, 0x1a, 0x06, 0xca,
   0x02, 0x92]

def block₁ : Buffer :=
  [0x42, 0xd3, 0xbc, 0x5c, 0x39, 0xec, 0x1d, 0x04, 0x6c, 0xf9, 0xfd, 0xda, 0x4b, 0x97, 0xe1,
   0x8f, 0xf9, 0x65, 0xec, 0xd3, 0xc0, 0x31, 0x51, 0x74, 0x66, 0x9a, 0x20, 0xc9, 0xd5, 0xad,
   0x7c, 0xcd]

def chained₂ : Buffer :=
  [0x27, 0xed, 0x7c, 0x6b, 0xb4, 0xca, 0xc7, 0xe3, 0x42, 0x01, 0xee, 0x5f, 0x12, 0x1d, 0x05,
   0x2f, 0x34, 0x9b, 0x2a, 0x6f, 0xf1, 0x27, 0x16, 0x22, 0x0d, 0xe4, 0xc7, 0x43, 0xbc, 0x9e,
   0xed, 0x6d]

def block₂ : Buffer :=
  [0x37, 0x99, 0xd0, 0xd9, 0x98, 0x45, 0x9c, 0x7d, 0x57, 0xf9, 0xdc, 0x16, 0xe8, 0xc5, 0x1c,
   0xcd, 0xf7, 0x6b, 0x2d, 0x67, 0x69, 0x67, 0x77, 0xae, 0x64, 0x7d, 0xe8, 0x12, 0x9e, 0x6d,
   0xa9, 0x03]

def wrapped : Buffer :=
  [0x27, 0x5c, 0x96, 0x48, 0x19, 0x93, 0x28, 0x93, 0x9c, 0x8a, 0xa0, 0x73, 0xf8, 0x58, 0x1d,
   0x62, 0xc7, 0x57, 0x51, 0x55, 0x8d, 0xb6, 0x3b, 0x62, 0x33, 0x63, 0x1d, 0xb5, 0xd8, 0x41,
   0x20, 0xfb, 0x4a, 0x31, 0x12, 0xee, 0x7b, 0xc6, 0xf9, 0x77, 0x8b, 0xb1, 0xe8, 0x2b, 0x59,
   0x3d, 0x73, 0xd8]

def envelopeTag : Buffer :=
  [0x62, 0xe6, 0x8e, 0xfb, 0x63, 0xaf, 0xad, 0x0b, 0xab, 0x2d, 0x72, 0x2d, 0xe7, 0x72, 0x33,
   0x21, 0x79, 0xc5, 0xa3, 0x7f, 0x85, 0x50, 0xca, 0x70, 0xbf, 0xbd, 0xb4, 0x52, 0xc0, 0xbb,
   0xf0, 0x1c]

def keyframeTag : Buffer :=
  [0x22, 0x6c, 0x9b, 0x6d, 0xa3, 0xd6, 0x3c, 0x2b, 0x51, 0xfc, 0x57, 0x30, 0x1e, 0xab, 0x5d, 0x93]

def keyframeBody : Buffer :=
  [0x2d, 0xa9, 0xb6, 0x06, 0xf1, 0xdc]

def deltaTag : Buffer :=
  [0x78, 0x4d, 0xca, 0x9b, 0x1c, 0xf9, 0x28, 0x3b, 0xd4, 0xe4, 0xc7, 0x3b, 0xa6, 0xd8, 0x5c, 0x62]

def deltaBody : Buffer :=
  [0xf2, 0xe5, 0x06, 0x03, 0x9d]

def keyframePicture : Buffer := [0, 0, 0, 1, 0x65, 0x88]

def deltaPicture : Buffer := [0, 0, 0, 1, 0x41]

/-- The ciphers on the inputs of this stream. -/
def ciphers : VideoCiphers where
  computeSecret privateKey publicKey :=
    if privateKey = eccPrivateKey ∧ publicKey = ephemeralPub then some shared else none
  hmacSha256 key data :=
    if key = shared ∧ data = Codec.utf8 "ECIES" then chained₁
    else if key = shared ∧ data = chained₁ ++ Codec.utf8 "ECIES" then block₁
    else if key = shared ∧ data = chained₁ then chained₂
    else if key = shared ∧ data = chained₂ ++ Codec.utf8 "ECIES" then block₂
    else if key = block₁.drop 16 ++ block₂.take 16 ∧ data = iv ++ wrapped then envelopeTag
    else List.replicate 32 0
  aes128CbcDecrypt key iv' ct :=
    if key = block₁.take 16 ∧ iv' = iv ∧ ct = wrapped then
      some (mediaKey ++ List.replicate 16 16)
    else none
  aes256GcmDecrypt key nonce aad tag ct :=
    if key = mediaKey ∧ aad = VIDEO_GCM_AAD then
      if nonce = List.replicate 12 1 ∧ tag = keyframeTag ∧ ct = keyframeBody then
        some keyframePicture
      else if nonce = List.replicate 12 2 ∧ tag = deltaTag ∧ ct = deltaBody then some deltaPicture
      else none
    else none
  aesEcbDecrypt _ _ := none

def keyframePayload : Buffer :=
  [6, 0, 0, 0, 1, 0, 7, 0, 0, 0, 0x80, 0x07, 0x38, 0x04, 0, 0x10, 0, 0, 0, 0, 0, 0] ++
    (ephemeralPub ++ (iv ++ wrapped) ++ envelopeTag) ++ keyframeTag ++ List.replicate 12 1 ++
    keyframeBody

def deltaPayload : Buffer :=
  [5, 0, 0, 0, 0, 0, 8, 0, 0, 0, 0x80, 0x07, 0x38, 0x04, 0x28, 0x10, 0, 0, 0, 0, 0, 0] ++
    List.replicate 129 0 ++ deltaTag ++ List.replicate 12 2 ++ deltaBody

theorem kdf_shared :
    eufyKdf ciphers.hmacSha256 shared 48 = block₁ ++ block₂.take 16 := by decide

def envelope : Envelope ciphers eccPrivateKey mediaKey where
  ephemeralPub := ephemeralPub
  iv := iv
  ct := wrapped
  shared := shared
  length_ephemeralPub := rfl
  length_iv := rfl
  length_ct := rfl
  secret := by decide
  opens := by
    rw [kdf_shared]
    decide
  length_tag := by
    rw [kdf_shared]
    decide

/-- A body that the media key opens opens under no other key. -/
theorem openBody_eq {payload : Buffer} {h264 : Option Buffer}
    (hkey : openBody ciphers payload mediaKey = h264) (k : Buffer) :
    openBody ciphers payload k = if k = mediaKey then h264 else none := by
  by_cases hk : k = mediaKey
  · rw [hk, hkey, if_pos rfl]
  · rw [if_neg hk, openBody]
    split
    · rfl
    · exact if_neg fun h => hk h.1

def keyframe : SealedFrame ciphers eccPrivateKey where
  payload := keyframePayload
  header :=
    { payloadLength := 6, keyframe := true, flags := 1, sequence := 7, width := 1920
      height := 1080, timestamp := 4096 }
  key := mediaKey
  h264 := some keyframePicture
  length_key := rfl
  parses := by decide +kernel
  wraps _ := ⟨envelope, by decide⟩
  opens := openBody_eq (by decide +kernel)

def delta : SealedFrame ciphers eccPrivateKey where
  payload := deltaPayload
  header :=
    { payloadLength := 5, keyframe := false, flags := 0, sequence := 8, width := 1920
      height := 1080, timestamp := 4136 }
  key := mediaKey
  h264 := some deltaPicture
  length_key := rfl
  parses := by decide +kernel
  wraps h := absurd h Bool.false_ne_true
  opens := openBody_eq (by decide +kernel)

theorem unreadable_short : Unreadable ciphers eccPrivateKey [1, 2, 3] :=
  fun _ h => absurd h (Option.not_mem_none _)

/-- A frame ahead of the first keyframe is nothing, and the same frame behind it is a picture, over
a damaged payload between the two. -/
theorem decodeAll_joined :
    ∃ results, (VideoFrameDecoder.decodeAll ciphers { eccPrivateKey, length_eccPrivateKey := rfl }
        [deltaPayload, keyframePayload, [1, 2, 3], deltaPayload]).1 = results ∧
      results[0]? = some none ∧ results[1]? = some keyframe.picture ∧ results[2]? = some none ∧
      results[3]? = some delta.picture := by
  obtain ⟨hread, -⟩ := VideoFrameDecoder.decodeAll_arrivals
    (c := ciphers) (d := { eccPrivateKey, length_eccPrivateKey := rfl })
    [.sent delta, .sent keyframe, .damaged [1, 2, 3] unreadable_short, .sent delta] rfl rfl
  exact ⟨_, rfl, hread 0 _ rfl, hread 1 _ rfl, hread 2 _ rfl, hread 3 _ rfl⟩

end JoinedStream

end EufySdk.Video
