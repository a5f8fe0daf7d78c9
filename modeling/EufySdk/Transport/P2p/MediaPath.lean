import Mathlib.Tactic
import EufySdk.Transport.P2p.AccessUnitAssembler
import EufySdk.Transport.P2p.Annexb
import EufySdk.Transport.P2p.Dispatch

/-!
# What a live stream makes of its frames

`onFrame`, `acceptsMedia`, `annexbOf` and `plaintextAnnexB` of `transport/p2p/live-stream.ts`: a
stream takes the media frames of its channel, decodes the video ones by the first of three ways that
gives bytes, has their access units assembled, and emits each unit with the codec that the last
keyframe has shown.

- `MediaPath` — what a stream keeps between two frames
- `annexbOf`, `onFrame` — one frame
- `emit` — the frames of a session, one after the other
- `Carries` — a frame as a station sends it, plain or sealed for the session
-/

namespace EufySdk.Video

open Bytes P2PSession

def VIDEO_HEADER_LEN : ℕ := 0x16
def AUDIO_HEADER_LEN : ℕ := 0x10
def AUDIO_TYPE_OFFSET : ℕ := 0x05

inductive LiveAudioCodec
  | aacLc
  | g711a
  | aacEld
  deriving DecidableEq, Repr

def AUDIO_CODECS (codecId : UInt8) : Option LiveAudioCodec :=
  if codecId = 0 then some .aacLc
  else if codecId = 2 then some .g711a
  else if codecId = 7 then some .aacEld
  else none

structure VideoEvent where
  unit : AssembledAccessUnit
  codec : VideoCodec
  deriving DecidableEq, Repr

structure AudioEvent where
  codec : LiveAudioCodec
  data : Buffer
  deriving DecidableEq, Repr

/-- What a stream keeps between two frames. -/
structure MediaPath where
  mediaChannel : Option ℤ := none
  units : AccessUnitAssembler := {}
  decoder : Option VideoFrameDecoder := none
  lastCodec : VideoCodec := .h264

/-- The bytes behind the header, where they begin with a start code. -/
def plaintextAnnexB (d : Buffer) : Option Buffer :=
  let body := d.drop VIDEO_HEADER_LEN
  if VIDEO_HEADER_LEN < d.length ∧ 4 ≤ body.length ∧
      (body.take 4 = [0, 0, 0, 1] ∨ body.take 3 = [0, 0, 1]) then some body
  else none

/-- The session decodes a frame where it can; the header and the decoder of the stream are what is
left. The decoder is given back as it is behind the frame. -/
def annexbOf (c : VideoCiphers) (rsaPrivateKey : Option (Buffer → Option Buffer))
    (decoder : Option VideoFrameDecoder) (payload : Buffer) (signCode : ℕ) :
    Option Buffer × Option VideoFrameDecoder :=
  match (decodeVideoFrame c rsaPrivateKey payload signCode).or (plaintextAnnexB payload) with
  | some annexb => (some annexb, decoder)
  | none =>
    match decoder with
    | none => (none, none)
    | some d =>
      let decoded := d.decodeFrame c payload
      (decoded.1.map (·.h264), some decoded.2)

namespace MediaPath

def acceptsMedia (p : MediaPath) (f : P2PFrame) : Bool :=
  match p.mediaChannel with
  | none => true
  | some channel =>
    (f.header.commandId ≠ CMD_VIDEO_FRAME && f.header.commandId ≠ CMD_AUDIO_FRAME) ||
      (f.header.channel : ℤ) = channel

/-- The events of the units of a frame, each keyframe's codec in force from its own unit on. -/
def videoEvents (lastCodec : VideoCodec) : List AssembledAccessUnit → List VideoEvent × VideoCodec
  | [] => ([], lastCodec)
  | unit :: units =>
    let codec := if unit.keyframe then (sniffAnnexbCodec unit.data).getD lastCodec else lastCodec
    let rest := videoEvents codec units
    ({ unit, codec } :: rest.1, rest.2)

def onVideo (c : VideoCiphers) (rsaPrivateKey : Option (Buffer → Option Buffer)) (p : MediaPath)
    (f : P2PFrame) : List VideoEvent × MediaPath :=
  -- A payload without a header is not decoded.
  let decoded :=
    if (parseVideoFrameHeader f.data).isSome then
      annexbOf c rsaPrivateKey p.decoder f.data f.header.signCode
    else (none, p.decoder)
  let pushed := p.units.push f.data fun _ => decoded.1
  let events := videoEvents p.lastCodec pushed.units
  (events.1, { p with units := pushed.next, decoder := decoded.2, lastCodec := events.2 })

def onAudio (f : P2PFrame) : List AudioEvent :=
  let audio := if AUDIO_HEADER_LEN < f.data.length then f.data.drop AUDIO_HEADER_LEN else f.data
  if audio = [] then []
  else ((f.data[AUDIO_TYPE_OFFSET]?.bind AUDIO_CODECS).map ({ codec := ·, data := audio })).toList

/-- A frame of the session: the video and the audio it is emitted as. -/
def onFrame (c : VideoCiphers) (rsaPrivateKey : Option (Buffer → Option Buffer)) (p : MediaPath)
    (f : P2PFrame) : List VideoEvent × List AudioEvent × MediaPath :=
  if p.acceptsMedia f then
    if f.header.commandId = CMD_VIDEO_FRAME then
      let video := p.onVideo c rsaPrivateKey f
      (video.1, [], video.2)
    else if f.header.commandId = CMD_AUDIO_FRAME then ([], onAudio f, p)
    else ([], [], p)
  else ([], [], p)

/-- What the frames so far were emitted as, and what the stream keeps. -/
structure Emitted where
  videos : List VideoEvent := []
  audios : List AudioEvent := []
  path : MediaPath

/-- The frames of a session, one after the other. -/
def emit (c : VideoCiphers) (rsaPrivateKey : Option (Buffer → Option Buffer)) (p : MediaPath)
    (fs : List P2PFrame) : Emitted :=
  fs.foldl
    (fun e f =>
      let here := e.path.onFrame c rsaPrivateKey f
      { videos := e.videos ++ here.1, audios := e.audios ++ here.2.1, path := here.2.2 })
    { path := p }

variable {c : VideoCiphers} {rsaPrivateKey : Option (Buffer → Option Buffer)} {p : MediaPath}
  {f : P2PFrame}

/-- A frame of the stream's own video. -/
def ownVideo (p : MediaPath) (f : P2PFrame) : Bool :=
  p.acceptsMedia f && f.header.commandId = CMD_VIDEO_FRAME

/-- A frame of the stream's own audio. -/
def ownAudio (p : MediaPath) (f : P2PFrame) : Bool :=
  p.acceptsMedia f && f.header.commandId = CMD_AUDIO_FRAME

/-- A frame as the assembler gets it, where the session decodes it. -/
def sessionFrame (c : VideoCiphers) (rsaPrivateKey : Option (Buffer → Option Buffer))
    (f : P2PFrame) : AccessUnitAssembler.Frame where
  payload := f.data
  decode data := decodeVideoFrame c rsaPrivateKey data f.header.signCode

theorem acceptsMedia_congr {q : MediaPath} (h : q.mediaChannel = p.mediaChannel) :
    q.acceptsMedia = p.acceptsMedia := by
  funext f
  rw [acceptsMedia, acceptsMedia, h]

/-! ## The codec of each unit -/

theorem videoEvents_append (codec : VideoCodec) (us vs : List AssembledAccessUnit) :
    videoEvents codec (us ++ vs) =
      ((videoEvents codec us).1 ++ (videoEvents (videoEvents codec us).2 vs).1,
        (videoEvents (videoEvents codec us).2 vs).2) := by
  induction us generalizing codec with
  | nil => rfl
  | cons u us ih =>
    rw [List.cons_append, videoEvents, ih]
    rfl

/-- The codec that the last keyframe of some units shows. -/
def shownCodec (units : List AssembledAccessUnit) : Option VideoCodec :=
  units.reverse.findSome? fun u => if u.keyframe then sniffAnnexbCodec u.data else none

theorem shownCodec_cons (u : AssembledAccessUnit) (us : List AssembledAccessUnit) :
    shownCodec (u :: us) =
      (shownCodec us).or (if u.keyframe then sniffAnnexbCodec u.data else none) := by
  rw [shownCodec, List.reverse_cons, List.findSome?_append]
  congr 1
  simp only [List.findSome?_cons, List.findSome?_nil]
  cases (if u.keyframe = true then sniffAnnexbCodec u.data else none) <;> rfl

/-- Each unit is emitted with the codec that the last keyframe up to it has shown. -/
theorem videoEvents_spec (codec : VideoCodec) (units : List AssembledAccessUnit) :
    (videoEvents codec units).1.map VideoEvent.unit = units ∧
      (∀ (i : ℕ) (e : VideoEvent), (videoEvents codec units).1[i]? = some e →
        e.codec = (shownCodec (units.take (i + 1))).getD codec) ∧
      (videoEvents codec units).2 = (shownCodec units).getD codec := by
  induction units generalizing codec with
  | nil => exact ⟨rfl, fun i e h => absurd h (by simp [videoEvents]), rfl⟩
  | cons u us ih =>
    have hcodec : (if u.keyframe then (sniffAnnexbCodec u.data).getD codec else codec) =
        (if u.keyframe then sniffAnnexbCodec u.data else none).getD codec := by
      split <;> rfl
    obtain ⟨hunits, hcodecs, hlast⟩ := ih
      ((if u.keyframe then sniffAnnexbCodec u.data else none).getD codec)
    rw [videoEvents, hcodec]
    refine ⟨congrArg (u :: ·) hunits, fun i e hi => ?_, ?_⟩
    · cases i with
      | zero =>
        obtain rfl := Option.some.inj hi
        rw [List.take_succ_cons, List.take_zero, shownCodec_cons]
        rfl
      | succ i =>
        rw [List.take_succ_cons, shownCodec_cons, hcodecs i e hi, Option.getD_or]
    · rw [shownCodec_cons, Option.getD_or]
      exact hlast

/-! ## The frames of a session -/

/-- What the session decodes, neither the header nor the decoder of the stream is asked for. -/
theorem annexbOf_session {decoder : Option VideoFrameDecoder} {payload body : Buffer}
    {signCode : ℕ} (h : decodeVideoFrame c rsaPrivateKey payload signCode = some body) :
    annexbOf c rsaPrivateKey decoder payload signCode = (some body, decoder) := by
  unfold annexbOf
  rw [h]
  rfl

/-- A frame of the stream's own video that the session decodes, if it has a header. -/
theorem onFrame_ownVideo (hown : p.ownVideo f = true)
    (hdecoded : ∀ header ∈ parseVideoFrameHeader f.data,
      (decodeVideoFrame c rsaPrivateKey f.data f.header.signCode).isSome = true) :
    let pushed := p.units.push f.data (sessionFrame c rsaPrivateKey f).decode
    p.onFrame c rsaPrivateKey f =
      ((videoEvents p.lastCodec pushed.units).1, [],
        { p with units := pushed.next, lastCodec := (videoEvents p.lastCodec pushed.units).2 }) := by
  obtain ⟨haccepts, hvideo⟩ := Bool.and_eq_true_iff.mp hown
  intro pushed
  have hpush (answer : Option Buffer)
      (hanswer : ∀ header ∈ parseVideoFrameHeader f.data,
        answer = decodeVideoFrame c rsaPrivateKey f.data f.header.signCode) :
      p.units.push f.data (fun _ => answer) = pushed := by
    refine AccessUnitAssembler.push_congr ?_
    rw [shareOf, shareOf]
    cases hheader : parseVideoFrameHeader f.data with
    | none => rfl
    | some header =>
      rw [Option.bind_eq_bind, Option.bind_some, hanswer header hheader]
      rfl
  rw [onFrame, if_pos haccepts, if_pos (of_decide_eq_true hvideo), onVideo]
  cases hheader : parseVideoFrameHeader f.data with
  | none =>
    simp only [Option.isSome_none, Bool.false_eq_true, if_false]
    rw [hpush none fun header h => absurd (hheader ▸ h) (Option.not_mem_none _)]
  | some header =>
    obtain ⟨body, hbody⟩ := Option.isSome_iff_exists.mp (hdecoded header hheader)
    simp only [Option.isSome_some, if_true, annexbOf_session hbody]
    rw [hpush (some body) fun _ _ => hbody.symm]

theorem onFrame_ownAudio (hown : p.ownAudio f = true) :
    p.onFrame c rsaPrivateKey f = ([], onAudio f, p) := by
  obtain ⟨haccepts, haudio⟩ := Bool.and_eq_true_iff.mp hown
  have hcommand := of_decide_eq_true haudio
  rw [onFrame, if_pos haccepts, if_neg (by rw [hcommand]; decide), if_pos hcommand]

theorem onFrame_other (hvideo : p.ownVideo f = false) (haudio : p.ownAudio f = false) :
    p.onFrame c rsaPrivateKey f = ([], [], p) := by
  rw [onFrame]
  cases haccepts : p.acceptsMedia f with
  | false => rfl
  | true =>
    rw [ownVideo, haccepts, Bool.true_and] at hvideo
    rw [ownAudio, haccepts, Bool.true_and] at haudio
    rw [if_pos rfl, if_neg (of_decide_eq_false hvideo), if_neg (of_decide_eq_false haudio)]

theorem emit_concat (fs : List P2PFrame) (f : P2PFrame) :
    p.emit c rsaPrivateKey (fs ++ [f]) =
      { videos := (p.emit c rsaPrivateKey fs).videos ++
          ((p.emit c rsaPrivateKey fs).path.onFrame c rsaPrivateKey f).1
        audios := (p.emit c rsaPrivateKey fs).audios ++
          ((p.emit c rsaPrivateKey fs).path.onFrame c rsaPrivateKey f).2.1
        path := ((p.emit c rsaPrivateKey fs).path.onFrame c rsaPrivateKey f).2.2 } := by
  rw [emit, List.foldl_concat]
  rfl

/-- A stream behind the frames that the assembler has been fed. -/
def after (p : MediaPath) (fed : AccessUnitAssembler.Pushed) : MediaPath :=
  { p with units := fed.next, lastCodec := (videoEvents p.lastCodec fed.units).2 }

theorem ownVideo_after (p : MediaPath) (fed : AccessUnitAssembler.Pushed) :
    (p.after fed).ownVideo = p.ownVideo := rfl

theorem ownAudio_after (p : MediaPath) (fed : AccessUnitAssembler.Pushed) :
    (p.after fed).ownAudio = p.ownAudio := rfl

/-- A stream from its start, over frames in any order: the video is what the assembler makes of its
own video frames, and the audio is that of its own audio frames. -/
theorem emit_eq (fs : List P2PFrame) (hfresh : p.units = {})
    (hdecoded : ∀ f ∈ fs, p.ownVideo f = true → ∀ header ∈ parseVideoFrameHeader f.data,
      (decodeVideoFrame c rsaPrivateKey f.data f.header.signCode).isSome = true) :
    let fed := AccessUnitAssembler.feed ((fs.filter p.ownVideo).map (sessionFrame c rsaPrivateKey))
    p.emit c rsaPrivateKey fs =
      { videos := (videoEvents p.lastCodec fed.units).1
        audios := (fs.filter p.ownAudio).flatMap onAudio
        path := p.after fed } := by
  induction fs using List.reverseRecOn with
  | nil =>
    intro fed
    rw [emit]
    simp only [List.foldl_nil]
    have hpath : p.after fed = p := by
      have hunits : fed.next = p.units := hfresh.symm
      rw [after, hunits]
      rfl
    rw [hpath]
    rfl
  | append_singleton fs f ih =>
    intro fed
    have hbefore := ih fun g hg => hdecoded g (List.mem_append_left _ hg)
    simp only at hbefore
    have hhere := hdecoded f (List.mem_append_right _ List.mem_cons_self)
    rw [emit_concat, hbefore]
    generalize hsofar : AccessUnitAssembler.feed
      ((fs.filter p.ownVideo).map (sessionFrame c rsaPrivateKey)) = sofar
    cases hvideo : p.ownVideo f with
    | true =>
      have haudio : p.ownAudio f = false := by
        obtain ⟨-, hcommand⟩ := Bool.and_eq_true_iff.mp hvideo
        rw [ownAudio, of_decide_eq_true hcommand]
        exact Bool.and_false _
      have hfed : fed = AccessUnitAssembler.feed
          ((fs.filter p.ownVideo).map (sessionFrame c rsaPrivateKey) ++
            [sessionFrame c rsaPrivateKey f]) := by
        simp [fed, hvideo]
      have hstep := onFrame_ownVideo (p := p.after sofar)
        ((congrFun (p.ownVideo_after sofar) f).trans hvideo) (hhere hvideo)
      rw [AccessUnitAssembler.feed_concat, hsofar] at hfed
      simp only at hstep ⊢
      rw [hstep, hfed]
      simp [haudio, sessionFrame, after, videoEvents_append]
    | false =>
      have hfed : fed = AccessUnitAssembler.feed
          ((fs.filter p.ownVideo).map (sessionFrame c rsaPrivateKey)) := by
        simp [fed, hvideo]
      rw [hfed, hsofar]
      cases haudio : p.ownAudio f with
      | true =>
        rw [onFrame_ownAudio ((congrFun (p.ownAudio_after sofar) f).trans haudio)]
        simp [haudio]
      | false =>
        rw [onFrame_other ((congrFun (p.ownVideo_after sofar) f).trans hvideo)
          ((congrFun (p.ownAudio_after sofar) f).trans haudio)]
        simp [haudio]

/-! ## Frames as a station sends them -/

/-- A share as a station sends it: behind its header, or sealed for the session, with its first 128
bytes encrypted under a key that is wrapped ahead of it. -/
inductive Carries (c : VideoCiphers) (rsaPrivateKey : Option (Buffer → Option Buffer)) :
    Buffer → ℕ → Share → Prop
  | plain {head body : Buffer} {header : VideoFrameHeader} {signCode : ℕ}
      (hlength : head.length = HEADER_LEN) (hparse : parseVideoFrameHeader head = some header)
      (hdeclared : header.payloadLength = body.length) (hbody : body ≠ [])
      (hplain : signCode = 0 ∨ body.length < 128) :
      Carries c rsaPrivateKey (head ++ body) signCode { header, body }
  | sealed {head wrapped enc front tail aesKey : Buffer} {pad : UInt8} {header : VideoFrameHeader}
      {signCode : ℕ} {privateDecrypt : Buffer → Option Buffer}
      (hlength : head.length = HEADER_LEN) (hparse : parseVideoFrameHeader head = some header)
      (hdeclared : header.payloadLength = 128 + tail.length) (hsealed : 0 < signCode)
      (hkey : rsaPrivateKey = some privateDecrypt) (hwrapped : wrapped.length = 128)
      (hunwrap : privateDecrypt wrapped = some aesKey) (haes : 16 ≤ aesKey.length)
      (henc : enc.length = 128) (hfront : front ≠ [])
      (hopen : c.aesEcbDecrypt (aesKey.take (if 32 ≤ aesKey.length then 32 else 16)) enc =
        some front) :
      Carries c rsaPrivateKey (head ++ (wrapped ++ (pad :: (enc ++ tail)))) signCode
        { header, body := front ++ tail }

theorem subarray_append {a b : Buffer} {start stop : ℕ} (h : a.length = start) :
    Buf.subarray (a ++ b) start (start + stop) = b.take stop := by
  rw [Buf.subarray, ← h, List.take_length_add_append, List.drop_left]

theorem payloadLength_of_parse {head : Buffer} {header : VideoFrameHeader}
    (hlength : head.length = HEADER_LEN) (hparse : parseVideoFrameHeader head = some header)
    (rest : Buffer) : readUInt32LE (head ++ rest) 0 = header.payloadLength := by
  have hfull := (parseVideoFrameHeader_append hlength rest).trans hparse
  rw [parseVideoFrameHeader] at hfull
  split at hfull
  · cases hfull
  · exact congrArg VideoFrameHeader.payloadLength (Option.some.inj hfull)

/-- The session decodes what a station sends. -/
theorem Carries.decodes {payload : Buffer} {signCode : ℕ} {s : Share}
    (h : Carries c rsaPrivateKey payload signCode s) :
    parseVideoFrameHeader payload = some s.header ∧ s.body ≠ [] ∧
      decodeVideoFrame c rsaPrivateKey payload signCode = some s.body := by
  cases h with
  | @plain head body header _ hlength hparse hdeclared hbody hplain =>
    refine ⟨(parseVideoFrameHeader_append hlength body).trans hparse, hbody, ?_⟩
    have h22 : head.length = 22 := hlength
    have hlong : ¬(head ++ body).length < 22 := by
      rw [List.length_append]
      omega
    have hopen : ¬(0 < signCode ∧ 128 ≤ header.payloadLength) := by omega
    rw [decodeVideoFrame, if_neg hlong, payloadLength_of_parse hlength hparse, if_neg hopen,
      subarray_append h22, hdeclared, List.take_length]
  | @sealed head wrapped enc front tail aesKey pad header _ privateDecrypt hlength hparse hdeclared
      hsealed hkey hwrapped hunwrap haes henc hfront hopen =>
    refine ⟨(parseVideoFrameHeader_append hlength _).trans hparse,
      List.append_ne_nil_of_left_ne_nil hfront tail, ?_⟩
    have h22 : head.length = 22 := hlength
    have hlength' : (head ++ (wrapped ++ (pad :: (enc ++ tail)))).length = 279 + tail.length := by
      simp only [List.length_append, List.length_cons, h22, hwrapped, henc]
      omega
    have hwrap : Buf.subarray (head ++ (wrapped ++ (pad :: (enc ++ tail)))) 22 150 = wrapped := by
      rw [show (150 : ℕ) = 22 + 128 from rfl, subarray_append h22, ← hwrapped, List.take_left]
    have hfirst : head ++ (wrapped ++ (pad :: (enc ++ tail))) =
        (head ++ wrapped ++ [pad]) ++ (enc ++ tail) := by simp
    have henc' : Buf.subarray (head ++ (wrapped ++ (pad :: (enc ++ tail)))) 151 (151 + 128) =
        enc := by
      rw [hfirst, subarray_append (by simp [h22, hwrapped]), ← henc, List.take_left]
    have hsecond : head ++ (wrapped ++ (pad :: (enc ++ tail))) =
        (head ++ wrapped ++ [pad] ++ enc) ++ tail := by simp
    have htail : Buf.subarray (head ++ (wrapped ++ (pad :: (enc ++ tail)))) (151 + 128)
        (151 + header.payloadLength) = tail := by
      rw [hdeclared, ← Nat.add_assoc, hsecond, subarray_append (by simp [h22, hwrapped, henc]),
        List.take_length]
    rw [decodeVideoFrame, if_neg (by omega), payloadLength_of_parse hlength hparse,
      if_pos ⟨hsealed, by omega⟩, hkey]
    simp only [Option.bind_eq_bind, Option.bind_some, hwrap, hunwrap, henc', htail, haes, if_true,
      hopen]
    rw [if_neg (by omega)]
    rfl

/-- A unit on its way to a stream: the frames of it that arrive, in order. -/
structure Sending (c : VideoCiphers) (rsaPrivateKey : Option (Buffer → Option Buffer)) where
  unit : AccessUnitAssembler.StationUnit
  frames : List P2PFrame
  arrived : List Share
  sublist : arrived.Sublist unit.shares
  carries : List.Forall₂ (fun f s => Carries c rsaPrivateKey f.data f.header.signCode s) frames
    arrived

namespace Sending

open AccessUnitAssembler

theorem share_sessionFrame {f : P2PFrame} {s : Share}
    (h : Carries c rsaPrivateKey f.data f.header.signCode s) :
    (sessionFrame c rsaPrivateKey f).share = some s := by
  obtain ⟨hheader, hbody, hdecode⟩ := h.decodes
  simp [Frame.share, sessionFrame, shareOf, hheader, hdecode, hbody]

theorem shares_sessionFrames {frames : List P2PFrame} {arrived : List Share}
    (h : List.Forall₂ (fun f s => Carries c rsaPrivateKey f.data f.header.signCode s) frames
      arrived) :
    (frames.map (sessionFrame c rsaPrivateKey)).map Frame.share = arrived.map some := by
  induction h with
  | nil => rfl
  | cons hhere _ ih => rw [List.map_cons, List.map_cons, share_sessionFrame hhere, ih, List.map_cons]

theorem exists_carried {frames : List P2PFrame} {arrived : List Share} {f : P2PFrame}
    (h : List.Forall₂ (fun f s => Carries c rsaPrivateKey f.data f.header.signCode s) frames
      arrived) (hf : f ∈ frames) : ∃ s, Carries c rsaPrivateKey f.data f.header.signCode s := by
  induction h with
  | nil => exact absurd hf List.not_mem_nil
  | cons hhere _ ih =>
    rcases List.mem_cons.mp hf with rfl | hrest
    · exact ⟨_, hhere⟩
    · exact ih hrest

def transmission (t : Sending c rsaPrivateKey) : Transmission where
  unit := t.unit
  arrived := t.arrived
  sublist := t.sublist
  frames := t.frames.map (sessionFrame c rsaPrivateKey)
  shares_frames := shares_sessionFrames t.carries

end Sending

/-- **What a station sends is what a stream emits.** Whatever else the session hands the stream in
between (frames of other cameras, audio, frames of other commands), and whichever frames of the
station's units are lost, the video of the stream is the units whose last frame arrives, in order,
each with the codec that the last keyframe among them up to it shows, and the audio is that of its
own audio frames. Where units only lose their ends, each unit is emitted as the station had it. -/
theorem emit_sendings (fs : List P2PFrame) (ts : List (Sending c rsaPrivateKey))
    (hfresh : p.units = {}) (hown : fs.filter p.ownVideo = ts.flatMap Sending.frames)
    (hdistinct : (ts.map fun t => t.unit.identity).Nodup) :
    let emitted := p.emit c rsaPrivateKey fs
    emitted.videos.map VideoEvent.unit = ts.filterMap (·.transmission.handedOn) ∧
      (∀ (i : ℕ) (e : VideoEvent), emitted.videos[i]? = some e →
        e.codec =
          (shownCodec ((emitted.videos.map VideoEvent.unit).take (i + 1))).getD p.lastCodec) ∧
      emitted.audios = (fs.filter p.ownAudio).flatMap onAudio ∧
      ((∀ t ∈ ts, t.arrived <+: t.unit.shares) →
        emitted.videos.map VideoEvent.unit =
          (ts.filter fun t => t.arrived = t.unit.shares).map fun t => t.unit.whole) := by
  intro emitted
  have hdecoded : ∀ f ∈ fs, p.ownVideo f = true → ∀ header ∈ parseVideoFrameHeader f.data,
      (decodeVideoFrame c rsaPrivateKey f.data f.header.signCode).isSome = true := by
    intro f hf hvideo header _
    have hmem : f ∈ ts.flatMap Sending.frames := by
      rw [← hown]
      exact List.mem_filter.mpr ⟨hf, hvideo⟩
    obtain ⟨t, -, hft⟩ := List.mem_flatMap.mp hmem
    obtain ⟨s, hcarries⟩ := Sending.exists_carried t.carries hft
    rw [hcarries.decodes.2.2]
    rfl
  have hframes : (fs.filter p.ownVideo).map (sessionFrame c rsaPrivateKey) =
      (ts.map Sending.transmission).flatMap AccessUnitAssembler.Transmission.frames := by
    rw [hown, List.map_flatMap, List.flatMap_map]
    rfl
  have hdistinct' : ((ts.map Sending.transmission).map fun t => t.unit.identity).Nodup := by
    rw [List.map_map]
    exact hdistinct
  have hemit : emitted = _ := emit_eq fs hfresh hdecoded
  have hunits := AccessUnitAssembler.units_transmissions hdistinct'
  rw [← hframes, List.filterMap_map] at hunits
  obtain ⟨hevents, hcodecs, -⟩ := videoEvents_spec p.lastCodec
    (AccessUnitAssembler.feed ((fs.filter p.ownVideo).map (sessionFrame c rsaPrivateKey))).units
  have hvideos : emitted.videos.map VideoEvent.unit =
      ts.filterMap (·.transmission.handedOn) := by
    rw [hemit, hevents, hunits]
    rfl
  refine ⟨hvideos, fun i e hi => ?_, by rw [hemit], fun hprefix => ?_⟩
  · rw [hemit] at hi ⊢
    rw [hevents]
    exact hcodecs i e hi
  · have harrived : ∀ t ∈ ts.map Sending.transmission, t.arrived <+: t.unit.shares := by
      intro t ht
      obtain ⟨t', ht', rfl⟩ := List.mem_map.mp ht
      exact hprefix t' ht'
    have hwhole := AccessUnitAssembler.filterMap_handedOn_of_prefix harrived
    rw [List.filterMap_map, List.filter_map, List.map_map] at hwhole
    exact hvideos.trans hwhole

/-! ### A keyframe that loses its end, among another camera's frames -/

/-- A media frame that is not encrypted. -/
def mediaFrame (commandId channel : ℕ) (data : Buffer) : P2PFrame where
  header := { commandId, bytesToRead := data.length, channel, signCode := 0, type := 0 }
  stationSn := ""
  dataType := 1
  data
  raw := data
  json := none
  params := none

open AccessUnitAssembler in
/-- The first frame of a keyframe that is sent in two. -/
def keyframeSending : Sending JoinedStream.ciphers none where
  unit := lostKeyframe.unit
  frames := [mediaFrame CMD_VIDEO_FRAME 2 (keyframeHead ++ keyframeShare.body)]
  arrived := [keyframeShare]
  sublist := lostKeyframe.sublist
  carries := by
    refine .cons (.plain rfl rfl ?_ (List.append_ne_nil_of_left_ne_nil (List.cons_ne_nil _ _) _)
      (.inl rfl)) .nil
    change 64000 = ([0, 0, 0, 1, 0x65] ++ List.replicate 63995 (0x11 : UInt8)).length
    rw [List.length_append, List.length_replicate]
    rfl

open AccessUnitAssembler in
def deltaSending : Sending JoinedStream.ciphers none where
  unit := wholeDelta.unit
  frames := [mediaFrame CMD_VIDEO_FRAME 2 (deltaHead ++ deltaShare.body)]
  arrived := [deltaShare]
  sublist := wholeDelta.sublist
  carries := .cons (.plain rfl rfl rfl (List.cons_ne_nil _ _) (.inl rfl)) .nil

/-- The stream of camera 2 emits the unit that is whole, and the audio. -/
theorem emit_lostKeyframe :
    let emitted := { mediaChannel := some 2 : MediaPath }.emit JoinedStream.ciphers none
      [mediaFrame CMD_VIDEO_FRAME 0 [1, 2, 3],
        mediaFrame CMD_VIDEO_FRAME 2
          (AccessUnitAssembler.keyframeHead ++ AccessUnitAssembler.keyframeShare.body),
        mediaFrame CMD_AUDIO_FRAME 2 [0, 0, 0, 0, 0, 7, 9],
        mediaFrame CMD_VIDEO_FRAME 2
          (AccessUnitAssembler.deltaHead ++ AccessUnitAssembler.deltaShare.body)]
    emitted.videos.map VideoEvent.unit = [AccessUnitAssembler.wholeDelta.unit.whole] ∧
      emitted.audios = [{ codec := .aacEld, data := [0, 0, 0, 0, 0, 7, 9] }] := by
  obtain ⟨hunits, -, haudio, -⟩ := emit_sendings (p := { mediaChannel := some 2 })
    [mediaFrame CMD_VIDEO_FRAME 0 [1, 2, 3],
      mediaFrame CMD_VIDEO_FRAME 2
        (AccessUnitAssembler.keyframeHead ++ AccessUnitAssembler.keyframeShare.body),
      mediaFrame CMD_AUDIO_FRAME 2 [0, 0, 0, 0, 0, 7, 9],
      mediaFrame CMD_VIDEO_FRAME 2
        (AccessUnitAssembler.deltaHead ++ AccessUnitAssembler.deltaShare.body)]
    [keyframeSending, deltaSending] rfl rfl (by decide)
  exact ⟨hunits.trans rfl, haudio.trans rfl⟩

end MediaPath
end EufySdk.Video
