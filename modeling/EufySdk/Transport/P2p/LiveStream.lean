import Mathlib.Tactic
import EufySdk.Lib.Machine
import EufySdk.Transport.P2p.Dispatch

/-!
# A live stream's own starts

`LiveStream` of `transport/p2p/live-stream.ts`: a stream starts its camera's channel, and starts it
again by two timers. The keepalive interval repeats the start from the beginning on. On a camera
behind a HomeBase the first unit of its own media clears the interval and arms the stall watch,
which every later unit arms anew; when the watch runs out, and the owner of the stream wants it, the
channel is started again and the interval is back.

- `start`, `stop`, `nudge`, `onFrame` — what is called
- `keepAlive`, `stall` — what the timers call
- `step` — the stream, its session and its owner, interleaved
- `Restrained` — one timer is pending, and it starts the channel only when that is silent and wanted
- `Heeds` — the steps that the interval and a late frame do not go astray in
-/

namespace EufySdk

open Machine

def DEFAULT_KEEPALIVE_MS : ℕ := 3000

structure LiveStreamOptions where
  channel : Option ℤ
  keepAliveMs : ℕ := DEFAULT_KEEPALIVE_MS
  stallMs : Option ℕ := none
  homeBaseAttached : Bool := false

/-- How long the stream's own media may be silent. -/
def LiveStreamOptions.stall (opts : LiveStreamOptions) : ℕ :=
  opts.stallMs.getD (opts.keepAliveMs * 2)

/-- What a stream reads of a frame. `yields` is whether its data completes an access unit or holds
audio of a known codec. -/
structure MediaFrame where
  commandId : ℕ
  channel : ℤ
  yields : Bool
  deriving DecidableEq, Repr

/-- A start that a timer of the stream has sent, with what held then: whether its owner wanted it,
and when the last unit of video was delivered. -/
structure OwnStart where
  time : ℕ
  wanted : Bool
  lastUnit : Option ℕ
  deriving DecidableEq, Repr

/-- A stream and what surrounds it: the time, and what `reassertWanted` answers. The timers hold the
time before which they do not fire. `starts`, `emitted` and the units' times are kept for the
results about runs: `starts` those the timers have sent, `emitted` the channels of the frames that
were passed on, and `unitBefore` the last unit ahead of the last call of `start`. -/
structure LiveStream where
  opts : LiveStreamOptions
  listening : Bool := false
  kaTimer : Option ℕ := none
  stallTimer : Option ℕ := none
  now : ℕ := 0
  wanted : Bool := true
  starts : List OwnStart := []
  emitted : List ℤ := []
  lastUnit : Option ℕ := none
  unitBefore : Option ℕ := none

namespace LiveStream

/-- The channel that inbound media must be tagged with. -/
def mediaChannel (s : LiveStream) : Option ℤ :=
  if s.opts.homeBaseAttached then s.opts.channel else none

def start (s : LiveStream) : LiveStream :=
  if s.listening then s
  else
    { s with
      listening := true
      kaTimer := if 0 < s.opts.keepAliveMs then some (s.now + s.opts.keepAliveMs) else s.kaTimer
      unitBefore := s.lastUnit }

def armStallWatch (s : LiveStream) : LiveStream :=
  { s with stallTimer := if s.opts.keepAliveMs = 0 then none else some (s.now + s.opts.stall) }

def settleKeepalive (s : LiveStream) : LiveStream :=
  if s.opts.homeBaseAttached then { s.armStallWatch with kaTimer := none } else s

def stop (s : LiveStream) : LiveStream :=
  if s.listening then { s with listening := false, kaTimer := none, stallTimer := none } else s

def acceptsMedia (s : LiveStream) (f : MediaFrame) : Bool :=
  match s.mediaChannel with
  | none => true
  | some channel =>
    (f.commandId ≠ P2PSession.CMD_VIDEO_FRAME && f.commandId ≠ P2PSession.CMD_AUDIO_FRAME) ||
      f.channel = channel

/-- A frame reaches the stream. -/
def onFrame (s : LiveStream) (f : MediaFrame) : LiveStream :=
  if s.acceptsMedia f && f.yields then
    if f.commandId = P2PSession.CMD_VIDEO_FRAME then
      { s.settleKeepalive with emitted := s.emitted ++ [f.channel], lastUnit := some s.now }
    else if f.commandId = P2PSession.CMD_AUDIO_FRAME then
      { s with emitted := s.emitted ++ [f.channel] }
    else s
  else s

/-- A timer sends the start; `taken` is whether the session takes it or throws. -/
def sendStart (s : LiveStream) (taken : Bool) : LiveStream :=
  if taken then
    { s with starts := s.starts ++ [{ time := s.now, wanted := s.wanted, lastUnit := s.lastUnit }] }
  else s

/-- The keepalive interval fires, and is pending again. -/
def keepAlive (s : LiveStream) (taken : Bool) : LiveStream :=
  { s.sendStart taken with kaTimer := some (s.now + s.opts.keepAliveMs) }

/-- The stall watch runs out. -/
def stall (s : LiveStream) (taken : Bool) : LiveStream :=
  let s := { s with stallTimer := none }
  if s.listening = false ∨ s.kaTimer.isSome then s
  else if s.wanted = false then s.armStallWatch
  else s.keepAlive taken

inductive Event
  | start
  | stop
  /-- The owner repeats the start. -/
  | nudge
  /-- The session has a frame. -/
  | frame (f : MediaFrame)
  /-- The session has a frame, and what it hands it to before this stream stops the stream. -/
  | stoppedIn (f : MediaFrame)
  | keepAlive (taken : Bool)
  | stall (taken : Bool)
  /-- The answer of `reassertWanted` changes. -/
  | wanted (answer : Bool)
  | elapse (ms : ℕ)

/-- An event, where it can happen: a timer does not fire before its time. What the session hands a
frame to is settled when it begins. -/
def step (s : LiveStream) : Event → Option LiveStream
  | .start => some s.start
  | .stop => some s.stop
  | .nudge => some s
  | .frame f => some (if s.listening then s.onFrame f else s)
  | .stoppedIn f => if s.listening then some (s.stop.onFrame f) else none
  | .keepAlive taken => if ∃ due ∈ s.kaTimer, due ≤ s.now then some (s.keepAlive taken) else none
  | .stall taken => if ∃ due ∈ s.stallTimer, due ≤ s.now then some (s.stall taken) else none
  | .wanted answer => some { s with wanted := answer }
  | .elapse ms => some { s with now := s.now + ms }

/-! ## Results -/

/-- The stream starts its channel only when that is silent and wanted. -/
structure Restrained (s : LiveStream) : Prop where
  watched : s.listening = true → s.kaTimer.isSome = !s.stallTimer.isSome
  idle : s.listening = false → s.kaTimer = none ∧ s.stallTimer = none
  starts : ∀ r ∈ s.starts, r.wanted = true ∧ ∀ u ∈ r.lastUnit, u + s.opts.stall ≤ r.time
  emitted : ∀ c ∈ s.emitted, s.opts.channel = some c

/-- A frame that brings a unit of the stream's own video. -/
def OwnUnit (s : LiveStream) (f : MediaFrame) : Prop :=
  f.commandId = P2PSession.CMD_VIDEO_FRAME ∧ s.opts.channel = some f.channel ∧ f.yields = true

/-- The interval does not send a start that is not wanted, or too soon behind a unit from before
the stream was started again, and no unit comes when the stream is stopped. -/
def Heeds (s : LiveStream) : Event → Prop
  | .keepAlive taken =>
    taken = true → s.wanted = true ∧ ∀ u ∈ s.unitBefore, u + s.opts.stall ≤ s.now
  | .stoppedIn f => ¬s.OwnUnit f
  | _ => True

/-- What holds of a stream on a camera behind a HomeBase while every step heeds. -/
structure Sound (opts : LiveStreamOptions) (s : LiveStream) : Prop where
  opts_eq : s.opts = opts
  restrained : s.Restrained
  last_le : ∀ u ∈ s.lastUnit, u ≤ s.now
  before_le : ∀ u ∈ s.unitBefore, ∃ v ∈ s.lastUnit, u ≤ v
  interval : s.kaTimer.isSome = true →
    s.lastUnit = s.unitBefore ∨ ∀ u ∈ s.lastUnit, u + opts.stall ≤ s.now
  watch : ∀ due ∈ s.stallTimer, ∀ u ∈ s.lastUnit, u + opts.stall ≤ due

section

variable {opts : LiveStreamOptions} {channel : ℤ} {s : LiveStream}

/-- A stream takes the frames of its channel only. -/
theorem channel_of_acceptsMedia (h : s.Sound opts) (hattached : opts.homeBaseAttached = true)
    (hchannel : opts.channel = some channel) {f : MediaFrame} (haccepts : s.acceptsMedia f = true)
    (hmedia : f.commandId = P2PSession.CMD_VIDEO_FRAME ∨ f.commandId = P2PSession.CMD_AUDIO_FRAME) :
    f.channel = channel := by
  have hmine : s.mediaChannel = some channel := by
    rw [mediaChannel, h.opts_eq, hattached, if_pos rfl, hchannel]
  rw [acceptsMedia, hmine] at haccepts
  rcases Bool.or_eq_true_iff.mp haccepts with hother | hchan
  · obtain ⟨hvideo, haudio⟩ := Bool.and_eq_true_iff.mp hother
    exact absurd hmedia (not_or.mpr ⟨of_decide_eq_true hvideo, of_decide_eq_true haudio⟩)
  · exact of_decide_eq_true hchan

namespace Sound

theorem init (opts : LiveStreamOptions) : Sound opts { opts } where
  opts_eq := rfl
  restrained := ⟨nofun, fun _ => ⟨rfl, rfl⟩, nofun, nofun⟩
  last_le := nofun
  before_le := nofun
  interval := nofun
  watch := nofun

theorem start (h : s.Sound opts) (hka : 0 < opts.keepAliveMs) : s.start.Sound opts := by
  obtain rfl := h.opts_eq
  unfold LiveStream.start
  cases hon : s.listening with
  | true => exact h
  | false =>
    obtain ⟨-, hstall⟩ := h.restrained.idle hon
    rw [if_neg Bool.false_ne_true, if_pos hka]
    exact
      { opts_eq := h.opts_eq
        restrained :=
          ⟨fun _ => by simp [hstall], nofun, h.restrained.starts, h.restrained.emitted⟩
        last_le := h.last_le
        before_le := fun u hu => ⟨u, hu, le_refl u⟩
        interval := fun _ => .inl rfl
        watch := h.watch }

theorem stop (h : s.Sound opts) : s.stop.Sound opts := by
  unfold LiveStream.stop
  split
  · exact
      { opts_eq := h.opts_eq
        restrained := ⟨nofun, fun _ => ⟨rfl, rfl⟩, h.restrained.starts, h.restrained.emitted⟩
        last_le := h.last_le
        before_le := h.before_le
        interval := nofun
        watch := nofun }
  · exact h

/-- A frame that is passed on is of the stream's channel. -/
theorem emit (h : s.Sound opts) (hchannel : opts.channel = some channel) :
    ({ s with emitted := s.emitted ++ [channel] } : LiveStream).Sound opts where
  opts_eq := h.opts_eq
  restrained :=
    { watched := h.restrained.watched
      idle := h.restrained.idle
      starts := h.restrained.starts
      emitted := fun c hc => by
        rcases List.mem_append.mp hc with hold | hnew
        · exact h.restrained.emitted c hold
        · rw [List.mem_singleton.mp hnew]
          exact h.opts_eq ▸ hchannel }
  last_le := h.last_le
  before_le := h.before_le
  interval := h.interval
  watch := h.watch

/-- A unit of the stream's own video clears the interval and arms the watch. -/
theorem unit (h : s.Sound opts) (hattached : opts.homeBaseAttached = true)
    (hka : 0 < opts.keepAliveMs) (hon : s.listening = true) :
    ({ s.settleKeepalive with lastUnit := some s.now } : LiveStream).Sound opts := by
  obtain rfl := h.opts_eq
  rw [settleKeepalive, if_pos hattached, armStallWatch, if_neg (Nat.ne_of_gt hka)]
  exact
    { opts_eq := h.opts_eq
      restrained :=
        { watched := fun _ => rfl
          idle := fun hoff => absurd (hon.symm.trans hoff) nofun
          starts := h.restrained.starts
          emitted := h.restrained.emitted }
      last_le := fun u hu => by
        obtain rfl := Option.some.inj hu
        exact le_refl _
      before_le := fun u hu => by
        obtain ⟨v, hv, huv⟩ := h.before_le u hu
        exact ⟨s.now, rfl, huv.trans (h.last_le v hv)⟩
      interval := nofun
      watch := fun due hdue u hu => by
        obtain rfl := Option.some.inj hdue
        obtain rfl := Option.some.inj hu
        exact le_refl _ }

theorem onFrame (h : s.Sound opts) (hattached : opts.homeBaseAttached = true)
    (hchannel : opts.channel = some channel) (hka : 0 < opts.keepAliveMs) (f : MediaFrame)
    (hon : s.listening = true ∨ ¬s.OwnUnit f) : (s.onFrame f).Sound opts := by
  unfold LiveStream.onFrame
  split
  · next htaken =>
    obtain ⟨haccepts, hyields⟩ := Bool.and_eq_true_iff.mp htaken
    split
    · next hvideo =>
      have hmine := channel_of_acceptsMedia h hattached hchannel haccepts (.inl hvideo)
      have hlistening := hon.resolve_right
        (not_not.mpr ⟨hvideo, by rw [h.opts_eq, hchannel, hmine], hyields⟩)
      have hunit := (h.unit hattached hka hlistening).emit hchannel
      rw [hmine]
      convert hunit using 2
      rw [settleKeepalive]
      split <;> rfl
    · split
      · next haudio =>
        rw [channel_of_acceptsMedia h hattached hchannel haccepts (.inr haudio)]
        exact h.emit hchannel
      · exact h
  · exact h

/-- A start that is wanted, and behind the stall window of the last unit, is one to send; it goes
with the interval, and without the watch. -/
theorem keepAlive (h : s.Sound opts) (hon : s.listening = true) {taken : Bool}
    (hsilent : s.lastUnit = s.unitBefore ∨ ∀ u ∈ s.lastUnit, u + opts.stall ≤ s.now)
    (hfit : taken = true → s.wanted = true ∧ ∀ u ∈ s.lastUnit, u + opts.stall ≤ s.now) :
    (LiveStream.keepAlive { s with stallTimer := none } taken).Sound opts := by
  obtain rfl := h.opts_eq
  have hstarts : ∀ r ∈ (sendStart { s with stallTimer := none } taken).starts,
      r.wanted = true ∧ ∀ u ∈ r.lastUnit, u + s.opts.stall ≤ r.time := by
    cases taken with
    | false => exact h.restrained.starts
    | true =>
      intro r hr
      rcases List.mem_append.mp hr with hold | hnew
      · exact h.restrained.starts r hold
      · rw [List.mem_singleton.mp hnew]
        exact hfit rfl
  cases taken with
  | false | true =>
    exact
      { opts_eq := rfl
        restrained :=
          { watched := fun _ => rfl
            idle := fun hoff => absurd (hon.symm.trans hoff) nofun
            starts := hstarts
            emitted := h.restrained.emitted }
        last_le := h.last_le
        before_le := h.before_le
        interval := fun _ => hsilent
        watch := nofun }

/-- A stream that has a timer pending listens. -/
theorem listening (h : s.Sound opts)
    (hpending : s.kaTimer.isSome = true ∨ s.stallTimer.isSome = true) : s.listening = true := by
  by_contra hoff
  obtain ⟨hka, hstall⟩ := h.restrained.idle (Bool.eq_false_of_not_eq_true hoff)
  rw [hka, hstall] at hpending
  cases hpending <;> contradiction

/-- The interval, when it heeds. -/
theorem interval_fires (h : s.Sound opts) (hpending : s.kaTimer.isSome = true) {taken : Bool}
    (hheeds : s.Heeds (.keepAlive taken)) : (s.keepAlive taken).Sound opts := by
  have hon := h.listening (.inl hpending)
  have hnone : s.stallTimer = none := by
    have hone := h.restrained.watched hon
    rw [hpending] at hone
    exact Option.isNone_iff_eq_none.mp (by simpa using hone)
  have hsame : { s with stallTimer := none } = s := by rw [← hnone]
  rw [← hsame]
  refine h.keepAlive hon (h.interval hpending) fun htaken => ⟨(hheeds htaken).1, fun u hu => ?_⟩
  rcases h.interval hpending with hbefore | hpast
  · exact h.opts_eq ▸ (hheeds htaken).2 u (hbefore ▸ hu)
  · exact hpast u hu

/-- The watch, when it runs out. -/
theorem watch_fires (h : s.Sound opts) (hka : 0 < opts.keepAliveMs) {due : ℕ}
    (hpending : s.stallTimer = some due) (hdue : due ≤ s.now) (taken : Bool) :
    (s.stall taken).Sound opts := by
  obtain rfl := h.opts_eq
  have hon := h.listening (.inr (by rw [hpending]; rfl))
  have hnone : s.kaTimer = none := by
    have hone := h.restrained.watched hon
    rw [hpending] at hone
    exact Option.not_isSome_iff_eq_none.mp (by simp [hone])
  have hsilent : ∀ u ∈ s.lastUnit, u + s.opts.stall ≤ s.now := fun u hu =>
    (h.watch due hpending u hu).trans hdue
  have hstall : s.stall taken =
      if s.wanted = false then armStallWatch { s with stallTimer := none }
      else LiveStream.keepAlive { s with stallTimer := none } taken := by
    simp only [LiveStream.stall, hon, hnone]
    rfl
  rw [hstall]
  split
  · rw [armStallWatch, if_neg (Nat.ne_of_gt hka)]
    exact
      { opts_eq := rfl
        restrained :=
          { watched := fun _ => by simp [hnone]
            idle := fun hoff => absurd (hon.symm.trans hoff) nofun
            starts := h.restrained.starts
            emitted := h.restrained.emitted }
        last_le := h.last_le
        before_le := h.before_le
        interval := h.interval
        watch := fun due' hdue' u hu => by
          obtain rfl := Option.some.inj hdue'
          exact (hsilent u hu).trans (Nat.le_add_right _ _) }
  · next hwanted =>
    exact h.keepAlive hon (.inr hsilent) fun _ => ⟨Bool.eq_true_of_not_eq_false hwanted, hsilent⟩

theorem elapse (h : s.Sound opts) (ms : ℕ) :
    ({ s with now := s.now + ms } : LiveStream).Sound opts where
  opts_eq := h.opts_eq
  restrained := ⟨h.restrained.watched, h.restrained.idle, h.restrained.starts, h.restrained.emitted⟩
  last_le u hu := (h.last_le u hu).trans (Nat.le_add_right _ _)
  before_le := h.before_le
  interval hpending := (h.interval hpending).imp_right fun hpast u hu =>
    (hpast u hu).trans (Nat.le_add_right _ _)
  watch := h.watch

theorem step (h : s.Sound opts) (hattached : opts.homeBaseAttached = true)
    (hchannel : opts.channel = some channel) (hka : 0 < opts.keepAliveMs) {a : Event}
    {t : LiveStream} (hheeds : s.Heeds a) (hstep : s.step a = some t) : t.Sound opts := by
  cases a with
  | start =>
    obtain rfl := Option.some.inj hstep
    exact h.start hka
  | stop =>
    obtain rfl := Option.some.inj hstep
    exact h.stop
  | nudge =>
    obtain rfl := Option.some.inj hstep
    exact h
  | frame f =>
    obtain rfl := Option.some.inj hstep
    split
    · next hon => exact h.onFrame hattached hchannel hka f (.inl hon)
    · exact h
  | stoppedIn f =>
    obtain ⟨-, ht⟩ := Option.ite_none_right_eq_some.mp hstep
    obtain rfl := Option.some.inj ht
    refine h.stop.onFrame hattached hchannel hka f (.inr ?_)
    rwa [OwnUnit, h.stop.opts_eq, ← h.opts_eq]
  | keepAlive taken =>
    obtain ⟨⟨due, hpending, -⟩, ht⟩ := Option.ite_none_right_eq_some.mp hstep
    obtain rfl := Option.some.inj ht
    exact h.interval_fires (by rw [hpending]; rfl) hheeds
  | stall taken =>
    obtain ⟨⟨due, hpending, hdue⟩, ht⟩ := Option.ite_none_right_eq_some.mp hstep
    obtain rfl := Option.some.inj ht
    exact h.watch_fires hka hpending hdue taken
  | wanted answer =>
    obtain rfl := Option.some.inj hstep
    exact ⟨h.opts_eq,
      ⟨h.restrained.watched, h.restrained.idle, h.restrained.starts, h.restrained.emitted⟩,
      h.last_le, h.before_le, h.interval, h.watch⟩
  | elapse ms =>
    obtain rfl := Option.some.inj hstep
    exact h.elapse ms

/-- A step that does not heed leaves a stream that is not restrained. -/
theorem not_restrained (h : s.Sound opts) (hattached : opts.homeBaseAttached = true)
    (hka : 0 < opts.keepAliveMs) {a : Event}
    {t : LiveStream} (hstep : s.step a = some t) (hnot : ¬s.Heeds a) : ¬t.Restrained := by
  intro hrestrained
  cases a with
  | keepAlive taken =>
    obtain ⟨-, ht⟩ := Option.ite_none_right_eq_some.mp hstep
    obtain rfl := Option.some.inj ht
    refine hnot fun htaken => ?_
    subst htaken
    obtain ⟨hwanted, hsilent⟩ := hrestrained.starts _ (List.mem_append_right _ List.mem_cons_self)
    refine ⟨hwanted, fun u hu => ?_⟩
    -- a unit from before the start is no later than the last
    obtain ⟨v, hv, huv⟩ := h.before_le u hu
    exact (Nat.add_le_add_right huv _).trans (hsilent v hv)
  | stoppedIn f =>
    obtain ⟨hon, ht⟩ := Option.ite_none_right_eq_some.mp hstep
    obtain rfl := Option.some.inj ht
    obtain ⟨hvideo, hchan, hyields⟩ := not_not.mp hnot
    obtain rfl := h.opts_eq
    have hstop : s.stop = { s with listening := false, kaTimer := none, stallTimer := none } :=
      if_pos hon
    have hidle := hrestrained.idle
    simp [LiveStream.onFrame, acceptsMedia, mediaChannel, hstop, hattached, hchan, hyields, hvideo,
      settleKeepalive, armStallWatch, Nat.ne_of_gt hka] at hidle
  | start | stop | nudge | frame f | stall taken | wanted answer | elapse ms =>
    exact hnot trivial

end Sound

end

/-- **An attached stream starts its channel only when that is silent and wanted** in exactly the
runs in which the interval does not fire on a start that is not wanted, or too soon behind a unit from
before a restart, and no unit comes when the stream is stopped. -/
theorem restrained_iff_heeds {opts : LiveStreamOptions} {channel : ℤ}
    (hattached : opts.homeBaseAttached = true) (hchannel : opts.channel = some channel)
    (hka : 0 < opts.keepAliveMs) {events : List Event} {s : LiveStream}
    (hrun : exec step { opts } events = some s) :
    StepsMeet step Heeds { opts } events ↔
      ∀ before behind t, events = before ++ behind → exec step { opts } before = some t →
        t.Restrained :=
  stepsMeet_iff_forall_prefix_within hrun (Sound.init opts) (fun _ h => h.restrained)
    (fun _ _ _ h hheeds hstep => h.step hattached hchannel hka hheeds hstep)
    fun _ _ _ h hstep hnot => h.not_restrained hattached hka hstep hnot

/-- A camera on channel 2 of a HomeBase, with a unit of its video. -/
def attachedOpts : LiveStreamOptions := { channel := some 2, homeBaseAttached := true }

def ownFrame : MediaFrame := ⟨P2PSession.CMD_VIDEO_FRAME, 2, true⟩

/-- A start by the interval, a unit, and a start by the watch. -/
def recoveredEvents : List Event :=
  [.start, .elapse 3000, .keepAlive true, .frame ownFrame, .elapse 6000, .stall true, .stop]

theorem restrained_iff_heeds_recovered :
    ∃ s, exec step { opts := attachedOpts } recoveredEvents = some s ∧ s.starts.length = 2 ∧
      ∀ before behind t, recoveredEvents = before ++ behind →
        exec step { opts := attachedOpts } before = some t → t.Restrained := by
  have hrun : exec step { opts := attachedOpts } recoveredEvents = some _ := rfl
  refine ⟨_, hrun, rfl,
    (restrained_iff_heeds rfl rfl (by decide) hrun).mp ⟨trivial, ?_⟩⟩
  intro t₁ h₁
  obtain rfl := Option.some.inj h₁
  refine ⟨trivial, fun t₂ h₂ => ?_⟩
  obtain rfl := Option.some.inj h₂
  exact ⟨fun _ => ⟨rfl, nofun⟩, fun _ _ => ⟨trivial, fun _ _ => ⟨trivial, fun _ _ =>
    ⟨trivial, fun _ _ => ⟨trivial, fun _ _ => trivial⟩⟩⟩⟩⟩

/-- The watch has brought the interval back when the last consumer leaves. -/
theorem interval_starts_unwanted :
    ∃ s, exec step { opts := attachedOpts }
        [.start, .frame ownFrame, .elapse 6000, .stall true, .wanted false, .elapse 3000,
          .keepAlive true] = some s ∧
      s.starts = [⟨6000, true, some 0⟩, ⟨9000, false, some 0⟩] ∧ ¬s.Restrained := by
  refine ⟨_, rfl, rfl, fun h => ?_⟩
  exact absurd (h.starts ⟨9000, false, some 0⟩ (by decide)).1 (by decide)

end LiveStream

end EufySdk
