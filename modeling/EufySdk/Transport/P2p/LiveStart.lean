import Mathlib.Tactic
import EufySdk.Lib.History
import EufySdk.Lib.Machine
import EufySdk.Lib.OrderedMap
import EufySdk.Transport.P2p.Codec

/-!
# Live starts of a session and its connections

`startLiveMedia`, `stopLiveMedia`, `connect` and `close` of `transport/p2p/p2p-session.ts`,
with the retained starts and their retransmission. What goes out on a socket, and what
happens to the socket, is kept in a log.

- `Session` — the fields the live starts depend on
- `Session.startLiveMedia`, `Session.sweep` — the start or keepalive of a channel, and the
  ticker that repeats unacknowledged starts
- `Founded` — every keepalive in a log follows a start on the connection it belongs to
- `keepalives_founded` — the runs whose keepalives are all founded
-/

namespace EufySdk.LiveStart

open History Machine OrderedMap Codec

/-- The encryption of a start. -/
inductive Seal
  | l1
  | l2
  deriving DecidableEq, Repr

/-- A retained start, without its bytes. -/
structure Retained where
  channel : ℤ
  firstSentAt : ℕ
  sentAt : ℕ
  sends : ℕ
  deriving DecidableEq, Repr

inductive Event
  /-- `connect` has a new socket. -/
  | opened
  /-- `close` ends the connection. -/
  | closed
  /-- A `START_LIVE` goes out on the socket. -/
  | start (channel : ℤ)
  /-- `stopLiveMedia` is called. -/
  | stop (channel : ℤ)
  /-- `startLiveMedia` answers with a keepalive. -/
  | keepalive (channel : ℤ)
  deriving DecidableEq, Repr

structure Session where
  /-- Whether there is a socket, and whether it has been closed. -/
  socket : Bool := false
  socketClosed : Bool := false
  connected : Bool := false
  connecting : Bool := false
  closed : Bool := false
  connectAddress : Option Address := none
  connectionGeneration : ℕ := 0
  /-- Whether a level-2 key has been negotiated. -/
  level2Key : Bool := false
  seqNumber : ℕ := 0
  liveStartedChannels : List (ℤ × Seal) := []
  unackedLiveStarts : List (ℕ × Retained) := []
  liveStartRetransmitTimer : Bool := false
  /-- The `close` calls in their await. -/
  closing : ℕ := 0
  /-- What has happened, newest first. -/
  log : List Event := []
  deriving DecidableEq, Repr

def LIVE_START_RETRANSMIT_MS : ℕ := 150
def LIVE_START_ACK_DEADLINE_MS : ℕ := 3000

namespace Session

/-- `send`, and whether it returns: a socket that is closed and not forgotten yet throws. -/
def send (s : Session) (events : List Event) : Session × Bool :=
  if !s.socket then (s, true)
  else if s.socketClosed then (s, false)
  else ({ s with log := events ++ s.log }, true)

/-- The next command takes a sequence number. -/
def advance (s : Session) : Session := { s with seqNumber := (s.seqNumber + 1) % 65536 }

def sendCommand (s : Session) : Session × Bool :=
  if s.connectAddress.isNone then (s, true) else s.advance.send []

/-- `sendMediaPayloadLevel2`, where the payload of the frame fits. -/
def sendMediaPayloadLevel2 (s : Session) : Session × Bool :=
  if s.connectAddress.isNone || !s.level2Key then (s, true) else s.advance.send []

/-! ## Starting -/

def want (s : Session) : Seal := if s.level2Key then .l2 else .l1

/-- A start is retained under its sequence number, in place of any other of its channel. -/
def retain (s : Session) (channel : ℤ) (now : ℕ) : Session :=
  let others := s.unackedLiveStarts.filter fun e => e.2.channel ≠ channel
  { s.advance with
    unackedLiveStarts := set others s.seqNumber ⟨channel, now, now, 1⟩
    liveStartRetransmitTimer := true }

def sendStartLiveOwnSession (s : Session) (channel : ℤ) (now : ℕ) (fits : Bool) : Session × Bool :=
  if s.connectAddress.isNone then (s, true)
  else if !fits then (s, false)
  else (s.retain channel now).send [.start channel]

/-- A forced start yields to one that still awaits its acknowledgement. -/
def yields (s : Session) (channel : ℤ) (force : Bool) : Bool :=
  force && s.unackedLiveStarts.any fun e => e.2.channel = channel

/-- What a forced start forgets first. -/
def forgetIf (s : Session) (channel : ℤ) (force : Bool) : Session :=
  if force then { s with liveStartedChannels := delete s.liveStartedChannels channel } else s

/-- `startLiveMedia` of an own-session camera that does not yield. -/
def startOwn (s : Session) (channel : ℤ) (now : ℕ) (fits : Bool) : Session :=
  if get s.liveStartedChannels channel = some s.want then
    match s.sendCommand with
    | (s, true) => { s with log := .keepalive channel :: s.log }
    | (s, false) => s
  else
    match s.sendStartLiveOwnSession channel now fits with
    | (t, true) => { t with liveStartedChannels := set t.liveStartedChannels channel s.want }
    | (t, false) => t

/-- `startLiveMedia`. `fits` says whether the wrapped start fits a frame: its builder throws
otherwise. -/
def startLiveMedia (s : Session) (channel : ℤ) (homeBaseAttached force : Bool) (now : ℕ)
    (fits : Bool) : Session :=
  if homeBaseAttached then s.sendMediaPayloadLevel2.1
  else if s.yields channel force then s
  else (s.forgetIf channel force).startOwn channel now fits

/-! ## Stopping, acknowledging, repeating -/

/-- The ticker goes with the last retained start. -/
def settleRetransmit (s : Session) : Session :=
  if s.unackedLiveStarts = [] then { s with liveStartRetransmitTimer := false } else s

def stopLiveMedia (s : Session) (channel : ℤ) : Session :=
  let s :=
    { s with
      liveStartedChannels := delete s.liveStartedChannels channel
      unackedLiveStarts := s.unackedLiveStarts.filter fun e => e.2.channel ≠ channel
      log := .stop channel :: s.log }.settleRetransmit
  if s.level2Key then s.sendMediaPayloadLevel2.1 else s.sendCommand.1

/-- `onAck` for the sequence numbers a DATA acknowledgement lists. -/
def onAck (s : Session) (sequences : List ℕ) : Session :=
  { s with
    unackedLiveStarts := sequences.foldl delete s.unackedLiveStarts }.settleRetransmit

/-- One turn of the loop of `retransmitUnacked` over the retained starts. -/
def retransmit (now : ℕ) (s : Session) (e : ℕ × Retained) : Session :=
  if now - e.2.sentAt < LIVE_START_RETRANSMIT_MS then s
  else
    let rest := delete s.unackedLiveStarts e.1
    if LIVE_START_ACK_DEADLINE_MS ≤ now - e.2.firstSentAt then
      { s with
        unackedLiveStarts := rest
        liveStartedChannels := delete s.liveStartedChannels e.2.channel }
    else
      ({ s with
        unackedLiveStarts :=
          set rest e.1 { e.2 with sends := e.2.sends + 1, sentAt := now } }.send
        [.start e.2.channel]).1

/-- A tick of the retransmission. -/
def sweep (s : Session) (now : ℕ) : Session :=
  if s.connectAddress.isNone then { s with liveStartRetransmitTimer := false }
  else (s.unackedLiveStarts.foldl (retransmit now) s).settleRetransmit

/-! ## Connecting and closing -/

/-- `connect` up to its await. -/
def connect (s : Session) : Session :=
  if s.connecting || s.connected then s
  else
    { s with
      connecting := true
      closed := false
      connectionGeneration := s.connectionGeneration + 1
      socket := true
      socketClosed := false
      log := .opened :: s.log }

/-- `onConnected`, with the gateway query it sends. -/
def onConnected (s : Session) (addr : Address) : Session :=
  if s.connected then s
  else ({ s with connected := true, connecting := false, connectAddress := some addr }.sendCommand).1

/-- `close` up to its await. -/
def close (s : Session) : Session :=
  if s.closed then s
  else
    { s with
      closed := true
      connectionGeneration := s.connectionGeneration + 1
      level2Key := false
      connected := false
      connecting := false
      liveStartRetransmitTimer := false
      unackedLiveStarts := []
      socketClosed := s.socket
      closing := s.closing + 1
      log := .closed :: s.log }

/-- `close` behind its await: whatever socket there is by then is forgotten. -/
def closeBehind (s : Session) : Session :=
  { s with socket := false, closing := s.closing - 1 }

end Session

/-! ## Steps -/

inductive Label
  | connect
  /-- The camera answers on the socket. -/
  | camId (addr : Address)
  /-- A negotiation that began in a connection derives its key. -/
  | level2Ready (generation : ℕ)
  | startLiveMedia (channel : ℤ) (homeBaseAttached force : Bool) (now : ℕ) (fits : Bool)
  | stopLiveMedia (channel : ℤ)
  | ack (sequences : List ℕ)
  | sweep (now : ℕ)
  /-- Another command is sent. -/
  | command
  | close
  | closeBehind
  deriving DecidableEq, Repr

open Session in
def step (s : Session) : Label → Option Session
  | .connect => some s.connect
  | .camId addr => if s.connected || s.connecting then some (s.onConnected addr) else none
  | .level2Ready generation =>
    some (if s.closed || generation ≠ s.connectionGeneration then s
      else { s with level2Key := true })
  | .startLiveMedia channel homeBaseAttached force now fits =>
    some (s.startLiveMedia channel homeBaseAttached force now fits)
  | .stopLiveMedia channel => some (s.stopLiveMedia channel)
  | .ack sequences => some (s.onAck sequences)
  | .sweep now =>
    -- no timer fires between the close of a socket and its callback
    if s.liveStartRetransmitTimer && !(s.socket && s.socketClosed) then some (s.sweep now) else none
  | .command => some s.sendCommand.1
  | .close => some s.close
  | .closeBehind => if 0 < s.closing then some s.closeBehind else none

/-! ## Founded keepalives -/

/-- What an event says about whether `channel` has been started on this connection and not
stopped since. -/
def bears (channel : ℤ) : Event → Option Bool
  | .opened | .closed => some false
  | .start c => if c = channel then some true else none
  | .stop c => if c = channel then some false else none
  | .keepalive _ => none

/-- A start of the channel has been sent on this connection, and it has not been stopped
since. -/
def running (channel : ℤ) (log : List Event) : Bool := newest (bears channel) log

/-- Every keepalive was answered while its channel was running. -/
def Founded : List Event → Prop
  | [] => True
  | .keepalive channel :: log => running channel log = true ∧ Founded log
  | _ :: log => Founded log

/-- No step leaves an unfounded keepalive. -/
def KeepsFounded (s : Session) (l : Label) : Prop := ∀ t, step s l = some t → Founded t.log

/-- An own-session start that is not a keepalive has an address and a socket to go to, and a
keepalive is not answered by a closed session. A new connection begins with no channel
recorded as started. -/
def Session.sendsHere (s : Session) : Label → Bool
  | .startLiveMedia channel false force _ _ =>
    s.yields channel force ||
      if get (s.forgetIf channel force).liveStartedChannels channel = some s.want then !s.closed
      else s.connectAddress.isSome && s.socket
  | .connect => s.connecting || s.connected || s.liveStartedChannels.isEmpty
  | _ => true

/-! ## Running channels -/

section Log

variable {channel c : ℤ} {log : List Event}

@[simp]
theorem running_start_self : running channel (.start channel :: log) = true := by
  rw [running, newest_cons, bears, if_pos rfl]
  rfl

theorem running_start (h : running channel log = true) :
    running channel (.start c :: log) = true := by
  by_cases hc : c = channel
  · rw [hc]
    exact running_start_self
  · rw [running, newest_cons, bears, if_neg hc]
    exact h

theorem running_stop (h : running channel log = true) (hc : c ≠ channel) :
    running channel (.stop c :: log) = true := by
  rw [running, newest_cons, bears, if_neg hc]
  exact h

theorem running_keepalive : running channel (.keepalive c :: log) = running channel log := by
  rw [running, newest_cons]
  rfl

end Log

/-! ## Steps that keep the record true -/

namespace Session

/-- The invariant: keepalives are founded, and what an open session records as started is
running. -/
structure Sound (s : Session) : Prop where
  founded : Founded s.log
  recorded : s.closed = false → ∀ channel variant,
    get s.liveStartedChannels channel = some variant → running channel s.log = true

variable {s t : Session} {channel : ℤ}

/-- Nothing changes that the invariant is about. -/
structure Alike (s t : Session) : Prop where
  log : t.log = s.log
  started : t.liveStartedChannels = s.liveStartedChannels
  closed : t.closed = s.closed

theorem Sound.of_alike (h : s.Sound) (ha : Alike s t) : t.Sound where
  founded := by
    rw [ha.log]
    exact h.founded
  recorded := by
    rw [ha.log, ha.started, ha.closed]
    exact h.recorded

theorem Alike.refl (s : Session) : Alike s s := ⟨rfl, rfl, rfl⟩

theorem Alike.trans {u : Session} (h : Alike s t) (h' : Alike t u) : Alike s u :=
  ⟨h'.log.trans h.log, h'.started.trans h.started, h'.closed.trans h.closed⟩

theorem alike_advance (s : Session) : Alike s s.advance := ⟨rfl, rfl, rfl⟩

theorem alike_send_nil (s : Session) : Alike s (s.send []).1 := by
  rw [send]
  split
  · exact .refl s
  · split
    · exact .refl s
    · exact ⟨rfl, rfl, rfl⟩

theorem alike_sendCommand (s : Session) : Alike s s.sendCommand.1 := by
  rw [sendCommand]
  split
  · exact .refl s
  · exact (alike_advance s).trans (alike_send_nil s.advance)

theorem alike_sendMediaPayloadLevel2 (s : Session) : Alike s s.sendMediaPayloadLevel2.1 := by
  rw [sendMediaPayloadLevel2]
  split
  · exact .refl s
  · exact (alike_advance s).trans (alike_send_nil s.advance)

theorem alike_settleRetransmit (s : Session) : Alike s s.settleRetransmit := by
  rw [settleRetransmit]
  split
  · exact ⟨rfl, rfl, rfl⟩
  · exact .refl s

/-- A channel that is no longer recorded is owed nothing. -/
theorem Sound.forget (h : s.Sound) (channel : ℤ) (hlog : t.log = s.log)
    (hclosed : t.closed = s.closed)
    (hstarted : t.liveStartedChannels = delete s.liveStartedChannels channel) : t.Sound where
  founded := by
    rw [hlog]
    exact h.founded
  recorded := by
    intro hopen c variant hget
    rw [hstarted] at hget
    rw [hclosed] at hopen
    rw [hlog]
    exact h.recorded hopen c variant (get_of_get_delete hget)

/-- A start that is sent makes its channel run, and stops no other. -/
theorem Sound.started (h : s.Sound) (hlog : t.log = .start channel :: s.log)
    (hclosed : t.closed = s.closed)
    (hstarted : ∀ c variant, get t.liveStartedChannels c = some variant →
      c = channel ∨ get s.liveStartedChannels c = some variant) : t.Sound where
  founded := by
    rw [hlog]
    exact h.founded
  recorded := by
    intro hopen c variant hget
    rw [hclosed] at hopen
    rw [hlog]
    obtain rfl | hbefore := hstarted c variant hget
    · exact running_start_self
    · exact running_start (h.recorded hopen c variant hbefore)

theorem sound_send_start (h : s.Sound) (channel : ℤ) : (s.send [.start channel]).1.Sound := by
  rw [send]
  split
  · exact h
  · split
    · exact h
    · exact h.started rfl rfl fun _ _ hget => .inr hget

theorem sound_retransmit (h : s.Sound) (now : ℕ) (e : ℕ × Retained) :
    (retransmit now s e).Sound := by
  rw [retransmit]
  split
  · exact h
  · dsimp only
    split
    · exact h.forget e.2.channel rfl rfl rfl
    · apply sound_send_start
      exact h.of_alike ⟨rfl, rfl, rfl⟩

theorem sound_sweep (h : s.Sound) (now : ℕ) : (s.sweep now).Sound := by
  have hfold : ∀ (es : List (ℕ × Retained)) (s : Session), s.Sound →
      (es.foldl (retransmit now) s).Sound := by
    intro es
    induction es with
    | nil => exact fun _ h => h
    | cons e es ih => exact fun s h => ih _ (sound_retransmit h now e)
  rw [sweep]
  split
  · exact h.of_alike ⟨rfl, rfl, rfl⟩
  · exact (hfold _ s h).of_alike (alike_settleRetransmit _)

theorem sound_stopLiveMedia (h : s.Sound) (channel : ℤ) : (s.stopLiveMedia channel).Sound := by
  have hstopped : Sound
      { s with
        liveStartedChannels := delete s.liveStartedChannels channel
        unackedLiveStarts := s.unackedLiveStarts.filter fun e => e.2.channel ≠ channel
        log := .stop channel :: s.log } := by
    refine ⟨h.founded, fun hopen c variant hget => ?_⟩
    change get (delete s.liveStartedChannels channel) c = some variant at hget
    have hne : channel ≠ c := by
      rintro rfl
      rw [get_delete, if_pos rfl] at hget
      cases hget
    exact running_stop (h.recorded hopen c variant (get_of_get_delete hget)) hne
  have hsettled := hstopped.of_alike (alike_settleRetransmit _)
  rw [stopLiveMedia]
  split
  · exact hsettled.of_alike (alike_sendMediaPayloadLevel2 _)
  · exact hsettled.of_alike (alike_sendCommand _)

theorem sound_forgetIf (h : s.Sound) (channel : ℤ) (force : Bool) :
    (s.forgetIf channel force).Sound := by
  rw [forgetIf]
  split
  · exact h.forget channel rfl rfl rfl
  · exact h

/-- The keepalive of a channel on record is answered while it runs. -/
theorem sound_keepalive (h : s.Sound) (hopen : s.closed = false)
    (hget : get s.liveStartedChannels channel = some s.want) (now : ℕ) (fits : Bool) :
    (s.startOwn channel now fits).Sound := by
  have hsent := alike_sendCommand s
  rw [startOwn, if_pos hget]
  split
  · rename_i t ht
    rw [ht] at hsent
    have hsound := h.of_alike hsent
    have hrunning : running channel t.log = true := by
      rw [hsent.log]
      exact h.recorded hopen channel s.want hget
    refine ⟨⟨hrunning, hsound.founded⟩, fun hopen c variant hgot => ?_⟩
    show running c (.keepalive channel :: t.log) = true
    rw [running_keepalive]
    exact hsound.recorded hopen c variant hgot
  · rename_i t ht
    rw [ht] at hsent
    exact h.of_alike hsent

/-- What is forgotten first is on record only. -/
theorem forgetIf_fields (s : Session) (channel : ℤ) (force : Bool) :
    (s.forgetIf channel force).want = s.want ∧ (s.forgetIf channel force).closed = s.closed ∧
      (s.forgetIf channel force).connectAddress = s.connectAddress ∧
        (s.forgetIf channel force).socket = s.socket := by
  cases force with
  | true => exact ⟨rfl, rfl, rfl, rfl⟩
  | false => exact ⟨rfl, rfl, rfl, rfl⟩

/-- A start with an address and a socket is on record only once it is sent. -/
theorem sound_start (h : s.Sound) (haddress : s.connectAddress.isSome = true)
    (hsocket : s.socket = true) (hget : get s.liveStartedChannels channel ≠ some s.want)
    (now : ℕ) (fits : Bool) : (s.startOwn channel now fits).Sound := by
  have hnone : s.connectAddress.isNone = false := by
    rw [← Option.not_isSome, haddress]
    rfl
  have hretained : Alike s (s.retain channel now) := ⟨rfl, rfl, rfl⟩
  rw [startOwn, if_neg hget, sendStartLiveOwnSession, hnone, if_neg Bool.false_ne_true]
  cases fits with
  | false => exact h
  | true =>
    rw [send, show (s.retain channel now).socket = true from hsocket]
    by_cases hclosed : (s.retain channel now).socketClosed = true
    · rw [hclosed]
      exact h.of_alike hretained
    · rw [Bool.eq_false_iff.mpr hclosed]
      refine @Sound.started s _ channel h rfl rfl fun c variant hgot => ?_
      change get (set s.liveStartedChannels channel s.want) c = some variant at hgot
      rw [get_set] at hgot
      split at hgot
      · rename_i hc
        exact .inl hc.symm
      · exact .inr hgot

theorem sound_startLiveMedia (h : s.Sound) {homeBaseAttached force : Bool} {now : ℕ} {fits : Bool}
    (hsends : s.sendsHere (.startLiveMedia channel homeBaseAttached force now fits) = true) :
    (s.startLiveMedia channel homeBaseAttached force now fits).Sound := by
  rw [startLiveMedia]
  cases homeBaseAttached with
  | true => exact h.of_alike (alike_sendMediaPayloadLevel2 s)
  | false =>
    rw [if_neg Bool.false_ne_true]
    split
    · exact h
    · rename_i hyields
      have hforgot := sound_forgetIf h channel force
      obtain ⟨hwant, hclosed, haddress, hsocket⟩ := forgetIf_fields s channel force
      rw [sendsHere, Bool.eq_false_iff.mpr hyields, Bool.false_or, ← hwant] at hsends
      split at hsends
      · rename_i hget
        rw [← hclosed, Bool.not_eq_true'] at hsends
        exact sound_keepalive hforgot hsends hget now fits
      · rename_i hget
        rw [← haddress, ← hsocket, Bool.and_eq_true] at hsends
        exact sound_start hforgot hsends.1 hsends.2 hget now fits

theorem sound_connect (h : s.Sound) (hsends : s.sendsHere .connect = true) :
    s.connect.Sound := by
  rw [connect]
  split
  · exact h
  · rename_i hbusy
    rw [sendsHere, Bool.eq_false_iff.mpr hbusy, Bool.false_or, List.isEmpty_iff] at hsends
    refine ⟨h.founded, fun _ c variant hget => ?_⟩
    change get s.liveStartedChannels c = some variant at hget
    rw [hsends] at hget
    cases hget

theorem sound_onConnected (h : s.Sound) (addr : Address) : (s.onConnected addr).Sound := by
  rw [onConnected]
  split
  · exact h
  · apply Sound.of_alike _ (alike_sendCommand _)
    exact h.of_alike ⟨rfl, rfl, rfl⟩

theorem sound_close (h : s.Sound) : s.close.Sound := by
  rw [close]
  split
  · exact h
  · exact ⟨h.founded, fun hopen => by cases hopen⟩

theorem sound_step {l : Label} (h : s.Sound) (hsends : s.sendsHere l = true)
    (hstep : step s l = some t) : t.Sound := by
  cases l with
  | connect =>
    obtain rfl := Option.some.inj hstep
    exact sound_connect h hsends
  | camId addr =>
    simp only [step] at hstep
    split at hstep
    · obtain rfl := Option.some.inj hstep
      exact sound_onConnected h addr
    · cases hstep
  | level2Ready generation =>
    obtain rfl := Option.some.inj hstep
    split
    · exact h
    · exact h.of_alike ⟨rfl, rfl, rfl⟩
  | startLiveMedia channel homeBaseAttached force now fits =>
    obtain rfl := Option.some.inj hstep
    exact sound_startLiveMedia h hsends
  | stopLiveMedia channel =>
    obtain rfl := Option.some.inj hstep
    exact sound_stopLiveMedia h channel
  | ack sequences =>
    obtain rfl := Option.some.inj hstep
    apply Sound.of_alike _ (alike_settleRetransmit _)
    exact h.of_alike ⟨rfl, rfl, rfl⟩
  | sweep now =>
    simp only [step] at hstep
    split at hstep
    · obtain rfl := Option.some.inj hstep
      exact sound_sweep h now
    · cases hstep
  | command =>
    obtain rfl := Option.some.inj hstep
    exact h.of_alike (alike_sendCommand s)
  | close =>
    obtain rfl := Option.some.inj hstep
    exact sound_close h
  | closeBehind =>
    simp only [step] at hstep
    split at hstep
    · obtain rfl := Option.some.inj hstep
      exact h.of_alike ⟨rfl, rfl, rfl⟩
    · cases hstep

theorem sound_init : Sound {} := ⟨trivial, fun _ _ _ hget => by cases hget⟩

end Session

/-- **Recorded live starts were sent on this connection.** In a run whose starts all go to an
address and a socket, and whose connections each begin with no channel on record, every
keepalive is answered while a start of its channel, sent on the same connection, has not been
stopped. -/
theorem keepalives_founded {ls : List Label}
    (h : StepsMeet step (fun s l => s.sendsHere l = true) {} ls) :
    StepsMeet step KeepsFounded {} ls := by
  apply h.strengthen (J := Session.Sound) Session.sound_init
  · exact fun s l hs hsends t hstep => (Session.sound_step hs hsends hstep).founded
  · exact fun s l t hs hsends hstep => Session.sound_step hs hsends hstep

/-- A camera is streamed, stopped, and streamed again on the next connection. -/
def streamedTwice : List Label :=
  [.connect, .camId ⟨"10.0.0.2", 32108⟩, .startLiveMedia 0 false false 0 true, .ack [1],
    .startLiveMedia 0 false false 3000 true, .stopLiveMedia 0, .close, .closeBehind, .connect,
    .camId ⟨"10.0.0.2", 32108⟩, .startLiveMedia 0 false false 9000 true,
    .startLiveMedia 0 false false 12000 true]

theorem keepalives_founded_streamed_twice :
    StepsMeet step KeepsFounded {} streamedTwice ∧
      ((exec step {} streamedTwice).map Session.log).map (List.take 2) =
        some [.keepalive 0, .start 0] :=
  ⟨keepalives_founded (by decide), by decide⟩

/-- A start is asked for before there is a connection, and again once there is one. -/
def startedTooEarly : List Label :=
  [.startLiveMedia 0 false false 0 true, .connect, .camId ⟨"10.0.0.2", 32108⟩]

/-- No start has been sent, and the camera is sent a keepalive. -/
theorem keepalive_without_start :
    ∃ s t, exec step {} startedTooEarly = some s ∧
      step s (.startLiveMedia 0 false false 3000 true) = some t ∧
      t.log = [.keepalive 0, .opened] ∧
      ¬StepsMeet step KeepsFounded {}
        (startedTooEarly ++ [.startLiveMedia 0 false false 3000 true]) := by
  refine ⟨_, _, rfl, rfl, rfl, fun h => ?_⟩
  obtain ⟨hrunning, -⟩ : Founded [.keepalive 0, .opened] := h.meets rfl _ rfl
  cases hrunning

/-- A start of the connection before suppresses the one on the next. -/
example :
    ((exec step {} [.connect, .camId ⟨"10.0.0.2", 32108⟩, .startLiveMedia 0 false false 0 true,
        .close, .closeBehind, .connect, .camId ⟨"10.0.0.2", 32108⟩,
        .startLiveMedia 0 false false 9000 true]).map Session.log).map (List.take 2) =
      some [.keepalive 0, .opened] := by
  decide

end EufySdk.LiveStart
