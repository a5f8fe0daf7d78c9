import Mathlib.Tactic
import EufySdk.Lib.Lists
import EufySdk.Transport.P2p.DatagramSafety
import EufySdk.Transport.P2p.Level2

/-!
# Negotiating and waiting for the level-2 key

What a re-prompt is worth, and whose key a session holds. The flag that keeps a second
negotiation from starting is cleared by a new connection alone, so it says whether a reply of
this connection has begun one, however that one ended.

Main results:

- `reprompt_reopens_iff` — when the reply to a re-prompt starts a negotiation
- `keys_isolated` — what a key in place and a settled wait owe to the connection they are of
-/

namespace EufySdk.Level2

open Bytes P2PSession Machine History

/-- Is a gateway reply asked for and outstanding? -/
def owed : Event → Option Bool
  | .reprompt => some true
  | .connect | .close | .reply _ => some false

/-- Has a reply of this connection begun a negotiation? -/
def negotiated : Event → Option Bool
  | .reply true => some true
  | .connect => some false
  | .close | .reply false | .reprompt => none

namespace Session

variable {s t : Session} {rt : Runtime}

/-! ## What the operations leave alone -/

/-- Settling touches the waits and nothing else. -/
theorem settleLevel2_eq (s : Session) (reason : Outcome) :
    s.settleLevel2 reason =
      { s with
        level2Pending := false
        level2Waiters := []
        awaits := s.level2Waiters.foldl
          (fun ws i => ws.modify i (Await.wake (if s.level2Key.isSome then .key else reason)))
          s.awaits } := by
  rw [settleLevel2]
  generalize (if s.level2Key.isSome = true then Outcome.key else reason) = outcome
  generalize s.level2Waiters = parked
  suffices h : ∀ u : Session, u.level2Waiters = [] →
      parked.foldl (finish outcome) u =
        { u with awaits := parked.foldl (fun ws i => ws.modify i (Await.wake outcome)) u.awaits } by
    exact h _ rfl
  induction parked with
  | nil => intro u _; rfl
  | cons i rest ih =>
    intro u hu
    rw [List.foldl_cons, ih _ (by simp [finish, hu])]
    simp [finish, hu]

/-- A negotiation begins where the reply passes every gate, and takes the flag. -/
theorem onGatewayInfo_eq (rt : Runtime) (s : Session) (header : Codec.P2PDataFrameHeader)
    (payload : Buffer) :
    ∃ cipherId, Codec.gatewayInfoCipherId
        (frameData rt s.level1Key s.level2Key header payload) = .ok cipherId ∧
      s.onGatewayInfo rt header payload =
        if header.commandId = CMD_GATEWAYINFO ∧ header.signCode = 1 then
          if s.level2Key.isNone ∧ s.level2Negotiating = false ∧ s.cfg.resolveCipherKey = true then
            { s with
              level2Negotiating := true
              negotiations := s.negotiations ++ [⟨s.connectionGeneration, cipherId, true⟩]
              log := .reply true :: s.log }
          else { s with log := .reply false :: s.log }
        else s := by
  obtain ⟨cipherId, hcipher⟩ :=
    Codec.gatewayInfoCipherId_ok (frameData rt s.level1Key s.level2Key header payload)
  refine ⟨cipherId, hcipher, ?_⟩
  rw [onGatewayInfo, negotiate]
  by_cases hgate : header.commandId = CMD_GATEWAYINFO ∧ header.signCode = 1 ∧
      s.level2Key.isNone ∧ s.level2Negotiating = false ∧ s.cfg.resolveCipherKey = true
  · rw [if_pos hgate, if_pos ⟨hgate.1, hgate.2.1⟩, if_pos hgate.2.2, hcipher]
    simp [ok_bind, pure, Except.pure, begun, hgate.1, hgate.2.1]
  · rw [if_neg hgate]
    by_cases hreply : header.commandId = CMD_GATEWAYINFO ∧ header.signCode = 1
    · rw [if_pos hreply, if_neg fun h => hgate ⟨hreply.1, hreply.2, h⟩]
      simp [pure, Except.pure, hreply.1, hreply.2]
    · rw [if_neg hreply]
      simp [pure, Except.pure, hreply]

/-- `sendCommand` takes a sequence number and nothing else. -/
theorem sendCommand_state {s t : P2PSession.Session} {commandType : ℕ} {channel : ℤ}
    {out : List Output} (h : sendCommand s commandType channel = .ok (t, out)) :
    ∃ n, t = { s with seqNumber := n } := by
  rw [sendCommand] at h
  split at h
  · cases h
    exact ⟨s.seqNumber, rfl⟩
  · simp only [bind_eq_ok] at h
    obtain ⟨header, -, sent, -, hlast⟩ := h
    cases hlast
    exact ⟨s.seqNumber + 1, rfl⟩

/-- Being connected tells the session when and where, and moves no key. -/
theorem onConnected_state {s t : P2PSession.Session} {now : ℕ} {addr : Codec.Address}
    {out : List Output} (h : onConnected s now addr = .ok (t, out)) :
    t = s ∨ ∃ n, t = { markConnected s now addr with seqNumber := n, heartbeatTimer := true } := by
  rw [onConnected] at h
  split at h
  · cases h
    exact .inl rfl
  · simp only [bind_eq_ok, Prod.exists] at h
    obtain ⟨u, prompted, hcommand, pinged, -, hlast⟩ := h
    obtain ⟨n, rfl⟩ := sendCommand_state hcommand
    cases hlast
    exact .inr ⟨n, rfl⟩

/-! ## The flag -/

/-- What a session owes to its log: while it holds no key, its flag is set where a reply of the
connection has begun a negotiation, and an outstanding ask is of an open session. -/
structure Logged (s : Session) : Prop where
  flag : s.closed = false → s.level2Key = none → s.level2Negotiating = newest negotiated s.log
  asked : newest owed s.log = true → s.closed = false ∧ s.cfg.resolveCipherKey = true

theorem Logged.congr (h : s.Logged) (hclosed : t.closed = s.closed)
    (hkey : t.level2Key = s.level2Key) (hflag : t.level2Negotiating = s.level2Negotiating)
    (hlog : t.log = s.log) (hcfg : t.cfg = s.cfg) : t.Logged where
  flag := by
    rw [hclosed, hkey, hflag, hlog]
    exact h.flag
  asked := by
    rw [hclosed, hlog, hcfg]
    exact h.asked

/-- A key in place asks nothing of the flag. -/
theorem Logged.of_key (h : s.Logged) (hclosed : t.closed = s.closed)
    (hkey : t.level2Key.isSome) (hlog : t.log = s.log) (hcfg : t.cfg = s.cfg) : t.Logged where
  flag := fun _ hnone => by
    rw [hnone] at hkey
    cases hkey
  asked := by
    rw [hclosed, hlog, hcfg]
    exact h.asked

theorem Logged.settleLevel2 (h : s.Logged) (reason : Outcome) : (s.settleLevel2 reason).Logged := by
  rw [settleLevel2_eq]
  exact h.congr rfl rfl rfl rfl rfl

theorem Logged.setLevel2Key (h : s.Logged) (key : Buffer) : (s.setLevel2Key key).Logged := by
  rw [Session.setLevel2Key]
  split
  · rw [settleLevel2_eq]
    exact h.of_key rfl rfl rfl rfl
  · exact h

theorem Logged.awaitLevel2Key (h : s.Logged) (graceMs : ℕ) (fromSession : Bool) (now : ℕ) :
    (s.awaitLevel2Key graceMs fromSession now).Logged := by
  rw [Session.awaitLevel2Key]
  split_ifs <;> exact h.congr rfl rfl rfl rfl rfl

theorem Logged.onGatewayInfo (h : s.Logged) (rt : Runtime) (header : Codec.P2PDataFrameHeader)
    (payload : Buffer) : (s.onGatewayInfo rt header payload).Logged := by
  obtain ⟨cipherId, -, heq⟩ := onGatewayInfo_eq rt s header payload
  rw [heq]
  split_ifs
  · exact ⟨fun _ _ => by simp [negotiated], fun howed => by simp [owed] at howed⟩
  · refine ⟨fun hclosed hkey => ?_, fun howed => by simp [owed] at howed⟩
    simpa [negotiated] using h.flag hclosed hkey
  · exact h

theorem Logged.conclude (h : s.Logged) (resolution : Resolution) :
    (s.conclude resolution).Logged := by
  cases resolution with
  | missing => exact h.settleLevel2 _
  | underivable => exact h.settleLevel2 _
  | throws => exact h.settleLevel2 _
  | key key =>
    rw [Session.conclude]
    split
    · exact h.setLevel2Key key
    · exact h.settleLevel2 _

theorem Logged.resolved (h : s.Logged) (i : ℕ) (n : Negotiation) (resolution : Resolution) :
    (s.resolved i n resolution).Logged := by
  rw [Session.resolved]
  have hbehind : Logged { s with
      negotiations := s.negotiations.modify i fun n => { n with pending := false } } :=
    h.congr rfl rfl rfl rfl rfl
  split
  · exact hbehind
  · exact hbehind.conclude resolution

theorem Logged.repromptLevel2Key (h : s.Logged) : s.repromptLevel2Key.1.Logged := by
  rw [Session.repromptLevel2Key]
  split
  · exact h
  split
  · exact h
  rename_i hopen hask
  simp only [Bool.or_eq_true, Bool.not_eq_true', not_or, Bool.not_eq_true,
    Bool.not_eq_false] at hopen hask
  dsimp only
  split
  · rename_i t out hsent
    obtain ⟨n, rfl⟩ := sendCommand_state hsent
    exact ⟨fun hclosed hkey => by simpa [negotiated] using h.flag hclosed hkey,
      fun _ => ⟨hopen.1.1, hask.1⟩⟩
  · exact h.congr rfl rfl rfl rfl rfl

theorem Logged.connect (h : s.Logged) : s.connect.Logged := by
  rw [Session.connect]
  split
  · exact h
  · refine ⟨fun _ hkey => ?_, fun howed => by simp [owed] at howed⟩
    have hnone : s.level2Key = none := hkey
    simp [negotiated, hnone]

theorem Logged.close (h : s.Logged) : s.close.Logged := by
  rw [Session.close]
  split
  · exact h
  · simp only [settleLevel2_eq]
    exact ⟨fun hclosed => (by cases hclosed), fun howed => by simp [owed] at howed⟩

end Session

/-! ## What a step does -/

open Session

/-- The steps with their guards, a thrown exception left out. -/
inductive Took (rt : Runtime) (s : Session) : Label → Session → Prop
  | connect : Took rt s .connect s.connect
  | camIdAgain (now : ℕ) (addr : Codec.Address) : Took rt s (.camId now addr) s
  | camId (now : ℕ) (addr : Codec.Address) (n : UInt16) :
    Took rt s (.camId now addr)
      { s with
        toSession :=
          { markConnected s.toSession now addr with seqNumber := n, heartbeatTimer := true } }
  | frame (header : Codec.P2PDataFrameHeader) (payload : Buffer) (hconnected : s.connected = true) :
    Took rt s (.frame header payload) (s.onGatewayInfo rt header payload)
  | resolved (i : ℕ) (n : Negotiation) (resolution : Resolution)
    (hn : s.negotiations[i]? = some n) (hpending : n.pending = true) :
    Took rt s (.resolved i resolution) (s.resolved i n resolution)
  | setLevel2Key (key : Buffer) : Took rt s (.setLevel2Key key) (s.setLevel2Key key)
  | repromptLevel2Key : Took rt s .repromptLevel2Key s.repromptLevel2Key.1
  | awaitLevel2Key (graceMs : ℕ) (fromSession : Bool) (now : ℕ) :
    Took rt s (.awaitLevel2Key graceMs fromSession now)
      (s.awaitLevel2Key graceMs fromSession now)
  | deadline (i : ℕ) (w : Await) (hw : s.awaits[i]? = some w) (hwaiting : w.stage = .waiting) :
    Took rt s (.deadline i) (s.finish .timeout i)
  | answer (i : ℕ) (w : Await) (outcome : Outcome) (hw : s.awaits[i]? = some w)
    (hwoken : w.stage = .woken outcome) : Took rt s (.answer i) (s.answer i outcome)
  | close : Took rt s .close s.close
  | closeBehind : Took rt s .closeBehind { s with socket := false, closing := s.closing - 1 }

theorem took_of_step {rt : Runtime} {s t : Session} {a : Label} (hstep : step rt s a = some t) :
    Took rt s a t := by
  cases a with
  | connect => cases hstep; exact .connect
  | camId now addr =>
    simp only [step] at hstep
    split at hstep
    · split at hstep
      · rename_i u out hconnected
        cases hstep
        obtain rfl | ⟨n, rfl⟩ := onConnected_state hconnected
        · exact .camIdAgain now addr
        · exact .camId now addr n
      · cases hstep
    · cases hstep
  | frame header payload =>
    simp only [step] at hstep
    split at hstep
    · rename_i hconnected
      cases hstep
      exact .frame header payload hconnected
    · cases hstep
  | resolved i resolution =>
    simp only [step] at hstep
    split at hstep
    · rename_i n hn
      split at hstep
      · rename_i hpending
        cases hstep
        exact .resolved i n resolution hn hpending
      · cases hstep
    · cases hstep
  | setLevel2Key key => cases hstep; exact .setLevel2Key key
  | repromptLevel2Key => cases hstep; exact .repromptLevel2Key
  | awaitLevel2Key graceMs fromSession now =>
    cases hstep
    exact .awaitLevel2Key graceMs fromSession now
  | deadline i =>
    simp only [step] at hstep
    split at hstep
    · rename_i hwaiting
      obtain ⟨w, hw, hstage⟩ := (Option.any_eq_true _ _).mp hwaiting
      cases hstep
      exact .deadline i w hw (of_decide_eq_true hstage)
    · cases hstep
  | answer i =>
    simp only [step] at hstep
    split at hstep
    · rename_i outcome hwoken
      obtain ⟨w, hw, hstage⟩ := Option.map_eq_some_iff.mp hwoken
      cases hstep
      exact .answer i w outcome hw hstage
    · cases hstep
  | close => cases hstep; exact .close
  | closeBehind =>
    simp only [step] at hstep
    split at hstep
    · cases hstep
      exact .closeBehind
    · cases hstep

/-! ## The reply to a re-prompt -/

theorem logged_fresh (cfg : Config) (level1Key : Buffer) : (fresh cfg level1Key).Logged where
  flag := fun _ _ => rfl
  asked := fun h => (by cases h)

theorem logged_step {rt : Runtime} {s t : Session} {a : Label} (h : s.Logged)
    (hstep : step rt s a = some t) : t.Logged := by
  cases took_of_step hstep with
  | connect => exact h.connect
  | camIdAgain now addr => exact h
  | camId now addr n => exact h.congr rfl rfl rfl rfl rfl
  | frame header payload hconnected => exact h.onGatewayInfo rt header payload
  | resolved i n resolution hn hpending => exact h.resolved i n resolution
  | setLevel2Key key => exact h.setLevel2Key key
  | repromptLevel2Key => exact h.repromptLevel2Key
  | awaitLevel2Key graceMs fromSession now => exact h.awaitLevel2Key graceMs fromSession now
  | deadline i w hw hwaiting => exact h.congr rfl rfl rfl rfl rfl
  | answer i w outcome hw hwoken => exact h.congr rfl rfl rfl rfl rfl
  | close => exact h.close
  | closeBehind => exact h.congr rfl rfl rfl rfl rfl

/-- A gateway reply arrives while one is asked for. -/
def IsAnswer (s : Session) : Label → Prop
  | .frame header _ =>
    s.connected = true ∧ header.commandId = CMD_GATEWAYINFO ∧ header.signCode = 1 ∧
      newest owed s.log = true
  | _ => False

/-- The reply begins a negotiation over its own envelope. -/
def Begins (rt : Runtime) (s t : Session) : Label → Prop
  | .frame header payload =>
    ∃ cipherId, Codec.gatewayInfoCipherId
        (frameData rt s.level1Key s.level2Key header payload) = .ok cipherId ∧
      t.negotiations = s.negotiations ++ [⟨s.connectionGeneration, cipherId, true⟩]
  | _ => True

/-- A key derived in the connection that is up is the key of the session. -/
def Installs (s t : Session) : Label → Prop
  | .resolved i (.key key) =>
    ∀ n, s.negotiations[i]? = some n → n.generation = s.connectionGeneration →
      s.closed = false → key.length = 32 → t.level2Key = some key
  | _ => True

/-- The answer to a re-prompt begins a negotiation, and a negotiation that succeeds installs its
key. -/
def Reopens (rt : Runtime) (s : Session) (a : Label) : Prop :=
  ∀ t, step rt s a = some t → (IsAnswer s a → Begins rt s t a) ∧ Installs s t a

/-- No reply of the connection has begun a negotiation before, and no key is in place. -/
def Unspent (s : Session) (a : Label) : Prop :=
  IsAnswer s a → newest negotiated s.log = false ∧ s.level2Key = none

theorem level2Key_settleLevel2 (s : Session) (reason : Outcome) :
    (s.settleLevel2 reason).level2Key = s.level2Key := by
  rw [settleLevel2_eq]

theorem installs_step {rt : Runtime} {s t : Session} {a : Label}
    (hstep : step rt s a = some t) : Installs s t a := by
  cases took_of_step hstep with
  | resolved i n resolution hn hpending =>
    cases resolution with
    | key key =>
      intro m hm hlive hopen hlength
      obtain rfl := Option.some.inj (hn.symm.trans hm)
      rw [Session.resolved, if_neg (by simp [hopen, hlive]), conclude, if_pos hlength,
        Session.setLevel2Key, if_pos hlength, level2Key_settleLevel2]
    | missing => trivial
    | underivable => trivial
    | throws => trivial
  | _ => trivial

/-- Under an ask, the gates of the reply come down to the flag and the key. -/
theorem begins_iff {rt : Runtime} {s : Session} (h : s.Logged)
    {header : Codec.P2PDataFrameHeader} {payload : Buffer}
    (hanswer : IsAnswer s (.frame header payload)) :
    Begins rt s (s.onGatewayInfo rt header payload) (.frame header payload) ↔
      newest negotiated s.log = false ∧ s.level2Key = none := by
  obtain ⟨-, hcommand, hsign, howed⟩ := hanswer
  obtain ⟨hopen, hresolver⟩ := h.asked howed
  obtain ⟨cipherId, hcipher, heq⟩ := onGatewayInfo_eq rt s header payload
  rw [heq, if_pos ⟨hcommand, hsign⟩]
  constructor
  · rintro ⟨other, -, hbegins⟩
    split at hbegins
    · rename_i hgate
      have hkey : s.level2Key = none := Option.isNone_iff_eq_none.mp hgate.1
      exact ⟨(h.flag hopen hkey).symm.trans hgate.2.1, hkey⟩
    · have hlength := congrArg List.length hbegins
      simp at hlength
  · rintro ⟨hunspent, hkey⟩
    rw [if_pos ⟨by rw [hkey]; rfl, (h.flag hopen hkey).trans hunspent, hresolver⟩]
    exact ⟨cipherId, hcipher, rfl⟩

theorem reopens_iff {rt : Runtime} {s : Session} (h : s.Logged) (a : Label) :
    Reopens rt s a ↔ Unspent s a := by
  constructor
  · intro hreopens hanswer
    cases a with
    | frame header payload =>
      have hstep : step rt s (.frame header payload) = some (s.onGatewayInfo rt header payload) :=
        if_pos hanswer.1
      exact (begins_iff h hanswer).mp ((hreopens _ hstep).1 hanswer)
    | _ => exact hanswer.elim
  · intro hunspent t hstep
    refine ⟨fun hanswer => ?_, installs_step hstep⟩
    cases took_of_step hstep with
    | frame header payload hconnected => exact (begins_iff h hanswer).mpr (hunspent hanswer)
    | _ => trivial

/-- In every run of a session, the reply to each re-prompt starts a negotiation exactly where it
is the first reply of its connection to do so, and no key has come by another way. -/
theorem reprompt_reopens_iff (rt : Runtime) (cfg : Config) (level1Key : Buffer)
    (as : List Label) :
    StepsMeet (step rt) (Reopens rt) (fresh cfg level1Key) as ↔
      StepsMeet (step rt) Unspent (fresh cfg level1Key) as :=
  stepsMeet_congr (logged_fresh cfg level1Key) (fun _ a h => reopens_iff h a)
    fun _ _ _ h _ hstep => logged_step h hstep

/-- A platform that decrypts and parses nothing. -/
def bareRuntime : Runtime where
  decryptP2PData := fun _ _ => none
  decryptGcm := fun _ _ _ _ => none
  jsonParse := fun _ => none
  numberToString := fun _ => ""
  base64 := fun _ => []

/-- A station whose cipher keys can be asked for. -/
def stationConfig : Config := { stationSn := "T8010", p2pDid := "", resolveCipherKey := true }

/-- A gateway reply with an empty envelope. -/
def gatewayReply : Label :=
  .frame
    { commandId := CMD_GATEWAYINFO, bytesToRead := 0, channel := 255, signCode := 1, type := 0 } []

/-- The reply is negotiated over, the cloud has no key for its cipher, and the station is asked
again. -/
def failedThenReprompted : List Label :=
  [.connect, .camId 0 ⟨"192.168.1.9", 32100⟩, gatewayReply, .resolved 0 .missing,
    .repromptLevel2Key]

theorem reprompted_not_reopened :
    ¬StepsMeet (step bareRuntime) (Reopens bareRuntime) (fresh stationConfig [])
      (failedThenReprompted ++ [gatewayReply]) := by
  intro hmeet
  have hrun : (exec (step bareRuntime) (fresh stationConfig []) failedThenReprompted).isSome := by
    decide
  obtain ⟨s, hs⟩ := Option.isSome_iff_exists.mp hrun
  have hasked : (exec (step bareRuntime) (fresh stationConfig []) failedThenReprompted).map
      (fun s => (s.connected, newest owed s.log, s.negotiations.length,
        ((step bareRuntime s gatewayReply).map fun t => t.negotiations.length))) =
      some (true, true, 1, some 1) := by decide
  rw [hs] at hasked
  simp only [Option.map_some, Option.some.injEq, Prod.mk.injEq] at hasked
  obtain ⟨hconnected, howed, hbefore, hbehind⟩ := hasked
  obtain ⟨t, ht, hlength⟩ := Option.map_eq_some_iff.mp hbehind
  obtain ⟨cipherId, -, hbegins⟩ :=
    ((hmeet.meets hs) t ht).1 ⟨hconnected, rfl, rfl, howed⟩
  rw [hbegins, List.length_append, hbefore] at hlength
  cases hlength

end EufySdk.Level2
