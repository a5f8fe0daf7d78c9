import Mathlib.Tactic
import EufySdk.Transport.P2p.Dispatch

/-!
# Which datagrams make the message callback throw

`onMessage` indexes fixed offsets and reuses parsed and source ports, and a param
report converts values the sender chose. `Crashes` lists the inputs on which one of
these throws; on every other input the callback returns (`onMessage_isOk`).
-/

namespace EufySdk.P2PSession

open Bytes Codec

/-! ## Sending -/

theorem send_isOk (socket : Bool) (addr : Address) (type payload : Buffer) :
    (send socket addr type payload).isOk = true ↔
      (socket = true → payload.length < 65536 ∧ ValidPort addr.port) := by
  cases socket with
  | false => simp [send, Except.isOk, Except.toBool, pure, Except.pure]
  | true =>
    rw [send, if_neg (by decide), frameMessage, Buf.writeUInt16BE]
    by_cases hlen : payload.length < 65536
    · rw [if_pos hlen]
      simp only [ok_bind]
      change Except.isOk (if ValidPort addr.port then _ else _) = true ↔ _
      by_cases hport : ValidPort addr.port
      · rw [if_pos hport]
        exact ⟨fun _ _ => ⟨hlen, hport⟩, fun _ => rfl⟩
      · rw [if_neg hport]
        exact ⟨fun h => (by cases h), fun h => absurd (h trivial).2 hport⟩
    · rw [if_neg hlen]
      exact ⟨fun h => (by cases h), fun h => absurd (h rfl).1 hlen⟩

theorem sendEach_isOk (socket : Bool) (type payload : Buffer) (addrs : List Address) :
    (sendEach socket type payload addrs).isOk = true ↔
      ∀ addr ∈ addrs, (send socket addr type payload).isOk = true := by
  induction addrs with
  | nil => simp [sendEach, Except.isOk, Except.toBool]
  | cons addr rest ih =>
    rw [sendEach, isOk_bind, List.forall_mem_cons, ← ih, isOk_iff]
    constructor
    · rintro ⟨first, hfirst, hrest⟩
      rw [isOk_bind_of_forall (fun _ => rfl)] at hrest
      exact ⟨⟨first, hfirst⟩, hrest⟩
    · rintro ⟨⟨first, hfirst⟩, hrest⟩
      refine ⟨first, hfirst, ?_⟩
      rw [isOk_bind_of_forall (fun _ => rfl)]
      exact hrest

/-- The reported port and its neighbourhood are all sendable. -/
def CheckCamPort (port : ℕ) : Prop := 1 ≤ port ∧ port ≤ 65532

theorem checkCamPorts_valid (port : ℕ) :
    (ValidPort port ∧ ∀ p ∈ checkCamPorts port, ValidPort p) ↔ CheckCamPort port := by
  constructor
  · rintro ⟨⟨hpos, -⟩, hall⟩
    have hmem : port + 3 ∈ checkCamPorts port := by
      refine List.mem_filterMap.mpr ⟨6, by simp, ?_⟩
      rw [if_pos ⟨by decide, by omega⟩]
      exact congrArg some (by omega)
    have htop := (hall _ hmem).2
    exact ⟨hpos, by omega⟩
  · rintro ⟨hpos, htop⟩
    refine ⟨⟨hpos, by omega⟩, ?_⟩
    intro p hp
    obtain ⟨i, hi, hvalue⟩ := List.mem_filterMap.mp hp
    have hi7 : i < 7 := List.mem_range.mp hi
    split at hvalue
    · rename_i hguard
      have hpi := Option.some.inj hvalue
      exact ⟨by omega, by omega⟩
    · cases hvalue

/-- Hole punching at a port goes out, or there is no socket to send from. -/
def CheckCamSends (s : Session) (port : ℕ) : Prop :=
  DidEncodes s.cfg.p2pDid ∧ (s.socket = true → CheckCamPort port)

theorem beginCheckCam_isOk (s : Session) (addr : Address) :
    (beginCheckCam s addr).isOk = true ↔ CheckCamSends s addr.port := by
  rw [beginCheckCam, isOk_bind, CheckCamSends, ← buildCheckCamPayload_isOk, isOk_iff]
  have hsends : ∀ payload, buildCheckCamPayload s.cfg.p2pDid = .ok payload →
      ((sendEach s.socket RequestMessageType.CHECK_CAM payload
        (addr :: (checkCamPorts addr.port).map fun p => { host := addr.host, port := p })).isOk =
          true ↔ (s.socket = true → CheckCamPort addr.port)) := by
    intro payload hpayload
    have hlen := length_buildCheckCamPayload hpayload
    rw [sendEach_isOk, List.forall_mem_cons, List.forall_mem_map, send_isOk,
      ← checkCamPorts_valid]
    simp only [send_isOk]
    constructor
    · rintro ⟨hfirst, hrest⟩ hsocket
      exact ⟨(hfirst hsocket).2, fun p hp => (hrest p hp hsocket).2⟩
    · intro h
      exact ⟨fun hsocket => ⟨by omega, (h hsocket).1⟩,
        fun p hp hsocket => ⟨by omega, (h hsocket).2 p hp⟩⟩
  constructor
  · rintro ⟨payload, hpayload, hok⟩
    exact ⟨⟨payload, hpayload⟩, (hsends payload hpayload).mp hok⟩
  · rintro ⟨⟨payload, hpayload⟩, hport⟩
    exact ⟨payload, hpayload, (hsends payload hpayload).mpr hport⟩

theorem sendCommand_eq {s : Session} {addr : Address} (h : s.connectAddress = some addr)
    {commandType : ℕ} (hcmd : commandType < 65536) (channel : ℤ) :
    ∃ body, body.length = 20 ∧ sendCommand s commandType channel =
      (send s.socket addr RequestMessageType.DATA body >>= fun sent =>
        .ok ({ s with seqNumber := s.seqNumber + 1 }, sent)) := by
  have hseq : s.seqNumber.toNat < 65536 := s.seqNumber.toNat_lt
  have hheader : buildCommandHeader s.seqNumber.toNat commandType (P2PDataTypeHeader .DATA) =
      .ok (P2PDataTypeHeader .DATA ++ uint16BE s.seqNumber.toNat ++ MAGIC_WORD ++
        uint16LE commandType) := by
    rw [buildCommandHeader, Buf.writeUInt16BE, Buf.writeUInt16LE, if_pos hseq, if_pos hcmd]
    rfl
  refine ⟨P2PDataTypeHeader .DATA ++ uint16BE s.seqNumber.toNat ++ MAGIC_WORD ++
    uint16LE commandType ++ buildVoidCommandPayload channel, rfl, ?_⟩
  simp only [sendCommand, h, hheader, ok_bind]
  rfl

theorem onConnected_isOk {s : Session} (now : ℕ) (addr : Address) (h : s.connected = false) :
    (onConnected s now addr).isOk = true ↔
      (s.socket = true → (s.lastPongData.getD []).length < 65536 ∧ ValidPort addr.port) := by
  obtain ⟨body, hbody, hcommand⟩ := sendCommand_eq (s := markConnected s now addr) rfl
    (by decide : CMD_GATEWAYINFO < 65536) STATION_CHANNEL
  have hprompt := send_isOk s.socket addr RequestMessageType.DATA body
  have hping := send_isOk s.socket addr RequestMessageType.PING (s.lastPongData.getD [])
  have hsocket : (markConnected s now addr).socket = s.socket := rfl
  rw [onConnected, if_neg (by rw [h]; decide), hcommand, hsocket]
  cases hsend : send s.socket addr RequestMessageType.DATA body with
  | error e =>
    rw [hsend] at hprompt
    refine ⟨fun hok => (by cases hok), fun hports => ?_⟩
    have hok := hprompt.mpr fun hsocket => ⟨by omega, (hports hsocket).2⟩
    cases hok
  | ok sent =>
    simp only [ok_bind]
    rw [isOk_bind_of_forall (fun _ => rfl)]
    exact hping

theorem ackedSequences_isOk (msg : Buffer) (count i : ℕ) :
    (ackedSequences msg count i).isOk = true := by
  induction count generalizing i with
  | zero => rfl
  | succ count ih =>
    rw [ackedSequences]
    by_cases h : 10 + 2 * i ≤ msg.length
    · rw [if_pos h, Buf.readUInt16BEAt_ok (by omega), ok_bind,
        isOk_bind_of_forall (fun _ => rfl)]
      exact ih (i + 1)
    · rw [if_neg h]
      rfl

/-- The ACK handler guards every read by the datagram's length. -/
theorem onAck_isOk (s : Session) (msg : Buffer) : (onAck s msg).isOk = true := by
  rw [onAck]
  split
  · rfl
  · rename_i hlong
    have h8 : 8 ≤ msg.length := by
      by_contra hshort
      exact hlong (.inl (by omega))
    rw [Buf.readUInt16BEAt_ok (by omega), ok_bind]
    split
    · rw [isOk_bind_of_forall (fun _ => rfl)]
      exact ackedSequences_isOk msg _ 0
    · split
      · rw [isOk_bind_of_forall (fun _ => rfl)]
        exact ackedSequences_isOk msg _ 0
      · rfl

/-! ## Frames -/

/-- Every value a payload's `params` array reports converts to a string. -/
def ReportPrintable (payload : Option Json) : Prop :=
  ∀ list, paramsArray payload = some list →
    ∀ entry ∈ list, ∀ id value, reportEntry entry = some (id, value) → value.printable = true

theorem collectParams_isOk (rt : Runtime) (out : List (ℚ × String)) (list : List Json) :
    (collectParams rt out list).isOk = true ↔
      ∀ entry ∈ list, ∀ id value, reportEntry entry = some (id, value) →
        value.printable = true := by
  induction list generalizing out with
  | nil => simp [collectParams, Except.isOk, Except.toBool]
  | cons entry rest ih =>
    rw [collectParams, List.forall_mem_cons]
    cases hentry : reportEntry entry with
    | none =>
      simp only [ih, reduceCtorEq, false_implies, implies_true, true_and]
    | some r =>
      obtain ⟨id, value⟩ := r
      have hentries : (∀ id' value', some (id, value) = some (id', value') →
          value'.printable = true) ↔ value.printable = true := by
        constructor
        · intro h
          exact h id value rfl
        · intro h id' value' heq
          cases heq
          exact h
      simp only [isOk_bind, ih]
      rw [exists_and_right, ← isOk_iff, Json.display_isOk, hentries]

theorem paramReport_isOk (rt : Runtime) (payload : Option Json) :
    (paramReport rt payload).isOk = true ↔ ReportPrintable payload := by
  rw [paramReport, ReportPrintable]
  cases hlist : paramsArray payload with
  | none => simp [Except.isOk, Except.toBool]
  | some list =>
    simp only [Option.some.injEq, forall_eq']
    rw [isOk_bind_of_forall (fun _ => rfl)]
    exact collectParams_isOk rt [] list

theorem commandResult_isOk (header : P2PDataFrameHeader) (data : Buffer) (json : Option Json) :
    (commandResult header data json).isOk = true := by
  rw [commandResult]
  split
  · rename_i h
    rw [Buf.readInt32LE, Buf.readUIntLE_ok h.2.2.ge]
    rfl
  · rfl

/-- Negotiating moves nothing but the negotiation flag. -/
theorem negotiate_ok (s : Session) (header : P2PDataFrameHeader) (data : Buffer) :
    ∃ flag out, negotiate s header data = .ok ({ s with level2Negotiating := flag }, out) := by
  rw [negotiate]
  split
  · obtain ⟨cipherId, hcipher⟩ := gatewayInfoCipherId_ok data
    rw [hcipher]
    exact ⟨true, _, rfl⟩
  · exact ⟨s.level2Negotiating, [], rfl⟩

/-- The param report of a frame, if its data is one, converts to strings. -/
def FramePrintable (rt : Runtime) (s : Session) (header : P2PDataFrameHeader)
    (payload : Buffer) : Prop :=
  ReportPrintable (reportedPayload header
    (frameJson rt (frameData rt s.level1Key s.level2Key header payload)))

theorem handleFrame_ok (rt : Runtime) (s : Session) (header : P2PDataFrameHeader)
    (payload : Buffer) (dataType : UInt8) :
    ((handleFrame rt s header payload dataType).isOk = true ↔
        FramePrintable rt s header payload) ∧
      ∀ s' out, handleFrame rt s header payload dataType = .ok (s', out) →
        ∃ flag, s' = { s with level2Negotiating := flag } := by
  obtain ⟨flag, out, hneg⟩ :=
    negotiate_ok s header (frameData rt s.level1Key s.level2Key header payload)
  have hresult := commandResult_isOk header
    (frameData rt s.level1Key s.level2Key header payload)
    (frameJson rt (frameData rt s.level1Key s.level2Key header payload))
  obtain ⟨result, hresult⟩ := isOk_iff.mp hresult
  simp only [handleFrame, hneg, hresult, ok_bind]
  constructor
  · rw [isOk_bind_of_forall (fun _ => rfl)]
    exact paramReport_isOk rt _
  · intro s' out' h
    cases hreport : paramReport rt (reportedPayload header
        (frameJson rt (frameData rt s.level1Key s.level2Key header payload))) with
    | error e =>
      rw [hreport] at h
      cases h
    | ok params =>
      rw [hreport] at h
      exact ⟨flag, (congrArg Prod.fst (Except.ok.inj h)).symm⟩

/-- One call of `onData` returns: the ACK can be sent, the frame's report converts. -/
def CallReturns (rt : Runtime) (s : Session) (addr : Address) : InboundEvent → Prop
  | .ack payload => (send s.socket addr RequestMessageType.ACK payload).isOk = true
  | .trace _ _ => True
  | .handleFrame header payload _ => FramePrintable rt s header payload

theorem perform_isOk (rt : Runtime) (s : Session) (addr : Address) (calls : List InboundEvent) :
    (perform rt s addr calls).isOk = true ↔ ∀ call ∈ calls, CallReturns rt s addr call := by
  induction calls generalizing s with
  | nil => simp [perform, Except.isOk, Except.toBool]
  | cons call rest ih =>
    rw [List.forall_mem_cons, ← ih]
    cases call with
    | ack payload =>
      rw [perform, isOk_bind, CallReturns, isOk_iff]
      constructor
      · rintro ⟨sent, hsent, hrest⟩
        rw [isOk_bind_of_forall (fun _ => rfl)] at hrest
        exact ⟨⟨sent, hsent⟩, hrest⟩
      · rintro ⟨⟨sent, hsent⟩, hrest⟩
        refine ⟨sent, hsent, ?_⟩
        rw [isOk_bind_of_forall (fun _ => rfl)]
        exact hrest
    | trace phase dataType =>
      rw [perform, isOk_bind_of_forall (fun _ => rfl), CallReturns, true_and]
    | handleFrame header payload dataType =>
      obtain ⟨hok, hkeeps⟩ := handleFrame_ok rt s header payload dataType
      rw [perform, isOk_bind, CallReturns, ← hok, isOk_iff]
      -- handling a frame moves only the negotiation flag, which no later call depends on
      have hrest : ∀ s' out, handleFrame rt s header payload dataType = .ok (s', out) →
          ((perform rt s' addr rest).isOk = true ↔ (perform rt s addr rest).isOk = true) := by
        intro s' out h
        obtain ⟨flag, rfl⟩ := hkeeps s' out h
        rw [ih, ih]
        rfl
      constructor
      · rintro ⟨⟨s', out⟩, hframe, h⟩
        rw [isOk_bind_of_forall (fun _ => rfl)] at h
        exact ⟨⟨_, hframe⟩, (hrest s' out hframe).mp h⟩
      · rintro ⟨⟨⟨s', out⟩, hframe⟩, h⟩
        refine ⟨_, hframe, ?_⟩
        rw [isOk_bind_of_forall (fun _ => rfl)]
        exact (hrest s' out hframe).mpr h

/-! ## DATA datagrams -/

/-- The frames a DATA datagram completes on its own channel. -/
def completedFrames (s : Session) (msg : Buffer) : List (P2PDataFrameHeader × Buffer) :=
  ((s.inbound.channel ((msg[5]?).getD 0)).receive (Bytes.readUIntBE (Buf.subarray msg 6 8))
    (msg.drop 8)).2

theorem isDatagram_of_length {msg : Buffer} (h : 8 ≤ msg.length) :
    IsDatagram msg ((msg[5]?).getD 0) (Bytes.readUIntBE (Buf.subarray msg 6 8))
      (msg.drop 8) := by
  match msg, h with
  | a :: b :: c :: d :: e :: t :: x :: y :: rest, _ =>
    refine ⟨⟨a, b, c, d, e, ?_⟩, ?_⟩
    · change _ = [a, b, c, d, e, t] ++ uint16BE (Bytes.readUIntBE [x, y]) ++ rest
      rw [uint16BE_readUIntBE]
      rfl
    · exact lt_of_lt_of_eq (readUIntBE_lt [x, y]) (by norm_num)

theorem length_ackTypeHeader (t : UInt8) : (ackTypeHeader t).length = 2 := by
  rw [ackTypeHeader]
  split_ifs <;> rfl

theorem mem_acks {calls : List InboundEvent} {payload : Buffer} :
    payload ∈ acks calls ↔ .ack payload ∈ calls := by
  rw [acks, List.mem_filterMap]
  constructor
  · rintro ⟨call, hcall, h⟩
    cases call with
    | ack payload' => cases h; exact hcall
    | trace | handleFrame => cases h
  · intro h
    exact ⟨_, h, rfl⟩

theorem mem_handled {calls : List InboundEvent} {header : P2PDataFrameHeader}
    {payload : Buffer} {t : UInt8} :
    (header, payload) ∈ handled t calls ↔ .handleFrame header payload t ∈ calls := by
  rw [handled, List.mem_filterMap]
  constructor
  · rintro ⟨call, hcall, h⟩
    cases call with
    | ack | trace => cases h
    | handleFrame header' payload' dataType =>
      dsimp only at h
      split at h
      · rename_i htype
        subst htype
        cases h
        exact hcall
      · cases h
  · intro h
    exact ⟨_, h, if_pos rfl⟩

/-- A DATA datagram of a connected session is handled exactly when it reaches past its
sequence number, its ACK can be sent and every frame it completes converts. -/
theorem onData_isOk (rt : Runtime) (s : Session) (msg : Buffer) (rinfo : Address) :
    (onData s.inbound msg >>= fun r => perform rt { s with inbound := r.1 } rinfo r.2).isOk =
        true ↔
      8 ≤ msg.length ∧ (s.socket = true → ValidPort rinfo.port) ∧
        ∀ f ∈ completedFrames s msg, FramePrintable rt s f.1 f.2 := by
  by_cases hlen : 8 ≤ msg.length
  · obtain ⟨inbound, calls, honData, hrec⟩ := onData_receives s.inbound (isDatagram_of_length hlen)
    rw [honData, ok_bind, perform_isOk]
    simp only [hlen, true_and]
    constructor
    · intro hall
      constructor
      · intro hsocket
        have hmem := mem_acks.mp (hrec.acked ▸ List.mem_singleton_self _)
        exact ((send_isOk _ _ _ _).mp (hall _ hmem) hsocket).2
      · rintro ⟨header, payload⟩ hf
        rw [completedFrames, ← hrec.handled_self] at hf
        exact hall _ (mem_handled.mp hf)
    · rintro ⟨hport, hframes⟩ call hcall
      cases call with
      | ack payload =>
        have hmem := mem_acks.mpr hcall
        rw [hrec.acked, List.mem_singleton] at hmem
        refine (send_isOk _ _ _ _).mpr fun hsocket => ⟨?_, hport hsocket⟩
        rw [hmem, List.length_append, List.length_append, length_ackTypeHeader]
        exact (by decide : 2 + 2 + 2 < 65536)
      | trace phase dataType => exact trivial
      | handleFrame header payload dataType =>
        have hmem := mem_handled.mpr hcall
        by_cases htype : dataType = (msg[5]?).getD 0
        · rw [htype, hrec.handled_self] at hmem
          exact hframes _ hmem
        · rw [hrec.handled_other _ htype] at hmem
          cases hmem
  · have hread : Buf.readUInt16BE (Buf.subarray msg 6 8) = .error .rangeError :=
      Buf.readUInt16BE_error (by rw [Buf.length_subarray]; omega)
    rw [onData, hread]
    refine ⟨fun h => (by cases h), fun h => absurd h.1 hlen⟩

/-! ## The callback -/

/-- The inbound datagrams on which the message callback throws. -/
inductive Crashes (rt : Runtime) (s : Session) (msg : Buffer) (rinfo : Address) : Prop
  /-- A local lookup is answered from a port that cannot be hole-punched. -/
  | localLookup (hkind : messageKind msg = .localLookupResp) (hconn : s.connected = false)
      (hsend : ¬CheckCamSends s rinfo.port)
  /-- A lookup response ends before its port. -/
  | shortLookup (hkind : messageKind msg = .lookupAddr) (hconn : s.connected = false)
      (hshort : msg.length < 8)
  /-- A lookup response names a port that cannot be hole-punched. -/
  | lookupPort (hkind : messageKind msg = .lookupAddr) (hconn : s.connected = false)
      (addr : Address) (haddr : parseLookupAddr msg = .ok addr) (hhost : addr.host ≠ "0.0.0.0")
      (hsend : ¬CheckCamSends s addr.port)
  /-- The handshake is answered from port zero, or the pong to echo is oversized. -/
  | handshake (hkind : messageKind msg = .camId) (hconn : s.connected = false)
      (hsocket : s.socket = true)
      (hsend : 65535 < (s.lastPongData.getD []).length ∨ ¬ValidPort rinfo.port)
  | ping (hkind : messageKind msg = .ping) (hsocket : s.socket = true)
      (hsend : ¬ValidPort rinfo.port)
  /-- A DATA datagram ends before its sequence number. -/
  | shortData (hkind : messageKind msg = .data) (hconn : s.connected = true)
      (hshort : msg.length < 8)
  /-- A DATA datagram comes from a port the ACK cannot go to. -/
  | dataPort (hkind : messageKind msg = .data) (hconn : s.connected = true)
      (hsocket : s.socket = true) (hsend : ¬ValidPort rinfo.port)
  /-- A DATA datagram completes a param report with a value that does not convert. -/
  | dataReport (hkind : messageKind msg = .data) (hconn : s.connected = true)
      (f : P2PDataFrameHeader × Buffer) (hf : f ∈ completedFrames s msg)
      (hreport : ¬FramePrintable rt s f.1 f.2)

namespace Crashes

variable {rt : Runtime} {s : Session} {msg : Buffer} {rinfo : Address}

theorem localLookup_iff (h : messageKind msg = .localLookupResp) :
    Crashes rt s msg rinfo ↔ s.connected = false ∧ ¬CheckCamSends s rinfo.port := by
  constructor
  · intro hc
    cases hc with
    | localLookup _ hconn hsend => exact ⟨hconn, hsend⟩
    | _ hkind => rw [h] at hkind; cases hkind
  · rintro ⟨hconn, hsend⟩
    exact .localLookup h hconn hsend

theorem lookup_iff (h : messageKind msg = .lookupAddr) :
    Crashes rt s msg rinfo ↔ s.connected = false ∧ (msg.length < 8 ∨
      ∃ addr, parseLookupAddr msg = .ok addr ∧ addr.host ≠ "0.0.0.0" ∧
        ¬CheckCamSends s addr.port) := by
  constructor
  · intro hc
    cases hc with
    | shortLookup _ hconn hshort => exact ⟨hconn, .inl hshort⟩
    | lookupPort _ hconn addr haddr hhost hsend => exact ⟨hconn, .inr ⟨addr, haddr, hhost, hsend⟩⟩
    | _ hkind => rw [h] at hkind; cases hkind
  · rintro ⟨hconn, hshort | ⟨addr, haddr, hhost, hsend⟩⟩
    · exact .shortLookup h hconn hshort
    · exact .lookupPort h hconn addr haddr hhost hsend

theorem handshake_iff (h : messageKind msg = .camId) :
    Crashes rt s msg rinfo ↔ s.connected = false ∧ s.socket = true ∧
      (65535 < (s.lastPongData.getD []).length ∨ ¬ValidPort rinfo.port) := by
  constructor
  · intro hc
    cases hc with
    | handshake _ hconn hsocket hsend => exact ⟨hconn, hsocket, hsend⟩
    | _ hkind => rw [h] at hkind; cases hkind
  · rintro ⟨hconn, hsocket, hsend⟩
    exact .handshake h hconn hsocket hsend

theorem ping_iff (h : messageKind msg = .ping) :
    Crashes rt s msg rinfo ↔ s.socket = true ∧ ¬ValidPort rinfo.port := by
  constructor
  · intro hc
    cases hc with
    | ping _ hsocket hsend => exact ⟨hsocket, hsend⟩
    | _ hkind => rw [h] at hkind; cases hkind
  · rintro ⟨hsocket, hsend⟩
    exact .ping h hsocket hsend

theorem data_iff (h : messageKind msg = .data) :
    Crashes rt s msg rinfo ↔ s.connected = true ∧ (msg.length < 8 ∨
      (s.socket = true ∧ ¬ValidPort rinfo.port) ∨
        ∃ f ∈ completedFrames s msg, ¬FramePrintable rt s f.1 f.2) := by
  constructor
  · intro hc
    cases hc with
    | shortData _ hconn hshort => exact ⟨hconn, .inl hshort⟩
    | dataPort _ hconn hsocket hsend => exact ⟨hconn, .inr (.inl ⟨hsocket, hsend⟩)⟩
    | dataReport _ hconn f hf hreport => exact ⟨hconn, .inr (.inr ⟨f, hf, hreport⟩)⟩
    | _ hkind => rw [h] at hkind; cases hkind
  · rintro ⟨hconn, hshort | ⟨hsocket, hsend⟩ | ⟨f, hf, hreport⟩⟩
    · exact .shortData h hconn hshort
    · exact .dataPort h hconn hsocket hsend
    · exact .dataReport h hconn f hf hreport

/-- An ACK, a PONG and what the callback does not know never make it throw. -/
theorem kind_answers (h : Crashes rt s msg rinfo) :
    messageKind msg ≠ .ack ∧ messageKind msg ≠ .pong ∧ messageKind msg ≠ .unhandled := by
  cases h <;> simp_all

end Crashes

/-- A session that has opened its socket and not connected yet. -/
def lookingUp : Session where
  cfg := { stationSn := "T8010", p2pDid := "EUPRCAM-000001-ABCDE", resolveCipherKey := false }
  socket := true
  connected := false
  connecting := true
  connectedAtMs := none
  connectAddress := none
  seqNumber := 0
  lastPongData := none
  lastPongAt := none
  pathStaleTraced := false
  lookupTimer := true
  connectTimer := true
  heartbeatTimer := false
  inbound := resetInboundSequencing
  level1Key := []
  level2Key := none
  level2Negotiating := false
  unackedLiveStarts := []
  liveStartRetransmitTimer := false
  unackedAudio := []
  audioStalled := false

end EufySdk.P2PSession
