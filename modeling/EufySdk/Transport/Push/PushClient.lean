import Mathlib.Tactic
import EufySdk.Lib.Lists
import EufySdk.Lib.Machine

/-!
# The push connection

`PushClient` of `transport/push/push-client.ts`: a connection that is opened once and is opened
again whenever it closes, until the client is closed. The listeners of what the client emits run
inside of it, and any of them may close the client.

- `connect`, `close` — what the owner calls
- `onMessage`, `onClose`, `scheduleReconnect` — what a connection brings about
- `step` — the client, its connections, its timers and its owner, interleaved
- `Disciplined` — there is one connection or one retry pending, until the client is closed
- `Remembers` — what each login lists
- `Paced` — how long the retries in a row wait, and which rejected logins are reported
-/

namespace EufySdk

open Machine

/-- A socket: it closes once, and sends nothing more when it has been destroyed. -/
inductive SocketPhase
  | opened
  | destroyed
  | closed
  deriving DecidableEq, Repr

/-- A message of the server, as far as the client looks at it. -/
inductive McsEvent
  | loginResponse (error : Bool)
  | dataMessage (persistentId : Option String)
  | heartbeatPing
  | heartbeatAck
  | close
  deriving DecidableEq, Repr

/-- The ids that a login has sent, with those of the messages that had come by then. -/
structure SentLogin where
  receivedPersistentId : List String
  received : List String
  deriving DecidableEq, Repr

/-- A client and what surrounds it: its sockets, of which the fields hold the current one, and the
time. A timer holds the time before which it does not fire. `received`, `logins`, `delays`,
`rejections` and `openedAtClose` are kept for the results about runs: the ids that have come, the
logins, the waits and the rejected logins since the last login that was accepted, and how many
sockets there were when the client was closed. -/
structure PushClient where
  socket : Option ℕ := none
  heartbeatTimer : Bool := false
  reconnectTimer : Option ℕ := none
  currentDelay : ℕ := 0
  persistentIds : List String := []
  loggedIn : Bool := false
  closing : Bool := false
  loginFailures : ℕ := 0
  sockets : List SocketPhase := []
  now : ℕ := 0
  received : List String := []
  logins : List SentLogin := []
  delays : List ℕ := []
  rejections : List Bool := []
  openedAtClose : Option ℕ := none

namespace PushClient

def MAX_LOGIN_FAILURES : ℕ := 3

/-- `socket.destroy()`. -/
def destroyed : SocketPhase → SocketPhase
  | .opened => .destroyed
  | phase => phase

def destroy (s : PushClient) : PushClient :=
  { s with sockets := s.socket.elim s.sockets (s.sockets.modify · destroyed) }

def connect (s : PushClient) : PushClient :=
  { s with
    closing := false
    loggedIn := false
    socket := some s.sockets.length
    sockets := s.sockets ++ [.opened] }

def close (s : PushClient) : PushClient :=
  { s.destroy with
    closing := true
    heartbeatTimer := false
    reconnectTimer := none
    socket := none
    openedAtClose := s.openedAtClose.or (some s.sockets.length) }

/-- The listeners of an event run, and may close the client. -/
def emit (s : PushClient) (closes : Bool) : PushClient := if closes then s.close else s

def onLoginError (s : PushClient) (closes : Bool) : PushClient :=
  let s := { s with loginFailures := s.loginFailures + 1 }
  let surfaced := decide (MAX_LOGIN_FAILURES ≤ s.loginFailures)
  let s := { s with rejections := s.rejections ++ [surfaced] }
  (if surfaced then s.emit closes else s).destroy

def onMessage (s : PushClient) (closes : Bool) : McsEvent → PushClient
  | .loginResponse true => s.onLoginError closes
  | .loginResponse false =>
    { s with
      loggedIn := true
      currentDelay := 0
      loginFailures := 0
      heartbeatTimer := true
      delays := []
      rejections := [] : PushClient }.emit closes
  | .dataMessage id =>
    { s with
      persistentIds := s.persistentIds ++ id.toList
      received := s.received ++ id.toList : PushClient }.emit closes
  | .heartbeatPing => s
  | .heartbeatAck => s
  | .close => s.destroy

def scheduleReconnect (s : PushClient) : PushClient :=
  let delay := if s.currentDelay = 0 then 5000 else s.currentDelay
  let s :=
    { s with
      currentDelay :=
        if s.currentDelay < 60000 then s.currentDelay + 10000
        else if s.currentDelay < 600000 then s.currentDelay + 60000
        else s.currentDelay }
  if s.reconnectTimer.isSome then s
  else { s with reconnectTimer := some (s.now + delay), delays := s.delays ++ [delay] }

/-- A socket has closed. -/
def onClose (s : PushClient) (closes : Bool) : PushClient :=
  let s := { s with heartbeatTimer := false, loggedIn := false : PushClient }.emit closes
  if s.closing then s else s.scheduleReconnect

/-- The reconnect timer fires. -/
def reconnect (s : PushClient) : PushClient :=
  let s := { s with reconnectTimer := none }
  if s.closing then s else s.connect

inductive Event
  /-- The owner opens the connection. -/
  | connect
  /-- The handshake of a socket is done, and the login is sent. -/
  | secureConnect (i : ℕ)
  | message (i : ℕ) (m : McsEvent) (closes : Bool)
  | error (i : ℕ) (closes : Bool)
  | closed (i : ℕ) (closes : Bool)
  | reconnect
  | close
  | elapse (ms : ℕ)

/-- An event, where it can happen. The owner opens the connection once, and not behind a close; what
is left of a chunk is read to its end also when the socket has been destroyed. -/
def step (s : PushClient) : Event → Option PushClient
  | .connect => if s.sockets = [] ∧ s.openedAtClose = none then some s.connect else none
  | .secureConnect i =>
    if s.sockets[i]? = some .opened then
      some
        { s with
          logins :=
            s.logins ++ [{ receivedPersistentId := s.persistentIds, received := s.received }] }
    else none
  | .message i m closes =>
    if ∃ phase ∈ s.sockets[i]?, phase ≠ .closed then some (s.onMessage closes m) else none
  | .error i closes =>
    if ∃ phase ∈ s.sockets[i]?, phase ≠ .closed then some (s.emit closes) else none
  | .closed i closes =>
    if ∃ phase ∈ s.sockets[i]?, phase ≠ .closed then
      some ({ s with sockets := s.sockets.set i .closed : PushClient }.onClose closes)
    else none
  | .reconnect => if ∃ due ∈ s.reconnectTimer, due ≤ s.now then some s.reconnect else none
  | .close => some s.close
  | .elapse ms => some { s with now := s.now + ms }

/-- What a step makes of a client. -/
inductive Transition (s : PushClient) : PushClient → Prop
  | connect (hfresh : s.sockets = []) (hclosed : s.openedAtClose = none) : Transition s s.connect
  | login (i : ℕ) (hi : s.sockets[i]? = some .opened) :
      Transition s
        { s with
          logins :=
            s.logins ++ [{ receivedPersistentId := s.persistentIds, received := s.received }] }
  | message (closes : Bool) (m : McsEvent) : Transition s (s.onMessage closes m)
  | emit (closes : Bool) : Transition s (s.emit closes)
  | closed (i : ℕ) (phase : SocketPhase) (hi : s.sockets[i]? = some phase)
      (hphase : phase ≠ .closed) (closes : Bool) :
      Transition s ({ s with sockets := s.sockets.set i .closed : PushClient }.onClose closes)
  | reconnect (due : ℕ) (hdue : s.reconnectTimer = some due) : Transition s s.reconnect
  | close : Transition s s.close
  | elapse (ms : ℕ) : Transition s { s with now := s.now + ms }

theorem transition_of_step {s t : PushClient} {e : Event} (h : s.step e = some t) :
    s.Transition t := by
  cases e with
  | connect =>
    obtain ⟨⟨hfresh, hclosed⟩, ht⟩ := Option.ite_none_right_eq_some.mp h
    obtain rfl := Option.some.inj ht
    exact .connect hfresh hclosed
  | secureConnect i =>
    obtain ⟨hi, ht⟩ := Option.ite_none_right_eq_some.mp h
    obtain rfl := Option.some.inj ht
    exact .login i hi
  | message i m closes =>
    obtain ⟨-, ht⟩ := Option.ite_none_right_eq_some.mp h
    obtain rfl := Option.some.inj ht
    exact .message closes m
  | error i closes =>
    obtain ⟨-, ht⟩ := Option.ite_none_right_eq_some.mp h
    obtain rfl := Option.some.inj ht
    exact .emit closes
  | closed i closes =>
    obtain ⟨⟨phase, hi, hphase⟩, ht⟩ := Option.ite_none_right_eq_some.mp h
    obtain rfl := Option.some.inj ht
    exact .closed i phase hi hphase closes
  | reconnect =>
    obtain ⟨⟨due, hdue, -⟩, ht⟩ := Option.ite_none_right_eq_some.mp h
    obtain rfl := Option.some.inj ht
    exact .reconnect due hdue
  | close =>
    obtain rfl := Option.some.inj h
    exact .close
  | elapse ms =>
    obtain rfl := Option.some.inj h
    exact .elapse ms

/-! ## One connection or one retry -/

/-- The sockets that have not closed. -/
def live (s : PushClient) : ℕ := s.sockets.countP (· ≠ .closed)

/-- The retries that are pending. -/
def pending (s : PushClient) : ℕ := s.reconnectTimer.toList.length

/-- How many sockets there have been. -/
def opened (s : PushClient) : ℕ := s.sockets.length

/-- A client has one connection or one retry pending from when it is opened to when it is closed, and
opens nothing from then on. -/
structure Disciplined (s : PushClient) : Prop where
  once : s.live + s.pending ≤ 1
  alive : 0 < s.opened → s.closing = false → s.live + s.pending = 1
  unopened : s.opened = 0 → s.pending = 0
  stopped : s.closing = true → s.pending = 0
  current : ∀ i ∈ s.socket, i + 1 = s.opened
  closedAt : s.openedAtClose = if s.closing then some s.opened else none

/-- Each login lists the ids of all messages that came before it. -/
structure Remembers (ids : List String) (s : PushClient) : Prop where
  persistentIds_eq : s.persistentIds = ids ++ s.received
  logins : ∀ l ∈ s.logins, l.receivedPersistentId = ids ++ l.received ∧ l.received <+: s.received

section

variable {ids : List String} {s t : PushClient}

/-- How long a client waits before the retry that is scheduled next. -/
def nextDelay (s : PushClient) : ℕ := if s.currentDelay = 0 then 5000 else s.currentDelay

/-- What the delay is raised to when a retry is scheduled. -/
def raisedDelay (currentDelay : ℕ) : ℕ :=
  if currentDelay < 60000 then currentDelay + 10000
  else if currentDelay < 600000 then currentDelay + 60000
  else currentDelay

theorem scheduleReconnect_eq (htimer : s.reconnectTimer = none) :
    s.scheduleReconnect =
      { s with
        currentDelay := raisedDelay s.currentDelay
        reconnectTimer := some (s.now + s.nextDelay)
        delays := s.delays ++ [s.nextDelay] } := by
  rw [scheduleReconnect]
  simp only [htimer, Option.isSome_none, Bool.false_eq_true, if_false]
  rfl

theorem scheduleReconnect_of_pending (htimer : s.reconnectTimer.isSome = true) :
    s.scheduleReconnect = { s with currentDelay := raisedDelay s.currentDelay } := by
  rw [scheduleReconnect]
  simp only [htimer, if_true]
  rfl

theorem live_modify_destroyed (sockets : List SocketPhase) (i : ℕ) :
    (sockets.modify i destroyed).countP (· ≠ .closed) = sockets.countP (· ≠ .closed) := by
  induction sockets generalizing i with
  | nil => simp
  | cons phase sockets ih =>
    cases i with
    | zero => cases phase <;> simp [destroyed]
    | succ i => rw [List.modify_succ_cons, List.countP_cons, List.countP_cons, ih]

@[simp] theorem live_destroy (s : PushClient) : s.destroy.live = s.live := by
  rw [live, destroy]
  cases s.socket with
  | none => rfl
  | some i => exact live_modify_destroyed s.sockets i

@[simp] theorem opened_destroy (s : PushClient) : s.destroy.opened = s.opened := by
  rw [opened, destroy]
  cases s.socket with
  | none => rfl
  | some i => exact List.length_modify _ _ _

/-- The discipline is about these fields alone. -/
theorem Disciplined.congr (h : s.Disciplined) (hlive : t.live = s.live)
    (hpending : t.pending = s.pending) (hopened : t.opened = s.opened)
    (hclosing : t.closing = s.closing) (hsocket : t.socket = s.socket)
    (hclosed : t.openedAtClose = s.openedAtClose) : t.Disciplined where
  once := by
    rw [hlive, hpending]
    exact h.once
  alive := by
    rw [hlive, hpending, hopened, hclosing]
    exact h.alive
  unopened := by
    rw [hpending, hopened]
    exact h.unopened
  stopped := by
    rw [hpending, hclosing]
    exact h.stopped
  current := by
    rw [hsocket, hopened]
    exact h.current
  closedAt := by
    rw [hclosed, hclosing, hopened]
    exact h.closedAt

theorem Disciplined.destroy (h : s.Disciplined) : s.destroy.Disciplined :=
  h.congr s.live_destroy rfl s.opened_destroy rfl rfl rfl

/-- A client is closed, also where its connection has just been. -/
theorem disciplined_close (hlive : s.live ≤ 1)
    (hclosed : s.openedAtClose = if s.closing then some s.opened else none) :
    s.close.Disciplined where
  once := by
    have hsame : s.close.live = s.live := s.live_destroy
    rw [hsame]
    exact hlive
  alive _ hclosing := by cases hclosing
  unopened _ := rfl
  stopped _ := rfl
  current i hi := absurd hi (Option.not_mem_none _)
  closedAt := by
    have hopened : s.close.opened = s.opened := s.opened_destroy
    rw [hopened]
    change s.openedAtClose.or (some s.opened) = some s.opened
    rw [hclosed]
    split <;> rfl

theorem Disciplined.close (h : s.Disciplined) : s.close.Disciplined :=
  disciplined_close ((Nat.le_add_right _ _).trans h.once) h.closedAt

theorem Disciplined.emit (h : s.Disciplined) (closes : Bool) : (s.emit closes).Disciplined := by
  cases closes with
  | false => exact h
  | true => exact h.close

theorem Disciplined.onLoginError (h : s.Disciplined) (closes : Bool) :
    (s.onLoginError closes).Disciplined := by
  refine Disciplined.destroy ?_
  split
  · refine Disciplined.emit ?_ closes
    exact h.congr rfl rfl rfl rfl rfl rfl
  · exact h.congr rfl rfl rfl rfl rfl rfl

theorem Disciplined.onMessage (h : s.Disciplined) (closes : Bool) (m : McsEvent) :
    (s.onMessage closes m).Disciplined := by
  cases m with
  | loginResponse error =>
    cases error with
    | true => exact h.onLoginError closes
    | false =>
      refine Disciplined.emit ?_ closes
      exact h.congr rfl rfl rfl rfl rfl rfl
  | dataMessage id =>
    refine Disciplined.emit ?_ closes
    exact h.congr rfl rfl rfl rfl rfl rfl
  | heartbeatPing => exact h
  | heartbeatAck => exact h
  | close => exact h.destroy

/-- A connection is opened where there is none and no retry is pending. -/
theorem disciplined_connect (hidle : s.live + s.pending = 0) (hclosed : s.openedAtClose = none) :
    s.connect.Disciplined := by
  have hlive : s.connect.live = s.live + 1 := by
    rw [live, PushClient.connect, List.countP_append]
    rfl
  have hpending : s.connect.pending = s.pending := rfl
  have hopened : s.connect.opened = s.opened + 1 := List.length_append
  refine ⟨by omega, fun _ _ => by omega, fun hnone => by omega, fun hclosing => ?_, ?_, hclosed⟩
  · cases hclosing
  · intro i hi
    rw [hopened, ← Option.some.inj hi]
    rfl

theorem reconnectTimer_eq_none (hnone : s.pending = 0) : s.reconnectTimer = none := by
  cases htimer : s.reconnectTimer with
  | none => rfl
  | some due =>
    rw [pending, htimer] at hnone
    cases hnone

/-- A client whose last connection has closed is at rest until a retry is scheduled. -/
theorem disciplined_scheduleReconnect (hlive : s.live = 0) (hnone : s.pending = 0)
    (hopened : 0 < s.opened) (hrunning : s.closing = false)
    (hcurrent : ∀ i ∈ s.socket, i + 1 = s.opened) (hclosed : s.openedAtClose = none) :
    s.scheduleReconnect.Disciplined := by
  rw [scheduleReconnect_eq (reconnectTimer_eq_none hnone)]
  refine ⟨?_, fun _ _ => ?_, fun h => ?_, fun h => ?_, hcurrent, ?_⟩
  · change s.live + 1 ≤ 1
    omega
  · change s.live + 1 = 1
    omega
  · change s.opened = 0 at h
    omega
  · change s.closing = true at h
    rw [hrunning] at h
    cases h
  · change s.openedAtClose = if s.closing then some s.opened else none
    rw [hrunning]
    exact hclosed

/-- A socket has closed, and the fields that go with a login are down. -/
def hungUp (s : PushClient) (i : ℕ) : PushClient :=
  { s with sockets := s.sockets.set i .closed, heartbeatTimer := false, loggedIn := false }

theorem onClose_closes (i : ℕ) :
    ({ s with sockets := s.sockets.set i .closed : PushClient }.onClose true) =
      (s.hungUp i).close := rfl

theorem onClose_stays (i : ℕ) :
    ({ s with sockets := s.sockets.set i .closed : PushClient }.onClose false) =
      if s.closing then s.hungUp i else (s.hungUp i).scheduleReconnect := rfl

theorem opened_hungUp (i : ℕ) : (s.hungUp i).opened = s.opened := List.length_set

theorem live_hungUp {i : ℕ} {phase : SocketPhase} (hi : s.sockets[i]? = some phase)
    (hphase : phase ≠ .closed) : (s.hungUp i).live + 1 = s.live := by
  have hcount := Lists.countP_set_known (b := SocketPhase.closed) (fun p => decide (p ≠ .closed)) hi
  simpa [hphase, live, hungUp] using hcount

/-- The retry takes the place of the connection that has closed. -/
theorem Disciplined.onClose (h : s.Disciplined) {i : ℕ} {phase : SocketPhase}
    (hi : s.sockets[i]? = some phase) (hphase : phase ≠ .closed) (closes : Bool) :
    ({ s with sockets := s.sockets.set i .closed : PushClient }.onClose closes).Disciplined := by
  have hlive := live_hungUp hi hphase
  have hopened := s.opened_hungUp i
  have honce := h.once
  have hnone : s.pending = 0 := by omega
  have hpos : 0 < s.opened := Nat.zero_lt_of_lt (List.getElem?_eq_some_iff.mp hi).1
  have hclosed : (s.hungUp i).openedAtClose =
      if (s.hungUp i).closing then some (s.hungUp i).opened else none := by
    rw [hopened]
    exact h.closedAt
  cases closes with
  | true =>
    rw [onClose_closes]
    exact disciplined_close (by omega) hclosed
  | false =>
    rw [onClose_stays]
    cases hclosing : s.closing with
    | true =>
      rw [if_pos rfl]
      refine ⟨?_, fun _ hrunning => ?_, fun _ => hnone, fun _ => hnone, ?_, hclosed⟩
      · change (s.hungUp i).live + s.pending ≤ 1
        omega
      · cases hclosing.symm.trans hrunning
      · rw [hopened]
        exact h.current
    | false =>
      rw [if_neg Bool.false_ne_true]
      refine disciplined_scheduleReconnect (by omega) hnone (by omega) hclosing ?_ ?_
      · rw [hopened]
        exact h.current
      · exact h.closedAt.trans (if_neg (hclosing ▸ Bool.false_ne_true))

/-- The retry that is due opens the next connection. -/
theorem Disciplined.reconnect (h : s.Disciplined) (hdue : s.reconnectTimer.isSome = true) :
    s.reconnect.Disciplined := by
  obtain ⟨due, hdue⟩ := Option.isSome_iff_exists.mp hdue
  have hpending : s.pending = 1 := by rw [pending, hdue]; rfl
  have honce := h.once
  have hrunning : s.closing = false := by
    cases hclosing : s.closing with
    | false => rfl
    | true =>
      have := h.stopped hclosing
      omega
  have hfired : s.reconnect = { s with reconnectTimer := none : PushClient }.connect := by
    rw [PushClient.reconnect]
    exact if_neg (by rw [hrunning]; exact Bool.false_ne_true)
  rw [hfired]
  refine disciplined_connect ?_ (h.closedAt.trans (if_neg (hrunning ▸ Bool.false_ne_true)))
  change s.live + 0 = 0
  omega

theorem Disciplined.transition (h : s.Disciplined) (ht : s.Transition t) : t.Disciplined := by
  cases ht with
  | connect hfresh hclosed =>
    have hlive : s.live = 0 := by rw [live, hfresh]; rfl
    have hnone := h.unopened (by rw [opened, hfresh]; rfl)
    exact disciplined_connect (by omega) hclosed
  | login i hi => exact h.congr rfl rfl rfl rfl rfl rfl
  | message closes m => exact h.onMessage closes m
  | emit closes => exact h.emit closes
  | closed i phase hi hphase closes => exact h.onClose hi hphase closes
  | reconnect due hdue => exact h.reconnect (Option.isSome_iff_exists.mpr ⟨due, hdue⟩)
  | close => exact h.close
  | elapse ms => exact h.congr rfl rfl rfl rfl rfl rfl

theorem disciplined_fresh (ids : List String) :
    { persistentIds := ids : PushClient }.Disciplined :=
  ⟨Nat.zero_le 1, fun h => absurd h (Nat.lt_irrefl 0), fun _ => rfl, fun _ => rfl,
    fun _ h => absurd h (Option.not_mem_none _), rfl⟩

/-! ## The ids of messages -/

theorem remembers_fresh (ids : List String) :
    { persistentIds := ids : PushClient }.Remembers ids :=
  ⟨(List.append_nil ids).symm, fun _ hl => absurd hl List.not_mem_nil⟩

/-- What adds no message and no login. -/
theorem Remembers.congr (h : s.Remembers ids) (hids : t.persistentIds = s.persistentIds)
    (hreceived : t.received = s.received) (hlogins : t.logins = s.logins) : t.Remembers ids where
  persistentIds_eq := by rw [hids, hreceived, h.persistentIds_eq]
  logins := by
    rw [hlogins, hreceived]
    exact h.logins

theorem Remembers.emit (h : s.Remembers ids) (closes : Bool) : (s.emit closes).Remembers ids := by
  cases closes with
  | false => exact h
  | true => exact h.congr rfl rfl rfl

theorem Remembers.onMessage (h : s.Remembers ids) (closes : Bool) (m : McsEvent) :
    (s.onMessage closes m).Remembers ids := by
  cases m with
  | loginResponse error =>
    cases error with
    | true =>
      rw [PushClient.onMessage, onLoginError]
      split
      · refine Remembers.congr (Remembers.emit ?_ closes) rfl rfl rfl
        exact h.congr rfl rfl rfl
      · exact h.congr rfl rfl rfl
    | false =>
      refine Remembers.emit ?_ closes
      exact h.congr rfl rfl rfl
  | dataMessage id =>
    refine Remembers.emit ⟨?_, fun l hl => ?_⟩ closes
    · change s.persistentIds ++ id.toList = ids ++ (s.received ++ id.toList)
      rw [h.persistentIds_eq, List.append_assoc]
    · obtain ⟨hsent, hprefix⟩ := h.logins l hl
      exact ⟨hsent, hprefix.trans (List.prefix_append _ _)⟩
  | heartbeatPing => exact h
  | heartbeatAck => exact h
  | close => exact h.congr rfl rfl rfl

theorem Remembers.scheduleReconnect (h : s.Remembers ids) : s.scheduleReconnect.Remembers ids := by
  cases htimer : s.reconnectTimer with
  | none =>
    rw [scheduleReconnect_eq htimer]
    exact h.congr rfl rfl rfl
  | some due =>
    rw [scheduleReconnect_of_pending (by rw [htimer]; rfl)]
    exact h.congr rfl rfl rfl

theorem Remembers.onClose (h : s.Remembers ids) (closes : Bool) :
    (s.onClose closes).Remembers ids := by
  have hdown : ({ s with heartbeatTimer := false, loggedIn := false : PushClient }.emit
      closes).Remembers ids := by
    refine Remembers.emit ?_ closes
    exact h.congr rfl rfl rfl
  rw [PushClient.onClose]
  split
  · exact hdown
  · exact hdown.scheduleReconnect

theorem Remembers.transition (h : s.Remembers ids) (ht : s.Transition t) : t.Remembers ids := by
  cases ht with
  | connect hfresh hclosed => exact h.congr rfl rfl rfl
  | login i hi =>
    refine ⟨h.persistentIds_eq, fun l hl => ?_⟩
    rcases List.mem_append.mp hl with hold | hnew
    · exact h.logins l hold
    · obtain rfl := List.mem_singleton.mp hnew
      exact ⟨h.persistentIds_eq, List.prefix_refl _⟩
  | message closes m => exact h.onMessage closes m
  | emit closes => exact h.emit closes
  | closed i phase hi hphase closes =>
    refine Remembers.onClose ?_ closes
    exact h.congr rfl rfl rfl
  | reconnect due hdue =>
    rw [PushClient.reconnect]
    split
    · exact h.congr rfl rfl rfl
    · exact h.congr rfl rfl rfl
  | close => exact h.congr rfl rfl rfl
  | elapse ms => exact h.congr rfl rfl rfl

/-- What holds behind every run, by one step at a time. -/
theorem invariant_of_run {labels : List Event}
    (hrun : Run step { persistentIds := ids } labels s) : s.Disciplined ∧ s.Remembers ids := by
  induction hrun with
  | nil => exact ⟨disciplined_fresh ids, remembers_fresh ids⟩
  | snoc _ hstep ih =>
    exact ⟨ih.1.transition (transition_of_step hstep), ih.2.transition (transition_of_step hstep)⟩

/-- The wait before the retry behind `k` others in a row: 5 seconds, then 10 more each up to a minute,
then a minute more each up to ten. -/
def backoff (k : ℕ) : ℕ :=
  if k = 0 then 5000 else if k ≤ 6 then 10000 * k else min 600000 (60000 * (k - 5))

/-- The waits in a row are those of the back-off, and of the rejected logins in a row the third is
the first that is reported. -/
structure Paced (s : PushClient) : Prop where
  delays_eq : s.delays = (List.range s.delays.length).map backoff
  currentDelay_eq : s.currentDelay = if s.delays = [] then 0 else backoff s.delays.length
  rejections_eq : s.rejections =
    (List.range s.rejections.length).map fun k => decide (MAX_LOGIN_FAILURES ≤ k + 1)
  loginFailures_eq : s.loginFailures = s.rejections.length

theorem paced_fresh (ids : List String) : { persistentIds := ids : PushClient }.Paced :=
  ⟨rfl, rfl, rfl, rfl⟩

theorem Paced.congr (h : s.Paced) (hdelays : t.delays = s.delays)
    (hcurrent : t.currentDelay = s.currentDelay) (hrejections : t.rejections = s.rejections)
    (hfailures : t.loginFailures = s.loginFailures) : t.Paced := by
  refine ⟨?_, ?_, ?_, ?_⟩
  · rw [hdelays]
    exact h.delays_eq
  · rw [hcurrent, hdelays]
    exact h.currentDelay_eq
  · rw [hrejections]
    exact h.rejections_eq
  · rw [hfailures, hrejections]
    exact h.loginFailures_eq

theorem Paced.emit (h : s.Paced) (closes : Bool) : (s.emit closes).Paced := by
  cases closes with
  | false => exact h
  | true => exact h.congr rfl rfl rfl rfl

theorem backoff_of_le {k : ℕ} (hpos : 0 < k) (hle : k ≤ 6) : backoff k = 10000 * k := by
  rw [backoff, if_neg (by omega), if_pos hle]

theorem backoff_of_ge {k : ℕ} (hge : 6 ≤ k) : backoff k = min 600000 (60000 * (k - 5)) := by
  by_cases hsix : k = 6
  · rw [hsix]
    rfl
  · rw [backoff, if_neg (by omega), if_neg (by omega)]

/-- A delay is raised to the next one of the back-off. -/
theorem raisedDelay_backoff (n : ℕ) :
    raisedDelay (if n = 0 then 0 else backoff n) = backoff (n + 1) := by
  by_cases hzero : n = 0
  · rw [hzero]
    rfl
  · rw [if_neg hzero, raisedDelay]
    by_cases hsmall : n < 6
    · rw [backoff_of_le (Nat.pos_of_ne_zero hzero) hsmall.le, backoff_of_le (by omega) (by omega),
        if_pos (by omega)]
      rfl
    · rw [backoff_of_ge (not_lt.mp hsmall), backoff_of_ge (by omega), if_neg (by omega)]
      by_cases hlast : n < 15
      · rw [if_pos (by omega)]
        omega
      · rw [if_neg (by omega)]
        omega

theorem nextDelay_backoff {n : ℕ} (h : s.currentDelay = if n = 0 then 0 else backoff n) :
    s.nextDelay = backoff n := by
  by_cases hzero : n = 0
  · rw [nextDelay, h, hzero]
    rfl
  · rw [if_neg hzero] at h
    have hpos : backoff n ≠ 0 := by
      by_cases hsmall : n ≤ 6
      · rw [backoff_of_le (Nat.pos_of_ne_zero hzero) hsmall]
        omega
      · rw [backoff_of_ge (by omega)]
        omega
    rw [nextDelay, h, if_neg hpos]

theorem map_range_concat {α : Type} {f : ℕ → α} {l : List α}
    (h : l = (List.range l.length).map f) {a : α} (ha : a = f l.length) :
    l ++ [a] = (List.range (l ++ [a]).length).map f := by
  rw [List.length_append, List.length_singleton, List.range_succ, List.map_append, ← h, ha]
  rfl

theorem Paced.scheduleReconnect (h : s.Paced) (htimer : s.reconnectTimer = none) :
    s.scheduleReconnect.Paced := by
  have hcurrent : s.currentDelay =
      if s.delays.length = 0 then 0 else backoff s.delays.length := by
    rw [h.currentDelay_eq]
    simp only [List.length_eq_zero_iff]
  rw [scheduleReconnect_eq htimer]
  refine ⟨map_range_concat h.delays_eq (nextDelay_backoff hcurrent), ?_, h.rejections_eq,
    h.loginFailures_eq⟩
  simp only [List.append_eq_nil_iff, List.cons_ne_nil, and_false, if_false, List.length_append,
    List.length_singleton]
  rw [hcurrent, raisedDelay_backoff]

theorem Paced.onMessage (h : s.Paced) (closes : Bool) (m : McsEvent) :
    (s.onMessage closes m).Paced := by
  cases m with
  | loginResponse error =>
    cases error with
    | true =>
      have hcounted : ({ s with
          loginFailures := s.loginFailures + 1
          rejections :=
            s.rejections ++ [decide (MAX_LOGIN_FAILURES ≤ s.loginFailures + 1)] } :
            PushClient).Paced := by
        refine ⟨h.delays_eq, h.currentDelay_eq,
          map_range_concat h.rejections_eq (by rw [h.loginFailures_eq]), ?_⟩
        rw [List.length_append, ← h.loginFailures_eq]
        rfl
      rw [PushClient.onMessage, onLoginError]
      split
      · exact (hcounted.emit closes).congr rfl rfl rfl rfl
      · exact hcounted.congr rfl rfl rfl rfl
    | false =>
      refine Paced.emit ?_ closes
      exact ⟨rfl, rfl, rfl, rfl⟩
  | dataMessage id =>
    refine Paced.emit ?_ closes
    exact h.congr rfl rfl rfl rfl
  | heartbeatPing => exact h
  | heartbeatAck => exact h
  | close => exact h.congr rfl rfl rfl rfl

theorem Paced.transition (h : s.Paced) (hdisc : s.Disciplined) (ht : s.Transition t) :
    t.Paced := by
  cases ht with
  | connect hfresh hclosed => exact h.congr rfl rfl rfl rfl
  | login i hi => exact h.congr rfl rfl rfl rfl
  | message closes m => exact h.onMessage closes m
  | emit closes => exact h.emit closes
  | closed i phase hi hphase closes =>
    have hlive := live_hungUp hi hphase
    have honce := hdisc.once
    cases closes with
    | true => exact h.congr rfl rfl rfl rfl
    | false =>
      rw [onClose_stays]
      split
      · exact h.congr rfl rfl rfl rfl
      · refine Paced.scheduleReconnect ?_ (reconnectTimer_eq_none (s := s) (by omega))
        exact h.congr rfl rfl rfl rfl
  | reconnect due hdue =>
    rw [PushClient.reconnect]
    split
    · exact h.congr rfl rfl rfl rfl
    · exact h.congr rfl rfl rfl rfl
  | close => exact h.congr rfl rfl rfl rfl
  | elapse ms => exact h.congr rfl rfl rfl rfl

/-- **How long retries wait.** In every run the retries since the last login that was accepted have
waited 5 seconds, 10, 20 and so on to a minute, and then 2 minutes, 3 and so on to ten, where it
stays; and of the logins rejected since then the first two are retried in silence and every later one
is reported. -/
theorem paced_of_run (labels : List Event)
    (hrun : Run step { persistentIds := ids } labels s) : s.Paced := by
  induction hrun with
  | nil => exact paced_fresh ids
  | snoc hbefore hstep ih =>
    exact ih.transition (invariant_of_run hbefore).1 (transition_of_step hstep)

end

/-! ### Two retries and a close -/

/-- The first login is rejected, the second is accepted and brings a message, and the client is
closed behind the third. -/
def retried : List Event :=
  [.connect, .secureConnect 0, .message 0 (.loginResponse true) false, .closed 0 false,
    .elapse 5000, .reconnect, .secureConnect 1, .message 1 (.loginResponse false) false,
    .message 1 (.dataMessage (some "p1")) false, .closed 1 false, .elapse 5000, .reconnect,
    .secureConnect 2, .close, .closed 2 false]

/-- A login that is rejected three times in a row is reported once. -/
def rejected : List Event :=
  [.connect, .message 0 (.loginResponse true) false, .closed 0 false, .elapse 5000, .reconnect,
    .message 1 (.loginResponse true) false, .closed 1 false, .elapse 10000, .reconnect,
    .message 2 (.loginResponse true) false, .closed 2 false]

theorem paced_rejected :
    ∃ s, exec step {} rejected = some s ∧ s.Paced ∧ s.delays = [5000, 10000, 20000] ∧
      s.rejections = [false, false, true] := by
  obtain ⟨s, hs⟩ := Option.isSome_iff_exists.mp
    (by decide : (exec step {} rejected).isSome = true)
  have hdelays : (exec step {} rejected).map (·.delays) = some [5000, 10000, 20000] := by decide
  have hrejections : (exec step {} rejected).map (·.rejections) = some [false, false, true] := by
    decide
  rw [hs] at hdelays hrejections
  exact ⟨s, hs, paced_of_run rejected (run_of_exec hs), Option.some.inj hdelays,
    Option.some.inj hrejections⟩

end PushClient
end EufySdk
