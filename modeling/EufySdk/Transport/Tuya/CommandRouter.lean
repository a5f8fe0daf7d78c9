import Mathlib.Tactic
import EufySdk.Core.Json
import EufySdk.Lib.Lists
import EufySdk.Lib.Machine

/-!
# Commands to Tuya devices

`TuyaCommandRouter` of `transport/tuya/command-router.ts` and the login of `TuyaClient`
(`transport/tuya/client.ts`): the first command logs in, and the commands that come meanwhile wait
for the same login. An account that is bound anew has the next command log in again, also while a
login of the account before it is still on its way.

- `bind`, `ensureLoggedIn`, `dispatchCommand`, `fetchDps` — what the router is called for
- `onToken`, `onLogin` — the login, answer by answer
- `step` — calls, answers and continuations, interleaved
- `one_login_per_account` — which logins there are, and for whom a command is sent
-/

namespace EufySdk.Tuya

open Machine

/-- Who is logged in: `bind` takes the dial code from region and country. -/
structure Account where
  userId : String
  dialCode : String
  deriving DecidableEq, Repr

structure TuyaDeviceIds where
  devId : String
  gwId : String
  deriving DecidableEq, Repr

/-- The password that is tried: the derived one, and `"12345678"` behind a wrong one. -/
inductive Password
  | derived
  | fallback
  deriving DecidableEq, Repr

inductive TuyaAction
  | usernameTokenGet (countryCode username : String)
  | passwordLoginReg (countryCode uid passwd token : String)
  | getDeviceDps (devId : String)
  | publishDps (devId gwId : String) (dp : ℕ) (value : Json)

/-- An answer of the cloud: the fields that the login looks at. -/
structure TuyaEnvelope where
  success : Bool
  errorCode : Option String := none
  errorMsg : Option String := none
  token : Option String := none
  publicKey : Option String := none
  exponent : Option String := none
  sid : Option String := none
  uid : Option String := none
  deriving DecidableEq, Repr

/-- A field that is there and not empty. -/
def truthy (field : Option String) : Option String := field.filter (· ≠ "")

/-- How far a login is. A rejected one has its handler run, which makes room for the next. -/
inductive LoginStage
  | token (password : Password)
  | passwd (password : Password)
  | loggedIn (sid : String)
  | rejected (caught : Bool)
  deriving DecidableEq, Repr

/-- A login, and the count of the `bind` that it was started behind. -/
structure Login where
  account : Option Account
  binding : ℕ
  stage : LoginStage
  deriving DecidableEq, Repr

inductive Command
  | aiotDp (dp : ℕ) (value : Json)
  | other

/-- A call that waits for a login. -/
inductive Waiting
  | dispatch (sn : String) (dp : ℕ) (value : Json) (login : ℕ)
  | fetch (devId : String) (login : ℕ)

def Waiting.login : Waiting → ℕ
  | .dispatch _ _ _ login => login
  | .fetch _ login => login

/-- A request that was sent, for the session of which login, and how many binds there were. -/
structure Sent where
  login : ℕ
  action : TuyaAction
  binds : ℕ

/-- What the router is set up with. -/
structure TuyaCommandRouterConfig where
  allowUnverified : Bool := false
  deriveTuyaPassword : String → String
  rsaEncryptPassword : String → String → String → Option String

/-- A router, its logins and the calls that wait. `sent`, `bound` and `overtaken` are kept for the
results about runs: what was sent, the accounts in the order they were bound in, and whether one was
bound while a login was on its way. -/
structure TuyaCommandRouter where
  account : Option Account := none
  client : Option ℕ := none
  loginOnce : Option ℕ := none
  snMap : String → Option TuyaDeviceIds := fun _ => none
  logins : List Login := []
  waiting : List Waiting := []
  sent : List Sent := []
  bound : List Account := []
  overtaken : Bool := false

def tuyaUsername (eufyUserId : String) : String := "eufyhome-" ++ eufyUserId

def TuyaAction.isPasswordLogin : TuyaAction → Bool
  | .passwordLoginReg _ _ _ _ => true
  | _ => false

/-- A request of a call, for the session of a login. -/
def TuyaAction.ofCall : TuyaAction → Bool
  | .getDeviceDps _ => true
  | .publishDps _ _ _ _ => true
  | _ => false

/-- A login that neither has a session nor has failed. -/
def Login.running (l : Login) : Bool :=
  match l.stage with
  | .token _ => true
  | .passwd _ => true
  | _ => false

namespace TuyaCommandRouter

variable (cfg : TuyaCommandRouterConfig) (r : TuyaCommandRouter)

def bind (account : Account) : TuyaCommandRouter :=
  { r with
    account := some account
    client := none
    loginOnce := none
    bound := r.bound ++ [account]
    overtaken := r.overtaken || r.logins.any Login.running }

def registerDevice (sn : String) (ids : TuyaDeviceIds) : TuyaCommandRouter :=
  { r with snMap := Function.update r.snMap sn (some ids) }

def send (login : ℕ) (action : TuyaAction) : TuyaCommandRouter :=
  { r with sent := r.sent ++ [{ login, action, binds := r.bound.length }] }

/-- `attempt`, up to its first answer. -/
def beginAttempt (login : ℕ) (account : Account) : TuyaCommandRouter :=
  r.send login (.usernameTokenGet account.dialCode (tuyaUsername account.userId))

def pushLogin (stage : LoginStage) : TuyaCommandRouter :=
  { r with
    logins := r.logins ++ [{ account := r.account, binding := r.bound.length, stage }]
    loginOnce := some r.logins.length }

/-- A login that is started, which throws at once where no user is bound. -/
def startLogin : TuyaCommandRouter :=
  match r.account.filter (·.userId ≠ "") with
  | none => r.pushLogin (.rejected false)
  | some account => (r.pushLogin (.token .derived)).beginAttempt r.logins.length account

/-- The login that a call waits for. -/
def ensureLoggedIn : TuyaCommandRouter × ℕ :=
  match r.loginOnce with
  | some p => (r, p)
  | none => (r.startLogin, r.logins.length)

def wait (call : Waiting) : TuyaCommandRouter := { r with waiting := r.waiting ++ [call] }

/-- `dispatchCommand`, up to its wait: a command that is no data point is thrown back. -/
def dispatchCommand (sn : String) : Command → TuyaCommandRouter
  | .other => r
  | .aiotDp dp value => r.ensureLoggedIn.1.wait (.dispatch sn dp value r.ensureLoggedIn.2)

/-- `fetchDps`, up to its wait: a device that is not registered has nothing to fetch. -/
def fetchDps (sn : String) : TuyaCommandRouter :=
  match r.snMap sn with
  | none => r
  | some ids => r.ensureLoggedIn.1.wait (.fetch ids.devId r.ensureLoggedIn.2)

def setStage (p : ℕ) (stage : LoginStage) : TuyaCommandRouter :=
  { r with logins := r.logins.modify p fun l => { l with stage } }

/-- What a token is answered with: the password, encrypted with the key that came with it. -/
def passwordLogin (account : Account) (password : Password) (answer : Option TuyaEnvelope) :
    Option TuyaAction := do
  let e ← answer
  let token ← (if e.success then truthy e.token else none)
  let publicKey ← truthy e.publicKey
  let exponent ← truthy e.exponent
  let plain := if password = .derived then cfg.deriveTuyaPassword account.userId else "12345678"
  let passwd ← cfg.rsaEncryptPassword plain publicKey exponent
  return .passwordLoginReg account.dialCode (tuyaUsername account.userId) passwd token

/-- The answer to `usernameTokenGet`, or none where the request failed. -/
def onToken (p : ℕ) (account : Account) (password : Password) (answer : Option TuyaEnvelope) :
    TuyaCommandRouter :=
  match passwordLogin cfg account password answer with
  | none => r.setStage p (.rejected false)
  | some action => (r.setStage p (.passwd password)).send p action

/-- The answer to `passwordLoginReg`: a session, a wrong password or a failure. -/
def onLogin (p : ℕ) (account : Account) (password : Password) (answer : Option TuyaEnvelope) :
    TuyaCommandRouter :=
  match answer with
  | none => r.setStage p (.rejected false)
  | some e =>
    match if e.success then truthy e.sid else none, truthy e.uid with
    | some sid, some _ => { r.setStage p (.loggedIn sid) with client := some p }
    | _, _ =>
      if e.errorCode.or e.errorMsg = some "USER_PASSWD_WRONG" ∧ password = .derived then
        (r.setStage p (.token .fallback)).beginAttempt p account
      else r.setStage p (.rejected false)

/-- A call behind its login: the device is looked up and the request is sent, if writes are allowed
and there is a session to send it for. -/
def resume : Waiting → TuyaCommandRouter
  | .dispatch sn dp value _ =>
    match r.snMap sn, r.client with
    | some ids, some p =>
      if cfg.allowUnverified then r.send p (.publishDps ids.devId ids.gwId dp value) else r
    | _, _ => r
  | .fetch devId _ =>
    match r.client with
    | some p => r.send p (.getDeviceDps devId)
    | none => r

/-- The handler of a login that was rejected. -/
def caught (p : ℕ) : TuyaCommandRouter :=
  { r.setStage p (.rejected true) with
    loginOnce := if r.loginOnce = some p then none else r.loginOnce }

inductive Event
  | bind (account : Account)
  | registerDevice (sn : String) (ids : TuyaDeviceIds)
  | dispatchCommand (sn : String) (cmd : Command)
  | fetchDps (sn : String)
  /-- What a login's request came to. -/
  | answer (p : ℕ) (envelope : Option TuyaEnvelope)
  | caught (p : ℕ)
  /-- A call goes on behind its login. -/
  | resume (i : ℕ)

def step : Event → Option TuyaCommandRouter
  | .bind account => some (r.bind account)
  | .registerDevice sn ids => some (r.registerDevice sn ids)
  | .dispatchCommand sn cmd => some (r.dispatchCommand sn cmd)
  | .fetchDps sn => some (r.fetchDps sn)
  | .answer p envelope =>
    match r.logins[p]? with
    | some { account := some account, stage := .token password, .. } =>
      some (r.onToken cfg p account password envelope)
    | some { account := some account, stage := .passwd password, .. } =>
      some (r.onLogin p account password envelope)
    | _ => none
  | .caught p =>
    match r.logins[p]? with
    | some { stage := .rejected false, .. } => some (r.caught p)
    | _ => none
  | .resume i =>
    match r.waiting[i]? with
    | none => none
    | some call =>
      match (r.logins[call.login]?).map Login.stage with
      | some (.loggedIn _) =>
        some ({ r with waiting := r.waiting.eraseIdx i : TuyaCommandRouter }.resume cfg call)
      | some (.rejected _) => some { r with waiting := r.waiting.eraseIdx i }
      | _ => none

/-! ## What a step does -/

/-- Routers that differ in the devices and the calls that wait alone. -/
structure Alike (t u : TuyaCommandRouter) : Prop where
  account : t.account = u.account
  client : t.client = u.client
  loginOnce : t.loginOnce = u.loginOnce
  logins : t.logins = u.logins
  sent : t.sent = u.sent
  bound : t.bound = u.bound
  overtaken : t.overtaken = u.overtaken

inductive Transition : TuyaCommandRouter → Prop
  | bind (account : Account) : Transition (r.bind account)
  | quiet : Transition r
  | start (hnone : r.loginOnce = none) : Transition r.startLogin
  | fail (p : ℕ) (l : Login) (hl : r.logins[p]? = some l) (hrunning : l.running = true) :
      Transition (r.setStage p (.rejected false))
  | passwd (p : ℕ) (l : Login) (account : Account) (password : Password) (passwd token : String)
      (hl : r.logins[p]? = some l) (haccount : l.account = some account)
      (hstage : l.stage = .token password) :
      Transition ((r.setStage p (.passwd password)).send p
        (.passwordLoginReg account.dialCode (tuyaUsername account.userId) passwd token))
  | loggedIn (p : ℕ) (l : Login) (password : Password) (sid : String)
      (hl : r.logins[p]? = some l) (hstage : l.stage = .passwd password) :
      Transition { r.setStage p (.loggedIn sid) with client := some p }
  | retry (p : ℕ) (l : Login) (account : Account) (hl : r.logins[p]? = some l)
      (haccount : l.account = some account) (hstage : l.stage = .passwd .derived) :
      Transition ((r.setStage p (.token .fallback)).beginAttempt p account)
  | caught (p : ℕ) (l : Login) (hl : r.logins[p]? = some l) (hstage : l.stage = .rejected false) :
      Transition (r.caught p)
  | publish (p : ℕ) (ids : TuyaDeviceIds) (dp : ℕ) (value : Json) (hclient : r.client = some p)
      (hallowed : cfg.allowUnverified = true) :
      Transition (r.send p (.publishDps ids.devId ids.gwId dp value))
  | read (p : ℕ) (devId : String) (hclient : r.client = some p) :
      Transition (r.send p (.getDeviceDps devId))

variable {cfg r} {t : TuyaCommandRouter}

theorem Alike.refl (t : TuyaCommandRouter) : Alike t t := ⟨rfl, rfl, rfl, rfl, rfl, rfl, rfl⟩

theorem transition_ensureLoggedIn (call : Waiting) :
    ∃ u, Transition cfg r u ∧ Alike (r.ensureLoggedIn.1.wait call) u := by
  rw [ensureLoggedIn]
  cases honce : r.loginOnce with
  | none => exact ⟨_, .start honce, ⟨rfl, rfl, rfl, rfl, rfl, rfl, rfl⟩⟩
  | some p => exact ⟨_, .quiet, ⟨rfl, rfl, rfl, rfl, rfl, rfl, rfl⟩⟩

theorem transition_onToken {p : ℕ} {l : Login} {account : Account} {password : Password}
    (hl : r.logins[p]? = some l) (haccount : l.account = some account)
    (hstage : l.stage = .token password) (answer : Option TuyaEnvelope) :
    Transition cfg r (r.onToken cfg p account password answer) := by
  rw [onToken]
  cases haction : passwordLogin cfg account password answer with
  | none => exact .fail p l hl (by rw [Login.running, hstage])
  | some action =>
    simp only [passwordLogin, Option.bind_eq_bind, Option.bind_eq_some_iff, Option.pure_def,
      Option.some.injEq] at haction
    obtain ⟨e, -, token, -, publicKey, -, exponent, -, passwd, -, rfl⟩ := haction
    exact .passwd p l account password passwd token hl haccount hstage

theorem transition_onLogin {p : ℕ} {l : Login} {account : Account} {password : Password}
    (hl : r.logins[p]? = some l) (haccount : l.account = some account)
    (hstage : l.stage = .passwd password) (answer : Option TuyaEnvelope) :
    Transition cfg r (r.onLogin p account password answer) := by
  have hfail : Transition cfg r (r.setStage p (.rejected false)) :=
    .fail p l hl (by rw [Login.running, hstage])
  unfold onLogin
  split
  · exact hfail
  · split
    · exact .loggedIn p l password _ hl hstage
    · split
      · rename_i hwrong
        rw [hwrong.2] at hstage
        exact .retry p l account hl haccount hstage
      · exact hfail

theorem transition_resume (call : Waiting) (left : List Waiting) :
    ∃ u, Transition cfg r u ∧
      Alike ({ r with waiting := left : TuyaCommandRouter }.resume cfg call) u := by
  cases call with
  | dispatch sn dp value login =>
    rw [resume]
    dsimp only
    cases hids : r.snMap sn with
    | none => exact ⟨_, .quiet, ⟨rfl, rfl, rfl, rfl, rfl, rfl, rfl⟩⟩
    | some ids =>
      cases hclient : r.client with
      | none => exact ⟨_, .quiet, ⟨rfl, hclient.symm, rfl, rfl, rfl, rfl, rfl⟩⟩
      | some p =>
        dsimp only
        split
        · rename_i hallowed
          exact ⟨_, .publish p ids dp value hclient hallowed,
            ⟨rfl, hclient.symm, rfl, rfl, rfl, rfl, rfl⟩⟩
        · exact ⟨_, .quiet, ⟨rfl, hclient.symm, rfl, rfl, rfl, rfl, rfl⟩⟩
  | fetch devId login =>
    rw [resume]
    dsimp only
    cases hclient : r.client with
    | none => exact ⟨_, .quiet, ⟨rfl, hclient.symm, rfl, rfl, rfl, rfl, rfl⟩⟩
    | some p =>
      exact ⟨_, .read p devId hclient, ⟨rfl, hclient.symm, rfl, rfl, rfl, rfl, rfl⟩⟩

theorem transition_of_step {e : Event} (h : r.step cfg e = some t) :
    ∃ u, Transition cfg r u ∧ Alike t u := by
  cases e with
  | bind account =>
    obtain rfl := Option.some.inj h
    exact ⟨_, .bind account, .refl _⟩
  | registerDevice sn ids =>
    obtain rfl := Option.some.inj h
    exact ⟨_, .quiet, ⟨rfl, rfl, rfl, rfl, rfl, rfl, rfl⟩⟩
  | dispatchCommand sn cmd =>
    obtain rfl := Option.some.inj h
    cases cmd with
    | other => exact ⟨_, .quiet, .refl _⟩
    | aiotDp dp value => exact transition_ensureLoggedIn _
  | fetchDps sn =>
    obtain rfl := Option.some.inj h
    rw [fetchDps]
    cases r.snMap sn with
    | none => exact ⟨_, .quiet, .refl _⟩
    | some ids => exact transition_ensureLoggedIn _
  | answer p envelope =>
    rw [step] at h
    split at h
    · rename_i account binding password hl
      obtain rfl := Option.some.inj h
      exact ⟨_, transition_onToken hl rfl rfl envelope, .refl _⟩
    · rename_i account binding password hl
      obtain rfl := Option.some.inj h
      exact ⟨_, transition_onLogin hl rfl rfl envelope, .refl _⟩
    · cases h
  | caught p =>
    rw [step] at h
    split at h
    · rename_i account binding hl
      obtain rfl := Option.some.inj h
      exact ⟨_, .caught p _ hl rfl, .refl _⟩
    · cases h
  | resume i =>
    rw [step] at h
    cases hcall : r.waiting[i]? with
    | none =>
      rw [hcall] at h
      cases h
    | some call =>
      rw [hcall] at h
      dsimp only at h
      split at h
      · obtain rfl := Option.some.inj h
        exact transition_resume call _
      · obtain rfl := Option.some.inj h
        exact ⟨_, .quiet, ⟨rfl, rfl, rfl, rfl, rfl, rfl, rfl⟩⟩
      · cases h

/-! ## The logins of an account -/

/-- The account behind some binds. -/
def accountAt (bound : List Account) (binding : ℕ) : Option Account := (bound.take binding).getLast?

/-- The logins are those of the accounts that were bound: each was started for the account of its
bind, and of those behind one bind all but the last have failed, which is the one calls wait for. -/
structure Shared (r : TuyaCommandRouter) : Prop where
  account_eq : r.account = accountAt r.bound r.bound.length
  binding_le : ∀ l ∈ r.logins, l.binding ≤ r.bound.length
  owner : ∀ l ∈ r.logins, l.account = accountAt r.bound l.binding
  once : ∀ p ∈ r.loginOnce, ∃ l, r.logins[p]? = some l ∧ l.binding = r.bound.length
  current : ∀ p l, r.logins[p]? = some l → l.binding = r.bound.length →
    l.stage ≠ .rejected true → r.loginOnce = some p
  alone : ∀ (p q : ℕ) (l m : Login), p < q → r.logins[p]? = some l → r.logins[q]? = some m →
    l.binding = m.binding → l.stage = .rejected true
  session : ∀ p ∈ r.client, ∃ l sid, r.logins[p]? = some l ∧ l.stage = .loggedIn sid

theorem accountAt_append {bound : List Account} {binding : ℕ} (h : binding ≤ bound.length)
    (account : Account) : accountAt (bound ++ [account]) binding = accountAt bound binding := by
  rw [accountAt, accountAt, List.take_append_of_le_length h]

theorem getElem?_setStage (p q : ℕ) (stage : LoginStage) :
    (r.setStage p stage).logins[q]? =
      if p = q then (r.logins[q]?).map fun l => { l with stage } else r.logins[q]? := by
  rw [setStage, List.getElem?_modify]
  by_cases h : p = q
  · simp [h]
  · simp [h]

/-- A login behind the change of a stage. -/
theorem of_getElem?_setStage {p q : ℕ} {stage : LoginStage} {m : Login}
    (h : (r.setStage p stage).logins[q]? = some m) :
    ∃ l, r.logins[q]? = some l ∧ m.account = l.account ∧ m.binding = l.binding ∧
      (p = q ∧ m.stage = stage ∨ p ≠ q ∧ m = l) := by
  rw [getElem?_setStage] at h
  by_cases hpq : p = q
  · rw [if_pos hpq] at h
    obtain ⟨l, hl, rfl⟩ := Option.map_eq_some_iff.mp h
    exact ⟨l, hl, rfl, rfl, .inl ⟨hpq, rfl⟩⟩
  · rw [if_neg hpq] at h
    exact ⟨m, h, rfl, rfl, .inr ⟨hpq, rfl⟩⟩

theorem of_mem_setStage {p : ℕ} {stage : LoginStage} {m : Login}
    (h : m ∈ (r.setStage p stage).logins) :
    ∃ l ∈ r.logins, m.account = l.account ∧ m.binding = l.binding := by
  obtain ⟨q, hq⟩ := List.mem_iff_getElem?.mp h
  obtain ⟨l, hl, haccount, hbinding, -⟩ := of_getElem?_setStage hq
  exact ⟨l, List.mem_of_getElem? hl, haccount, hbinding⟩

theorem Shared.bind (h : Shared r) (account : Account) : Shared (r.bind account) where
  account_eq := by
    rw [accountAt, TuyaCommandRouter.bind, List.take_length, List.getLast?_concat]
  binding_le l hl := by
    rw [TuyaCommandRouter.bind, List.length_append]
    exact (h.binding_le l hl).trans (Nat.le_add_right _ _)
  owner l hl := (h.owner l hl).trans (accountAt_append (h.binding_le l hl) account).symm
  once p hp := absurd hp (Option.not_mem_none p)
  -- No login was started behind this bind.
  current p l hl hbinding := by
    have hle := h.binding_le l (List.mem_of_getElem? hl)
    rw [hbinding, TuyaCommandRouter.bind, List.length_append, List.length_singleton] at hle
    omega
  alone := h.alone
  session p hp := absurd hp (Option.not_mem_none p)

theorem Shared.send (h : Shared r) (p : ℕ) (action : TuyaAction) : Shared (r.send p action) :=
  ⟨h.account_eq, h.binding_le, h.owner, h.once, h.current, h.alone, h.session⟩

/-- A login is started where there is none to wait for, so those behind the same bind have
failed. -/
theorem Shared.pushLogin (h : Shared r) (hnone : r.loginOnce = none) (stage : LoginStage) :
    Shared (r.pushLogin stage) where
  account_eq := h.account_eq
  binding_le m hm := by
    rcases List.mem_append.mp hm with hm | hm
    · exact h.binding_le m hm
    · rw [List.mem_singleton.mp hm]
      exact le_rfl
  owner m hm := by
    rcases List.mem_append.mp hm with hm | hm
    · exact h.owner m hm
    · rw [List.mem_singleton.mp hm]
      exact h.account_eq
  once p hp := by
    obtain rfl := Option.mem_some.mp hp
    exact ⟨_, List.getElem?_concat_length, rfl⟩
  current p m hm hcurrent hstage := by
    rcases Lists.getElem?_append_cases hm with ⟨rfl, -⟩ | hm
    · rfl
    · have honce := h.current p m hm hcurrent hstage
      rw [hnone] at honce
      cases honce
  alone p q m n hpq hm hn hsame := by
    rcases Lists.getElem?_append_cases hn with ⟨rfl, rfl⟩ | hn
    · rw [TuyaCommandRouter.pushLogin, List.getElem?_append_left hpq] at hm
      by_contra hstage
      have honce := h.current p m hm hsame hstage
      rw [hnone] at honce
      cases honce
    · have hq := (List.getElem?_eq_some_iff.mp hn).1
      rw [TuyaCommandRouter.pushLogin, List.getElem?_append_left (hpq.trans hq)] at hm
      exact h.alone p q m n hpq hm hn hsame
  session p hp := by
    obtain ⟨m, sid, hm, hsid⟩ := h.session p hp
    exact ⟨m, sid, Lists.getElem?_append_of_some hm, hsid⟩

theorem Shared.startLogin (h : Shared r) (hnone : r.loginOnce = none) : Shared r.startLogin := by
  rw [TuyaCommandRouter.startLogin]
  split
  · exact h.pushLogin hnone _
  · exact (h.pushLogin hnone _).send _ _

/-- A stage changes of a login that has neither a session nor its handler behind it. -/
theorem Shared.setStage (h : Shared r) {p : ℕ} {l : Login} (hl : r.logins[p]? = some l)
    (hopen : l.running = true) (stage : LoginStage) : Shared (r.setStage p stage) where
  account_eq := h.account_eq
  binding_le m hm := by
    obtain ⟨n, hn, -, hbinding⟩ := of_mem_setStage hm
    rw [hbinding]
    exact h.binding_le n hn
  owner m hm := by
    obtain ⟨n, hn, haccount, hbinding⟩ := of_mem_setStage hm
    rw [haccount, hbinding]
    exact h.owner n hn
  once q hq := by
    obtain ⟨m, hm, hbinding⟩ := h.once q hq
    rw [getElem?_setStage, hm]
    split
    · exact ⟨_, rfl, hbinding⟩
    · exact ⟨m, rfl, hbinding⟩
  current q m hm hbinding hstage := by
    obtain ⟨n, hn, -, hsame, hcase⟩ := of_getElem?_setStage hm
    refine h.current q n hn (hsame ▸ hbinding) ?_
    rcases hcase with ⟨rfl, -⟩ | ⟨-, rfl⟩
    · obtain rfl := Option.some.inj (hn.symm.trans hl)
      intro hgone
      rw [Login.running, hgone] at hopen
      cases hopen
    · exact hstage
  alone q q' m m' hlt hm hm' hsame := by
    obtain ⟨n, hn, -, hbinding, hcase⟩ := of_getElem?_setStage hm
    obtain ⟨n', hn', -, hbinding', -⟩ := of_getElem?_setStage hm'
    have hgone := h.alone q q' n n' hlt hn hn' (hbinding ▸ hbinding' ▸ hsame)
    rcases hcase with ⟨rfl, -⟩ | ⟨-, rfl⟩
    · obtain rfl := Option.some.inj (hn.symm.trans hl)
      rw [Login.running, hgone] at hopen
      cases hopen
    · exact hgone
  session q hq := by
    obtain ⟨m, sid, hm, hsid⟩ := h.session q hq
    rw [getElem?_setStage, hm]
    split
    · rename_i hpq
      rw [← hpq, hl] at hm
      obtain rfl := Option.some.inj hm
      rw [Login.running, hsid] at hopen
      cases hopen
    · exact ⟨m, sid, rfl, hsid⟩

/-- The login that is rejected is waited for no longer. -/
theorem Shared.caught (h : Shared r) {p : ℕ} {l : Login} (hl : r.logins[p]? = some l)
    (hstage : l.stage = .rejected false) : Shared (r.caught p) where
  account_eq := h.account_eq
  binding_le m hm := by
    obtain ⟨n, hn, -, hbinding⟩ := of_mem_setStage hm
    rw [hbinding]
    exact h.binding_le n hn
  owner m hm := by
    obtain ⟨n, hn, haccount, hbinding⟩ := of_mem_setStage hm
    rw [haccount, hbinding]
    exact h.owner n hn
  once q hq := by
    rw [TuyaCommandRouter.caught] at hq
    split_ifs at hq with hp
    · exact absurd hq (Option.not_mem_none q)
    · obtain ⟨m, hm, hbinding⟩ := h.once q hq
      refine ⟨m, ?_, hbinding⟩
      rw [TuyaCommandRouter.caught, getElem?_setStage, if_neg ?_, hm]
      rintro rfl
      exact hp (Option.mem_def.mp hq)
  current q m hm hbinding hopen := by
    obtain ⟨n, hn, -, hsame, hcase⟩ := of_getElem?_setStage hm
    rcases hcase with ⟨-, hgone⟩ | ⟨hpq, rfl⟩
    · exact absurd hgone hopen
    · have honce := h.current q m hn (hsame ▸ hbinding) hopen
      rw [TuyaCommandRouter.caught, if_neg ?_, honce]
      rw [honce]
      exact fun heq => hpq (Option.some.inj heq).symm
  alone q q' m m' hlt hm hm' hsame := by
    obtain ⟨n, hn, -, hbinding, hcase⟩ := of_getElem?_setStage hm
    obtain ⟨n', hn', -, hbinding', -⟩ := of_getElem?_setStage hm'
    have hgone := h.alone q q' n n' hlt hn hn' (hbinding ▸ hbinding' ▸ hsame)
    rcases hcase with ⟨-, hstage'⟩ | ⟨-, rfl⟩
    · exact hstage'
    · exact hgone
  session q hq := by
    obtain ⟨m, sid, hm, hsid⟩ := h.session q hq
    refine ⟨m, sid, ?_, hsid⟩
    rw [TuyaCommandRouter.caught, getElem?_setStage, if_neg ?_, hm]
    rintro rfl
    rw [hl] at hm
    obtain rfl := Option.some.inj hm
    rw [hstage] at hsid
    cases hsid

theorem Shared.transition (h : Shared r) (ht : Transition cfg r t) : Shared t := by
  cases ht with
  | bind account => exact h.bind account
  | quiet => exact h
  | start hnone => exact h.startLogin hnone
  | fail p l hl hrunning => exact h.setStage hl hrunning _
  | passwd p l account password passwd token hl haccount hstage =>
    exact (h.setStage hl (by rw [Login.running, hstage]) _).send _ _
  | loggedIn p l password sid hl hstage =>
    have hset := h.setStage hl (by rw [Login.running, hstage]) (.loggedIn sid)
    refine { hset with session := ?_ }
    intro q hq
    obtain rfl := Option.mem_some.mp hq
    refine ⟨{ l with stage := .loggedIn sid }, sid, ?_, rfl⟩
    rw [getElem?_setStage, if_pos rfl, hl]
    rfl
  | retry p l account hl haccount hstage =>
    exact (h.setStage hl (by rw [Login.running, hstage]) _).send _ _
  | caught p l hl hstage => exact h.caught hl hstage
  | publish p ids dp value hclient hallowed => exact h.send _ _
  | read p devId hclient => exact h.send _ _

theorem Shared.alike {u : TuyaCommandRouter} (h : Shared u) (ht : Alike t u) : Shared t := by
  obtain ⟨haccount, hclient, honce, hlogins, hsent, hbound, hovertaken⟩ := ht
  constructor
  all_goals simp only [haccount, hclient, honce, hlogins, hbound]
  exacts [h.account_eq, h.binding_le, h.owner, h.once, h.current, h.alone, h.session]

/-! ## What is sent -/

/-- Whether a login may have sent something: a request of its own names its account, and one of a
call needs its session, and for a write the permission. -/
def Proper (cfg : TuyaCommandRouterConfig) (l : Login) : TuyaAction → Prop
  | .usernameTokenGet code name | .passwordLoginReg code name _ _ =>
    ∃ account, l.account = some account ∧ code = account.dialCode ∧
      name = tuyaUsername account.userId
  | .getDeviceDps _ => ∃ sid, l.stage = .loggedIn sid
  | .publishDps _ _ _ _ => (∃ sid, l.stage = .loggedIn sid) ∧ cfg.allowUnverified = true

/-- Everything that was sent was sent for a login that may send it, of the binds up to then. -/
def Accounted (cfg : TuyaCommandRouterConfig) (r : TuyaCommandRouter) : Prop :=
  ∀ e ∈ r.sent, ∃ l, r.logins[e.login]? = some l ∧ l.binding ≤ e.binds ∧
    e.binds ≤ r.bound.length ∧ Proper cfg l e.action

theorem Proper.restage {l : Login} {action : TuyaAction} (h : Proper cfg l action)
    (hopen : ∀ sid, l.stage ≠ .loggedIn sid) (stage : LoginStage) :
    Proper cfg { l with stage } action := by
  cases action with
  | usernameTokenGet code name => exact h
  | passwordLoginReg code name passwd token => exact h
  | getDeviceDps devId =>
    obtain ⟨sid, hsid⟩ := h
    exact absurd hsid (hopen sid)
  | publishDps devId gwId dp value =>
    obtain ⟨⟨sid, hsid⟩, -⟩ := h
    exact absurd hsid (hopen sid)

theorem Accounted.setStage (h : Accounted cfg r) {p : ℕ} {l : Login} (hl : r.logins[p]? = some l)
    (hopen : ∀ sid, l.stage ≠ .loggedIn sid) (stage : LoginStage) :
    Accounted cfg (r.setStage p stage) := by
  intro e he
  obtain ⟨m, hm, hbinding, hbinds, hproper⟩ := h e he
  rw [getElem?_setStage, hm]
  by_cases hp : p = e.login
  · rw [← hp, hl] at hm
    obtain rfl := Option.some.inj hm
    rw [if_pos hp]
    exact ⟨_, rfl, hbinding, hbinds, hproper.restage hopen stage⟩
  · rw [if_neg hp]
    exact ⟨m, rfl, hbinding, hbinds, hproper⟩

theorem Accounted.send (h : Accounted cfg r) {p : ℕ} {l : Login} {action : TuyaAction}
    (hl : r.logins[p]? = some l) (hbinding : l.binding ≤ r.bound.length)
    (hproper : Proper cfg l action) : Accounted cfg (r.send p action) := by
  intro e he
  rcases List.mem_append.mp he with he | he
  · exact h e he
  · obtain rfl := List.mem_singleton.mp he
    exact ⟨l, hl, hbinding, le_rfl, hproper⟩

theorem not_loggedIn_of_running {l : Login} (h : l.running = true) (sid : String) :
    l.stage ≠ .loggedIn sid := by
  intro hstage
  rw [Login.running, hstage] at h
  cases h

theorem Accounted.transition (h : Accounted cfg r) (hshared : Shared r)
    (ht : Transition cfg r t) : Accounted cfg t := by
  have hle {p : ℕ} {l : Login} (hl : r.logins[p]? = some l) : l.binding ≤ r.bound.length :=
    hshared.binding_le l (List.mem_of_getElem? hl)
  have hset {p : ℕ} {l : Login} (hl : r.logins[p]? = some l) (stage : LoginStage) :
      (r.setStage p stage).logins[p]? = some { l with stage } := by
    rw [getElem?_setStage, if_pos rfl, hl]
    rfl
  cases ht with
  | bind account =>
    intro e he
    obtain ⟨l, hl, hbinding, hbinds, hproper⟩ := h e he
    refine ⟨l, hl, hbinding, hbinds.trans ?_, hproper⟩
    rw [TuyaCommandRouter.bind, List.length_append]
    exact Nat.le_add_right _ _
  | quiet => exact h
  | start hnone =>
    have hold (stage : LoginStage) : Accounted cfg (r.pushLogin stage) := by
      intro e he
      obtain ⟨m, hm, hrest⟩ := h e he
      exact ⟨m, Lists.getElem?_append_of_some hm, hrest⟩
    rw [startLogin]
    split
    · exact hold _
    · rename_i account haccount
      have hbound := (Option.filter_eq_some_iff.mp haccount).1
      exact (hold _).send List.getElem?_concat_length le_rfl ⟨account, hbound, rfl, rfl⟩
  | fail p l hl hrunning => exact h.setStage hl (not_loggedIn_of_running hrunning) _
  | passwd p l account password passwd token hl haccount hstage =>
    have hbinding := hle hl
    exact (h.setStage hl (fun sid => by rw [hstage]; nofun) _).send (hset hl _) hbinding
      ⟨account, haccount, rfl, rfl⟩
  | loggedIn p l password sid hl hstage =>
    exact h.setStage hl (fun sid => by rw [hstage]; nofun) (.loggedIn sid)
  | retry p l account hl haccount hstage =>
    have hbinding := hle hl
    exact (h.setStage hl (fun sid => by rw [hstage]; nofun) _).send (hset hl _) hbinding
      ⟨account, haccount, rfl, rfl⟩
  | caught p l hl hstage => exact h.setStage hl (fun sid => by rw [hstage]; nofun) (.rejected true)
  | publish p ids dp value hclient hallowed =>
    obtain ⟨l, sid, hl, hsid⟩ := hshared.session p hclient
    exact h.send hl (hle hl) ⟨⟨sid, hsid⟩, hallowed⟩
  | read p devId hclient =>
    obtain ⟨l, sid, hl, hsid⟩ := hshared.session p hclient
    exact h.send hl (hle hl) ⟨sid, hsid⟩

/-! ### How often a password is tried -/

/-- The passwords that a login has sent. -/
def attempts (r : TuyaCommandRouter) (p : ℕ) : ℕ :=
  r.sent.countP fun e => e.login = p ∧ e.action.isPasswordLogin

/-- How many passwords a login has sent at most, by how far it is. -/
def tries : LoginStage → ℕ
  | .token .derived => 0
  | .token .fallback => 1
  | .passwd .derived => 1
  | _ => 2

def Tried (r : TuyaCommandRouter) : Prop :=
  ∀ p, attempts r p ≤ (r.logins[p]?).elim 0 fun l => tries l.stage

theorem tries_le (stage : LoginStage) : tries stage ≤ 2 := by
  rcases stage with (_ | _) | (_ | _) | _ | _
  all_goals simp [tries]

theorem attempts_send (p q : ℕ) (action : TuyaAction) :
    attempts (r.send p action) q =
      attempts r q + if p = q ∧ action.isPasswordLogin = true then 1 else 0 := by
  rw [attempts, send, List.countP_append, List.countP_singleton]
  simp [attempts]

theorem Tried.send (h : Tried r) (p : ℕ) {action : TuyaAction}
    (haction : action.isPasswordLogin = false) : Tried (r.send p action) := by
  intro q
  rw [attempts_send, haction, if_neg fun hand => Bool.false_ne_true hand.2]
  exact h q

theorem Tried.setStage (h : Tried r) {p : ℕ} {l : Login} (hl : r.logins[p]? = some l)
    {stage : LoginStage} (hle : tries l.stage ≤ tries stage) : Tried (r.setStage p stage) := by
  intro q
  rw [getElem?_setStage]
  by_cases hp : p = q
  · subst hp
    have hq := h p
    rw [hl] at hq
    rw [if_pos rfl, hl]
    exact hq.trans hle
  · rw [if_neg hp]
    exact h q

theorem Tried.transition (h : Tried r) (ht : Transition cfg r t) : Tried t := by
  cases ht with
  | bind account => exact h
  | quiet => exact h
  | start hnone =>
    have hold (stage : LoginStage) : Tried (r.pushLogin stage) := by
      intro q
      have hq := h q
      cases hl : r.logins[q]? with
      | none =>
        rw [hl] at hq
        exact hq.trans (Nat.zero_le _)
      | some m =>
        rw [hl] at hq
        rw [pushLogin, Lists.getElem?_append_of_some hl]
        exact hq
    rw [startLogin]
    split
    · exact hold _
    · exact (hold _).send _ rfl
  | fail p l hl hrunning => exact h.setStage hl (tries_le _)
  | passwd p l account password passwd token hl haccount hstage =>
    intro q
    rw [attempts_send]
    have hq := h q
    by_cases hp : p = q
    · -- The password that is sent is the one that the stage behind it counts.
      subst hp
      rw [hl, Option.elim_some, hstage] at hq
      rw [if_pos ⟨rfl, rfl⟩]
      change attempts r p + 1 ≤ ((r.setStage p _).logins[p]?).elim 0 _
      rw [getElem?_setStage, if_pos rfl, hl]
      change attempts r p + 1 ≤ tries (.passwd password)
      cases password <;> exact Nat.succ_le_succ hq
    · rw [if_neg fun hand => hp hand.1]
      change attempts r q ≤ ((r.setStage p _).logins[q]?).elim 0 _
      rw [getElem?_setStage, if_neg hp]
      exact hq
  | loggedIn p l password sid hl hstage => exact h.setStage hl (tries_le _)
  | retry p l account hl haccount hstage =>
    exact (h.setStage hl (by rw [hstage]; decide)).send _ rfl
  | caught p l hl hstage => exact h.setStage hl (tries_le _)
  | publish p ids dp value hclient hallowed => exact h.send _ rfl
  | read p devId hclient => exact h.send _ rfl

/-! ### For whom a command is sent -/

/-- Where no account was bound while a login was on its way, logins that run are those of the
account that is bound, and so is the session. -/
structure Prompt (r : TuyaCommandRouter) : Prop where
  running : ∀ l ∈ r.logins, l.running = true → l.binding = r.bound.length
  session : ∀ p ∈ r.client, ∀ l, r.logins[p]? = some l → l.binding = r.bound.length
  sent : ∀ e ∈ r.sent, e.action.ofCall = true → ∀ l, r.logins[e.login]? = some l →
    l.binding = e.binds

theorem Prompt.setStage (h : Prompt r) {p : ℕ} {l : Login} (hl : r.logins[p]? = some l)
    {stage : LoginStage} (hrunning : l.running = true ∨ stage = .rejected true) :
    Prompt (r.setStage p stage) where
  running m hm hrun := by
    obtain ⟨q, hq⟩ := List.mem_iff_getElem?.mp hm
    obtain ⟨n, hn, -, hbinding, hcase⟩ := of_getElem?_setStage hq
    rw [hbinding]
    refine h.running n (List.mem_of_getElem? hn) ?_
    rcases hcase with ⟨rfl, hstage⟩ | ⟨-, rfl⟩
    · obtain rfl := Option.some.inj (hn.symm.trans hl)
      rcases hrunning with hrunning | rfl
      · exact hrunning
      · rw [Login.running, hstage] at hrun
        cases hrun
    · exact hrun
  session q hq m hm := by
    obtain ⟨n, hn, -, hbinding, -⟩ := of_getElem?_setStage hm
    rw [hbinding]
    exact h.session q hq n hn
  sent e he hcall m hm := by
    obtain ⟨n, hn, -, hbinding, -⟩ := of_getElem?_setStage hm
    rw [hbinding]
    exact h.sent e he hcall n hn

theorem Prompt.pushLogin (h : Prompt r) (hsent : Accounted cfg r)
    (stage : LoginStage) : Prompt (r.pushLogin stage) where
  running l hl hrunning := by
    rcases List.mem_append.mp hl with hl | hl
    · exact h.running l hl hrunning
    · rw [List.mem_singleton.mp hl]
      rfl
  session p hp l hl := by
    rcases Lists.getElem?_append_cases hl with ⟨-, rfl⟩ | hl
    · rfl
    · exact h.session p hp l hl
  sent e he hcall l hl := by
    obtain ⟨m, hm, -⟩ := hsent e he
    obtain rfl := Option.some.inj ((Lists.getElem?_append_of_some hm).symm.trans hl)
    exact h.sent e he hcall m hm

theorem Prompt.send (h : Prompt r) {p : ℕ} {action : TuyaAction}
    (hsession : action.ofCall = true → r.client = some p) : Prompt (r.send p action) where
  running := h.running
  session := h.session
  sent e he hcall l hl := by
    rcases List.mem_append.mp he with he | he
    · exact h.sent e he hcall l hl
    · obtain rfl := List.mem_singleton.mp he
      exact h.session p (hsession hcall) l hl

theorem prompt_bind (h : r.overtaken = false → Prompt r) (account : Account)
    (hprompt : (r.bind account).overtaken = false) : Prompt (r.bind account) := by
  obtain ⟨hovertaken, hidle⟩ := Bool.or_eq_false_iff.mp hprompt
  exact
    { running := fun l hl hrunning => by
        rw [List.any_eq_false] at hidle
        exact absurd hrunning (hidle l hl)
      session := fun p hp => absurd hp (Option.not_mem_none p)
      sent := (h hovertaken).sent }

theorem Prompt.transition (h : r.overtaken = false → Prompt r) (hsent : Accounted cfg r)
    (ht : Transition cfg r t) (hprompt : t.overtaken = false) : Prompt t := by
  cases ht with
  | bind account => exact prompt_bind h account hprompt
  | quiet => exact h hprompt
  | start hnone =>
    have hold (stage : LoginStage) (hpush : (r.pushLogin stage).overtaken = false) :
        Prompt (r.pushLogin stage) :=
      (h hpush).pushLogin hsent stage
    rw [startLogin] at hprompt ⊢
    split at hprompt
    · exact hold _ hprompt
    · exact (hold _ hprompt).send nofun
  | fail p l hl hrunning => exact (h hprompt).setStage hl (.inl hrunning)
  | passwd p l account password passwd token hl haccount hstage =>
    exact ((h hprompt).setStage hl (.inl (by rw [Login.running, hstage]))).send nofun
  | loggedIn p l password sid hl hstage =>
    have hrunning : l.running = true := by rw [Login.running, hstage]
    have hset : Prompt (r.setStage p (.loggedIn sid)) :=
      (h hprompt).setStage hl (.inl hrunning)
    refine { hset with session := ?_ }
    intro q hq m hm
    obtain rfl := Option.mem_some.mp hq
    obtain ⟨n, hn, -, hbinding, -⟩ := of_getElem?_setStage hm
    obtain rfl := Option.some.inj (hn.symm.trans hl)
    rw [hbinding]
    exact (h hprompt).running n (List.mem_of_getElem? hn) hrunning
  | retry p l account hl haccount hstage =>
    exact ((h hprompt).setStage hl (.inl (by rw [Login.running, hstage]))).send nofun
  | caught p l hl hstage =>
    have hset := (h hprompt).setStage hl (.inr rfl)
    exact ⟨hset.running, hset.session, hset.sent⟩
  | publish p ids dp value hclient hallowed => exact (h hprompt).send fun _ => hclient
  | read p devId hclient => exact (h hprompt).send fun _ => hclient

/-! ## Runs -/

/-- What holds behind every run. -/
structure Orderly (cfg : TuyaCommandRouterConfig) (r : TuyaCommandRouter) : Prop where
  shared : Shared r
  accounted : Accounted cfg r
  tried : Tried r
  prompt : r.overtaken = false → Prompt r

theorem Orderly.transition (h : Orderly cfg r) (ht : Transition cfg r t) : Orderly cfg t where
  shared := h.shared.transition ht
  accounted := h.accounted.transition h.shared ht
  tried := h.tried.transition ht
  prompt := Prompt.transition h.prompt h.accounted ht

theorem Orderly.alike {u : TuyaCommandRouter} (h : Orderly cfg u) (ht : Alike t u) :
    Orderly cfg t where
  shared := h.shared.alike ht
  accounted := by
    rw [Accounted, ht.sent, ht.logins, ht.bound]
    exact h.accounted
  tried p := by
    rw [attempts, ht.sent, ht.logins]
    exact h.tried p
  prompt hovertaken := by
    have hprompt := h.prompt (ht.overtaken.symm.trans hovertaken)
    constructor
    all_goals simp only [ht.client, ht.logins, ht.sent, ht.bound]
    exacts [hprompt.running, hprompt.session, hprompt.sent]

theorem Orderly.step {e : Event} (h : Orderly cfg r) (hstep : r.step cfg e = some t) :
    Orderly cfg t := by
  obtain ⟨u, htransition, halike⟩ := transition_of_step hstep
  exact (h.transition htransition).alike halike

theorem orderly_start : Orderly cfg {} where
  shared :=
    { account_eq := rfl
      binding_le := nofun
      owner := nofun
      once := nofun
      current := nofun
      alone := nofun
      session := nofun }
  accounted := nofun
  tried _ := Nat.zero_le _
  prompt _ := { running := nofun, session := nofun, sent := nofun }

theorem orderly_of_run {es : List Event} (hrun : Run (step cfg) {} es r) : Orderly cfg r :=
  hrun.invariant orderly_start fun _ _ _ h hstep => h.step hstep

/-- **One login for each account.** However calls, answers and binds are interleaved: of the logins
started behind one bind all but the last have failed, so calls share one session; a login sends the
name of the account of its bind and tries no more than two passwords; a device is read, and written
to where writes are allowed, for the session of a login of that bind or an earlier one; and as long
as no account was bound while a login was on its way, for the account that was bound at the time. -/
theorem one_login_per_account {es : List Event} (hrun : Run (step cfg) {} es r) :
    (∀ (p q : ℕ) (l m : Login), p < q → r.logins[p]? = some l → r.logins[q]? = some m →
      l.binding = m.binding → l.stage = .rejected true) ∧
    (∀ p, attempts r p ≤ 2) ∧
    (∀ e ∈ r.sent, ∃ l, r.logins[e.login]? = some l ∧ l.binding ≤ e.binds ∧
      l.account = accountAt r.bound l.binding ∧ Proper cfg l e.action) ∧
    (r.overtaken = false → ∀ e ∈ r.sent, e.action.ofCall = true →
      ∃ l, r.logins[e.login]? = some l ∧ l.account = accountAt r.bound e.binds) := by
  have h := orderly_of_run hrun
  refine ⟨h.shared.alone, fun p => ?_, fun e he => ?_, fun hovertaken e he hcall => ?_⟩
  · refine (h.tried p).trans ?_
    cases r.logins[p]? with
    | none => exact Nat.zero_le 2
    | some l => exact tries_le l.stage
  · obtain ⟨l, hl, hbinding, -, hproper⟩ := h.accounted e he
    exact ⟨l, hl, hbinding, h.shared.owner l (List.mem_of_getElem? hl), hproper⟩
  · obtain ⟨l, hl, -⟩ := h.accounted e he
    refine ⟨l, hl, ?_⟩
    rw [← (h.prompt hovertaken).sent e he hcall l hl]
    exact h.shared.owner l (List.mem_of_getElem? hl)

/-! ### Two accounts, one behind the other -/

/-- Writes are allowed, and nothing is encrypted. -/
def plainConfig : TuyaCommandRouterConfig where
  allowUnverified := true
  deriveTuyaPassword user := user
  rsaEncryptPassword plain _ _ := some plain

def key : TuyaEnvelope := { success := true, token := "t", publicKey := "3", exponent := "7" }

def session (sid : String) : TuyaEnvelope := { success := true, sid, uid := "u" }

def wrong : TuyaEnvelope := { success := false, errorCode := "USER_PASSWD_WRONG" }

/-- The first password is wrong, and the account that is bound behind the command has a login of its
own. -/
def boundTwice : List Event :=
  [.registerDevice "S" ⟨"d", "d"⟩, .bind ⟨"a", "1"⟩, .fetchDps "S", .answer 0 key, .answer 0 wrong,
    .answer 0 key, .answer 0 (session "s"), .resume 0, .bind ⟨"b", "1"⟩,
    .dispatchCommand "S" (.aiotDp 2 .null), .answer 1 key, .answer 1 (session "r"), .resume 0]

/-- Who the requests of calls were sent for. -/
def servedTo (r : TuyaCommandRouter) : List (ℕ × Option Account) :=
  (r.sent.filter (·.action.ofCall)).map fun e =>
    (e.login, (r.logins[e.login]?).bind Login.account)

theorem one_login_per_account_twice :
    ∃ r, exec (step plainConfig) {} boundTwice = some r ∧ attempts r 0 ≤ 2 ∧
      (∀ e ∈ r.sent, e.action.ofCall = true →
        ∃ l, r.logins[e.login]? = some l ∧ l.account = accountAt r.bound e.binds) ∧
      servedTo r = [(0, some ⟨"a", "1"⟩), (1, some ⟨"b", "1"⟩)] := by
  obtain ⟨r, hr⟩ := Option.isSome_iff_exists.mp
    (by decide : (exec (step plainConfig) {} boundTwice).isSome = true)
  have hovertaken : (exec (step plainConfig) {} boundTwice).map (·.overtaken) = some false := by
    decide
  have hserved : (exec (step plainConfig) {} boundTwice).map servedTo =
      some [(0, some ⟨"a", "1"⟩), (1, some ⟨"b", "1"⟩)] := by decide
  rw [hr] at hovertaken hserved
  obtain ⟨-, htwo, -, hprompt⟩ := one_login_per_account (run_of_exec hr)
  exact ⟨r, hr, htwo 0, hprompt (Option.some.inj hovertaken), Option.some.inj hserved⟩

/-- The second account is bound while the first logs in, and the first login is answered last: the
command behind both is sent for the first account. -/
example :
    (exec (step plainConfig) {}
      [.registerDevice "S" ⟨"d", "d"⟩, .bind ⟨"a", "1"⟩, .fetchDps "S", .answer 0 key,
        .bind ⟨"b", "1"⟩, .dispatchCommand "S" (.aiotDp 2 .null), .answer 1 key,
        .answer 1 (session "r"), .answer 0 (session "s"), .resume 1]).map servedTo =
      some [(0, some ⟨"a", "1"⟩)] := by
  decide

end TuyaCommandRouter
end EufySdk.Tuya
