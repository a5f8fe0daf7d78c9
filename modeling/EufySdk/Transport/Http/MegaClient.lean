import Mathlib.Tactic
import EufySdk.Lib.OrderedMap

/-!
# The cloud client's session

`transport/http/mega-client.ts`, as far as it decides what becomes of a session: signed calls
with the two recoveries they perform on themselves, the login round trip, and the one recovery
login that rejected calls share. A step is what runs between two awaits. Hosts are told apart as
the client does it, and of an answer the model keeps what the client reads to classify it.

- `Client` — the fields of the client, with the session store
- `Post` — a `postSigned` call; `Login` — an `attemptLogin`
- `Post.step`, `Login.step` — what runs when an answer arrives, or behind a settled await
- `step` — what can happen
-/

namespace EufySdk.MegaClient

/-! ## Answers -/

namespace EufyCloudErrorCode

def SESSION_KICKED : ℤ := 26084
def IDENTITY_KEY_STALE : ℤ := 4404
def SIGNATURE_INVALID : ℤ := 4416
def PROBE_RETRY : ℤ := 10000
def CAPTCHA_REQUIRED : ℕ := 100032
def CAPTCHA_WRONG : ℕ := 100033

end EufyCloudErrorCode

/-- The status, the code and the text of an answer that is not a success. -/
structure Refusal where
  status : ℕ
  code : Option ℤ
  msg : Option String
  deriving DecidableEq, Repr

/-- The text from behind the first occurrence of `word` on. -/
def behind (word : List Char) : List Char → Option (List Char)
  | [] => if word = [] then some [] else none
  | c :: text =>
    if word.isPrefixOf (c :: text) then some ((c :: text).drop word.length) else behind word text

/-- The lines of a text, as `.` in a pattern stays on one. -/
def lines (text : List Char) : List (List Char) :=
  text.splitOnP fun c => c = '\n' || c = '\r' || c.toNat = 0x2028 || c.toNat = 0x2029

/-- Does the pattern `first.*second` match? -/
def matchesBoth (first second : String) (text : List Char) : Bool :=
  (lines text).any fun line =>
    match behind first.toList line with
    | some rest => (behind second.toList rest).isSome
    | none => false

def contains (word : String) (text : List Char) : Bool := (behind word.toList text).isSome

/-- A text as a pattern that ignores case sees it. -/
def folded (msg : Option String) : List Char := ((msg.getD "").toList).map Char.toLower

def tokenRejected (code : Option ℤ) (msg : Option String) : Bool :=
  code = some EufyCloudErrorCode.SESSION_KICKED ||
    contains "user_id is empty" (folded msg) || matchesBoth "invalid" "token" (folded msg) ||
    matchesBoth "token" "expired" (folded msg) || matchesBoth "token" "error" (folded msg) ||
    matchesBoth "token" "not exist" (folded msg) || contains "kicked" (folded msg) ||
    matchesBoth "token" "does not exist" (folded msg) ||
    matchesBoth "session" "does not exist" (folded msg) || contains "unauthor" (folded msg)

namespace Refusal

def identityError (r : Refusal) : Bool :=
  r.code = some EufyCloudErrorCode.IDENTITY_KEY_STALE ||
    contains "get identity error" (folded r.msg) || contains "identity error" (folded r.msg)

/-- Is the other content type worth a try? -/
def retryable (r : Refusal) : Bool :=
  (r.status = 403 && r.code = some EufyCloudErrorCode.SIGNATURE_INVALID) ||
    r.code = some EufyCloudErrorCode.PROBE_RETRY || r.status = 400

def isWordChar (c : Char) : Bool := c.isAlphanum || c = '_'

/-- Does the text made of a refusal have the number as a word? -/
def mentions (n : ℕ) (r : Refusal) : Bool :=
  r.status = n || r.code.any (fun code => code.natAbs = n) ||
    (((r.msg.getD "").toList).splitOnP fun c => !isWordChar c).contains (toString n).toList

end Refusal

/-- What a call throws. -/
inductive Failure
  | network
  | undecryptable
  | noSession
  | keyExchange (refusal : Refusal)
  | megaApi (refusal : Refusal)
  /-- `SessionExpiredError`, where a re-login was held off. -/
  | sessionExpired (refusal : Refusal) (heldOff : Bool)
  /-- `SessionExpiredError` for a session key that could not be exchanged again. -/
  | reexchangeRejected (refusal : Refusal)
  deriving DecidableEq, Repr

def Failure.mentions (n : ℕ) : Failure → Bool
  | .network | .undecryptable | .noSession => false
  | .keyExchange refusal | .megaApi refusal | .sessionExpired refusal _ => refusal.mentions n
  -- its text has no status and no code
  | .reexchangeRejected refusal => { refusal with status := 0, code := none }.mentions n

/-- The data of a successful answer; what is not there is empty. -/
structure Body where
  userId : String := ""
  authToken : String := ""
  geoKey : Option String := none
  faInfo : String := ""
  tokenExpiresAt : ℤ := 0
  captchaId : Option String := none
  deriving DecidableEq, Repr

/-- How a signed request ends. -/
inductive Answer
  | success (body : Body)
  /-- A success whose data does not decrypt. -/
  | undecryptable
  | refused (refusal : Refusal)
  | network
  deriving DecidableEq, Repr

/-- How a key exchange ends. -/
inductive Exchange
  | granted (keyIdent shareKey : String)
  | refused (refusal : Refusal)
  | network
  deriving DecidableEq, Repr

/-! ## The client -/

/-- Hosts with one key between them, and those with a key of their own. -/
inductive Host
  | mega
  | eufylife (host : String)
  deriving DecidableEq, Repr

structure Auth where
  userId : String
  authToken : String
  geoKey : Option String
  /-- When it was obtained, among all tokens and keys. -/
  obtained : ℕ
  deriving DecidableEq, Repr

structure SessionEntry where
  keyIdent : String
  shareKey : String
  createdAt : ℤ
  /-- When it was obtained, among all tokens and keys. -/
  obtained : ℕ
  deriving DecidableEq, Repr

structure PersistedSession where
  userId : String
  authToken : String
  geoKey : Option String
  shareKey : String
  keyIdent : String
  tokenExpiresAt : ℤ
  deriving DecidableEq, Repr

def isSessionValid (saved : PersistedSession) (now : ℤ) : Bool :=
  saved.authToken ≠ "" && saved.shareKey ≠ "" && saved.keyIdent ≠ "" &&
    (saved.tokenExpiresAt ≤ 0 || now / 1000 < saved.tokenExpiresAt - 300)

structure Config where
  email : String
  password : String
  /-- Whether a region is configured. -/
  region : Bool

/-- What the back-off goes by. -/
inductive Event
  /-- A recovery login starts. -/
  | recovery (at_ : ℤ)
  /-- A replaced token has served a call for long enough. -/
  | stable (at_ : ℤ)
  deriving DecidableEq, Repr

structure Client where
  auth : Option Auth := none
  sessionKey : Option SessionEntry := none
  sessionKeys : List (String × SessionEntry) := []
  pendingCaptchaId : Option String := none
  pending2fa : Bool := false
  tokenExpiresAt : ℤ := 0
  store : Option PersistedSession := none
  loggingIn : Bool := false
  /-- The recovery login under way. -/
  reauthAttempt : Option ℕ := none
  recoveries : ℕ := 0
  lastRecoveryAt : ℤ := 0
  /-- How many tokens and keys have been obtained. -/
  obtained : ℕ := 0
  /-- The recovery logins, newest first. -/
  log : List Event := []
  deriving DecidableEq, Repr

def KEY_LIFETIME_MS : ℤ := 12 * 3600000
def REAUTH_HOLD_OFF_MS : ℕ := 60000
def REAUTH_HOLD_OFF_CAP_MS : ℕ := 30 * 60000
def REAUTH_STABLE_MS : ℤ := 10 * 60000

/-- The wait after that many replacements. -/
def holdOff (recoveries : ℕ) : ℕ :=
  min (REAUTH_HOLD_OFF_MS * 2 ^ (recoveries - 1)) REAUTH_HOLD_OFF_CAP_MS

namespace Client

def captchaPending (s : Client) : Bool := s.pendingCaptchaId.any fun id => id ≠ ""

def clearSession (s : Client) : Client :=
  { s with
    auth := none, sessionKey := none, pendingCaptchaId := none, pending2fa := false,
    store := none }

def persist (s : Client) : Client :=
  match s.auth, s.sessionKey with
  | some auth, some key =>
    { s with
      store := some
        { userId := auth.userId, authToken := auth.authToken, geoKey := auth.geoKey,
          shareKey := key.shareKey, keyIdent := key.keyIdent,
          tokenExpiresAt := s.tokenExpiresAt } }
  | _, _ => s

/-- `hydrateFromStore`, and whether it adopted a session. -/
def hydrateFromStore (s : Client) (now : ℤ) : Client × Bool :=
  match s.store with
  | none => (s, false)
  | some saved =>
    if isSessionValid saved now then
      ({ s with
        auth := some
          { userId := saved.userId, authToken := saved.authToken, geoKey := saved.geoKey,
            obtained := s.obtained + 1 }
        tokenExpiresAt := saved.tokenExpiresAt
        sessionKey := some
          { keyIdent := saved.keyIdent, shareKey := saved.shareKey, createdAt := now,
            obtained := s.obtained + 1 }
        obtained := s.obtained + 1 }, true)
    else (s, false)

def sessionReplacedSince (s : Client) (sentToken : Option String) : Bool :=
  s.auth.any fun held => held.authToken ≠ "" && some held.authToken ≠ sentToken

def canReauthenticate (cfg : Config) (s : Client) : Bool :=
  cfg.email ≠ "" && cfg.password ≠ "" && !s.loggingIn && !s.pending2fa

def recoveryDue (s : Client) (now : ℤ) : Bool :=
  s.recoveries = 0 || holdOff s.recoveries ≤ now - s.lastRecoveryAt

def noteSessionWorking (s : Client) (now : ℤ) : Client :=
  if 0 < s.recoveries ∧ REAUTH_STABLE_MS < now - s.lastRecoveryAt then
    { s with recoveries := 0, log := .stable now :: s.log }
  else s

end Client

/-! ## Session keys -/

/-- An `ensureSessionKey` that is awaited. -/
inductive KeyWait
  | exchanging
  | held (entry : SessionEntry)
  | failed (failure : Failure)
  deriving DecidableEq, Repr

namespace Client

def heldKey (s : Client) : Host → Option SessionEntry
  | .mega => s.sessionKey
  | .eufylife host => OrderedMap.get s.sessionKeys host

def dropKey (s : Client) : Host → Client
  | .mega => { s with sessionKey := none }
  | .eufylife host => { s with sessionKeys := OrderedMap.delete s.sessionKeys host }

def setKey (s : Client) (entry : SessionEntry) : Host → Client
  | .mega => { s with sessionKey := some entry }
  | .eufylife host => { s with sessionKeys := OrderedMap.set s.sessionKeys host entry }

/-- `ensureSessionKey` up to its await. -/
def ensureSessionKey (s : Client) (host : Host) (now : ℤ) : KeyWait :=
  match s.heldKey host with
  | some entry => if now - entry.createdAt < KEY_LIFETIME_MS then .held entry else .exchanging
  | none => .exchanging

/-- `ensureSessionKey` with the answer to its exchange. -/
def exchanged (s : Client) (host : Host) (now : ℤ) : Exchange → Client × KeyWait
  | .granted keyIdent shareKey =>
    let entry : SessionEntry :=
      { keyIdent, shareKey, createdAt := now, obtained := s.obtained + 1 }
    ({ s with obtained := s.obtained + 1 }.setKey entry host, .held entry)
  | .refused refusal => (s, .failed (.keyExchange refusal))
  | .network => (s, .failed .network)

end Client

/-! ## Signed calls -/

structure SignedRetry where
  identity : Bool := false
  reauth : Bool := false
  deriving DecidableEq, Repr

/-- What a request was sent with. -/
structure Sent where
  entry : SessionEntry
  sentToken : Option String
  /-- The token in the headers of the last request. -/
  used : Option Auth
  deriving DecidableEq, Repr

inductive SessionRecovery
  | retry
  | unrecoverable
  | heldOff
  deriving DecidableEq, Repr

/-- Where a `postSigned` call is. -/
inductive PostPc
  | keying (wait : KeyWait)
  /-- A request is in flight, the second of the two content types or the first. -/
  | sent (sent : Sent) (second : Bool)
  /-- The session key is exchanged again after an identity error. -/
  | rekeying (sent : Sent) (refusal : Refusal) (wait : KeyWait)
  /-- The call waits for a recovery login. -/
  | joined (sent : Sent) (refusal : Refusal) (login : ℕ)
  | recovered (sent : Sent) (refusal : Refusal) (recovery : SessionRecovery)
  | returned (body : Body)
  | threw (failure : Failure)
  deriving DecidableEq, Repr

structure Post where
  host : Host
  authed : Bool
  retry : SignedRetry := {}
  pc : PostPc
  deriving DecidableEq, Repr

/-- How `attemptLogin` ends. -/
inductive LoginResult
  | ok
  | captcha (retry : Bool)
  | twoFactor
  | threw (failure : Failure)
  deriving DecidableEq, Repr

/-- Where an `attemptLogin` is. -/
inductive LoginPc
  | estimating
  | keying (wait : KeyWait)
  | posting (post : Post)
  | generatingCaptcha (wrong : Bool) (post : Post)
  | sendingVerifyCode (post : Post)
  | rekeying (wait : KeyWait)
  /-- Behind the round trip, before the `finally`. -/
  | ending (result : LoginResult)
  | done (result : LoginResult)
  deriving DecidableEq, Repr

structure Login where
  isVerify : Bool
  /-- Whether it replaces a rejected token. -/
  recovery : Bool
  pc : LoginPc
  deriving DecidableEq, Repr

inductive Thread
  | post (post : Post)
  | login (login : Login)
  deriving DecidableEq, Repr

structure State extends Client where
  threads : List Thread := []
  deriving DecidableEq, Repr

namespace State

variable (cfg : Config)

/-- An `attemptLogin` up to its first await. -/
def startLogin (s : State) (isVerify recovery : Bool) (now : ℤ) : State :=
  let pc := if cfg.region then .keying (s.ensureSessionKey .mega now) else .estimating
  { s with
    loggingIn := true
    threads := s.threads ++ [.login { isVerify, recovery, pc }] }

/-- The result of a recovery login whose promise has settled. -/
def settledLogin (s : State) (i : ℕ) : Option LoginResult :=
  match s.threads[i]? with
  | some (.login { pc := .done result, .. }) =>
    if s.reauthAttempt = some i then none else some result
  | _ => none

end State

/-- A call up to its first await. -/
def Client.postSigned (s : Client) (host : Host) (authed : Bool) (retry : SignedRetry)
    (now : ℤ) : Post :=
  { host, authed, retry, pc := .keying (s.ensureSessionKey host now) }

namespace Post

variable (cfg : Config)

/-- `recoverRejectedSession` up to its await, or to its end where it has none. -/
def recoverRejectedSession (p : Post) (s : State) (sent : Sent) (refusal : Refusal) (now : ℤ) :
    State × Post :=
  if s.sessionReplacedSince sent.sentToken then
    (s, { p with pc := .recovered sent refusal .retry })
  else
    match s.reauthAttempt with
    | some login => (s, { p with pc := .joined sent refusal login })
    | none =>
      let hydrated := s.hydrateFromStore now
      let s := { s with toClient := hydrated.1 }
      if hydrated.2 && s.sessionReplacedSince sent.sentToken then
        (s, { p with pc := .recovered sent refusal .retry })
      else if !s.canReauthenticate cfg then
        (s, { p with pc := .recovered sent refusal .unrecoverable })
      else if !s.recoveryDue now then
        (s, { p with pc := .recovered sent refusal .heldOff })
      else
        let dropped :=
          { s with
            toClient :=
              { s.toClient with
                recoveries := s.recoveries + 1
                lastRecoveryAt := now
                log := .recovery now :: s.log }.clearSession }
        let login := s.threads.length
        ({ dropped.startLogin cfg false true now with reauthAttempt := some login },
          { p with pc := .joined sent refusal login })

/-- What a call does about a token that is finished, with the answer to its recovery. -/
def conclude (p : Post) (s : State) (sent : Sent) (refusal : Refusal) (now : ℤ) :
    SessionRecovery → State × Post
  | .retry => (s, s.postSigned p.host p.authed { p.retry with reauth := true } now)
  | recovery =>
    ({ s with
      toClient := if s.sessionReplacedSince sent.sentToken then s.toClient
        else s.clearSession },
      { p with pc := .threw (.sessionExpired refusal (decide (recovery = .heldOff))) })

/-- Is the session key exchanged again for this refusal? -/
def rekeys (p : Post) (s : Client) (refusal : Refusal) : Bool :=
  p.authed && refusal.identityError && !p.retry.identity && s.auth.isSome

/-- Does the refusal mean that the token is finished? -/
def tokenFinished (p : Post) (refusal : Refusal) : Bool :=
  (p.authed && refusal.identityError && p.retry.identity) ||
    (p.authed && refusal.status = 401 && tokenRejected refusal.code refusal.msg)

/-- The end of the probe: a refusal that no other content type is tried for. -/
def refused (p : Post) (s : State) (sent : Sent) (refusal : Refusal) (now : ℤ) : State × Post :=
  if p.rekeys s.toClient refusal then
    let s := { s with toClient := s.dropKey p.host }
    (s, { p with pc := .rekeying sent refusal (s.ensureSessionKey p.host now) })
  else if p.tokenFinished refusal then
    if p.retry.reauth then p.conclude s sent refusal now .unrecoverable
    else p.recoverRejectedSession cfg s sent refusal now
  else (s, { p with pc := .threw (.megaApi refusal) })

/-- The token `authTokenHeaders` puts into a request. -/
def token (p : Post) (s : Client) : Option Auth := if p.authed then s.auth else none

/-- A call with the answer to its request. -/
def answered (p : Post) (s : State) (sent : Sent) (second : Bool) (now : ℤ) :
    Answer → State × Post
  | .success body =>
    ({ s with toClient := if p.authed then s.noteSessionWorking now else s.toClient },
      { p with pc := .returned body })
  | .undecryptable =>
    ({ s with toClient := if p.authed then s.noteSessionWorking now else s.toClient },
      { p with pc := .threw .undecryptable })
  | .network => (s, { p with pc := .threw .network })
  | .refused refusal =>
    if refusal.retryable && !second then
      (s, { p with pc := .sent { sent with used := p.token s.toClient } true })
    else p.refused cfg s sent refusal now

/-- A call with the answer to a key exchange. -/
def exchanged (p : Post) (s : State) (now : ℤ) (answer : Exchange) : Option (State × Post) :=
  let result := s.toClient.exchanged p.host now answer
  match p.pc with
  | .keying .exchanging =>
    some ({ s with toClient := result.1 }, { p with pc := .keying result.2 })
  | .rekeying sent refusal .exchanging =>
    some ({ s with toClient := result.1 }, { p with pc := .rekeying sent refusal result.2 })
  | _ => none

/-- A call behind an await that has settled. -/
def run (p : Post) (s : State) (now : ℤ) : Option (State × Post) :=
  match p.pc with
  | .keying (.held entry) =>
    some (s, { p with
      pc := .sent
        { entry, sentToken := (p.token s.toClient).map Auth.authToken,
          used := p.token s.toClient } false })
  | .keying (.failed failure) => some (s, { p with pc := .threw failure })
  | .rekeying _ _ (.held _) =>
    let s := { s with toClient := s.persist }
    some (s, s.postSigned p.host p.authed { p.retry with identity := true } now)
  | .rekeying _ refusal (.failed _) =>
    some ({ s with toClient := s.clearSession },
      { p with pc := .threw (.reexchangeRejected refusal) })
  | .joined sent refusal login =>
    (s.settledLogin login).map fun result =>
      (s, { p with
        pc := .recovered sent refusal (if result = .ok then .retry else .unrecoverable) })
  | .recovered sent refusal recovery => some (p.conclude s sent refusal now recovery)
  | _ => none

end Post

/-! ## Logins -/

namespace Login

variable (cfg : Config)

/-- The login round trip with the data of its answer. -/
def loggedIn (l : Login) (s : State) (body : Body) (now : ℤ) : State × Login :=
  if body.userId = "" || body.authToken = "" then
    (s, { l with pc := .ending (.threw .noSession) })
  else
    let auth : Auth :=
      { userId := body.userId, authToken := body.authToken, geoKey := body.geoKey,
        obtained := s.obtained + 1 }
    if !l.isVerify && body.faInfo ≠ "" then
      let s := { s with
        auth := some auth, obtained := s.obtained + 1, pendingCaptchaId := none
        pending2fa := true }
      (s, { l with pc := .sendingVerifyCode (s.postSigned .mega true {} now) })
    else
      let s := { s with
        auth := some auth, obtained := s.obtained + 1, pendingCaptchaId := none
        pending2fa := false, tokenExpiresAt := body.tokenExpiresAt, sessionKey := none }
      (s, { l with pc := .rekeying (s.ensureSessionKey .mega now) })

/-- The round trip with the end of one of its calls. -/
def posted (l : Login) (s : State) (now : ℤ) : Option (State × Login) :=
  match l.pc with
  | .posting { pc := .returned body, .. } => some (l.loggedIn s body now)
  | .posting { pc := .threw failure, .. } =>
    if failure.mentions EufyCloudErrorCode.CAPTCHA_REQUIRED ||
        failure.mentions EufyCloudErrorCode.CAPTCHA_WRONG then
      some (s, { l with
        pc := .generatingCaptcha (failure.mentions EufyCloudErrorCode.CAPTCHA_WRONG)
          (s.postSigned .mega false {} now) })
    else some (s, { l with pc := .ending (.threw failure) })
  | .generatingCaptcha wrong { pc := .returned body, .. } =>
    some ({ s with pendingCaptchaId := body.captchaId },
      { l with pc := .ending (.captcha wrong) })
  | .generatingCaptcha _ { pc := .threw failure, .. } =>
    some (s, { l with pc := .ending (.threw failure) })
  | .sendingVerifyCode { pc := .returned _, .. } =>
    some (s, { l with pc := .ending .twoFactor })
  | .sendingVerifyCode { pc := .threw failure, .. } =>
    some (s, { l with pc := .ending (.threw failure) })
  | _ => none

/-- The call of its own a login waits for. -/
def post? (l : Login) : Option Post :=
  match l.pc with
  | .posting post | .generatingCaptcha _ post | .sendingVerifyCode post => some post
  | _ => none

def withPost (l : Login) (post : Post) : Login :=
  match l.pc with
  | .posting _ => { l with pc := .posting post }
  | .generatingCaptcha wrong _ => { l with pc := .generatingCaptcha wrong post }
  | .sendingVerifyCode _ => { l with pc := .sendingVerifyCode post }
  | _ => l

/-- A login with the answer to a key exchange. -/
def exchanged (l : Login) (s : State) (now : ℤ) (answer : Exchange) : Option (State × Login) :=
  let result := s.toClient.exchanged .mega now answer
  match l.pc with
  | .keying .exchanging =>
    some ({ s with toClient := result.1 }, { l with pc := .keying result.2 })
  | .rekeying .exchanging =>
    some ({ s with toClient := result.1 }, { l with pc := .rekeying result.2 })
  | _ => none

/-- A login behind an await that has settled. -/
def run (l : Login) (s : State) (now : ℤ) : Option (State × Login) :=
  match l.pc with
  | .keying (.held _) =>
    some (s, { l with pc := .posting (s.postSigned .mega s.auth.isSome {} now) })
  | .keying (.failed failure) => some (s, { l with pc := .ending (.threw failure) })
  | .rekeying (.held _) =>
    some ({ s with toClient := s.persist }, { l with pc := .ending .ok })
  | .rekeying (.failed failure) => some (s, { l with pc := .ending (.threw failure) })
  | .ending result => some ({ s with loggingIn := false }, { l with pc := .done result })
  | _ => l.posted s now

end Login

/-! ## Steps -/

inductive Label
  | postSigned (host : Host) (authed : Bool) (now : ℤ)
  | login (now : ℤ)
  | solveCaptcha (now : ℤ)
  | submitVerifyCode (code : String) (now : ℤ)
  | clearSession
  /-- Another client that shares the store writes to it. -/
  | store (saved : Option PersistedSession)
  | estimated (i : ℕ) (ok : Bool) (now : ℤ)
  | exchanged (i : ℕ) (answer : Exchange) (now : ℤ)
  | answered (i : ℕ) (answer : Answer) (now : ℤ)
  /-- A thread goes on behind an await that has settled. -/
  | run (i : ℕ) (now : ℤ)
  /-- The promise of the recovery login settles. -/
  | settleReauth

namespace State

def setPost (s : State) (i : ℕ) (p : Post) : State :=
  { s with threads := s.threads.set i (.post p) }

def setLogin (s : State) (i : ℕ) (l : Login) : State :=
  { s with threads := s.threads.set i (.login l) }

end State

/-- A new client over what its store holds. -/
def fresh (saved : Option PersistedSession) (now : ℤ) : State :=
  { toClient := (({ store := saved } : Client).hydrateFromStore now).1 }

variable (cfg : Config)

/-- The signed call of a thread, if it is in one. -/
def Thread.post? : Thread → Option Post
  | .post p => some p
  | .login l => l.post?

/-- The thread with its call where that has got to. -/
def State.setCall (s : State) (i : ℕ) (p : Post) : State :=
  { s with
    threads := s.threads.modify i fun
      | .post _ => .post p
      | .login l => .login (l.withPost p) }

def stepEstimated (s : State) (i : ℕ) (ok : Bool) (now : ℤ) : Option State :=
  match s.threads[i]? with
  | some (.login l) =>
    if l.pc = .estimating then
      some (s.setLogin i { l with
        pc := if ok then .keying (s.ensureSessionKey .mega now)
          else .ending (.threw .network) })
    else none
  | _ => none

def stepExchanged (s : State) (i : ℕ) (answer : Exchange) (now : ℤ) : Option State := do
  let thread ← s.threads[i]?
  match thread.post?, thread with
  | some p, _ => (p.exchanged s now answer).map fun r => r.1.setCall i r.2
  | none, .login l => (l.exchanged s now answer).map fun r => r.1.setLogin i r.2
  | none, .post _ => none

def stepAnswered (s : State) (i : ℕ) (answer : Answer) (now : ℤ) : Option State := do
  let thread ← s.threads[i]?
  let p ← thread.post?
  match p.pc with
  | .sent sent second =>
    let r := p.answered cfg s sent second now answer
    some (r.1.setCall i r.2)
  | _ => none

def stepRun (s : State) (i : ℕ) (now : ℤ) : Option State := do
  let thread ← s.threads[i]?
  match thread with
  | .post p => (p.run s now).map fun r => r.1.setCall i r.2
  | .login l =>
    match l.post? >>= fun p => p.run s now with
    | some r => some (r.1.setCall i r.2)
    | none => (l.run s now).map fun r => r.1.setLogin i r.2

def step (s : State) : Label → Option State
  | .postSigned host authed now =>
    some { s with threads := s.threads ++ [.post (s.postSigned host authed {} now)] }
  | .login now =>
    if s.auth.isSome && s.sessionKey.isSome && !s.pending2fa then some s
    else some (s.startLogin cfg false false now)
  | .solveCaptcha now =>
    if s.captchaPending then some (s.startLogin cfg false false now) else some s
  | .submitVerifyCode code now => some (s.startLogin cfg (code ≠ "") false now)
  | .clearSession => some { s with toClient := s.toClient.clearSession }
  | .store saved => some { s with store := saved }
  | .estimated i ok now => stepEstimated s i ok now
  | .exchanged i answer now => stepExchanged s i answer now
  | .answered i answer now => stepAnswered cfg s i answer now
  | .run i now => stepRun s i now
  | .settleReauth =>
    match s.reauthAttempt with
    | some i =>
      match s.threads[i]? with
      | some (.login { pc := .done _, .. }) => some { s with reauthAttempt := none }
      | _ => none
    | none => none

end EufySdk.MegaClient
