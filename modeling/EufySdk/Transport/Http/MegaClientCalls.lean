import Mathlib.Tactic
import EufySdk.Lib.Machine
import EufySdk.Transport.Http.MegaClient

/-!
# What a rejected call does to the session

A call that is answered with a rejection may exchange the session key again, adopt the session
its store holds, start a recovery login, or give up and forget the session. Which of these it
does is decided in three functions, each by flags of its own; here each is one predicate on the
state and the answer, and the client behind the step follows from them.

- `Post.act` — the part of a step that is a call's own
- `Clears`, `Consults` — the steps that forget the session, and those that look into the store
- `rejected_call_spares_login_iff` — rejections while a login is pending
- `stale_rejection_iff` — rejections that come after a newer token or key
-/

namespace EufySdk.MegaClient

open Machine

variable {cfg : Config}

/-! ## Calls -/

/-- The thread a label is about. -/
def Label.thread : Label → Option ℕ
  | .estimated i _ _ | .exchanged i _ _ | .answered i _ _ | .run i _ => some i
  | _ => none

namespace Post

/-- What a call does when its thread goes on. -/
def act (cfg : Config) (p : Post) (s : State) : Label → Option (State × Post)
  | .exchanged _ answer now => p.exchanged s now answer
  | .answered _ answer now =>
    match p.pc with
    | .sent sent second => some (p.answered cfg s sent second now answer)
    | _ => none
  | .run _ now => p.run s now
  | _ => none

/-- Is the refusal the last word on the token of the call? -/
def finished (p : Post) (s : Client) (second : Bool) (refusal : Refusal) : Bool :=
  !(refusal.retryable && !second) && !p.rekeys s refusal && p.tokenFinished refusal

/-- Does the call look for another session than the one it was sent with? -/
def consults (p : Post) (s : Client) (sent : Sent) : Bool :=
  !p.retry.reauth && !s.sessionReplacedSince sent.sentToken && s.reauthAttempt.isNone

/-- Does a call that looks start a recovery login? -/
def startsRecovery (cfg : Config) (s : Client) (sent : Sent) (now : ℤ) : Bool :=
  !((s.hydrateFromStore now).2 && (s.hydrateFromStore now).1.sessionReplacedSince sent.sentToken) &&
    s.canReauthenticate cfg && s.recoveryDue now

end Post

/-- The steps of a call that forget the session. -/
inductive Clears (cfg : Config) (s : State) (p : Post) : Label → Prop
  /-- The session key could not be exchanged again. -/
  | reexchange (i : ℕ) (now : ℤ) (sent : Sent) (refusal : Refusal) (failure : Failure)
    (hpc : p.pc = .rekeying sent refusal (.failed failure)) : Clears cfg s p (.run i now)
  /-- Nothing could be done about a finished token. -/
  | unrecovered (i : ℕ) (now : ℤ) (sent : Sent) (refusal : Refusal) (recovery : SessionRecovery)
    (hpc : p.pc = .recovered sent refusal recovery) (hrecovery : recovery ≠ .retry)
    (hheld : s.sessionReplacedSince sent.sentToken = false) : Clears cfg s p (.run i now)
  /-- The token of a call that has logged in again already is finished too. -/
  | spent (i : ℕ) (now : ℤ) (sent : Sent) (second : Bool) (refusal : Refusal)
    (hpc : p.pc = .sent sent second) (hfinished : p.finished s.toClient second refusal = true)
    (hreauth : p.retry.reauth = true)
    (hheld : s.sessionReplacedSince sent.sentToken = false) :
    Clears cfg s p (.answered i (.refused refusal) now)
  /-- A recovery login begins with the session gone. -/
  | recovers (i : ℕ) (now : ℤ) (sent : Sent) (second : Bool) (refusal : Refusal)
    (hpc : p.pc = .sent sent second) (hfinished : p.finished s.toClient second refusal = true)
    (hconsults : p.consults s.toClient sent = true)
    (hstarts : Post.startsRecovery cfg s.toClient sent now = true) :
    Clears cfg s p (.answered i (.refused refusal) now)

/-- The steps of a call that look into the store, without a recovery login behind it. -/
inductive Adopts (cfg : Config) (s : State) (p : Post) : ℤ → Label → Prop
  | store (i : ℕ) (now : ℤ) (sent : Sent) (second : Bool) (refusal : Refusal)
    (hpc : p.pc = .sent sent second) (hfinished : p.finished s.toClient second refusal = true)
    (hconsults : p.consults s.toClient sent = true)
    (hstarts : Post.startsRecovery cfg s.toClient sent now = false) :
    Adopts cfg s p now (.answered i (.refused refusal) now)

/-- The steps of a call that drop its session key to exchange it again. -/
inductive Rekeys (s : State) (p : Post) : Label → Prop
  | identity (i : ℕ) (now : ℤ) (sent : Sent) (second : Bool) (refusal : Refusal)
    (hpc : p.pc = .sent sent second) (hlast : (refusal.retryable && !second) = false)
    (hrekeys : p.rekeys s.toClient refusal = true) :
    Rekeys s p (.answered i (.refused refusal) now)

/-! ## The client behind a step of a call -/

/-- No token and no key of the session is left, and nothing that was pending. -/
structure Cleared (s t : Client) : Prop where
  auth : t.auth = none
  sessionKey : t.sessionKey = none
  sessionKeys : t.sessionKeys = s.sessionKeys
  pendingCaptchaId : t.pendingCaptchaId = none
  pending2fa : t.pending2fa = false
  store : t.store = none

theorem cleared_clearSession (s : Client) : Cleared s s.clearSession :=
  ⟨rfl, rfl, rfl, rfl, rfl, rfl⟩

/-- What adopting the stored session leaves alone. -/
structure HydratedFrom (s t : Client) : Prop where
  sessionKeys : t.sessionKeys = s.sessionKeys
  pendingCaptchaId : t.pendingCaptchaId = s.pendingCaptchaId
  pending2fa : t.pending2fa = s.pending2fa
  store : t.store = s.store
  loggingIn : t.loggingIn = s.loggingIn
  reauthAttempt : t.reauthAttempt = s.reauthAttempt
  recoveries : t.recoveries = s.recoveries
  lastRecoveryAt : t.lastRecoveryAt = s.lastRecoveryAt
  log : t.log = s.log

theorem hydratedFrom_hydrateFromStore (s : Client) (now : ℤ) :
    HydratedFrom s (s.hydrateFromStore now).1 := by
  rw [Client.hydrateFromStore]
  split
  · exact ⟨rfl, rfl, rfl, rfl, rfl, rfl, rfl, rfl, rfl⟩
  · split
    · exact ⟨rfl, rfl, rfl, rfl, rfl, rfl, rfl, rfl, rfl⟩
    · exact ⟨rfl, rfl, rfl, rfl, rfl, rfl, rfl, rfl, rfl⟩

/-- What decides about a recovery login does not depend on the store. -/
theorem recovery_hydrated (s : Client) (now : ℤ) :
    (s.hydrateFromStore now).1.canReauthenticate cfg = s.canReauthenticate cfg ∧
      (s.hydrateFromStore now).1.recoveryDue now = s.recoveryDue now := by
  have h := hydratedFrom_hydrateFromStore s now
  constructor
  · rw [Client.canReauthenticate, Client.canReauthenticate, h.loggingIn, h.pending2fa]
  · rw [Client.recoveryDue, Client.recoveryDue, h.recoveries, h.lastRecoveryAt]

namespace Post

/-- What `recoverRejectedSession` does to the client. -/
theorem recoverRejectedSession_client (cfg : Config) (p : Post) (s : State) (sent : Sent)
    (refusal : Refusal) (now : ℤ) (hreauth : p.retry.reauth = false) :
    (p.consults s.toClient sent = false ∧
        (p.recoverRejectedSession cfg s sent refusal now).1.toClient = s.toClient) ∨
      (p.consults s.toClient sent = true ∧ startsRecovery cfg s.toClient sent now = false ∧
        (p.recoverRejectedSession cfg s sent refusal now).1.toClient =
          (s.hydrateFromStore now).1) ∨
      (p.consults s.toClient sent = true ∧ startsRecovery cfg s.toClient sent now = true ∧
        Cleared s.toClient (p.recoverRejectedSession cfg s sent refusal now).1.toClient) := by
  obtain ⟨hcan, hdue⟩ := @recovery_hydrated cfg s.toClient now
  rw [recoverRejectedSession]
  split
  · rename_i hreplaced
    exact .inl ⟨by simp [consults, hreplaced], rfl⟩
  rename_i hheld
  split
  · rename_i login hattempt
    exact .inl ⟨by simp [consults, hattempt], rfl⟩
  rename_i hattempt
  have hconsults : p.consults s.toClient sent = true := by
    simp [consults, hreauth, hheld, hattempt]
  dsimp only
  split
  · rename_i hadopted
    exact .inr (.inl ⟨hconsults, by simp [startsRecovery, hadopted], rfl⟩)
  rename_i hadopted
  split
  · rename_i hcannot
    refine .inr (.inl ⟨hconsults, ?_, rfl⟩)
    simp only [hcan, Bool.not_eq_true'] at hcannot
    simp [startsRecovery, hcannot]
  rename_i hcannot
  split
  · rename_i hnotDue
    refine .inr (.inl ⟨hconsults, ?_, rfl⟩)
    simp only [hdue, Bool.not_eq_true'] at hnotDue
    simp [startsRecovery, hnotDue]
  · rename_i hnotDue
    simp only [hcan, hdue, Bool.not_eq_true', Bool.not_eq_false] at hcannot hnotDue
    refine .inr (.inr ⟨hconsults, ?_, ?_⟩)
    · rw [startsRecovery, hcannot, hnotDue, eq_false_of_ne_true hadopted]
      rfl
    · exact ⟨rfl, rfl, (hydratedFrom_hydrateFromStore s.toClient now).sessionKeys, rfl, rfl, rfl⟩

theorem conclude_replaced (p : Post) (s : State) (sent : Sent) (refusal : Refusal) (now : ℤ)
    {recovery : SessionRecovery}
    (h : recovery = .retry ∨ s.sessionReplacedSince sent.sentToken = true) :
    (p.conclude s sent refusal now recovery).1.toClient = s.toClient := by
  cases recovery with
  | retry => rfl
  | unrecoverable => exact if_pos (h.resolve_left nofun)
  | heldOff => exact if_pos (h.resolve_left nofun)

theorem conclude_held (p : Post) (s : State) (sent : Sent) (refusal : Refusal) (now : ℤ)
    {recovery : SessionRecovery} (hrecovery : recovery ≠ .retry)
    (hheld : s.sessionReplacedSince sent.sentToken = false) :
    (p.conclude s sent refusal now recovery).1.toClient = s.clearSession := by
  cases recovery with
  | retry => exact absurd rfl hrecovery
  | unrecoverable => exact if_neg (by rw [hheld]; decide)
  | heldOff => exact if_neg (by rw [hheld]; decide)

/-- A refusal that ends the probe, where the session key is not exchanged again for it. -/
theorem answered_refused (cfg : Config) (p : Post) (s : State) (sent : Sent) {second : Bool}
    (now : ℤ) {refusal : Refusal} (h : p.finished s.toClient second refusal = true) :
    p.answered cfg s sent second now (.refused refusal) =
      if p.retry.reauth then p.conclude s sent refusal now .unrecoverable
      else p.recoverRejectedSession cfg s sent refusal now := by
  simp only [finished, Bool.and_eq_true, Bool.not_eq_true'] at h
  obtain ⟨⟨hlast, hrekeys⟩, hfinished⟩ := h
  rw [answered, if_neg (by rw [hlast]; decide), refused, if_neg (by rw [hrekeys]; decide),
    if_pos hfinished]

end Post

/-- A forgetting step forgets. -/
theorem cleared_of_clears {s : State} {p : Post} {a : Label} {r : State × Post}
    (h : p.act cfg s a = some r) (hclears : Clears cfg s p a) : Cleared s.toClient r.1.toClient := by
  cases hclears with
  | reexchange i now sent refusal failure hpc =>
    rw [Post.act, Post.run, hpc] at h
    cases h
    exact cleared_clearSession s.toClient
  | unrecovered i now sent refusal recovery hpc hrecovery hheld =>
    rw [Post.act, Post.run, hpc] at h
    cases h
    rw [p.conclude_held s sent refusal now hrecovery hheld]
    exact cleared_clearSession s.toClient
  | spent i now sent second refusal hpc hfinished hreauth hheld =>
    rw [Post.act, hpc] at h
    cases h
    have hnoRetry : SessionRecovery.unrecoverable ≠ .retry := nofun
    rw [p.answered_refused cfg s sent now hfinished, if_pos hreauth,
      p.conclude_held s sent refusal now hnoRetry hheld]
    exact cleared_clearSession s.toClient
  | recovers i now sent second refusal hpc hfinished hconsults hstarts =>
    rw [Post.act, hpc] at h
    cases h
    have hreauth : p.retry.reauth = false := by
      simp only [Post.consults, Bool.and_eq_true, Bool.not_eq_true'] at hconsults
      exact hconsults.1.1
    rw [p.answered_refused cfg s sent now hfinished, if_neg (by rw [hreauth]; decide)]
    obtain ⟨hnot, -⟩ | ⟨-, hnot, -⟩ | ⟨-, -, hcleared⟩ :=
      p.recoverRejectedSession_client cfg s sent refusal now hreauth
    · rw [hnot] at hconsults
      cases hconsults
    · rw [hnot] at hstarts
      cases hstarts
    · exact hcleared

theorem hydrated_of_adopts {s : State} {p : Post} {a : Label} {now : ℤ} {r : State × Post}
    (h : p.act cfg s a = some r) (hadopts : Adopts cfg s p now a) :
    r.1.toClient = (s.hydrateFromStore now).1 := by
  obtain ⟨i, now, sent, second, refusal, hpc, hfinished, hconsults, hstarts⟩ := hadopts
  rw [Post.act, hpc] at h
  cases h
  have hreauth : p.retry.reauth = false := by
    simp only [Post.consults, Bool.and_eq_true, Bool.not_eq_true'] at hconsults
    exact hconsults.1.1
  rw [p.answered_refused cfg s sent now hfinished, if_neg (by rw [hreauth]; decide)]
  obtain ⟨hnot, -⟩ | ⟨-, -, hclient⟩ | ⟨-, hnot, -⟩ :=
    p.recoverRejectedSession_client cfg s sent refusal now hreauth
  · rw [hnot] at hconsults
    cases hconsults
  · exact hclient
  · rw [hnot] at hstarts
    cases hstarts

theorem dropped_of_rekeys {s : State} {p : Post} {a : Label} {r : State × Post}
    (h : p.act cfg s a = some r) (hrekeys : Rekeys s p a) :
    r.1.toClient = s.dropKey p.host := by
  obtain ⟨i, now, sent, second, refusal, hpc, hlast, hrekeys⟩ := hrekeys
  rw [Post.act, hpc] at h
  cases h
  rw [Post.answered, if_neg (by rw [hlast]; decide), Post.refused, if_pos hrekeys]

/-- What every other step of a call leaves alone: a key may come, and none goes. -/
structure Spared (s t : Client) : Prop where
  auth : t.auth = s.auth
  pendingCaptchaId : t.pendingCaptchaId = s.pendingCaptchaId
  pending2fa : t.pending2fa = s.pending2fa
  heldKey : ∀ host, t.heldKey host = s.heldKey host ∨
    ∃ entry, t.heldKey host = some entry ∧ entry.obtained = s.obtained + 1

theorem spared_of_eq {s t : Client} (h : t = s) : Spared s t := by
  subst h
  exact ⟨rfl, rfl, rfl, fun _ => .inl rfl⟩

theorem spared_exchanged (s : Client) (host : Host) (now : ℤ) (answer : Exchange) :
    Spared s (s.exchanged host now answer).1 := by
  cases answer with
  | refused refusal => exact spared_of_eq rfl
  | network => exact spared_of_eq rfl
  | granted keyIdent shareKey =>
    cases host with
    | mega =>
      refine ⟨rfl, rfl, rfl, fun other => ?_⟩
      cases other with
      | mega => exact .inr ⟨_, rfl, rfl⟩
      | eufylife other => exact .inl rfl
    | eufylife host =>
      refine ⟨rfl, rfl, rfl, fun other => ?_⟩
      cases other with
      | mega => exact .inl rfl
      | eufylife other =>
        rw [Client.exchanged, Client.setKey, Client.heldKey, OrderedMap.get_set]
        split
        · exact .inr ⟨_, rfl, rfl⟩
        · exact .inl rfl

theorem spared_noteSessionWorking (s : Client) (authed : Bool) (now : ℤ) :
    Spared s (if authed then s.noteSessionWorking now else s) := by
  rw [Client.noteSessionWorking]
  split_ifs <;> exact ⟨rfl, rfl, rfl, fun host => by cases host <;> exact .inl rfl⟩

theorem spared_persist (s : Client) : Spared s s.persist := by
  rw [Client.persist]
  split <;> exact ⟨rfl, rfl, rfl, fun host => by cases host <;> exact .inl rfl⟩

theorem spared_refused {s : State} {p : Post} {sent : Sent} {second : Bool} {refusal : Refusal}
    {i : ℕ} {now : ℤ} (hpc : p.pc = .sent sent second)
    (hclears : ¬Clears cfg s p (.answered i (.refused refusal) now))
    (hadopts : ¬Adopts cfg s p now (.answered i (.refused refusal) now))
    (hrekeys : ¬Rekeys s p (.answered i (.refused refusal) now)) :
    Spared s.toClient (p.answered cfg s sent second now (.refused refusal)).1.toClient := by
  by_cases hfinished : p.finished s.toClient second refusal = true
  · rw [p.answered_refused cfg s sent now hfinished]
    by_cases hreauth : p.retry.reauth = true
    · rw [if_pos hreauth]
      apply spared_of_eq
      apply p.conclude_replaced s sent refusal now
      right
      by_contra hheld
      exact hclears (.spent i now sent second refusal hpc hfinished hreauth
        (eq_false_of_ne_true hheld))
    · rw [if_neg hreauth]
      obtain ⟨-, hclient⟩ | ⟨hconsults, hstarts, -⟩ | ⟨hconsults, hstarts, -⟩ :=
        p.recoverRejectedSession_client cfg s sent refusal now
          (eq_false_of_ne_true hreauth)
      · exact spared_of_eq hclient
      · exact absurd (.store i now sent second refusal hpc hfinished hconsults hstarts) hadopts
      · exact absurd (.recovers i now sent second refusal hpc hfinished hconsults hstarts) hclears
  · rw [Post.answered]
    split
    · exact spared_of_eq rfl
    · rename_i hlast
      rw [Post.refused]
      have hnoKey : p.rekeys s.toClient refusal = false := by
        by_contra hkey
        exact hrekeys (.identity i now sent second refusal hpc (eq_false_of_ne_true hlast)
          (eq_true_of_ne_false hkey))
      rw [if_neg (by rw [hnoKey]; decide), if_neg]
      · exact spared_of_eq rfl
      · intro hdone
        exact hfinished (by simp [Post.finished, hnoKey, hdone, eq_false_of_ne_true hlast])

/-- The other steps of a call spare the session. -/
theorem spared_act {s : State} {p : Post} {a : Label} {r : State × Post}
    (h : p.act cfg s a = some r) (hclears : ¬Clears cfg s p a)
    (hadopts : ∀ now, ¬Adopts cfg s p now a) (hrekeys : ¬Rekeys s p a) :
    Spared s.toClient r.1.toClient := by
  cases a with
  | exchanged i answer now =>
    simp only [Post.act, Post.exchanged] at h
    split at h
    · cases h
      exact spared_exchanged s.toClient p.host now answer
    · cases h
      exact spared_exchanged s.toClient p.host now answer
    · cases h
  | answered i answer now =>
    simp only [Post.act] at h
    split at h
    · rename_i sent second hpc
      cases h
      cases answer with
      | success body => exact spared_noteSessionWorking s.toClient p.authed now
      | undecryptable => exact spared_noteSessionWorking s.toClient p.authed now
      | network => exact spared_of_eq rfl
      | refused refusal => exact spared_refused hpc hclears (hadopts now) hrekeys
    · cases h
  | run i now =>
    simp only [Post.act, Post.run] at h
    split at h
    · cases h
      exact spared_of_eq rfl
    · cases h
      exact spared_of_eq rfl
    · cases h
      exact spared_persist s.toClient
    · rename_i sent refusal failure hpc
      exact absurd (.reexchange i now _ refusal _ hpc) hclears
    · obtain ⟨result, -, rfl⟩ := Option.map_eq_some_iff.mp h
      exact spared_of_eq rfl
    · rename_i sent refusal recovery hpc
      cases h
      apply spared_of_eq
      apply p.conclude_replaced s sent refusal now
      by_cases hrecovery : recovery = .retry
      · exact .inl hrecovery
      · right
        by_contra hheld
        exact hclears (.unrecovered i now sent refusal recovery hpc hrecovery
          (eq_false_of_ne_true hheld))
    · cases h
  | _ => cases h

/-! ## Data calls while a login is pending -/

def Thread.isPost : Thread → Bool
  | .post _ => true
  | .login _ => false

theorem isPost_iff {thread : Thread} : thread.isPost = true ↔ ∃ p, thread = .post p := by
  cases thread with
  | post p => exact ⟨fun _ => ⟨p, rfl⟩, fun _ => rfl⟩
  | login l => exact ⟨nofun, fun ⟨p, hp⟩ => (by cases hp)⟩

/-- A step of a thread is one of its call, where its call can go on. -/
theorem step_call {s : State} {a : Label} {i : ℕ} {thread : Thread} {p : Post} {r : State × Post}
    (hthread : a.thread = some i) (hi : s.threads[i]? = some thread) (hp : thread.post? = some p)
    (hact : p.act cfg s a = some r) : step cfg s a = some (r.1.setCall i r.2) := by
  cases a with
  | exchanged j answer now =>
    cases hthread
    rw [step, stepExchanged, hi]
    rw [Post.act] at hact
    simp [hp, hact]
  | answered j answer now =>
    cases hthread
    rw [step, stepAnswered, hi]
    rw [Post.act] at hact
    split at hact
    · rename_i sent second hpc
      cases hact
      simp [hp, hpc]
    · cases hact
  | run j now =>
    cases hthread
    rw [step, stepRun, hi]
    rw [Post.act] at hact
    cases thread with
    | post q =>
      obtain rfl := Option.some.inj hp
      simp [hact]
    | login l =>
      have hpost : l.post? = some p := hp
      simp [hpost, hact]
  | _ => cases hact

/-- Where the call of a data call's thread cannot go on, neither can the thread. -/
theorem step_dataCall {s : State} {a : Label} {i : ℕ} {p : Post} (hthread : a.thread = some i)
    (hi : s.threads[i]? = some (.post p)) :
    step cfg s a = (p.act cfg s a).map fun r => r.1.setCall i r.2 := by
  cases hact : p.act cfg s a with
  | some r => exact step_call hthread hi rfl hact
  | none =>
    cases a with
    | estimated j ok now =>
      cases hthread
      rw [step, stepEstimated, hi]
      rfl
    | exchanged j answer now =>
      cases hthread
      rw [Post.act] at hact
      rw [step, stepExchanged, hi]
      simp [Thread.post?, hact]
    | answered j answer now =>
      cases hthread
      rw [Post.act] at hact
      rw [step, stepAnswered, hi]
      split at hact
      · cases hact
      · simp only [Thread.post?, Option.bind_eq_bind, Option.bind_some, Option.map_none]
    | run j now =>
      cases hthread
      rw [Post.act] at hact
      rw [step, stepRun, hi]
      simp [hact]
    | _ => cases hthread

/-- A human is part-way through a login. -/
def LoginPending (s : Client) : Prop := s.pending2fa = true ∨ s.captchaPending = true

/-- What the human needs to go on with. -/
structure KeepsLogin (s t : Client) : Prop where
  pending2fa : t.pending2fa = s.pending2fa
  pendingCaptchaId : t.pendingCaptchaId = s.pendingCaptchaId
  token : t.auth.map Auth.authToken = s.auth.map Auth.authToken

/-- A step of a data call leaves a pending login as it is. -/
def SparesLogin (cfg : Config) (s : State) (a : Label) : Prop :=
  ∀ i p t, a.thread = some i → s.threads[i]? = some (.post p) → LoginPending s.toClient →
    step cfg s a = some t → KeepsLogin s.toClient t.toClient

/-- While a login is pending, no data call comes to forget the session, and none finds another
token in the store. -/
def CallsHarmless (cfg : Config) (s : State) (a : Label) : Prop :=
  ∀ i p, a.thread = some i → s.threads[i]? = some (.post p) → LoginPending s.toClient →
    ¬Clears cfg s p a ∧ ∀ now, Adopts cfg s p now a →
      (s.hydrateFromStore now).1.auth.map Auth.authToken = s.auth.map Auth.authToken

theorem not_keepsLogin_of_cleared {s t : Client} (hpending : LoginPending s) (h : Cleared s t) :
    ¬KeepsLogin s t := by
  intro hkeeps
  obtain h2fa | hcaptcha := hpending
  · have hcleared := h.pending2fa
    rw [hkeeps.pending2fa, h2fa] at hcleared
    cases hcleared
  · have hcleared := h.pendingCaptchaId
    rw [hkeeps.pendingCaptchaId] at hcleared
    rw [Client.captchaPending, hcleared] at hcaptcha
    cases hcaptcha

theorem act_isSome_of_clears {s : State} {p : Post} {a : Label} (h : Clears cfg s p a) :
    ∃ r, p.act cfg s a = some r := by
  cases h with
  | reexchange i now sent refusal failure hpc => exact ⟨_, by rw [Post.act, Post.run, hpc]⟩
  | unrecovered i now sent refusal recovery hpc hrecovery hheld =>
    exact ⟨_, by rw [Post.act, Post.run, hpc]⟩
  | spent i now sent second refusal hpc hfinished hreauth hheld =>
    exact ⟨_, by rw [Post.act, hpc]⟩
  | recovers i now sent second refusal hpc hfinished hconsults hstarts =>
    exact ⟨_, by rw [Post.act, hpc]⟩

theorem sparesLogin_iff (s : State) (a : Label) : SparesLogin cfg s a ↔ CallsHarmless cfg s a := by
  constructor
  · intro hspares i p hthread hi hpending
    constructor
    · intro hclears
      obtain ⟨r, hr⟩ := act_isSome_of_clears hclears
      have hkeeps := hspares i p _ hthread hi hpending (step_call hthread hi rfl hr)
      exact not_keepsLogin_of_cleared hpending (cleared_of_clears hr hclears) hkeeps
    · intro now hadopts
      obtain ⟨r, hr⟩ : ∃ r, p.act cfg s a = some r := by
        obtain ⟨i, now, sent, second, refusal, hpc, -⟩ := hadopts
        exact ⟨_, by rw [Post.act, hpc]⟩
      have hkeeps := hspares i p _ hthread hi hpending (step_call hthread hi rfl hr)
      rw [← hydrated_of_adopts hr hadopts]
      exact hkeeps.token
  · intro hharmless i p t hthread hi hpending hstep
    obtain ⟨hclears, hadopts⟩ := hharmless i p hthread hi hpending
    rw [step_dataCall hthread hi] at hstep
    obtain ⟨r, hr, rfl⟩ := Option.map_eq_some_iff.mp hstep
    by_cases hstore : ∃ now, Adopts cfg s p now a
    · obtain ⟨now, hstore⟩ := hstore
      have hclient : (r.1.setCall i r.2).toClient = (s.hydrateFromStore now).1 :=
        hydrated_of_adopts hr hstore
      have hkept := hydratedFrom_hydrateFromStore s.toClient now
      rw [hclient]
      exact ⟨hkept.pending2fa, hkept.pendingCaptchaId, hadopts now hstore⟩
    by_cases hrekeys : Rekeys s p a
    · have hclient : (r.1.setCall i r.2).toClient = s.dropKey p.host := dropped_of_rekeys hr hrekeys
      rw [hclient]
      cases p.host <;> exact ⟨rfl, rfl, rfl⟩
    · have hspared := spared_act hr hclears (not_exists.mp hstore) hrekeys
      exact ⟨hspared.pending2fa, hspared.pendingCaptchaId, congrArg _ hspared.auth⟩

/-- In every run of a client, data calls leave pending logins as they are exactly where none of
them forgets the session, or takes another one from the store, while a login is pending. -/
theorem rejected_call_spares_login_iff (cfg : Config) (saved : Option PersistedSession) (now : ℤ)
    (as : List Label) :
    StepsMeet (step cfg) (SparesLogin cfg) (fresh saved now) as ↔
      StepsMeet (step cfg) (CallsHarmless cfg) (fresh saved now) as :=
  @stepsMeet_congr _ _ _ _ _ (fun _ => True) _ _ trivial (fun s a _ => sparesLogin_iff s a)
    fun _ _ _ _ _ _ => trivial

/-- An account with its credentials. -/
def account : Config := { email := "a@b.c", password := "secret", region := true }

/-- A token that another login has displaced. -/
def kicked : Refusal := { status := 401, code := some 26084, msg := none }

/-- A login comes to the code a human has to enter; a data call is rejected meanwhile. -/
def rejectedDuring2fa : List Label :=
  [.login 0, .exchanged 0 (.granted "k" "s") 0, .run 0 0, .run 0 0,
    .answered 0 (.success { userId := "u", authToken := "limited", faInfo := "email" }) 0,
    .run 0 0, .run 0 0, .answered 0 (.success {}) 0, .run 0 0, .run 0 0,
    .postSigned .mega true 0, .run 1 0, .answered 1 (.refused kicked) 0]

theorem rejected_call_loses_login :
    ¬StepsMeet (step account) (SparesLogin account) (fresh none 0)
      (rejectedDuring2fa ++ [.run 1 0]) := by
  intro hmeet
  obtain ⟨s, hs⟩ := Option.isSome_iff_exists.mp
    (by decide : (exec (step account) (fresh none 0) rejectedDuring2fa).isSome)
  have hfacts : (exec (step account) (fresh none 0) rejectedDuring2fa).map (fun s =>
      (s.pending2fa, s.threads[1]?.any Thread.isPost,
        (step account s (.run 1 0)).map fun t => t.pending2fa)) =
      some (true, true, some false) := by decide
  rw [hs] at hfacts
  simp only [Option.map_some, Option.some.injEq, Prod.mk.injEq] at hfacts
  obtain ⟨hpending, hkind, hlast⟩ := hfacts
  obtain ⟨thread, hi, hpost⟩ := (Option.any_eq_true _ _).mp hkind
  obtain ⟨p, rfl⟩ := isPost_iff.mp hpost
  obtain ⟨t, ht, hlost⟩ := Option.map_eq_some_iff.mp hlast
  have hkeeps := hmeet.meets hs 1 p t rfl hi (.inl hpending) ht
  rw [hkeeps.pending2fa, hpending] at hlost
  cases hlost

/-! ## Rejections that come late -/

/-- What a call in this state was sent with. -/
def Post.sent? (p : Post) : Option Sent :=
  match p.pc with
  | .sent sent _ | .rekeying sent _ _ | .joined sent _ _ | .recovered sent _ _ => some sent
  | _ => none

/-- The session holds another token than the call was sent with, obtained after it. -/
def NewerToken (s : Client) (sent : Sent) (held : Auth) : Prop :=
  s.auth = some held ∧ (sent.used.map Auth.obtained).getD 0 < held.obtained ∧
    sent.used.map Auth.authToken ≠ some held.authToken

/-- The host has another key than the call was sent with, obtained after it. -/
def NewerKey (s : Client) (host : Host) (sent : Sent) (held : SessionEntry) : Prop :=
  s.heldKey host = some held ∧ sent.entry.obtained < held.obtained ∧
    sent.entry.keyIdent ≠ held.keyIdent

/-- Newer tokens and keys stay, or give way to one that is obtained in the step. -/
structure KeepsNewer (s t : Client) (host : Host) (sent : Sent) : Prop where
  token : ∀ held, NewerToken s sent held →
    ∃ next, t.auth = some next ∧ (next = held ∨ next.obtained = s.obtained + 1)
  key : ∀ held, NewerKey s host sent held →
    ∃ next, t.heldKey host = some next ∧ (next = held ∨ next.obtained = s.obtained + 1)

/-- A call was going to exchange its key again, and the exchange failed for the network. -/
def Post.LostNetwork (p : Post) : Prop :=
  ∃ sent refusal, p.pc = .rekeying sent refusal (.failed .network)

/-- A step of a call drops nothing that is newer than what the call was sent with, and a key
exchange that the network failed leaves the session stored and its token held. -/
def StaleSafe (cfg : Config) (s : State) (a : Label) : Prop :=
  ∀ i thread p sent t, a.thread = some i → s.threads[i]? = some thread →
    thread.post? = some p → p.sent? = some sent → (p.act cfg s a).isSome →
    step cfg s a = some t →
      KeepsNewer s.toClient t.toClient p.host sent ∧
        (p.LostNetwork → t.store = s.store ∧ t.auth = s.auth)

/-- No call comes to forget the session, or to drop its key, while the session holds a newer
token or key; and no key exchange fails for the network while a session is stored or held. -/
def AnswersTimely (cfg : Config) (s : State) (a : Label) : Prop :=
  ∀ i thread p sent, a.thread = some i → s.threads[i]? = some thread →
    thread.post? = some p → p.sent? = some sent → (p.act cfg s a).isSome →
      (Clears cfg s p a → (∀ held, ¬NewerToken s.toClient sent held) ∧
        (p.host = .mega → ∀ held, ¬NewerKey s.toClient p.host sent held)) ∧
      (Rekeys s p a → ∀ held, ¬NewerKey s.toClient p.host sent held) ∧
      (p.LostNetwork → s.store = none ∧ s.auth = none)

theorem heldKey_dropKey (s : Client) (host : Host) : (s.dropKey host).heldKey host = none := by
  cases host with
  | mega => rfl
  | eufylife host => exact OrderedMap.get_delete.trans (if_pos rfl)

theorem auth_dropKey (s : Client) (host : Host) : (s.dropKey host).auth = s.auth := by
  cases host <;> rfl

/-- A session that is adopted is obtained in the step. -/
theorem keepsNewer_hydrateFromStore (s : Client) (now : ℤ) (host : Host) (sent : Sent) :
    KeepsNewer s (s.hydrateFromStore now).1 host sent := by
  have hsame : KeepsNewer s s host sent :=
    ⟨fun held h => ⟨held, h.1, .inl rfl⟩, fun held h => ⟨held, h.1, .inl rfl⟩⟩
  rw [Client.hydrateFromStore]
  split
  · exact hsame
  split
  · refine ⟨fun held _ => ⟨_, rfl, .inr rfl⟩, fun held h => ?_⟩
    cases host with
    | mega => exact ⟨_, rfl, .inr rfl⟩
    | eufylife host => exact ⟨held, h.1, .inl rfl⟩
  · exact hsame

theorem clears_of_lostNetwork {s : State} {p : Post} {a : Label} {r : State × Post}
    (h : p.act cfg s a = some r) (hlost : p.LostNetwork) : Clears cfg s p a := by
  obtain ⟨sent, refusal, hpc⟩ := hlost
  cases a with
  | run i now => exact .reexchange i now sent refusal .network hpc
  | exchanged i answer now => simp [Post.act, Post.exchanged, hpc] at h
  | answered i answer now => simp [Post.act, hpc] at h
  | _ => cases h

/-- Where nothing newer is in the way, a step of a call keeps what is newer. -/
theorem keepsNewer_act {s : State} {p : Post} {a : Label} {r : State × Post} {sent : Sent}
    (h : p.act cfg s a = some r)
    (hclears : Clears cfg s p a → (∀ held, ¬NewerToken s.toClient sent held) ∧
      (p.host = .mega → ∀ held, ¬NewerKey s.toClient p.host sent held))
    (hrekeys : Rekeys s p a → ∀ held, ¬NewerKey s.toClient p.host sent held) :
    KeepsNewer s.toClient r.1.toClient p.host sent := by
  by_cases hforgets : Clears cfg s p a
  · have hcleared := cleared_of_clears h hforgets
    obtain ⟨htoken, hkey⟩ := hclears hforgets
    refine ⟨fun held hnewer => absurd hnewer (htoken held), fun held hnewer => ?_⟩
    cases hhost : p.host with
    | mega => exact absurd hnewer (hkey hhost held)
    | eufylife host =>
      refine ⟨held, ?_, .inl rfl⟩
      have hheld := hnewer.1
      rw [hhost, Client.heldKey] at hheld
      rw [Client.heldKey, hcleared.sessionKeys, hheld]
  by_cases hdrops : Rekeys s p a
  · rw [dropped_of_rekeys h hdrops]
    refine ⟨fun held hnewer => ⟨held, ?_, .inl rfl⟩,
      fun held hnewer => absurd hnewer (hrekeys hdrops held)⟩
    rw [auth_dropKey]
    exact hnewer.1
  by_cases hadopts : ∃ now, Adopts cfg s p now a
  · obtain ⟨now, hadopts⟩ := hadopts
    rw [hydrated_of_adopts h hadopts]
    exact keepsNewer_hydrateFromStore s.toClient now p.host sent
  · have hspared := spared_act h hforgets (not_exists.mp hadopts) hdrops
    refine ⟨fun held hnewer => ⟨held, hspared.auth.trans hnewer.1, .inl rfl⟩,
      fun held hnewer => ?_⟩
    obtain hsame | ⟨entry, hentry, hlater⟩ := hspared.heldKey p.host
    · exact ⟨held, hsame.trans hnewer.1, .inl rfl⟩
    · exact ⟨entry, hentry, .inr hlater⟩

theorem staleSafe_iff (s : State) (a : Label) : StaleSafe cfg s a ↔ AnswersTimely cfg s a := by
  constructor
  · intro hsafe i thread p sent hthread hi hp hsent hact
    obtain ⟨r, hr⟩ := Option.isSome_iff_exists.mp hact
    obtain ⟨hkeeps, hnetwork⟩ :=
      hsafe i thread p sent _ hthread hi hp hsent hact (step_call hthread hi hp hr)
    refine ⟨fun hclears => ⟨fun held hnewer => ?_, fun hhost held hnewer => ?_⟩,
      fun hrekeys held hnewer => ?_, fun hlost => ?_⟩
    · obtain ⟨next, hnext, -⟩ := hkeeps.token held hnewer
      cases (cleared_of_clears hr hclears).auth.symm.trans hnext
    · obtain ⟨next, hnext, -⟩ := hkeeps.key held hnewer
      rw [hhost] at hnext
      cases (cleared_of_clears hr hclears).sessionKey.symm.trans hnext
    · obtain ⟨next, hnext, -⟩ := hkeeps.key held hnewer
      have hclient : (r.1.setCall i r.2).toClient = s.dropKey p.host := dropped_of_rekeys hr hrekeys
      rw [hclient, heldKey_dropKey] at hnext
      cases hnext
    · have hcleared := cleared_of_clears hr (clears_of_lostNetwork hr hlost)
      obtain ⟨hstore, hauth⟩ := hnetwork hlost
      exact ⟨hstore.symm.trans hcleared.store, hauth.symm.trans hcleared.auth⟩
  · intro htimely i thread p sent t hthread hi hp hsent hact hstep
    obtain ⟨hclears, hrekeys, hnetwork⟩ := htimely i thread p sent hthread hi hp hsent hact
    obtain ⟨r, hr⟩ := Option.isSome_iff_exists.mp hact
    obtain rfl := Option.some.inj ((step_call hthread hi hp hr).symm.trans hstep)
    refine ⟨keepsNewer_act hr hclears hrekeys, fun hlost => ?_⟩
    have hcleared := cleared_of_clears hr (clears_of_lostNetwork hr hlost)
    obtain ⟨hstore, hauth⟩ := hnetwork hlost
    exact ⟨hcleared.store.trans hstore.symm, hcleared.auth.trans hauth.symm⟩

/-- A stored session, not expired. -/
def savedSession : PersistedSession :=
  { userId := "u", authToken := "t", geoKey := none, shareKey := "s", keyIdent := "k",
    tokenExpiresAt := 0 }

/-- A key the server does not know any more. -/
def unknownKey : Refusal := { status := 463, code := some 4404, msg := none }

/-- The key of the stored session is not known any more, and the network is down. -/
def staleKeyOffline : List Label :=
  [.postSigned .mega true 0, .run 0 0, .answered 0 (.refused unknownKey) 0, .exchanged 0 .network 0]

/-- What the call has come to behind these steps. -/
def offlineSent : Sent where
  entry := { keyIdent := "k", shareKey := "s", createdAt := 0, obtained := 1 }
  sentToken := some "t"
  used := some { userId := "u", authToken := "t", geoKey := none, obtained := 1 }

def offlineCall : Post where
  host := .mega
  authed := true
  pc := .rekeying offlineSent unknownKey (.failed .network)

end EufySdk.MegaClient
