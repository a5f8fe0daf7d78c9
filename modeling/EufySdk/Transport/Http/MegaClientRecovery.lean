import Mathlib.Tactic
import EufySdk.Lib.Lists
import EufySdk.Lib.Machine
import EufySdk.Transport.Http.MegaClientCalls

/-!
# Recovery logins

How often a rejected token leads to a login, and that the calls that wait for one come to an
end. A recovery login is a thread of its own that any number of calls wait for; the login itself
makes signed calls too, and one of these can be rejected in turn.

- `Timed` — the back-off as the log of recovery logins tells it
- `Ordered` — one recovery login at a time, and who waits for it
- `Post.rank`, `Login.rank` — how many steps a thread has left
- `recovery_logins_iff` — when recovery logins are bounded and every call ends
-/

namespace EufySdk.MegaClient

open Machine

variable {cfg : Config}

/-! ## The back-off -/

/-- The recovery logins since the streak was last reset. -/
def streak : List Event → ℕ
  | [] => 0
  | .recovery _ :: log => streak log + 1
  | .stable _ :: _ => 0

/-- When the last recovery login started. -/
def lastStart : List Event → ℤ
  | [] => 0
  | .recovery at_ :: _ => at_
  | .stable _ :: log => lastStart log

/-- Each recovery login keeps the distance its streak asks for, and a streak is only reset by a
token that has worked for ten minutes. -/
def Spaced : List Event → Prop
  | [] => True
  | .recovery at_ :: log =>
    Spaced log ∧ (streak log = 0 ∨ holdOff (streak log) ≤ at_ - lastStart log)
  | .stable at_ :: log => Spaced log ∧ REAUTH_STABLE_MS < at_ - lastStart log

/-- The back-off fields are what the log says. -/
structure Timed (s : Client) : Prop where
  recoveries : s.recoveries = streak s.log
  lastRecoveryAt : s.lastRecoveryAt = lastStart s.log
  spaced : Spaced s.log

theorem Timed.congr {s t : Client} (h : Timed s) (hrecoveries : t.recoveries = s.recoveries)
    (hlast : t.lastRecoveryAt = s.lastRecoveryAt) (hlog : t.log = s.log) : Timed t where
  recoveries := by rw [hrecoveries, hlog, h.recoveries]
  lastRecoveryAt := by rw [hlast, hlog, h.lastRecoveryAt]
  spaced := hlog ▸ h.spaced

theorem Timed.recovers {s t : Client} {now : ℤ} (h : Timed s) (hdue : s.recoveryDue now = true)
    (hrecoveries : t.recoveries = s.recoveries + 1) (hlast : t.lastRecoveryAt = now)
    (hlog : t.log = .recovery now :: s.log) : Timed t where
  recoveries := by rw [hrecoveries, hlog, streak, h.recoveries]
  lastRecoveryAt := by rw [hlast, hlog, lastStart]
  spaced := by
    rw [hlog]
    refine ⟨h.spaced, ?_⟩
    rw [← h.recoveries, ← h.lastRecoveryAt]
    simpa [Client.recoveryDue] using hdue

theorem Timed.noteSessionWorking {s : Client} (h : Timed s) (now : ℤ) :
    Timed (s.noteSessionWorking now) := by
  rw [Client.noteSessionWorking]
  split
  · rename_i hstable
    refine ⟨rfl, h.lastRecoveryAt, h.spaced, ?_⟩
    rw [← h.lastRecoveryAt]
    exact hstable.2
  · exact h

/-! ## Threads -/

namespace Post

def done (p : Post) : Bool :=
  match p.pc with
  | .returned _ | .threw _ => true
  | _ => false

/-- The recovery login a call waits for. -/
def joins (p : Post) : Option ℕ :=
  match p.pc with
  | .joined _ _ login => some login
  | _ => none

/-- A call in one of its two recoveries has not been through it before. -/
def WellFormed (p : Post) : Prop :=
  match p.pc with
  | .rekeying _ _ _ => p.retry.identity = false
  | .joined _ _ _ | .recovered _ _ _ => p.retry.reauth = false
  | _ => True

end Post

/-- The state in which a recovery login begins. -/
def State.recovering (cfg : Config) (s : State) (now : ℤ) : State :=
  { State.startLogin cfg
      { s with
        toClient :=
          { (s.hydrateFromStore now).1 with
            recoveries := (s.hydrateFromStore now).1.recoveries + 1
            lastRecoveryAt := now
            log := .recovery now :: (s.hydrateFromStore now).1.log }.clearSession }
      false true now with
    reauthAttempt := some s.threads.length }

/-- The steps of a call, one constructor for each way it can go on. -/
inductive Acts (cfg : Config) (s : State) (p : Post) : Label → State × Post → Prop
  | exchanged (i : ℕ) (answer : Exchange) (now : ℤ) (hpc : p.pc = .keying .exchanging) :
    Acts cfg s p (.exchanged i answer now)
      ({ s with toClient := (s.toClient.exchanged p.host now answer).1 },
        { p with pc := .keying (s.toClient.exchanged p.host now answer).2 })
  | reexchanged (i : ℕ) (answer : Exchange) (now : ℤ) (sent : Sent) (refusal : Refusal)
    (hpc : p.pc = .rekeying sent refusal .exchanging) :
    Acts cfg s p (.exchanged i answer now)
      ({ s with toClient := (s.toClient.exchanged p.host now answer).1 },
        { p with pc := .rekeying sent refusal (s.toClient.exchanged p.host now answer).2 })
  | worked (i : ℕ) (answer : Answer) (now : ℤ) (sent : Sent) (second : Bool) (pc : PostPc)
    (hpc : p.pc = .sent sent second) (hend : ∃ body, pc = .returned body ∨ pc = .threw .undecryptable) :
    Acts cfg s p (.answered i answer now)
      ({ s with toClient := if p.authed then s.noteSessionWorking now else s.toClient },
        { p with pc })
  | threw (i : ℕ) (answer : Answer) (now : ℤ) (sent : Sent) (second : Bool) (failure : Failure)
    (hpc : p.pc = .sent sent second) :
    Acts cfg s p (.answered i answer now) (s, { p with pc := .threw failure })
  | probes (i : ℕ) (refusal : Refusal) (now : ℤ) (sent : Sent) (hpc : p.pc = .sent sent false) :
    Acts cfg s p (.answered i (.refused refusal) now)
      (s, { p with pc := .sent { sent with used := p.token s.toClient } true })
  | rekeys (i : ℕ) (refusal : Refusal) (now : ℤ) (sent : Sent) (second : Bool)
    (hpc : p.pc = .sent sent second) (hidentity : p.retry.identity = false) :
    Acts cfg s p (.answered i (.refused refusal) now)
      ({ s with toClient := s.dropKey p.host },
        { p with
          pc := .rekeying sent refusal ((s.dropKey p.host).ensureSessionKey p.host now) })
  | spent (i : ℕ) (refusal : Refusal) (now : ℤ) (sent : Sent) (second : Bool)
    (hpc : p.pc = .sent sent second) :
    Acts cfg s p (.answered i (.refused refusal) now)
      (p.conclude s sent refusal now .unrecoverable)
  | settled (i : ℕ) (refusal : Refusal) (now : ℤ) (sent : Sent) (second : Bool) (client : Client)
    (recovery : SessionRecovery) (hpc : p.pc = .sent sent second)
    (hreauth : p.retry.reauth = false)
    (hclient : client = s.toClient ∨ client = (s.hydrateFromStore now).1) :
    Acts cfg s p (.answered i (.refused refusal) now)
      ({ s with toClient := client }, { p with pc := .recovered sent refusal recovery })
  | joins (i : ℕ) (refusal : Refusal) (now : ℤ) (sent : Sent) (second : Bool) (login : ℕ)
    (hpc : p.pc = .sent sent second) (hfinished : p.finished s.toClient second refusal = true)
    (hreauth : p.retry.reauth = false) (hheld : s.sessionReplacedSince sent.sentToken = false)
    (hattempt : s.reauthAttempt = some login) :
    Acts cfg s p (.answered i (.refused refusal) now)
      (s, { p with pc := .joined sent refusal login })
  | starts (i : ℕ) (refusal : Refusal) (now : ℤ) (sent : Sent) (second : Bool)
    (hpc : p.pc = .sent sent second) (hreauth : p.retry.reauth = false)
    (hattempt : s.reauthAttempt = none) (hdue : s.recoveryDue now = true) :
    Acts cfg s p (.answered i (.refused refusal) now)
      (s.recovering cfg now, { p with pc := .joined sent refusal s.threads.length })
  | sends (i : ℕ) (now : ℤ) (entry : SessionEntry) (hpc : p.pc = .keying (.held entry)) :
    Acts cfg s p (.run i now) (s, { p with
      pc := .sent
        { entry, sentToken := (p.token s.toClient).map Auth.authToken,
          used := p.token s.toClient } false })
  | keyFailed (i : ℕ) (now : ℤ) (failure : Failure) (hpc : p.pc = .keying (.failed failure)) :
    Acts cfg s p (.run i now) (s, { p with pc := .threw failure })
  | rekeyed (i : ℕ) (now : ℤ) (sent : Sent) (refusal : Refusal) (entry : SessionEntry)
    (hpc : p.pc = .rekeying sent refusal (.held entry)) :
    Acts cfg s p (.run i now)
      ({ s with toClient := s.persist },
        s.persist.postSigned p.host p.authed { p.retry with identity := true } now)
  | rekeyFailed (i : ℕ) (now : ℤ) (sent : Sent) (refusal : Refusal) (failure : Failure)
    (hpc : p.pc = .rekeying sent refusal (.failed failure)) :
    Acts cfg s p (.run i now)
      ({ s with toClient := s.clearSession }, { p with pc := .threw (.reexchangeRejected refusal) })
  | woken (i : ℕ) (now : ℤ) (sent : Sent) (refusal : Refusal) (login : ℕ) (recovery : SessionRecovery)
    (hpc : p.pc = .joined sent refusal login) :
    Acts cfg s p (.run i now) (s, { p with pc := .recovered sent refusal recovery })
  | concludes (i : ℕ) (now : ℤ) (sent : Sent) (refusal : Refusal) (recovery : SessionRecovery)
    (hpc : p.pc = .recovered sent refusal recovery) :
    Acts cfg s p (.run i now) (p.conclude s sent refusal now recovery)

theorem acts_refused {s : State} {p : Post} {sent : Sent} {second : Bool} {refusal : Refusal}
    (i : ℕ) (now : ℤ) (hpc : p.pc = .sent sent second)
    (hlast : (refusal.retryable && !second) = false) :
    Acts cfg s p (.answered i (.refused refusal) now) (p.refused cfg s sent refusal now) := by
  rw [Post.refused]
  split
  · rename_i hrekeys
    have hidentity : p.retry.identity = false := by
      simp only [Post.rekeys, Bool.and_eq_true, Bool.not_eq_true'] at hrekeys
      exact hrekeys.1.2
    exact .rekeys i refusal now sent second hpc hidentity
  rename_i hrekeys
  split
  · rename_i htoken
    have hfinished : p.finished s.toClient second refusal = true := by
      simp [Post.finished, hlast, hrekeys, htoken]
    split
    · exact .spent i refusal now sent second hpc
    · rename_i hreauth
      have hreauth := eq_false_of_ne_true hreauth
      rw [Post.recoverRejectedSession]
      split
      · exact .settled i refusal now sent second _ _ hpc hreauth (.inl rfl)
      rename_i hheld
      split
      · rename_i login hattempt
        exact .joins i refusal now sent second login hpc hfinished hreauth
          (eq_false_of_ne_true hheld) hattempt
      rename_i hattempt
      dsimp only
      split
      · exact .settled i refusal now sent second _ _ hpc hreauth (.inr rfl)
      split
      · exact .settled i refusal now sent second _ _ hpc hreauth (.inr rfl)
      split
      · exact .settled i refusal now sent second _ _ hpc hreauth (.inr rfl)
      · rename_i hdue
        rw [(@recovery_hydrated cfg s.toClient now).2] at hdue
        exact .starts i refusal now sent second hpc hreauth hattempt (by simpa using hdue)
  · exact .threw i _ now sent second _ hpc

theorem acts_of_act {s : State} {p : Post} {a : Label} {r : State × Post}
    (h : p.act cfg s a = some r) : Acts cfg s p a r := by
  cases a with
  | exchanged i answer now =>
    simp only [Post.act, Post.exchanged] at h
    split at h
    · rename_i hpc
      cases h
      exact .exchanged i answer now hpc
    · rename_i sent refusal hpc
      cases h
      exact .reexchanged i answer now sent refusal hpc
    · cases h
  | answered i answer now =>
    simp only [Post.act] at h
    split at h
    · rename_i sent second hpc
      cases h
      cases answer with
      | success body => exact .worked i _ now sent second _ hpc ⟨body, .inl rfl⟩
      | undecryptable => exact .worked i _ now sent second _ hpc ⟨{}, .inr rfl⟩
      | network => exact .threw i _ now sent second _ hpc
      | refused refusal =>
        rw [Post.answered]
        split
        · rename_i hprobe
          have hfirst : second = false := by
            simp only [Bool.and_eq_true, Bool.not_eq_true'] at hprobe
            exact hprobe.2
          exact .probes i refusal now sent (hfirst ▸ hpc)
        · rename_i hlast
          exact acts_refused i now hpc (eq_false_of_ne_true hlast)
    · cases h
  | run i now =>
    simp only [Post.act, Post.run] at h
    split at h
    · rename_i entry hpc
      cases h
      exact .sends i now entry hpc
    · rename_i failure hpc
      cases h
      exact .keyFailed i now failure hpc
    · rename_i sent refusal entry hpc
      cases h
      exact .rekeyed i now sent refusal entry hpc
    · rename_i sent refusal failure hpc
      cases h
      exact .rekeyFailed i now sent refusal failure hpc
    · rename_i sent refusal login hpc
      obtain ⟨result, -, rfl⟩ := Option.map_eq_some_iff.mp h
      exact .woken i now sent refusal login _ hpc
    · rename_i sent refusal recovery hpc
      cases h
      exact .concludes i now sent refusal recovery hpc
    · cases h
  | _ => cases h

/-! ## One call -/

/-- The recoveries a call has left. -/
def SignedRetry.left (retry : SignedRetry) : ℕ :=
  (if retry.identity then 0 else 1) + (if retry.reauth then 0 else 1)

/-- How far a call is from the end of one attempt. -/
def PostPc.rank : PostPc → ℕ
  | .keying .exchanging => 8
  | .keying _ => 7
  | .sent _ second => if second then 5 else 6
  | .rekeying _ _ .exchanging => 4
  | .rekeying _ _ _ => 3
  | .joined _ _ _ => 2
  | .recovered _ _ _ => 1
  | .returned _ | .threw _ => 0

/-- An attempt takes less than ten steps, and each recovery allows for one more attempt. -/
def Post.rank (p : Post) : ℕ := 10 * p.retry.left + p.pc.rank

/-- Where a call goes through one of its recoveries, it does so for the first time. -/
def RetriesOnce (p q : Post) : Prop :=
  q.retry = p.retry ∨ (p.retry.identity = false ∧ q.retry = { p.retry with identity := true }) ∨
    (p.retry.reauth = false ∧ q.retry = { p.retry with reauth := true })

theorem rank_keying_le (wait : KeyWait) : (PostPc.keying wait).rank ≤ 8 := by
  cases wait with
  | exchanging => exact le_refl 8
  | held entry => exact Nat.le_succ 7
  | failed failure => exact Nat.le_succ 7

theorem rank_rekeying_le (sent : Sent) (refusal : Refusal) (wait : KeyWait) :
    (PostPc.rekeying sent refusal wait).rank ≤ 4 := by
  cases wait with
  | exchanging => exact le_refl 4
  | held entry => exact Nat.le_succ 3
  | failed failure => exact Nat.le_succ 3

theorem exchanged_settled (s : Client) (host : Host) (now : ℤ) (answer : Exchange) :
    (s.exchanged host now answer).2 ≠ .exchanging := by
  cases answer <;> exact nofun

theorem rank_keying_settled {wait : KeyWait} (h : wait ≠ .exchanging) :
    (PostPc.keying wait).rank = 7 := by
  cases wait with
  | exchanging => exact absurd rfl h
  | held entry => rfl
  | failed failure => rfl

theorem rank_rekeying_settled (sent : Sent) (refusal : Refusal) {wait : KeyWait}
    (h : wait ≠ .exchanging) : (PostPc.rekeying sent refusal wait).rank = 3 := by
  cases wait with
  | exchanging => exact absurd rfl h
  | held entry => rfl
  | failed failure => rfl

theorem left_identity {retry : SignedRetry} (h : retry.identity = false) :
    retry.left = { retry with identity := true }.left + 1 := by
  obtain ⟨identity, reauth⟩ := retry
  obtain rfl : identity = false := h
  cases reauth <;> rfl

theorem left_reauth {retry : SignedRetry} (h : retry.reauth = false) :
    retry.left = { retry with reauth := true }.left + 1 := by
  obtain ⟨identity, reauth⟩ := retry
  obtain rfl : reauth = false := h
  cases identity <;> rfl

/-- A call that goes on with its recovery is through with it. -/
theorem conclude_call (p : Post) (s : State) (sent : Sent) (refusal : Refusal) (now : ℤ)
    (recovery : SessionRecovery) (hrecovery : recovery = .retry → p.retry.reauth = false) :
    let q := (p.conclude s sent refusal now recovery).2
    q.rank ≤ 10 * p.retry.left ∧ q.WellFormed ∧ RetriesOnce p q ∧ q.joins = none := by
  cases recovery with
  | retry =>
    have hreauth := hrecovery rfl
    have hkeying := rank_keying_le (s.ensureSessionKey p.host now)
    refine ⟨?_, trivial, .inr (.inr ⟨hreauth, rfl⟩), rfl⟩
    rw [left_reauth hreauth]
    simp only [Post.conclude, Client.postSigned, Post.rank]
    omega
  | unrecoverable => exact ⟨le_refl _, trivial, .inl rfl, rfl⟩
  | heldOff => exact ⟨le_refl _, trivial, .inl rfl, rfl⟩

/-- Within one attempt the rank goes by where the call is. -/
theorem rank_lt {p : Post} {pc : PostPc} (h : pc.rank < p.pc.rank) :
    ({ p with pc } : Post).rank < p.rank :=
  Nat.add_lt_add_left h _

theorem rank_sent (sent : Sent) (second : Bool) : 5 ≤ (PostPc.sent sent second).rank := by
  cases second with
  | false => exact Nat.le_succ 5
  | true => exact le_refl 5

/-- Every step of a call brings it nearer to its end. -/
theorem acts_call {s : State} {p : Post} {a : Label} {r : State × Post} (hwf : p.WellFormed)
    (h : Acts cfg s p a r) : r.2.rank < p.rank ∧ r.2.WellFormed ∧ RetriesOnce p r.2 := by
  rw [Post.WellFormed] at hwf
  cases h with
  | exchanged i answer now hpc =>
    refine ⟨rank_lt ?_, trivial, .inl rfl⟩
    rw [hpc, rank_keying_settled (exchanged_settled _ _ _ _)]
    decide
  | reexchanged i answer now sent refusal hpc =>
    rw [hpc] at hwf
    refine ⟨rank_lt ?_, hwf, .inl rfl⟩
    rw [hpc, rank_rekeying_settled sent refusal (exchanged_settled _ _ _ _)]
    exact Nat.lt_succ_self 3
  | worked i answer now sent second pc hpc hend =>
    have hsent := rank_sent sent second
    obtain ⟨body, rfl | rfl⟩ := hend
    · exact ⟨rank_lt (by rw [hpc]; exact Nat.lt_of_lt_of_le (Nat.succ_pos 4) hsent), trivial,
        .inl rfl⟩
    · exact ⟨rank_lt (by rw [hpc]; exact Nat.lt_of_lt_of_le (Nat.succ_pos 4) hsent), trivial,
        .inl rfl⟩
  | threw i answer now sent second failure hpc =>
    refine ⟨rank_lt ?_, trivial, .inl rfl⟩
    rw [hpc]
    exact Nat.lt_of_lt_of_le (Nat.succ_pos 4) (rank_sent sent second)
  | probes i refusal now sent hpc =>
    refine ⟨rank_lt ?_, trivial, .inl rfl⟩
    rw [hpc]
    exact Nat.lt_succ_self 5
  | rekeys i refusal now sent second hpc hidentity =>
    refine ⟨rank_lt ?_, hidentity, .inl rfl⟩
    rw [hpc]
    exact Nat.lt_of_lt_of_le (Nat.lt_succ_of_le (rank_rekeying_le _ _ _)) (rank_sent sent second)
  | spent i refusal now sent second hpc =>
    obtain ⟨hrank, hwf, honce, -⟩ := conclude_call p s sent refusal now .unrecoverable nofun
    refine ⟨Nat.lt_of_le_of_lt hrank (Nat.lt_add_of_pos_right ?_), hwf, honce⟩
    rw [hpc]
    exact Nat.lt_of_lt_of_le (Nat.succ_pos 4) (rank_sent sent second)
  | settled i refusal now sent second client recovery hpc hreauth hclient =>
    refine ⟨rank_lt ?_, hreauth, .inl rfl⟩
    rw [hpc]
    exact Nat.lt_of_lt_of_le (by decide : 1 < 5) (rank_sent sent second)
  | joins i refusal now sent second login hpc hfinished hreauth hheld hattempt =>
    refine ⟨rank_lt ?_, hreauth, .inl rfl⟩
    rw [hpc]
    exact Nat.lt_of_lt_of_le (by decide : 2 < 5) (rank_sent sent second)
  | starts i refusal now sent second hpc hreauth hattempt hdue =>
    refine ⟨rank_lt ?_, hreauth, .inl rfl⟩
    rw [hpc]
    exact Nat.lt_of_lt_of_le (by decide : 2 < 5) (rank_sent sent second)
  | sends i now entry hpc =>
    refine ⟨rank_lt ?_, trivial, .inl rfl⟩
    rw [hpc]
    exact Nat.lt_succ_self 6
  | keyFailed i now failure hpc =>
    refine ⟨rank_lt ?_, trivial, .inl rfl⟩
    rw [hpc]
    exact Nat.succ_pos 6
  | rekeyed i now sent refusal entry hpc =>
    rw [hpc] at hwf
    refine ⟨?_, trivial, .inr (.inl ⟨hwf, rfl⟩)⟩
    have hkeying := rank_keying_le (s.persist.ensureSessionKey p.host now)
    have hrekeying : p.pc.rank = 3 := by
      rw [hpc]
      rfl
    rw [Post.rank, Post.rank, hrekeying, left_identity hwf]
    simp only [Client.postSigned]
    omega
  | rekeyFailed i now sent refusal failure hpc =>
    refine ⟨rank_lt ?_, trivial, .inl rfl⟩
    rw [hpc]
    exact Nat.succ_pos 2
  | woken i now sent refusal login recovery hpc =>
    rw [hpc] at hwf
    refine ⟨rank_lt ?_, hwf, .inl rfl⟩
    rw [hpc]
    exact Nat.lt_succ_self 1
  | concludes i now sent refusal recovery hpc =>
    rw [hpc] at hwf
    obtain ⟨hrank, hwf', honce, -⟩ := conclude_call p s sent refusal now recovery fun _ => hwf
    refine ⟨Nat.lt_of_le_of_lt hrank (Nat.lt_add_of_pos_right ?_), hwf', honce⟩
    rw [hpc]
    exact Nat.succ_pos 0

/-! ## One login -/

/-- How far a login is from its end, with the calls it makes. -/
def Login.rank (l : Login) : ℕ :=
  match l.pc with
  | .estimating => 202
  | .keying .exchanging => 201
  | .keying _ => 200
  | .posting post => 100 + post.rank
  | .generatingCaptcha _ post => 50 + post.rank
  | .sendingVerifyCode post => 50 + post.rank
  | .rekeying .exchanging => 4
  | .rekeying _ => 3
  | .ending _ => 2
  | .done _ => 0

def Login.done (l : Login) : Bool :=
  match l.pc with
  | .done _ => true
  | _ => false

theorem rank_postSigned_le (s : Client) (host : Host) (authed : Bool) (now : ℤ) :
    (s.postSigned host authed {} now).rank ≤ 28 := by
  have hkeying := rank_keying_le (s.ensureSessionKey host now)
  have hleft : SignedRetry.left {} = 2 := rfl
  rw [Post.rank]
  simp only [Client.postSigned, hleft]
  omega

/-- A step of a login that is not one of its calls: it leaves the other threads and the back-off
alone, and brings the login nearer to its end. -/
structure LoginActed (s : State) (l : Login) (r : State × Login) : Prop where
  threads : r.1.threads = s.threads
  reauthAttempt : r.1.reauthAttempt = s.reauthAttempt
  recoveries : r.1.recoveries = s.recoveries
  lastRecoveryAt : r.1.lastRecoveryAt = s.lastRecoveryAt
  log : r.1.log = s.log
  recovery : r.2.recovery = l.recovery
  open_ : l.done = false
  rank : r.2.rank < l.rank
  /-- A call that the login makes next is at its start. -/
  call : ∀ p, r.2.post? = some p → ∃ wait, p.pc = .keying wait

theorem loginActed_of_pc {s : State} {l : Login} {pc : LoginPc} {client : Client}
    (hclient : client.reauthAttempt = s.reauthAttempt ∧ client.recoveries = s.recoveries ∧
      client.lastRecoveryAt = s.lastRecoveryAt ∧ client.log = s.log)
    (hopen : l.done = false) (hrank : ({ l with pc } : Login).rank < l.rank)
    (hcall : ({ l with pc } : Login).post? = none ∨ ∃ p wait,
      ({ l with pc } : Login).post? = some p ∧ p.pc = .keying wait) :
    LoginActed s l ({ s with toClient := client }, { l with pc }) := by
  obtain ⟨hattempt, hrecoveries, hlast, hlog⟩ := hclient
  refine ⟨rfl, hattempt, hrecoveries, hlast, hlog, rfl, hopen, hrank, fun p hp => ?_⟩
  obtain hnone | ⟨q, wait, hq, hwait⟩ := hcall
  · rw [hnone] at hp
    cases hp
  · obtain rfl := Option.some.inj (hq.symm.trans hp)
    exact ⟨wait, hwait⟩

theorem backoff_exchanged (s : Client) (host : Host) (now : ℤ) (answer : Exchange) :
    (s.exchanged host now answer).1.reauthAttempt = s.reauthAttempt ∧
      (s.exchanged host now answer).1.recoveries = s.recoveries ∧
      (s.exchanged host now answer).1.lastRecoveryAt = s.lastRecoveryAt ∧
      (s.exchanged host now answer).1.log = s.log := by
  cases answer with
  | granted keyIdent shareKey => cases host <;> exact ⟨rfl, rfl, rfl, rfl⟩
  | refused refusal => exact ⟨rfl, rfl, rfl, rfl⟩
  | network => exact ⟨rfl, rfl, rfl, rfl⟩

theorem backoff_persist (s : Client) :
    s.persist.reauthAttempt = s.reauthAttempt ∧ s.persist.recoveries = s.recoveries ∧
      s.persist.lastRecoveryAt = s.lastRecoveryAt ∧ s.persist.log = s.log := by
  rw [Client.persist]
  split <;> exact ⟨rfl, rfl, rfl, rfl⟩

/-- The round trip is over, one way or the other. -/
theorem loginActed_ending {s : State} {l : Login} {client : Client} (result : LoginResult)
    (hclient : client.reauthAttempt = s.reauthAttempt ∧ client.recoveries = s.recoveries ∧
      client.lastRecoveryAt = s.lastRecoveryAt ∧ client.log = s.log)
    (hopen : l.done = false) (hrank : 2 < l.rank) :
    LoginActed s l ({ s with toClient := client }, { l with pc := .ending result }) :=
  loginActed_of_pc hclient hopen hrank (.inl rfl)

/-- In a call of its own a login has not come to its end. -/
theorem rank_of_post {l : Login} {post : Post} (h : l.post? = some post) :
    50 ≤ l.rank ∧ l.done = false := by
  rw [Login.post?] at h
  split at h
  · rename_i hpc
    exact ⟨by rw [Login.rank, hpc]; dsimp only; omega, by rw [Login.done, hpc]⟩
  · rename_i hpc
    exact ⟨by rw [Login.rank, hpc]; dsimp only; omega, by rw [Login.done, hpc]⟩
  · rename_i hpc
    exact ⟨by rw [Login.rank, hpc]; dsimp only; omega, by rw [Login.done, hpc]⟩
  · cases h

theorem loginActed_estimated {s : State} {l : Login} (hpc : l.pc = .estimating) (ok : Bool)
    (now : ℤ) :
    LoginActed s l (s, { l with
      pc := if ok then .keying (s.ensureSessionKey .mega now) else .ending (.threw .network) }) := by
  have hopen : l.done = false := by rw [Login.done, hpc]
  have hrank : l.rank = 202 := by rw [Login.rank, hpc]
  cases ok with
  | false => exact loginActed_ending _ ⟨rfl, rfl, rfl, rfl⟩ hopen (by omega)
  | true =>
    refine loginActed_of_pc ⟨rfl, rfl, rfl, rfl⟩ hopen ?_ (.inl rfl)
    rw [hrank]
    cases hwait : s.ensureSessionKey .mega now with
    | exchanging => exact (by decide : 201 < 202)
    | held entry => exact (by decide : 200 < 202)
    | failed failure => exact (by decide : 200 < 202)

theorem loginActed_exchanged {s : State} {l : Login} {now : ℤ} {answer : Exchange}
    {r : State × Login} (h : l.exchanged s now answer = some r) : LoginActed s l r := by
  have hsettled := exchanged_settled s.toClient .mega now answer
  have hclient := backoff_exchanged s.toClient .mega now answer
  rw [Login.exchanged] at h
  dsimp only at h
  generalize s.toClient.exchanged .mega now answer = result at h hsettled hclient
  split at h
  · rename_i hpc
    cases h
    refine loginActed_of_pc hclient (by rw [Login.done, hpc]) ?_ (.inl rfl)
    have hrank : l.rank = 201 := by rw [Login.rank, hpc]
    rw [hrank]
    cases hwait : result.2 with
    | exchanging => exact absurd hwait hsettled
    | held entry => exact (by decide : 200 < 201)
    | failed failure => exact (by decide : 200 < 201)
  · rename_i hpc
    cases h
    refine loginActed_of_pc hclient (by rw [Login.done, hpc]) ?_ (.inl rfl)
    have hrank : l.rank = 4 := by rw [Login.rank, hpc]
    rw [hrank]
    cases hwait : result.2 with
    | exchanging => exact absurd hwait hsettled
    | held entry => exact (by decide : 3 < 4)
    | failed failure => exact (by decide : 3 < 4)
  · cases h

/-- Behind a login post that has returned, a login has at most one call left. -/
theorem loginActed_loggedIn {s : State} {l : Login} {post : Post} (hpc : l.pc = .posting post)
    (body : Body) (now : ℤ) : LoginActed s l (l.loggedIn s body now) := by
  have hopen : l.done = false := by rw [Login.done, hpc]
  have hrank : 100 ≤ l.rank := by
    rw [Login.rank, hpc]
    exact Nat.le_add_right 100 _
  rw [Login.loggedIn]
  split
  · exact loginActed_ending _ ⟨rfl, rfl, rfl, rfl⟩ hopen (by omega)
  dsimp only
  split
  · refine loginActed_of_pc ⟨rfl, rfl, rfl, rfl⟩ hopen ?_ (.inr ⟨_, _, rfl, rfl⟩)
    have hpost := rank_postSigned_le { s.toClient with
        auth := some ⟨body.userId, body.authToken, body.geoKey, s.obtained + 1⟩
        obtained := s.obtained + 1, pendingCaptchaId := none, pending2fa := true } .mega true now
    exact Nat.lt_of_lt_of_le (Nat.add_lt_add_left (Nat.lt_succ_of_le hpost) 50)
      (le_trans (by decide) hrank)
  · refine loginActed_of_pc ⟨rfl, rfl, rfl, rfl⟩ hopen ?_ (.inl rfl)
    exact Nat.lt_of_lt_of_le (by decide : 4 < 100) hrank

theorem loginActed_posted {s : State} {l : Login} {now : ℤ} {r : State × Login}
    (h : l.posted s now = some r) : LoginActed s l r := by
  rw [Login.posted] at h
  split at h
  · rename_i body hpc
    cases h
    exact loginActed_loggedIn hpc body now
  · rename_i failure hpc
    have hopen : l.done = false := by rw [Login.done, hpc]
    have hrank : 100 ≤ l.rank := by
      rw [Login.rank, hpc]
      exact Nat.le_add_right 100 _
    split at h
    · cases h
      refine loginActed_of_pc ⟨rfl, rfl, rfl, rfl⟩ hopen ?_ (.inr ⟨_, _, rfl, rfl⟩)
      have hpost := rank_postSigned_le s.toClient .mega false now
      exact Nat.lt_of_lt_of_le (Nat.add_lt_add_left (Nat.lt_succ_of_le hpost) 50)
        (le_trans (by decide) hrank)
    · cases h
      exact loginActed_ending _ ⟨rfl, rfl, rfl, rfl⟩ hopen (by omega)
  · rename_i hpc
    cases h
    obtain ⟨hrank, hopen⟩ := rank_of_post (by rw [Login.post?, hpc])
    exact loginActed_ending _ ⟨rfl, rfl, rfl, rfl⟩ hopen (by omega)
  · rename_i hpc
    cases h
    obtain ⟨hrank, hopen⟩ := rank_of_post (by rw [Login.post?, hpc])
    exact loginActed_ending _ ⟨rfl, rfl, rfl, rfl⟩ hopen (by omega)
  · rename_i hpc
    cases h
    obtain ⟨hrank, hopen⟩ := rank_of_post (by rw [Login.post?, hpc])
    exact loginActed_ending _ ⟨rfl, rfl, rfl, rfl⟩ hopen (by omega)
  · rename_i hpc
    cases h
    obtain ⟨hrank, hopen⟩ := rank_of_post (by rw [Login.post?, hpc])
    exact loginActed_ending _ ⟨rfl, rfl, rfl, rfl⟩ hopen (by omega)
  · cases h

theorem loginActed_run {s : State} {l : Login} {now : ℤ} {r : State × Login}
    (h : l.run s now = some r) : LoginActed s l r := by
  rw [Login.run] at h
  split at h
  · rename_i entry hpc
    cases h
    refine loginActed_of_pc ⟨rfl, rfl, rfl, rfl⟩ (by rw [Login.done, hpc]) ?_
      (.inr ⟨_, _, rfl, rfl⟩)
    have hrank : l.rank = 200 := by rw [Login.rank, hpc]
    have hpost := rank_postSigned_le s.toClient .mega s.auth.isSome now
    rw [hrank]
    exact Nat.lt_of_lt_of_le (Nat.add_lt_add_left (Nat.lt_succ_of_le hpost) 100) (by decide)
  · rename_i failure hpc
    cases h
    have hrank : l.rank = 200 := by rw [Login.rank, hpc]
    exact loginActed_ending _ ⟨rfl, rfl, rfl, rfl⟩ (by rw [Login.done, hpc]) (by omega)
  · rename_i entry hpc
    cases h
    have hrank : l.rank = 3 := by rw [Login.rank, hpc]
    exact loginActed_ending _ (backoff_persist s.toClient) (by rw [Login.done, hpc]) (by omega)
  · rename_i failure hpc
    cases h
    have hrank : l.rank = 3 := by rw [Login.rank, hpc]
    exact loginActed_ending _ ⟨rfl, rfl, rfl, rfl⟩ (by rw [Login.done, hpc]) (by omega)
  · rename_i result hpc
    cases h
    have hrank : l.rank = 2 := by rw [Login.rank, hpc]
    refine loginActed_of_pc ⟨rfl, rfl, rfl, rfl⟩ (by rw [Login.done, hpc]) ?_ (.inl rfl)
    rw [hrank]
    exact (by decide : 0 < 2)
  · exact loginActed_posted h

/-! ## One recovery login at a time -/

namespace Thread

/-- Does the thread replace a rejected token? -/
def recovers : Thread → Bool
  | .post _ => false
  | .login l => l.recovery

def done : Thread → Bool
  | .post p => p.done
  | .login l => l.done

/-- The recovery login the call of a thread waits for. -/
def joins (thread : Thread) : Option ℕ := thread.post?.bind Post.joins

def rank : Thread → ℕ
  | .post p => p.rank
  | .login l => l.rank

def withCall (p : Post) : Thread → Thread
  | .post _ => .post p
  | .login l => .login (l.withPost p)

end Thread

/-- The recovery login in flight is the one the client shares, calls wait for recovery logins
only, and a recovery login waits for none. -/
structure Ordered (s : State) : Prop where
  timed : Timed s.toClient
  attempt : ∀ {i : ℕ}, s.reauthAttempt = some i →
    ∃ login, s.threads[i]? = some login ∧ login.recovers = true
  flight : ∀ {i : ℕ} {thread : Thread}, s.threads[i]? = some thread → thread.recovers = true →
    thread.done = false → s.reauthAttempt = some i
  joined : ∀ {i j : ℕ} {thread : Thread}, s.threads[i]? = some thread → thread.joins = some j →
    ∃ login, s.threads[j]? = some login ∧ login.recovers = true
  wellFormed : ∀ {i : ℕ} {thread : Thread} {p : Post}, s.threads[i]? = some thread →
    thread.post? = some p → p.WellFormed
  free : ∀ {i : ℕ} {thread : Thread}, s.threads[i]? = some thread → thread.recovers = true →
    thread.joins = none

/-- One thread of the list is another, and the others are as they were. -/
structure Replaced (before after : List Thread) (i : ℕ) (thread : Thread) : Prop where
  here : after[i]? = some thread
  back : ∀ {j : ℕ} {x : Thread}, after[j]? = some x →
    (j = i ∧ x = thread) ∨ (j ≠ i ∧ before[j]? = some x)
  kept : ∀ {j : ℕ} {x : Thread}, j ≠ i → before[j]? = some x → after[j]? = some x

theorem replaced_modify {l : List Thread} {i : ℕ} {thread : Thread} (f : Thread → Thread)
    (hi : l[i]? = some thread) : Replaced l (l.modify i f) i (f thread) where
  here := by rw [Lists.getElem?_modify_of_some i hi, if_pos rfl]
  back := Lists.getElem?_modify_known hi
  kept := fun hne hx => by rw [Lists.getElem?_modify_of_some i hx, if_neg (Ne.symm hne)]

theorem replaced_set {l : List Thread} {i : ℕ} {thread : Thread} (new : Thread)
    (hi : l[i]? = some thread) : Replaced l (l.set i new) i new where
  here := List.getElem?_set_self (List.getElem?_eq_some_iff.mp hi).1
  back := fun {j x} hx => by
    by_cases hji : j = i
    · subst hji
      rw [List.getElem?_set_self (List.getElem?_eq_some_iff.mp hi).1] at hx
      exact .inl ⟨rfl, (Option.some.inj hx).symm⟩
    · rw [List.getElem?_set_ne (Ne.symm hji)] at hx
      exact .inr ⟨hji, hx⟩
  kept := fun hne hx => by rwa [List.getElem?_set_ne (Ne.symm hne)]

/-- A thread goes on, and stays what it is. -/
theorem Ordered.advance {s t : State} (h : Ordered s) {i : ℕ} {thread thread' : Thread}
    (hi : s.threads[i]? = some thread) (hreplaced : Replaced s.threads t.threads i thread')
    (hattempt : t.reauthAttempt = s.reauthAttempt) (htimed : Timed t.toClient)
    (hrecovers : thread'.recovers = thread.recovers) (hopen : thread.done = false)
    (hjoins : ∀ j, thread'.joins = some j → s.reauthAttempt = some j ∧ thread.recovers = false)
    (hwf : ∀ p, thread'.post? = some p → p.WellFormed) : Ordered t := by
  have hlogin : ∀ {j : ℕ} {login : Thread}, s.threads[j]? = some login →
      login.recovers = true → ∃ login', t.threads[j]? = some login' ∧ login'.recovers = true := by
    intro j login hj hlogin
    by_cases hji : j = i
    · subst hji
      obtain rfl := Option.some.inj (hi.symm.trans hj)
      exact ⟨thread', hreplaced.here, hrecovers.trans hlogin⟩
    · exact ⟨login, hreplaced.kept hji hj, hlogin⟩
  constructor
  case timed => exact htimed
  case attempt =>
    intro j hj
    obtain ⟨login, hlogin', hrecovery⟩ := h.attempt (hattempt ▸ hj)
    exact hlogin hlogin' hrecovery
  case flight =>
    intro j x hx hrecovery hopen'
    rw [hattempt]
    obtain ⟨rfl, rfl⟩ | ⟨-, hold⟩ := hreplaced.back hx
    · exact h.flight hi (hrecovers.symm.trans hrecovery) hopen
    · exact h.flight hold hrecovery hopen'
  case joined =>
    intro j k x hx hjoin
    obtain ⟨rfl, rfl⟩ | ⟨-, hold⟩ := hreplaced.back hx
    · obtain ⟨login, hlogin', hrecovery⟩ := h.attempt (hjoins k hjoin).1
      exact hlogin hlogin' hrecovery
    · obtain ⟨login, hlogin', hrecovery⟩ := h.joined hold hjoin
      exact hlogin hlogin' hrecovery
  case wellFormed =>
    intro j x p hx hp
    obtain ⟨rfl, rfl⟩ | ⟨-, hold⟩ := hreplaced.back hx
    · exact hwf p hp
    · exact h.wellFormed hold hp
  case free =>
    intro j x hx hrecovery
    obtain ⟨rfl, rfl⟩ | ⟨-, hold⟩ := hreplaced.back hx
    · by_contra hjoin
      obtain ⟨k, hk⟩ := Option.ne_none_iff_exists'.mp hjoin
      have hnot := (hjoins k hk).2
      rw [← hrecovers, hrecovery] at hnot
      cases hnot
    · exact h.free hold hrecovery

/-- A thread that replaces no token, at the start of its call. -/
theorem Ordered.append {s t : State} (h : Ordered s) {thread : Thread}
    (hthreads : t.threads = s.threads ++ [thread]) (hattempt : t.reauthAttempt = s.reauthAttempt)
    (htimed : Timed t.toClient) (hrecovers : thread.recovers = false)
    (hcall : ∀ p, thread.post? = some p → ∃ wait, p.pc = .keying wait) : Ordered t := by
  have hjoins : thread.joins = none := by
    rw [Thread.joins]
    cases hp : thread.post? with
    | none => rfl
    | some p =>
      obtain ⟨wait, hwait⟩ := hcall p hp
      rw [Option.bind_some, Post.joins, hwait]
  have hlogin : ∀ {j : ℕ} {login : Thread}, s.threads[j]? = some login →
      t.threads[j]? = some login := by
    intro j login hj
    rw [hthreads]
    exact Lists.getElem?_append_of_some hj
  have hback : ∀ {j : ℕ} {x : Thread}, t.threads[j]? = some x → x = thread ∨
      s.threads[j]? = some x := by
    intro j x hx
    rw [hthreads] at hx
    exact (Lists.getElem?_append_cases hx).imp_left And.right
  constructor
  case timed => exact htimed
  case attempt =>
    intro j hj
    obtain ⟨login, hlogin', hrecovery⟩ := h.attempt (hattempt ▸ hj)
    exact ⟨login, hlogin hlogin', hrecovery⟩
  case flight =>
    intro j x hx hrecovery hopen
    rw [hattempt]
    obtain rfl | hold := hback hx
    · rw [hrecovers] at hrecovery
      cases hrecovery
    · exact h.flight hold hrecovery hopen
  case joined =>
    intro j k x hx hjoin
    obtain rfl | hold := hback hx
    · rw [hjoins] at hjoin
      cases hjoin
    · obtain ⟨login, hlogin', hrecovery⟩ := h.joined hold hjoin
      exact ⟨login, hlogin hlogin', hrecovery⟩
  case wellFormed =>
    intro j x p hx hp
    obtain rfl | hold := hback hx
    · obtain ⟨wait, hwait⟩ := hcall p hp
      rw [Post.WellFormed, hwait]
      trivial
    · exact h.wellFormed hold hp
  case free =>
    intro j x hx hrecovery
    obtain rfl | hold := hback hx
    · exact hjoins
    · exact h.free hold hrecovery

/-- A recovery login begins where none is in flight. -/
theorem Ordered.recovering {s : State} (h : Ordered s) {now : ℤ}
    (hidle : s.reauthAttempt = none) (hdue : s.recoveryDue now = true) :
    Ordered (s.recovering cfg now) := by
  have hkept := hydratedFrom_hydrateFromStore s.toClient now
  have htimed : Timed (s.recovering cfg now).toClient := by
    refine h.timed.recovers hdue ?_ rfl ?_
    · exact congrArg (· + 1) hkept.recoveries
    · exact congrArg (Event.recovery now :: ·) hkept.log
  have hopen : ∀ {j : ℕ} {x : Thread}, s.threads[j]? = some x → x.recovers = true →
      x.done = true := by
    intro j x hx hrecovery
    by_contra hnot
    have hattempt := h.flight hx hrecovery (eq_false_of_ne_true hnot)
    rw [hidle] at hattempt
    cases hattempt
  obtain ⟨login, hthreads, hrecovery, hcall⟩ : ∃ login : Login,
      (s.recovering cfg now).threads = s.threads ++ [.login login] ∧ login.recovery = true ∧
        login.post? = none := by
    refine ⟨_, rfl, rfl, ?_⟩
    rw [Login.post?]
    dsimp only
    split_ifs <;> rfl
  have hjoins : (Thread.login login).joins = none := by
    rw [Thread.joins, Thread.post?, hcall]
    rfl
  have hback : ∀ {j : ℕ} {x : Thread}, (s.recovering cfg now).threads[j]? = some x →
      (j = s.threads.length ∧ x = .login login) ∨ s.threads[j]? = some x := by
    intro j x hx
    rw [hthreads] at hx
    exact Lists.getElem?_append_cases hx
  have hkeep : ∀ {j : ℕ} {x : Thread}, s.threads[j]? = some x →
      (s.recovering cfg now).threads[j]? = some x := by
    intro j x hx
    rw [hthreads]
    exact Lists.getElem?_append_of_some hx
  constructor
  case timed => exact htimed
  case attempt =>
    intro j hj
    obtain rfl : s.threads.length = j := Option.some.inj hj
    refine ⟨.login login, ?_, hrecovery⟩
    rw [hthreads]
    exact List.getElem?_concat_length
  case flight =>
    intro j x hx hrecovers hopen'
    obtain ⟨rfl, -⟩ | hold := hback hx
    · rfl
    · rw [hopen hold hrecovers] at hopen'
      cases hopen'
  case joined =>
    intro j k x hx hjoin
    obtain ⟨-, rfl⟩ | hold := hback hx
    · rw [hjoins] at hjoin
      cases hjoin
    · obtain ⟨other, hother, hrecovers⟩ := h.joined hold hjoin
      exact ⟨other, hkeep hother, hrecovers⟩
  case wellFormed =>
    intro j x p hx hp
    obtain ⟨-, rfl⟩ | hold := hback hx
    · have hnone : (Thread.login login).post? = none := hcall
      rw [hnone] at hp
      cases hp
    · exact h.wellFormed hold hp
  case free =>
    intro j x hx hrecovers
    obtain ⟨-, rfl⟩ | hold := hback hx
    · exact hjoins
    · exact h.free hold hrecovers

/-! ## Calls in a step -/

/-- The token of a call is found finished for the first time, and it is still the one held. -/
inductive TokenRejected (s : State) (p : Post) : Label → Prop
  | finished (i : ℕ) (now : ℤ) (sent : Sent) (second : Bool) (refusal : Refusal)
    (hpc : p.pc = .sent sent second) (hfinished : p.finished s.toClient second refusal = true)
    (hreauth : p.retry.reauth = false) (hheld : s.sessionReplacedSince sent.sentToken = false) :
    TokenRejected s p (.answered i (.refused refusal) now)

theorem timed_exchanged {s : Client} (h : Timed s) (host : Host) (now : ℤ) (answer : Exchange) :
    Timed (s.exchanged host now answer).1 := by
  obtain ⟨-, hrecoveries, hlast, hlog⟩ := backoff_exchanged s host now answer
  exact h.congr hrecoveries hlast hlog

theorem timed_hydrateFromStore {s : Client} (h : Timed s) (now : ℤ) :
    Timed (s.hydrateFromStore now).1 := by
  have hkept := hydratedFrom_hydrateFromStore s now
  exact h.congr hkept.recoveries hkept.lastRecoveryAt hkept.log

theorem reauthAttempt_noteSessionWorking (s : Client) (now : ℤ) :
    (s.noteSessionWorking now).reauthAttempt = s.reauthAttempt := by
  rw [Client.noteSessionWorking]
  split <;> rfl

/-- A call that does not start a recovery login leaves the threads and the one in flight. -/
structure Quiet (s : State) (p : Post) (a : Label) (r : State × Post) : Prop where
  threads : r.1.threads = s.threads
  reauthAttempt : r.1.reauthAttempt = s.reauthAttempt
  timed : Timed s.toClient → Timed r.1.toClient
  joins : ∀ j, r.2.joins = some j → s.reauthAttempt = some j ∧ TokenRejected s p a

theorem quiet_conclude (p : Post) (s : State) (sent : Sent) (refusal : Refusal) (now : ℤ)
    (recovery : SessionRecovery) (a : Label) :
    Quiet s p a (p.conclude s sent refusal now recovery) := by
  cases recovery with
  | retry => exact ⟨rfl, rfl, id, nofun⟩
  | unrecoverable =>
    rw [Post.conclude]
    split_ifs
    · exact ⟨rfl, rfl, id, nofun⟩
    · exact ⟨rfl, rfl, fun h => h.congr rfl rfl rfl, nofun⟩
    · exact nofun
  | heldOff =>
    rw [Post.conclude]
    split_ifs
    · exact ⟨rfl, rfl, id, nofun⟩
    · exact ⟨rfl, rfl, fun h => h.congr rfl rfl rfl, nofun⟩
    · exact nofun

theorem acts_quiet_or_starts {s : State} {p : Post} {a : Label} {r : State × Post}
    (h : Acts cfg s p a r) :
    Quiet s p a r ∨ ∃ now, r.1 = s.recovering cfg now ∧ s.reauthAttempt = none ∧
      s.recoveryDue now = true ∧ r.2.joins = some s.threads.length := by
  cases h with
  | exchanged i answer now hpc =>
    exact .inl ⟨rfl, (backoff_exchanged s.toClient p.host now answer).1,
      fun h => timed_exchanged h p.host now answer, nofun⟩
  | reexchanged i answer now sent refusal hpc =>
    exact .inl ⟨rfl, (backoff_exchanged s.toClient p.host now answer).1,
      fun h => timed_exchanged h p.host now answer, nofun⟩
  | worked i answer now sent second pc hpc hend =>
    refine .inl ⟨rfl, ?_, fun h => ?_, fun j hj => ?_⟩
    · dsimp only
      split_ifs
      · exact reauthAttempt_noteSessionWorking s.toClient now
      · rfl
    · dsimp only
      split_ifs
      · exact h.noteSessionWorking now
      · exact h
    · obtain ⟨body, rfl | rfl⟩ := hend <;> cases hj
  | threw i answer now sent second failure hpc => exact .inl ⟨rfl, rfl, id, nofun⟩
  | probes i refusal now sent hpc => exact .inl ⟨rfl, rfl, id, nofun⟩
  | rekeys i refusal now sent second hpc hidentity =>
    refine .inl ⟨rfl, ?_, fun h => ?_, nofun⟩
    · cases p.host <;> rfl
    · cases p.host <;> exact h.congr rfl rfl rfl
  | spent i refusal now sent second hpc => exact .inl (quiet_conclude p s sent refusal now _ _)
  | settled i refusal now sent second client recovery hpc hreauth hclient =>
    obtain rfl | rfl := hclient
    · exact .inl ⟨rfl, rfl, id, nofun⟩
    · exact .inl ⟨rfl, (hydratedFrom_hydrateFromStore s.toClient now).reauthAttempt,
        fun h => timed_hydrateFromStore h now, nofun⟩
  | joins i refusal now sent second login hpc hfinished hreauth hheld hattempt =>
    refine .inl ⟨rfl, rfl, id, fun j hj => ?_⟩
    obtain rfl : login = j := Option.some.inj hj
    exact ⟨hattempt, .finished i now sent second refusal hpc hfinished hreauth hheld⟩
  | starts i refusal now sent second hpc hreauth hattempt hdue =>
    exact .inr ⟨now, rfl, hattempt, hdue, rfl⟩
  | sends i now entry hpc => exact .inl ⟨rfl, rfl, id, nofun⟩
  | keyFailed i now failure hpc => exact .inl ⟨rfl, rfl, id, nofun⟩
  | rekeyed i now sent refusal entry hpc =>
    obtain ⟨hattempt, hrecoveries, hlast, hlog⟩ := backoff_persist s.toClient
    exact .inl ⟨rfl, hattempt, fun h => h.congr hrecoveries hlast hlog, nofun⟩
  | rekeyFailed i now sent refusal failure hpc =>
    exact .inl ⟨rfl, rfl, fun h => h.congr rfl rfl rfl, nofun⟩
  | woken i now sent refusal login recovery hpc => exact .inl ⟨rfl, rfl, id, nofun⟩
  | concludes i now sent refusal recovery hpc =>
    exact .inl (quiet_conclude p s sent refusal now recovery _)

/-! ## Steps -/

/-- How a thread goes on: its call does, or the login does between its calls. -/
inductive Moves (cfg : Config) (s : State) (a : Label) (i : ℕ) : Thread → State → Prop
  | call (thread : Thread) (p : Post) (r : State × Post) (hp : thread.post? = some p)
    (hact : p.act cfg s a = some r) : Moves cfg s a i thread (r.1.setCall i r.2)
  | login (l : Login) (r : State × Login) (hacted : LoginActed s l r)
    (hbetween : ∀ p, l.post? = some p → p.done = true) :
    Moves cfg s a i (.login l) (r.1.setLogin i r.2)

/-- A login that goes on behind an await waits for none of its calls. -/
theorem between_of_run {s : State} {l : Login} {now : ℤ} {r : State × Login}
    (h : l.run s now = some r) (p : Post) (hp : l.post? = some p) : p.done = true := by
  rw [Login.run] at h
  split at h
  case h_6 =>
    rw [Login.posted] at h
    split at h
    case h_7 => cases h
    all_goals
      rename_i hpc
      rw [Login.post?, hpc] at hp
      obtain rfl := Option.some.inj hp
      rfl
  all_goals
    rename_i hpc
    rw [Login.post?, hpc] at hp
    cases hp

theorem moves_of_step {s t : State} {a : Label} {i : ℕ} (hthread : a.thread = some i)
    (h : step cfg s a = some t) :
    ∃ thread, s.threads[i]? = some thread ∧ Moves cfg s a i thread t := by
  cases a with
  | estimated j ok now =>
    cases hthread
    rw [step, stepEstimated] at h
    split at h
    · rename_i l hi
      split at h
      · rename_i hpc
        cases h
        have hacted := @loginActed_estimated s l hpc ok now
        have hnone : l.post? = none := by rw [Login.post?, hpc]
        have hbetween : ∀ p, l.post? = some p → p.done = true := by
          intro p hp
          cases hnone.symm.trans hp
        exact ⟨_, hi, .login l _ hacted hbetween⟩
      · cases h
    · cases h
  | exchanged j answer now =>
    cases hthread
    obtain ⟨thread, hi, h⟩ := Option.bind_eq_some_iff.mp h
    refine ⟨thread, hi, ?_⟩
    split at h
    · rename_i p hp
      obtain ⟨r, hr, rfl⟩ := Option.map_eq_some_iff.mp h
      exact .call _ p r hp hr
    · rename_i l hp
      obtain ⟨r, hr, rfl⟩ := Option.map_eq_some_iff.mp h
      have hnone : l.post? = none := hp
      refine .login l r (loginActed_exchanged hr) fun p hp => ?_
      cases hnone.symm.trans hp
    · cases h
  | answered j answer now =>
    cases hthread
    obtain ⟨thread, hi, h⟩ := Option.bind_eq_some_iff.mp h
    obtain ⟨p, hp, h⟩ := Option.bind_eq_some_iff.mp h
    refine ⟨thread, hi, ?_⟩
    split at h
    · rename_i sent second hpc
      cases h
      have hact : p.act cfg s (.answered i answer now) =
          some (p.answered cfg s sent second now answer) := by rw [Post.act, hpc]
      exact .call thread p _ hp hact
    · cases h
  | run j now =>
    cases hthread
    obtain ⟨thread, hi, h⟩ := Option.bind_eq_some_iff.mp h
    refine ⟨thread, hi, ?_⟩
    cases thread with
    | post p =>
      obtain ⟨r, hr, rfl⟩ := Option.map_eq_some_iff.mp h
      exact .call _ p r rfl hr
    | login l =>
      dsimp only at h
      split at h
      · rename_i r hr
        cases h
        obtain ⟨p, hp, hr⟩ := Option.bind_eq_some_iff.mp hr
        exact .call _ p r hp hr
      · obtain ⟨r, hr, rfl⟩ := Option.map_eq_some_iff.mp h
        exact .login l r (loginActed_run hr) (between_of_run hr)
  | _ => cases hthread

/-- A call that goes on has not ended. -/
theorem open_of_acts {s : State} {p : Post} {a : Label} {r : State × Post}
    (h : Acts cfg s p a r) : p.done = false := by
  cases h <;> simp only [Post.done, *]

theorem open_of_post {thread : Thread} {p : Post} (hp : thread.post? = some p)
    (hopen : p.done = false) : thread.done = false := by
  cases thread with
  | post q =>
    obtain rfl := Option.some.inj hp
    exact hopen
  | login l => exact (rank_of_post hp).2

theorem post?_withCall {thread : Thread} {p : Post} (hp : thread.post? = some p) (q : Post) :
    (thread.withCall q).post? = some q := by
  cases thread with
  | post _ => rfl
  | login l =>
    obtain ⟨isVerify, recovery, pc⟩ := l
    cases pc with
    | posting _ => rfl
    | generatingCaptcha _ _ => rfl
    | sendingVerifyCode _ => rfl
    | _ => cases hp

theorem recovers_withCall (thread : Thread) (q : Post) :
    (thread.withCall q).recovers = thread.recovers := by
  cases thread with
  | post _ => rfl
  | login l =>
    obtain ⟨isVerify, recovery, pc⟩ := l
    cases pc <;> rfl

/-- A thread whose call goes on keeps its place in the order. -/
theorem Ordered.call {s : State} (h : Ordered s) {a : Label} {i : ℕ} {thread : Thread} {p : Post}
    {r : State × Post} (hi : s.threads[i]? = some thread) (hp : thread.post? = some p)
    (hacts : Acts cfg s p a r) (haccepted : thread.recovers = true → ¬TokenRejected s p a) :
    Ordered (r.1.setCall i r.2) := by
  have hopen := open_of_post hp (open_of_acts hacts)
  obtain ⟨-, hwf, -⟩ := acts_call (h.wellFormed hi hp) hacts
  have hpost := post?_withCall hp r.2
  have hjoins : (thread.withCall r.2).joins = r.2.joins := by
    rw [Thread.joins, hpost, Option.bind_some]
  have hwf' : ∀ q, (thread.withCall r.2).post? = some q → q.WellFormed := by
    intro q hq
    obtain rfl := Option.some.inj (hpost.symm.trans hq)
    exact hwf
  obtain hquiet | ⟨now, hr, hidle, hdue, hjoin⟩ := acts_quiet_or_starts hacts
  · have hreplaced : Replaced s.threads (r.1.setCall i r.2).threads i (thread.withCall r.2) := by
      rw [State.setCall, hquiet.threads]
      exact replaced_modify (Thread.withCall r.2) hi
    refine h.advance hi hreplaced hquiet.reauthAttempt (hquiet.timed h.timed)
      (recovers_withCall thread r.2) hopen ?_ hwf'
    intro j hj
    rw [hjoins] at hj
    obtain ⟨hattempt, hrejected⟩ := hquiet.joins j hj
    exact ⟨hattempt, eq_false_of_ne_true fun hrecovers => haccepted hrecovers hrejected⟩
  · -- the login that starts is another thread than the one whose call needs it
    have hstarted := @Ordered.recovering cfg s h now hidle hdue
    obtain ⟨l, hthreads⟩ : ∃ l, (s.recovering cfg now).threads = s.threads ++ [l] := ⟨_, rfl⟩
    have hi' : (s.recovering cfg now).threads[i]? = some thread := by
      rw [hthreads]
      exact Lists.getElem?_append_of_some hi
    rw [hr]
    refine hstarted.advance hi' (replaced_modify (Thread.withCall r.2) hi') rfl hstarted.timed
      (recovers_withCall thread r.2) hopen ?_ hwf'
    intro j hj
    rw [hjoins, hjoin] at hj
    refine ⟨hj, eq_false_of_ne_true fun hrecovers => ?_⟩
    cases hidle.symm.trans (h.flight hi hrecovers hopen)

/-- A login between two calls keeps its place in the order. -/
theorem Ordered.login {s : State} (h : Ordered s) {i : ℕ} {l : Login} {r : State × Login}
    (hi : s.threads[i]? = some (.login l)) (hacted : LoginActed s l r) :
    Ordered (r.1.setLogin i r.2) := by
  have hreplaced : Replaced s.threads (r.1.setLogin i r.2).threads i (.login r.2) := by
    rw [State.setLogin, hacted.threads]
    exact replaced_set (.login r.2) hi
  refine h.advance hi hreplaced hacted.reauthAttempt
    (h.timed.congr hacted.recoveries hacted.lastRecoveryAt hacted.log) hacted.recovery
    hacted.open_ ?_ ?_
  · intro j hj
    obtain ⟨p, hp, hjoin⟩ := Option.bind_eq_some_iff.mp hj
    obtain ⟨wait, hwait⟩ := hacted.call p hp
    rw [Post.joins, hwait] at hjoin
    cases hjoin
  · intro p hp
    obtain ⟨wait, hwait⟩ := hacted.call p hp
    rw [Post.WellFormed, hwait]
    trivial

/-- What changes neither the threads nor the back-off. -/
theorem Ordered.congr {s t : State} (h : Ordered s) (hthreads : t.threads = s.threads)
    (hattempt : t.reauthAttempt = s.reauthAttempt) (htimed : Timed t.toClient) : Ordered t where
  timed := htimed
  attempt := by rw [hattempt, hthreads]; exact h.attempt
  flight := by rw [hattempt, hthreads]; exact h.flight
  joined := by rw [hthreads]; exact h.joined
  wellFormed := by rw [hthreads]; exact h.wellFormed
  free := by rw [hthreads]; exact h.free

theorem Ordered.startLogin {s : State} (h : Ordered s) (isVerify : Bool) (now : ℤ) :
    Ordered (s.startLogin cfg isVerify false now) := by
  refine h.append rfl rfl (h.timed.congr rfl rfl rfl) rfl ?_
  intro p hp
  rw [Thread.post?, Login.post?] at hp
  dsimp only at hp
  split_ifs at hp

/-- No signed call of a recovery login finds the token finished that it was sent with, and that is
still held. -/
def CallsAccepted (s : State) (a : Label) : Prop :=
  ∀ i thread p, a.thread = some i → s.threads[i]? = some thread → thread.recovers = true →
    thread.post? = some p → ¬TokenRejected s p a

theorem ordered_step {s t : State} {a : Label} (h : Ordered s) (haccepted : CallsAccepted s a)
    (hstep : step cfg s a = some t) : Ordered t := by
  by_cases hthread : ∃ i, a.thread = some i
  · obtain ⟨i, hthread⟩ := hthread
    obtain ⟨thread, hi, hmoves⟩ := moves_of_step hthread hstep
    cases hmoves with
    | call _ p r hp hact =>
      exact h.call hi hp (acts_of_act hact) fun hrecovers =>
        haccepted i thread p hthread hi hrecovers hp
    | login l r hacted hbetween => exact h.login hi hacted
  cases a with
  | postSigned host authed now =>
    cases hstep
    refine h.append rfl rfl h.timed rfl fun p hp => ?_
    obtain rfl := Option.some.inj hp
    exact ⟨_, rfl⟩
  | login now =>
    rw [step] at hstep
    split at hstep <;> cases hstep
    · exact h
    · exact h.startLogin false now
  | solveCaptcha now =>
    rw [step] at hstep
    split at hstep <;> cases hstep
    · exact h.startLogin false now
    · exact h
  | submitVerifyCode code now =>
    cases hstep
    exact h.startLogin _ now
  | clearSession =>
    cases hstep
    exact h.congr rfl rfl (h.timed.congr rfl rfl rfl)
  | store saved =>
    cases hstep
    exact h.congr rfl rfl (h.timed.congr rfl rfl rfl)
  | settleReauth =>
    rw [step] at hstep
    split at hstep
    · rename_i i hattempt
      split at hstep
      · rename_i hdone
        cases hstep
        refine { h with timed := h.timed.congr rfl rfl rfl, attempt := ?_, flight := ?_ }
        · intro i hi
          cases hi
        intro j x hx hrecovers hopen
        -- the login in flight is the one that is done
        obtain rfl := Option.some.inj (hattempt.symm.trans (h.flight hx hrecovers hopen))
        obtain rfl := Option.some.inj (hdone.symm.trans hx)
        cases hopen
      · cases hstep
    · cases hstep
  | _ => exact absurd ⟨_, rfl⟩ hthread

theorem ordered_fresh (saved : Option PersistedSession) (now : ℤ) : Ordered (fresh saved now) where
  timed := by
    have hstart : Timed { store := saved } := ⟨rfl, rfl, trivial⟩
    exact timed_hydrateFromStore hstart now
  attempt := fun hi => by
    rw [fresh, (hydratedFrom_hydrateFromStore _ now).reauthAttempt] at hi
    cases hi
  flight := nofun
  joined := nofun
  wellFormed := nofun
  free := nofun

/-! ## Calls come to an end -/

/-- A thread can go on, with an answer from outside or behind an await that has settled. -/
def GoesOn (cfg : Config) (s : State) (i : ℕ) : Prop :=
  ∃ a t, a.thread = some i ∧ step cfg s a = some t

/-- What has not ended can go on, or waits for a login that can, or for a promise that can
settle. -/
def Live (cfg : Config) (s : State) : Prop :=
  ∀ i thread, s.threads[i]? = some thread → thread.done = false →
    GoesOn cfg s i ∨ ∃ j, thread.joins = some j ∧
      (GoesOn cfg s j ∨ s.reauthAttempt = some j ∧ (step cfg s .settleReauth).isSome)

/-- A call that waits for no login can go on. -/
theorem act_of_free (s : State) (i : ℕ) {p : Post} (hopen : p.done = false)
    (hjoins : p.joins = none) : ∃ a r, a.thread = some i ∧ p.act cfg s a = some r := by
  obtain ⟨host, authed, retry, pc⟩ := p
  cases pc with
  | keying wait =>
    cases wait with
    | exchanging => exact ⟨.exchanged i .network 0, _, rfl, rfl⟩
    | held entry => exact ⟨.run i 0, _, rfl, rfl⟩
    | failed failure => exact ⟨.run i 0, _, rfl, rfl⟩
  | sent sent second => exact ⟨.answered i .network 0, _, rfl, rfl⟩
  | rekeying sent refusal wait =>
    cases wait with
    | exchanging => exact ⟨.exchanged i .network 0, _, rfl, rfl⟩
    | held entry => exact ⟨.run i 0, _, rfl, rfl⟩
    | failed failure => exact ⟨.run i 0, _, rfl, rfl⟩
  | joined sent refusal login => cases hjoins
  | recovered sent refusal recovery => exact ⟨.run i 0, _, rfl, rfl⟩
  | returned body => cases hopen
  | threw failure => cases hopen

theorem run_of_done (s : State) (now : ℤ) {p : Post} (hdone : p.done = true) :
    p.run s now = none := by
  obtain ⟨host, authed, retry, pc⟩ := p
  cases pc with
  | returned body => rfl
  | threw failure => rfl
  | _ => cases hdone

/-- Behind a call that has ended, a login has its answer. -/
theorem posted_of_done (s : State) (now : ℤ) {l : Login} {p : Post} (hp : l.post? = some p)
    (hdone : p.done = true) : ∃ r, l.run s now = some r := by
  obtain ⟨isVerify, recovery, pc⟩ := l
  obtain ⟨host, authed, retry, callPc⟩ := p
  obtain ⟨body, rfl⟩ | ⟨failure, rfl⟩ :
      (∃ body, callPc = .returned body) ∨ ∃ failure, callPc = .threw failure := by
    cases callPc with
    | returned body => exact .inl ⟨body, rfl⟩
    | threw failure => exact .inr ⟨failure, rfl⟩
    | _ => cases hdone
  · cases pc with
    | posting post | generatingCaptcha wrong post | sendingVerifyCode post =>
      obtain rfl := Option.some.inj hp
      exact ⟨_, rfl⟩
    | _ => cases hp
  · cases pc with
    | posting post =>
      obtain rfl := Option.some.inj hp
      rw [Login.run, Login.posted]
      dsimp only
      split_ifs <;> exact ⟨_, rfl⟩
    | generatingCaptcha wrong post | sendingVerifyCode post =>
      obtain rfl := Option.some.inj hp
      exact ⟨_, rfl⟩
    | _ => cases hp

/-- A login that waits for no call can go on. -/
theorem goesOn_login {s : State} {i : ℕ} {l : Login} (hi : s.threads[i]? = some (.login l))
    (hopen : l.done = false) (hbetween : ∀ p, l.post? = some p → p.done = true) :
    GoesOn cfg s i := by
  have hcall : (l.post? >>= fun p => p.run s 0) = none := by
    cases hp : l.post? with
    | none => rfl
    | some p => exact run_of_done s 0 (hbetween p hp)
  have hrun : ∀ r, l.run s 0 = some r → GoesOn cfg s i := by
    intro r hr
    refine ⟨.run i 0, r.1.setLogin i r.2, rfl, ?_⟩
    rw [step, stepRun, hi]
    simp only [Option.bind_eq_bind, Option.bind_some] at hcall ⊢
    rw [hcall, hr]
    rfl
  have hexchanged : l.post? = none → ∀ r, l.exchanged s 0 .network = some r → GoesOn cfg s i := by
    intro hp r hr
    refine ⟨.exchanged i .network 0, r.1.setLogin i r.2, rfl, ?_⟩
    have hnone : (Thread.login l).post? = none := hp
    rw [step, stepExchanged, hi]
    simp only [Option.bind_eq_bind, Option.bind_some, hnone, hr]
    rfl
  by_cases hp : ∃ p, l.post? = some p
  · obtain ⟨p, hp⟩ := hp
    obtain ⟨r, hr⟩ := posted_of_done s 0 hp (hbetween p hp)
    exact hrun r hr
  obtain ⟨isVerify, recovery, pc⟩ := l
  cases pc with
  | estimating => exact ⟨.estimated i false 0, _, rfl, by rw [step, stepEstimated, hi]; rfl⟩
  | keying wait =>
    cases wait with
    | exchanging => exact hexchanged rfl _ rfl
    | held entry => exact hrun _ rfl
    | failed failure => exact hrun _ rfl
  | rekeying wait =>
    cases wait with
    | exchanging => exact hexchanged rfl _ rfl
    | held entry => exact hrun _ rfl
    | failed failure => exact hrun _ rfl
  | ending result => exact hrun _ rfl
  | done result => cases hopen
  | posting post | generatingCaptcha wrong post | sendingVerifyCode post =>
    exact absurd ⟨post, rfl⟩ hp

theorem goesOn_of_free {s : State} {i : ℕ} {thread : Thread} (hi : s.threads[i]? = some thread)
    (hopen : thread.done = false) (hjoins : thread.joins = none) : GoesOn cfg s i := by
  by_cases hcall : ∃ p, thread.post? = some p ∧ p.done = false
  · obtain ⟨p, hp, hunfinished⟩ := hcall
    rw [Thread.joins, hp, Option.bind_some] at hjoins
    obtain ⟨a, r, hthread, hact⟩ := @act_of_free cfg s i p hunfinished hjoins
    exact ⟨a, _, hthread, step_call hthread hi hp hact⟩
  cases thread with
  | post p => exact absurd ⟨p, rfl, hopen⟩ hcall
  | login l =>
    refine goesOn_login hi hopen fun p hp => ?_
    by_contra hnot
    exact hcall ⟨p, hp, eq_false_of_ne_true hnot⟩

theorem pc_of_joins {p : Post} {j : ℕ} (h : p.joins = some j) :
    ∃ sent refusal, p.pc = .joined sent refusal j := by
  rw [Post.joins] at h
  split at h
  · rename_i sent refusal login hpc
    obtain rfl := Option.some.inj h
    exact ⟨sent, refusal, hpc⟩
  · cases h

/-- A call goes on behind the login it waits for. -/
theorem goesOn_of_settled {s : State} {i j : ℕ} {thread : Thread} {result : LoginResult}
    (hi : s.threads[i]? = some thread) (hjoins : thread.joins = some j)
    (hsettled : s.settledLogin j = some result) : GoesOn cfg s i := by
  obtain ⟨p, hp, hjoin⟩ := Option.bind_eq_some_iff.mp hjoins
  obtain ⟨sent, refusal, hpc⟩ := pc_of_joins hjoin
  have hact : p.act cfg s (.run i 0) = some (s, { p with
      pc := .recovered sent refusal (if result = .ok then .retry else .unrecoverable) }) := by
    rw [Post.act, Post.run, hpc]
    dsimp only
    rw [hsettled]
    rfl
  exact ⟨.run i 0, _, rfl, step_call rfl hi hp hact⟩

theorem Ordered.live {s : State} (h : Ordered s) : Live cfg s := by
  intro i thread hi hopen
  cases hjoins : thread.joins with
  | none => exact .inl (goesOn_of_free hi hopen hjoins)
  | some j =>
    obtain ⟨login, hj, hrecovers⟩ := h.joined hi hjoins
    cases hdone : login.done with
    | false => exact .inr ⟨j, rfl, .inl (goesOn_of_free hj hdone (h.free hj hrecovers))⟩
    | true =>
      obtain ⟨isVerify, recovery, result, rfl⟩ : ∃ isVerify recovery result,
          login = .login ⟨isVerify, recovery, .done result⟩ := by
        cases login with
        | post p => cases hrecovers
        | login l =>
          obtain ⟨isVerify, recovery, pc⟩ := l
          cases pc with
          | done result => exact ⟨isVerify, recovery, result, rfl⟩
          | _ => cases hdone
      by_cases hattempt : s.reauthAttempt = some j
      · refine .inr ⟨j, rfl, .inr ⟨hattempt, ?_⟩⟩
        rw [step, hattempt]
        dsimp only
        rw [hj]
        rfl
      · have hsettled : s.settledLogin j = some result := by
          rw [State.settledLogin, hj]
          exact if_neg hattempt
        exact .inl (goesOn_of_settled hi hjoins hsettled)

/-! ## Bounds -/

/-- Recovery logins after a step, and the calls that the step is about. -/
structure Bounds (cfg : Config) (s : State) (a : Label) (t : State) : Prop where
  /-- At most one recovery login is in flight. -/
  single : ∀ (i j : ℕ) (x y : Thread), t.threads[i]? = some x → t.threads[j]? = some y → x.recovers = true →
    y.recovers = true → x.done = false → y.done = false → i = j
  /-- Who waits, waits for a recovery login; while that is in flight it is the shared one. -/
  shared : ∀ (i j : ℕ) (x : Thread), t.threads[i]? = some x → x.joins = some j →
    ∃ login, t.threads[j]? = some login ∧ login.recovers = true ∧
      (login.done = false → t.reauthAttempt = some j)
  /-- A thread that begins as a recovery login is in the log. -/
  logged : ∀ x : Thread, t.threads[s.threads.length]? = some x → x.recovers = true →
    ∃ now, t.log = .recovery now :: s.log
  spaced : Spaced t.log
  /-- A call goes through each of its recoveries once at most. -/
  retries : ∀ (i : ℕ) (x y : Thread) (p q : Post), a.thread = some i → s.threads[i]? = some x →
    t.threads[i]? = some y → x.post? = some p → y.post? = some q → p.done = false →
      RetriesOnce p q
  /-- A thread that goes on is nearer to its end. -/
  nearer : ∀ (i : ℕ) (x y : Thread), a.thread = some i → s.threads[i]? = some x →
    t.threads[i]? = some y → y.rank < x.rank
  /-- The others are where they were. -/
  others : ∀ (i : ℕ) (x : Thread), s.threads[i]? = some x → a.thread ≠ some i →
    t.threads[i]? = some x
  live : Live cfg t

/-- Recovery logins are bounded, and calls come to their end. -/
def Bounded (cfg : Config) (s : State) (a : Label) : Prop :=
  ∀ t, step cfg s a = some t → Bounds cfg s a t

theorem rank_withCall {thread : Thread} {p q : Post} (hp : thread.post? = some p)
    (h : q.rank < p.rank) : (thread.withCall q).rank < thread.rank := by
  cases thread with
  | post _ =>
    obtain rfl := Option.some.inj hp
    exact h
  | login l =>
    obtain ⟨isVerify, recovery, pc⟩ := l
    cases pc with
    | posting _ =>
      obtain rfl := Option.some.inj hp
      exact Nat.add_lt_add_left h 100
    | generatingCaptcha _ _ =>
      obtain rfl := Option.some.inj hp
      exact Nat.add_lt_add_left h 50
    | sendingVerifyCode _ =>
      obtain rfl := Option.some.inj hp
      exact Nat.add_lt_add_left h 50
    | _ => cases hp

/-- What a thread is when it has gone on. -/
structure Advanced (before after : Thread) : Prop where
  rank : after.rank < before.rank
  retries : ∀ p q, before.post? = some p → after.post? = some q → p.done = false →
    RetriesOnce p q

theorem advanced_of_moves {s t : State} {a : Label} {i : ℕ} {thread : Thread} (h : Ordered s)
    (hi : s.threads[i]? = some thread) (hmoves : Moves cfg s a i thread t) :
    ∃ after, t.threads[i]? = some after ∧ Advanced thread after ∧
      (∀ j x, s.threads[j]? = some x → j ≠ i → t.threads[j]? = some x) ∧
      ∀ x, t.threads[s.threads.length]? = some x → x.recovers = true →
        ∃ now, t.log = .recovery now :: s.log := by
  cases hmoves with
  | call _ p r hp hact =>
    have hacts := acts_of_act hact
    obtain ⟨hrank, -, honce⟩ := acts_call (h.wellFormed hi hp) hacts
    have hadvanced : Advanced thread (thread.withCall r.2) := by
      refine ⟨rank_withCall hp hrank, fun p' q hp' hq _ => ?_⟩
      obtain rfl := Option.some.inj (hp.symm.trans hp')
      obtain rfl := Option.some.inj ((post?_withCall hp r.2).symm.trans hq)
      exact honce
    obtain hquiet | ⟨now, hr, -, -, -⟩ := acts_quiet_or_starts hacts
    · have hreplaced : Replaced s.threads (r.1.setCall i r.2).threads i (thread.withCall r.2) := by
        rw [State.setCall, hquiet.threads]
        exact replaced_modify (Thread.withCall r.2) hi
      refine ⟨_, hreplaced.here, hadvanced, fun j x hx hji => hreplaced.kept hji hx, ?_⟩
      intro x hx hrecovers
      obtain ⟨rfl, -⟩ | ⟨-, hold⟩ := hreplaced.back hx
      · rw [List.getElem?_eq_none (le_refl _)] at hi
        cases hi
      · rw [List.getElem?_eq_none (le_refl _)] at hold
        cases hold
    · obtain ⟨l, hthreads⟩ : ∃ l, (s.recovering cfg now).threads = s.threads ++ [l] := ⟨_, rfl⟩
      have hkept : ∀ {j : ℕ} {x : Thread}, s.threads[j]? = some x →
          (s.recovering cfg now).threads[j]? = some x := by
        intro j x hx
        rw [hthreads]
        exact Lists.getElem?_append_of_some hx
      have hreplaced := replaced_modify (Thread.withCall r.2) (hkept hi)
      rw [hr]
      refine ⟨_, hreplaced.here, hadvanced, fun j x hx hji => hreplaced.kept hji (hkept hx), ?_⟩
      intro x hx hrecovers
      exact ⟨now, congrArg (Event.recovery now :: ·) (hydratedFrom_hydrateFromStore _ now).log⟩
  | login l r hacted hbetween =>
    have hreplaced : Replaced s.threads (r.1.setLogin i r.2).threads i (.login r.2) := by
      rw [State.setLogin, hacted.threads]
      exact replaced_set (.login r.2) hi
    refine ⟨_, hreplaced.here, ⟨hacted.rank, fun p q hp _ hopen => ?_⟩,
      fun j x hx hji => hreplaced.kept hji hx, ?_⟩
    · rw [hbetween p hp] at hopen
      cases hopen
    · intro x hx hrecovers
      obtain ⟨rfl, -⟩ | ⟨-, hold⟩ := hreplaced.back hx
      · rw [List.getElem?_eq_none (le_refl _)] at hi
        cases hi
      · rw [List.getElem?_eq_none (le_refl _)] at hold
        cases hold

/-- A step that no thread takes adds a thread at most, and none that replaces a token. -/
theorem threads_of_outside {s t : State} {a : Label} (hstep : step cfg s a = some t)
    (houtside : a.thread = none) :
    t.threads = s.threads ∨ ∃ x, t.threads = s.threads ++ [x] ∧ x.recovers = false := by
  cases a with
  | postSigned host authed now =>
    cases hstep
    exact .inr ⟨_, rfl, rfl⟩
  | login now =>
    rw [step] at hstep
    split at hstep <;> cases hstep
    · exact .inl rfl
    · exact .inr ⟨_, rfl, rfl⟩
  | solveCaptcha now =>
    rw [step] at hstep
    split at hstep <;> cases hstep
    · exact .inr ⟨_, rfl, rfl⟩
    · exact .inl rfl
  | submitVerifyCode code now =>
    cases hstep
    exact .inr ⟨_, rfl, rfl⟩
  | clearSession =>
    cases hstep
    exact .inl rfl
  | store saved =>
    cases hstep
    exact .inl rfl
  | settleReauth =>
    rw [step] at hstep
    split at hstep
    · split at hstep <;> cases hstep
      exact .inl rfl
    · cases hstep
  | _ => cases houtside

theorem bounds_of_accepted {s t : State} {a : Label} (h : Ordered s)
    (haccepted : CallsAccepted s a) (hstep : step cfg s a = some t) : Bounds cfg s a t := by
  have ht := ordered_step h haccepted hstep
  constructor
  case spaced => exact ht.timed.spaced
  case live => exact ht.live
  case single =>
    intro i j x y hx hy hxr hyr hxo hyo
    exact Option.some.inj ((ht.flight hx hxr hxo).symm.trans (ht.flight hy hyr hyo))
  case shared =>
    intro i j x hx hjoin
    obtain ⟨login, hlogin, hrecovers⟩ := ht.joined hx hjoin
    exact ⟨login, hlogin, hrecovers, ht.flight hlogin hrecovers⟩
  case logged =>
    intro x hx hrecovers
    cases hthread : a.thread with
    | some i =>
      obtain ⟨thread, hi, hmoves⟩ := moves_of_step hthread hstep
      obtain ⟨-, -, -, -, hlogged⟩ := advanced_of_moves h hi hmoves
      exact hlogged x hx hrecovers
    | none =>
      obtain hsame | ⟨y, hnew, hy⟩ := threads_of_outside hstep hthread
      · rw [hsame, List.getElem?_eq_none (le_refl _)] at hx
        cases hx
      · rw [hnew, List.getElem?_concat_length] at hx
        cases hx
        rw [hy] at hrecovers
        cases hrecovers
  case retries =>
    intro i x y p q hthread hx hy hp hq hopen
    obtain ⟨thread, hi, hmoves⟩ := moves_of_step hthread hstep
    obtain ⟨after, hafter, hadvanced, -⟩ := advanced_of_moves h hi hmoves
    obtain rfl := Option.some.inj (hi.symm.trans hx)
    obtain rfl := Option.some.inj (hafter.symm.trans hy)
    exact hadvanced.retries p q hp hq hopen
  case nearer =>
    intro i x y hthread hx hy
    obtain ⟨thread, hi, hmoves⟩ := moves_of_step hthread hstep
    obtain ⟨after, hafter, hadvanced, -⟩ := advanced_of_moves h hi hmoves
    obtain rfl := Option.some.inj (hi.symm.trans hx)
    obtain rfl := Option.some.inj (hafter.symm.trans hy)
    exact hadvanced.rank
  case others =>
    intro i x hx hother
    cases hthread : a.thread with
    | some j =>
      obtain ⟨thread, hj, hmoves⟩ := moves_of_step hthread hstep
      obtain ⟨-, -, -, hothers, -⟩ := advanced_of_moves h hj hmoves
      refine hothers i x hx ?_
      rintro rfl
      exact hother hthread
    | none =>
      obtain hsame | ⟨y, hnew, -⟩ := threads_of_outside hstep hthread
      · rwa [hsame]
      · rw [hnew]
        exact Lists.getElem?_append_of_some hx

/-- What waits for a login that has not settled cannot go on. -/
theorem not_goesOn_of_joined {s : State} {i j : ℕ} {thread : Thread}
    (hi : s.threads[i]? = some thread) (hjoins : thread.joins = some j)
    (hunsettled : s.settledLogin j = none) : ¬GoesOn cfg s i := by
  rintro ⟨a, t, hthread, hstep⟩
  obtain ⟨p, hp, hjoin⟩ := Option.bind_eq_some_iff.mp hjoins
  obtain ⟨sent, refusal, hpc⟩ := pc_of_joins hjoin
  obtain ⟨x, hx, hmoves⟩ := moves_of_step hthread hstep
  obtain rfl := Option.some.inj (hi.symm.trans hx)
  cases hmoves with
  | call _ q r hq hact =>
    obtain rfl := Option.some.inj (hp.symm.trans hq)
    cases a with
    | exchanged k answer now => simp [Post.act, Post.exchanged, hpc] at hact
    | answered k answer now => simp [Post.act, hpc] at hact
    | run k now => simp [Post.act, Post.run, hpc, hunsettled] at hact
    | _ => cases hact
  | login l r hacted hbetween =>
    have hdone := hbetween p hp
    rw [Post.done, hpc] at hdone
    cases hdone

/-- A recovery login whose call is rejected waits for itself. -/
theorem not_live_of_rejected {s : State} {a : Label} {i : ℕ} {thread : Thread} {p : Post}
    (h : Ordered s) (hthread : a.thread = some i) (hi : s.threads[i]? = some thread)
    (hrecovers : thread.recovers = true) (hp : thread.post? = some p)
    (hrejected : TokenRejected s p a) : ∃ t, step cfg s a = some t ∧ ¬Live cfg t := by
  obtain ⟨k, now, sent, second, refusal, hpc, hfinished, hreauth, hheld⟩ := hrejected
  have hopen : thread.done = false := open_of_post hp (by rw [Post.done, hpc])
  have hattempt := h.flight hi hrecovers hopen
  have hact : p.act cfg s (.answered k (.refused refusal) now) =
      some (s, { p with pc := .joined sent refusal i }) := by
    rw [Post.act, hpc]
    dsimp only
    rw [p.answered_refused cfg s sent now hfinished, if_neg (by rw [hreauth]; decide),
      Post.recoverRejectedSession, if_neg (by rw [hheld]; decide), hattempt]
  refine ⟨_, step_call hthread hi hp hact, fun hlive => ?_⟩
  have hreplaced := replaced_modify (Thread.withCall { p with pc := .joined sent refusal i }) hi
  have hpost := post?_withCall hp { p with pc := .joined sent refusal i }
  have hjoins : (thread.withCall { p with pc := .joined sent refusal i }).joins = some i := by
    rw [Thread.joins, hpost]
    rfl
  have hwaiting := open_of_post hpost rfl
  -- the login at `i` has not ended, so neither can its promise settle
  have hunsettled : (s.setCall i { p with pc := .joined sent refusal i }).settledLogin i = none := by
    rw [State.settledLogin]
    split
    · rename_i isVerify recovery result hdone
      obtain hsame := Option.some.inj (hreplaced.here.symm.trans hdone)
      rw [hsame] at hwaiting
      cases hwaiting
    · rfl
  have hstuck := @not_goesOn_of_joined cfg _ i i _ hreplaced.here hjoins hunsettled
  obtain hgoes | ⟨j, hj, hgoes | ⟨-, hsettles⟩⟩ := hlive i _ hreplaced.here hwaiting
  · exact hstuck hgoes
  · obtain rfl := Option.some.inj (hjoins.symm.trans hj)
    exact hstuck hgoes
  · have hattempt' : (s.setCall i { p with pc := .joined sent refusal i }).reauthAttempt = some i :=
      hattempt
    rw [step, hattempt'] at hsettles
    dsimp only at hsettles
    split at hsettles
    · rename_i isVerify recovery result hdone
      have hsame := Option.some.inj (hreplaced.here.symm.trans hdone)
      rw [hsame] at hwaiting
      cases hwaiting
    · cases hsettles

theorem bounded_iff {s : State} {a : Label} (h : Ordered s) :
    Bounded cfg s a ↔ CallsAccepted s a := by
  constructor
  · intro hbounded i thread p hthread hi hrecovers hp hrejected
    obtain ⟨t, hstep, hstuck⟩ := not_live_of_rejected h hthread hi hrecovers hp hrejected
    exact hstuck (hbounded t hstep).live
  · intro haccepted t hstep
    exact bounds_of_accepted h haccepted hstep

/-- In every run of a client, there is one recovery login at a time and it is shared, recovery
logins keep their distance, and calls come to their end with each recovery made once at most:
exactly where no call that a recovery login makes finds the token finished that is held. -/
theorem recovery_logins_iff (cfg : Config) (saved : Option PersistedSession) (now : ℤ)
    (as : List Label) :
    StepsMeet (step cfg) (Bounded cfg) (fresh saved now) as ↔
      StepsMeet (step cfg) CallsAccepted (fresh saved now) as :=
  stepsMeet_congr (ordered_fresh saved now) (fun _ _ h => bounded_iff h)
    fun _ _ _ h haccepted hstep => ordered_step h haccepted hstep

/-- A recovery login comes to the code a human has to enter, and the request that sends it is
rejected. -/
def rejectedVerifyCode : List Label :=
  [.postSigned .mega true 0, .run 0 0, .answered 0 (.refused kicked) 0,
    .exchanged 1 (.granted "k" "s") 0, .run 1 0, .run 1 0,
    .answered 1 (.success { userId := "u", authToken := "limited", faInfo := "email" }) 0,
    .run 1 0, .run 1 0]

theorem rejected_login_waits_for_itself :
    ¬StepsMeet (step account) (Bounded account) (fresh (some savedSession) 0)
      (rejectedVerifyCode ++ [.answered 1 (.refused kicked) 0]) := by
  intro hmeet
  obtain ⟨s, hs⟩ := Option.isSome_iff_exists.mp
    (by decide : (exec (step account) (fresh (some savedSession) 0) rejectedVerifyCode).isSome)
  have hfacts : (exec (step account) (fresh (some savedSession) 0) rejectedVerifyCode).map (fun s =>
      (step account s (.answered 1 (.refused kicked) 0)).map fun t =>
        (t.threads[1]?.map fun x => (x.joins, x.done), t.settledLogin 1,
          (step account t .settleReauth).isSome)) =
      some (some (some (some 1, false), none, false)) := by decide
  rw [hs] at hfacts
  obtain ⟨t, ht, hstate⟩ := Option.map_eq_some_iff.mp (Option.some.inj hfacts)
  simp only [Prod.mk.injEq] at hstate
  obtain ⟨hthread, hunsettled, hsettles⟩ := hstate
  obtain ⟨x, hx, hwaits⟩ := Option.map_eq_some_iff.mp hthread
  simp only [Prod.mk.injEq] at hwaits
  obtain ⟨hjoins, hopen⟩ := hwaits
  have hstuck := @not_goesOn_of_joined account t 1 1 x hx hjoins hunsettled
  obtain hgoes | ⟨j, hj, hgoes | ⟨-, hsettled⟩⟩ := (hmeet.meets hs t ht).live 1 x hx hopen
  · exact hstuck hgoes
  · obtain rfl := Option.some.inj (hjoins.symm.trans hj)
    exact hstuck hgoes
  · rw [hsettles] at hsettled
    cases hsettled

end EufySdk.MegaClient
