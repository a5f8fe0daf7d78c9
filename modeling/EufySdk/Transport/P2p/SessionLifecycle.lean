import Mathlib.Tactic
import EufySdk.Lib.Machine

/-!
# The session manager over all its stations

`transport/p2p/session-manager.ts` as a step function. A step is a call, a timer, or what
runs between two awaits. An entry is an object with an identity, since timers, opens and
closes that were begun on one find it again after it has been discarded, so all entries
there ever were stay in a list and the map holds the index of a station's present one. The
owner's `onAutoClose` removes a station that has no entry by then, and does nothing else
here.

- `Manager` — the state: entries, timers, promises, opens and closes in flight
- `Label`, `Manager.step` — what can happen
- `Manager.Transition` — the same as a relation, with what each branch was guarded by
-/

namespace EufySdk.SessionLifecycle

/-- How a promise without a value settles. -/
inductive Outcome
  | resolved
  | rejected (err : String)
  deriving DecidableEq, Repr

/-- A `SessionEntry`: timers, promises and opens by their number. -/
structure Entry (κ : Type*) where
  key : κ
  session : Option ℕ := none
  retained : ℕ := 0
  holdTimers : List ℕ := []
  reset : Option ℕ := none
  idle : Bool := false
  connecting : Option ℕ := none
  deriving DecidableEq, Repr

/-- The timer of a `hold`. It releases its station by serial. -/
structure Hold (κ : Type*) where
  entry : ℕ
  key : κ
  pending : Bool := true
  deriving DecidableEq, Repr

/-- The promise of a deferred reset, and how often it was settled. -/
structure Reset where
  entry : ℕ
  settlements : List Outcome := []
  deriving DecidableEq, Repr

/-- A `closeEntry`; the outcome is that of the session's close. -/
structure Closing where
  entry : ℕ
  session : Option ℕ
  outcome : Option Outcome := none
  deriving DecidableEq, Repr

/-- What a call of `resetWhenUnused` returned. -/
inductive Promised
  /-- There was no entry. -/
  | done
  /-- The promise of the close that was begun at once. -/
  | closing (c : ℕ)
  | reset (r : ℕ)
  deriving DecidableEq, Repr

/-- How a call of `acquire` settles. -/
inductive Acquired
  | session (i : ℕ)
  | superseded
  | failed (err : String)
  deriving DecidableEq, Repr

/-- Where the caller that opened stands. -/
inductive Stage
  /-- The factory runs, or its promise has settled and the caller has not gone on. -/
  | opening
  /-- The open was superseded, and its session is being closed. -/
  | closing
  | done (verdict : Acquired)
  deriving DecidableEq, Repr

/-- An open: `connecting` of an entry. `session` is what the factory has registered, `result`
how its promise has settled. -/
structure Open where
  entry : ℕ
  generation : ℕ
  session : Option ℕ := none
  result : Option (Except String ℕ) := none
  stage : Stage := .opening
  deriving DecidableEq

/-- A call of `acquire`: on which open it waits, as the one that opens or as one that joins. -/
structure Call where
  opening : Option ℕ
  opener : Bool := false
  outcome : Option Acquired := none
  deriving DecidableEq, Repr

structure Manager (κ : Type*) where
  objects : List (Entry κ) := []
  entries : κ → Option ℕ := fun _ => none
  generation : ℕ := 0
  /-- Power tier per station. -/
  battery : κ → Bool := fun _ => false
  holds : List (Hold κ) := []
  resets : List Reset := []
  closings : List Closing := []
  resetCalls : List Promised := []
  opens : List Open := []
  calls : List Call := []
  /-- The sessions built so far. -/
  sessions : ℕ := 0
  /-- The sessions the manager has closed. -/
  closed : List ℕ := []
  /-- The stations `onAutoClose` was called for. -/
  announced : List κ := []

namespace Manager

variable {κ : Type*} [DecidableEq κ]

/-! ## Entries -/

def modify (m : Manager κ) (k : ℕ) (f : Entry κ → Entry κ) : Manager κ :=
  { m with objects := m.objects.modify k f }

/-- Entry `k` is in the map. -/
def present (m : Manager κ) (k : ℕ) : Bool :=
  (m.objects[k]?).any fun e => m.entries e.key = some k

omit [DecidableEq κ] in
theorem present_iff {m : Manager κ} {k : ℕ} :
    m.present k = true ↔ ∃ e, m.objects[k]? = some e ∧ m.entries e.key = some k := by
  rw [present, Option.any_eq_true]
  simp only [decide_eq_true_eq]

/-- `entry`: get or create. -/
def entry (m : Manager κ) (key : κ) : Manager κ × ℕ :=
  match m.entries key with
  | some k => (m, k)
  | none =>
    ({ m with
      objects := m.objects ++ [{ key := key }]
      entries := Function.update m.entries key (some m.objects.length) }, m.objects.length)

/-! ## Closing -/

def cancelHolds (holds : List (Hold κ)) (timers : List ℕ) : List (Hold κ) :=
  holds.mapIdx fun i h => if i ∈ timers then { h with pending := false } else h

/-- `discard` of a station's entry `k`: every timer it owns dies with it. -/
def discard (m : Manager κ) (k : ℕ) : Manager κ :=
  match m.objects[k]? with
  | some e =>
    { m.modify k fun e => { e with idle := false, holdTimers := [] } with
      holds := cancelHolds m.holds e.holdTimers
      entries := Function.update m.entries e.key none }
  | none => m

def settleReset (m : Manager κ) (k : ℕ) (outcome : Outcome) : Manager κ :=
  match (m.objects[k]?).bind Entry.reset with
  | some r =>
    { m.modify k fun e => { e with reset := none } with
      resets := m.resets.modify r fun p => { p with settlements := p.settlements ++ [outcome] } }
  | none => m

/-- `closeEntry` up to its await. -/
def closeEntry (m : Manager κ) (k : ℕ) : Manager κ :=
  let session := (m.objects[k]?).bind Entry.session
  { m with
    closings := m.closings ++ [{ entry := k, session := session }]
    closed := m.closed ++ session.toList }

/-- `closeEntry` behind its await. -/
def closeEnds (m : Manager κ) (c : ℕ) (closing : Closing) (outcome : Outcome) : Manager κ :=
  { m with
    closings := m.closings.modify c fun closing => { closing with outcome := some outcome } }.settleReset
      closing.entry outcome

def close (m : Manager κ) (key : κ) : Manager κ :=
  match m.entries key with
  | some k => (m.discard k).closeEntry k
  | none => m

def autoClose (m : Manager κ) (key : κ) : Manager κ :=
  match m.entries key with
  | some k =>
    let discarded := m.discard k
    let announced :=
      if ((m.objects[k]?).bind Entry.session).isSome then m.announced ++ [key] else m.announced
    { discarded with announced := announced }.closeEntry k
  | none => m

/-- `remove`: what was deferred settles with the entry. -/
def remove (m : Manager κ) (key : κ) : Manager κ :=
  match m.entries key with
  | some k => (m.discard k).settleReset k .resolved
  | none => m

/-- The entries in the map, in the order they were created. -/
def presentEntries (m : Manager κ) : List ℕ := (List.range m.objects.length).filter m.present

def closeAll (m : Manager κ) : Manager κ :=
  let entries := m.presentEntries
  let discarded := entries.foldl discard { m with generation := m.generation + 1 }
  entries.foldl closeEntry discarded

/-! ## Retaining -/

def retain (m : Manager κ) (key : κ) : Manager κ :=
  let (m, k) := m.entry key
  m.modify k fun e => { e with retained := e.retained + 1, idle := false }

/-- `armIdle`: a wired station stays. -/
def armIdle (m : Manager κ) (key : κ) (k : ℕ) : Manager κ :=
  m.modify k fun e => { e with idle := m.battery key }

def release (m : Manager κ) (key : κ) : Manager κ :=
  match m.entries key with
  | some k =>
    match m.objects[k]? with
    | some e =>
      if e.retained = 0 then m
      else
        let released := m.modify k fun e => { e with retained := e.retained - 1 }
        if e.reset.isSome && e.retained - 1 ≤ e.holdTimers.length then released.autoClose key
        else if e.retained - 1 = 0 then released.armIdle key k
        else released
    | none => m
  | none => m

/-- `hold`, and `bumpCommand`. -/
def hold (m : Manager κ) (key : κ) : Manager κ :=
  let (m, k) := m.entry key
  let timer := m.holds.length
  let m := m.retain key
  { m.modify k fun e => { e with holdTimers := e.holdTimers ++ [timer] } with
    holds := m.holds ++ [{ entry := k, key := key }] }

/-- A hold expires. -/
def holdExpires (m : Manager κ) (i : ℕ) (h : Hold κ) : Manager κ :=
  { m.modify h.entry fun e => { e with holdTimers := e.holdTimers.erase i } with
    holds := m.holds.modify i fun h => { h with pending := false } }.release h.key

/-- The idle timer of entry `k` fires: `onIdle` of its station. -/
def idleElapses (m : Manager κ) (k : ℕ) (e : Entry κ) : Manager κ :=
  let m := m.modify k fun e => { e with idle := false }
  match (m.entries e.key).bind (m.objects[·]?) with
  | some now => if 0 < now.retained then m else m.autoClose e.key
  | none => m

def resetWhenUnused (m : Manager κ) (key : κ) : Manager κ :=
  match m.entries key with
  | some k =>
    match m.objects[k]? with
    | some e =>
      if e.retained ≤ e.holdTimers.length then
        { m.autoClose key with resetCalls := m.resetCalls ++ [.closing m.closings.length] }
      else
        match e.reset with
        | some r => { m with resetCalls := m.resetCalls ++ [.reset r] }
        | none =>
          { m.modify k fun e => { e with reset := some m.resets.length } with
            resets := m.resets ++ [{ entry := k }]
            resetCalls := m.resetCalls ++ [.reset m.resets.length] }
    | none => m
  | none => { m with resetCalls := m.resetCalls ++ [.done] }

/-! ## Opening -/

def acquire (m : Manager κ) (key : κ) : Manager κ :=
  let (m, k) := m.entry key
  match m.objects[k]? with
  | some e =>
    match e.connecting, e.session with
    | some o, _ => { m with calls := m.calls ++ [{ opening := some o }] }
    | none, some i =>
      { m with calls := m.calls ++ [{ opening := none, outcome := some (.session i) }] }
    | none, none =>
      { m.modify k fun e => { e with connecting := some m.opens.length } with
        opens := m.opens ++ [{ entry := k, generation := m.generation }]
        calls := m.calls ++ [{ opening := some m.opens.length, opener := true }] }
  | none => m

def modifyOpen (m : Manager κ) (o : ℕ) (f : Open → Open) : Manager κ :=
  { m with opens := m.opens.modify o f }

/-- The factory of open `o` builds its session and registers it. -/
def register (m : Manager κ) (o : ℕ) (p : Open) : Manager κ :=
  { (m.modify p.entry fun e => { e with session := some m.sessions }).modifyOpen o fun p =>
      { p with session := some m.sessions } with
    sessions := m.sessions + 1 }

/-- The open was closed or superseded while its factory ran. -/
def superseded (m : Manager κ) (p : Open) : Bool :=
  p.generation ≠ m.generation || !m.present p.entry

/-- The caller that opened is done: `finally`, and its promise settles. -/
def conclude (m : Manager κ) (o : ℕ) (p : Open) (verdict : Acquired) : Manager κ :=
  { (m.modify p.entry fun e =>
      if e.connecting = some o then { e with connecting := none } else e).modifyOpen o fun p =>
        { p with stage := .done verdict } with
    calls := m.calls.map fun call =>
      if call.opening = some o && call.opener then { call with outcome := some verdict } else call }

/-- The caller that opened goes on behind `await p`. -/
def continues (m : Manager κ) (o : ℕ) (p : Open) : Except String ℕ → Manager κ
  | .error err => m.conclude o p (.failed err)
  | .ok i =>
    if m.superseded p then
      { m.modifyOpen o fun p => { p with stage := .closing } with closed := m.closed ++ [i] }
    else
      let session := ((m.objects[p.entry]?).bind Entry.session).getD i
      (m.modify p.entry fun e => { e with session := some session }).conclude o p (.session session)

/-- A call that joined settles as the factory's promise did. -/
def settle (m : Manager κ) (c : ℕ) : Except String ℕ → Manager κ
  | .error err =>
    { m with calls := m.calls.modify c fun call => { call with outcome := some (.failed err) } }
  | .ok i =>
    { m with calls := m.calls.modify c fun call => { call with outcome := some (.session i) } }

end Manager

/-! ## Steps -/

inductive Label (κ : Type*)
  | acquire (key : κ)
  | register (o : ℕ)
  /-- The factory's promise resolves with the session it registered. -/
  | completes (o : ℕ)
  | fails (o : ℕ) (err : String)
  | continues (o : ℕ)
  /-- The session of a superseded open is closed, or its close failed. -/
  | abandoned (o : ℕ) (failure : Option String)
  | settles (c : ℕ)
  | retain (key : κ)
  | release (key : κ)
  /-- `hold` or `bumpCommand`. -/
  | hold (key : κ)
  | holdExpires (i : ℕ)
  | idleElapses (k : ℕ)
  | close (key : κ)
  | remove (key : κ)
  | closeAll
  | resetWhenUnused (key : κ)
  | closeEnds (c : ℕ) (outcome : Outcome)
  | powered (key : κ) (battery : Bool)
  deriving DecidableEq, Repr

open Manager in
def Manager.step {κ : Type*} [DecidableEq κ] (m : Manager κ) : Label κ → Option (Manager κ)
  | .acquire key => some (m.acquire key)
  | .register o =>
    match m.opens[o]? with
    | some p => if p.session.isNone && p.result.isNone then some (m.register o p) else none
    | none => none
  | .completes o =>
    match m.opens[o]? with
    | some ⟨_, _, some i, none, _⟩ =>
      some (m.modifyOpen o fun p => { p with result := some (.ok i) })
    | _ => none
  | .fails o err =>
    match m.opens[o]? with
    | some p =>
      if p.result.isNone then
        some (m.modifyOpen o fun p => { p with result := some (.error err) })
      else none
    | none => none
  | .continues o =>
    match m.opens[o]? with
    | some p =>
      match p.result, p.stage with
      | some result, .opening => some (m.continues o p result)
      | _, _ => none
    | none => none
  | .abandoned o failure =>
    match m.opens[o]? with
    | some p =>
      if p.stage = .closing then
        some (m.conclude o p (match failure with
          | some err => .failed err
          | none => .superseded))
      else none
    | none => none
  | .settles c =>
    match m.calls[c]? with
    | some ⟨some o, false, none⟩ =>
      match m.opens[o]? with
      | some p =>
        match p.result, p.stage with
        | some _, .opening => none
        | some result, _ => some (m.settle c result)
        | none, _ => none
      | none => none
    | _ => none
  | .retain key => some (m.retain key)
  | .release key => some (m.release key)
  | .hold key => some (m.hold key)
  | .holdExpires i =>
    match m.holds[i]? with
    | some h => if h.pending then some (m.holdExpires i h) else none
    | none => none
  | .idleElapses k =>
    match m.objects[k]? with
    | some e => if e.idle then some (m.idleElapses k e) else none
    | none => none
  | .close key => some (m.close key)
  | .remove key => some (m.remove key)
  | .closeAll => some m.closeAll
  | .resetWhenUnused key => some (m.resetWhenUnused key)
  | .closeEnds c outcome =>
    match m.closings[c]? with
    | some closing =>
      -- an entry without a session has nothing that could fail
      if closing.outcome.isNone && (closing.session.isSome || outcome = .resolved) then
        some (m.closeEnds c closing outcome)
      else none
    | none => none
  | .powered key battery => some { m with battery := Function.update m.battery key battery }

/-- What a step can do: one case for each branch of `Manager.step` that answers. -/
inductive Manager.Transition {κ : Type*} [DecidableEq κ] (m : Manager κ) :
    Label κ → Manager κ → Prop
  | acquire {key : κ} : Transition m (.acquire key) (m.acquire key)
  | register {o : ℕ} {p : Open} (hp : m.opens[o]? = some p) (hsession : p.session = none)
      (hresult : p.result = none) : Transition m (.register o) (m.register o p)
  | completes {o i : ℕ} {p : Open} (hp : m.opens[o]? = some p) (hsession : p.session = some i)
      (hresult : p.result = none) :
      Transition m (.completes o) (m.modifyOpen o fun p => { p with result := some (.ok i) })
  | fails {o : ℕ} {err : String} {p : Open} (hp : m.opens[o]? = some p)
      (hresult : p.result = none) :
      Transition m (.fails o err) (m.modifyOpen o fun p => { p with result := some (.error err) })
  | continues {o : ℕ} {p : Open} {r : Except String ℕ} (hp : m.opens[o]? = some p)
      (hresult : p.result = some r) (hstage : p.stage = .opening) :
      Transition m (.continues o) (m.continues o p r)
  | abandoned {o : ℕ} {p : Open} {failure : Option String} (hp : m.opens[o]? = some p)
      (hstage : p.stage = .closing) :
      Transition m (.abandoned o failure) (m.conclude o p (failure.elim .superseded .failed))
  | settles {c o : ℕ} {p : Open} {r : Except String ℕ}
      (hc : m.calls[c]? = some ⟨some o, false, none⟩) (hp : m.opens[o]? = some p)
      (hresult : p.result = some r) (hstage : p.stage ≠ .opening) :
      Transition m (.settles c) (m.settle c r)
  | retain {key : κ} : Transition m (.retain key) (m.retain key)
  | release {key : κ} : Transition m (.release key) (m.release key)
  | hold {key : κ} : Transition m (.hold key) (m.hold key)
  | holdExpires {i : ℕ} {h : Hold κ} (hh : m.holds[i]? = some h) (hpending : h.pending = true) :
      Transition m (.holdExpires i) (m.holdExpires i h)
  | idleElapses {k : ℕ} {e : Entry κ} (he : m.objects[k]? = some e) (hidle : e.idle = true) :
      Transition m (.idleElapses k) (m.idleElapses k e)
  | close {key : κ} : Transition m (.close key) (m.close key)
  | remove {key : κ} : Transition m (.remove key) (m.remove key)
  | closeAll : Transition m .closeAll m.closeAll
  | resetWhenUnused {key : κ} : Transition m (.resetWhenUnused key) (m.resetWhenUnused key)
  | closeEnds {c : ℕ} {outcome : Outcome} {closing : Closing} (hc : m.closings[c]? = some closing)
      (hpending : closing.outcome = none)
      (hcan : closing.session.isSome = true ∨ outcome = .resolved) :
      Transition m (.closeEnds c outcome) (m.closeEnds c closing outcome)
  | powered {key : κ} {battery : Bool} :
      Transition m (.powered key battery)
        { m with battery := Function.update m.battery key battery }

theorem Manager.transition_of_step {κ : Type*} [DecidableEq κ] {m n : Manager κ} {label : Label κ}
    (hstep : m.step label = some n) : m.Transition label n := by
  cases label with
  | acquire | retain | release | hold | close | remove | closeAll | resetWhenUnused | powered =>
    obtain rfl := Option.some.inj hstep
    constructor
  | register o =>
    simp only [Manager.step] at hstep
    split at hstep
    · next p hp =>
      split_ifs at hstep with hnone
      obtain rfl := Option.some.inj hstep
      rw [Bool.and_eq_true, Option.isNone_iff_eq_none, Option.isNone_iff_eq_none] at hnone
      exact .register hp hnone.1 hnone.2
    · cases hstep
  | completes o =>
    simp only [Manager.step] at hstep
    split at hstep
    · next hp =>
      obtain rfl := Option.some.inj hstep
      exact .completes hp rfl rfl
    · cases hstep
  | fails o err =>
    simp only [Manager.step] at hstep
    split at hstep
    · next p hp =>
      split_ifs at hstep with hnone
      obtain rfl := Option.some.inj hstep
      exact .fails hp (Option.isNone_iff_eq_none.mp hnone)
    · cases hstep
  | continues o =>
    simp only [Manager.step] at hstep
    split at hstep
    · next p hp =>
      split at hstep
      · next hresult hstage =>
        obtain rfl := Option.some.inj hstep
        exact .continues hp hresult hstage
      · cases hstep
    · cases hstep
  | abandoned o failure =>
    simp only [Manager.step] at hstep
    split at hstep
    · next p hp =>
      split_ifs at hstep with hstage
      obtain rfl := Option.some.inj hstep
      cases failure with
      | none => exact .abandoned hp hstage
      | some err => exact .abandoned hp hstage
    · cases hstep
  | settles c =>
    simp only [Manager.step] at hstep
    split at hstep
    · next hc =>
      split at hstep
      · next p hp =>
        split at hstep
        · cases hstep
        · next hresult hstage =>
          obtain rfl := Option.some.inj hstep
          exact .settles hc hp hresult hstage
        · cases hstep
      · cases hstep
    · cases hstep
  | holdExpires | idleElapses =>
    simp only [Manager.step] at hstep
    split at hstep
    · split_ifs at hstep
      obtain rfl := Option.some.inj hstep
      constructor <;> assumption
    · cases hstep
  | closeEnds c outcome =>
    simp only [Manager.step] at hstep
    split at hstep
    · next closing hc =>
      split_ifs at hstep with hcan
      obtain rfl := Option.some.inj hstep
      rw [Bool.and_eq_true, Option.isNone_iff_eq_none, Bool.or_eq_true, decide_eq_true_eq] at hcan
      exact .closeEnds hc hcan.1 hcan.2
    · cases hstep

end EufySdk.SessionLifecycle
