import EufySdk.Lib.Lists
import EufySdk.Lib.Machine
import EufySdk.Lib.Turns

/-!
# State-transition transactions

What `client/eufy-mega.ts` does with the commands whose effect it observes and with the
events that ask for a re-read: each is a transaction queued under its `sn:param` key, and a
push under a key with a command outstanding is an echo. A step ends where the source awaits,
or calls listeners.

- `Client` — the two maps, every owner object and every transaction enqueued so far
- `Client.step` — one step of one transaction, a dispatch, a signal or a disconnect
- `Transactional` — one at a time, in order, each dispatch answered once, counted and cleared
-/

namespace EufySdk.StateTransitions

/-- Where a transaction's operation stands; `failed` once its promise rejected. -/
inductive Phase
  /-- Behind its predecessor. -/
  | queued
  /-- In `routeCommand`. -/
  | routing
  /-- In `refreshEventState`. -/
  | refreshing
  /-- The listeners of its event run. -/
  | announcing
  /-- In `recycleStandaloneSession`. -/
  | recycling
  /-- The listeners of its failure run. -/
  | reporting
  | ended (failed : Bool)
  /-- The tracked promise has settled too. -/
  | finished (failed : Bool)
  deriving DecidableEq, Repr

/-- What is enqueued: an observed command, counted at an owner object, or an event. -/
inductive Operation
  | command (owner : ℕ) (resetStandaloneSession : Bool)
  | event
  deriving DecidableEq, Repr

structure Transaction where
  key : String
  epoch : ℕ
  operation : Operation
  predecessor : Option ℕ
  phase : Phase
  /-- How `routeCommand` settled. -/
  routed : Option Bool := none
  /-- The calls of the acknowledgement's `resolve` (`true`) and `reject` (`false`). -/
  answers : List Bool := []
  deriving DecidableEq, Repr

/-- An entry of `commandRefreshes`. -/
structure Owner where
  epoch : ℕ
  count : ℕ
  deriving DecidableEq, Repr

structure Client where
  realtimeEpoch : ℕ := 0
  /-- Every transaction, by the order they were enqueued in. -/
  transactions : List Transaction := []
  /-- The tracked promise under a key, as the transaction it belongs to. -/
  stateTransitions : String → Option ℕ := fun _ => none
  /-- Every owner object, by reference. -/
  owners : List Owner := []
  commandRefreshes : String → Option ℕ := fun _ => none

/-- How `refreshEventState` settles. -/
inductive Refreshed
  | converged
  | superseded
  | threw
  deriving DecidableEq, Repr

inductive Label
  /-- A dispatch of an observed command. -/
  | dispatch (sn : String) (param : ℕ) (resetStandaloneSession : Bool)
  /-- `emitSemantic` with a refresh; `live` while a `Device` of the serial is held. -/
  | signal (sn : String) (param : ℕ) (live : Bool)
  | wake (i : ℕ)
  | routed (i : ℕ) (ok : Bool)
  | refreshed (i : ℕ) (outcome : Refreshed)
  | announced (i : ℕ) (throws : Bool)
  | recycled (i : ℕ) (ok : Bool)
  | reported (i : ℕ) (throws : Bool)
  /-- The tracked promise's `finally`. -/
  | untrack (i : ℕ)
  /-- The handler on a transaction that rejected. -/
  | caught (i : ℕ) (throws : Bool)
  | disconnect
  deriving DecidableEq, Repr

/-- No listener throws in the step. -/
def Label.quiet : Label → Bool
  | .announced _ throws | .reported _ throws | .caught _ throws => !throws
  | _ => true

def eventRefreshKey (sn : String) (param : ℕ) : String :=
  sn ++ ":" ++ toString param

namespace Phase

open Turns

def stage : Phase → Stage
  | queued => .waiting
  | finished _ => .over
  | _ => .underway

/-- The operation has run to its end, `finally` included. -/
def isOver : Phase → Bool
  | ended _ | finished _ => true
  | _ => false

end Phase

namespace Transaction

def acknowledged (t : Transaction) : Bool :=
  t.answers.contains true

/-- A command transaction not yet finished. -/
def outstanding (t : Transaction) : Bool :=
  match t.operation with
  | .command _ _ => !t.phase.isOver
  | .event => false

end Transaction

namespace Client

/-- Transaction `i`, while in the phase. -/
def during (c : Client) (i : ℕ) (phase : Phase) : Option Transaction :=
  (c.transactions[i]?).filter fun t => t.phase = phase

def put (c : Client) (i : ℕ) (t : Transaction) : Client :=
  { c with transactions := c.transactions.set i t }

/-- The owner under the key, if it is of the current epoch. -/
def owner (c : Client) (key : String) : Option ℕ :=
  (c.commandRefreshes key).filter fun ref =>
    (c.owners[ref]?).any fun o => o.epoch = c.realtimeEpoch

/-- The owner a dispatch counts at, a new object where the key has none. -/
def currentOwner (c : Client) (key : String) : ℕ :=
  (c.owner key).getD c.owners.length

def countDispatch (c : Client) (key : String) : Client :=
  let owners := if (c.owner key).isSome then c.owners else c.owners ++ [⟨c.realtimeEpoch, 0⟩]
  { c with
    owners := owners.modify (c.currentOwner key) fun o => { o with count := o.count + 1 }
    commandRefreshes := Function.update c.commandRefreshes key (some (c.currentOwner key)) }

/-- Give one count back, unless the key has another owner by now. -/
def release (c : Client) (key : String) (ref : ℕ) : Client :=
  if c.commandRefreshes key = some ref then
    let owners := c.owners.modify ref fun o => { o with count := o.count - 1 }
    { c with
      owners
      commandRefreshes :=
        -- the last count takes the entry with it
        if (owners[ref]?).any fun o => o.count = 0 then
          Function.update c.commandRefreshes key none
        else c.commandRefreshes }
  else c

/-- A command of this epoch is outstanding under the key. -/
def isEcho (c : Client) (key : String) : Bool :=
  (c.commandRefreshes key).any fun ref =>
    (c.owners[ref]?).any fun o => o.epoch = c.realtimeEpoch ∧ 0 < o.count

/-- What an operation awaits first. -/
def firstAwait : Operation → Phase
  | .command _ _ => .routing
  | .event => .refreshing

/-- Chain an operation behind its predecessor under the key. Without one it starts at once. -/
def enqueueStateTransition (c : Client) (key : String) (operation : Operation) : Client :=
  let predecessor := c.stateTransitions key
  { c with
    transactions := c.transactions ++
      [{ key, epoch := c.realtimeEpoch, operation, predecessor
         phase := if predecessor.isSome then .queued else firstAwait operation }]
    stateTransitions := Function.update c.stateTransitions key (some c.transactions.length) }

def dispatch (c : Client) (key : String) (resetStandaloneSession : Bool) : Client :=
  (c.countDispatch key).enqueueStateTransition key
    (.command (c.currentOwner key) resetStandaloneSession)

/-- With no live device the event is announced at once. -/
def emitSemantic (c : Client) (key : String) (live : Bool) : Client :=
  if c.isEcho key then c
  else if live then c.enqueueStateTransition key .event
  else c

/-- The operation's end: a command's `finally` runs and its promise settles. -/
def close (c : Client) (i : ℕ) (t : Transaction) (failed : Bool) : Client :=
  let released :=
    match t.operation with
    | .command owner _ => c.release t.key owner
    | .event => c
  released.put i { t with phase := .ended failed }

/-- A command's `catch`: the dispatch is rejected, or the failure behind it reported. -/
def catchError (c : Client) (i : ℕ) (t : Transaction) : Client :=
  if t.acknowledged then c.put i { t with phase := .reporting }
  -- the error goes to the caller and no further: the operation itself resolves
  else c.close i { t with answers := t.answers ++ [false] } false

/-- The predecessor's promise has settled, whether it resolved or rejected. -/
def beginOperation (c : Client) (i : ℕ) (t : Transaction) : Client :=
  let t := { t with phase := firstAwait t.operation }
  match t.operation with
  | .command _ _ =>
    if t.epoch = c.realtimeEpoch then c.put i t
    -- superseded by a disconnect
    else (c.put i t).catchError i t
  | .event => c.put i t

def afterRoute (c : Client) (i : ℕ) (t : Transaction) (ok : Bool) : Client :=
  let t := { t with routed := some ok }
  if ok then c.put i { t with phase := .refreshing, answers := t.answers ++ [true] }
  else c.catchError i t

def afterRefresh (c : Client) (i : ℕ) (t : Transaction) (outcome : Refreshed) : Client :=
  match t.operation, outcome with
  -- a re-read that throws rejects the transaction
  | .event, outcome => c.close i t (outcome = .threw)
  | .command _ _, .threw => c.catchError i t
  | .command _ _, .superseded => c.close i t false
  | .command _ _, .converged =>
    if t.epoch = c.realtimeEpoch then c.put i { t with phase := .announcing }
    else c.close i t false

def afterAnnouncement (c : Client) (i : ℕ) (t : Transaction) (throws : Bool) : Client :=
  match t.operation with
  | .command _ true =>
    if throws then c.catchError i t else c.put i { t with phase := .recycling }
  | _ => if throws then c.catchError i t else c.close i t false

def afterRecycle (c : Client) (i : ℕ) (t : Transaction) (ok : Bool) : Client :=
  if ok then c.close i t false else c.catchError i t

/-- `finally` on the tracked promise. -/
def untrack (c : Client) (i : ℕ) (t : Transaction) (failed : Bool) : Client :=
  { c.put i { t with phase := .finished failed } with
    stateTransitions :=
      if c.stateTransitions t.key = some i then Function.update c.stateTransitions t.key none
      else c.stateTransitions }

/-- The handler on a rejected transaction; a command's reports and releases once more. -/
def afterRejection (c : Client) (i : ℕ) (t : Transaction) (throws : Bool) : Client :=
  let t := { t with phase := .finished false }
  match t.operation with
  | .command owner _ =>
    -- the operation's own `finally` has released before this
    if t.acknowledged then
      if throws then c.put i t else (c.release t.key owner).put i t
    else (c.release t.key owner).put i { t with answers := t.answers ++ [false] }
  | .event => c.put i t

def disconnect (c : Client) : Client :=
  { c with
    realtimeEpoch := c.realtimeEpoch + 1
    stateTransitions := fun _ => none
    commandRefreshes := fun _ => none }

def step (c : Client) : Label → Option Client
  | .dispatch sn param reset => some (c.dispatch (eventRefreshKey sn param) reset)
  | .signal sn param live => some (c.emitSemantic (eventRefreshKey sn param) live)
  | .wake i => do
    let t ← c.during i .queued
    let p ← t.predecessor
    let before ← c.transactions[p]?
    guard (before.phase.stage = .over)
    some (c.beginOperation i t)
  | .routed i ok => (c.during i .routing).map fun t => c.afterRoute i t ok
  | .refreshed i outcome => (c.during i .refreshing).map fun t => c.afterRefresh i t outcome
  | .announced i throws =>
    (c.during i .announcing).map fun t => c.afterAnnouncement i t throws
  | .recycled i ok => (c.during i .recycling).map fun t => c.afterRecycle i t ok
  | .reported i throws => (c.during i .reporting).map fun t => c.close i t throws
  | .untrack i =>
    (c.during i (.ended false)).map (c.untrack i · false) <|>
      (c.during i (.ended true)).map (c.untrack i · true)
  | .caught i throws =>
    (c.during i (.finished true)).map fun t => c.afterRejection i t throws
  | .disconnect => some c.disconnect

/-- Transaction `i` was enqueued under the key in the current epoch. -/
def Enqueued (c : Client) (key : String) (i : ℕ) (t : Transaction) : Prop :=
  c.transactions[i]? = some t ∧ t.key = key ∧ t.epoch = c.realtimeEpoch

/-- How many commands of the epoch are outstanding under the key. -/
def pending (c : Client) (key : String) : ℕ :=
  c.transactions.countP fun t => t.key = key ∧ t.epoch = c.realtimeEpoch ∧ t.outstanding

/-- The count the key's entry carries. -/
def refreshCount (c : Client) (key : String) : ℕ :=
  (((c.commandRefreshes key).bind fun ref => c.owners[ref]?).map Owner.count).getD 0

end Client

/-- Observed commands and events under one key are transactions. -/
structure Transactional (c : Client) (key : String) : Prop where
  /-- One that has begun is behind the end of every earlier one. -/
  inOrder : ∀ i j t u, i < j → c.Enqueued key i t → c.Enqueued key j u → u.phase ≠ .queued →
    ∃ failed, t.phase = .finished failed
  /-- Two are never running together. -/
  alone : ∀ i j t u, c.Enqueued key i t → c.Enqueued key j u → t.phase.stage = .underway →
    u.phase.stage = .underway → i = j
  /-- One begins when the earlier ones are through, failed or not. -/
  unblocked : ∀ j u, c.Enqueued key j u → u.phase = .queued →
    (∀ i t, i < j → c.Enqueued key i t → ∃ failed, t.phase = .finished failed) →
    (c.step (.wake j)).isSome
  /-- A dispatch is answered once, and resolves when its command was routed. -/
  answered : ∀ t ∈ c.transactions, t.key = key → t.operation ≠ .event →
    t.answers.length ≤ 1 ∧ (t.phase.isOver → t.answers.length = 1) ∧
      (t.answers = [true] ↔ t.routed = some true)
  counted : c.refreshCount key = c.pending key
  /-- A push is an echo while a command is outstanding, and else starts a transaction. -/
  echoes : ∀ live, (0 < c.pending key → c.emitSemantic key live = c) ∧
    (c.pending key = 0 → c.emitSemantic key true = c.enqueueStateTransition key .event)
  cleared : (∀ i t, c.Enqueued key i t → ∃ failed, t.phase = .finished failed) →
    c.stateTransitions key = none ∧ c.commandRefreshes key = none

section Turns

open Turns

def Transaction.turn (t : Transaction) : Turn (ℕ × String) :=
  ⟨(t.epoch, t.key), t.predecessor, t.phase.stage⟩

def Client.turns (c : Client) : List (Turn (ℕ × String)) :=
  c.transactions.map Transaction.turn

end Turns

/-- How far a dispatch has been answered at each phase of its transaction. -/
def Transaction.Answered (t : Transaction) : Prop :=
  match t.operation, t.phase with
  | .event, _ => True
  | _, .queued | _, .routing => t.answers = [] ∧ t.routed ≠ some true
  | _, .ended failed | _, .finished failed =>
    failed = false ∧
      (t.answers = [true] ∧ t.routed = some true ∨ t.answers = [false] ∧ t.routed ≠ some true)
  | _, _ => t.answers = [true] ∧ t.routed = some true

/-- The owner objects count the commands outstanding. -/
structure Counted (c : Client) : Prop where
  entry : ∀ {key ref}, c.commandRefreshes key = some ref →
    ∃ o, c.owners[ref]? = some o ∧ o.epoch = c.realtimeEpoch ∧ o.count = c.pending key ∧
      0 < o.count
  noEntry : ∀ {key}, c.commandRefreshes key = none → c.pending key = 0
  oneKey : ∀ {key key' ref}, c.commandRefreshes key = some ref →
    c.commandRefreshes key' = some ref → key = key'
  holds : ∀ t ∈ c.transactions, ∀ ref reset, t.operation = .command ref reset →
    t.epoch = c.realtimeEpoch → t.outstanding → c.commandRefreshes t.key = some ref
  known : ∀ t ∈ c.transactions, ∀ ref reset, t.operation = .command ref reset →
    ∃ o, c.owners[ref]? = some o ∧ o.epoch = t.epoch

structure Sound (c : Client) : Prop where
  turns : ∀ key, Turns.InTurn c.turns (c.realtimeEpoch, key) (c.stateTransitions key)
  past : ∀ t ∈ c.transactions, t.epoch ≤ c.realtimeEpoch
  answered : ∀ t ∈ c.transactions, t.Answered
  counted : Counted c

namespace Transaction

/-- Only the phase and the answers of a transaction change. -/
structure SameWork (t u : Transaction) : Prop where
  key : u.key = t.key
  epoch : u.epoch = t.epoch
  operation : u.operation = t.operation
  predecessor : u.predecessor = t.predecessor

end Transaction

namespace Client

variable {c c' : Client} {i : ℕ} {t u : Transaction} {key : String}

/-- The transaction counts as outstanding under the key. -/
def counts (c : Client) (key : String) (t : Transaction) : Bool :=
  t.key = key ∧ t.epoch = c.realtimeEpoch ∧ t.outstanding

theorem pending_put (hi : c.transactions[i]? = some t) (key : String) :
    (c.put i u).pending key + (if c.counts key t then 1 else 0) =
      c.pending key + if c.counts key u then 1 else 0 :=
  Lists.countP_set_known (c.counts key) hi

theorem pending_put_of_counts (hi : c.transactions[i]? = some t)
    (hsame : c.counts key u = c.counts key t) : (c.put i u).pending key = c.pending key := by
  have hput := c.pending_put (u := u) hi key
  rw [hsame] at hput
  omega

theorem counts_congr (hsame : t.SameWork u) (hout : u.outstanding = t.outstanding) :
    c.counts key u = c.counts key t := by
  rw [counts, counts, hsame.key, hsame.epoch, hout]

@[simp] theorem release_transactions (c : Client) (key : String) (ref : ℕ) :
    (c.release key ref).transactions = c.transactions := by
  rw [release]
  split <;> rfl

@[simp] theorem release_realtimeEpoch (c : Client) (key : String) (ref : ℕ) :
    (c.release key ref).realtimeEpoch = c.realtimeEpoch := by
  rw [release]
  split <;> rfl

@[simp] theorem release_stateTransitions (c : Client) (key : String) (ref : ℕ) :
    (c.release key ref).stateTransitions = c.stateTransitions := by
  rw [release]
  split <;> rfl

/-- An entry under another transaction, or in its place. -/
theorem mem_put {x : Transaction} (hx : x ∈ (c.put i u).transactions) :
    x ∈ c.transactions ∨ x = u :=
  List.mem_or_eq_of_mem_set hx

end Client

namespace Counted

variable {c : Client} {i : ℕ} {t u : Transaction}

/-- The owner a command was counted at stays known. -/
theorem known_put (h : Counted c) (hi : c.transactions[i]? = some t) (hsame : t.SameWork u)
    {x : Transaction} (hx : x ∈ (c.put i u).transactions) {ref : ℕ} {reset : Bool}
    (hop : x.operation = .command ref reset) :
    ∃ o, c.owners[ref]? = some o ∧ o.epoch = x.epoch := by
  obtain hx | rfl := Client.mem_put hx
  · exact h.known x hx ref reset hop
  · rw [hsame.epoch]
    exact h.known t (List.mem_of_getElem? hi) ref reset (hsame.operation ▸ hop)

/-- A transaction that stays as outstanding as it was. -/
theorem put (h : Counted c) (hi : c.transactions[i]? = some t) (hsame : t.SameWork u)
    (hout : u.outstanding = t.outstanding) : Counted (c.put i u) := by
  have hmem : t ∈ c.transactions := List.mem_of_getElem? hi
  have hpending : ∀ key, (c.put i u).pending key = c.pending key := fun key =>
    Client.pending_put_of_counts hi (Client.counts_congr hsame hout)
  constructor
  · intro key ref hentry
    rw [hpending]
    exact h.entry hentry
  · intro key hentry
    rw [hpending]
    exact h.noEntry hentry
  · exact h.oneKey
  · intro x hx ref reset hop hepoch hx'
    obtain hx | rfl := Client.mem_put hx
    · exact h.holds x hx ref reset hop hepoch hx'
    · rw [hsame.key]
      exact h.holds t hmem ref reset (hsame.operation ▸ hop) (hsame.epoch ▸ hepoch)
        (hout ▸ hx')
  · exact fun x hx ref reset hop => h.known_put hi hsame hx hop

/-- A transaction that was not outstanding, whose owner is of another epoch or not held. -/
theorem release_stale (h : Counted c) {ref : ℕ} {reset : Bool} (hmem : t ∈ c.transactions)
    (hop : t.operation = .command ref reset) (hepoch : t.epoch ≠ c.realtimeEpoch) :
    c.release t.key ref = c := by
  rw [Client.release, if_neg]
  intro hentry
  obtain ⟨o, ho, hoepoch, -⟩ := h.entry hentry
  obtain ⟨o', ho', hoepoch'⟩ := h.known t hmem ref reset hop
  obtain rfl := Option.some.inj (ho.symm.trans ho')
  exact hepoch (hoepoch'.symm.trans hoepoch)

/-- A release at the owner the key has: its count goes down, the last one takes the entry. -/
theorem release_entry {key : String} {ref : ℕ} {o : Owner}
    (hentry : c.commandRefreshes key = some ref) (ho : c.owners[ref]? = some o) :
    (∀ key', (c.release key ref).commandRefreshes key' =
        if key' = key ∧ o.count - 1 = 0 then none else c.commandRefreshes key') ∧
      ∀ ref', (c.release key ref).owners[ref']? =
        if ref' = ref then some { o with count := o.count - 1 } else c.owners[ref']? := by
  have hlt := (List.getElem?_eq_some_iff.mp ho).1
  have hmodify : (c.owners.modify ref fun o => { o with count := o.count - 1 }) =
      c.owners.set ref { o with count := o.count - 1 } := by
    rw [List.modify_eq_set_getElem?, ho]
    rfl
  rw [Client.release, if_pos hentry, hmodify]
  simp only [List.getElem?_set_self hlt, Option.any_some, decide_eq_true_eq]
  constructor
  · intro key'
    by_cases hzero : o.count - 1 = 0
    · rw [if_pos hzero, Function.update_apply]
      simp only [hzero, and_true]
    · simp only [hzero, and_false, if_false]
  · intro ref'
    by_cases hne : ref' = ref
    · rw [hne, List.getElem?_set_self hlt, if_pos rfl]
    · rw [List.getElem?_set_ne (Ne.symm hne), if_neg hne]

/-- A command of another epoch ends: the count it held went with its epoch. -/
theorem close_stale (h : Counted c) (hi : c.transactions[i]? = some t) {ref : ℕ} {reset : Bool}
    (hop : t.operation = .command ref reset) (hepoch : t.epoch ≠ c.realtimeEpoch)
    (hsame : t.SameWork u) (hover : u.outstanding = false) :
    Counted ((c.release t.key ref).put i u) := by
  have hmem : t ∈ c.transactions := List.mem_of_getElem? hi
  have hpending : ∀ key, (c.put i u).pending key = c.pending key := by
    intro key
    refine Client.pending_put_of_counts hi ?_
    simp [Client.counts, hover, hepoch]
  rw [h.release_stale hmem hop hepoch]
  constructor
  · intro key ref' hentry
    rw [hpending]
    exact h.entry hentry
  · intro key hentry
    rw [hpending]
    exact h.noEntry hentry
  · exact h.oneKey
  · intro x hx ref' reset' hop' hepoch' hout'
    obtain hx | rfl := Client.mem_put hx
    · exact h.holds x hx ref' reset' hop' hepoch' hout'
    · rw [hover] at hout'
      cases hout'
  · exact fun x hx ref' reset' hop' => h.known_put hi hsame hx hop'

/-- A command's end gives back its one count. -/
theorem close (h : Counted c) (hi : c.transactions[i]? = some t) (hout : t.outstanding)
    {ref : ℕ} {reset : Bool} (hop : t.operation = .command ref reset) (hsame : t.SameWork u)
    (hover : u.outstanding = false) : Counted ((c.release t.key ref).put i u) := by
  have hmem : t ∈ c.transactions := List.mem_of_getElem? hi
  by_cases hepoch : t.epoch = c.realtimeEpoch
  swap
  · exact h.close_stale hi hop hepoch hsame hover
  have hentry := h.holds t hmem ref reset hop hepoch hout
  obtain ⟨o, ho, hoepoch, hocount, hopos⟩ := h.entry hentry
  obtain ⟨hrefreshes, howners⟩ := release_entry hentry ho
  have hmine : (c.put i u).pending t.key + 1 = c.pending t.key := by
    have hput := c.pending_put (u := u) hi t.key
    simpa [Client.counts, hepoch, hout, hover] using hput
  have hother : ∀ key, key ≠ t.key → (c.put i u).pending key = c.pending key := by
    intro key hne
    refine Client.pending_put_of_counts hi ?_
    simp [Client.counts, hover, Ne.symm hne]
  have hpending : ∀ key, ((c.release t.key ref).put i u).pending key =
      (c.put i u).pending key := by
    intro key
    rw [Client.release]
    split <;> rfl
  constructor
  · intro key ref' hentry'
    change (c.release t.key ref).commandRefreshes key = some ref' at hentry'
    change ∃ o', (c.release t.key ref).owners[ref']? = some o' ∧
      o'.epoch = (c.release t.key ref).realtimeEpoch ∧ _
    rw [hrefreshes] at hentry'
    rw [hpending, howners, Client.release_realtimeEpoch]
    by_cases hk : key = t.key
    · subst hk
      -- an entry that stays counts one less, and still counts
      split at hentry'
      · cases hentry'
      · rename_i hleft
        obtain rfl := Option.some.inj (hentry.symm.trans hentry')
        refine ⟨_, if_pos rfl, hoepoch, ?_, ?_⟩
        · change o.count - 1 = (c.put i u).pending t.key
          omega
        · exact Nat.pos_of_ne_zero fun hzero => hleft ⟨rfl, hzero⟩
    · -- another key's entry is at another owner object
      rw [if_neg (fun hkey => hk hkey.1)] at hentry'
      have hne : ref' ≠ ref := by
        rintro rfl
        exact hk (h.oneKey hentry' hentry)
      rw [if_neg hne, hother key hk]
      exact h.entry hentry'
  · intro key hentry'
    change (c.release t.key ref).commandRefreshes key = none at hentry'
    rw [hrefreshes] at hentry'
    rw [hpending]
    split at hentry'
    · rename_i hlast
      rw [hlast.1]
      omega
    · by_cases hk : key = t.key
      · rw [hk, hentry] at hentry'
        cases hentry'
      · rw [hother key hk]
        exact h.noEntry hentry'
  · intro key key' ref' hk hk'
    change (c.release t.key ref).commandRefreshes _ = _ at hk hk'
    rw [hrefreshes] at hk hk'
    split at hk
    · cases hk
    · split at hk'
      · cases hk'
      · exact h.oneKey hk hk'
  · intro x hx ref' reset' hop' hxepoch hxout
    change (c.release t.key ref).commandRefreshes x.key = some ref'
    change x ∈ (c.release t.key ref).transactions.set i u at hx
    change x.epoch = (c.release t.key ref).realtimeEpoch at hxepoch
    rw [Client.release_realtimeEpoch] at hxepoch
    rw [Client.release_transactions] at hx
    have hxold : x ∈ c.transactions := by
      obtain hx | rfl := List.mem_or_eq_of_mem_set hx
      · exact hx
      · rw [hover] at hxout
        cases hxout
    have hheld := h.holds x hxold ref' reset' hop' hxepoch hxout
    rw [hrefreshes, if_neg, hheld]
    -- the last one goes: another under the key would have been counted
    rintro ⟨hk, hzero⟩
    have hcx : c.counts t.key x = true := by simp [Client.counts, hk, hxout, hxepoch]
    have hpos : 0 < (c.put i u).pending t.key := List.countP_pos_iff.mpr ⟨x, hx, hcx⟩
    omega
  · intro x hx ref' reset' hop'
    change x ∈ (c.release t.key ref).transactions.set i u at hx
    change ∃ o', (c.release t.key ref).owners[ref']? = some o' ∧ o'.epoch = x.epoch
    rw [Client.release_transactions] at hx
    obtain ⟨o', ho', hoepoch''⟩ := h.known_put hi hsame hx hop'
    rw [howners]
    split
    · rename_i heq
      rw [heq] at ho'
      obtain rfl := Option.some.inj (ho.symm.trans ho')
      exact ⟨_, rfl, hoepoch''⟩
    · exact ⟨o', ho', hoepoch''⟩

theorem pending_enqueue (c : Client) (owners : List Owner) (refreshes : String → Option ℕ)
    (key key' : String) (operation : Operation) :
    ({ c with owners, commandRefreshes := refreshes }.enqueueStateTransition key
        operation).pending key' =
      c.pending key' + if key = key' ∧ operation ≠ .event then 1 else 0 := by
  rw [Client.pending, Client.enqueueStateTransition, List.countP_append, List.countP_singleton]
  refine congrArg (c.pending key' + ·) ?_
  -- queued or begun, a command is outstanding as soon as it is enqueued
  cases operation with
  | event => simp [Transaction.outstanding]
  | command ref reset =>
    cases c.stateTransitions key <;> simp [Transaction.outstanding, Phase.isOver,
      Client.firstAwait]

/-- An event is enqueued: no count moves. -/
theorem enqueueEvent (h : Counted c) (key : String) :
    Counted (c.enqueueStateTransition key .event) := by
  have hpending : ∀ key', (c.enqueueStateTransition key .event).pending key' = c.pending key' := by
    intro key'
    have henqueue := pending_enqueue c c.owners c.commandRefreshes key key' .event
    simpa using henqueue
  have hback : ∀ x ∈ (c.enqueueStateTransition key .event).transactions, ∀ ref reset,
      x.operation = .command ref reset → x ∈ c.transactions := by
    intro x hx ref reset hop
    obtain hx | hx := List.mem_append.mp hx
    · exact hx
    · obtain rfl := List.mem_singleton.mp hx
      cases hop
  constructor
  · intro key' ref hentry
    rw [hpending]
    exact h.entry hentry
  · intro key' hentry
    rw [hpending]
    exact h.noEntry hentry
  · exact h.oneKey
  · exact fun x hx ref reset hop => h.holds x (hback x hx ref reset hop) ref reset hop
  · exact fun x hx ref reset hop => h.known x (hback x hx ref reset hop) ref reset hop

/-- The entry a key has is of the current epoch. -/
theorem owner_eq (h : Counted c) (key : String) : c.owner key = c.commandRefreshes key := by
  rw [Client.owner]
  cases hentry : c.commandRefreshes key with
  | none => rfl
  | some ref =>
    obtain ⟨o, ho, hepoch, -⟩ := h.entry hentry
    simp [ho, hepoch]

/-- The owner a dispatch counts at is no other key's. -/
theorem currentOwner_ne (h : Counted c) {key key' : String} {ref : ℕ} (hne : key' ≠ key)
    (hentry : c.commandRefreshes key' = some ref) : ref ≠ c.currentOwner key := by
  rw [Client.currentOwner, h.owner_eq]
  cases hkey : c.commandRefreshes key with
  | some ref' =>
    rintro rfl
    exact hne (h.oneKey hentry hkey)
  | none =>
    -- a new object lies behind all that are in use
    obtain ⟨o, ho, -⟩ := h.entry hentry
    have hlt := (List.getElem?_eq_some_iff.mp ho).1
    change ref ≠ c.owners.length
    omega

/-- A dispatch counts one up, at an object of the current epoch. -/
theorem owners_countDispatch (h : Counted c) (key : String) (ref : ℕ) :
    (c.countDispatch key).owners[ref]? =
      if ref = c.currentOwner key then some ⟨c.realtimeEpoch, c.pending key + 1⟩
      else c.owners[ref]? := by
  rw [Client.countDispatch, Client.currentOwner, h.owner_eq]
  cases hkey : c.commandRefreshes key with
  | some cur =>
    obtain ⟨o, ho, hepoch, hcount, -⟩ := h.entry hkey
    simp only [Option.isSome_some, if_true, Option.getD_some, List.getElem?_modify]
    by_cases hne : ref = cur
    · rw [hne, ho, if_pos rfl, ← hepoch, ← hcount]
      simp
    · rw [if_neg hne]
      simp [Ne.symm hne]
  | none =>
    have hzero := h.noEntry hkey
    simp only [Option.isSome_none, Option.getD_none, List.getElem?_modify]
    by_cases hne : ref = c.owners.length
    · rw [if_pos hne, hne, hzero]
      simp
    · rw [if_neg hne]
      by_cases hlt : ref < c.owners.length
      · simp [Ne.symm hne, List.getElem?_append_left hlt]
      · rw [List.getElem?_eq_none (l := c.owners) (by omega)]
        simp [Ne.symm hne]
        omega

theorem pending_dispatch (c : Client) (key key' : String) (reset : Bool) :
    (c.dispatch key reset).pending key' = c.pending key' + if key = key' then 1 else 0 := by
  refine (pending_enqueue c (c.countDispatch key).owners
    (c.countDispatch key).commandRefreshes key key' (.command (c.currentOwner key) reset)).trans ?_
  simp

/-- The entries behind a dispatch are those of the other keys, and the owner it is counted at. -/
theorem entry_dispatch {key key' : String} {reset : Bool} {ref : ℕ}
    (hentry : (c.dispatch key reset).commandRefreshes key' = some ref) :
    (key' = key ∧ ref = c.currentOwner key) ∨
      (key' ≠ key ∧ c.commandRefreshes key' = some ref) := by
  change Function.update c.commandRefreshes key _ key' = some ref at hentry
  rw [Function.update_apply] at hentry
  split at hentry
  · rename_i hk
    exact .inl ⟨hk, (Option.some.inj hentry).symm⟩
  · rename_i hk
    exact .inr ⟨hk, hentry⟩

/-- An owner stays known, of its epoch. -/
theorem known_dispatch (h : Counted c) (key : String) (reset : Bool) {ref : ℕ} {o : Owner}
    (ho : c.owners[ref]? = some o) :
    ∃ o', (c.dispatch key reset).owners[ref]? = some o' ∧ o'.epoch = o.epoch := by
  rw [show (c.dispatch key reset).owners = (c.countDispatch key).owners from rfl,
    h.owners_countDispatch key]
  split
  · rename_i hcur
    refine ⟨_, rfl, ?_⟩
    cases hkey : c.commandRefreshes key with
    | some cur =>
      rw [Client.currentOwner, h.owner_eq, hkey] at hcur
      obtain ⟨o', ho', hepoch, -⟩ := h.entry hkey
      change ref = cur at hcur
      rw [hcur, ho'] at ho
      rw [← Option.some.inj ho, hepoch]
    | none =>
      rw [Client.currentOwner, h.owner_eq, hkey] at hcur
      change ref = c.owners.length at hcur
      have hlt := (List.getElem?_eq_some_iff.mp ho).1
      omega
  · exact ⟨o, ho, rfl⟩

/-- A dispatch is counted before it is enqueued. -/
theorem dispatch (h : Counted c) (key : String) (reset : Bool) : Counted (c.dispatch key reset) := by
  have howners : ∀ ref, (c.dispatch key reset).owners[ref]? =
      if ref = c.currentOwner key then some ⟨c.realtimeEpoch, c.pending key + 1⟩
      else c.owners[ref]? := h.owners_countDispatch key
  constructor
  · intro key' ref hentry
    rw [pending_dispatch]
    obtain ⟨rfl, rfl⟩ | ⟨hne, hold⟩ := entry_dispatch hentry
    · rw [howners, if_pos rfl, if_pos rfl]
      exact ⟨_, rfl, rfl, rfl, Nat.succ_pos _⟩
    · rw [howners, if_neg (h.currentOwner_ne hne hold), if_neg (Ne.symm hne)]
      exact h.entry hold
  · intro key' hentry
    change Function.update c.commandRefreshes key _ key' = none at hentry
    rw [pending_dispatch]
    by_cases hk : key' = key
    · rw [hk, Function.update_self] at hentry
      cases hentry
    · rw [Function.update_of_ne hk] at hentry
      rw [if_neg (Ne.symm hk), h.noEntry hentry]
  · intro key₁ key₂ ref h₁ h₂
    obtain ⟨rfl, rfl⟩ | ⟨hne₁, hold₁⟩ := entry_dispatch h₁
    · obtain ⟨rfl, -⟩ | ⟨hne₂, hold₂⟩ := entry_dispatch h₂
      · rfl
      · exact absurd rfl (h.currentOwner_ne hne₂ hold₂)
    · obtain ⟨rfl, rfl⟩ | ⟨-, hold₂⟩ := entry_dispatch h₂
      · exact absurd rfl (h.currentOwner_ne hne₁ hold₁)
      · exact h.oneKey hold₁ hold₂
  · intro x hx ref reset' hop hepoch hout
    change Function.update c.commandRefreshes key _ x.key = some ref
    obtain hx | hx := List.mem_append.mp hx
    · have hheld := h.holds x hx ref reset' hop hepoch hout
      by_cases hk : x.key = key
      · rw [hk, Function.update_self, Client.currentOwner, h.owner_eq, ← hk, hheld]
        rfl
      · rwa [Function.update_of_ne hk]
    · obtain rfl := List.mem_singleton.mp hx
      rw [Function.update_self]
      cases hop
      rfl
  · intro x hx ref reset' hop
    obtain hx | hx := List.mem_append.mp hx
    · obtain ⟨o, ho, hepoch⟩ := h.known x hx ref reset' hop
      obtain ⟨o', ho', hepoch'⟩ := h.known_dispatch key reset ho
      exact ⟨o', ho', hepoch'.trans hepoch⟩
    · obtain rfl := List.mem_singleton.mp hx
      cases hop
      rw [howners, if_pos rfl]
      exact ⟨_, rfl, rfl⟩

end Counted

namespace Sound

open Turns

variable {c : Client} {i : ℕ} {t u : Transaction}

theorem turns_put (c : Client) (i : ℕ) (u : Transaction) :
    (c.put i u).turns = c.turns.set i u.turn :=
  List.map_set

theorem turn_at (hi : c.transactions[i]? = some t) : c.turns[i]? = some t.turn := by
  rw [Client.turns, List.getElem?_map, hi]
  rfl

/-- A transaction that changes its stage changes it as a turn. -/
theorem turns_put_stage (hi : c.transactions[i]? = some t) (hsame : t.SameWork u) :
    (c.put i u).turns = setStage c.turns i u.phase.stage := by
  rw [turns_put, setStage, List.modify_eq_set_getElem?, turn_at hi]
  change _ = c.turns.set i { t.turn with stage := u.phase.stage }
  rw [Transaction.turn, Transaction.turn, hsame.key, hsame.epoch, hsame.predecessor]

/-- An update that keeps a transaction's stage and standing. -/
theorem put (h : Sound c) (hi : c.transactions[i]? = some t) (hsame : t.SameWork u)
    (hstage : u.phase.stage = t.phase.stage) (hout : u.outstanding = t.outstanding)
    (hans : u.Answered) : Sound (c.put i u) where
  turns := by
    intro key
    have hturn : u.turn = t.turn := by
      rw [Transaction.turn, Transaction.turn, hsame.key, hsame.epoch, hsame.predecessor, hstage]
    rw [turns_put, Lists.set_known (hturn ▸ turn_at hi)]
    exact h.turns key
  past := by
    intro x hx
    obtain hx | rfl := Client.mem_put hx
    · exact h.past x hx
    · rw [hsame.epoch]
      exact h.past t (List.mem_of_getElem? hi)
  answered := by
    intro x hx
    obtain hx | rfl := Client.mem_put hx
    · exact h.answered x hx
    · exact hans
  counted := h.counted.put hi hsame hout

/-- A transaction whose predecessor is through begins. -/
theorem begins (h : Sound c) (hi : c.transactions[i]? = some t) (hqueued : t.phase = .queued)
    {p : ℕ} {before : Transaction} (hp : t.predecessor = some p)
    (hbefore : c.transactions[p]? = some before) (hover : before.phase.stage = .over) :
    Sound (c.put i { t with phase := Client.firstAwait t.operation }) := by
  have hsame : t.SameWork { t with phase := Client.firstAwait t.operation } := ⟨rfl, rfl, rfl, rfl⟩
  have hmem : t ∈ c.transactions := List.mem_of_getElem? hi
  constructor
  · intro key
    rw [turns_put_stage hi hsame]
    have hstage : (Client.firstAwait t.operation).stage = .underway := by
      cases t.operation <;> rfl
    rw [hstage]
    exact (h.turns key).start (turn_at hi) (congrArg Phase.stage hqueued) hp (turn_at hbefore)
      hover
  · intro x hx
    obtain hx | rfl := Client.mem_put hx
    · exact h.past x hx
    · exact h.past t hmem
  · intro x hx
    obtain hx | rfl := Client.mem_put hx
    · exact h.answered x hx
    · have hans := h.answered t hmem
      rw [Transaction.Answered, hqueued] at hans
      rw [Transaction.Answered]
      cases hop : t.operation with
      | command ref reset =>
        rw [hop] at hans
        exact hans
      | event => trivial
  · refine h.counted.put hi hsame ?_
    rw [Transaction.outstanding, Transaction.outstanding, hqueued]
    cases t.operation <;> rfl

/-- An operation's end, answered. -/
theorem close (h : Sound c) (hi : c.transactions[i]? = some t) (hunderway : t.phase.isOver = false)
    (hstage : t.phase.stage = .underway) (hsame : t.SameWork u) {failed : Bool}
    (hans : Transaction.Answered { u with phase := .ended failed }) :
    Sound (c.close i u failed) := by
  have hended : t.SameWork { u with phase := .ended failed } :=
    ⟨hsame.key, hsame.epoch, hsame.operation, hsame.predecessor⟩
  cases hop : u.operation with
  | event =>
    have hclose : c.close i u failed = c.put i { u with phase := .ended failed } := by
      rw [Client.close, hop]
    rw [hclose]
    refine h.put hi hended hstage.symm ?_ hans
    rw [Transaction.outstanding, Transaction.outstanding, ← hsame.operation, hop]
  | command ref reset =>
    have hclose : c.close i u failed =
        (c.release t.key ref).put i { u with phase := .ended failed } := by
      rw [Client.close, hop, ← hsame.key]
    have hopt : t.operation = .command ref reset := hsame.operation ▸ hop
    have hout : t.outstanding = true := by
      rw [Transaction.outstanding, hopt, hunderway]
      rfl
    have hover : Transaction.outstanding { u with phase := .ended failed } = false := by
      rw [Transaction.outstanding, hop]
      rfl
    rw [hclose]
    constructor
    · intro key
      have hturns : ((c.release t.key ref).put i { u with phase := .ended failed }).turns =
          (c.put i { u with phase := .ended failed }).turns := by
        rw [turns_put, turns_put, Client.turns, Client.turns, Client.release_transactions]
      have hturn : Transaction.turn { u with phase := .ended failed } = t.turn := by
        rw [Transaction.turn, Transaction.turn, hended.key, hended.epoch, hended.predecessor,
          hstage]
        rfl
      rw [hturns, turns_put, Lists.set_known (hturn ▸ turn_at hi)]
      change InTurn _ ((c.release t.key ref).realtimeEpoch, key)
        ((c.release t.key ref).stateTransitions key)
      rw [Client.release_realtimeEpoch, Client.release_stateTransitions]
      exact h.turns key
    · intro x hx
      change x ∈ (c.release t.key ref).transactions.set i _ at hx
      change x.epoch ≤ (c.release t.key ref).realtimeEpoch
      rw [Client.release_transactions] at hx
      rw [Client.release_realtimeEpoch]
      obtain hx | rfl := List.mem_or_eq_of_mem_set hx
      · exact h.past x hx
      · rw [hended.epoch]
        exact h.past t (List.mem_of_getElem? hi)
    · intro x hx
      change x ∈ (c.release t.key ref).transactions.set i _ at hx
      rw [Client.release_transactions] at hx
      obtain hx | rfl := List.mem_or_eq_of_mem_set hx
      · exact h.answered x hx
      · exact hans
    · exact h.counted.close hi hout hopt hended hover

/-- Work that joins a key, counted by the time it is enqueued. -/
theorem enqueue (h : Sound c) {owners : List Owner} {refreshes : String → Option ℕ}
    {key : String} {operation : Operation}
    (hcounted : Counted ({ c with owners, commandRefreshes := refreshes }.enqueueStateTransition
      key operation)) :
    Sound ({ c with owners, commandRefreshes := refreshes }.enqueueStateTransition key
      operation) := by
  constructor
  · intro key'
    rw [Client.enqueueStateTransition, Client.turns, List.map_append, List.map_singleton]
    by_cases hk : key' = key
    · subst hk
      change InTurn (c.turns ++ [_]) (c.realtimeEpoch, key')
        (Function.update c.stateTransitions key' _ key')
      have hlength : c.transactions.length = c.turns.length := by
        rw [Client.turns, List.length_map]
      rw [Function.update_self, hlength]
      refine (h.turns key').join rfl rfl ?_
      change Phase.stage (if _ then _ else _) = _
      cases c.stateTransitions key' with
      | none => cases operation <;> rfl
      | some p => rfl
    · change InTurn (c.turns ++ [_]) (c.realtimeEpoch, key')
        (Function.update c.stateTransitions key _ key')
      rw [Function.update_of_ne hk]
      refine (h.turns key').joinOther ?_
      rintro heq
      exact hk (Prod.mk.inj heq).2.symm
  · intro x hx
    obtain hx | hx := List.mem_append.mp hx
    · exact h.past x hx
    · obtain rfl := List.mem_singleton.mp hx
      exact le_rfl
  · intro x hx
    obtain hx | hx := List.mem_append.mp hx
    · exact h.answered x hx
    · obtain rfl := List.mem_singleton.mp hx
      change Transaction.Answered ⟨key, c.realtimeEpoch, operation, c.stateTransitions key, _,
        none, []⟩
      cases operation with
      | event => trivial
      | command ref reset => cases c.stateTransitions key <;> exact ⟨rfl, by simp⟩
  · exact hcounted

/-- The tracked promise settles behind its operation. -/
theorem untrack (h : Sound c) {failed : Bool} (hi : c.transactions[i]? = some t)
    (hended : t.phase = .ended failed) : Sound (c.untrack i t failed) := by
  have hsame : t.SameWork { t with phase := .finished failed } := ⟨rfl, rfl, rfl, rfl⟩
  have hmem : t ∈ c.transactions := List.mem_of_getElem? hi
  constructor
  · intro key
    have hturns : (c.untrack i t failed).turns = setStage c.turns i .over :=
      turns_put_stage hi hsame
    have hstage : t.turn.stage = .underway := by
      rw [Transaction.turn, hended]
      rfl
    have hfinish := (h.turns key).finish (turn_at hi) hstage
    have hlast : (c.untrack i t failed).stateTransitions key =
        if c.stateTransitions key = some i then none else c.stateTransitions key := by
      change (if _ then Function.update _ _ _ else _) key = _
      by_cases hk : key = t.key
      · subst hk
        split
        · rw [Function.update_self]
        · rfl
      · -- under another key the map does not hold this transaction
        have hother : c.stateTransitions key ≠ some i := by
          intro hmine
          obtain ⟨⟨x, hx, -⟩, -⟩ := (h.turns key).busy hmine
          obtain rfl := Option.some.inj ((turn_at hi).symm.trans hx.1)
          exact hk (Prod.mk.inj hx.2).2.symm
        rw [if_neg hother]
        split
        · rw [Function.update_of_ne hk]
        · rfl
    rw [hturns, hlast]
    exact hfinish
  · intro x hx
    obtain hx | rfl := Client.mem_put hx
    · exact h.past x hx
    · exact h.past t hmem
  · intro x hx
    obtain hx | rfl := Client.mem_put hx
    · exact h.answered x hx
    · have hans := h.answered t hmem
      rw [Transaction.Answered, hended] at hans
      rw [Transaction.Answered]
      cases hop : t.operation with
      | command ref reset =>
        rw [hop] at hans
        exact hans
      | event => trivial
  · have hput := h.counted.put hi hsame (by
      rw [Transaction.outstanding, Transaction.outstanding, hended]
      rfl)
    exact ⟨hput.entry, hput.noEntry, hput.oneKey, hput.holds, hput.known⟩

/-- A failure in a command's operation, with the dispatch resolved before it or not answered. -/
theorem catchError (h : Sound c) (hi : c.transactions[i]? = some t)
    (hover : t.phase.isOver = false) (hstage : t.phase.stage = .underway)
    (hsame : t.SameWork u) (hans : t.operation ≠ .event →
      u.answers = [true] ∧ u.routed = some true ∨ u.answers = [] ∧ u.routed ≠ some true) :
    Sound (c.catchError i u) := by
  rw [Client.catchError]
  split
  · rename_i hack
    refine h.put hi ⟨hsame.key, hsame.epoch, hsame.operation, hsame.predecessor⟩ hstage.symm ?_ ?_
    · rw [Transaction.outstanding, Transaction.outstanding, ← hsame.operation, hover]
      rfl
    · rw [Transaction.Answered]
      cases hop : u.operation with
      | event => trivial
      | command ref reset =>
        obtain hresolved | ⟨hnone, -⟩ := hans (by rw [← hsame.operation, hop]; simp)
        · exact hresolved
        · rw [Transaction.acknowledged, hnone] at hack
          cases hack
  · rename_i hack
    refine h.close (u := { u with answers := u.answers ++ [false] }) hi hover hstage
      ⟨hsame.key, hsame.epoch, hsame.operation, hsame.predecessor⟩ ?_
    rw [Transaction.Answered]
    cases hop : u.operation with
    | event => trivial
    | command ref reset =>
      obtain ⟨hresolved, -⟩ | ⟨hnone, hrouted⟩ := hans (by rw [← hsame.operation, hop]; simp)
      · rw [Transaction.acknowledged, hresolved] at hack
        exact absurd rfl hack
      · exact ⟨rfl, .inr ⟨by rw [hnone]; rfl, hrouted⟩⟩

/-- A disconnect empties both maps; the next epoch has no transaction yet. -/
theorem disconnect (h : Sound c) : Sound c.disconnect := by
  have hfresh : ∀ t ∈ c.transactions, t.epoch ≠ c.realtimeEpoch + 1 := by
    intro t ht
    have := h.past t ht
    omega
  constructor
  · intro key
    refine InTurn.fresh ?_
    rintro i x ⟨hx, hkey⟩
    obtain ⟨t, ht, rfl⟩ := List.mem_map.mp (List.mem_of_getElem? hx)
    exact hfresh t ht (Prod.mk.inj hkey).1
  · exact fun t ht => (h.past t ht).trans (Nat.le_succ _)
  · exact h.answered
  · constructor
    · intro key ref hentry
      cases hentry
    · intro key _
      refine List.countP_eq_zero.mpr fun t ht => ?_
      rw [decide_eq_true_eq]
      exact fun hcounts => hfresh t ht hcounts.2.1
    · intro key key' ref hentry
      cases hentry
    · intro t ht ref reset _ hepoch
      exact absurd hepoch (hfresh t ht)
    · exact h.counted.known

theorem of_during {phase : Phase} (hi : c.during i phase = some t) :
    c.transactions[i]? = some t ∧ t.phase = phase := by
  obtain ⟨hthere, hphase⟩ := Option.filter_eq_some_iff.mp hi
  exact ⟨hthere, of_decide_eq_true hphase⟩

/-- Behind its acknowledgement a dispatch has been resolved. -/
theorem resolved (h : Sound c) (hi : c.transactions[i]? = some t)
    (hop : t.operation ≠ .event) (hphase : t.phase = .refreshing ∨ t.phase = .announcing ∨
      t.phase = .recycling ∨ t.phase = .reporting) :
    t.answers = [true] ∧ t.routed = some true := by
  have hans := h.answered t (List.mem_of_getElem? hi)
  rw [Transaction.Answered] at hans
  cases hkind : t.operation with
  | event => exact absurd hkind hop
  | command ref reset =>
    rw [hkind] at hans
    rcases hphase with hphase | hphase | hphase | hphase <;> rw [hphase] at hans <;> exact hans

/-- A transaction that began may end, its dispatch resolved. -/
theorem closeResolved (h : Sound c) (hi : c.transactions[i]? = some t)
    (hphase : t.phase = .refreshing ∨ t.phase = .announcing ∨ t.phase = .recycling ∨
      t.phase = .reporting) {failed : Bool} (hfailed : t.operation ≠ .event → failed = false) :
    Sound (c.close i t failed) := by
  have hover : t.phase.isOver = false := by
    rcases hphase with hphase | hphase | hphase | hphase <;> rw [hphase] <;> rfl
  have hstage : t.phase.stage = .underway := by
    rcases hphase with hphase | hphase | hphase | hphase <;> rw [hphase] <;> rfl
  refine h.close hi hover hstage ⟨rfl, rfl, rfl, rfl⟩ ?_
  rw [Transaction.Answered]
  cases hop : t.operation with
  | event => trivial
  | command ref reset =>
    have hkind : t.operation ≠ .event := by
      rw [hop]
      simp
    have hresolved := h.resolved hi hkind hphase
    exact ⟨hfailed hkind, .inl hresolved⟩

/-- A failure behind the acknowledgement is reported. -/
theorem catchResolved (h : Sound c) (hi : c.transactions[i]? = some t)
    (hphase : t.phase = .refreshing ∨ t.phase = .announcing ∨ t.phase = .recycling ∨
      t.phase = .reporting) : Sound (c.catchError i t) := by
  have hover : t.phase.isOver = false := by
    rcases hphase with hphase | hphase | hphase | hphase <;> rw [hphase] <;> rfl
  have hstage : t.phase.stage = .underway := by
    rcases hphase with hphase | hphase | hphase | hphase <;> rw [hphase] <;> rfl
  exact h.catchError hi hover hstage ⟨rfl, rfl, rfl, rfl⟩
    fun hop => .inl (h.resolved hi hop hphase)

/-- The phase behind an acknowledgement moves on. -/
theorem putResolved (h : Sound c) (hi : c.transactions[i]? = some t)
    (hphase : t.phase = .refreshing ∨ t.phase = .announcing ∨ t.phase = .recycling ∨
      t.phase = .reporting) {phase : Phase} (hnext : phase = .announcing ∨ phase = .recycling) :
    Sound (c.put i { t with phase }) := by
  have hover : t.phase.isOver = phase.isOver := by
    rcases hphase with hphase | hphase | hphase | hphase <;> rcases hnext with rfl | rfl <;>
      rw [hphase] <;> rfl
  have hstage : phase.stage = t.phase.stage := by
    rcases hphase with hphase | hphase | hphase | hphase <;> rcases hnext with rfl | rfl <;>
      rw [hphase] <;> rfl
  refine h.put hi ⟨rfl, rfl, rfl, rfl⟩ hstage ?_ ?_
  · rw [Transaction.outstanding, Transaction.outstanding, hover]
  · rw [Transaction.Answered]
    cases hop : t.operation with
    | event => trivial
    | command ref reset =>
      have hresolved := h.resolved hi (by rw [hop]; simp) hphase
      rcases hnext with rfl | rfl <;> exact hresolved

theorem step (h : Sound c) {c' : Client} {l : Label} (hquiet : l.quiet = true)
    (hstep : c.step l = some c') : Sound c' := by
  cases l with
  | dispatch sn param reset =>
    obtain rfl := Option.some.inj hstep
    exact h.enqueue (h.counted.dispatch _ _)
  | signal sn param live =>
    obtain rfl := Option.some.inj hstep
    rw [Client.emitSemantic]
    split
    · exact h
    · split
      · exact @enqueue c h c.owners c.commandRefreshes _ _ (h.counted.enqueueEvent _)
      · exact h
  | wake i =>
    simp only [Client.step, Option.bind_eq_bind, Option.bind_eq_some_iff] at hstep
    obtain ⟨t, ht, p, hp, before, hbefore, _, hguard, hnext⟩ := hstep
    obtain ⟨hi, hphase⟩ := of_during ht
    obtain rfl := Option.some.inj hnext
    have hover : before.phase.stage = .over := by
      by_contra hnot
      simp [hnot] at hguard
    have hbegun := h.begins hi hphase hp hbefore hover
    have hthere : (c.put i { t with phase := Client.firstAwait t.operation }).transactions[i]? =
        some { t with phase := Client.firstAwait t.operation } :=
      List.getElem?_set_self (List.getElem?_eq_some_iff.mp hi).1
    rw [Client.beginOperation]
    cases hop : t.operation with
    | event =>
      rw [hop] at hbegun
      exact hbegun
    | command ref reset =>
      simp only
      rw [hop] at hbegun hthere
      split
      · exact hbegun
      · -- superseded by a disconnect: it fails without having been routed
        refine hbegun.catchError hthere rfl rfl ⟨rfl, rfl, rfl, rfl⟩ fun _ => .inr ?_
        have hans := h.answered t (List.mem_of_getElem? hi)
        rw [Transaction.Answered, hop, hphase] at hans
        exact hans
  | routed i ok =>
    obtain ⟨t, ht, rfl⟩ := Option.map_eq_some_iff.mp hstep
    obtain ⟨hi, hphase⟩ := of_during ht
    have hnone : t.operation ≠ .event → t.answers = [] := by
      intro hkind
      have hans := h.answered t (List.mem_of_getElem? hi)
      rw [Transaction.Answered, hphase] at hans
      cases hop : t.operation with
      | event => exact absurd hop hkind
      | command ref reset =>
        rw [hop] at hans
        exact hans.1
    cases ok with
    | true =>
      refine h.put hi ⟨rfl, rfl, rfl, rfl⟩ (by rw [hphase]; rfl) ?_ ?_
      · rw [Transaction.outstanding, Transaction.outstanding, hphase]
        rfl
      · rw [Transaction.Answered]
        cases hop : t.operation with
        | event => trivial
        | command ref reset =>
          refine ⟨?_, rfl⟩
          change t.answers ++ [true] = [true]
          rw [hnone (by rw [hop]; simp), List.nil_append]
    | false =>
      refine h.catchError hi (by rw [hphase]; rfl) (by rw [hphase]; rfl) ⟨rfl, rfl, rfl, rfl⟩ ?_
      exact fun hop => .inr ⟨hnone hop, by simp⟩
  | refreshed i outcome =>
    obtain ⟨t, ht, rfl⟩ := Option.map_eq_some_iff.mp hstep
    obtain ⟨hi, hphase⟩ := of_during ht
    cases hop : t.operation with
    | event =>
      simp only [Client.afterRefresh, hop]
      exact h.closeResolved hi (.inl hphase) fun hkind => absurd hop hkind
    | command ref reset =>
      cases outcome with
      | threw =>
        simp only [Client.afterRefresh, hop]
        exact h.catchResolved hi (.inl hphase)
      | superseded =>
        simp only [Client.afterRefresh, hop]
        exact h.closeResolved hi (.inl hphase) fun _ => rfl
      | converged =>
        simp only [Client.afterRefresh, hop]
        split
        · exact hop ▸ h.putResolved hi (.inl hphase) (.inl rfl)
        · exact h.closeResolved hi (.inl hphase) fun _ => rfl
  | announced i throws =>
    obtain ⟨t, ht, rfl⟩ := Option.map_eq_some_iff.mp hstep
    obtain ⟨hi, hphase⟩ := of_during ht
    obtain rfl : throws = false := by simpa [Label.quiet] using hquiet
    rw [Client.afterAnnouncement]
    split
    · exact h.putResolved hi (.inr (.inl hphase)) (.inr rfl)
    · exact h.closeResolved hi (.inr (.inl hphase)) fun _ => rfl
  | recycled i ok =>
    obtain ⟨t, ht, rfl⟩ := Option.map_eq_some_iff.mp hstep
    obtain ⟨hi, hphase⟩ := of_during ht
    rw [Client.afterRecycle]
    split
    · exact h.closeResolved hi (.inr (.inr (.inl hphase))) fun _ => rfl
    · exact h.catchResolved hi (.inr (.inr (.inl hphase)))
  | reported i throws =>
    obtain ⟨t, ht, rfl⟩ := Option.map_eq_some_iff.mp hstep
    obtain ⟨hi, hphase⟩ := of_during ht
    obtain rfl : throws = false := by simpa [Label.quiet] using hquiet
    exact h.closeResolved hi (.inr (.inr (.inr hphase))) fun _ => rfl
  | untrack i =>
    -- resolved or rejected, the tracked promise clears its entry alike
    cases hended : c.during i (.ended false) with
    | some t =>
      obtain ⟨hi, hphase⟩ := of_during hended
      simp only [Client.step, hended, Option.map_some] at hstep
      obtain rfl := Option.some.inj hstep
      exact h.untrack hi hphase
    | none =>
      simp only [Client.step, hended, Option.map_none] at hstep
      obtain ⟨t, ht, rfl⟩ := Option.map_eq_some_iff.mp hstep
      obtain ⟨hi, hphase⟩ := of_during ht
      exact h.untrack hi hphase
  | caught i throws =>
    obtain ⟨t, ht, rfl⟩ := Option.map_eq_some_iff.mp hstep
    obtain ⟨hi, hphase⟩ := of_during ht
    have hans := h.answered t (List.mem_of_getElem? hi)
    rw [Transaction.Answered, hphase] at hans
    cases hop : t.operation with
    | command ref reset =>
      -- a command's operation swallows its errors while listeners do not throw
      rw [hop] at hans
      exact absurd hans.1 (by decide)
    | event =>
      simp only [Client.afterRejection, hop]
      refine h.put hi ⟨rfl, rfl, hop.symm, rfl⟩ (by rw [hphase]; rfl) ?_ trivial
      rw [Transaction.outstanding, Transaction.outstanding, hop]
  | disconnect =>
    obtain rfl := Option.some.inj hstep
    exact h.disconnect

theorem start : Sound {} where
  turns := fun _ => InTurn.fresh fun _ _ hi => by cases hi.1
  past := fun _ ht => by cases ht
  answered := fun _ ht => by cases ht
  counted := by
    constructor
    · intro key ref hentry
      cases hentry
    · exact fun _ => rfl
    · intro key key' ref hentry
      cases hentry
    · exact fun _ ht => by cases ht
    · exact fun _ ht => by cases ht

/-- What holds at the start holds behind every run whose listeners do not throw. -/
theorem run {labels : List Label} {c c' : Client} (h : Sound c)
    (hrun : Machine.exec Client.step c labels = some c')
    (hquiet : ∀ l ∈ labels, l.quiet = true) : Sound c' := by
  induction labels generalizing c with
  | nil =>
    obtain rfl := Option.some.inj hrun
    exact h
  | cons l labels ih =>
    obtain ⟨d, hd, hrest⟩ := Option.bind_eq_some_iff.mp hrun
    exact ih (h.step (hquiet l List.mem_cons_self) hd) hrest
      fun l' hl' => hquiet l' (List.mem_cons_of_mem l hl')

end Sound

section Guarantees

open Turns

variable {c : Client} {key : String} {i : ℕ} {t : Transaction}

theorem over_iff {phase : Phase} : phase.stage = .over ↔ ∃ failed, phase = .finished failed := by
  cases phase <;> simp [Phase.stage]

theorem waiting_iff {phase : Phase} : phase.stage = .waiting ↔ phase = .queued := by
  cases phase <;> simp [Phase.stage]

theorem at_of_enqueued (h : c.Enqueued key i t) : At c.turns (c.realtimeEpoch, key) i t.turn :=
  ⟨Sound.turn_at h.1, Prod.ext h.2.2 h.2.1⟩

theorem enqueued_of_at {u : Turn (ℕ × String)} (h : At c.turns (c.realtimeEpoch, key) i u) :
    ∃ t, c.Enqueued key i t ∧ u = t.turn := by
  obtain ⟨t, ht, rfl⟩ := Option.map_eq_some_iff.mp (List.getElem?_map ▸ h.1)
  exact ⟨t, ⟨ht, (Prod.mk.inj h.2).2, (Prod.mk.inj h.2).1⟩, rfl⟩

theorem refreshCount_eq (h : Counted c) (key : String) : c.refreshCount key = c.pending key := by
  rw [Client.refreshCount]
  cases hentry : c.commandRefreshes key with
  | none => exact (h.noEntry hentry).symm
  | some ref =>
    obtain ⟨o, ho, -, hcount, -⟩ := h.entry hentry
    rw [Option.bind_some, ho]
    exact hcount

theorem isEcho_eq (h : Counted c) (key : String) :
    c.isEcho key = decide (0 < c.pending key) := by
  rw [Client.isEcho]
  cases hentry : c.commandRefreshes key with
  | none =>
    rw [h.noEntry hentry]
    rfl
  | some ref =>
    obtain ⟨o, ho, hepoch, hcount, hpos⟩ := h.entry hentry
    rw [← hcount]
    simp [ho, hepoch]

/-- A dispatch is answered by the settling of its command, and no other way. -/
theorem Transaction.Answered.once (h : t.Answered) (hop : t.operation ≠ .event) :
    t.answers.length ≤ 1 ∧ (t.phase.isOver → t.answers.length = 1) ∧
      (t.answers = [true] ↔ t.routed = some true) := by
  rw [Transaction.Answered] at h
  cases hkind : t.operation with
  | event => exact absurd hkind hop
  | command ref reset =>
    rw [hkind] at h
    cases hphase : t.phase with
    | queued | routing =>
      rw [hphase] at h
      obtain ⟨hanswers, hrouted⟩ := h
      simp [hanswers, hrouted, Phase.isOver]
    | refreshing | announcing | recycling | reporting =>
      rw [hphase] at h
      obtain ⟨hanswers, hrouted⟩ := h
      simp [hanswers, hrouted]
    | ended failed | finished failed =>
      rw [hphase] at h
      obtain ⟨-, ⟨hanswers, hrouted⟩ | ⟨hanswers, hrouted⟩⟩ := h <;> simp [hanswers, hrouted]

/-- A queued transaction wakes when the earlier ones under its key are through. -/
theorem Sound.unblocked (h : Sound c) (hj : c.Enqueued key i t) (hqueued : t.phase = .queued)
    (hthrough : ∀ j u, j < i → c.Enqueued key j u → ∃ failed, u.phase = .finished failed) :
    (c.step (.wake i)).isSome := by
  obtain ⟨p, q, hp, hq, hover⟩ := (h.turns key).ready (at_of_enqueued hj)
    (waiting_iff.mpr hqueued) fun j u hji hu => by
      obtain ⟨before, hbefore, rfl⟩ := enqueued_of_at hu
      exact over_iff.mpr (hthrough j before hji hbefore)
  obtain ⟨before, hbefore, rfl⟩ := enqueued_of_at hq
  have hduring : c.during i .queued = some t := by
    rw [Client.during, hj.1, Option.filter_some, if_pos (decide_eq_true hqueued)]
  have hpred : t.predecessor = some p := hp
  have hpover : before.phase.stage = .over := hover
  simp [Client.step, hduring, hpred, hbefore.1, hpover]

/-- Within an epoch, whatever is dispatched and signalled, and however commands, re-reads and
recycles end: the transactions under a key run one at a time in order, each dispatch is answered
once, by its own command, the count is that of the commands outstanding, and the last to end
clears the key. -/
theorem observed_transactional {labels : List Label} {c : Client}
    (hrun : Machine.exec Client.step {} labels = some c)
    (hquiet : ∀ l ∈ labels, l.quiet = true) (key : String) : Transactional c key := by
  have h : Sound c := Sound.start.run hrun hquiet
  constructor
  · intro i j t u hij hi hj hbegun
    refine over_iff.mp ((h.turns key).behind hij (at_of_enqueued hi) (at_of_enqueued hj) ?_)
    exact fun hwaiting => hbegun (waiting_iff.mp hwaiting)
  · intro i j t u hi hj ht hu
    exact (h.turns key).alone (at_of_enqueued hi) (at_of_enqueued hj) ht hu
  · exact fun j u hj hqueued hthrough => h.unblocked hj hqueued hthrough
  · exact fun t ht _ hop => (h.answered t ht).once hop
  · exact refreshCount_eq h.counted key
  · intro live
    constructor
    · intro hpos
      rw [Client.emitSemantic, isEcho_eq h.counted, decide_eq_true hpos, if_pos rfl]
    · intro hzero
      rw [Client.emitSemantic, isEcho_eq h.counted, hzero]
      rfl
  · intro hall
    have hstate : c.stateTransitions key = none := by
      cases hlast : c.stateTransitions key with
      | none => rfl
      | some p =>
        -- the entry would be of a transaction that has not finished
        obtain ⟨⟨q, hq, hnot⟩, -⟩ := (h.turns key).busy hlast
        obtain ⟨t, ht, rfl⟩ := enqueued_of_at hq
        exact absurd (over_iff.mpr (hall p t ht)) hnot
    refine ⟨hstate, ?_⟩
    cases hentry : c.commandRefreshes key with
    | none => rfl
    | some ref =>
      -- an entry counts, so there would be a command still outstanding
      obtain ⟨o, -, -, hcount, hpos⟩ := h.counted.entry hentry
      obtain ⟨t, ht, hcounts⟩ := List.countP_pos_iff.mp (hcount ▸ hpos)
      obtain ⟨hk, hepoch, hout⟩ := of_decide_eq_true hcounts
      obtain ⟨i, hi⟩ := List.mem_iff_getElem?.mp ht
      obtain ⟨failed, hphase⟩ := hall i t ⟨hi, hk, hepoch⟩
      rw [Transaction.outstanding, hphase] at hout
      cases hop : t.operation <;> rw [hop] at hout <;> cases hout

/-- An event's re-read that fails, a command the transport refuses and one that converges, each
queued behind the one before. -/
def threeTransactions : List Label :=
  [.signal "T8000P0000000000" 1224 true, .dispatch "T8000P0000000000" 1224 true,
    .dispatch "T8000P0000000000" 1224 false, .signal "T8000P0000000000" 1224 true,
    .refreshed 0 .threw, .untrack 0, .wake 1, .routed 1 false, .untrack 1, .caught 0 false,
    .wake 2, .routed 2 true, .refreshed 2 .converged, .announced 2 false, .untrack 2]

theorem threeTransactions_transactional :
    ∃ c, Machine.exec Client.step {} threeTransactions = some c ∧
      c.transactions.map (·.answers) = [[], [false], [true]] ∧
      Transactional c "T8000P0000000000:1224" := by
  have hsome : (Machine.exec Client.step {} threeTransactions).isSome := by decide
  obtain ⟨c, hc⟩ := Option.isSome_iff_exists.mp hsome
  refine ⟨c, hc, ?_, observed_transactional hc (by decide) _⟩
  have hanswers : (Machine.exec Client.step {} threeTransactions).map
      (fun c => c.transactions.map (·.answers)) = some [[], [false], [true]] := by decide
  rw [hc] at hanswers
  exact Option.some.inj hanswers

end Guarantees

end EufySdk.StateTransitions
