import Mathlib.Tactic
import EufySdk.Lib.Lists
import EufySdk.Transport.P2p.Level2Negotiation

/-!
# Calls that wait for the level-2 key

What `awaitLevel2Key` calls answer and whose key they find, over every interleaving of
connections, replies, resolvers, deadlines and closes. A call ends in two steps: something ends
its wait, and the call goes on in a step of its own.

- `Moved`, `Began` — what one step makes of a call
- `Tidy` — the calls parked are the calls that wait
- `keys_isolated` — what a key in place and a settled call owe to the connection they are of
-/

namespace EufySdk.Level2

open Bytes Lists P2PSession Machine Session

/-- What a step makes of a call that was there, where `held` says whether a key is in place
behind the step. -/
inductive Moved (held : Bool) : Await → Await → Prop
  | stayed (w : Await) : Moved held w w
  | woken (answers : List Bool) (outcome : Outcome) (hheld : outcome = .key → held = true) :
    Moved held ⟨.waiting, answers⟩ ⟨.woken outcome, answers⟩
  | answered (answers : List Bool) (outcome : Outcome) :
    Moved held ⟨.woken outcome, answers⟩ ⟨.settled, answers ++ [decide (outcome = .key)]⟩

/-- How a call begins. -/
inductive Began (held : Bool) : Await → Prop
  | waiting : Began held ⟨.waiting, []⟩
  | refused : Began held ⟨.settled, [false]⟩
  | ready (hheld : held = true) : Began held ⟨.settled, [true]⟩

/-- Every call behind a step was there before or begins in it, and none is lost. -/
structure CallsMove (s t : Session) : Prop where
  kept : s.awaits.length ≤ t.awaits.length
  moved : ∀ {i : ℕ} {w w' : Await}, s.awaits[i]? = some w → t.awaits[i]? = some w' →
    Moved t.level2Key.isSome w w'
  began : ∀ {i : ℕ} {w' : Await}, s.awaits[i]? = none → t.awaits[i]? = some w' → Began t.level2Key.isSome w'

/-- The calls parked are the calls that wait, each once, and a closed session has none. -/
structure Tidy (s : Session) : Prop where
  parked : ∀ i, i ∈ s.level2Waiters ↔ ∃ w, s.awaits[i]? = some w ∧ w.stage = .waiting
  nodup : s.level2Waiters.Nodup
  shut : s.closed = true → s.level2Waiters = []

/-- A settled call has its one answer, and any other none yet. -/
structure Once (s : Session) : Prop where
  unsettled : ∀ {i : ℕ} {w : Await}, s.awaits[i]? = some w → w.stage ≠ .settled → w.answers = []
  settled : ∀ {i : ℕ} {w : Await}, s.awaits[i]? = some w → w.stage = .settled →
    ∃ answer, w.answers = [answer]

/-! ## One call -/

theorem moved_wake {held : Bool} {outcome : Outcome} (hheld : outcome = .key → held = true)
    (w : Await) : Moved held w (w.wake outcome) := by
  rw [Await.wake]
  split
  · rename_i hwaiting
    obtain ⟨stage, answers⟩ := w
    obtain rfl : stage = .waiting := hwaiting
    exact .woken answers outcome hheld
  · exact .stayed w

theorem wake_not_waiting (outcome : Outcome) (w : Await) : (w.wake outcome).stage ≠ .waiting := by
  rw [Await.wake]
  split
  · exact nofun
  · assumption

/-- The first end of a wait counts. -/
@[simp] theorem wake_wake (o p : Outcome) (w : Await) : (w.wake o).wake p = w.wake o := by
  rw [Await.wake, if_neg (wake_not_waiting o w)]

/-- Waking a list of calls wakes each of them, and no other. -/
theorem getElem?_foldl_wake (outcome : Outcome) (parked : List ℕ) (ws : List Await) (i : ℕ) :
    (parked.foldl (fun ws j => ws.modify j (Await.wake outcome)) ws)[i]? =
      ws[i]?.map fun w => if i ∈ parked then w.wake outcome else w := by
  induction parked generalizing ws with
  | nil => simp
  | cons j rest ih =>
    rw [List.foldl_cons, ih, List.getElem?_modify, Option.map_eq_map, Option.map_map]
    congr 1
    funext w
    by_cases hij : j = i
    · subst hij
      by_cases hrest : j ∈ rest <;> simp [hrest]
    · have hne : i ≠ j := Ne.symm hij
      simp [hij, hne]

theorem length_foldl_modify (f : Await → Await) (parked : List ℕ) (ws : List Await) :
    (parked.foldl (fun ws j => ws.modify j f) ws).length = ws.length := by
  induction parked generalizing ws with
  | nil => rfl
  | cons j rest ih => rw [List.foldl_cons, ih, List.length_modify]

namespace CallsMove

variable {s t u : Session}

/-- Steps that leave the calls alone. -/
theorem of_eq (h : t.awaits = s.awaits) : CallsMove s t where
  kept := by rw [h]
  moved := fun hw hw' => by
    rw [h] at hw'
    obtain rfl := Option.some.inj (hw.symm.trans hw')
    exact .stayed _
  began := fun hnone hw' => by
    rw [h, hnone] at hw'
    cases hw'

/-- Steps that move one call. -/
theorem of_modify {i : ℕ} {f : Await → Await} (h : t.awaits = s.awaits.modify i f)
    (hmoved : ∀ w, s.awaits[i]? = some w → Moved t.level2Key.isSome w (f w)) : CallsMove s t where
  kept := by rw [h, List.length_modify]
  moved := fun {j w w'} hw hw' => by
    rw [h] at hw'
    obtain ⟨rfl, a, ha, rfl⟩ | ⟨-, hold⟩ := getElem?_modify_cases hw'
    · obtain rfl := Option.some.inj (hw.symm.trans ha)
      exact hmoved _ ha
    · obtain rfl := Option.some.inj (hw.symm.trans hold)
      exact .stayed _
  began := fun {j w'} hnone hw' => by
    rw [h] at hw'
    obtain ⟨rfl, a, ha, -⟩ | ⟨-, hold⟩ := getElem?_modify_cases hw'
    · rw [hnone] at ha
      cases ha
    · rw [hnone] at hold
      cases hold

/-- Steps that begin a call. -/
theorem of_append {w : Await} (h : t.awaits = s.awaits ++ [w])
    (hbegan : Began t.level2Key.isSome w) : CallsMove s t where
  kept := by
    rw [h, List.length_append]
    omega
  moved := fun {i v v'} hv hv' => by
    rw [h, getElem?_append_of_some hv] at hv'
    obtain rfl := Option.some.inj hv'
    exact .stayed _
  began := fun {i w'} hnone hw' => by
    rw [h] at hw'
    obtain ⟨-, rfl⟩ | hold := getElem?_append_cases hw'
    · exact hbegan
    · rw [hnone] at hold
      cases hold

theorem settleLevel2 (s : Session) (reason : Outcome) (hreason : reason ≠ .key) :
    CallsMove s (s.settleLevel2 reason) := by
  rw [settleLevel2_eq]
  refine ⟨by rw [length_foldl_modify], fun {i w w'} hw hw' => ?_, fun {i w'} hnone hw' => ?_⟩
  · rw [getElem?_foldl_wake, hw, Option.map_some] at hw'
    obtain rfl := Option.some.inj hw'
    by_cases hparked : i ∈ s.level2Waiters
    · rw [if_pos hparked]
      apply moved_wake
      intro hkey
      by_contra hnone
      rw [if_neg hnone] at hkey
      exact hreason hkey
    · rw [if_neg hparked]
      exact .stayed w
  · rw [getElem?_foldl_wake, hnone] at hw'
    cases hw'

/-- What is before the settlement moves no call. -/
theorem settleLevel2_of_eq (h : u.awaits = s.awaits) (reason : Outcome) (hreason : reason ≠ .key) :
    CallsMove s (u.settleLevel2 reason) := by
  have hmove := settleLevel2 u reason hreason
  exact ⟨h ▸ hmove.kept, fun hw hw' => hmove.moved (h ▸ hw) hw',
    fun hnone hw' => hmove.began (h ▸ hnone) hw'⟩

end CallsMove

/-- A negotiation ends in a settlement, with the key that it derived or the one before. -/
theorem conclude_eq (s : Session) (resolution : Resolution) :
    ∃ held, (held = s.level2Key ∨ ∃ key, resolution = .key key ∧ held = some key) ∧
      s.conclude resolution = { s with level2Key := held }.settleLevel2 .terminal := by
  cases resolution with
  | missing => exact ⟨_, .inl rfl, rfl⟩
  | underivable => exact ⟨_, .inl rfl, rfl⟩
  | throws => exact ⟨_, .inl rfl, rfl⟩
  | key key =>
    rw [conclude, Session.setLevel2Key]
    split
    · exact ⟨_, .inr ⟨key, rfl, rfl⟩, rfl⟩
    · exact ⟨_, .inl rfl, rfl⟩

/-- What the steps between connecting and closing leave alone when they settle nothing. -/
structure Unsettled (s t : Session) : Prop where
  awaits : t.awaits = s.awaits
  level2Waiters : t.level2Waiters = s.level2Waiters
  level2Key : t.level2Key = s.level2Key
  closed : t.closed = s.closed
  connectionGeneration : t.connectionGeneration = s.connectionGeneration

theorem unsettled_onGatewayInfo (rt : Runtime) (s : Session) (header : Codec.P2PDataFrameHeader)
    (payload : Buffer) : Unsettled s (s.onGatewayInfo rt header payload) := by
  obtain ⟨cipherId, -, heq⟩ := onGatewayInfo_eq rt s header payload
  rw [heq]
  split_ifs <;> exact ⟨rfl, rfl, rfl, rfl, rfl⟩

theorem unsettled_repromptLevel2Key (s : Session) :
    Unsettled s s.repromptLevel2Key.1 ∧ s.repromptLevel2Key.1.negotiations = s.negotiations := by
  rw [Session.repromptLevel2Key]
  split
  · exact ⟨⟨rfl, rfl, rfl, rfl, rfl⟩, rfl⟩
  split
  · exact ⟨⟨rfl, rfl, rfl, rfl, rfl⟩, rfl⟩
  dsimp only
  split
  · rename_i hsent
    obtain ⟨n, rfl⟩ := sendCommand_state hsent
    exact ⟨⟨rfl, rfl, rfl, rfl, rfl⟩, rfl⟩
  · exact ⟨⟨rfl, rfl, rfl, rfl, rfl⟩, rfl⟩

/-- Every step moves the calls by one stage at most. -/
theorem callsMove_step {rt : Runtime} {s t : Session} {a : Label}
    (hstep : step rt s a = some t) : CallsMove s t := by
  cases took_of_step hstep with
  | connect =>
    rw [Session.connect]
    split <;> exact .of_eq rfl
  | camIdAgain now addr => exact .of_eq rfl
  | camId now addr n => exact .of_eq rfl
  | frame header payload hconnected =>
    exact .of_eq (unsettled_onGatewayInfo rt s header payload).awaits
  | resolved i n resolution hn hpending =>
    rw [Session.resolved]
    split
    · exact .of_eq rfl
    · obtain ⟨held, -, hconclude⟩ := conclude_eq
        { s with negotiations := s.negotiations.modify i fun n => { n with pending := false } }
        resolution
      rw [hconclude]
      exact .settleLevel2_of_eq (by rfl) .terminal fun h => by cases h
  | setLevel2Key key =>
    rw [Session.setLevel2Key]
    split
    · exact .settleLevel2_of_eq (by rfl) .terminal fun h => by cases h
    · exact .of_eq rfl
  | repromptLevel2Key => exact .of_eq (unsettled_repromptLevel2Key s).1.awaits
  | awaitLevel2Key graceMs fromSession now =>
    rw [Session.awaitLevel2Key]
    split_ifs with hclosed hkey hpending hremaining
    · exact .of_append rfl .refused
    · exact .of_append rfl (.ready hkey)
    · exact .of_append rfl .refused
    · exact .of_append rfl .refused
    · exact .of_append rfl .waiting
  | deadline i w hw hwaiting =>
    exact .of_modify rfl fun v _ => moved_wake (fun h => (by cases h)) v
  | answer i w outcome hw hwoken =>
    refine .of_modify rfl fun v hv => ?_
    obtain rfl := Option.some.inj (hw.symm.trans hv)
    obtain ⟨stage, answers⟩ := w
    obtain rfl : stage = .woken outcome := hwoken
    exact .answered answers outcome
  | close =>
    rw [Session.close]
    split
    · exact .of_eq rfl
    · have hmove := CallsMove.settleLevel2_of_eq (s := s) (u :=
        { s with
          closed := true
          connectionGeneration := s.connectionGeneration + 1
          level2Key := none
          level2Seq := 0
          log := .close :: s.log }) rfl .closed fun h => by cases h
      exact ⟨hmove.kept, hmove.moved, hmove.began⟩
  | closeBehind => exact .of_eq rfl

/-! ## Answers -/

theorem once_fresh (cfg : Config) (level1Key : Buffer) : Once (fresh cfg level1Key) :=
  ⟨nofun, nofun⟩

/-- Calls that move by one stage at a time get one answer. -/
theorem Once.of_callsMove {s t : Session} (h : Once s) (hmove : CallsMove s t) : Once t := by
  have hcall : ∀ {i : ℕ} {w' : Await}, t.awaits[i]? = some w' →
      (w'.stage ≠ .settled → w'.answers = []) ∧
        (w'.stage = .settled → ∃ answer, w'.answers = [answer]) := by
    intro i w' hw'
    cases hw : s.awaits[i]? with
    | none =>
      cases hmove.began hw hw' with
      | waiting => exact ⟨fun _ => rfl, nofun⟩
      | refused => exact ⟨fun hne => absurd rfl hne, fun _ => ⟨_, rfl⟩⟩
      | ready => exact ⟨fun hne => absurd rfl hne, fun _ => ⟨_, rfl⟩⟩
    | some w =>
      cases hmove.moved hw hw' with
      | stayed => exact ⟨h.unsettled hw, h.settled hw⟩
      | woken answers outcome hheld =>
        have hnone := h.unsettled hw nofun
        exact ⟨fun _ => hnone, nofun⟩
      | answered answers outcome =>
        have hnone := h.unsettled hw nofun
        obtain rfl : answers = [] := hnone
        exact ⟨fun hne => absurd rfl hne, fun _ => ⟨_, rfl⟩⟩
  exact ⟨fun hw => (hcall hw).1, fun hw => (hcall hw).2⟩

/-! ## The list of parked calls -/

theorem tidy_fresh (cfg : Config) (level1Key : Buffer) : Tidy (fresh cfg level1Key) where
  parked := fun i => by simp [fresh]
  nodup := List.nodup_nil
  shut := fun _ => rfl

namespace Tidy

variable {s t : Session}

theorem congr (h : Tidy s) (hwaiters : t.level2Waiters = s.level2Waiters)
    (hawaits : t.awaits = s.awaits) (hclosed : t.closed = true → s.closed = true) : Tidy t where
  parked := by
    rw [hwaiters, hawaits]
    exact h.parked
  nodup := by
    rw [hwaiters]
    exact h.nodup
  shut := by
    rw [hwaiters]
    exact fun hshut => h.shut (hclosed hshut)

theorem of_unsettled (h : Tidy s) (hu : Unsettled s t) : Tidy t :=
  h.congr hu.level2Waiters hu.awaits (hu.closed ▸ id)

/-- A settlement leaves no call waiting, whatever else was set before it. -/
theorem none_waiting (h : Tidy s) (hwaiters : t.level2Waiters = s.level2Waiters)
    (hawaits : t.awaits = s.awaits) (reason : Outcome) {i : ℕ} {w : Await}
    (hw : (t.settleLevel2 reason).awaits[i]? = some w) : w.stage ≠ .waiting := by
  simp only [settleLevel2_eq, getElem?_foldl_wake, hwaiters, hawaits] at hw
  obtain ⟨v, hv, rfl⟩ := Option.map_eq_some_iff.mp hw
  by_cases hparked : i ∈ s.level2Waiters
  · rw [if_pos hparked]
    exact wake_not_waiting _ v
  · rw [if_neg hparked]
    exact fun hwaiting => hparked ((h.parked i).mpr ⟨v, hv, hwaiting⟩)

theorem settleLevel2 (h : Tidy s) (hwaiters : t.level2Waiters = s.level2Waiters)
    (hawaits : t.awaits = s.awaits) (reason : Outcome) : Tidy (t.settleLevel2 reason) := by
  have hnone : (t.settleLevel2 reason).level2Waiters = [] := by rw [settleLevel2_eq]
  refine ⟨fun i => ?_, by rw [hnone]; exact List.nodup_nil, fun _ => hnone⟩
  rw [hnone]
  exact ⟨nofun, fun ⟨w, hw, hwaiting⟩ =>
    absurd hwaiting (h.none_waiting hwaiters hawaits reason hw)⟩

theorem finish (h : Tidy s) (outcome : Outcome) (i : ℕ) : Tidy (s.finish outcome i) where
  parked := fun j => by
    simp only [Session.finish, h.nodup.mem_erase_iff, h.parked j, List.getElem?_modify,
      Option.map_eq_map, Option.map_eq_some_iff]
    constructor
    · rintro ⟨hne, w, hw, hwaiting⟩
      exact ⟨w, ⟨w, hw, if_neg (Ne.symm hne)⟩, hwaiting⟩
    · rintro ⟨w, ⟨v, hv, rfl⟩, hwaiting⟩
      by_cases hij : i = j
      · rw [if_pos hij] at hwaiting
        exact absurd hwaiting (wake_not_waiting outcome v)
      · rw [if_neg hij] at hwaiting
        exact ⟨Ne.symm hij, v, hv, hwaiting⟩
  nodup := h.nodup.erase i
  shut := fun hshut => by
    rw [Session.finish, h.shut hshut]
    rfl

/-- A call that settles at once is not parked. -/
theorem append_settled (h : Tidy s) {w : Await} (hw : w.stage ≠ .waiting) :
    Tidy { s with awaits := s.awaits ++ [w] } where
  parked := fun i => by
    rw [h.parked i]
    constructor
    · rintro ⟨v, hv, hwaiting⟩
      exact ⟨v, getElem?_append_of_some hv, hwaiting⟩
    · rintro ⟨v, hv, hwaiting⟩
      obtain ⟨-, rfl⟩ | hold := getElem?_append_cases hv
      · exact absurd hwaiting hw
      · exact ⟨v, hold, hwaiting⟩
  nodup := h.nodup
  shut := h.shut

theorem append_waiting (h : Tidy s) (hopen : s.closed = false) :
    Tidy { s with
      level2Waiters := s.level2Waiters ++ [s.awaits.length]
      awaits := s.awaits ++ [⟨.waiting, []⟩] } where
  parked := fun i => by
    rw [List.mem_append, List.mem_singleton, h.parked i]
    constructor
    · rintro (⟨v, hv, hwaiting⟩ | rfl)
      · exact ⟨v, getElem?_append_of_some hv, hwaiting⟩
      · exact ⟨_, List.getElem?_concat_length, rfl⟩
    · rintro ⟨v, hv, hwaiting⟩
      obtain ⟨hi, -⟩ | hold := getElem?_append_cases hv
      · exact .inr hi
      · exact .inl ⟨v, hold, hwaiting⟩
  nodup := by
    refine h.nodup.append (List.nodup_singleton _) ?_
    rw [List.disjoint_singleton]
    intro hmem
    obtain ⟨w, hw, -⟩ := (h.parked _).mp hmem
    exact absurd (List.getElem?_eq_some_iff.mp hw).1 (lt_irrefl _)
  shut := fun hshut => by
    rw [hopen] at hshut
    cases hshut

theorem answer (h : Tidy s) {i : ℕ} {w : Await} {outcome : Outcome} (hw : s.awaits[i]? = some w)
    (hwoken : w.stage = .woken outcome) : Tidy (s.answer i outcome) where
  parked := fun j => by
    rw [Session.answer, h.parked j]
    constructor
    · rintro ⟨v, hv, hwaiting⟩
      refine ⟨v, ?_, hwaiting⟩
      rw [getElem?_modify_of_some i hv, if_neg]
      rintro rfl
      obtain rfl := Option.some.inj (hw.symm.trans hv)
      rw [hwoken] at hwaiting
      cases hwaiting
    · rintro ⟨v, hv, hwaiting⟩
      obtain ⟨-, rfl⟩ | ⟨-, hold⟩ := getElem?_modify_known hw hv
      · cases hwaiting
      · exact ⟨v, hold, hwaiting⟩
  nodup := h.nodup
  shut := h.shut

theorem step {rt : Runtime} {a : Label} (h : Tidy s) (hstep : Level2.step rt s a = some t) :
    Tidy t := by
  cases took_of_step hstep with
  | connect =>
    rw [Session.connect]
    split
    · exact h
    · exact h.congr rfl rfl fun hclosed => by cases hclosed
  | camIdAgain now addr => exact h
  | camId now addr n => exact h.congr rfl rfl id
  | frame header payload hconnected =>
    exact h.of_unsettled (unsettled_onGatewayInfo rt s header payload)
  | resolved i n resolution hn hpending =>
    rw [Session.resolved]
    split
    · exact h.congr rfl rfl id
    · obtain ⟨held, -, hconclude⟩ := conclude_eq
        { s with negotiations := s.negotiations.modify i fun n => { n with pending := false } }
        resolution
      rw [hconclude]
      exact h.settleLevel2 (by rfl) (by rfl) _
  | setLevel2Key key =>
    rw [Session.setLevel2Key]
    split
    · exact h.settleLevel2 (by rfl) (by rfl) _
    · exact h
  | repromptLevel2Key => exact h.of_unsettled (unsettled_repromptLevel2Key s).1
  | awaitLevel2Key graceMs fromSession now =>
    rw [Session.awaitLevel2Key]
    split_ifs with hclosed hkey hpending hremaining
    · exact h.append_settled fun hwaiting => by cases hwaiting
    · exact h.append_settled fun hwaiting => by cases hwaiting
    · exact h.append_settled fun hwaiting => by cases hwaiting
    · exact h.append_settled fun hwaiting => by cases hwaiting
    · exact h.append_waiting (eq_false_of_ne_true hclosed)
  | deadline i w hw hwaiting => exact h.finish .timeout i
  | answer i w outcome hw hwoken => exact h.answer hw hwoken
  | close =>
    rw [Session.close]
    split
    · exact h
    · have hsettled := h.settleLevel2 (t :=
        { s with
          closed := true
          connectionGeneration := s.connectionGeneration + 1
          level2Key := none
          level2Seq := 0
          log := .close :: s.log }) rfl rfl .closed
      exact hsettled.congr rfl rfl id
  | closeBehind => exact h.congr rfl rfl id

end Tidy

/-! ## Keys -/

/-- How the key of a session changes: a close drops it, its owner sets it, or a negotiation of
the connection that is up puts it in place. -/
inductive KeyMoved (s t : Session) : Label → Prop
  | dropped (hkey : t.level2Key = none) : KeyMoved s t .close
  | set (key : Buffer) (hkey : t.level2Key = some key) : KeyMoved s t (.setLevel2Key key)
  | negotiated (i : ℕ) (n : Negotiation) (key : Buffer) (hn : s.negotiations[i]? = some n)
    (hlive : n.generation = s.connectionGeneration) (hopen : s.closed = false)
    (hkey : t.level2Key = some key) : KeyMoved s t (.resolved i (.key key))

theorem keyMoved_step {rt : Runtime} {s t : Session} {a : Label} (hstep : step rt s a = some t)
    (hmoved : t.level2Key ≠ s.level2Key) : KeyMoved s t a := by
  cases took_of_step hstep with
  | connect =>
    rw [Session.connect] at hmoved
    split at hmoved <;> exact absurd rfl hmoved
  | camIdAgain now addr => exact absurd rfl hmoved
  | camId now addr n => exact absurd rfl hmoved
  | frame header payload hconnected =>
    exact absurd (unsettled_onGatewayInfo rt s header payload).level2Key hmoved
  | resolved i n resolution hn hpending =>
    rw [Session.resolved] at hmoved ⊢
    split at hmoved
    · exact absurd rfl hmoved
    · rename_i hlive
      rw [if_neg hlive]
      simp only [Bool.or_eq_true, decide_eq_true_eq, not_or, not_not,
        Bool.not_eq_true] at hlive
      obtain ⟨held, hheld, hconclude⟩ := conclude_eq
        { s with negotiations := s.negotiations.modify i fun n => { n with pending := false } }
        resolution
      rw [hconclude, level2Key_settleLevel2] at hmoved
      rw [hconclude]
      obtain rfl | ⟨key, rfl, rfl⟩ := hheld
      · exact absurd rfl hmoved
      · exact .negotiated i n key hn hlive.2 hlive.1 (by rw [level2Key_settleLevel2])
  | setLevel2Key key =>
    rw [Session.setLevel2Key] at hmoved ⊢
    split at hmoved
    · rename_i hlength
      rw [if_pos hlength]
      exact .set key (by rw [level2Key_settleLevel2])
    · exact absurd rfl hmoved
  | repromptLevel2Key => exact absurd (unsettled_repromptLevel2Key s).1.level2Key hmoved
  | awaitLevel2Key graceMs fromSession now =>
    rw [Session.awaitLevel2Key] at hmoved
    split_ifs at hmoved <;> exact absurd rfl hmoved
  | deadline i w hw hwaiting => exact absurd rfl hmoved
  | answer i w outcome hw hwoken => exact absurd rfl hmoved
  | close =>
    rw [Session.close] at hmoved ⊢
    split at hmoved
    · exact absurd rfl hmoved
    · rename_i hopen
      rw [if_neg hopen]
      exact .dropped (by rw [settleLevel2_eq])
  | closeBehind => exact absurd rfl hmoved

/-- Where a negotiation comes from: it was there before, or a reply begins it in the connection
that is up. -/
inductive Enveloped (s : Session) (i : ℕ) (n : Negotiation) : Label → Prop
  | before (m : Negotiation) (hm : s.negotiations[i]? = some m)
    (hgeneration : n.generation = m.generation) (a : Label) : Enveloped s i n a
  | begun (header : Codec.P2PDataFrameHeader) (payload : Buffer) (hconnected : s.connected = true)
    (hgeneration : n.generation = s.connectionGeneration) :
    Enveloped s i n (.frame header payload)

theorem enveloped_of_eq {s t : Session} {i : ℕ} {n : Negotiation} {a : Label}
    (h : t.negotiations = s.negotiations) (hn : t.negotiations[i]? = some n) :
    Enveloped s i n a :=
  .before n (h ▸ hn) rfl a

theorem negotiations_settleLevel2 (s : Session) (reason : Outcome) :
    (s.settleLevel2 reason).negotiations = s.negotiations := by
  rw [settleLevel2_eq]

theorem negotiations_resolved (s : Session) (i : ℕ) (n : Negotiation) (resolution : Resolution) :
    (s.resolved i n resolution).negotiations =
      s.negotiations.modify i fun n => { n with pending := false } := by
  rw [Session.resolved]
  split
  · rfl
  · obtain ⟨held, -, hconclude⟩ := conclude_eq
      { s with negotiations := s.negotiations.modify i fun n => { n with pending := false } }
      resolution
    rw [hconclude, negotiations_settleLevel2]

theorem enveloped_step {rt : Runtime} {s t : Session} {a : Label}
    (hstep : step rt s a = some t) {i : ℕ} {n : Negotiation}
    (hn : t.negotiations[i]? = some n) : Enveloped s i n a := by
  cases took_of_step hstep with
  | connect =>
    rw [Session.connect] at hn
    split at hn <;> exact enveloped_of_eq rfl hn
  | camIdAgain now addr => exact enveloped_of_eq rfl hn
  | camId now addr m => exact enveloped_of_eq rfl hn
  | frame header payload hconnected =>
    obtain ⟨cipherId, -, heq⟩ := onGatewayInfo_eq rt s header payload
    rw [heq] at hn
    split_ifs at hn
    · obtain ⟨-, rfl⟩ | hold := getElem?_append_cases hn
      · exact .begun header payload hconnected rfl
      · exact .before n hold rfl _
    · exact enveloped_of_eq rfl hn
    · exact enveloped_of_eq rfl hn
  | resolved j m resolution hm hpending =>
    rw [negotiations_resolved] at hn
    obtain ⟨rfl, rfl⟩ | ⟨-, hold⟩ := getElem?_modify_known hm hn
    · exact .before m hm (by rfl) _
    · exact .before n hold rfl _
  | setLevel2Key key =>
    rw [Session.setLevel2Key] at hn
    split at hn
    · rw [negotiations_settleLevel2] at hn
      exact enveloped_of_eq rfl hn
    · exact enveloped_of_eq rfl hn
  | repromptLevel2Key => exact enveloped_of_eq (unsettled_repromptLevel2Key s).2 hn
  | awaitLevel2Key graceMs fromSession now =>
    rw [Session.awaitLevel2Key] at hn
    split_ifs at hn <;> exact enveloped_of_eq rfl hn
  | deadline i w hw hwaiting => exact enveloped_of_eq rfl hn
  | answer i w outcome hw hwoken => exact enveloped_of_eq rfl hn
  | close =>
    rw [Session.close] at hn
    split at hn
    · exact enveloped_of_eq rfl hn
    · simp only [negotiations_settleLevel2] at hn
      exact enveloped_of_eq rfl hn
  | closeBehind => exact enveloped_of_eq rfl hn

/-- Connecting and closing begin a generation, where they do anything. -/
theorem generation_connect (s : Session) :
    s.connect = s ∨ s.connect.connectionGeneration = s.connectionGeneration + 1 := by
  rw [Session.connect]
  split
  · exact .inl rfl
  · exact .inr rfl

theorem generation_close (s : Session) :
    s.close = s ∨ s.close.connectionGeneration = s.connectionGeneration + 1 := by
  rw [Session.close]
  split
  · exact .inl rfl
  · refine .inr ?_
    simp only [settleLevel2_eq]

/-- A close ends every wait, and none of them with a key. -/
theorem closed_waits {s : Session} (h : Tidy s) {i : ℕ} {w w' : Await}
    (hw : s.awaits[i]? = some w) (hwaiting : w.stage = .waiting)
    (hw' : s.close.awaits[i]? = some w') :
    ∃ outcome, outcome ≠ .key ∧ w'.stage = .woken outcome := by
  have hparked : i ∈ s.level2Waiters := (h.parked i).mpr ⟨w, hw, hwaiting⟩
  have hopen : ¬s.closed = true := by
    intro hshut
    rw [h.shut hshut] at hparked
    cases hparked
  rw [Session.close, if_neg hopen] at hw'
  simp only [settleLevel2_eq, getElem?_foldl_wake, hw, Option.map_some, if_pos hparked] at hw'
  obtain rfl := Option.some.inj hw'
  exact ⟨.closed, by decide, by rw [Await.wake, if_pos hwaiting]; rfl⟩

/-! ## Runs -/

/-- What a session owes to its connections: whose key a step puts in place, which connection a
negotiation is of, and how calls that wait for the key get their one answer. -/
structure KeysIsolated (rt : Runtime) (s : Session) : Prop where
  keys : ∀ {a : Label} {t : Session}, step rt s a = some t → t.level2Key ≠ s.level2Key →
    KeyMoved s t a
  envelopes : ∀ {a : Label} {t : Session}, step rt s a = some t →
    ∀ {i : ℕ} {n : Negotiation}, t.negotiations[i]? = some n → Enveloped s i n a
  connects : s.connect = s ∨ s.connect.connectionGeneration = s.connectionGeneration + 1
  closes : s.close = s ∨ s.close.connectionGeneration = s.connectionGeneration + 1
  calls : ∀ {a : Label} {t : Session}, step rt s a = some t → CallsMove s t
  once : Once s
  waiting : ∀ {i : ℕ} {w : Await}, s.awaits[i]? = some w → w.stage = .waiting →
    ∃ t, step rt s (.deadline i) = some t ∧ t.awaits[i]? = some (w.wake .timeout)
  woken : ∀ {i : ℕ} {w : Await} {outcome : Outcome}, s.awaits[i]? = some w →
    w.stage = .woken outcome → ∃ t, step rt s (.answer i) = some t ∧
      t.awaits[i]? = some ⟨.settled, [decide (outcome = .key)]⟩
  closing : ∀ {i : ℕ} {w w' : Await}, s.awaits[i]? = some w → w.stage = .waiting →
    s.close.awaits[i]? = some w' → ∃ outcome, outcome ≠ .key ∧ w'.stage = .woken outcome

/-- Keys do not cross connections, and each call that waits for one settles once: with true only
where the session held a key as its wait ended, and with false where a close ended it. -/
theorem keys_isolated {rt : Runtime} {cfg : Config} {level1Key : Buffer} {as : List Label}
    {s : Session} (hrun : exec (step rt) (fresh cfg level1Key) as = some s) :
    KeysIsolated rt s := by
  have hinv : Tidy s ∧ Once s := by
    refine @Run.invariant _ _ _ (fun s => Tidy s ∧ Once s) _ _ _ (run_of_exec hrun)
      ⟨tidy_fresh cfg level1Key, once_fresh cfg level1Key⟩ ?_
    intro t a u h hstep
    exact ⟨h.1.step hstep, h.2.of_callsMove (callsMove_step hstep)⟩
  obtain ⟨htidy, honce⟩ := hinv
  constructor
  case keys => exact keyMoved_step
  case envelopes => exact enveloped_step
  case connects => exact generation_connect s
  case closes => exact generation_close s
  case calls => exact callsMove_step
  case once => exact honce
  case waiting =>
    intro i w hw hwaiting
    refine ⟨s.finish .timeout i, if_pos ?_, ?_⟩
    · simp [hw, hwaiting]
    · rw [Session.finish, getElem?_modify_of_some i hw, if_pos rfl]
  case woken =>
    intro i w outcome hw hwoken
    refine ⟨s.answer i outcome, ?_, ?_⟩
    · simp [step, hw, hwoken]
    · have hnone := honce.unsettled hw fun hsettled => by cases hwoken.symm.trans hsettled
      rw [Session.answer, getElem?_modify_of_some i hw, if_pos rfl, hnone]
      rfl
  case closing => exact closed_waits htidy

/-- A call waits, the key arrives, and the session closes before the call has gone on. -/
def wokenThenClosed : List Label :=
  [.connect, .camId 0 ⟨"192.168.1.9", 32100⟩, .awaitLevel2Key 2500 false 0,
    .setLevel2Key (List.replicate 32 7), .close]

theorem keys_isolated_woken :
    ∃ s, exec (step bareRuntime) (fresh stationConfig []) wokenThenClosed = some s ∧
      KeysIsolated bareRuntime s := by
  obtain ⟨s, hs⟩ := Option.isSome_iff_exists.mp
    (by decide : (exec (step bareRuntime) (fresh stationConfig []) wokenThenClosed).isSome)
  exact ⟨s, hs, keys_isolated hs⟩

theorem true_without_key :
    ¬∀ (as : List Label) (s t : Session) (i : ℕ),
      exec (step bareRuntime) (fresh stationConfig []) as = some s →
      step bareRuntime s (.answer i) = some t →
      (t.awaits[i]?).map Await.answers = some [true] → t.level2Key.isSome := by
  intro hclaim
  have hrun : ((exec (step bareRuntime) (fresh stationConfig []) wokenThenClosed).bind
      fun s => (step bareRuntime s (.answer 0)).map fun t =>
        ((t.awaits[0]?).map Await.answers, t.level2Key.isSome)) = some (some [true], false) := by
    decide
  obtain ⟨s, hs, hlast⟩ := Option.bind_eq_some_iff.mp hrun
  obtain ⟨t, ht, hend⟩ := Option.map_eq_some_iff.mp hlast
  obtain ⟨hanswer, hkey⟩ := Prod.mk.inj hend
  have hheld := hclaim wokenThenClosed s t 0 hs ht hanswer
  rw [hkey] at hheld
  cases hheld

end EufySdk.Level2
