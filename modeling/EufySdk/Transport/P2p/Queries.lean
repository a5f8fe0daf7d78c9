import Mathlib.Tactic
import EufySdk.Lib.Lists
import EufySdk.Lib.Machine
import EufySdk.Transport.P2p.Dispatch

/-!
# Queries over one station session

`p2pQuery`, `p2pControlQuery` and `readReportedRtspUrl` of `transport/p2p/command-router.ts`
for the devices of one station: every waiting call has a listener on the session they share,
and hears every event of it.

- `Call`, `Call.reply` — a call, and what its listener takes for the answer
- `step` — what can happen
- `RepliesOwn` — a frame that is taken for an answer is of the camera that was asked
- `uncrossed_iff` — the runs in which no answer is another camera's
-/

namespace EufySdk.Queries

open Bytes Machine P2PSession

inductive Kind
  | p2pQuery (subCmd : ℚ)
  | p2pControlQuery (param : ℚ)
  | awaitRtspUrl
  deriving DecidableEq

inductive Answer
  | payload (payload : Json)
  | url (url : Buffer)

inductive Stage
  /-- In `resolveSession`. -/
  | resolving
  /-- Its listener is on the session. -/
  | waiting
  /-- Resolved by an event of a channel. -/
  | answered (channel : ℤ) (answer : Answer)
  | failed

/-- A call, with the channel of its device: the one its request is sent on. -/
structure Call where
  kind : Kind
  channel : ℤ
  stage : Stage := .resolving
  sent : Bool := false

/-- `typeof value === "object"`, and not `null`. -/
def isObject : Json → Bool
  | .arr _ | .obj _ => true
  | _ => false

/-- The payload of a frame that echoes a command. -/
def echoed (cmd : ℚ) (frame : P2PFrame) : Option Json :=
  match frame.json.bind (Json.get? "cmd"), frame.json.bind (Json.get? "payload") with
  | some (.num n), some payload => if n = cmd && isObject payload then some payload else none
  | _, _ => none

/-- What the listener of a call takes for its answer, and the channel it came on. -/
def Call.reply (c : Call) : Output → Option (ℤ × Answer)
  | .data frame =>
    match c.kind with
    | .p2pQuery cmd | .p2pControlQuery cmd =>
      (echoed cmd frame).map fun payload => (frame.header.channel, .payload payload)
    | .awaitRtspUrl => none
  | .rtspUrl channel url =>
    match c.kind with
    | .awaitRtspUrl => if (channel : ℤ) = c.channel then some (channel, .url url) else none
    | _ => none
  | _ => none

/-- The listener of a call hears an event, while it is on. -/
def Call.hear (o : Output) (c : Call) : Call :=
  match c.stage, c.reply o with
  | .waiting, some (channel, answer) => { c with stage := .answered channel answer }
  | _, _ => c

/-- A call whose session is resolved. A `p2pQuery` is sent in the same step, or throws; the
others are sent behind another `resolveSession`. -/
def Call.arm (c : Call) (sends : Bool) : Call :=
  match c.kind with
  | .p2pQuery _ =>
    if sends then { c with stage := .waiting, sent := true } else { c with stage := .failed }
  | _ => { c with stage := .waiting }

/-- A `p2pControlQuery` that has its listener on and is not sent yet. -/
def Call.unrouted (c : Call) : Bool :=
  match c.kind, c.stage with
  | .p2pControlQuery _, .resolving => false
  | .p2pControlQuery _, _ => !c.sent
  | _, _ => false

/-- A `p2pControlQuery` is sent, or its send throws. A call that has its answer keeps it. -/
def Call.route (c : Call) (sends : Bool) : Call :=
  if sends then { c with sent := true }
  else
    match c.stage with
    | .waiting => { c with stage := .failed }
    | _ => c

inductive Label
  | call (kind : Kind) (channel : ℤ)
  | resolved (t : ℕ) (sends : Bool)
  | unresolved (t : ℕ)
  | routed (t : ℕ) (sends : Bool)
  /-- The timer of a call elapses, or its signal aborts. -/
  | timedOut (t : ℕ)
  /-- An event of the session. -/
  | event (o : Output)

/-- One step over the calls of a station, in the order they began in. -/
def step (calls : List Call) : Label → Option (List Call)
  | .call kind channel => some (calls ++ [{ kind := kind, channel := channel }])
  | .resolved t sends =>
    match (calls[t]?).map Call.stage with
    | some .resolving => some (calls.modify t (Call.arm · sends))
    | _ => none
  | .unresolved t =>
    match (calls[t]?).map Call.stage with
    | some .resolving => some (calls.modify t fun c => { c with stage := .failed })
    | _ => none
  | .routed t sends =>
    match calls[t]? with
    | some c => if c.unrouted then some (calls.modify t (Call.route · sends)) else none
    | none => none
  | .timedOut t =>
    match (calls[t]?).map Call.stage with
    | some .waiting => some (calls.modify t fun c => { c with stage := .failed })
    | _ => none
  | .event o => some (calls.map (Call.hear o))

/-! ## Answers -/

/-- A call that has an answer has it from its own channel. -/
def Call.Own (c : Call) : Prop := ∀ channel answer, c.stage = .answered channel answer →
  channel = c.channel

/-- No step leaves a call with the answer of another camera. -/
def Uncrossed (calls : List Call) (l : Label) : Prop :=
  ∀ calls', step calls l = some calls' → ∀ c ∈ calls', c.Own

/-- A frame that echoes the command of a waiting query, with a payload, is of the channel of
its device. -/
def RepliesOwn (calls : List Call) : Label → Prop
  | .event (.data frame) =>
    ∀ c ∈ calls, c.stage = .waiting →
      ∀ cmd, c.kind = .p2pQuery cmd ∨ c.kind = .p2pControlQuery cmd →
        (echoed cmd frame).isSome → (frame.header.channel : ℤ) = c.channel
  | _ => True

variable {calls calls' : List Call} {c : Call} {o : Output} {l : Label}

/-- A call without an answer has none of another camera. -/
theorem own_of_unanswered (h : ∀ channel answer, c.stage ≠ .answered channel answer) : c.Own :=
  fun channel answer hstage => absurd hstage (h channel answer)

theorem own_arm (c : Call) (sends : Bool) : (c.arm sends).Own := by
  rw [Call.arm]
  split
  · split
    · exact own_of_unanswered fun _ _ => Stage.noConfusion
    · exact own_of_unanswered fun _ _ => Stage.noConfusion
  · exact own_of_unanswered fun _ _ => Stage.noConfusion

theorem own_route (h : c.Own) (sends : Bool) : (c.route sends).Own := by
  rw [Call.route]
  split
  · exact h
  · split
    · exact own_of_unanswered fun _ _ => Stage.noConfusion
    · exact h

/-- What a waiting call hears as its answer is what its reply says. -/
theorem own_hear_iff (h : c.Own) : (c.hear o).Own ↔
    (c.stage = .waiting → ∀ channel answer, c.reply o = some (channel, answer) →
      channel = c.channel) := by
  rw [Call.hear]
  split
  · rename_i channel answer hwaiting hreply
    constructor
    · intro hown _ channel' answer' hreply'
      rw [hreply] at hreply'
      obtain ⟨rfl, rfl⟩ := Prod.mk.inj (Option.some.inj hreply')
      exact hown channel answer rfl
    · intro hall channel' answer' hstage
      obtain ⟨rfl, rfl⟩ := Stage.answered.inj hstage
      exact hall hwaiting channel answer hreply
  · rename_i hnone
    constructor
    · intro _ hwaiting channel answer hreply
      exact absurd hreply (hnone channel answer hwaiting)
    · exact fun _ => h

/-- The URL a call takes is of its own channel: its listener looks at the channel. -/
theorem reply_rtspUrl {channel : ℕ} {url : Buffer} {found : ℤ} {answer : Answer}
    (h : c.reply (.rtspUrl channel url) = some (found, answer)) : found = c.channel := by
  rw [Call.reply] at h
  split at h
  · split at h
    · rename_i hchannel
      obtain ⟨rfl, -⟩ := Prod.mk.inj (Option.some.inj h)
      exact hchannel
    · cases h
  · cases h

/-- The payload a call takes is of the channel of the frame, whichever that is. -/
theorem reply_data {frame : P2PFrame} {found : ℤ} {answer : Answer}
    (h : c.reply (.data frame) = some (found, answer)) : found = frame.header.channel ∧
      ∃ cmd, (c.kind = .p2pQuery cmd ∨ c.kind = .p2pControlQuery cmd) ∧
        (echoed cmd frame).isSome := by
  rw [Call.reply] at h
  split at h
  · rename_i cmd hkind
    obtain ⟨payload, hpayload, heq⟩ := Option.map_eq_some_iff.mp h
    obtain ⟨rfl, -⟩ := Prod.mk.inj heq
    exact ⟨rfl, cmd, .inl hkind, by rw [hpayload]; rfl⟩
  · rename_i cmd hkind
    obtain ⟨payload, hpayload, heq⟩ := Option.map_eq_some_iff.mp h
    obtain ⟨rfl, -⟩ := Prod.mk.inj heq
    exact ⟨rfl, cmd, .inr hkind, by rw [hpayload]; rfl⟩
  · cases h

/-- A frame is the answer of every query whose command it echoes. -/
theorem reply_of_echoed {frame : P2PFrame} {cmd : ℚ}
    (hkind : c.kind = .p2pQuery cmd ∨ c.kind = .p2pControlQuery cmd)
    (hechoed : (echoed cmd frame).isSome) :
    ∃ answer, c.reply (.data frame) = some ((frame.header.channel : ℤ), answer) := by
  obtain ⟨payload, hpayload⟩ := Option.isSome_iff_exists.mp hechoed
  refine ⟨.payload payload, ?_⟩
  obtain hkind | hkind := hkind
  · simp only [Call.reply, hkind, hpayload, Option.map_some]
  · simp only [Call.reply, hkind, hpayload, Option.map_some]

theorem own_modify {f : Call → Call} {t : ℕ} (h : ∀ c ∈ calls, c.Own)
    (hf : ∀ c, c.Own → (f c).Own) : ∀ c ∈ calls.modify t f, c.Own := by
  intro c hc
  obtain ⟨i, hi⟩ := List.getElem?_of_mem hc
  obtain ⟨-, d, hd, rfl⟩ | ⟨-, hd⟩ := Lists.getElem?_modify_cases hi
  · exact hf d (h d (List.mem_of_getElem? hd))
  · exact h c (List.mem_of_getElem? hd)

/-- Only the session's events answer a call. -/
theorem own_step (h : ∀ c ∈ calls, c.Own) (hl : ∀ o, l ≠ .event o)
    (hstep : step calls l = some calls') : ∀ c ∈ calls', c.Own := by
  have hfailed : ∀ c : Call, c.Own → ({ c with stage := .failed } : Call).Own := by
    intro c _
    exact own_of_unanswered fun _ _ => Stage.noConfusion
  cases l with
  | call kind channel =>
    intro c hc
    obtain rfl := Option.some.inj hstep
    obtain hc | hc := List.mem_append.mp hc
    · exact h c hc
    · obtain rfl := List.mem_singleton.mp hc
      exact own_of_unanswered fun _ _ => Stage.noConfusion
  | resolved t sends =>
    simp only [step] at hstep
    split at hstep
    · obtain rfl := Option.some.inj hstep
      exact own_modify h fun c _ => own_arm c sends
    · cases hstep
  | unresolved t | timedOut t =>
    simp only [step] at hstep
    split at hstep
    · obtain rfl := Option.some.inj hstep
      exact own_modify h hfailed
    · cases hstep
  | routed t sends =>
    simp only [step] at hstep
    split at hstep
    · split at hstep
      · obtain rfl := Option.some.inj hstep
        exact own_modify h fun c hc => own_route hc sends
      · cases hstep
    · cases hstep
  | event o => exact absurd rfl (hl o)

/-- An event leaves every call with an answer of its own exactly when each call that waits would
take one of its own from it. -/
theorem uncrossed_event_iff (h : ∀ c ∈ calls, c.Own) : Uncrossed calls (.event o) ↔
    ∀ c ∈ calls, c.stage = .waiting → ∀ channel answer, c.reply o = some (channel, answer) →
      channel = c.channel := by
  constructor
  · intro huncrossed c hc
    exact (own_hear_iff (h c hc)).mp (huncrossed _ rfl _ (List.mem_map_of_mem hc))
  · intro hall calls' hstep c hc
    obtain rfl := Option.some.inj hstep
    obtain ⟨d, hd, rfl⟩ := List.mem_map.mp hc
    exact (own_hear_iff (h d hd)).mpr (hall d hd)

/-- A step leaves every call with an answer of its own exactly when the frame it brings is of
the camera of every query that takes it. -/
theorem uncrossed_step_iff (h : ∀ c ∈ calls, c.Own) : Uncrossed calls l ↔ RepliesOwn calls l := by
  cases l with
  | event o =>
    rw [uncrossed_event_iff h]
    cases o with
    | data frame =>
      constructor
      · intro hall c hc hwaiting cmd hkind hechoed
        obtain ⟨answer, hreply⟩ := reply_of_echoed hkind hechoed
        exact hall c hc hwaiting _ _ hreply
      · intro hreplies c hc hwaiting channel answer hreply
        obtain ⟨rfl, cmd, hkind, hechoed⟩ := reply_data hreply
        exact hreplies c hc hwaiting cmd hkind hechoed
    | rtspUrl channel url =>
      refine iff_of_true ?_ trivial
      exact fun c _ _ _ _ hreply => reply_rtspUrl hreply
    | _ =>
      refine iff_of_true ?_ trivial
      exact fun c _ _ _ _ hreply => by cases hreply
  | _ => exact iff_of_true (fun _ hstep => own_step h (fun _ => Label.noConfusion) hstep) trivial

/-- **Queries get their own camera's answer** in exactly the runs in which no frame echoes the
command of a query that waits for another camera. -/
theorem uncrossed_iff (ls : List Label) :
    StepsMeet step Uncrossed [] ls ↔ StepsMeet step RepliesOwn [] ls := by
  apply stepsMeet_congr (J := fun calls => ∀ c ∈ calls, c.Own)
  · exact fun c hc => (List.not_mem_nil hc).elim
  · exact fun calls l h => uncrossed_step_iff h
  · exact fun calls l calls' h hreplies hstep => (uncrossed_step_iff h).mpr hreplies _ hstep

/-! ## Safe use -/

/-- Two calls that wait for the same command. -/
def Call.Rivals (c d : Call) : Prop :=
  ∃ cmd, (c.kind = .p2pQuery cmd ∨ c.kind = .p2pControlQuery cmd) ∧
    (d.kind = .p2pQuery cmd ∨ d.kind = .p2pControlQuery cmd)

/-- The station answers a camera that asked, and no two cameras wait for the same command. -/
def AsksApart (calls : List Call) : Label → Prop
  | .event (.data frame) =>
    (∀ c ∈ calls, ∀ d ∈ calls, c.stage = .waiting → d.stage = .waiting → c.Rivals d →
        c.channel = d.channel) ∧
      ∀ cmd, (echoed cmd frame).isSome → ∃ c ∈ calls, c.stage = .waiting ∧
        (c.kind = .p2pQuery cmd ∨ c.kind = .p2pControlQuery cmd) ∧
          c.channel = frame.header.channel
  | _ => True

theorem AsksApart.repliesOwn (h : AsksApart calls l) : RepliesOwn calls l := by
  cases l with
  | event o =>
    cases o with
    | data frame =>
      intro c hc hwaiting cmd hkind hechoed
      obtain ⟨d, hd, hwaiting', hkind', hchannel⟩ := h.2 cmd hechoed
      rw [← hchannel]
      exact h.1 d hd c hc hwaiting' hwaiting ⟨cmd, hkind', hkind⟩
    | _ => trivial
  | _ => trivial

/-- Where one camera is asked at a time, no answer is another camera's. -/
theorem uncrossed_of_asksApart {ls : List Label} (h : StepsMeet step AsksApart [] ls) :
    StepsMeet step Uncrossed [] ls := by
  apply h.strengthen (J := fun calls => ∀ c ∈ calls, c.Own)
  · exact fun c hc => (List.not_mem_nil hc).elim
  · exact fun calls l hown happart => (uncrossed_step_iff hown).mpr happart.repliesOwn
  · exact fun calls l calls' hown happart hstep =>
      (uncrossed_step_iff hown).mpr happart.repliesOwn _ hstep

/-! ## Two cameras -/

/-- The answer of the camera on channel 1. -/
def rosterOfSecond : P2PFrame where
  header := { commandId := 1351, bytesToRead := 0, channel := 1, signCode := 0, type := 0 }
  stationSn := "T8010"
  dataType := 0
  data := []
  raw := []
  json := some (.obj [("cmd", .num 1194), ("payload", .obj [])])
  params := none

/-- The cameras on channel 0 and 1 of a station are asked for the same thing. -/
def bothAsked : List Label :=
  [.call (.p2pQuery 1194) 0, .call (.p2pQuery 1194) 1, .resolved 0 true, .resolved 1 true]

/-- The first camera's query resolves with the second camera's answer. -/
theorem query_takes_other_answer :
    ∃ calls, exec step [] (bothAsked ++ [.event (.data rosterOfSecond)]) = some calls ∧
      calls[0]? = some
        { kind := .p2pQuery 1194, channel := 0, sent := true,
          stage := .answered 1 (.payload (.obj [])) } ∧
      ¬StepsMeet step Uncrossed [] (bothAsked ++ [.event (.data rosterOfSecond)]) := by
  refine ⟨_, rfl, rfl, fun h => ?_⟩
  have hown : (0 : ℤ) = 1 :=
    ((h.meets rfl) _ rfl _ List.mem_cons_self 1 (.payload (.obj [])) rfl).symm
  cases hown

end EufySdk.Queries
