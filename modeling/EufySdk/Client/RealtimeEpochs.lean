import Mathlib.Tactic
import EufySdk.Lib.Lists
import EufySdk.Lib.Machine
import EufySdk.Client.Realtime

/-!
# Realtime channels belong to one epoch

A teardown clears what it finds after its awaits, so a login that reaches those places in
between has its channels dropped, or counts an older one as its own. While bring-ups stay out
of these gaps, every channel belongs to the epoch of its login.

- `Channels.KeepsEpochs` — a step closes, forgets and counts only channels of the right epoch
- `Channels.InTurn` — a step does not reach into the gap of a teardown
- `MqttInv`, `PushInv`, `OwnInv` — the invariant, a part for each kind of channel
-/

namespace EufySdk.Realtime

open Machine Lists

/-! ### What is claimed -/

namespace Channels

/-- All calls have settled. -/
def Quiet (c : Channels) : Prop :=
  (∀ a ∈ c.attempts, a.stage = .resolved ∨ a.stage = .rejected) ∧
    (∀ g ∈ c.generations, g.stage = .done) ∧ (∀ d ∈ c.teardowns, d.running = false) ∧ c.polls = []

/-- What is open or installed belongs to the current epoch. -/
structure OwnEpoch (c : Channels) : Prop where
  mqttOpen : ∀ a ∈ c.attempts, a.connected = true → a.epoch = c.realtimeEpoch
  mqttInstalled : ∀ scope i a, c.transports scope = some i → c.attempts[i]? = some a →
    a.epoch = c.realtimeEpoch
  pushOpen : ∀ g ∈ c.generations, g.pushOpen = true → g.epoch = c.realtimeEpoch
  pushInstalled : ∀ k g, c.pushClient = some k → c.generations[k]? = some g →
    g.epoch = c.realtimeEpoch
  poll : ∀ epoch, c.pollTimer = some epoch → epoch = c.realtimeEpoch

/-- A login counts as ready only transports brought up in its own epoch, so none that an earlier
teardown closes. -/
def CountsOwn (c : Channels) : Prop :=
  ∀ g ∈ c.generations, ∀ i ∈ g.counted, ∀ a, c.attempts[i]? = some a → a.epoch = g.epoch

/-- What a step of a disconnect closes or forgets was brought up before that disconnect. -/
structure ClosesEarlier (c : Channels) (l : Label) (t : Channels) : Prop where
  mqttClosed : ∀ e, c.teardownOf l = some e → ∀ (i : ℕ) a b, c.attempts[i]? = some a →
    t.attempts[i]? = some b → a.connected = true → b.connected = false → a.epoch < e
  mqttForgotten : ∀ e, c.teardownOf l = some e → ∀ scope i a, c.transports scope = some i →
    t.transports scope ≠ some i → c.attempts[i]? = some a → a.epoch < e
  memoForgotten : ∀ e, c.teardownOf l = some e → ∀ scope i a, c.mqttReady scope = some i →
    t.mqttReady scope ≠ some i → c.attempts[i]? = some a → a.epoch < e
  pushClosed : ∀ e, c.teardownOf l = some e → ∀ (k : ℕ) g h, c.generations[k]? = some g →
    t.generations[k]? = some h → g.pushOpen = true → h.pushOpen = false → g.epoch < e
  pushForgotten : ∀ e, c.teardownOf l = some e → ∀ k g, c.pushClient = some k →
    t.pushClient ≠ some k → c.generations[k]? = some g → g.epoch < e
  pollCancelled : ∀ e, c.teardownOf l = some e → ∀ epoch, c.pollTimer = some epoch →
    t.pollTimer ≠ some epoch → epoch < e

/-- The step keeps every channel in its epoch. -/
def KeepsEpochs (c : Channels) (l : Label) : Prop :=
  ∀ t, c.step l = some t → ClosesEarlier c l t ∧ t.CountsOwn ∧ (t.Quiet → t.OwnEpoch)

/-- No transport's or session's close fails, and no bring-up reaches into the gap of a teardown:
none starts or joins a transport before an earlier teardown has cleared its maps, and none
ends before it has closed the push client. -/
def InTurn (c : Channels) : Label → Prop
  | .launch k scopes => ∀ g ∈ c.generations[k]?, g.stage = .listing →
      g.epoch = c.realtimeEpoch → scopes ≠ [] → ∀ t ∈ c.teardowns, t.stage ≠ .mqtt
  | .ensureMqttStarted scope =>
    c.mqttReady scope = none → ∀ t ∈ c.teardowns, t.stage ≠ .mqtt
  | .finish k => ∀ g ∈ c.generations[k]?, g.started = true → g.epoch = c.realtimeEpoch →
      (∀ t ∈ c.teardowns, t.running = false) ∨
        (g.pushStart ≠ .connected ∧ c.pushClient = none)
  | .mqttCloseFails i => ∀ a ∈ c.attempts[i]?, a.stage ≠ .closing
  | .teardownFails d => ∀ t ∈ c.teardowns[d]?, t.running = true →
      t.stage = .p2p ∧ c.pushClient = none
  | _ => True

instance (c : Channels) : DecidablePred c.InTurn := fun l => by
  unfold InTurn
  cases l <;> infer_instance

end Channels

/-! ### The transports -/

/-- What holds of the attempts, of the teardowns that await their transports, and of the maps. -/
structure MqttInv (epoch : ℕ) (attempts : List Attempt) (teardowns : List Teardown)
    (memo transports : MqttScope → Option ℕ) : Prop where
  attempt_le : ∀ (i : ℕ) a, attempts[i]? = some a → a.epoch ≤ epoch
  teardown_le : ∀ (d : ℕ) t, teardowns[d]? = some t → t.epoch ≤ epoch
  /-- No attempt has begun behind a disconnect that has not cleared the maps. -/
  gap : ∀ (d : ℕ) t, teardowns[d]? = some t → t.stage = .mqtt →
    ∀ (i : ℕ) a, attempts[i]? = some a → a.epoch < t.epoch
  closing : ∀ (d : ℕ) t, teardowns[d]? = some t → ∀ i ∈ t.closing,
    ∃ a, attempts[i]? = some a ∧ a.epoch < t.epoch
  captured : ∀ (d : ℕ) t, teardowns[d]? = some t → t.stage = .mqtt → ∀ scope i a,
    transports scope = some i → attempts[i]? = some a → a.connected = true → i ∈ t.closing
  memoised : ∀ scope i, memo scope = some i → ∃ a, attempts[i]? = some a ∧
    (a.epoch = epoch ∨ ∃ (d : ℕ) (t : Teardown), teardowns[d]? = some t ∧ t.stage = .mqtt)
  installed : ∀ scope i, transports scope = some i → memo scope = some i ∧
    ∃ a, attempts[i]? = some a ∧ a.scope = scope ∧ (a.stage = .subscribing ∨ a.stage = .resolved)
  starting : ∀ (i : ℕ) a, attempts[i]? = some a → a.stage = .starting →
    a.connected = false ∧ (a.epoch = epoch → memo a.scope = some i)
  held : ∀ (i : ℕ) a, attempts[i]? = some a → a.connected = true →
    a.stage = .closing ∨ transports a.scope = some i

namespace MqttInv

variable {epoch : ℕ} {attempts : List Attempt} {teardowns : List Teardown}
  {memo transports : MqttScope → Option ℕ}

theorem start : MqttInv epoch [] [] (fun _ => none) (fun _ => none) := by
  constructor <;> simp

/-- An attempt begins outside the gaps, under a scope without a memo. -/
theorem begin (h : MqttInv epoch attempts teardowns memo transports) {scope : MqttScope}
    (hmemo : memo scope = none) (hgap : ∀ (d : ℕ) t, teardowns[d]? = some t → t.stage ≠ .mqtt) :
    MqttInv epoch (attempts ++ [⟨scope, epoch, .starting, false⟩]) teardowns
      (Function.update memo scope (some attempts.length)) transports where
  attempt_le i a ha := by
    rcases getElem?_append_cases ha with ⟨-, rfl⟩ | ha
    · exact le_rfl
    · exact h.attempt_le i a ha
  teardown_le := h.teardown_le
  gap d t ht hstage := absurd hstage (hgap d t ht)
  closing d t ht i hi := by
    obtain ⟨a, ha, hlt⟩ := h.closing d t ht i hi
    exact ⟨a, getElem?_append_of_some ha, hlt⟩
  captured d t ht hstage := absurd hstage (hgap d t ht)
  memoised sc i hi := by
    by_cases hsc : sc = scope
    · subst hsc
      rw [Function.update_self] at hi
      obtain rfl := Option.some.inj hi
      exact ⟨_, List.getElem?_concat_length, .inl rfl⟩
    · rw [Function.update_of_ne hsc] at hi
      obtain ⟨a, ha, hepoch⟩ := h.memoised sc i hi
      exact ⟨a, getElem?_append_of_some ha, hepoch⟩
  installed sc i hi := by
    obtain ⟨hm, a, ha, hrest⟩ := h.installed sc i hi
    have hsc : sc ≠ scope := by
      rintro rfl
      rw [hmemo] at hm
      cases hm
    exact ⟨by rw [Function.update_of_ne hsc, hm], a, getElem?_append_of_some ha, hrest⟩
  starting i a ha hstage := by
    rcases getElem?_append_cases ha with ⟨rfl, rfl⟩ | ha
    · exact ⟨rfl, fun _ => Function.update_self ..⟩
    · obtain ⟨hconn, hm⟩ := h.starting i a ha hstage
      refine ⟨hconn, fun hepoch => ?_⟩
      have hsc : a.scope ≠ scope := by
        rintro hsc
        rw [hsc, hmemo] at hm
        cases hm hepoch
      rw [Function.update_of_ne hsc, hm hepoch]
  held i a ha hconn := by
    rcases getElem?_append_cases ha with ⟨-, rfl⟩ | ha
    · cases hconn
    · exact h.held i a ha hconn

/-- An attempt goes on to another stage, without the maps. -/
theorem modify (h : MqttInv epoch attempts teardowns memo transports) {i : ℕ} {a : Attempt}
    {f : Attempt → Attempt} (ha : attempts[i]? = some a) (hscope : (f a).scope = a.scope)
    (hepoch : (f a).epoch = a.epoch) (hstage : (f a).stage ≠ .starting)
    (hinstalled : (∃ scope, transports scope = some i) →
      ((f a).connected = true → a.connected = true) ∧
        ((f a).stage = .subscribing ∨ (f a).stage = .resolved))
    (hheld : (f a).connected = true → (f a).stage = .closing ∨ transports a.scope = some i) :
    MqttInv epoch (attempts.modify i f) teardowns memo transports where
  attempt_le j b hb := by
    obtain ⟨rfl, rfl⟩ | ⟨-, hb⟩ := getElem?_modify_known ha hb
    · exact hepoch ▸ h.attempt_le j a ha
    · exact h.attempt_le j b hb
  teardown_le := h.teardown_le
  gap d t ht hst j b hb := by
    obtain ⟨rfl, rfl⟩ | ⟨-, hb⟩ := getElem?_modify_known ha hb
    · exact hepoch ▸ h.gap d t ht hst j a ha
    · exact h.gap d t ht hst j b hb
  closing d t ht j hj := by
    obtain ⟨b, hb, hlt⟩ := h.closing d t ht j hj
    refine ⟨_, getElem?_modify_of_some i hb, ?_⟩
    split
    · next heq =>
      subst heq
      obtain rfl := Option.some.inj (ha.symm.trans hb)
      exact hepoch ▸ hlt
    · exact hlt
  captured d t ht hst sc j b hj hb hconn := by
    obtain ⟨rfl, rfl⟩ | ⟨-, hb⟩ := getElem?_modify_known ha hb
    · exact h.captured d t ht hst sc j a hj ha ((hinstalled ⟨sc, hj⟩).1 hconn)
    · exact h.captured d t ht hst sc j b hj hb hconn
  memoised sc j hj := by
    obtain ⟨b, hb, hrest⟩ := h.memoised sc j hj
    refine ⟨_, getElem?_modify_of_some i hb, ?_⟩
    split
    · next heq =>
      subst heq
      obtain rfl := Option.some.inj (ha.symm.trans hb)
      rwa [hepoch]
    · exact hrest
  installed sc j hj := by
    obtain ⟨hm, b, hb, hsc, hst⟩ := h.installed sc j hj
    refine ⟨hm, _, getElem?_modify_of_some i hb, ?_⟩
    split
    · next heq =>
      subst heq
      obtain rfl := Option.some.inj (ha.symm.trans hb)
      exact ⟨hscope.trans hsc, (hinstalled ⟨sc, hj⟩).2⟩
    · exact ⟨hsc, hst⟩
  starting j b hb hst := by
    obtain ⟨rfl, rfl⟩ | ⟨-, hb⟩ := getElem?_modify_known ha hb
    · exact absurd hst hstage
    · exact h.starting j b hb hst
  held j b hb hconn := by
    obtain ⟨rfl, rfl⟩ | ⟨-, hb⟩ := getElem?_modify_known ha hb
    · rw [hscope]
      exact hheld hconn
    · exact h.held j b hb hconn

/-- An attempt that is starting or closing is not installed. -/
theorem not_installed (h : MqttInv epoch attempts teardowns memo transports) {i : ℕ} {a : Attempt}
    (ha : attempts[i]? = some a) (hstage : a.stage = .starting ∨ a.stage = .closing) :
    ¬∃ scope, transports scope = some i := by
  rintro ⟨scope, hi⟩
  obtain ⟨-, b, hb, -, hb'⟩ := h.installed scope i hi
  obtain rfl := Option.some.inj (ha.symm.trans hb)
  rcases hstage with hs | hs <;> rw [hs] at hb' <;> rcases hb' with hb' | hb' <;> cases hb'

/-- A current attempt installs its transport, which no other one has. -/
theorem install (h : MqttInv epoch attempts teardowns memo transports) {i : ℕ} {a : Attempt}
    (ha : attempts[i]? = some a) (hstage : a.stage = .starting) (hepoch : a.epoch = epoch) :
    MqttInv epoch
      (attempts.modify i fun a => { a with connected := true, stage := .subscribing }) teardowns
      memo (Function.update transports a.scope (some i)) := by
  have hmemo := (h.starting i a ha hstage).2 hepoch
  have hfree : transports a.scope = none := by
    cases hj : transports a.scope with
    | none => rfl
    | some j =>
      have hm := (h.installed a.scope j hj).1
      obtain rfl := Option.some.inj (hmemo.symm.trans hm)
      exact absurd ⟨a.scope, hj⟩ (h.not_installed ha (.inl hstage))
  -- a teardown that awaits its transports would have begun after the attempt
  have hgap : ∀ (d : ℕ) t, teardowns[d]? = some t → t.stage ≠ .mqtt := by
    intro d t ht hst
    have hlt := h.gap d t ht hst i a ha
    have hle := h.teardown_le d t ht
    omega
  refine
    { attempt_le := fun j b hb => ?_
      teardown_le := h.teardown_le
      gap := fun d t ht hst => absurd hst (hgap d t ht)
      closing := fun d t ht j hj => ?_
      captured := fun d t ht hst => absurd hst (hgap d t ht)
      memoised := fun sc j hj => ?_
      installed := fun sc j hj => ?_
      starting := fun j b hb hst => ?_
      held := fun j b hb hconn => ?_ }
  · rcases getElem?_modify_cases hb with ⟨rfl, a', ha', rfl⟩ | ⟨-, hb⟩
    · exact h.attempt_le j a' ha'
    · exact h.attempt_le j b hb
  · obtain ⟨b, hb, hlt⟩ := h.closing d t ht j hj
    refine ⟨_, getElem?_modify_of_some i hb, ?_⟩
    split <;> exact hlt
  · obtain ⟨b, hb, hrest⟩ := h.memoised sc j hj
    refine ⟨_, getElem?_modify_of_some i hb, ?_⟩
    split <;> exact hrest
  · by_cases hsc : sc = a.scope
    · subst hsc
      rw [Function.update_self] at hj
      obtain rfl := Option.some.inj hj
      refine ⟨hmemo, _, getElem?_modify_of_some i ha, ?_⟩
      rw [if_pos rfl]
      exact ⟨rfl, .inl rfl⟩
    · rw [Function.update_of_ne hsc] at hj
      obtain ⟨hm, b, hb, hrest⟩ := h.installed sc j hj
      refine ⟨hm, b, ?_, hrest⟩
      have hji : i ≠ j := by
        rintro rfl
        exact h.not_installed ha (.inl hstage) ⟨sc, hj⟩
      rw [List.getElem?_modify_ne _ _ hji, hb]
  · rcases getElem?_modify_cases hb with ⟨rfl, a', ha', rfl⟩ | ⟨-, hb⟩
    · cases hst
    · exact h.starting j b hb hst
  · obtain ⟨rfl, rfl⟩ | ⟨-, hb⟩ := getElem?_modify_known ha hb
    · exact .inr (Function.update_self ..)
    · refine (h.held j b hb hconn).imp id fun hj => ?_
      have hsc : b.scope ≠ a.scope := by
        intro hsc
        rw [hsc, hfree] at hj
        cases hj
      rw [Function.update_of_ne hsc, hj]

/-- A rejected attempt clears the memo that is its own. -/
theorem forget (h : MqttInv epoch attempts teardowns memo transports) {i : ℕ} {a : Attempt}
    (ha : attempts[i]? = some a) (hstage : a.stage = .rejected) (scope : MqttScope)
    (hmemo : memo scope = some i) :
    MqttInv epoch attempts teardowns (Function.update memo scope none) transports where
  attempt_le := h.attempt_le
  teardown_le := h.teardown_le
  gap := h.gap
  closing := h.closing
  captured := h.captured
  memoised sc j hj := by
    by_cases hsc : sc = scope
    · subst hsc
      rw [Function.update_self] at hj
      cases hj
    · rw [Function.update_of_ne hsc] at hj
      exact h.memoised sc j hj
  installed sc j hj := by
    obtain ⟨hm, b, hb, hrest⟩ := h.installed sc j hj
    have hsc : sc ≠ scope := by
      rintro rfl
      obtain rfl := Option.some.inj (hmemo.symm.trans hm)
      obtain rfl := Option.some.inj (ha.symm.trans hb)
      rw [hstage] at hrest
      rcases hrest with ⟨-, hrest | hrest⟩ <;> cases hrest
    exact ⟨by rw [Function.update_of_ne hsc, hm], b, hb, hrest⟩
  starting j b hb hst := by
    obtain ⟨hconn, hm⟩ := h.starting j b hb hst
    refine ⟨hconn, fun hepoch => ?_⟩
    have hsc : b.scope ≠ scope := by
      rintro rfl
      obtain rfl := Option.some.inj (hmemo.symm.trans (hm hepoch))
      obtain rfl := Option.some.inj (ha.symm.trans hb)
      cases hst.symm.trans hstage
    rw [Function.update_of_ne hsc, hm hepoch]
  held := h.held

/-- A disconnect begins its epoch and captures what is installed. -/
theorem disconnect (h : MqttInv epoch attempts teardowns memo transports) {closing : List ℕ}
    (hclosing : ∀ i, i ∈ closing ↔ ∃ scope, transports scope = some i) :
    MqttInv (epoch + 1) attempts (teardowns ++ [⟨epoch + 1, closing, .mqtt⟩]) memo transports where
  attempt_le i a ha := (h.attempt_le i a ha).trans (Nat.le_succ _)
  teardown_le d t ht := by
    rcases getElem?_append_cases ht with ⟨-, rfl⟩ | ht
    · exact le_rfl
    · exact (h.teardown_le d t ht).trans (Nat.le_succ _)
  gap d t ht hst i a ha := by
    rcases getElem?_append_cases ht with ⟨-, rfl⟩ | ht
    · exact Nat.lt_succ_of_le (h.attempt_le i a ha)
    · exact h.gap d t ht hst i a ha
  closing d t ht i hi := by
    rcases getElem?_append_cases ht with ⟨-, rfl⟩ | ht
    · obtain ⟨scope, hscope⟩ := (hclosing i).mp hi
      obtain ⟨-, a, ha, -⟩ := h.installed scope i hscope
      exact ⟨a, ha, Nat.lt_succ_of_le (h.attempt_le i a ha)⟩
    · exact h.closing d t ht i hi
  captured d t ht hst scope i a hi ha hconn := by
    rcases getElem?_append_cases ht with ⟨-, rfl⟩ | ht
    · exact (hclosing i).mpr ⟨scope, hi⟩
    · exact h.captured d t ht hst scope i a hi ha hconn
  memoised scope i hi := by
    obtain ⟨a, ha, -⟩ := h.memoised scope i hi
    exact ⟨a, ha, .inr ⟨_, _, List.getElem?_concat_length, rfl⟩⟩
  installed := h.installed
  starting i a ha hst := by
    refine ⟨(h.starting i a ha hst).1, fun hepoch => ?_⟩
    have hle := h.attempt_le i a ha
    omega
  held := h.held

/-- A teardown's transport closes. -/
theorem close (h : MqttInv epoch attempts teardowns memo transports) {d i : ℕ} {t : Teardown}
    (ht : teardowns[d]? = some t) :
    MqttInv epoch (attempts.modify i fun a => { a with connected := false })
      (teardowns.modify d fun t => { t with closing := t.closing.erase i }) memo transports where
  attempt_le j b hb := by
    rcases getElem?_modify_cases hb with ⟨rfl, a, ha, rfl⟩ | ⟨-, hb⟩
    · exact h.attempt_le j a ha
    · exact h.attempt_le j b hb
  teardown_le e u hu := by
    rcases getElem?_modify_cases hu with ⟨rfl, t, ht, rfl⟩ | ⟨-, hu⟩
    · exact h.teardown_le e t ht
    · exact h.teardown_le e u hu
  gap e u hu hst j b hb := by
    obtain ⟨u', hu', hst', hlt⟩ : ∃ u', teardowns[e]? = some u' ∧ u'.stage = .mqtt ∧
        u'.epoch = u.epoch := by
      rcases getElem?_modify_cases hu with ⟨rfl, t, ht, rfl⟩ | ⟨-, hu⟩
      · exact ⟨t, ht, hst, rfl⟩
      · exact ⟨u, hu, hst, rfl⟩
    rw [← hlt]
    rcases getElem?_modify_cases hb with ⟨rfl, a, ha, rfl⟩ | ⟨-, hb⟩
    · exact h.gap e u' hu' hst' j a ha
    · exact h.gap e u' hu' hst' j b hb
  closing e u hu j hj := by
    obtain ⟨a, ha, hlt⟩ : ∃ a, attempts[j]? = some a ∧ a.epoch < u.epoch := by
      rcases getElem?_modify_cases hu with ⟨rfl, t, ht, rfl⟩ | ⟨-, hu⟩
      · exact h.closing e t ht j (List.mem_of_mem_erase hj)
      · exact h.closing e u hu j hj
    refine ⟨_, getElem?_modify_of_some i ha, ?_⟩
    split <;> exact hlt
  captured e u hu hst scope j b hj hb hconn := by
    rcases getElem?_modify_cases hb with ⟨rfl, a, ha, rfl⟩ | ⟨hji, hb⟩
    · cases hconn
    · rcases getElem?_modify_cases hu with ⟨rfl, t, ht, rfl⟩ | ⟨-, hu⟩
      · exact (List.mem_erase_of_ne hji).mpr (h.captured e t ht hst scope j b hj hb hconn)
      · exact h.captured e u hu hst scope j b hj hb hconn
  memoised scope j hj := by
    obtain ⟨a, ha, hepoch⟩ := h.memoised scope j hj
    refine ⟨_, getElem?_modify_of_some i ha, ?_⟩
    have hclearing : a.epoch = epoch ∨ ∃ (e : ℕ) (u : Teardown),
        (teardowns.modify d fun t => { t with closing := t.closing.erase i })[e]? = some u ∧
          u.stage = .mqtt := by
      refine hepoch.imp id ?_
      rintro ⟨e, u, hu, hst⟩
      refine ⟨e, _, getElem?_modify_of_some d hu, ?_⟩
      split <;> exact hst
    split <;> exact hclearing
  installed scope j hj := by
    obtain ⟨hm, a, ha, hrest⟩ := h.installed scope j hj
    refine ⟨hm, _, getElem?_modify_of_some i ha, ?_⟩
    split <;> exact hrest
  starting j b hb hst := by
    rcases getElem?_modify_cases hb with ⟨rfl, a, ha, rfl⟩ | ⟨-, hb⟩
    · exact ⟨rfl, (h.starting j a ha hst).2⟩
    · exact h.starting j b hb hst
  held j b hb hconn := by
    rcases getElem?_modify_cases hb with ⟨rfl, a, ha, rfl⟩ | ⟨-, hb⟩
    · cases hconn
    · exact h.held j b hb hconn

/-- A teardown whose transports are closed clears the maps. -/
theorem clear (h : MqttInv epoch attempts teardowns memo transports) {d : ℕ} {t : Teardown}
    (ht : teardowns[d]? = some t) (hstage : t.stage = .mqtt) (hclosed : t.closing = []) :
    MqttInv epoch attempts (teardowns.modify d fun t => { t with stage := .p2p }) (fun _ => none)
      (fun _ => none) where
  attempt_le := h.attempt_le
  teardown_le e u hu := by
    rcases getElem?_modify_cases hu with ⟨rfl, t, ht, rfl⟩ | ⟨-, hu⟩
    · exact h.teardown_le e t ht
    · exact h.teardown_le e u hu
  gap e u hu hst := by
    rcases getElem?_modify_cases hu with ⟨rfl, t, ht, rfl⟩ | ⟨-, hu⟩
    · cases hst
    · exact h.gap e u hu hst
  closing e u hu := by
    rcases getElem?_modify_cases hu with ⟨rfl, t, ht, rfl⟩ | ⟨-, hu⟩
    · exact h.closing e t ht
    · exact h.closing e u hu
  captured _ _ _ _ _ _ _ hi := by cases hi
  memoised _ _ hi := by cases hi
  installed _ _ hi := by cases hi
  starting i a ha hst := by
    refine ⟨(h.starting i a ha hst).1, fun hepoch => ?_⟩
    have hlt := h.gap d t ht hstage i a ha
    have hle := h.teardown_le d t ht
    omega
  held i a ha hconn := by
    refine (h.held i a ha hconn).imp id fun hi => ?_
    have hin := h.captured d t ht hstage a.scope i a hi ha hconn
    rw [hclosed] at hin
    cases hin

/-- A teardown goes on behind the clearing of the maps. -/
theorem advance (h : MqttInv epoch attempts teardowns memo transports) {d : ℕ} {t : Teardown}
    {stage : TeardownStage} (ht : teardowns[d]? = some t) (hstage : t.stage ≠ .mqtt)
    (hnext : stage ≠ .mqtt) :
    MqttInv epoch attempts (teardowns.modify d fun t => { t with stage }) memo transports where
  attempt_le := h.attempt_le
  teardown_le e u hu := by
    rcases getElem?_modify_cases hu with ⟨rfl, t, ht, rfl⟩ | ⟨-, hu⟩
    · exact h.teardown_le e t ht
    · exact h.teardown_le e u hu
  gap e u hu hst := by
    rcases getElem?_modify_cases hu with ⟨rfl, t, ht, rfl⟩ | ⟨-, hu⟩
    · exact absurd hst hnext
    · exact h.gap e u hu hst
  closing e u hu := by
    rcases getElem?_modify_cases hu with ⟨rfl, t, ht, rfl⟩ | ⟨-, hu⟩
    · exact h.closing e t ht
    · exact h.closing e u hu
  captured e u hu hst := by
    rcases getElem?_modify_cases hu with ⟨rfl, t, ht, rfl⟩ | ⟨-, hu⟩
    · exact absurd hst hnext
    · exact h.captured e u hu hst
  memoised scope i hi := by
    obtain ⟨a, ha, hepoch⟩ := h.memoised scope i hi
    refine ⟨a, ha, hepoch.imp id ?_⟩
    rintro ⟨e, u, hu, hst⟩
    have hed : d ≠ e := by
      rintro rfl
      obtain rfl := Option.some.inj (ht.symm.trans hu)
      exact hstage hst
    exact ⟨e, u, by rw [List.getElem?_modify_ne _ _ hed, hu], hst⟩
  installed := h.installed
  starting := h.starting
  held := h.held

end MqttInv

/-! ### The push clients -/

/-- What holds of the generations and of the installed push client. -/
structure PushInv (epoch : ℕ) (generations : List Generation) (teardowns : List Teardown)
    (pushClient : Option ℕ) : Prop where
  generation_le : ∀ (k : ℕ) g, generations[k]? = some g → g.epoch ≤ epoch
  ordered : generations.Pairwise fun g h => g.epoch < h.epoch
  opened : ∀ (k : ℕ) g, generations[k]? = some g → g.pushOpen = true →
    g.pushStart = .connected ∧ (g.stage = .starting ∨ pushClient = some k)
  client : ∀ k, pushClient = some k → ∃ g, generations[k]? = some g ∧ g.stage = .done ∧
    (g.epoch = epoch ∨ ∃ (d : ℕ) (t : Teardown), teardowns[d]? = some t ∧ t.running = true)
  /-- No push client has been installed behind a disconnect that has not closed it. -/
  gap : ∀ k g, pushClient = some k → generations[k]? = some g →
    ∀ (d : ℕ) t, teardowns[d]? = some t → t.running = true → g.epoch < t.epoch

namespace PushInv

variable {epoch : ℕ} {generations : List Generation} {teardowns : List Teardown}
  {pushClient : Option ℕ}

theorem start : PushInv epoch [] [] none := by
  constructor <;> simp

/-- A login begins the generation of an epoch that has none. -/
theorem login (h : PushInv epoch generations teardowns pushClient)
    (hlast : ∀ g, generations.getLast? = some g → g.epoch ≠ epoch) :
    PushInv epoch (generations ++ [{ epoch := epoch }]) teardowns pushClient where
  generation_le k g hg := by
    rcases getElem?_append_cases hg with ⟨-, rfl⟩ | hg
    · exact le_rfl
    · exact h.generation_le k g hg
  ordered := by
    refine List.pairwise_append.mpr ⟨h.ordered, List.pairwise_singleton _ _, fun g hg e he => ?_⟩
    rw [List.mem_singleton.mp he]
    obtain ⟨before, last, rfl⟩ : ∃ before last, generations = before ++ [last] :=
      ⟨_, _, (List.dropLast_append_getLast (List.ne_nil_of_mem hg)).symm⟩
    have hle := h.generation_le _ last List.getElem?_concat_length
    have hne := hlast last List.getLast?_concat
    have hlt : last.epoch < epoch := by omega
    rcases List.mem_append.mp hg with hg | hg
    · have := (List.pairwise_append.mp h.ordered).2.2 g hg last (List.mem_singleton_self last)
      exact this.trans hlt
    · rwa [List.mem_singleton.mp hg]
  opened k g hg hopen := by
    rcases getElem?_append_cases hg with ⟨-, rfl⟩ | hg
    · cases hopen
    · exact h.opened k g hg hopen
  client k hk := by
    obtain ⟨g, hg, hrest⟩ := h.client k hk
    exact ⟨g, getElem?_append_of_some hg, hrest⟩
  gap k g hk hg := by
    obtain ⟨g', hg', -⟩ := h.client k hk
    obtain rfl := Option.some.inj ((getElem?_append_of_some hg').symm.trans hg)
    exact h.gap k g' hk hg'

/-- The generations keep their epochs and their order. -/
theorem ordered_modify (h : PushInv epoch generations teardowns pushClient) {f : Generation → Generation}
    (hepoch : ∀ g, (f g).epoch = g.epoch) (k : ℕ) :
    (generations.modify k f).Pairwise fun g h => g.epoch < h.epoch := by
  have hmap : (generations.modify k f).map Generation.epoch = generations.map Generation.epoch := by
    apply List.ext_getElem?
    intro j
    rw [List.getElem?_map, List.getElem?_map, List.getElem?_modify]
    cases generations[j]? with
    | none => rfl
    | some g =>
      show some (if k = j then f g else g).epoch = some g.epoch
      split
      · rw [hepoch]
      · rfl
  have hpair := List.pairwise_map.mpr h.ordered
  rw [← hmap] at hpair
  exact List.pairwise_map.mp hpair

/-- A generation goes on, without its push client being installed. -/
theorem modify (h : PushInv epoch generations teardowns pushClient) {k : ℕ} {g : Generation}
    {f : Generation → Generation} (hg : generations[k]? = some g)
    (hepoch : ∀ g, (f g).epoch = g.epoch)
    (hopened : (f g).pushOpen = true →
      (f g).pushStart = .connected ∧ ((f g).stage = .starting ∨ pushClient = some k))
    (hdone : g.stage = .done → (f g).stage = .done) :
    PushInv epoch (generations.modify k f) teardowns pushClient where
  generation_le j e he := by
    rcases getElem?_modify_cases he with ⟨rfl, g', hg', rfl⟩ | ⟨-, he⟩
    · exact hepoch g' ▸ h.generation_le j g' hg'
    · exact h.generation_le j e he
  ordered := h.ordered_modify hepoch k
  opened j e he hopen := by
    obtain ⟨rfl, rfl⟩ | ⟨-, he⟩ := getElem?_modify_known hg he
    · exact hopened hopen
    · exact h.opened j e he hopen
  client j hj := by
    obtain ⟨e, he, hst, hcur⟩ := h.client j hj
    refine ⟨_, getElem?_modify_of_some k he, ?_⟩
    split
    · next heq =>
      subst heq
      obtain rfl := Option.some.inj (hg.symm.trans he)
      exact ⟨hdone hst, hepoch g ▸ hcur⟩
    · exact ⟨hst, hcur⟩
  gap j e hj he d t ht hrun := by
    rcases getElem?_modify_cases he with ⟨rfl, g', hg', rfl⟩ | ⟨-, he⟩
    · exact hepoch g' ▸ h.gap j g' hj hg' d t ht hrun
    · exact h.gap j e hj he d t ht hrun

/-- One generation an epoch. -/
theorem unique (h : PushInv epoch generations teardowns pushClient) {j k : ℕ} {g e : Generation}
    (hg : generations[k]? = some g) (he : generations[j]? = some e) (heq : e.epoch = g.epoch) :
    j = k := by
  obtain ⟨hk, rfl⟩ := List.getElem?_eq_some_iff.mp hg
  obtain ⟨hj, rfl⟩ := List.getElem?_eq_some_iff.mp he
  rcases lt_trichotomy j k with hlt | heq' | hlt
  · have := List.pairwise_iff_getElem.mp h.ordered j k hj hk hlt
    omega
  · exact heq'
  · have := List.pairwise_iff_getElem.mp h.ordered k j hk hj hlt
    omega

/-- A current bring-up ends outside the gaps: its push client is installed over none. -/
theorem install (h : PushInv epoch generations teardowns pushClient) {k : ℕ} {g : Generation}
    {f : Generation → Generation} (hg : generations[k]? = some g) (hstage : g.stage = .starting)
    (hcurrent : g.epoch = epoch) (hepoch : ∀ g, (f g).epoch = g.epoch)
    (hpush : ∀ g, (f g).pushOpen = g.pushOpen ∧ (f g).pushStart = g.pushStart ∧
      (f g).stage = .done)
    (hgap : (∀ (d : ℕ) t, teardowns[d]? = some t → t.running = false) ∨
      (g.pushStart ≠ .connected ∧ pushClient = none)) :
    PushInv epoch (generations.modify k f) teardowns
      (if g.pushStart = PushStart.connected then some k else none) := by
  have hfree : pushClient = none := by
    rcases hgap with hgap | ⟨-, hnone⟩
    · cases hj : pushClient with
      | none => rfl
      | some j =>
        obtain ⟨e, he, hdone, hcur | ⟨d, t, ht, hrun⟩⟩ := h.client j hj
        · obtain rfl := h.unique hg he (hcur.trans hcurrent.symm)
          obtain rfl := Option.some.inj (hg.symm.trans he)
          cases hdone.symm.trans hstage
        · rw [hgap d t ht] at hrun
          cases hrun
    · exact hnone
  refine
    { generation_le := fun j e he => ?_
      ordered := h.ordered_modify hepoch k
      opened := fun j e he hopen => ?_
      client := fun j hj => ?_
      gap := fun j e hj he d t ht hrun => ?_ }
  · rcases getElem?_modify_cases he with ⟨rfl, g', hg', rfl⟩ | ⟨-, he⟩
    · exact hepoch g' ▸ h.generation_le j g' hg'
    · exact h.generation_le j e he
  · obtain ⟨rfl, rfl⟩ | ⟨hjk, he⟩ := getElem?_modify_known hg he
    · obtain ⟨hopen', hstart, -⟩ := hpush g
      obtain ⟨hconn, -⟩ := h.opened j g hg (hopen' ▸ hopen)
      exact ⟨hstart.trans hconn, .inr (if_pos hconn)⟩
    · obtain ⟨hconn, hst | hj⟩ := h.opened j e he hopen
      · exact ⟨hconn, .inl hst⟩
      · rw [hfree] at hj
        cases hj
  · split at hj
    · obtain rfl := Option.some.inj hj
      refine ⟨_, getElem?_modify_of_some k hg, ?_⟩
      rw [if_pos rfl]
      exact ⟨(hpush g).2.2, .inl ((hepoch g).trans hcurrent)⟩
    · cases hj
  · split at hj
    · next hconn =>
      rcases hgap with hgap | ⟨hne, -⟩
      · rw [hgap d t ht] at hrun
        cases hrun
      · exact absurd hconn hne
    · cases hj

/-- A disconnect begins its epoch. -/
theorem disconnect (h : PushInv epoch generations teardowns pushClient) (closing : List ℕ) :
    PushInv (epoch + 1) generations (teardowns ++ [⟨epoch + 1, closing, .mqtt⟩]) pushClient where
  generation_le k g hg := (h.generation_le k g hg).trans (Nat.le_succ _)
  ordered := h.ordered
  opened := h.opened
  client k hk := by
    obtain ⟨g, hg, hst, -⟩ := h.client k hk
    exact ⟨g, hg, hst, .inr ⟨_, _, List.getElem?_concat_length, rfl⟩⟩
  gap k g hk hg d t ht hrun := by
    rcases getElem?_append_cases ht with ⟨-, rfl⟩ | ht
    · exact Nat.lt_succ_of_le (h.generation_le k g hg)
    · exact h.gap k g hk hg d t ht hrun

/-- A teardown goes on and runs as before. -/
theorem advance (h : PushInv epoch generations teardowns pushClient) {d : ℕ} (f : Teardown → Teardown)
    (hepoch : ∀ t, (f t).epoch = t.epoch)
    (hrunning : ∀ t, teardowns[d]? = some t → ((f t).running = true ↔ t.running = true)) :
    PushInv epoch generations (teardowns.modify d f) pushClient where
  generation_le := h.generation_le
  ordered := h.ordered
  opened := h.opened
  client k hk := by
    obtain ⟨g, hg, hst, hcur⟩ := h.client k hk
    refine ⟨g, hg, hst, hcur.imp id ?_⟩
    rintro ⟨e, t, ht, hrun⟩
    refine ⟨e, _, getElem?_modify_of_some d ht, ?_⟩
    split
    · next heq =>
      subst heq
      exact (hrunning t ht).mpr hrun
    · exact hrun
  gap k g hk hg e t ht hrun := by
    rcases getElem?_modify_cases ht with ⟨rfl, u, hu, rfl⟩ | ⟨-, ht⟩
    · exact hepoch u ▸ h.gap k g hk hg e u hu ((hrunning u hu).mp hrun)
    · exact h.gap k g hk hg e t ht hrun

/-- A teardown ends, and no push client is installed. -/
theorem finish (h : PushInv epoch generations teardowns none) {f : Teardown → Teardown} (d : ℕ) :
    PushInv epoch generations (teardowns.modify d f) none where
  generation_le := h.generation_le
  ordered := h.ordered
  opened := h.opened
  client _ hk := by cases hk
  gap _ _ hk := by cases hk

/-- The installed push client is closed. -/
theorem close (h : PushInv epoch generations teardowns pushClient) {k : ℕ}
    (hk : pushClient = some k) :
    PushInv epoch (generations.modify k fun g => { g with pushOpen := false }) teardowns none where
  generation_le j e he := by
    rcases getElem?_modify_cases he with ⟨rfl, g, hg, rfl⟩ | ⟨-, he⟩
    · exact h.generation_le j g hg
    · exact h.generation_le j e he
  ordered := h.ordered_modify (f := fun g => { g with pushOpen := false }) (fun _ => rfl) k
  opened j e he hopen := by
    rcases getElem?_modify_cases he with ⟨rfl, g, hg, rfl⟩ | ⟨hjk, he⟩
    · cases hopen
    · obtain ⟨hconn, hst | hj⟩ := h.opened j e he hopen
      · exact ⟨hconn, .inl hst⟩
      · exact absurd (Option.some.inj (hj.symm.trans hk)) hjk
  client _ hj := by cases hj
  gap _ _ hj := by cases hj

end PushInv

/-! ### What a login counts -/

/-- A generation awaits and counts attempts of its own epoch. -/
def OwnInv (attempts : List Attempt) (generations : List Generation) : Prop :=
  ∀ (k : ℕ) g, generations[k]? = some g → ∀ i, i ∈ g.awaiting ∨ i ∈ g.counted →
    ∃ a, attempts[i]? = some a ∧ a.epoch = g.epoch

namespace OwnInv

variable {attempts : List Attempt} {generations : List Generation}

theorem attempts_keep (h : OwnInv attempts generations) {attempts' : List Attempt}
    (hkeep : ∀ (i : ℕ) a, attempts[i]? = some a → ∃ b, attempts'[i]? = some b ∧ b.epoch = a.epoch) :
    OwnInv attempts' generations := by
  intro k g hg i hi
  obtain ⟨a, ha, hepoch⟩ := h k g hg i hi
  obtain ⟨b, hb, hb'⟩ := hkeep i a ha
  exact ⟨b, hb, hb'.trans hepoch⟩

theorem modify_attempt (h : OwnInv attempts generations) (i : ℕ) {f : Attempt → Attempt}
    (hepoch : ∀ a, (f a).epoch = a.epoch) : OwnInv (attempts.modify i f) generations := by
  apply h.attempts_keep
  intro j a ha
  refine ⟨_, getElem?_modify_of_some i ha, ?_⟩
  split
  · exact hepoch a
  · rfl

theorem append_attempt (h : OwnInv attempts generations) (a : Attempt) :
    OwnInv (attempts ++ [a]) generations :=
  h.attempts_keep fun _ b hb => ⟨b, getElem?_append_of_some hb, rfl⟩

theorem login (h : OwnInv attempts generations) (epoch : ℕ) :
    OwnInv attempts (generations ++ [{ epoch := epoch }]) := by
  intro k g hg i hi
  rcases getElem?_append_cases hg with ⟨-, rfl⟩ | hg
  · rcases hi with hi | hi <;> cases hi
  · exact h k g hg i hi

/-- A generation goes on; what it awaits and counts then is its own. -/
theorem modify (h : OwnInv attempts generations) {k : ℕ} {f : Generation → Generation}
    (hepoch : ∀ g, (f g).epoch = g.epoch)
    (hown : ∀ g, generations[k]? = some g → ∀ i, i ∈ (f g).awaiting ∨ i ∈ (f g).counted →
      (i ∈ g.awaiting ∨ i ∈ g.counted) ∨ ∃ a, attempts[i]? = some a ∧ a.epoch = g.epoch) :
    OwnInv attempts (generations.modify k f) := by
  intro j e he i hi
  rcases getElem?_modify_cases he with ⟨rfl, g, hg, rfl⟩ | ⟨-, he⟩
  · rw [hepoch]
    rcases hown g hg i hi with hi | hi
    · exact h j g hg i hi
    · exact hi
  · exact h j e he i hi

end OwnInv

/-! ### The invariant along a run -/

structure Inv (c : Channels) : Prop where
  mqtt : MqttInv c.realtimeEpoch c.attempts c.teardowns c.mqttReady c.transports
  push : PushInv c.realtimeEpoch c.generations c.teardowns c.pushClient
  own : OwnInv c.attempts c.generations
  poll : ∀ epoch, c.pollTimer = some epoch → epoch = c.realtimeEpoch

namespace Inv

variable {c : Channels}

theorem start (pollMs : ℕ) : Inv { pollMs } where
  mqtt := .start
  push := .start
  own _ _ hg := by cases hg
  poll _ he := by cases he

theorem schedulePoll (h : Inv c) (epoch : ℕ) : Inv (c.schedulePoll epoch) := by
  rw [Channels.schedulePoll]
  split
  · exact h
  · next hcur =>
    refine ⟨h.mqtt, h.push, h.own, fun e he => ?_⟩
    obtain rfl := Option.some.inj he
    simp only [Bool.or_eq_true, decide_eq_true_eq, not_or, not_not] at hcur
    exact hcur.2

theorem modifyGeneration (h : Inv c) {k : ℕ} {g : Generation} {f : Generation → Generation}
    (hg : c.generations[k]? = some g) (hepoch : ∀ g, (f g).epoch = g.epoch)
    (hopened : (f g).pushOpen = true →
      (f g).pushStart = .connected ∧ ((f g).stage = .starting ∨ c.pushClient = some k))
    (hdone : g.stage = .done → (f g).stage = .done)
    (hown : ∀ i, i ∈ (f g).awaiting ∨ i ∈ (f g).counted →
      (i ∈ g.awaiting ∨ i ∈ g.counted) ∨ ∃ a, c.attempts[i]? = some a ∧ a.epoch = g.epoch) :
    Inv (c.modifyGeneration k f) where
  mqtt := h.mqtt
  push := h.push.modify hg hepoch hopened hdone
  own := h.own.modify hepoch fun g' hg' => by
    obtain rfl := Option.some.inj (hg.symm.trans hg')
    exact hown
  poll := h.poll

/-- A memo found outside the gaps is of the current epoch. -/
theorem memo_current (h : Inv c) (hgap : ∀ (d : ℕ) t, c.teardowns[d]? = some t → t.stage ≠ .mqtt)
    {scope : MqttScope} {i : ℕ} (hmemo : c.mqttReady scope = some i) :
    ∃ a, c.attempts[i]? = some a ∧ a.epoch = c.realtimeEpoch := by
  obtain ⟨a, ha, hepoch | ⟨d, t, ht, hst⟩⟩ := h.mqtt.memoised scope i hmemo
  · exact ⟨a, ha, hepoch⟩
  · exact absurd hst (hgap d t ht)

/-- What a call of `ensureMqttStarted` keeps, outside the gaps or with a memo. -/
theorem ensure (h : Inv c) (scope : MqttScope)
    (hgap : c.mqttReady scope = none →
      ∀ (d : ℕ) t, c.teardowns[d]? = some t → t.stage ≠ .mqtt) : Inv (c.ensure scope).1 := by
  rw [Channels.ensure]
  cases hmemo : c.mqttReady scope with
  | some i => exact h
  | none =>
    exact ⟨h.mqtt.begin hmemo (hgap hmemo), h.push, h.own.append_attempt _, h.poll⟩

/-- What a call of `ensureMqttStarted` leaves alone. -/
theorem ensure_frame (c : Channels) (scope : MqttScope) :
    (c.ensure scope).1.realtimeEpoch = c.realtimeEpoch ∧
      (c.ensure scope).1.teardowns = c.teardowns ∧
      (c.ensure scope).1.generations = c.generations ∧
      ∀ (i : ℕ) a, c.attempts[i]? = some a → (c.ensure scope).1.attempts[i]? = some a := by
  rw [Channels.ensure]
  cases c.mqttReady scope with
  | some i => exact ⟨rfl, rfl, rfl, fun _ _ ha => ha⟩
  | none => exact ⟨rfl, rfl, rfl, fun _ _ ha => getElem?_append_of_some ha⟩

/-- Outside the gaps, the attempt that `ensureMqttStarted` answers is of the current epoch. -/
theorem ensure_own (h : Inv c) (scope : MqttScope)
    (hgap : ∀ (d : ℕ) t, c.teardowns[d]? = some t → t.stage ≠ .mqtt) :
    ∃ a, (c.ensure scope).1.attempts[(c.ensure scope).2]? = some a ∧
      a.epoch = c.realtimeEpoch := by
  rw [Channels.ensure]
  cases hmemo : c.mqttReady scope with
  | some i => exact h.memo_current hgap hmemo
  | none => exact ⟨_, List.getElem?_concat_length, rfl⟩

/-- The synchronous start of a login's transports, outside the gaps. -/
theorem ensureAll (h : Inv c) (scopes : List MqttScope)
    (hgap : ∀ (d : ℕ) t, c.teardowns[d]? = some t → t.stage ≠ .mqtt) :
    Inv (c.ensureAll scopes).1 ∧
      (c.ensureAll scopes).1.realtimeEpoch = c.realtimeEpoch ∧
      (c.ensureAll scopes).1.generations = c.generations ∧
      (∀ (i : ℕ) a, c.attempts[i]? = some a → (c.ensureAll scopes).1.attempts[i]? = some a) ∧
      ∀ i ∈ (c.ensureAll scopes).2,
        ∃ a, (c.ensureAll scopes).1.attempts[i]? = some a ∧ a.epoch = c.realtimeEpoch := by
  induction scopes generalizing c with
  | nil => exact ⟨h, rfl, rfl, fun _ _ ha => ha, nofun⟩
  | cons scope rest ih =>
    obtain ⟨hepoch, hteardowns, hgenerations, hattempts⟩ := ensure_frame c scope
    obtain ⟨hinv, hepoch', hgenerations', hattempts', hown⟩ :=
      ih (h.ensure scope fun _ => hgap) (by rw [hteardowns]; exact hgap)
    refine ⟨hinv, hepoch'.trans hepoch, hgenerations'.trans hgenerations,
      fun i a ha => hattempts' i a (hattempts i a ha), fun i hi => ?_⟩
    rcases List.mem_cons.mp hi with rfl | hi
    · obtain ⟨a, ha, hcur⟩ := h.ensure_own scope hgap
      exact ⟨a, hattempts' _ a ha, hcur⟩
    · rw [← hepoch]
      exact hown i hi

theorem modifyAttempt (h : Inv c) {i : ℕ} {a : Attempt} {f : Attempt → Attempt}
    (ha : c.attempts[i]? = some a) (hscope : (f a).scope = a.scope)
    (hepoch : ∀ a, (f a).epoch = a.epoch) (hstage : (f a).stage ≠ .starting)
    (hinstalled : (∃ scope, c.transports scope = some i) →
      ((f a).connected = true → a.connected = true) ∧
        ((f a).stage = .subscribing ∨ (f a).stage = .resolved))
    (hheld : (f a).connected = true → (f a).stage = .closing ∨ c.transports a.scope = some i) :
    Inv (c.modifyAttempt i f) where
  mqtt := h.mqtt.modify ha hscope (hepoch a) hstage hinstalled hheld
  push := h.push
  own := h.own.modify_attempt i hepoch
  poll := h.poll

/-- A failed start keeps the invariant: its memo goes if it is its own. -/
theorem reject (h : Inv c) {i : ℕ} {a : Attempt} (ha : c.attempts[i]? = some a)
    (hstage : a.stage = .starting) : Inv (c.reject i a) := by
  have hmod : Inv (c.modifyAttempt i fun a => { a with stage := .rejected }) := by
    refine h.modifyAttempt ha rfl (fun _ => rfl) nofun
      (fun hin => absurd hin (h.mqtt.not_installed ha (.inl hstage))) fun hconn => ?_
    have hnot := (h.mqtt.starting i a ha hstage).1
    exact absurd hconn (by simp [hnot])
  refine ⟨?_, hmod.push, hmod.own, hmod.poll⟩
  rw [Channels.reject]
  dsimp only
  split
  · next hmemo =>
    refine hmod.mqtt.forget (getElem?_modify_of_some i ha) ?_ a.scope hmemo
    rw [if_pos rfl]
  · exact hmod.mqtt

/-- A login's transports are started in its own epoch. -/
theorem launch (h : Inv c) {k : ℕ} {g : Generation} (hg : c.generations[k]? = some g)
    (hstage : g.stage = .listing) (hcurrent : g.epoch = c.realtimeEpoch) {scopes : List MqttScope}
    (hgap : scopes ≠ [] → ∀ (d : ℕ) t, c.teardowns[d]? = some t → t.stage ≠ .mqtt) :
    Inv (c.launch k scopes) := by
  obtain ⟨hinv, hepoch, hgenerations, -, hown⟩ : Inv (c.ensureAll scopes.dedup).1 ∧
      (c.ensureAll scopes.dedup).1.realtimeEpoch = c.realtimeEpoch ∧
      (c.ensureAll scopes.dedup).1.generations = c.generations ∧
      (∀ (i : ℕ) a, c.attempts[i]? = some a →
        (c.ensureAll scopes.dedup).1.attempts[i]? = some a) ∧
      ∀ i ∈ (c.ensureAll scopes.dedup).2, ∃ a,
        (c.ensureAll scopes.dedup).1.attempts[i]? = some a ∧ a.epoch = c.realtimeEpoch := by
    cases scopes with
    | nil => exact ⟨h, rfl, rfl, fun _ _ ha => ha, nofun⟩
    | cons scope rest => exact h.ensureAll _ (hgap (List.cons_ne_nil _ _))
  have hg' : (c.ensureAll scopes.dedup).1.generations[k]? = some g := by rw [hgenerations, hg]
  refine hinv.modifyGeneration hg' (fun _ => rfl) (fun hopen => ?_) (fun hdone => ?_) ?_
  · exact ⟨(hinv.push.opened k g hg' hopen).1, .inl rfl⟩
  · cases hdone.symm.trans hstage
  · rintro i (hi | hi)
    · rw [hcurrent]
      exact .inr (hown i hi)
    · exact .inl (.inr hi)

/-- A generation that has not started has no push client open. -/
theorem pushOpen_of_listing (h : Inv c) {k : ℕ} {g : Generation}
    (hg : c.generations[k]? = some g) (hstage : g.stage = .listing) : g.pushOpen = false := by
  by_contra hopen
  rw [Bool.not_eq_false] at hopen
  obtain ⟨-, hst | hk⟩ := h.push.opened k g hg hopen
  · cases hst.symm.trans hstage
  · obtain ⟨g', hg', hdone, -⟩ := h.push.client k hk
    obtain rfl := Option.some.inj (hg.symm.trans hg')
    cases hdone.symm.trans hstage

/-- The end of a bring-up keeps the invariant, outside the gaps. -/
theorem finish (h : Inv c) {k : ℕ} {g : Generation} (hg : c.generations[k]? = some g)
    (hstage : g.stage = .starting)
    (hgap : g.epoch = c.realtimeEpoch →
      (∀ (d : ℕ) t, c.teardowns[d]? = some t → t.running = false) ∨
        (g.pushStart ≠ .connected ∧ c.pushClient = none)) : Inv (c.finish k g) := by
  rw [Channels.finish]
  split
  · refine h.modifyGeneration hg (by simp) (fun hopen => ?_) (by simp) (by simp +contextual)
    rw [Generation.settle_pushOpen] at hopen
    cases hopen
  · next hcur =>
    rw [not_not] at hcur
    apply schedulePoll
    refine ⟨h.mqtt, h.push.install hg hstage hcur (by simp) (by simp) (hgap hcur), ?_, h.poll⟩
    exact h.own.modify (by simp) (by simp +contextual)

/-- A disconnect keeps the invariant. -/
theorem disconnect (h : Inv c) : Inv c.disconnect := by
  have hinstalled : ∀ i, i ∈ c.installed ↔ ∃ scope, c.transports scope = some i := by
    intro i
    rw [Channels.installed, List.mem_filterMap]
    refine ⟨fun ⟨scope, _, hi⟩ => ⟨scope, hi⟩, fun ⟨scope, hi⟩ => ⟨scope, ?_, hi⟩⟩
    cases scope <;> simp
  have hmod : Inv (c.modifyGeneration (c.generations.length - 1) fun g =>
      { g with aborted := true }.settle .superseded) := by
    cases hg : c.generations[c.generations.length - 1]? with
    | none =>
      rw [Channels.modifyGeneration, List.modify_eq_self (List.getElem?_eq_none_iff.mp hg)]
      exact h
    | some g =>
      refine h.modifyGeneration hg (by simp) (fun hopen => ?_) (by simp) (by simp +contextual)
      simp only [Generation.settle_pushOpen, Generation.settle_pushStart,
        Generation.settle_stage] at hopen ⊢
      exact h.push.opened _ g hg hopen
  exact ⟨h.mqtt.disconnect hinstalled, hmod.push.disconnect c.installed, hmod.own,
    fun _ he => by cases he⟩

/-- The push client closes with the teardown that finds it. -/
theorem closesPush (h : Inv c) {d : ℕ} {t : Teardown} (ht : c.teardowns[d]? = some t)
    (hstage : t.stage = .p2p) :
    Inv (c.closePush.modifyTeardown d fun t => { t with stage := .done }) := by
  have hmqtt : MqttInv c.realtimeEpoch c.attempts
      (c.teardowns.modify d fun t => { t with stage := .done }) c.mqttReady c.transports :=
    h.mqtt.advance ht (by rw [hstage]; nofun) nofun
  rw [Channels.closePush]
  cases hk : c.pushClient with
  | none =>
    refine ⟨hmqtt, ?_, h.own, h.poll⟩
    show PushInv _ _ _ c.pushClient
    rw [hk]
    exact (hk ▸ h.push).finish d
  | some k =>
    exact ⟨hmqtt, (h.push.close hk).finish d,
      h.own.modify (f := fun g => { g with pushOpen := false }) (fun _ => rfl) fun _ _ _ => .inl,
      h.poll⟩

/-- **Every step in turn keeps the invariant.** -/
theorem step (h : Inv c) {l : Label} (hturn : c.InTurn l) {t : Channels} (ht : c.step l = some t) :
    Inv t := by
  cases Channels.transition_of_step ht with
  | rejoins => exact h
  | login hlast => exact ⟨h.mqtt, h.push.login hlast, h.own.login _, h.poll⟩
  | superseded hg hstage | listingFails hg hstage =>
    refine h.modifyGeneration hg (by simp) (fun hopen => ?_) (by simp) (by simp +contextual)
    rw [Generation.settle_pushOpen] at hopen
    cases (h.pushOpen_of_listing hg hstage).symm.trans hopen
  | @launch k scopes g hg hstage hepoch =>
    exact h.launch hg hstage hepoch fun hscopes d t ht =>
      hturn g hg hstage hepoch hscopes t (List.mem_of_getElem? ht)
  | @ensureMqttStarted scope =>
    exact h.ensure scope fun hnone d t ht => hturn hnone t (List.mem_of_getElem? ht)
  | mqttConnectsLate ha hstage =>
    exact h.modifyAttempt ha rfl (fun _ => rfl) nofun
      (fun hin => absurd hin (h.mqtt.not_installed ha (.inl hstage))) fun _ => .inl rfl
  | @mqttConnects i a ha hstage hepoch =>
    exact ⟨h.mqtt.install ha hstage hepoch, h.push, h.own.modify_attempt i fun _ => rfl, h.poll⟩
  | mqttFails ha hstage => exact h.reject ha hstage
  | mqttCloses ha hstage =>
    exact h.modifyAttempt ha rfl (fun _ => rfl) nofun
      (fun hin => absurd hin (h.mqtt.not_installed ha (.inr hstage))) nofun
  | @mqttCloseFails i a ha hstage => exact absurd hstage (hturn a ha)
  | @mqttSubscribed i a ha hstage =>
    refine h.modifyAttempt ha rfl (fun _ => rfl) nofun (fun _ => ⟨id, .inr rfl⟩) fun hconn => ?_
    rcases h.mqtt.held i a ha hconn with hst | hi
    · cases hstage.symm.trans hst
    · exact .inr hi
  | @mqttSettles k i g a ready hg ha hi =>
    refine h.modifyGeneration hg (fun _ => rfl) (h.push.opened k g hg) id fun j hj => ?_
    rcases hj with hj | hj
    · exact .inl (.inl (List.mem_of_mem_erase hj))
    · cases ready with
      | false => exact .inl (.inr hj)
      | true =>
        rcases List.mem_append.mp hj with hj | hj
        · exact .inl (.inr hj)
        · rw [List.mem_singleton.mp hj]
          exact .inl (.inl hi)
  | pushConnects hg hstage =>
    exact h.modifyGeneration hg (fun _ => rfl) (fun _ => ⟨rfl, .inl hstage⟩) id fun _ => .inl
  | @pushFails k g hg hstage hpending =>
    refine h.modifyGeneration hg (fun _ => rfl) (fun hopen => ?_) id fun _ => .inl
    cases hpending.symm.trans (h.push.opened k g hg hopen).1
  | @pushSuperseded k g hg hstage hpending =>
    refine h.modifyGeneration hg (fun _ => rfl) (fun hopen => ?_) id fun _ => .inl
    cases hpending.symm.trans (h.push.opened k g hg hopen).1
  | @wiredSettles k plane failed g hg =>
    exact h.modifyGeneration hg (fun _ => rfl) (h.push.opened k g hg) id fun _ => .inl
  | @finish k g hg hstarted =>
    have hstage : g.stage = .starting := by
      simp only [Generation.started, Bool.and_eq_true, decide_eq_true_eq] at hstarted
      exact hstarted.1.1.1
    refine h.finish hg hstage fun hcurrent => (hturn g hg hstarted hcurrent).imp ?_ id
    exact fun hended d t ht => hended t (List.mem_of_getElem? ht)
  | disconnect => exact h.disconnect
  | @transportCloses d i u hu =>
    exact ⟨h.mqtt.close hu,
      h.push.advance (fun t => { t with closing := t.closing.erase i }) (fun _ => rfl)
        fun _ _ => Iff.rfl,
      h.own.modify_attempt i fun _ => rfl, h.poll⟩
  | @clears d u hu hstage hclosed =>
    refine ⟨h.mqtt.clear hu hstage hclosed, ?_, h.own, h.poll⟩
    refine h.push.advance (fun t => { t with stage := .p2p }) (fun _ => rfl) fun v hv => ?_
    obtain rfl := Option.some.inj (hu.symm.trans hv)
    rw [Teardown.running, Teardown.running, hstage]
    exact Iff.rfl
  | closesPush hu hstage => exact h.closesPush hu hstage
  | @teardownFails d u hu hrunning =>
    obtain ⟨hstage, hnone⟩ := hturn u hu hrunning
    refine ⟨h.mqtt.advance hu (by rw [hstage]; nofun) nofun, ?_, h.own, h.poll⟩
    show PushInv _ _ _ c.pushClient
    rw [hnone]
    exact (hnone ▸ h.push).finish d
  | pollFires => exact ⟨h.mqtt, h.push, h.own, nofun⟩
  | @pollEnds p epoch =>
    exact Inv.schedulePoll (c := { c with polls := c.polls.eraseIdx p })
      ⟨h.mqtt, h.push, h.own, h.poll⟩ epoch
  | @setPollInterval ms =>
    exact Inv.schedulePoll (c := { c with pollMs := ms, pollTimer := none })
      ⟨h.mqtt, h.push, h.own, nofun⟩ _

theorem countsOwn (h : Inv c) : c.CountsOwn := by
  intro g hg i hi a ha
  obtain ⟨k, hk⟩ := List.mem_iff_getElem?.mp hg
  obtain ⟨b, hb, hepoch⟩ := h.own k g hk i (.inr hi)
  obtain rfl := Option.some.inj (ha.symm.trans hb)
  exact hepoch

/-- Once all calls have settled, what is open is installed, and what is installed is current. -/
theorem ownEpoch (h : Inv c) (hquiet : c.Quiet) : c.OwnEpoch := by
  obtain ⟨hattempts, hgenerations, hteardowns, -⟩ := hquiet
  have hended : ∀ (d : ℕ) t, c.teardowns[d]? = some t → t.running = false := fun d t ht =>
    hteardowns t (List.mem_of_getElem? ht)
  have hgap : ∀ (d : ℕ) t, c.teardowns[d]? = some t → t.stage ≠ .mqtt := by
    intro d t ht hst
    have hrun := hended d t ht
    rw [Teardown.running, hst] at hrun
    cases hrun
  have hinstalled : ∀ scope i a, c.transports scope = some i → c.attempts[i]? = some a →
      a.epoch = c.realtimeEpoch := by
    intro scope i a hi ha
    obtain ⟨b, hb, hepoch⟩ := h.memo_current hgap (h.mqtt.installed scope i hi).1
    obtain rfl := Option.some.inj (ha.symm.trans hb)
    exact hepoch
  have hclient : ∀ k g, c.pushClient = some k → c.generations[k]? = some g →
      g.epoch = c.realtimeEpoch := by
    intro k g hk hg
    obtain ⟨g', hg', -, hcur | ⟨d, t, ht, hrun⟩⟩ := h.push.client k hk
    · obtain rfl := Option.some.inj (hg.symm.trans hg')
      exact hcur
    · rw [hended d t ht] at hrun
      cases hrun
  refine ⟨fun a ha hconn => ?_, hinstalled, fun g hg hopen => ?_, hclient, h.poll⟩
  · obtain ⟨i, hi⟩ := List.mem_iff_getElem?.mp ha
    rcases h.mqtt.held i a hi hconn with hst | hheld
    · rcases hattempts a ha with hs | hs <;> cases hst.symm.trans hs
    · exact hinstalled a.scope i a hheld hi
  · obtain ⟨k, hk⟩ := List.mem_iff_getElem?.mp hg
    obtain ⟨-, hst | hheld⟩ := h.push.opened k g hk hopen
    · cases hst.symm.trans (hgenerations g hg)
    · exact hclient k g hheld hk

/-- A step that is none of a disconnect's closes nothing of one. -/
theorem closesEarlier_of_none {l : Label} {t : Channels} (hnone : c.teardownOf l = none) :
    c.ClosesEarlier l t := by
  constructor <;> intro e he <;> cases hnone.symm.trans he

/-- **A disconnect's steps close and forget only what is earlier.** -/
theorem closesEarlier (h : Inv c) {l : Label} {t : Channels} (ht : c.step l = some t) :
    c.ClosesEarlier l t := by
  have hpushKept : t.generations = c.generations → ∀ e, c.teardownOf l = some e →
      ∀ (k : ℕ) g g', c.generations[k]? = some g → t.generations[k]? = some g' →
        g.pushOpen = true → g'.pushOpen = false → g.epoch < e := by
    intro hsame e _ k g g' hg hg' hopen hclosed
    rw [hsame] at hg'
    obtain rfl := Option.some.inj (hg.symm.trans hg')
    cases hopen.symm.trans hclosed
  have hmqttKept : t.attempts = c.attempts → ∀ e, c.teardownOf l = some e →
      ∀ (i : ℕ) a b, c.attempts[i]? = some a → t.attempts[i]? = some b →
        a.connected = true → b.connected = false → a.epoch < e := by
    intro hsame e _ i a b ha hb hopen hclosed
    rw [hsame] at hb
    obtain rfl := Option.some.inj (ha.symm.trans hb)
    cases hopen.symm.trans hclosed
  cases Channels.transition_of_step ht with
  | disconnect =>
    refine ⟨hmqttKept rfl, fun _ _ _ _ _ hi hne => absurd hi hne,
      fun _ _ _ _ _ hi hne => absurd hi hne, ?_, fun _ _ _ _ hk hne => absurd hk hne, ?_⟩
    · intro e _ k g g' hg hg' hopen hclosed
      obtain ⟨rfl, g₀, hg₀, rfl⟩ | ⟨-, hg'⟩ := getElem?_modify_cases hg'
      · obtain rfl := Option.some.inj (hg.symm.trans hg₀)
        rw [Generation.settle_pushOpen] at hclosed
        cases hopen.symm.trans hclosed
      · obtain rfl := Option.some.inj (hg.symm.trans hg')
        cases hopen.symm.trans hclosed
    · intro e he epoch hepoch _
      obtain rfl := Option.some.inj he
      rw [h.poll epoch hepoch]
      exact Nat.lt_succ_self _
  | @transportCloses d i u hu hi =>
    refine ⟨?_, fun _ _ _ _ _ hi hne => absurd hi hne, fun _ _ _ _ _ hi hne => absurd hi hne,
      hpushKept rfl, fun _ _ _ _ hk hne => absurd hk hne, fun _ _ _ hp hne => absurd hp hne⟩
    intro e he j a b ha hb hopen hclosed
    rw [Channels.teardownOf, hu] at he
    obtain rfl := Option.some.inj he
    rcases getElem?_modify_cases hb with ⟨rfl, a', ha', rfl⟩ | ⟨-, hb⟩
    · obtain ⟨b, hb, hlt⟩ := h.mqtt.closing d u hu _ hi
      obtain rfl := Option.some.inj (ha.symm.trans hb)
      exact hlt
    · obtain rfl := Option.some.inj (ha.symm.trans hb)
      cases hopen.symm.trans hclosed
  | @clears d u hu hstage =>
    have hearlier : ∀ e, c.teardownOf (.clears d) = some e → ∀ (i : ℕ) a,
        c.attempts[i]? = some a → a.epoch < e := by
      intro e he i a ha
      rw [Channels.teardownOf, hu] at he
      obtain rfl := Option.some.inj he
      exact h.mqtt.gap d u hu hstage i a ha
    exact ⟨hmqttKept rfl, fun e he _ i a _ _ ha => hearlier e he i a ha,
      fun e he _ i a _ _ ha => hearlier e he i a ha, hpushKept rfl,
      fun _ _ _ _ hk hne => absurd hk hne, fun _ _ _ hp hne => absurd hp hne⟩
  | @closesPush d u hu hstage =>
    have hrunning : u.running = true := by
      rw [Teardown.running, hstage]
      rfl
    have hearlier : ∀ e, c.teardownOf (.closesPush d) = some e → ∀ k g,
        c.pushClient = some k → c.generations[k]? = some g → g.epoch < e := by
      intro e he k g hk hg
      rw [Channels.teardownOf, hu] at he
      obtain rfl := Option.some.inj he
      exact h.push.gap k g hk hg d u hu hrunning
    cases hclient : c.pushClient with
    | none =>
      rw [Channels.closePush, hclient] at hpushKept hmqttKept ⊢
      exact ⟨hmqttKept rfl, fun _ _ _ _ _ hi hne => absurd hi hne,
        fun _ _ _ _ _ hi hne => absurd hi hne, hpushKept rfl,
        fun _ _ _ _ hk => (by cases hclient.symm.trans hk), fun _ _ _ hp hne => absurd hp hne⟩
    | some k =>
      rw [Channels.closePush, hclient] at hmqttKept ⊢
      refine ⟨hmqttKept rfl, fun _ _ _ _ _ hi hne => absurd hi hne,
        fun _ _ _ _ _ hi hne => absurd hi hne, ?_, fun e he k' g hk _ hg => hearlier e he k' g hk hg,
        fun _ _ _ hp hne => absurd hp hne⟩
      intro e he k' g g' hg hg' hopen hclosed
      rcases getElem?_modify_cases hg' with ⟨rfl, g₀, hg₀, rfl⟩ | ⟨-, hg'⟩
      · exact hearlier e he _ g hclient hg
      · obtain rfl := Option.some.inj (hg.symm.trans hg')
        cases hopen.symm.trans hclosed
  | teardownFails =>
    exact ⟨hmqttKept rfl, fun _ _ _ _ _ hi hne => absurd hi hne,
      fun _ _ _ _ _ hi hne => absurd hi hne, hpushKept rfl,
      fun _ _ _ _ hk hne => absurd hk hne, fun _ _ _ hp hne => absurd hp hne⟩
  | _ => exact closesEarlier_of_none rfl

end Inv

/-- **Channels belong to one epoch while bring-ups stay in turn.** In every run from a fresh client
whose steps are all in turn, every step keeps every channel in its epoch. -/
theorem channels_keep_epochs (pollMs : ℕ) {labels : List Label}
    (h : StepsMeet Channels.step Channels.InTurn { pollMs } labels) :
    StepsMeet Channels.step Channels.KeepsEpochs { pollMs } labels := by
  apply h.strengthen (J := Inv) (Inv.start pollMs)
  · intro c l hc hturn t ht
    have hinv := hc.step hturn ht
    exact ⟨hc.closesEarlier ht, hinv.countsOwn, hinv.ownEpoch⟩
  · intro c l t hc hturn ht
    exact hc.step hturn ht

/-- A login, a disconnect whose teardown runs to its end, and a second login. -/
def turnRun : List Label :=
  [.login, .launch 0 [.default], .mqttConnects 0, .mqttSubscribed 0, .mqttSettles 0 0,
    .pushConnects 0, .wiredSettles 0 {} false, .finish 0,
    .disconnect, .transportCloses 0 0, .clears 0, .closesPush 0,
    .login, .launch 1 [.default], .mqttConnects 1]

/-- The second login's transport is its own, and the first one's is closed. -/
theorem channels_keep_epochs_sample :
    StepsMeet Channels.step Channels.KeepsEpochs { pollMs := 1 } turnRun := by
  apply channels_keep_epochs 1
  decide

/-- The second login starts while the first one's transport is closing. -/
def gapRun : List Label :=
  [.login, .launch 0 [.default], .mqttConnects 0, .mqttSubscribed 0, .disconnect,
    .login, .launch 1 [.default]]

/-- The second login counts the transport that the teardown closes. -/
theorem login_counts_closing_transport :
    (∃ c g, exec Channels.step { pollMs := 1 } (gapRun ++ [.mqttSettles 1 0]) = some c ∧
      c.generations[1]? = some g ∧ g.epoch = 1 ∧ g.readiness.mqtt.ready = 1 ∧ g.counted = [0] ∧
      c.attempts = [⟨.default, 0, .resolved, true⟩] ∧ c.teardowns = [⟨1, [0], .mqtt⟩]) ∧
    ¬StepsMeet Channels.step Channels.KeepsEpochs { pollMs := 1 }
      (gapRun ++ [.mqttSettles 1 0]) := by
  refine ⟨⟨_, _, rfl, rfl, rfl, rfl, rfl, rfl, rfl⟩, fun hmeet => ?_⟩
  have hkeeps := hmeet.meets rfl
  obtain ⟨-, hcounts, -⟩ := hkeeps _ rfl
  have hepoch := hcounts _ (List.mem_cons_of_mem _ List.mem_cons_self) 0 List.mem_cons_self _ rfl
  cases hepoch

end EufySdk.Realtime
