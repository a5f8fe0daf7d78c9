import Mathlib.Tactic
import EufySdk.Transport.P2p.PullSteps

/-!
# A failed attach

`attachConsumer` adds its consumer and takes its session user before it opens a stream, and
`openStream` can throw, from `makeStream` or from `start`. Nothing is undone then: the caller
gets no consumer, and the one that nobody holds keeps its place and its session user.

Main definitions:

- `Fault` — what of `openStream` throws
- `attachConsumer` — the call with its faults, `Pull.attach` where there is none
- `Restored` — the source is as it was before the call
- `Call` — a step of the source, or an attach that fails
- `Held` — a consumer keeps its place, and the source its session user

Main results:

- `failed_attach_not_restored` — a failed attach never leaves the source as it was
- `held_for_good` — no later call releases the session user it took
-/

namespace EufySdk.SharedLiveSource

/-- The call of `openStream` that throws, and the message. -/
inductive Fault
  | makeStream (message : String)
  | start (message : String)
  deriving DecidableEq, Repr

def Fault.message : Fault → String
  | .makeStream message | .start message => message

/-- The source behind a call, and what the call threw. -/
structure Outcome where
  state : Pull
  thrown : Option String := none
  deriving DecidableEq, Repr

/-- `warm` up to `openStream`. -/
def Source.beginWarm (s : Source) : Source :=
  { s with
    state := .warming
    sessionReplacementAsked := false
    reuseWatch := false
    delivered := {} }

namespace Pull

/-- A `start` that throws leaves the stream in place. -/
def openStream (s : Pull) : Option Fault → Outcome
  | none => { state := { s with toSource := s.toSource.openStream, log := .opened :: s.log } }
  | some (.makeStream message) => { state := s, thrown := message }
  | some (.start message) =>
    { state := { s with toSource := s.toSource.openStream }, thrown := message }

def warmWith (s : Pull) (fault : Option Fault) : Outcome :=
  let warming := { s with
    toSource := s.toSource.beginWarm
    fruitlessReissues := 0
    warmAttempts := 1 }
  match warming.openStream fault with
  | ⟨opened, none⟩ => { state := { opened with toSource := opened.toSource.armWarmWatch } }
  | ⟨opened, some message⟩ => ⟨opened, some message⟩

def attachConsumer (o : Options) (s : Pull) (fault : Option Fault) : Outcome :=
  if s.disposed then { state := s, thrown := "SharedLiveSource is disposed" }
  else if s.join.stream then { state := s.join.watchReusedStream o }
  else s.join.warmWith fault

/-- Where nothing throws it is the `attach` of `Pull`. -/
theorem attachConsumer_none {o : Options} {s : Pull} (hopen : s.disposed = false) :
    s.attachConsumer o none = { state := s.attach o } := by
  unfold attachConsumer attach
  rw [hopen, if_neg Bool.false_ne_true]
  split <;> rfl

/-! ## What is left behind -/

/-- What an event does to the source's session users. -/
def weight : Event → ℤ
  | .active => 1
  | .idle => -1
  | _ => 0

/-- The calls of `onActive` less those of `onIdle`. -/
def balance (s : Pull) : ℤ := (s.log.map weight).sum

/-- The source as a call found it: its consumers, its session user, and no more timers. -/
structure Restored (s t : Pull) : Prop where
  views : t.views = s.views
  consumers : t.consumers = s.consumers
  balance : t.balance = s.balance
  linger : t.lingerTimer = true → s.lingerTimer = true
  deadline : t.warmDeadlineTimer = true → s.warmDeadlineTimer = true
  retry : t.warmRetryTimer = true → s.warmRetryTimer = true
  budget : t.budgetTimer = true → s.budgetTimer = true
  grace : t.budgetGraceTimer = true → s.budgetGraceTimer = true

theorem balance_of_log {s t : Pull} (es : List Event) (h : t.log = es ++ s.log) :
    t.balance = (es.map weight).sum + s.balance := by
  rw [balance, h, List.map_append, List.sum_append]
  rfl

theorem balance_of_weightless {s t : Pull} {es : List Event} (h : t.log = es ++ s.log)
    (hes : ∀ e ∈ es, weight e = 0) : t.balance = s.balance := by
  rw [balance_of_log es h, List.sum_eq_zero, zero_add]
  intro w hw
  obtain ⟨e, he, rfl⟩ := List.mem_map.mp hw
  exact hes e he

variable {o : Options} {s : Pull}

/-- A consumer more, and a session user if it is the first. -/
structure Joins (s t : Pull) : Prop where
  views : t.views = s.views ++ [View.mk s.ids false]
  ids : t.ids = s.ids + 1
  consumers : t.consumers = s.consumers + 1
  balance : t.balance = s.balance + if s.consumers = 0 then 1 else 0

theorem joins_join (s : Pull) : Joins s s.join where
  views := rfl
  ids := rfl
  consumers := s.toSource.join.cancelLinger_consumers
  balance := by
    rw [balance_of_log (s := s) s.joinedLog rfl, joinedLog, add_comm]
    split <;> rfl

/-- A failed attach leaves the consumer that nobody is handed. -/
theorem attachConsumer_fails (hopen : s.disposed = false) (hstream : s.stream = false)
    (fault : Fault) :
    (s.attachConsumer o (some fault)).thrown = some fault.message ∧
      Joins s (s.attachConsumer o (some fault)).state := by
  have hwarm : s.attachConsumer o (some fault) = s.join.warmWith (some fault) := by
    rw [attachConsumer, hopen, join_stream, hstream]
    rfl
  obtain ⟨hviews, hids, hconsumers, hbalance⟩ := joins_join s
  rw [hwarm]
  cases fault with
  | makeStream message => exact ⟨rfl, hviews, hids, hconsumers, hbalance⟩
  | start message => exact ⟨rfl, hviews, hids, hconsumers, hbalance⟩

/-- **A failed attach is never undone.** Whatever the source was and whichever call threw,
the attach throws and the source is not as it was: its consumer is still there. -/
theorem failed_attach_not_restored (hopen : s.disposed = false) (hstream : s.stream = false)
    (fault : Fault) :
    (s.attachConsumer o (some fault)).thrown = some fault.message ∧
      ¬Restored s (s.attachConsumer o (some fault)).state := by
  obtain ⟨hthrown, hjoins⟩ := attachConsumer_fails (o := o) hopen hstream fault
  refine ⟨hthrown, fun hrestored => ?_⟩
  have hcount := hrestored.consumers.symm.trans hjoins.consumers
  omega

/-- The first consumer of a camera whose key has the wrong length. -/
theorem failed_attach_keeps_consumer :
    ¬∀ (o : Options) (s : Pull) (fault : Fault), s.disposed = false → s.stream = false →
      (s.attachConsumer o (some fault)).thrown = some fault.message ∧
        Restored s (s.attachConsumer o (some fault)).state := by
  intro h
  have hrestored := (h {} {} (.makeStream "eccPrivateKey must be 32 bytes") rfl rfl).2
  have hconsumers : (1 : ℕ) = 0 := hrestored.consumers
  exact absurd hconsumers (by decide)

theorem failed_attach_not_restored_key :
    (({} : Pull).attachConsumer {} (some (.makeStream "eccPrivateKey must be 32 bytes"))).thrown =
        some "eccPrivateKey must be 32 bytes" ∧
      ¬Restored {}
        (({} : Pull).attachConsumer {} (some (.makeStream "eccPrivateKey must be 32 bytes"))).state :=
  failed_attach_not_restored rfl rfl _

/-! ## What it costs -/

/-- Nobody joined or left, and the session user is the one it was. -/
structure Stays (s t : Pull) : Prop where
  ids_eq : t.views.map View.id = s.views.map View.id
  consumers : t.consumers = s.consumers
  ids : t.ids = s.ids
  balance : t.balance = s.balance

namespace Stays

theorem refl (s : Pull) : Stays s s := ⟨rfl, rfl, rfl, rfl⟩

theorem trans {s t u : Pull} (h : Stays s t) (h' : Stays t u) : Stays s u :=
  ⟨h'.ids_eq.trans h.ids_eq, h'.consumers.trans h.consumers, h'.ids.trans h.ids,
    h'.balance.trans h.balance⟩

/-- What is logged takes no session user and releases none. -/
theorem of_log {s t : Pull} (es : List Event) (hviews : t.views = s.views)
    (hconsumers : t.consumers = s.consumers) (hids : t.ids = s.ids) (hlog : t.log = es ++ s.log)
    (hes : ∀ e ∈ es, weight e = 0) : Stays s t := by
  exact ⟨by rw [hviews], hconsumers, hids, balance_of_weightless hlog hes⟩

variable (o : Options) (s : Pull)

theorem fail (err : StreamError) : Stays s (s.fail err) := by
  refine of_log _ rfl rfl rfl rfl fun e he => ?_
  obtain ⟨v, -, rfl⟩ := List.mem_map.mp he
  rfl

theorem endAll : Stays s s.endAll := by
  refine of_log _ rfl rfl rfl rfl fun e he => ?_
  obtain ⟨v, -, rfl⟩ := List.mem_map.mp he
  rfl

theorem teardown (report : Bool) : Stays s (s.teardown report) := by
  have hlog : (s.teardown report).log =
      (if s.startFailed && report then [.startFailed] else []) ++
        (.closed :: if s.stream then [.discarded] else []) ++ s.log := by
    unfold Pull.teardown
    dsimp only
    split <;> split <;> rfl
  refine of_log _ rfl rfl rfl hlog fun e he => ?_
  split at he <;> split at he <;> simp only [List.nil_append, List.cons_append, List.mem_cons,
    List.not_mem_nil, or_false] at he <;> rcases he with rfl | rfl | rfl <;> rfl

theorem listen (c : ℕ) (listens : Bool) : Stays s (s.listen c listens) :=
  ⟨listen_ids s c listens, rfl, rfl, rfl⟩

theorem onVideo (keyframe : Bool) : Stays s (s.onVideo o keyframe) := by
  have hkept : (s.onVideo o keyframe).views = s.views ∧ (s.onVideo o keyframe).ids = s.ids := by
    unfold Pull.onVideo
    dsimp only
    split <;> exact ⟨rfl, rfl⟩
  have hconsumers : (s.onVideo o keyframe).consumers = s.consumers := by
    rw [onVideo_toSource, Source.onVideo_consumers]
  exact of_log [.video keyframe] hkept.1 hconsumers hkept.2 (onVideo_log o s keyframe)
    (by simp [weight])

theorem onAudio : Stays s s.onAudio :=
  of_log [.audio] rfl s.toSource.onAudio_consumers rfl rfl (by simp [weight])

theorem onUpstreamEnd : Stays s (s.onUpstreamEnd o) := by
  unfold Pull.onUpstreamEnd
  split
  · exact refl s
  · dsimp only
    split
    · exact (endAll s).trans (teardown _ true)
    · exact ((fail s _).trans (endAll _)).trans (teardown _ true)

theorem onUpstreamError (err : String) : Stays s (s.onUpstreamError o err) := by
  unfold Pull.onUpstreamError
  split
  · exact refl s
  · exact (fail s _).trans (teardown _ true)

theorem onWarmTimeout : Stays s ({ s with warmDeadlineTimer := false }.onWarmTimeout o) := by
  unfold Pull.onWarmTimeout
  split
  · exact ⟨rfl, rfl, rfl, rfl⟩
  · exact (show Stays s { s with warmDeadlineTimer := false } from ⟨rfl, rfl, rfl, rfl⟩).trans
      ((fail _ _).trans (teardown _ true))

theorem rewarm : Stays s s.rewarm := by
  have hconsumers : s.rewarm.consumers = s.consumers := by
    rw [rewarm_toSource, Source.rewarm_consumers]
  unfold Pull.rewarm at hconsumers ⊢
  split
  · exact refl s
  · refine of_log (.opened :: if s.stream then [.discarded] else []) rfl ?_ rfl ?_ ?_
    · rw [if_neg ‹_›] at hconsumers
      exact hconsumers
    · dsimp only
      split <;> rfl
    · split <;> simp [weight]

/-- The calls in which nobody joins or leaves. -/
theorem coasts {label : Label} (h : label.coasts = true) : Stays s (s.act o label) := by
  cases label with
  | listen c listens => exact listen s c listens
  | unacknowledged =>
    simp only [act, onStartUnacknowledged]
    split
    · exact of_log [.asked] rfl rfl rfl rfl (by simp [weight])
    · exact refl s
  | reissue =>
    simp only [act, reissueStart]
    split
    · exact of_log [_] rfl rfl rfl rfl (by simp [weight])
    · exact refl s
  | budgetElapses =>
    simp only [act, onBudgetExpire]
    split
    · exact ⟨rfl, rfl, rfl, rfl⟩
    · refine of_log _ rfl rfl rfl rfl fun e he => ?_
      obtain ⟨v, -, rfl⟩ := List.mem_map.mp he
      rfl
  | extend =>
    simp only [act, extendBudget]
    split <;> exact ⟨rfl, rfl, rfl, rfl⟩
  | _ => cases h

end Stays

theorem joins_attach : Joins s (s.attach o) := by
  obtain ⟨hviews, hids⟩ := attach_views o s
  have hjoin := joins_join s
  have hlog : ∃ es, (s.attach o).log = es ++ s.join.log ∧ ∀ e ∈ es, weight e = 0 := by
    unfold attach
    split
    · unfold watchReusedStream
      split
      · exact ⟨[], rfl, by simp⟩
      · dsimp only
        split
        · exact ⟨[.nudged false, .watching], rfl, by simp [weight]⟩
        · exact ⟨[.watching], rfl, by simp [weight]⟩
    · exact ⟨[.opened], rfl, by simp [weight]⟩
  obtain ⟨es, hes, hweight⟩ := hlog
  refine ⟨hviews, hids, ?_, ?_⟩
  · rw [attach_toSource, Source.joined_consumers]
    rfl
  · rw [balance_of_weightless hes hweight, hjoin.balance]

/-- The consumers are told apart by numbers that were given out. -/
structure Counted (s : Pull) : Prop where
  count : s.consumers = s.views.length
  nodup : (s.views.map View.id).Nodup
  fresh : ∀ i ∈ s.views.map View.id, i < s.ids

theorem Sound.counted (h : s.Sound) : Counted s where
  count := h.count
  nodup := h.nodup
  fresh := h.fresh_ids

namespace Counted

theorem stays {t : Pull} (h : Counted s) (hstays : Stays s t) : Counted t where
  count := by
    have hlength := congrArg List.length hstays.ids_eq
    rw [List.length_map, List.length_map] at hlength
    rw [hstays.consumers, h.count, hlength]
  nodup := hstays.ids_eq ▸ h.nodup
  fresh := by
    rw [hstays.ids_eq, hstays.ids]
    exact h.fresh

theorem joins {t : Pull} (h : Counted s) (hjoins : Joins s t) : Counted t := by
  have hids : t.views.map View.id = s.views.map View.id ++ [s.ids] := by
    rw [hjoins.views, List.map_append]
    rfl
  refine ⟨?_, ?_, ?_⟩
  · rw [hjoins.consumers, hjoins.views, List.length_append, h.count]
    rfl
  · rw [hids]
    exact Lists.nodup_snoc_fresh h.nodup h.fresh
  · rw [hids, hjoins.ids]
    exact Lists.forall_snoc_lt_succ h.fresh

end Counted

/-! ### Every later run -/

/-- A call on the source: a step of it, or an attach that fails. -/
inductive Call
  | step (label : Label)
  | failedAttach (fault : Fault)

def call (o : Options) (s : Pull) : Call → Option Pull
  | .step label => s.step o label
  | .failedAttach fault =>
    if s.disposed || s.stream then none else (s.attachConsumer o (some fault)).state

/-- The calls other than `detach` of consumer `c` and `dispose`. -/
def Call.spares (c : ℕ) : Call → Bool
  | .step (.detach c' _) => c' ≠ c
  | .step .dispose => false
  | _ => true

/-- Consumer `c` is attached, and the session users are `n`. -/
structure Held (c : ℕ) (n : ℤ) (s : Pull) : Prop where
  counted : Counted s
  mem : c ∈ s.views.map View.id
  balance : s.balance = n

namespace Held

variable {c : ℕ} {n : ℤ}

theorem consumers_ne_zero (h : Held c n s) : s.consumers ≠ 0 := by
  rw [h.counted.count, ← List.length_map (f := View.id)]
  exact List.length_pos_of_mem h.mem |>.ne'

theorem stays {t : Pull} (h : Held c n s) (hstays : Stays s t) : Held c n t where
  counted := h.counted.stays hstays
  mem := hstays.ids_eq ▸ h.mem
  balance := hstays.balance.trans h.balance

theorem joins {t : Pull} (h : Held c n s) (hjoins : Joins s t) : Held c n t where
  counted := h.counted.joins hjoins
  mem := by
    rw [hjoins.views, List.map_append]
    exact List.mem_append_left _ h.mem
  balance := by
    rw [hjoins.balance, if_neg h.consumers_ne_zero, add_zero, h.balance]

/-- Another consumer leaves: it was not the last. -/
theorem detach {c' : ℕ} {recycled : Bool} (h : Held c n s) (hne : c' ≠ c)
    (hc' : ∃ v ∈ s.views, v.id = c') : Held c n (s.detach c' recycled) := by
  have hmem : c' ∈ s.views.map View.id := List.mem_map.mpr hc'
  have hlength : (s.views.filter fun v => v.id ≠ c').length = s.consumers - 1 := by
    rw [Lists.length_filter_key_ne h.counted.nodup hmem, h.counted.count]
  have hstill : c ∈ (s.views.filter fun v => v.id ≠ c').map View.id := by
    obtain ⟨v, hv, rfl⟩ := List.mem_map.mp h.mem
    exact List.mem_map.mpr ⟨v, List.mem_filter.mpr ⟨hv, by simpa using hne.symm⟩, rfl⟩
  have hrest : s.consumers - 1 ≠ 0 := by
    rw [← hlength, ← List.length_map (f := View.id)]
    exact (List.length_pos_of_mem hstill).ne'
  rw [detach_eq_leave recycled hrest]
  refine ⟨⟨hlength.symm, ?_, ?_⟩, hstill, ?_⟩
  · exact h.counted.nodup.sublist (List.filter_sublist.map _)
  · intro i hi
    obtain ⟨v, hv, rfl⟩ := List.mem_map.mp hi
    exact h.counted.fresh _ (List.mem_map_of_mem (List.mem_of_mem_filter hv))
  · rw [balance_of_log (s := s) [.left c'] rfl, h.balance]
    simp [weight]

theorem step {t : Pull} {a : Call} (h : Held c n s) (hspares : a.spares c = true)
    (hcall : s.call o a = some t) : Held c n t := by
  cases a with
  | failedAttach fault =>
    simp only [call, Option.ite_none_left_eq_some, Bool.or_eq_true, not_or,
      Bool.not_eq_true] at hcall
    obtain ⟨⟨hopen, hstream⟩, hstate⟩ := hcall
    obtain rfl := Option.some.inj hstate
    exact h.joins (attachConsumer_fails hopen hstream fault).2
  | step label =>
    obtain ⟨hcan, rfl⟩ := step_eq_some.mp hcall
    cases label with
    | attach => exact h.joins joins_attach
    | detach c' recycled =>
      exact h.detach (by simpa [Call.spares] using hspares) (by simpa [can] using hcan)
    | video keyframe => exact h.stays (.onVideo o s keyframe)
    | audio => exact h.stays (.onAudio s)
    | upstreamEnd => exact h.stays (.onUpstreamEnd o s)
    | upstreamError err => exact h.stays (.onUpstreamError o s err)
    | deadline => exact h.stays (.onWarmTimeout o s)
    | lingerElapses => exact h.stays (.teardown s true)
    | graceElapses => exact h.stays ((Stays.endAll s).trans (.teardown _ true))
    | rewarm => exact h.stays (.rewarm s)
    | dispose => cases hspares
    | listen c' listens => exact h.stays (.coasts o s rfl)
    | unacknowledged => exact h.stays (.coasts o s rfl)
    | reissue => exact h.stays (.coasts o s rfl)
    | budgetElapses => exact h.stays (.coasts o s rfl)
    | extend => exact h.stays (.coasts o s rfl)

end Held

/-- **The session user is held for good.** Nobody was handed the consumer of a failed attach,
so nobody detaches it: whatever happens behind it, until the owner disposes of the source
`onIdle` is never called. -/
theorem held_for_good (h : s.Sound) (hopen : s.disposed = false) (hstream : s.stream = false)
    (fault : Fault) {calls : List Call} {t : Pull}
    (hrun : Machine.Run (call o) (s.attachConsumer o (some fault)).state calls t)
    (hspares : ∀ a ∈ calls, a.spares s.ids = true) :
    s.ids ∈ t.views.map View.id ∧
      t.balance = s.balance + if s.consumers = 0 then 1 else 0 := by
  have hjoins := (attachConsumer_fails (o := o) hopen hstream fault).2
  have hstart : Held s.ids (s.balance + if s.consumers = 0 then 1 else 0)
      (s.attachConsumer o (some fault)).state := by
    refine ⟨h.counted.joins hjoins, ?_, hjoins.balance⟩
    rw [hjoins.views, List.map_append]
    exact List.mem_append_right _ (List.mem_singleton_self _)
  have hheld : Held s.ids (s.balance + if s.consumers = 0 then 1 else 0) t := by
    induction hrun with
    | nil => exact hstart
    | snoc _ hlast ih =>
      have hbefore := ih fun a ha => hspares a (List.mem_append_left _ ha)
      exact hbefore.step (hspares _ (by simp)) hlast
  exact ⟨hheld.mem, hheld.balance⟩

end Pull

end EufySdk.SharedLiveSource
