import Mathlib.Tactic
import EufySdk.Transport.P2p.CommandRouter

/-!
# The refcount of a station against its live sources

A station's entry counts its expiring holds and its live sources with a consumer. Whoever
discards the entry while a source keeps its consumers leaves the next entry short of
them, so the count agrees exactly in the runs that never create an entry while a source
has a consumer.

- `Agrees` — the count agrees, or there is no entry
- `CreatesEntry`, `Earned` — the steps that create an entry, and when they may
- `Agree.step` — the step lemma
- `refcount_agrees_iff` — the runs in which the count always agrees
-/

namespace EufySdk.P2PCommandRouter

open Machine SharedLiveSource

/-! ## Counting in a list -/

theorem countP_modify {α : Type*} (p : α → Bool) (f : α → α) {l : List α} {i : ℕ} {x : α}
    (hx : l[i]? = some x) :
    (l.modify i f).countP p + (if p x then 1 else 0) =
      l.countP p + if p (f x) then 1 else 0 := by
  induction l generalizing i with
  | nil => cases hx
  | cons y l ih =>
    cases i with
    | zero =>
      obtain rfl := Option.some.inj hx
      rw [List.modify_zero_cons, List.countP_cons, List.countP_cons]
      omega
    | succ i =>
      have hrest := ih hx
      rw [List.modify_succ_cons, List.countP_cons, List.countP_cons]
      omega

theorem countP_modify_of_eq {α : Type*} {p : α → Bool} {f : α → α}
    (hf : ∀ x, p (f x) = p x) (l : List α) (i : ℕ) : (l.modify i f).countP p = l.countP p := by
  induction l generalizing i with
  | nil => rw [List.modify_nil]
  | cons y l ih =>
    cases i with
    | zero => rw [List.modify_zero_cons, List.countP_cons, List.countP_cons, hf]
    | succ i => rw [List.modify_succ_cons, List.countP_cons, List.countP_cons, ih]

/-! ## The count of an entry -/

/-- The entry, if there is one, counts its holds and `n` sources. -/
structure Agree (m : SessionManager) (n : ℕ) : Prop where
  valid : m.Valid
  counts : ∀ e, m.present = some e → e.retained = e.holdTimers + n

theorem agree_start : Agree {} 0 where
  valid k hk := by cases hk
  counts e he := by cases he

namespace Agree

variable {m : SessionManager} {n : ℕ}

theorem discard (m : SessionManager) (n : ℕ) : Agree m.discard n :=
  ⟨m.valid_discard, fun e he => by cases he⟩

theorem modifyPresent (h : Agree m n) {f : SessionEntry → SessionEntry}
    (hretained : ∀ e, (f e).retained = e.retained)
    (hholds : ∀ e, (f e).holdTimers = e.holdTimers) : Agree (m.modifyPresent f) n := by
  refine ⟨h.valid.modifyPresent f, fun e he => ?_⟩
  rw [m.present_modifyPresent] at he
  obtain ⟨e, he', rfl⟩ := Option.map_eq_some_iff.mp he
  rw [hretained, hholds]
  exact h.counts e he'

theorem modify (h : Agree m n) (k : ℕ) {f : SessionEntry → SessionEntry}
    (hretained : ∀ e, (f e).retained = e.retained)
    (hholds : ∀ e, (f e).holdTimers = e.holdTimers) : Agree (m.modify k f) n := by
  refine ⟨h.valid.modify k f, fun e he => ?_⟩
  rw [m.present_modify] at he
  split at he
  · obtain ⟨e, he', rfl⟩ := Option.map_eq_some_iff.mp he
    rw [hretained, hholds]
    exact h.counts e he'
  · exact h.counts e he

/-- The present entry, or the one that would be created, when nothing is attached. -/
theorem present_getD (h : Agree m n) (hnew : m.entries = none → n = 0) :
    (m.present.getD {}).retained = (m.present.getD {}).holdTimers + n := by
  cases hpresent : m.present with
  | some e => exact h.counts e hpresent
  | none => rw [hnew (h.valid.present_eq_none.mp hpresent)]; rfl

theorem entry (h : Agree m n) (hnew : m.entries = none → n = 0) : Agree m.entry n := by
  refine ⟨h.valid.entry, fun e he => ?_⟩
  rw [SessionManager.present_entry h.valid] at he
  obtain rfl := Option.some.inj he
  exact h.present_getD hnew

theorem retain (h : Agree m n) (hnew : m.entries = none → n = 0) : Agree m.retain (n + 1) := by
  refine ⟨h.valid.entry.modifyPresent _, fun e he => ?_⟩
  rw [SessionManager.present_retain h.valid] at he
  obtain rfl := Option.some.inj he
  have hcounts := h.present_getD hnew
  show (m.present.getD {}).retained + 1 = (m.present.getD {}).holdTimers + (n + 1)
  omega

theorem hold (h : Agree m n) (hnew : m.entries = none → n = 0) : Agree m.hold n := by
  refine ⟨(h.valid.entry.modifyPresent _).modifyPresent _, fun e he => ?_⟩
  rw [SessionManager.present_hold h.valid] at he
  obtain rfl := Option.some.inj he
  have hcounts := h.present_getD hnew
  show (m.present.getD {}).retained + 1 = (m.present.getD {}).holdTimers + 1 + n
  omega

/-- A release with a source or a hold behind it. -/
theorem release (battery : Bool) (hvalid : m.Valid)
    (h : ∀ e, m.present = some e → e.retained = e.holdTimers + n + 1) :
    Agree (m.release battery) n := by
  refine ⟨hvalid.modifyPresent _, fun e he => ?_⟩
  rw [SessionManager.release, m.present_modifyPresent] at he
  obtain ⟨e, he', rfl⟩ := Option.map_eq_some_iff.mp he
  have hcounts := h e he'
  split
  · omega
  · split
    · show e.retained - 1 = e.holdTimers + n
      omega
    · split
      · show 0 = e.holdTimers + n
        omega
      · show e.retained - 1 = e.holdTimers + n
        omega

end Agree

/-! ## The steps of the station -/

/-- The live sources with a consumer. -/
def Station.active (w : Station) : ℕ := w.sources.countP fun s => s.source.active

/-- The station's entry counts its holds and its live sources with a consumer. -/
def Agrees (w : Station) : Prop :=
  ∀ e, w.manager.present = some e → e.retained = e.holdTimers + w.active

/-- The label is for a step that creates the station's entry. -/
def CreatesEntry (w : Station) (label : Label) : Prop :=
  w.manager.entries = none ∧
    match label with
    | .live _ | .command | .prewarm | .ensureStation => True
    | .afterClose t => ∃ task, w.tasks[t]? = some task ∧ task.stage = .closing ∧
        ∀ channel, task.purpose ≠ .drop channel
    | .attach i => ∃ s, w.sources[i]? = some s ∧ s.source.disposed = false ∧
        s.source.consumers = 0
    | _ => False

/-- No entry is created while a source has a consumer. -/
def Earned (w : Station) (label : Label) : Prop := CreatesEntry w label → w.active = 0

/-- `Agrees`, with a valid map. -/
abbrev Station.Counted (w : Station) : Prop := Agree w.manager w.active

theorem Station.active_modify {w : Station} {i : ℕ} {s : LiveSource}
    (f : LiveSource → LiveSource) (hs : w.sources[i]? = some s) :
    Station.active { w with sources := w.sources.modify i f } +
        (if s.source.active then 1 else 0) =
      w.active + if (f s).source.active then 1 else 0 :=
  countP_modify (fun s : LiveSource => s.source.active) f hs

theorem Station.active_modify_of_eq {w : Station} {f : LiveSource → LiveSource}
    (hf : ∀ s, (f s).source.active = s.source.active) (i : ℕ) :
    Station.active { w with sources := w.sources.modify i f } = w.active :=
  countP_modify_of_eq (p := fun s : LiveSource => s.source.active) hf w.sources i

theorem Station.active_modifySource {w : Station} {f : Source → Source}
    (hf : ∀ s, (f s).active = s.active) (i : ℕ) : (w.modifySource i f).active = w.active :=
  countP_modify_of_eq (fun s => hf s.source) w.sources i

theorem Source.active_watch (s : Source) :
    s.watchReusedStream.active = s.active ∧ s.warm.active = s.active ∧
      s.cancelLinger.active = s.active ∧ s.settleReuseWatch.active = s.active := by
  refine ⟨?_, rfl, ?_, ?_⟩
  · unfold Source.watchReusedStream
    split <;> rfl
  · unfold Source.cancelLinger
    split <;> rfl
  · unfold Source.settleReuseWatch
    split <;> rfl

theorem Source.active_joined (s : Source) : s.joined.active = s.active := by
  unfold Source.joined
  dsimp only
  split
  · rw [(Source.active_watch _).1, (Source.active_watch s).2.2.1]
  · rw [(Source.active_watch _).2.1, (Source.active_watch s).2.2.1]

theorem Source.active_onVideo (s : Source) (keyframe : Bool) :
    (s.onVideo keyframe).active = s.active := by
  unfold Source.onVideo
  dsimp only
  split
  · exact (Source.active_watch _).2.2.2
  · exact (Source.active_watch _).2.2.2

theorem Source.active_onAudio (s : Source) : s.onAudio.active = s.active :=
  (Source.active_watch _).2.2.2

theorem Source.active_rewarm (s : Source) : s.rewarm.active = s.active := by
  unfold Source.rewarm
  split <;> rfl

theorem LiveSource.active_drop (s : LiveSource) : s.drop.source.active = false := by
  unfold LiveSource.drop
  dsimp only
  split
  · rename_i hdisposed
    rw [Source.active, hdisposed]
    rfl
  · rfl

namespace Station

variable {w : Station}

theorem closeSession?_manager (w : Station) (i : Option ℕ) :
    (w.closeSession? i).manager = w.manager := by
  cases i <;> rfl

theorem counted_close (w : Station) : w.close.Counted := by
  unfold Counted close
  rw [closeSession?_manager]
  exact Agree.discard _ _

theorem counted_tearDownStation (w : Station) : w.tearDownStation.Counted := Agree.discard _ _

theorem counted_autoClose (w : Station) : w.autoClose.Counted := by
  unfold autoClose
  split <;> exact Agree.discard _ _

/-- A release that its source or hold has earned. -/
theorem counted_release (hvalid : w.manager.Valid)
    (h : ∀ e, w.manager.present = some e → e.retained = e.holdTimers + w.active + 1) :
    w.release.Counted := by
  unfold release
  dsimp only
  split
  · exact counted_autoClose _
  · exact Agree.release w.battery hvalid h

theorem Counted.disposeSource (h : w.Counted) (i : ℕ) : (w.disposeSource i).Counted := by
  unfold Station.disposeSource
  dsimp only
  cases hs : w.sources[i]? with
  | none =>
    rw [Option.any_none, if_neg Bool.false_ne_true, Counted, active,
      List.modify_eq_self (List.getElem?_eq_none_iff.mp hs)]
    exact h
  | some s =>
    have hcount := active_modify LiveSource.drop hs
    simp only [LiveSource.active_drop, Bool.false_eq_true, if_false, Nat.add_zero] at hcount
    rw [Option.any_some]
    split
    · rename_i hactive
      rw [if_pos hactive] at hcount
      refine counted_release h.valid fun e he => ?_
      rw [h.counts e he, ← hcount, Nat.add_assoc]
    · rename_i hactive
      rw [if_neg hactive, Nat.add_zero] at hcount
      unfold Counted
      rw [hcount]
      exact h

theorem Counted.dropLiveSource (h : w.Counted) (channel : ℕ) :
    (w.dropLiveSource channel).Counted := by
  unfold Station.dropLiveSource
  split
  · exact h.disposeSource _
  · exact h

theorem Counted.releaseLingeringSiblings (h : w.Counted) (channel : ℕ) :
    (w.releaseLingeringSiblings channel).Counted := by
  unfold Counted active Station.releaseLingeringSiblings
  rw [List.countP_map]
  refine (congrArg (Agree w.manager) ?_).mpr h
  refine List.countP_congr fun s _ => ?_
  dsimp only [Function.comp]
  split
  · rename_i hidle
    rw [LiveSource.active_drop, Source.active]
    simp only [Bool.and_eq_true, decide_eq_true_eq] at hidle
    simp [hidle.2]
  · rfl

theorem Counted.onLiveStartFailed (h : w.Counted) (device : Device) :
    (w.onLiveStartFailed device).Counted := by
  unfold Station.onLiveStartFailed
  split
  · exact counted_close w
  · exact h.dropLiveSource _

theorem Counted.modifySource (h : w.Counted) {f : Source → Source}
    (hf : ∀ s, (f s).active = s.active) (i : ℕ) : (w.modifySource i f).Counted := by
  unfold Counted
  rw [active_modifySource hf]
  exact h

theorem Counted.teardownSource (h : w.Counted) (i : ℕ) : (w.teardownSource i).Counted := by
  unfold Station.teardownSource
  split
  · have hdown : (w.modifySource i Source.teardown).Counted := h.modifySource (f := Source.teardown) (fun _ => rfl) i
    dsimp only
    split
    · exact hdown.onLiveStartFailed _
    · exact hdown
  · exact h

theorem Counted.acquire (h : w.Counted) (hnew : w.manager.entries = none → w.active = 0)
    (t : ℕ) : (w.acquire t).Counted := by
  have hentry : Agree w.manager.entry w.active := h.entry hnew
  unfold Station.acquire
  dsimp only
  split
  · split
    · exact hentry
    · split
      · exact hentry
      · exact hentry.modify _ (fun _ => rfl) fun _ => rfl
  · exact hentry

theorem Counted.begin (h : w.Counted) (hnew : w.manager.entries = none → w.active = 0)
    (purpose : Purpose) : (w.begin purpose).Counted :=
  Counted.acquire (w := w.spawn purpose .opened) h hnew _

theorem Counted.resume (h : w.Counted) (t : ℕ) (task : Task) : (w.resume t task).Counted := by
  unfold Station.resume
  split
  · exact h
  · split
    · exact h
    · rename_i i hget
      split
      · exact counted_close w
      · refine h.hold fun hnone => ?_
        rw [SessionManager.get, h.valid.present_eq_none.mpr hnone] at hget
        cases hget

theorem Counted.handOver (h : w.Counted) (device : Device) (session : ℕ) :
    (w.handOver device session).1.Counted := by
  unfold Station.handOver
  dsimp only
  have hstopped : (w.dropStopped device.channel).Counted := by
    unfold dropStopped
    split
    · exact h.dropLiveSource _
    · exact h
  have hready := hstopped.releaseLingeringSiblings device.channel
  split
  · exact hready
  · split
    · exact hready
    · unfold Counted active
      rw [List.countP_append]
      exact hready

theorem Counted.replaced (h : w.Counted) (source session : ℕ) :
    (w.replaced source session).Counted := by
  unfold Station.replaced
  split
  · split
    · refine Counted.modifySource ?_ Source.active_rewarm _
      have hsame := active_modify_of_eq (w := w)
        (f := fun s => { s with held := session }) (fun _ => rfl) source
      unfold Counted
      rw [hsame]
      exact h
    · exact h
  · exact h

theorem Counted.proceed (h : w.Counted) (t : ℕ) (purpose : Purpose) (session : ℕ) :
    (w.proceed t purpose session).Counted := by
  unfold Station.proceed
  split
  · exact h.handOver _ _
  · exact h.replaced _ _
  · exact h

theorem Counted.afterClose (h : w.Counted) (t : ℕ) (task : Task)
    (hnew : (∀ channel, task.purpose ≠ .drop channel) → w.manager.entries = none →
      w.active = 0) : (w.afterClose t task).Counted := by
  unfold Station.afterClose
  split
  · exact h.dropLiveSource _
  · rename_i hpurpose
    exact h.acquire (hnew hpurpose) t

/-- The number of sources in use behind `attach`. -/
theorem active_join {i : ℕ} {s : LiveSource} (hs : w.sources[i]? = some s)
    (hdisposed : s.source.disposed = false) :
    (w.modifySource i Source.join).active =
      w.active + if s.source.consumers = 0 then 1 else 0 := by
  have hcount : (w.modifySource i Source.join).active + _ = _ :=
    active_modify (fun s => { s with source := s.source.join }) hs
  have hjoined : s.source.join.active = true := by simp [Source.active, Source.join, hdisposed]
  rw [if_pos hjoined] at hcount
  rw [Source.active, hdisposed] at hcount
  by_cases hzero : s.source.consumers = 0
  · simp only [hzero, lt_irrefl, decide_false, Bool.and_false, Bool.false_eq_true, if_false,
      Nat.add_zero] at hcount
    rw [if_pos hzero]
    exact hcount
  · rw [if_neg hzero]
    have hpos : 0 < s.source.consumers := Nat.pos_of_ne_zero hzero
    simp only [hpos, decide_true, Bool.not_false, Bool.and_self, if_true] at hcount
    omega

theorem Counted.attach (h : w.Counted) {i : ℕ} {s : LiveSource} (hs : w.sources[i]? = some s)
    (hdisposed : s.source.disposed = false)
    (hnew : s.source.consumers = 0 → w.manager.entries = none → w.active = 0) :
    (w.attach i s.source).Counted := by
  have hactive := active_join hs hdisposed
  unfold Station.attach
  dsimp only
  refine Counted.modifySource ?_ Source.active_joined i
  split
  · rename_i hzero
    rw [if_pos hzero] at hactive
    show Agree w.manager.retain (w.modifySource i Source.join).active
    rw [hactive]
    exact h.retain (hnew hzero)
  · rename_i hzero
    rw [if_neg hzero] at hactive
    show Agree w.manager (w.modifySource i Source.join).active
    rw [hactive]
    exact h

theorem Counted.detach (h : w.Counted) {i : ℕ} {s : LiveSource} (hs : w.sources[i]? = some s)
    (hconsumers : 0 < s.source.consumers) : (w.detach i s.source).Counted := by
  have hcount : (w.modifySource i Source.leave).active + _ = _ :=
    active_modify (fun s => { s with source := s.source.leave }) hs
  unfold Station.detach
  dsimp only
  split
  · rename_i hlast
    simp only [Bool.and_eq_true, decide_eq_true_eq, Bool.not_eq_true'] at hlast
    obtain ⟨hone, hdisposed⟩ := hlast
    have hwas : s.source.active = true := by simp [Source.active, hone, hdisposed]
    have hnow : s.source.leave.active = false := by simp [Source.active, Source.leave, hone]
    rw [if_pos hwas, if_neg (ne_true_of_eq_false hnow)] at hcount
    refine Counted.modifySource (w := (w.modifySource i Source.leave).release) (f := Source.arm)
      (counted_release h.valid fun e he => ?_) (fun _ => rfl) i
    have hcounts := h.counts e he
    omega
  · rename_i hmore
    have hsame : s.source.leave.active = s.source.active := by
      simp only [Source.active, Source.leave]
      cases hdisposed : s.source.disposed with
      | true => rfl
      | false =>
        simp only [hdisposed, Bool.not_false, Bool.and_true, decide_eq_true_eq] at hmore
        have hmany : 0 < s.source.consumers - 1 := by omega
        simp [hmany, hconsumers]
    rw [hsame] at hcount
    unfold Counted
    rw [Nat.add_right_cancel hcount]
    exact h

theorem Counted.unacknowledged (h : w.Counted) (i : ℕ) (s : LiveSource) :
    (w.unacknowledged i s).Counted := by
  unfold Station.unacknowledged
  dsimp only
  split
  · split
    · exact counted_close _
    · exact h.modifySource (f := Source.askSession) (fun _ => rfl) i
  · exact h

end Station

/-- An expiring hold gives back what it retained. -/
theorem Agree.hold_expires {w : Station} (h : w.Counted) {e : SessionEntry}
    (he : w.manager.present = some e) (hholds : 0 < e.holdTimers) :
    Station.Counted (Station.release { w with
      manager := w.manager.modifyPresent fun e => { e with holdTimers := e.holdTimers - 1 } }) := by
  refine Station.counted_release (h.valid.modifyPresent _) fun e' he' => ?_
  rw [SessionManager.present_modifyPresent, he] at he'
  obtain rfl := Option.some.inj he'
  have hcounts := h.counts e he
  show e.retained = e.holdTimers - 1 + w.active + 1
  omega

/-- **The step lemma.** An earned step keeps the count. -/
theorem Agree.step {w t : Station} {label : Label} (h : w.Counted) (hearned : Earned w label)
    (hstep : P2PCommandRouter.step w label = some t) : t.Counted := by
  have hnew : (w.manager.entries = none → CreatesEntry w label) →
      w.manager.entries = none → w.active = 0 := fun hcreates hnone => hearned (hcreates hnone)
  cases transition_of_step hstep with
  | live | command | ensureStation =>
    exact Station.Counted.begin h (hnew fun hnone => ⟨hnone, trivial⟩) _
  | prewarm =>
    have hhold : Agree w.manager.hold w.active := Agree.hold h (hnew fun hnone => ⟨hnone, trivial⟩)
    refine Station.Counted.begin (w := { w with manager := w.manager.hold }) hhold ?_ _
    intro hnone
    have hpresent := SessionManager.present_hold h.valid
    rw [hhold.valid.present_eq_none.mpr hnone] at hpresent
    cases hpresent
  | register | bound | boundLate | openFails => exact Agree.modify h _ (fun _ => rfl) fun _ => rfl
  | resume => exact Station.Counted.resume h _ _
  | ready | gaveUp => exact h
  | @afterClose t task htask hclosing =>
    refine Station.Counted.afterClose h t task fun hpurpose => hnew fun hnone => ?_
    exact ⟨hnone, task, htask, hclosing, hpurpose⟩
  | proceed => exact Station.Counted.proceed h _ _ _
  | attach hs hopen =>
    refine Station.Counted.attach h hs hopen fun hzero => hnew fun hnone => ?_
    exact ⟨hnone, _, hs, hopen, hzero⟩
  | detach hs hpos => exact Station.Counted.detach h hs hpos
  | video => exact Station.Counted.modifySource h (fun s => Source.active_onVideo s _) _
  | audio => exact Station.Counted.modifySource h Source.active_onAudio _
  | teardown => exact Station.Counted.teardownSource h _
  | unacknowledged => exact Station.Counted.unacknowledged h _ _
  | holdExpires he hholds => exact Agree.hold_expires h he hholds
  | idleCloses | resetNow => exact Station.counted_autoClose _
  | idleRetained | resetLater => exact Agree.modifyPresent h (fun _ => rfl) fun _ => rfl
  | closeEvent => exact Station.counted_tearDownStation _
  | resetNothing | powered | connects | pathAnswers | closes | closeEventStale => exact h

/-! ## The runs in which the count always agrees -/

theorem present_acquire {w : Station} (hvalid : w.manager.Valid) (t : ℕ) :
    ∃ e, (w.acquire t).manager.present = some e ∧
      e.retained = (w.manager.present.getD {}).retained ∧
      e.holdTimers = (w.manager.present.getD {}).holdTimers := by
  have hpresent := SessionManager.present_entry hvalid
  unfold Station.acquire
  dsimp only
  split
  · rename_i k e hk he
    obtain rfl := Option.some.inj (hpresent.symm.trans he)
    split
    · exact ⟨_, hpresent, rfl, rfl⟩
    · split
      · exact ⟨_, hpresent, rfl, rfl⟩
      · refine ⟨{ w.manager.present.getD {} with connecting := true }, ?_, rfl, rfl⟩
        show (w.manager.entry.modify k _).present = _
        rw [SessionManager.present_modify, if_pos hk, hpresent]
        rfl
  · exact ⟨_, hpresent, rfl, rfl⟩

/-- A call that creates an entry leaves it without the sources that have a consumer. -/
theorem active_of_acquire {w : Station} (hvalid : w.manager.Valid)
    (hnone : w.manager.entries = none) {t : ℕ} (hagrees : Agrees (w.acquire t)) :
    w.active = 0 := by
  obtain ⟨e, he, hretained, hholds⟩ := present_acquire hvalid t
  have hcounts := hagrees e he
  have hactive : (w.acquire t).active = w.active := by
    unfold Station.acquire
    dsimp only
    split
    · split
      · rfl
      · split <;> rfl
    · rfl
  rw [hretained, hholds, hvalid.present_eq_none.mpr hnone, hactive] at hcounts
  simpa using hcounts.symm

/-- A step that leaves the count in agreement was earned. -/
theorem earned_of_agrees {w t : Station} {label : Label} (hvalid : w.manager.Valid)
    (hstep : step w label = some t) (hagrees : Agrees t) : Earned w label := by
  rintro ⟨hnone, hlabel⟩
  cases label with
  | live device =>
    obtain rfl := Option.some.inj hstep
    exact active_of_acquire (w := w.spawn (.live device) .opened) hvalid hnone hagrees
  | command =>
    obtain rfl := Option.some.inj hstep
    exact active_of_acquire (w := w.spawn .command .opened) hvalid hnone hagrees
  | ensureStation =>
    obtain rfl := Option.some.inj hstep
    exact active_of_acquire (w := w.spawn .open .opened) hvalid hnone hagrees
  | prewarm =>
    obtain rfl := Option.some.inj hstep
    have hhold : w.manager.hold.Valid := (hvalid.entry.modifyPresent _).modifyPresent _
    have hpresent := SessionManager.present_hold hvalid
    rw [hvalid.present_eq_none.mpr hnone] at hpresent
    obtain ⟨e, he, hretained, hholds⟩ := present_acquire
      (w := Station.spawn { w with manager := w.manager.hold } .open .opened) hhold w.tasks.length
    have hcounts := hagrees e he
    have hactive : (Station.begin { w with manager := w.manager.hold } .open).active =
        w.active := by
      unfold Station.begin Station.acquire
      dsimp only
      split
      · split
        · rfl
        · split <;> rfl
      · rfl
    rw [hactive, hretained, hholds] at hcounts
    simp only [Station.spawn, hpresent, Option.map_some, Option.getD_some, Option.getD_none]
      at hcounts
    omega
  | afterClose t =>
    obtain ⟨task, htask, hclosing, hpurpose⟩ := hlabel
    simp only [step, htask, hclosing, if_true, Option.some.injEq] at hstep
    obtain rfl := hstep
    have hacquire : w.afterClose t task = w.acquire t := by
      unfold Station.afterClose
      split
      · rename_i channel hdrop
        exact absurd hdrop (hpurpose channel)
      · rfl
    rw [hacquire] at hagrees
    exact active_of_acquire hvalid hnone hagrees
  | attach i =>
    obtain ⟨s, hs, hdisposed, hzero⟩ := hlabel
    simp only [step, hs, hdisposed, Bool.false_eq_true, if_false, Option.some.injEq] at hstep
    obtain rfl := hstep
    have hpresent := SessionManager.present_retain hvalid
    rw [hvalid.present_eq_none.mpr hnone] at hpresent
    have hattach : w.attach i s.source = Station.modifySource
        { w.modifySource i Source.join with manager := w.manager.retain } i Source.joined := by
      unfold Station.attach
      dsimp only
      rw [if_pos hzero]
      rfl
    have hactive : (w.attach i s.source).active = w.active + 1 := by
      rw [hattach, Station.active_modifySource Source.active_joined]
      have hjoin := Station.active_join hs hdisposed
      rw [if_pos hzero] at hjoin
      exact hjoin
    have hcounts := hagrees _ (by rw [hattach]; exact hpresent)
    rw [hactive] at hcounts
    simp only [Option.getD_none] at hcounts
    omega
  | _ => exact absurd hlabel id

/-- What has to hold of a step: the count agrees behind it, and an idle close finds no live
source with a consumer. -/
def KeepsCount (w : Station) (label : Label) : Prop :=
  ∀ t, step w label = some t →
    Agrees t ∧ (label = .idleElapses → t.manager.entries = none → w.active = 0)

theorem CreatesEntry.enabled {w : Station} {label : Label} (h : CreatesEntry w label) :
    (step w label).isSome := by
  obtain ⟨-, hlabel⟩ := h
  cases label with
  | live _ | command | prewarm | ensureStation => rfl
  | afterClose t =>
    obtain ⟨task, htask, hclosing, -⟩ := hlabel
    simp only [step, htask, hclosing, if_true, Option.isSome_some]
  | attach i =>
    obtain ⟨s, hs, hdisposed, -⟩ := hlabel
    simp only [step, hs, hdisposed, Bool.false_eq_true, if_false, Option.isSome_some]
  | _ => exact absurd hlabel id

theorem keepsCount_iff {w : Station} (h : w.Counted) (label : Label) :
    KeepsCount w label ↔ Earned w label := by
  constructor
  · intro hkeeps hcreates
    obtain ⟨t, ht⟩ := Option.isSome_iff_exists.mp hcreates.enabled
    exact earned_of_agrees h.valid ht (hkeeps t ht).1 hcreates
  · rintro hearned u hu
    refine ⟨(Agree.step h hearned hu).counts, ?_⟩
    rintro rfl hclosed
    simp only [step] at hu
    split at hu
    · rename_i e he
      have hcounts := h.counts e he
      split at hu <;> cases hu
      split at hclosed
      · rw [← SessionManager.Valid.present_eq_none (h.valid.modifyPresent _),
          SessionManager.present_modifyPresent, he] at hclosed
        cases hclosed
      · omega
    · cases hu

/-- **The refcount agrees with the live sources exactly in the runs that create the station's
entry only while no live source has a consumer.** -/
theorem refcount_agrees_iff (labels : List Label) :
    StepsMeet step KeepsCount {} labels ↔ StepsMeet step Earned {} labels :=
  stepsMeet_congr (J := Station.Counted) agree_start (fun _ label h => keepsCount_iff h label)
    fun _ _ _ h hearned hstep => Agree.step h hearned hstep

/-- A standalone battery camera. -/
def sampleCamera : Device := ⟨0, false, true⟩

/-- A viewer attaches; the path goes silent; a command rebuilds the session. -/
def rebuildUnderViewer : List Label :=
  [.live sampleCamera, .register 0, .bound 0, .resume 0, .connects 0, .ready 0, .proceed 0,
    .attach 0, .video 0 true, .holdExpires, .pathAnswers 0 false, .command, .resume 1,
    .afterClose 1, .register 1, .bound 1, .resume 1]

/-- The new entry does not count the viewer; when the command's hold has expired the idle timer
closes the session under it. -/
theorem refcount_misses_viewer :
    ∃ w, exec step {} rebuildUnderViewer = some w ∧ ¬Agrees w ∧
      ∃ v t, exec step w [.holdExpires] = some v ∧ v.active = 1 ∧
        step v .idleElapses = some t ∧ t.manager.entries = none := by
  refine ⟨_, rfl, fun h => ?_, _, _, rfl, rfl, rfl, rfl⟩
  exact absurd (h _ rfl) (by decide)

end EufySdk.P2PCommandRouter
