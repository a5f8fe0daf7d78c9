import Mathlib.Tactic
import EufySdk.Lib.Machine
import EufySdk.Transport.P2p.TalkbackPacing

/-!
# The completion of a talkback

`finished` says that all the audio has been sent. What it looks at is an empty queue, and a queue is
also empty when a stop has cleared it, when the session has thrown on what was in it, or when the
encoder is not done yet.

- `Truthful` — what `finished` says
- `Heeds` — the steps in which an empty queue is a sent one
- `truthful_iff_heeds` — the runs in which completion is truthful
-/

namespace EufySdk.TalkbackSession

open Machine

/-- Whether a frame is audio of a write. What the encoder's `flush` brings is the rest of what was
written, or it is not, as `tails` says. -/
def counts (tails : Bool) (f : TalkbackFrame) : Bool := tails || !f.tail

/-- Whether audio of a write is still being encoded in some jobs. -/
def encoding (tails : Bool) (opts : TalkbackOptions) (jobs : List TalkbackJob) : Bool :=
  jobs.any fun
    | .encode _ => true
    | .flush => tails && opts.encoder && opts.flush
    | .announce => false

/-- The talkback was stopped with frames still queued or still being encoded. -/
def CutShort (tails : Bool) (s : TalkbackSession) : Prop :=
  ∃ rest ∈ s.stoppedOver, rest.1 ≠ [] ∨ encoding tails s.opts rest.2 = true

/-- `finished` is emitted once at most, behind the last frame of the writes, and not by a talkback
that was cut short. -/
structure Truthful (tails : Bool) (s : TalkbackSession) : Prop where
  once : s.finished.length ≤ 1
  sent : ∀ sent ∈ s.finished, s.admitted.filter (counts tails) = sent.filter (counts tails)
  whole : s.CutShort tails → s.finished = []

/-- No audio of a write was dropped, by a stop or a send that threw, and none was cut short. -/
def Undropped (tails : Bool) (s : TalkbackSession) : Prop :=
  s.dropped.countP (counts tails) = 0 ∧ ¬s.CutShort tails

/-- Nothing is queued or being encoded. -/
def Settled (tails : Bool) (s : TalkbackSession) : Prop :=
  s.queue = [] ∧ encoding tails s.opts s.chain = false

/-- `finished` does not fall due behind audio that was dropped, and no audio is left for when it has
been emitted. -/
def Heeds (tails : Bool) (s : TalkbackSession) : Event → Prop
  | .tickEnds => s.done = true → s.Undropped tails
  | .begin => s.chain.head? = some .announce → s.done = true → s.Undropped tails
  | .pushFrame => s.announcedFinish = true → ∀ f ∈ s.batch.head?, (admits f && counts tails f) = false
  | .stop => s.announcedFinish = true → s.stopped = false → s.Settled tails
  | .tick _ =>
    s.announcedFinish = true → s.queue = [] → s.idle = true → s.stopped = false → s.Settled tails
  | _ => True

instance (tails : Bool) (s : TalkbackSession) : Decidable (s.CutShort tails) :=
  inferInstanceAs (Decidable (∃ rest ∈ s.stoppedOver, _))

instance (tails : Bool) (s : TalkbackSession) : Decidable (s.Undropped tails) :=
  inferInstanceAs (Decidable (_ ∧ _))

instance (tails : Bool) (s : TalkbackSession) : Decidable (s.Settled tails) :=
  inferInstanceAs (Decidable (_ ∧ _))

instance (tails : Bool) (s : TalkbackSession) : (a : Event) → Decidable (s.Heeds tails a)
  | .tickEnds => inferInstanceAs (Decidable (s.done = true → s.Undropped tails))
  | .begin => inferInstanceAs (Decidable
      (s.chain.head? = some .announce → s.done = true → s.Undropped tails))
  | .pushFrame => inferInstanceAs (Decidable
      (s.announcedFinish = true → ∀ f ∈ s.batch.head?, (admits f && counts tails f) = false))
  | .stop => inferInstanceAs (Decidable
      (s.announcedFinish = true → s.stopped = false → s.Settled tails))
  | .tick _ => inferInstanceAs (Decidable
      (s.announcedFinish = true → s.queue = [] → s.idle = true → s.stopped = false →
        s.Settled tails))
  | .start _ | .write _ | .end_ | .settle _ | .elapse _ => .isTrue trivial

/-! ## What every run keeps -/

/-- A frame that was admitted is sent, queued or dropped, and `finished` is emitted as it is
announced. -/
structure Accounted (s : TalkbackSession) : Prop where
  flow : (s.sent ++ s.queue).Sublist s.admitted
  conserved : ∀ p, s.admitted.countP p = (s.sent ++ s.queue).countP p + s.dropped.countP p
  announced : s.finished.length = if s.announcedFinish then 1 else 0

namespace Accounted

variable {s t : TalkbackSession}

theorem init (opts : TalkbackOptions) : Accounted { opts } where
  flow := List.Sublist.refl _
  conserved _ := rfl
  announced := rfl

theorem stop (h : s.Accounted) : s.stop.Accounted := by
  unfold TalkbackSession.stop
  split
  · exact h
  · refine ⟨?_, fun p => ?_, h.announced⟩
    · rw [List.append_nil]
      exact (List.sublist_append_left _ _).trans h.flow
    · have hbefore := h.conserved p
      simp only [List.append_nil, List.countP_append] at hbefore ⊢
      omega

theorem pushFrame (h : s.Accounted) (f : TalkbackFrame) (batch : List TalkbackFrame) :
    (s.pushFrame (f :: batch)).Accounted := by
  rw [TalkbackSession.pushFrame]
  split
  · refine ⟨?_, fun p => ?_, h.announced⟩
    · rw [← List.append_assoc]
      exact h.flow.append_right [f]
    · have hbefore := h.conserved p
      simp only [List.countP_append] at hbefore ⊢
      omega
  · exact ⟨h.flow, h.conserved, h.announced⟩

/-- The loop of a tick moves frames from the queue to what was sent, and loses one it throws on. -/
theorem loop (h : s.Accounted) (takes : Option ℕ)
    (hqueue : t.queue = (sendDue s.now takes s.nextDueAt s.queue).queue)
    (hsent : t.sent = s.sent ++ (sendDue s.now takes s.nextDueAt s.queue).sent)
    (hdropped : t.dropped =
      s.dropped ++ (sendDue s.now takes s.nextDueAt s.queue).thrown.toList)
    (hadmitted : t.admitted = s.admitted) (hfinished : t.finished = s.finished)
    (hannounced : t.announcedFinish = s.announcedFinish) : t.Accounted := by
  have hsplit := sendDue_split s.now takes s.nextDueAt s.queue
  generalize sendDue s.now takes s.nextDueAt s.queue = rest at *
  refine ⟨?_, fun p => ?_, by rw [hfinished, hannounced, h.announced]⟩
  · refine List.Sublist.trans ?_ (hadmitted ▸ h.flow)
    rw [hsent, hqueue, hsplit]
    simp
  · have hbefore := h.conserved p
    rw [hsplit] at hbefore
    rw [hadmitted, hbefore, hsent, hqueue, hdropped]
    simp only [List.countP_append]
    omega

theorem tick (h : s.Accounted) (takes : Option ℕ) : (s.tick takes).Accounted := by
  unfold TalkbackSession.tick
  split
  · exact h
  · split
    · have hchecked : (idleCheck { s with nextDueAt := s.now + AAC_FRAME_MS }).Accounted := by
        have hbased : Accounted { s with nextDueAt := s.now + AAC_FRAME_MS } :=
          ⟨h.flow, h.conserved, h.announced⟩
        unfold idleCheck
        split
        · exact hbased.stop
        · exact hbased
      exact ⟨hchecked.flow, hchecked.conserved, hchecked.announced⟩
    · exact h.loop takes rfl rfl rfl rfl rfl rfl

theorem announceFinishIfDone (h : s.Accounted) : s.announceFinishIfDone.Accounted := by
  unfold TalkbackSession.announceFinishIfDone
  split
  · next hdone =>
    refine ⟨h.flow, h.conserved, ?_⟩
    have hnot : s.announcedFinish = false := by
      simp only [done, Bool.and_eq_true, Bool.not_eq_true'] at hdone
      exact hdone.1.1
    have hnone := h.announced
    rw [hnot] at hnone
    simpa using hnone
  · exact h

theorem change (h : s.Accounted) {a : Event} (hchange : Change s a t) : t.Accounted := by
  cases hchange with
  | start opens _ =>
    unfold TalkbackSession.start
    split
    · exact h
    · exact ⟨h.flow, h.conserved, h.announced⟩
  | stop => exact h.stop
  | pushFrame => exact h.pushFrame _ _
  | tick takes _ => exact h.tick takes
  | announce _ hu _ =>
    obtain ⟨_, _, _, _, _, _, _, rfl⟩ := hu
    exact announceFinishIfDone ⟨h.flow, h.conserved, h.announced⟩
  | other _ ht =>
    obtain ⟨_, _, _, _, _, _, _, rfl⟩ := ht
    exact ⟨h.flow, h.conserved, h.announced⟩
  | elapse ms => exact ⟨h.flow, h.conserved, h.announced⟩

/-- Where nothing is queued and nothing was dropped, what was admitted was sent. -/
theorem filter_eq (h : s.Accounted) (p : TalkbackFrame → Bool) (hqueue : s.queue = [])
    (hdropped : s.dropped.countP p = 0) : s.admitted.filter p = s.sent.filter p := by
  have hflow := h.flow.filter p
  have hcount := h.conserved p
  rw [hqueue, List.append_nil] at hflow hcount
  refine (hflow.eq_of_length ?_).symm
  rw [← List.countP_eq_length_filter, ← List.countP_eq_length_filter, hcount, hdropped,
    Nat.add_zero]

/-- Where it was sent, nothing was dropped. -/
theorem dropped_eq_zero (h : s.Accounted) (p : TalkbackFrame → Bool)
    (hsent : s.admitted.filter p = s.sent.filter p) : s.dropped.countP p = 0 := by
  have hcount := h.conserved p
  have hlength := congrArg List.length hsent
  rw [← List.countP_eq_length_filter, ← List.countP_eq_length_filter] at hlength
  rw [List.countP_append] at hcount
  omega

end Accounted

/-! ## Truthful completion -/

section

variable {tails : Bool} {s t : TalkbackSession}

theorem Accounted.finished_eq_nil (h : s.Accounted) (hnot : s.announcedFinish = false) :
    s.finished = [] := by
  have hlength := h.announced
  rw [hnot] at hlength
  exact List.length_eq_zero_iff.mp hlength

theorem Accounted.finished_ne_nil (h : s.Accounted) (hannounced : s.announcedFinish = true) :
    s.finished ≠ [] := by
  intro hnil
  have hlength := h.announced
  rw [hannounced, hnil] at hlength
  cases hlength

namespace Truthful

theorem init (tails : Bool) (opts : TalkbackOptions) : Truthful tails { opts } where
  once := Nat.zero_le 1
  sent := nofun
  whole _ := rfl

theorem congr (h : s.Truthful tails) (hopts : t.opts = s.opts) (hfinished : t.finished = s.finished)
    (hadmitted : t.admitted = s.admitted) (hover : t.stoppedOver = s.stoppedOver) :
    t.Truthful tails where
  once := hfinished ▸ h.once
  sent sent hsent := hadmitted ▸ h.sent sent (hfinished ▸ hsent)
  whole hcut := by
    rw [CutShort, hover, hopts] at hcut
    exact hfinished ▸ h.whole hcut

theorem stop (h : s.Truthful tails) (hacc : s.Accounted)
    (hsettled : s.announcedFinish = true → s.stopped = false → s.Settled tails) :
    s.stop.Truthful tails := by
  unfold TalkbackSession.stop
  split
  · exact h
  · next hrunning =>
    refine ⟨h.once, h.sent, ?_⟩
    rintro ⟨_, hrest, hleft⟩
    obtain rfl := Option.some.inj hrest
    refine hacc.finished_eq_nil (Bool.eq_false_of_not_eq_true fun hannounced => ?_)
    obtain ⟨hqueue, hencoding⟩ := hsettled hannounced (Bool.eq_false_of_not_eq_true hrunning)
    rcases hleft with hqueued | hbusy
    · exact hqueued hqueue
    · exact absurd (hbusy.symm.trans hencoding) nofun

/-- A talkback that is stopped with something left is not truthful when it has announced. -/
theorem settled_of_stop (h : s.stop.Truthful tails) (hacc : s.Accounted)
    (hannounced : s.announcedFinish = true) (hrunning : s.stopped = false) : s.Settled tails := by
  rw [TalkbackSession.stop, hrunning, if_neg Bool.false_ne_true] at h
  have hwhole : ¬(s.queue ≠ [] ∨ encoding tails s.opts s.chain = true) := fun hleft =>
    hacc.finished_ne_nil hannounced (h.whole ⟨_, rfl, hleft⟩)
  obtain ⟨hqueue, hencoding⟩ := not_or.mp hwhole
  exact ⟨not_not.mp hqueue, Bool.eq_false_of_not_eq_true hencoding⟩

theorem pushFrame (h : s.Truthful tails) (hacc : s.Accounted) {f : TalkbackFrame}
    (batch : List TalkbackFrame)
    (hlate : s.announcedFinish = true → (admits f && counts tails f) = false) :
    (s.pushFrame (f :: batch)).Truthful tails := by
  rw [TalkbackSession.pushFrame]
  split
  · next hadmits =>
    refine ⟨h.once, fun sent hsent => ?_, h.whole⟩
    cases hannounced : s.announcedFinish with
    | false =>
      rw [hacc.finished_eq_nil hannounced] at hsent
      cases hsent
    | true =>
      have hother := hlate hannounced
      rw [hadmits, Bool.true_and] at hother
      show (s.admitted ++ [f]).filter (counts tails) = _
      rw [List.filter_append, List.filter_singleton, hother]
      exact (List.append_nil _).trans (h.sent sent hsent)
  · exact h.congr rfl rfl rfl rfl

/-- A frame that is admitted late is not one of those sent before. -/
theorem late_of_pushFrame {f : TalkbackFrame} {batch : List TalkbackFrame}
    (h : (s.pushFrame (f :: batch)).Truthful tails) (hbefore : s.Truthful tails) (hacc : s.Accounted)
    (hannounced : s.announcedFinish = true) : (admits f && counts tails f) = false := by
  refine Bool.eq_false_of_not_eq_true fun hboth => ?_
  obtain ⟨hadmits, hcounts⟩ := Bool.and_eq_true_iff.mp hboth
  obtain ⟨sent, hsent⟩ := List.exists_mem_of_ne_nil _ (hacc.finished_ne_nil hannounced)
  rw [TalkbackSession.pushFrame, if_pos hadmits] at h
  have hgrown := h.sent sent hsent
  rw [← hbefore.sent sent hsent, List.filter_append, List.filter_singleton, hcounts] at hgrown
  exact absurd (List.append_right_eq_self.mp hgrown) (List.cons_ne_nil f [])

theorem announceFinishIfDone (h : s.Truthful tails) (hacc : s.Accounted)
    (hdue : s.done = true → s.Undropped tails) : s.announceFinishIfDone.Truthful tails := by
  unfold TalkbackSession.announceFinishIfDone
  split
  · next hdone =>
    obtain ⟨hdropped, hwhole⟩ := hdue hdone
    simp only [done, Bool.and_eq_true, Bool.not_eq_true', List.isEmpty_iff] at hdone
    obtain ⟨⟨hnot, -⟩, hqueue⟩ := hdone
    have hnone := hacc.finished_eq_nil hnot
    refine ⟨by simp [hnone], fun sent hsent => ?_, fun hcut => absurd hcut hwhole⟩
    rw [hnone] at hsent
    rw [List.mem_singleton.mp hsent]
    exact hacc.filter_eq _ hqueue hdropped
  · exact h

/-- What `finished` says when it is emitted. -/
theorem undropped_of_announce (h : s.announceFinishIfDone.Truthful tails) (hacc : s.Accounted)
    (hdone : s.done = true) : s.Undropped tails := by
  rw [TalkbackSession.announceFinishIfDone, if_pos hdone] at h
  refine ⟨hacc.dropped_eq_zero _ (h.sent s.sent ?_), fun hcut => ?_⟩
  · exact List.mem_append_right _ List.mem_cons_self
  · exact absurd (h.whole hcut) (List.append_ne_nil_of_right_ne_nil _ (List.cons_ne_nil _ _))

/-- A tick of an idle talkback with nothing queued is a stop. -/
theorem tick_idle_iff (hidle : s.idle = true) (hqueue : s.queue = []) (hrunning : s.stopped = false)
    (takes : Option ℕ) : (s.tick takes).Truthful tails ↔ s.stop.Truthful tails := by
  have hopen : ¬s.stopped = true := by rw [hrunning]; exact Bool.false_ne_true
  have hstill : idle { s with nextDueAt := s.now + AAC_FRAME_MS } = true := hidle
  rw [TalkbackSession.tick, if_neg hopen, if_pos hqueue, idleCheck, if_pos hstill,
    TalkbackSession.stop, TalkbackSession.stop, if_neg hopen, if_neg hopen]
  exact ⟨fun h => h.congr rfl rfl rfl rfl, fun h => h.congr rfl rfl rfl rfl⟩

theorem tick (h : s.Truthful tails) (hacc : s.Accounted) {takes : Option ℕ}
    (hheeds : s.Heeds tails (.tick takes)) : (s.tick takes).Truthful tails := by
  cases hrunning : s.stopped with
  | true =>
    rw [TalkbackSession.tick, if_pos hrunning]
    exact h
  | false =>
    have hopen : ¬s.stopped = true := by rw [hrunning]; exact Bool.false_ne_true
    by_cases hqueue : s.queue = []
    · cases hidle : s.idle with
      | true =>
        exact (tick_idle_iff hidle hqueue hrunning takes).mpr
          (h.stop hacc fun hannounced => hheeds hannounced hqueue hidle)
      | false =>
        have hstill : ¬idle { s with nextDueAt := s.now + AAC_FRAME_MS } = true := by
          show ¬s.idle = true
          rw [hidle]
          exact Bool.false_ne_true
        rw [TalkbackSession.tick, if_neg hopen, if_pos hqueue, idleCheck, if_neg hstill]
        exact h.congr rfl rfl rfl rfl
    · rw [TalkbackSession.tick, if_neg hopen, if_neg hqueue]
      exact h.congr rfl rfl rfl rfl

/-- A step that heeds keeps completion truthful. -/
theorem change (h : s.Truthful tails) (hacc : s.Accounted) {a : Event} (hheeds : s.Heeds tails a)
    (hchange : Change s a t) : t.Truthful tails := by
  cases hchange with
  | start opens _ =>
    unfold TalkbackSession.start
    split
    · exact h
    · exact h.congr rfl rfl rfl rfl
  | stop => exact h.stop hacc hheeds
  | @pushFrame f batch hbatch =>
    exact h.pushFrame hacc batch fun hannounced => hheeds hannounced f (by rw [hbatch]; rfl)
  | tick takes _ => exact h.tick hacc hheeds
  | @announce _ u ha hu hended =>
    have hdue : s.done = true → s.Undropped tails := by
      cases a with
      | tickEnds => exact hheeds
      | begin => exact hheeds (of_decide_eq_true ha)
      | start _ | write _ | end_ | stop | pushFrame | tick _ | settle _ | elapse _ => cases ha
    obtain ⟨_, _, _, _, _, _, _, rfl⟩ := hu
    obtain rfl := hended
    exact announceFinishIfDone (h.congr rfl rfl rfl rfl) ⟨hacc.flow, hacc.conserved, hacc.announced⟩
      hdue
  | other _ ht =>
    obtain ⟨_, _, _, _, _, _, _, rfl⟩ := ht
    exact h.congr rfl rfl rfl rfl
  | elapse ms => exact h.congr rfl rfl rfl rfl

/-- A step behind which completion is truthful heeds. -/
theorem heeds (hafter : t.Truthful tails) (h : s.Truthful tails) (hacc : s.Accounted) {a : Event}
    (hstep : s.step a = some t) : s.Heeds tails a := by
  cases a with
  | tickEnds =>
    obtain ⟨-, ht⟩ := Option.ite_none_right_eq_some.mp hstep
    obtain rfl := Option.some.inj ht
    exact undropped_of_announce (s := { s with owes := false }) hafter
      ⟨hacc.flow, hacc.conserved, hacc.announced⟩
  | begin =>
    obtain ⟨-, ht⟩ := Option.ite_none_right_eq_some.mp hstep
    obtain rfl := Option.some.inj ht
    intro hhead hdone
    obtain ⟨chain, hchain⟩ := List.head?_eq_some_iff.mp hhead
    rw [hchain] at hafter
    exact undropped_of_announce (s := { s with chain }) hafter
      ⟨hacc.flow, hacc.conserved, hacc.announced⟩ hdone
  | pushFrame =>
    obtain ⟨-, ht⟩ := Option.ite_none_right_eq_some.mp hstep
    obtain rfl := Option.some.inj ht
    intro hannounced f hf
    obtain ⟨batch, hbatch⟩ := List.head?_eq_some_iff.mp hf
    rw [hbatch] at hafter
    exact hafter.late_of_pushFrame h hacc hannounced
  | stop =>
    obtain rfl := Option.some.inj hstep
    exact hafter.settled_of_stop hacc
  | tick takes =>
    obtain ⟨-, ht⟩ := Option.ite_none_right_eq_some.mp hstep
    obtain rfl := Option.some.inj ht
    intro hannounced hqueue hidle hrunning
    exact ((tick_idle_iff hidle hqueue hrunning takes).mp hafter).settled_of_stop hacc hannounced
      hrunning
  | start _ | write _ | end_ | settle _ | elapse _ => trivial

end Truthful

/-- **Talkback completion is truthful** in exactly the runs in which `finished` does not fall due
behind audio that was dropped or cut short, and no audio is left or comes when it has been emitted. -/
theorem truthful_iff_heeds {tails : Bool} {opts : TalkbackOptions} {events : List Event}
    (hrun : exec step { opts } events = some s) :
    StepsMeet step (Heeds tails) { opts } events ↔
      ∀ before behind t, events = before ++ behind → exec step { opts } before = some t →
        t.Truthful tails := by
  refine stepsMeet_iff_forall_prefix_within (J := fun s => s.Accounted ∧ s.Truthful tails) hrun
    ⟨.init opts, .init tails opts⟩ (fun _ h => h.2) ?_ ?_
  · rintro s a t ⟨hacc, h⟩ hheeds hstep
    have hchange := change_of_step hstep
    exact ⟨hacc.change hchange, h.change hacc hheeds hchange⟩
  · rintro s a t ⟨hacc, h⟩ hstep hnot hafter
    exact hnot (hafter.heeds h hacc hstep)

end

/-- A clip of one frame, stopped when it is complete. -/
def clipEvents : List Event :=
  [.start true, .write emptyFrame, .pushFrame, .end_, .begin, .begin, .elapse 64, .tick none, .tickEnds,
    .stop]

theorem truthful_iff_heeds_clip :
    ∃ s, exec step { opts := {} } clipEvents = some s ∧ s.finished = [[⟨emptyFrame, false⟩]] ∧
      ∀ before behind t, clipEvents = before ++ behind →
        exec step { opts := {} } before = some t → t.Truthful true := by
  have hrun : exec step { opts := {} } clipEvents = some _ := rfl
  exact ⟨_, hrun, by decide, (truthful_iff_heeds hrun).mp (by decide)⟩

/-- The same clip, stopped before its frame is due: the end of the chain finds the queue empty. -/
theorem stopped_clip_finishes :
    ∃ s, exec step { opts := {} }
        [.start true, .write emptyFrame, .pushFrame, .end_, .stop, .begin, .begin] = some s ∧
      s.sent = [] ∧ s.dropped = [⟨emptyFrame, false⟩] ∧ s.finished = [[]] ∧
      ∀ tails, ¬s.Truthful tails := by
  refine ⟨_, rfl, by decide, by decide, by decide, fun tails h => ?_⟩
  exact absurd (h.whole (by cases tails <;> decide)) (by decide)

end EufySdk.TalkbackSession
