import Mathlib.Tactic
import EufySdk.Lib.Machine
import EufySdk.Transport.P2p.TalkbackSession

/-!
# The pace of a talkback

A frame of audio plays for 64 ms. Whenever the ticks come and the audio arrives, no frame leaves
ahead of its time; and while there is audio, late ticks catch up with the clock.

- `sendDue_split`, `sendDue_nextDueAt`, `sendDue_stops` — the loop of a tick
- `Paced` — what every run keeps
- `Fed` — the steps of a talkback that is never short of audio
-/

namespace EufySdk.TalkbackSession

open Machine

theorem AAC_FRAME_MS_eq : AAC_FRAME_MS = 64 := rfl

/-! ## The loop of a tick -/

section

variable (now : ℕ)

/-- What the loop takes from the front of the queue it sends, but for a frame the session throws
on. -/
theorem sendDue_split (takes : Option ℕ) (due : ℕ) (queue : List TalkbackFrame) :
    let rest := sendDue now takes due queue
    queue = rest.sent ++ rest.thrown.toList ++ rest.queue := by
  induction queue generalizing takes due with
  | nil => rfl
  | cons f queue ih =>
    unfold sendDue
    split
    · rfl
    · split
      · rfl
      · exact congrArg (f :: ·) (ih _ _)

/-- The cursor advances with every frame that is taken. -/
theorem sendDue_nextDueAt (takes : Option ℕ) (due : ℕ) (queue : List TalkbackFrame) :
    let rest := sendDue now takes due queue
    rest.nextDueAt = due + 64 * (rest.sent.length + rest.thrown.toList.length) := by
  induction queue generalizing takes due with
  | nil => rfl
  | cons f queue ih =>
    unfold sendDue
    split
    · rfl
    · split
      · rfl
      · have hrest := ih (takes.map (· - 1)) (due + AAC_FRAME_MS)
        simp only [List.length_cons] at hrest ⊢
        rw [hrest, AAC_FRAME_MS_eq]
        ring

/-- A frame is sent when it is due. -/
theorem sendDue_due (takes : Option ℕ) (due : ℕ) (queue : List TalkbackFrame) {k : ℕ}
    (hk : k < (sendDue now takes due queue).sent.length) : due + 64 * k ≤ now := by
  induction queue generalizing takes due k with
  | nil => exact absurd hk (Nat.not_lt_zero k)
  | cons f queue ih =>
    unfold sendDue at hk
    split at hk
    · exact absurd hk (Nat.not_lt_zero k)
    · next hdue =>
      split at hk
      · exact absurd hk (Nat.not_lt_zero k)
      · cases k with
        | zero => exact Nat.not_lt.mp hdue
        | succ k =>
          have hrest := ih _ _ (Nat.lt_of_succ_lt_succ hk)
          rw [AAC_FRAME_MS_eq] at hrest
          omega

/-- The loop ends with the queue, or in front of a frame that is not due. -/
theorem sendDue_stops (takes : Option ℕ) (due : ℕ) (queue : List TalkbackFrame) :
    let rest := sendDue now takes due queue
    rest.thrown = none → rest.queue ≠ [] → now < rest.nextDueAt := by
  induction queue generalizing takes due with
  | nil => exact fun _ hqueue => absurd rfl hqueue
  | cons f queue ih =>
    unfold sendDue
    split
    · next hdue => exact fun _ _ => hdue
    · split
      · exact fun hthrown => absurd hthrown nofun
      · exact ih _ _

end

/-! ## Never ahead -/

/-- What every run keeps. -/
structure Paced (s : TalkbackSession) : Prop where
  begun : s.started = s.startedAt.isSome
  silent : s.startedAt = none → s.timer = false ∧ s.sent = []
  times : s.leftAt.length = s.sent.length
  due : ∀ start ∈ s.startedAt, start + 64 * (s.sent.length + 1) ≤ s.nextDueAt
  past : ∀ start ∈ s.startedAt, start + 64 * s.sent.length ≤ s.now
  left : ∀ start ∈ s.startedAt, ∀ k t, s.leftAt[k]? = some t → start + 64 * (k + 1) ≤ t

namespace Paced

variable {s t : TalkbackSession}

theorem init (opts : TalkbackOptions) : Paced { opts } where
  begun := rfl
  silent _ := ⟨rfl, rfl⟩
  times := rfl
  due := nofun
  past := nofun
  left := nofun

/-- What leaves the schedule and what was sent alone, and does not set the clock back. -/
theorem congr (h : s.Paced) (hstarted : t.started = s.started) (hstart : t.startedAt = s.startedAt)
    (htimer : t.timer = true → s.timer = true) (hnow : s.now ≤ t.now)
    (hdue : t.nextDueAt = s.nextDueAt) (hsent : t.sent = s.sent) (hleft : t.leftAt = s.leftAt) :
    t.Paced where
  begun := by rw [hstarted, hstart, h.begun]
  silent hnone := by
    obtain ⟨hno, hnothing⟩ := h.silent (hstart ▸ hnone)
    refine ⟨Bool.eq_false_of_not_eq_true fun hon => ?_, hsent.trans hnothing⟩
    rw [htimer hon] at hno
    cases hno
  times := by rw [hleft, hsent, h.times]
  due start hs := by
    rw [hsent, hdue]
    exact h.due start (hstart ▸ hs)
  past start hs := by
    rw [hsent]
    exact (h.past start (hstart ▸ hs)).trans hnow
  left start hs := by
    rw [hleft]
    exact h.left start (hstart ▸ hs)

theorem start (h : s.Paced) (opens : Bool) : (s.start opens).Paced := by
  unfold TalkbackSession.start
  split
  · exact h
  · next hnew =>
    have hoff : s.started = false := by
      rw [Bool.or_eq_true, not_or] at hnew
      exact Bool.eq_false_of_not_eq_true hnew.1
    have hnone : s.startedAt = none := by
      rw [h.begun] at hoff
      exact Option.isSome_eq_false_iff.mp hoff |> Option.isNone_iff_eq_none.mp
    obtain ⟨-, hnothing⟩ := h.silent hnone
    have hleft : s.leftAt = [] := by
      rw [← List.length_eq_zero_iff, h.times, hnothing, List.length_nil]
    exact
      { begun := rfl
        silent := nofun
        times := h.times
        due := fun start hs => by
          obtain rfl := Option.some.inj hs
          rw [hnothing, List.length_nil]
          exact le_refl _
        past := fun start hs => by
          obtain rfl := Option.some.inj hs
          rw [hnothing, List.length_nil]
          exact le_refl _
        left := fun start hs k t hk => by
          rw [hleft] at hk
          cases hk }

/-- What a loop sends is on time, and it leaves the cursor behind the frame after. -/
theorem loop (h : s.Paced) {start : ℕ} (hstart : s.startedAt = some start) (takes : Option ℕ)
    (hdue : t.nextDueAt = (sendDue s.now takes s.nextDueAt s.queue).nextDueAt)
    (hsent : t.sent = s.sent ++ (sendDue s.now takes s.nextDueAt s.queue).sent)
    (hleft : t.leftAt =
      s.leftAt ++ (sendDue s.now takes s.nextDueAt s.queue).sent.map fun _ => s.now)
    (hnow : t.now = s.now) (hstarted : t.started = s.started)
    (hstart' : t.startedAt = s.startedAt) : t.Paced := by
  have hcursor := sendDue_nextDueAt s.now takes s.nextDueAt s.queue
  have hontime := fun k => @sendDue_due s.now takes s.nextDueAt s.queue k
  generalize sendDue s.now takes s.nextDueAt s.queue = rest at *
  have hahead := h.due start hstart
  have hpast := h.past start hstart
  have hbehind : start + 64 * (s.sent.length + rest.sent.length) ≤ s.now := by
    rcases Nat.eq_zero_or_pos rest.sent.length with hnone | hsome
    · omega
    · have := hontime (rest.sent.length - 1) (by omega)
      omega
  refine ⟨by rw [hstarted, hstart', h.begun], fun hnone => ?_, ?_, ?_, ?_, ?_⟩
  · rw [hstart', hstart] at hnone
    cases hnone
  · rw [hleft, hsent, List.length_append, List.length_append, List.length_map, h.times]
  · rintro _ hs
    obtain rfl := Option.some.inj (hstart.symm.trans (hstart' ▸ hs))
    rw [hsent, List.length_append, hdue, hcursor]
    omega
  · rintro _ hs
    obtain rfl := Option.some.inj (hstart.symm.trans (hstart' ▸ hs))
    rwa [hsent, List.length_append, hnow]
  · rintro _ hs k time hk
    obtain rfl := Option.some.inj (hstart.symm.trans (hstart' ▸ hs))
    rw [hleft] at hk
    by_cases hold : k < s.leftAt.length
    · rw [List.getElem?_append_left hold] at hk
      exact h.left start hstart k time hk
    · rw [List.getElem?_append_right (Nat.not_lt.mp hold), List.getElem?_map] at hk
      obtain ⟨f, hf, rfl⟩ := Option.map_eq_some_iff.mp hk
      obtain ⟨hlt, -⟩ := List.getElem?_eq_some_iff.mp hf
      have htimes := h.times
      have := hontime _ hlt
      omega

theorem stop (h : s.Paced) : s.stop.Paced := by
  unfold TalkbackSession.stop
  split
  · exact h
  · exact h.congr rfl rfl nofun (le_refl _) rfl rfl rfl

theorem tick (h : s.Paced) (htimer : s.timer = true) (takes : Option ℕ) :
    (s.tick takes).Paced := by
  obtain ⟨start, hstart⟩ : ∃ start, s.startedAt = some start := by
    refine Option.ne_none_iff_exists'.mp fun hnone => ?_
    rw [(h.silent hnone).1] at htimer
    cases htimer
  unfold TalkbackSession.tick
  split
  · exact h
  · split
    · -- the cursor is set one frame ahead of the clock
      have hbased : Paced { s with nextDueAt := s.now + AAC_FRAME_MS } :=
        { h with
          due := fun start' hs => by
            have := h.past start' hs
            show start' + 64 * (s.sent.length + 1) ≤ s.now + AAC_FRAME_MS
            rw [AAC_FRAME_MS_eq]
            omega }
      have hchecked : (idleCheck { s with nextDueAt := s.now + AAC_FRAME_MS }).Paced := by
        unfold idleCheck
        split
        · exact hbased.stop
        · exact hbased
      exact hchecked.congr rfl rfl id (le_refl _) rfl rfl rfl
    · exact h.loop hstart takes rfl rfl rfl rfl rfl rfl

theorem announceFinishIfDone (h : s.Paced) : s.announceFinishIfDone.Paced := by
  unfold TalkbackSession.announceFinishIfDone
  split
  · exact h.congr rfl rfl id (le_refl _) rfl rfl rfl
  · exact h

theorem change (h : s.Paced) {a : Event} (hchange : Change s a t) : t.Paced := by
  cases hchange with
  | start opens _ => exact h.start opens
  | stop => exact h.stop
  | pushFrame =>
    rw [TalkbackSession.pushFrame]
    split <;> exact h.congr rfl rfl id (le_refl _) rfl rfl rfl
  | tick takes htimer => exact h.tick htimer takes
  | announce _ hu _ =>
    obtain ⟨_, _, _, _, _, _, _, rfl⟩ := hu
    exact announceFinishIfDone (h.congr rfl rfl id (le_refl _) rfl rfl rfl)
  | other _ ht =>
    obtain ⟨_, _, _, _, _, _, _, rfl⟩ := ht
    exact h.congr rfl rfl id (le_refl _) rfl rfl rfl
  | elapse ms => exact h.congr rfl rfl id (Nat.le_add_right _ _) rfl rfl rfl

theorem run {opts : TalkbackOptions} {events : List Event} (h : Run step { opts } events s) :
    s.Paced :=
  h.invariant (init opts) fun _ _ _ hs hstep => hs.change (change_of_step hstep)

end Paced

/-- Times that are each `d` behind the one before at least leave at most one for each `d`. -/
theorem countP_le_div {start d : ℕ} (hd : 0 < d) {times : List ℕ}
    (h : ∀ k t, times[k]? = some t → start + d * (k + 1) ≤ t) (now : ℕ) :
    times.countP (· ≤ now) ≤ (now - start) / d := by
  induction times using List.reverseRecOn with
  | nil => exact Nat.zero_le _
  | append_singleton times t ih =>
    have hbefore := ih fun k u hk =>
      h k u (by rw [List.getElem?_append_left (List.getElem?_eq_some_iff.mp hk).1, hk])
    rw [List.countP_append, List.countP_singleton]
    split
    · next hle =>
      have hlast := h times.length t (by rw [List.getElem?_append_right (le_refl _), Nat.sub_self]; rfl)
      have hroom : d * (times.length + 1) ≤ now - start := by
        have := of_decide_eq_true hle
        omega
      have hall : times.length + 1 ≤ (now - start) / d :=
        (Nat.le_div_iff_mul_le hd).mpr (by rwa [Nat.mul_comm])
      exact (Nat.succ_le_succ List.countP_le_length).trans hall
    · exact hbefore

/-! ## Never behind -/

/-- The talkback is never short of audio, and no send throws. -/
def Fed (s : TalkbackSession) : Event → Prop
  | .tick takes =>
    s.queue ≠ [] ∧ (s.tick takes).queue ≠ [] ∧ (s.tick takes).dropped = s.dropped
  | _ => True

instance (s : TalkbackSession) : (a : Event) → Decidable (s.Fed a)
  | .tick takes => inferInstanceAs (Decidable (s.queue ≠ [] ∧ (s.tick takes).queue ≠ [] ∧
      (s.tick takes).dropped = s.dropped))
  | .start _ | .write _ | .end_ | .stop | .pushFrame | .tickEnds | .begin | .settle _ | .elapse _ =>
    .isTrue trivial

/-- The cursor is where the clock puts the next frame. -/
def OnTime (s : TalkbackSession) : Prop :=
  ∀ start ∈ s.startedAt, s.nextDueAt = start + 64 * (s.sent.length + 1)

variable {s t : TalkbackSession}

/-- A fed tick leaves the cursor on time and ahead of the clock. -/
theorem OnTime.tick (h : s.OnTime) {takes : Option ℕ} (hfed : s.Fed (.tick takes))
    (hopen : s.stopped = false) :
    (s.tick takes).OnTime ∧ s.now < (s.tick takes).nextDueAt := by
  obtain ⟨hqueue, hmore, hdropped⟩ := hfed
  have htick : s.tick takes =
      { s with
        queue := (sendDue s.now takes s.nextDueAt s.queue).queue
        nextDueAt := (sendDue s.now takes s.nextDueAt s.queue).nextDueAt
        sent := s.sent ++ (sendDue s.now takes s.nextDueAt s.queue).sent
        leftAt := s.leftAt ++ (sendDue s.now takes s.nextDueAt s.queue).sent.map fun _ => s.now
        dropped := s.dropped ++ (sendDue s.now takes s.nextDueAt s.queue).thrown.toList
        owes := (sendDue s.now takes s.nextDueAt s.queue).thrown.isNone } := by
    rw [TalkbackSession.tick, hopen, if_neg Bool.false_ne_true, if_neg hqueue]
  rw [htick] at hmore hdropped ⊢
  have hcursor := sendDue_nextDueAt s.now takes s.nextDueAt s.queue
  have hstops := sendDue_stops s.now takes s.nextDueAt s.queue
  generalize sendDue s.now takes s.nextDueAt s.queue = rest at *
  have hthrown : rest.thrown = none := by
    have hnil : rest.thrown.toList = [] := List.append_right_eq_self.mp hdropped
    exact Option.toList_eq_nil_iff.mp hnil
  refine ⟨fun start hs => ?_, hstops hthrown hmore⟩
  have hbefore := h start hs
  dsimp only at hcursor
  rw [hthrown, Option.toList_none, List.length_nil] at hcursor
  show rest.nextDueAt = start + 64 * ((s.sent ++ rest.sent).length + 1)
  rw [hcursor, hbefore, List.length_append]
  ring

/-- What a run of fed ticks keeps. -/
structure Kept (s : TalkbackSession) : Prop where
  paced : s.Paced
  onTime : s.OnTime
  running : s.timer = true → s.stopped = false

namespace Kept

theorem init (opts : TalkbackOptions) : Kept { opts } where
  paced := .init opts
  onTime := nofun
  running _ := rfl

theorem change (h : s.Kept) {a : Event} (hfed : s.Fed a) (hchange : Change s a t) : t.Kept := by
  have hpaced := h.paced.change hchange
  cases hchange with
  | start opens hopen =>
    refine ⟨hpaced, ?_, fun _ => ?_⟩
    · -- nothing was sent before the start
      intro start hs
      have hpast := hpaced.past start hs
      unfold TalkbackSession.start at hs hpast ⊢
      split at hs
      · next hold =>
        rw [if_pos hold]
        exact h.onTime start hs
      · next hnew =>
        rw [if_neg hnew] at hpast ⊢
        obtain rfl := Option.some.inj hs
        have hnothing : s.sent.length = 0 := by
          dsimp only at hpast
          omega
        show s.now + AAC_FRAME_MS = s.now + 64 * (s.sent.length + 1)
        rw [hnothing, AAC_FRAME_MS_eq]
    · unfold TalkbackSession.start
      split <;> exact hopen
  | stop =>
    unfold TalkbackSession.stop at hpaced ⊢
    split
    · exact h
    · next hrunning =>
      rw [if_neg hrunning] at hpaced
      exact ⟨hpaced, h.onTime, nofun⟩
  | @pushFrame f batch _ =>
    cases hadmits : admits f with
    | false | true =>
      rw [TalkbackSession.pushFrame, hadmits] at hpaced ⊢
      exact ⟨hpaced, h.onTime, h.running⟩
  | tick takes htimer =>
    refine ⟨hpaced, (h.onTime.tick hfed (h.running htimer)).1, fun _ => ?_⟩
    rw [TalkbackSession.tick, h.running htimer, if_neg Bool.false_ne_true, if_neg hfed.1]
  | announce _ hu _ =>
    obtain ⟨_, _, _, _, _, _, _, rfl⟩ := hu
    refine ⟨hpaced, ?_, ?_⟩
    · unfold TalkbackSession.announceFinishIfDone
      split <;> exact h.onTime
    · unfold TalkbackSession.announceFinishIfDone
      split <;> exact h.running
  | other _ ht =>
    obtain ⟨_, _, _, _, _, _, _, rfl⟩ := ht
    exact ⟨hpaced, h.onTime, h.running⟩
  | elapse ms => exact ⟨hpaced, h.onTime, h.running⟩

end Kept

/-- Immediately behind a tick of a fed run, what was sent is what the clock says. -/
theorem sent_eq_div {opts : TalkbackOptions} {events : List Event} {takes : Option ℕ}
    (hrun : exec step { opts } events = some s) (hstep : s.step (.tick takes) = some t)
    (hfed : StepsMeet step Fed { opts } (events ++ [.tick takes])) :
    ∀ start ∈ t.startedAt, t.sent.length = (t.now - start) / 64 := by
  have hmeet : StepsMeet step (fun s a => s.Kept ∧ s.Fed a) { opts } (events ++ [.tick takes]) :=
    hfed.strengthen (Kept.init opts) (fun _ _ hkept hfed => ⟨hkept, hfed⟩)
      fun _ _ _ hkept hfed hstep => hkept.change hfed (change_of_step hstep)
  obtain ⟨hkept, hfedHere⟩ := hmeet.meets hrun
  obtain ⟨hguard, ht⟩ := Option.ite_none_right_eq_some.mp hstep
  obtain rfl := Option.some.inj ht
  have htimer := (Bool.and_eq_true_iff.mp hguard).1
  have hpaced := hkept.paced.tick htimer takes
  obtain ⟨hontime, hahead⟩ := hkept.onTime.tick hfedHere (hkept.running htimer)
  have hnow : (s.tick takes).now = s.now := by
    rw [TalkbackSession.tick, hkept.running htimer, if_neg Bool.false_ne_true, if_neg hfedHere.1]
  intro start hs
  have hpast := hpaced.past start hs
  rw [hontime start hs] at hahead
  rw [hnow] at hpast ⊢
  omega

/-- A frame without a payload. -/
def emptyFrame : Bytes.Buffer := [0xff, 0xf1, 0x60, 0x40, 0x00, 0xe0, 0x00]

/-- Four frames, a tick on time, and the time up to one that is late. -/
def lateEvents : List Event :=
  [.start true, .write (emptyFrame ++ emptyFrame ++ emptyFrame ++ emptyFrame), .pushFrame, .pushFrame,
    .pushFrame, .pushFrame, .elapse 64, .tick none, .tickEnds, .elapse 140]

end EufySdk.TalkbackSession
