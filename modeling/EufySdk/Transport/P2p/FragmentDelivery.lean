import Mathlib.Tactic
import EufySdk.Transport.P2p.FragmentRecording

/-!
# A fragment recording delivers each fragment once

In every run the fragments handed over and those queued are the fragments the muxer returned,
in order, with the flush tail behind them; the consumer is paused only while the queue is
full; an iterator that waits is woken by whatever there is for it; and a recording that has
ended has no consumer, unless the attach threw once the source had added one.

Main definitions:

- `Served` — the consumer of a recording that is held, or is not
- `Sound` — the invariant
- `Delivers` — what a recording's owner can rely on in a state
- `Whole` — a step in which no attach throws once the source has added its consumer
-/

namespace EufySdk.FragmentRecording

open SharedLiveSource

variable {β M F : Type*}

/-! ## The consumer -/

/-- An attached consumer is paused as long as it is held, and has no backlog otherwise. -/
def Served (held : Bool) (c : Consumer β) : Prop :=
  c.detached = false → c.paused = held ∧ (held = false → c.queue = [])

theorem served_detach (held : Bool) (c : Consumer β) : Served held c.detach := by
  intro hattached
  unfold Consumer.detach at hattached
  split at hattached
  · rename_i hdetached
    rw [hdetached] at hattached
    cases hattached
  · cases hattached

theorem detached_detach (c : Consumer β) : c.detach.detached = true := by
  unfold Consumer.detach
  split
  · assumption
  · rfl

theorem served_pause (c : Consumer β) : Served true c.pause := fun _ => ⟨rfl, nofun⟩

theorem dropBacklogPastBound_kept (maxQueue : ℕ) (c : Consumer β) :
    (c.dropBacklogPastBound maxQueue).detached = c.detached ∧
      (c.dropBacklogPastBound maxQueue).paused = c.paused ∧
      (c.queue = [] → (c.dropBacklogPastBound maxQueue).queue = []) := by
  unfold Consumer.dropBacklogPastBound
  split
  · exact ⟨rfl, rfl, fun _ => rfl⟩
  · exact ⟨rfl, rfl, id⟩

/-- What a consumer that is handed an item is behind it. -/
theorem flush_kept (c : Consumer β) (item : TimedMediaFrame β) :
    (c.flush item).detached = c.detached ∧ (c.flush item).paused = c.paused ∧
      (c.flush item).queue = c.queue := by
  unfold Consumer.flush
  split
  · split <;> exact ⟨rfl, rfl, rfl⟩
  · exact ⟨rfl, rfl, rfl⟩

theorem Served.of_kept {held : Bool} {c c' : Consumer β} (h : Served held c)
    (hdetached : c'.detached = c.detached) (hpaused : c'.paused = c.paused)
    (hqueue : c.queue = [] → c'.queue = []) : Served held c' := by
  intro hattached
  obtain ⟨hp, hq⟩ := h (hdetached ▸ hattached)
  exact ⟨hpaused.trans hp, fun hheld => hqueue (hq hheld)⟩

theorem Served.flush {held : Bool} {c : Consumer β} (h : Served held c)
    (item : TimedMediaFrame β) : Served held (c.flush item) := by
  obtain ⟨hdetached, hpaused, hqueue⟩ := flush_kept c item
  exact h.of_kept hdetached hpaused fun hempty => hqueue.trans hempty

theorem Served.accept {held : Bool} {c : Consumer β} (h : Served held c) (maxQueue : ℕ)
    (item : TimedMediaFrame β) :
    Served held (c.accept maxQueue item) ∧ (c.accept maxQueue item).detached = c.detached := by
  unfold Consumer.accept
  split
  · exact ⟨h.flush item, (flush_kept c item).1⟩
  · rename_i hbusy
    obtain ⟨hdetached, hpaused, -⟩ :=
      dropBacklogPastBound_kept maxQueue { c with queue := c.queue ++ [item] }
    refine ⟨fun hattached => ?_, hdetached⟩
    obtain ⟨hp, hq⟩ := h (hdetached ▸ hattached)
    -- an item is only queued behind a pause: without one there is no backlog
    have hheld : held = true := by
      by_contra hfree
      rw [Bool.not_eq_true] at hfree
      exact hbusy ⟨hp.trans hfree, by rw [hq hfree]; rfl⟩
    exact ⟨hpaused.trans hp, fun hfree => by rw [hheld] at hfree; cases hfree⟩

theorem Served.offer {held : Bool} {c : Consumer β} (h : Served held c) (maxQueue : ℕ)
    (item : TimedMediaFrame β) :
    Served held (c.offer maxQueue item) ∧ (c.offer maxQueue item).detached = c.detached := by
  have hoffered : Served held { c with offered := c.offered ++ [item] } := h
  unfold Consumer.offer
  split
  · exact ⟨h, rfl⟩
  · unfold Consumer.deliver
    split
    · split
      · exact ⟨h, rfl⟩
      · split
        · split
          · exact ⟨h, rfl⟩
          · exact Served.accept (c := { c with
              offered := c.offered ++ [_], awaitingKeyframe := false }) h maxQueue _
        · exact hoffered.accept maxQueue _
    · split
      · exact ⟨h, rfl⟩
      · exact hoffered.accept maxQueue _

/-! ## The invariant -/

variable {mux : FragmentMuxer β M F} {maxQueue : ℕ} {s : FragmentRecording β M F}

/-- What holds of a recording but for its waiting iterator. -/
structure Kept (mux : FragmentMuxer β M F) (s : FragmentRecording β M F) : Prop where
  ledger : s.yielded ++ s.queue = s.muxed ++ s.tail.toList
  tail : s.ended = false → s.tail = none
  failed : s.failure.isSome → s.ended = true ∧ s.tail = none
  held : s.held = true → MAX_PENDING_FRAGMENTS ≤ s.queue.length
  served : ∀ c, s.consumer = some c → Served s.held c ∧ (s.ended = false → c.detached = false) ∧
    (s.ended = true → c.detached = true)
  unattached : s.consumer = none → s.held = false
  before : s.settled = false → s.consumer = none
  wake : s.wake = true ↔ s.iterator = .waiting
  returned : s.iterator = .returned → s.queue = [] ∧ s.ended = true ∧ s.failure = none
  threw : ∀ e, s.iterator = .threw e → s.queue = [] ∧ s.failure = some e
  flushed : s.ended = true → s.failure = none → s.tail = mux.flush s.mux

/-- An iterator that waits has nothing to go on with. -/
def Idle (s : FragmentRecording β M F) : Prop :=
  s.iterator = .waiting → s.queue = [] ∧ s.ended = false

structure Sound (mux : FragmentMuxer β M F) (s : FragmentRecording β M F) : Prop
    extends Kept mux s where
  idle : s.Idle

def start (m : M) : FragmentRecording β M F := { mux := m }

theorem sound_start (m : M) : Sound mux (start m : FragmentRecording β M F) := by
  refine ⟨⟨rfl, fun _ => rfl, nofun, nofun, nofun, fun _ => rfl, fun _ => rfl, ?_, nofun, nofun,
    nofun⟩, nofun⟩
  exact ⟨nofun, nofun⟩

/-! ## What each operation keeps -/

/-- No operation but the attach adds a stray consumer or settles the source, takes the
consumer away, or has the iterator wait. -/
structure Goes (s t : FragmentRecording β M F) : Prop where
  stray : t.stray = s.stray
  settled : t.settled = s.settled
  consumer : s.consumer.isSome = true → t.consumer.isSome = true
  wake : s.wake = false → t.wake = false

theorem Goes.refl (s : FragmentRecording β M F) : Goes s s := ⟨rfl, rfl, id, id⟩

theorem Goes.trans {s t u : FragmentRecording β M F} (h : Goes s t) (h' : Goes t u) :
    Goes s u :=
  ⟨h'.stray.trans h.stray, h'.settled.trans h.settled, h'.consumer ∘ h.consumer,
    h'.wake ∘ h.wake⟩

theorem goes_nudge (s : FragmentRecording β M F) : Goes s s.nudge := by
  unfold nudge
  split
  · exact ⟨rfl, rfl, id, fun _ => rfl⟩
  · exact .refl s

/-- Whatever it did before, an iterator that is nudged does not wait. -/
theorem Kept.nudge (h : Kept mux s) : Sound mux s.nudge := by
  unfold FragmentRecording.nudge
  split
  · exact ⟨⟨h.ledger, h.tail, h.failed, h.held, h.served, h.unattached, h.before,
      ⟨nofun, nofun⟩, nofun, nofun, h.flushed⟩, nofun⟩
  · rename_i hawake
    exact ⟨h, fun hwaiting => absurd (h.wake.mpr hwaiting) hawake⟩

theorem goes_end {t : FragmentRecording β M F} (hstray : t.stray = s.stray)
    (hsettled : t.settled = s.settled) (hconsumer : t.consumer = s.consumer.map Consumer.detach)
    (hwake : t.wake = s.wake) : Goes s t.nudge := by
  refine Goes.trans ⟨hstray, hsettled, fun hsome => ?_, fun hawake => hwake.trans hawake⟩
    (goes_nudge t)
  rw [hconsumer, Option.isSome_map]
  exact hsome

/-- The recording ends: its consumer is detached. -/
theorem Kept.ended {t : FragmentRecording β M F} (h : Kept mux s) (hopen : s.ended = false)
    (hledger : t.yielded ++ t.queue = t.muxed ++ t.tail.toList)
    (hfailed : t.failure.isSome = true → t.tail = none) (hended : t.ended = true)
    (hlength : s.queue.length ≤ t.queue.length)
    (hconsumer : t.consumer = s.consumer.map Consumer.detach) (hheld : t.held = s.held)
    (hsettled : t.settled = s.settled) (hwake : t.wake = s.wake)
    (hiterator : t.iterator = s.iterator)
    (hflushed : t.failure = none → t.tail = mux.flush t.mux) : Kept mux t where
  ledger := hledger
  tail hend := by rw [hended] at hend; cases hend
  failed hsome := ⟨hended, hfailed hsome⟩
  held hhold := (h.held (hheld ▸ hhold)).trans hlength
  served c hc := by
    rw [hconsumer, Option.map_eq_some_iff] at hc
    obtain ⟨c₀, -, rfl⟩ := hc
    exact ⟨served_detach _ c₀, fun hend => (by rw [hended] at hend; cases hend),
      fun _ => detached_detach c₀⟩
  unattached hnone := by
    rw [hconsumer, Option.map_eq_none_iff] at hnone
    exact hheld.trans (h.unattached hnone)
  before hunsettled := by
    rw [hconsumer, h.before (hsettled ▸ hunsettled)]
    rfl
  wake := by
    rw [hwake, hiterator]
    exact h.wake
  returned hreturned := by
    have hbefore := (h.returned (hiterator ▸ hreturned)).2.1
    rw [hopen] at hbefore
    cases hbefore
  threw e hthrew := by
    have hfailure := (h.threw e (hiterator ▸ hthrew)).2
    have hbefore := (h.failed (by rw [hfailure]; rfl)).1
    rw [hopen] at hbefore
    cases hbefore
  flushed _ := hflushed

theorem goes_stop (s : FragmentRecording β M F) : Goes s (s.stop mux) := by
  unfold FragmentRecording.stop
  split
  · exact .refl s
  · exact goes_end rfl rfl rfl rfl

theorem goes_fail (s : FragmentRecording β M F) (error : String) : Goes s (s.fail error) := by
  unfold FragmentRecording.fail
  split
  · exact .refl s
  · exact goes_end rfl rfl rfl rfl

theorem fail_ended (s : FragmentRecording β M F) (error : String) :
    (s.fail error).ended = true := by
  unfold FragmentRecording.fail
  split
  · assumption
  · unfold FragmentRecording.nudge
    split <;> rfl

theorem Sound.stop (h : Sound mux s) : Sound mux (s.stop mux) := by
  unfold FragmentRecording.stop
  split
  · exact h
  · rename_i hopen
    rw [Bool.not_eq_true] at hopen
    refine (h.toKept.ended (t := { s with
        queue := s.queue ++ (mux.flush s.mux).toList
        tail := mux.flush s.mux
        ended := true
        consumer := s.consumer.map Consumer.detach }) hopen ?_ ?_ rfl (by simp) rfl rfl rfl rfl
      rfl fun _ => rfl).nudge
    · have hledger := h.ledger
      rw [h.tail hopen, Option.toList_none, List.append_nil] at hledger
      rw [← List.append_assoc, hledger]
    · intro hsome
      rw [(h.failed hsome).1] at hopen
      cases hopen

theorem Sound.fail (h : Sound mux s) (error : String) : Sound mux (s.fail error) := by
  unfold FragmentRecording.fail
  split
  · exact h
  · rename_i hopen
    rw [Bool.not_eq_true] at hopen
    exact (h.toKept.ended (t := { s with
        failure := error
        ended := true
        consumer := s.consumer.map Consumer.detach }) hopen h.ledger (fun _ => h.tail hopen) rfl
      le_rfl rfl rfl rfl rfl rfl nofun).nudge

theorem goes_hold (s : FragmentRecording β M F) : Goes s s.hold := by
  unfold FragmentRecording.hold
  split
  · exact ⟨rfl, rfl, fun hsome => by rw [Option.isSome_map]; exact hsome, id⟩
  · exact .refl s

/-- The consumer is paused when the queue is full. -/
theorem Kept.hold (h : Kept mux s) (hsome : s.consumer.isSome = true) : Kept mux s.hold := by
  unfold FragmentRecording.hold
  split
  · rename_i hfull
    refine ⟨h.ledger, h.tail, h.failed, fun _ => hfull.2, ?_, ?_, ?_, h.wake, h.returned,
      h.threw, h.flushed⟩
    · intro c hc
      obtain ⟨c₀, hc₀, rfl⟩ := Option.map_eq_some_iff.mp hc
      exact ⟨served_pause c₀, (h.served c₀ hc₀).2⟩
    · intro hnone
      rw [Option.map_eq_none_iff.mp hnone] at hsome
      cases hsome
    · intro hunsettled
      exact Option.map_eq_none_iff.mpr (h.before hunsettled)
  · exact h

/-- The muxer returned a fragment, or none. -/
theorem Kept.push (h : Kept mux s) (hopen : s.ended = false) (m : M) (fragment : Option F) :
    Kept mux { s with
      mux := m
      queue := s.queue ++ fragment.toList
      muxed := s.muxed ++ fragment.toList } where
  ledger := by
    have hledger := h.ledger
    rw [h.tail hopen, Option.toList_none, List.append_nil] at hledger
    change s.yielded ++ (s.queue ++ fragment.toList) =
      s.muxed ++ fragment.toList ++ s.tail.toList
    rw [h.tail hopen, Option.toList_none, List.append_nil, ← List.append_assoc, hledger]
  tail := h.tail
  failed := h.failed
  held hheld := (h.held hheld).trans (by simp)
  served := h.served
  unattached := h.unattached
  before := h.before
  wake := h.wake
  returned hreturned := by
    have hended := (h.returned hreturned).2.1
    rw [hopen] at hended
    cases hended
  threw e hthrew := by
    have hended := (h.failed (by rw [(h.threw e hthrew).2]; rfl)).1
    rw [hopen] at hended
    cases hended
  flushed hended := by
    rw [show s.ended = true from hended] at hopen
    cases hopen

theorem goes_ingest (s : FragmentRecording β M F) (item : TimedMediaFrame β) :
    Goes s (s.ingest mux item) := by
  unfold FragmentRecording.ingest
  split
  · exact .refl s
  · split
    · exact goes_fail s _
    · rename_i m fragment _
      have hpush : Goes s { s with
          mux := m
          queue := s.queue ++ fragment.toList
          muxed := s.muxed ++ fragment.toList } := ⟨rfl, rfl, id, id⟩
      exact hpush.trans ((goes_hold _).trans (goes_nudge _))

theorem Sound.ingest (h : Sound mux s) (hsome : s.consumer.isSome = true)
    (item : TimedMediaFrame β) : Sound mux (s.ingest mux item) := by
  unfold FragmentRecording.ingest
  split
  · exact h
  · rename_i hopen
    rw [Bool.not_eq_true] at hopen
    split
    · exact h.fail _
    · exact ((h.toKept.push hopen _ _).hold hsome).nudge

/-- The consumer as it is behind an item or a retained backlog. -/
theorem Sound.consumer {c c' : Consumer β} (h : Sound mux s) (hc : s.consumer = some c)
    (hserved : Served s.held c') (hdetached : c'.detached = c.detached) :
    Sound mux { s with consumer := some c' } := by
  obtain ⟨-, hattached, hend⟩ := h.served c hc
  refine ⟨⟨h.ledger, h.tail, h.failed, h.held, ?_, nofun, ?_, h.wake, h.returned, h.threw,
    h.flushed⟩, h.idle⟩
  · intro c₀ hc₀
    obtain rfl := Option.some.inj hc₀
    exact ⟨hserved, fun hopen => hdetached.trans (hattached hopen),
      fun hended => hdetached.trans (hend hended)⟩
  · intro hunsettled
    rw [h.before hunsettled] at hc
    cases hc

theorem goes_consumer (s : FragmentRecording β M F) (c : Consumer β) :
    Goes s { s with consumer := some c } := ⟨rfl, rfl, fun _ => rfl, id⟩

theorem goes_drain (items : List (TimedMediaFrame β)) (s : FragmentRecording β M F) :
    Goes s (s.drain mux maxQueue items) := by
  induction items generalizing s with
  | nil => exact .refl s
  | cons item rest ih =>
    unfold FragmentRecording.drain
    split
    · exact .refl s
    · split
      · exact .refl s
      · split
        · exact goes_consumer s _
        · exact (goes_consumer s _).trans ((goes_ingest _ item).trans (ih _))

/-- What the loop of `resume` keeps: it is left detached, paused with what remains, or with
nothing left. -/
theorem Sound.drain (h : Sound mux s) (items : List (TimedMediaFrame β)) :
    Sound mux (s.drain mux maxQueue items) := by
  induction items generalizing s with
  | nil => exact h
  | cons item rest ih =>
    unfold FragmentRecording.drain
    split
    · exact h
    · rename_i c hc
      have hserved := (h.served c hc).1
      split
      · exact h
      · split
        · rename_i hpaused
          obtain ⟨hdetached, hpause, -⟩ := dropBacklogPastBound_kept maxQueue
            { c with queue := if 0 < c.queue.length then item :: rest ++ c.queue else item :: rest }
          refine h.consumer hc (fun hattached => ?_) hdetached
          have hheld := (hserved (hdetached ▸ hattached)).1
          exact ⟨hpause.trans hheld, fun hfree => by rw [hfree, hpaused] at hheld; cases hheld⟩
        · exact ih ((h.consumer hc (hserved.flush item) (flush_kept c item).1).ingest rfl item)

theorem goes_resume (s : FragmentRecording β M F) : Goes s (s.resume mux maxQueue) := by
  unfold FragmentRecording.resume
  split
  · exact .refl s
  · split
    · exact .refl s
    · exact (goes_consumer s _).trans (goes_drain _ _)

theorem goes_take (s : FragmentRecording β M F) : Goes s (s.take mux maxQueue) := by
  unfold FragmentRecording.take
  split
  · exact .refl s
  · rename_i fragment rest _
    have hshift : Goes s { s with queue := rest, yielded := s.yielded ++ [fragment] } :=
      ⟨rfl, rfl, id, id⟩
    dsimp only
    split
    · have hrelease : Goes s { s with
          queue := rest
          yielded := s.yielded ++ [fragment]
          held := false } := ⟨rfl, rfl, id, id⟩
      exact hrelease.trans (goes_resume _)
    · exact hshift

/-- The next fragment is handed over: the recording is held as `held` says, and the consumer
is `consumer`. -/
theorem Kept.shift {fragment : F} {rest : List F} {held : Bool} {consumer : Option (Consumer β)}
    (h : Kept mux s) (hqueue : s.queue = fragment :: rest)
    (hheld : held = true → MAX_PENDING_FRAGMENTS ≤ rest.length)
    (hserved : ∀ c, consumer = some c → Served held c ∧
      ∃ c₀, s.consumer = some c₀ ∧ c.detached = c₀.detached)
    (hnone : consumer = none → held = false) :
    Kept mux { s with
      queue := rest
      yielded := s.yielded ++ [fragment]
      held := held
      consumer := consumer } where
  ledger := by
    have hledger := h.ledger
    rw [hqueue] at hledger
    rw [← hledger, List.append_assoc]
    rfl
  tail := h.tail
  failed := h.failed
  held := hheld
  served c hc := by
    obtain ⟨hserves, c₀, hc₀, hdetached⟩ := hserved c hc
    rw [hdetached]
    exact ⟨hserves, (h.served c₀ hc₀).2⟩
  unattached := hnone
  before hunsettled := by
    by_contra hsome
    obtain ⟨c, hc⟩ := Option.ne_none_iff_exists'.mp hsome
    obtain ⟨-, c₀, hc₀, -⟩ := hserved c hc
    rw [h.before hunsettled] at hc₀
    cases hc₀
  wake := h.wake
  returned hreturned := by
    have hempty := (h.returned hreturned).1
    rw [hqueue] at hempty
    cases hempty
  threw e hthrew := by
    have hempty := (h.threw e hthrew).1
    rw [hqueue] at hempty
    cases hempty
  flushed := h.flushed

/-- **Handing over.** What a resume delivers on the way is ingested into a queue that is
short enough. -/
theorem Sound.take (h : Sound mux s) (hawake : s.wake = false) :
    Sound mux (s.take mux maxQueue) := by
  have hrunning : s.iterator ≠ .waiting := fun hwaiting => by
    rw [h.wake.mpr hwaiting] at hawake
    cases hawake
  unfold FragmentRecording.take
  split
  · exact h
  · rename_i fragment rest hqueue
    dsimp only
    split
    · rename_i hshort
      unfold FragmentRecording.resume
      split
      · rename_i hnone
        have hnone : s.consumer = none := hnone
        rw [h.unattached hnone] at hshort
        cases hshort.1
      · rename_i c hc
        have hc : s.consumer = some c := hc
        split
        · rename_i hdetached
          refine ⟨h.toKept.shift hqueue nofun ?_ fun _ => rfl, fun hw => absurd hw hrunning⟩
          intro c₀ hc₀
          obtain rfl := Option.some.inj (hc.symm.trans hc₀)
          refine ⟨fun hattached => ?_, c, hc, rfl⟩
          rw [hdetached] at hattached
          cases hattached
        · rename_i hattached
          have hfree : Served false { c with paused := false, queue := [] } :=
            fun _ => ⟨rfl, fun _ => rfl⟩
          have hreleased : Sound mux { s with
              queue := rest
              yielded := s.yielded ++ [fragment]
              held := false
              consumer := some { c with paused := false, queue := [] } } := by
            refine ⟨h.toKept.shift hqueue nofun ?_ nofun, fun hw => absurd hw hrunning⟩
            intro c₀ hc₀
            obtain rfl := Option.some.inj hc₀
            exact ⟨hfree, c, hc, rfl⟩
          exact hreleased.drain c.queue
    · rename_i hlong
      have hfull : s.held = true → MAX_PENDING_FRAGMENTS ≤ rest.length := fun hheld =>
        not_lt.mp fun hlt => hlong ⟨hheld, hlt⟩
      exact ⟨h.toKept.shift hqueue hfull (fun c hc => ⟨(h.served c hc).1, c, hc, rfl⟩)
        h.unattached, fun hw => absurd hw hrunning⟩

/-- The iterator is suspended elsewhere, or left. -/
theorem Kept.suspend (h : Kept mux s) (hawake : s.wake = false) {i : FragmentIterator}
    (hwaiting : i ≠ .waiting) (hreturned : i ≠ .returned) (hthrew : ∀ e, i ≠ .threw e) :
    Sound mux { s with iterator := i } := by
  refine ⟨⟨h.ledger, h.tail, h.failed, h.held, h.served, h.unattached, h.before, ?_,
    fun hi => absurd hi hreturned, fun e hi => absurd hi (hthrew e), h.flushed⟩,
    fun hi => absurd hi hwaiting⟩
  change s.wake = true ↔ i = .waiting
  rw [hawake]
  exact ⟨nofun, fun hi => absurd hi hwaiting⟩

theorem stop_of_ended (hended : s.ended = true) : s.stop mux = s := if_pos hended

/-- A turn hands over a fragment, ends the iterator as the recording ended, or waits. -/
theorem Sound.turn (h : Sound mux s) (hawake : s.wake = false) : Sound mux (s.turn mux maxQueue) := by
  unfold FragmentRecording.turn
  split
  · exact (h.take hawake).toKept.suspend ((goes_take s).wake hawake) nofun nofun nofun
  · rename_i hempty
    have hqueue : s.queue = [] := List.eq_nil_of_length_eq_zero (Nat.eq_zero_of_not_pos hempty)
    split
    · rename_i error hfailure
      obtain ⟨hended, -⟩ := h.failed (by rw [hfailure]; rfl)
      rw [stop_of_ended hended]
      refine ⟨⟨h.ledger, h.tail, h.failed, h.held, h.served, h.unattached, h.before, ?_, nofun,
        fun e he => ?_, h.flushed⟩, nofun⟩
      · exact ⟨fun hwake => (by rw [hawake] at hwake; cases hwake), nofun⟩
      · cases he
        exact ⟨hqueue, hfailure⟩
    · rename_i hfailure
      split
      · rename_i hended
        rw [stop_of_ended hended]
        refine ⟨⟨h.ledger, h.tail, h.failed, h.held, h.served, h.unattached, h.before, ?_,
          fun _ => ⟨hqueue, hended, hfailure⟩, nofun, h.flushed⟩, nofun⟩
        exact ⟨fun hwake => (by rw [hawake] at hwake; cases hwake), nofun⟩
      · rename_i hopen
        exact ⟨⟨h.ledger, h.tail, h.failed, h.held, h.served, h.unattached, h.before,
          ⟨fun _ => rfl, fun _ => rfl⟩, nofun, nofun, h.flushed⟩,
          fun _ => ⟨hqueue, (Bool.not_eq_true _).mp hopen⟩⟩

theorem Sound.ingestAll (h : Sound mux s) (hsome : s.consumer.isSome = true)
    (items : List (TimedMediaFrame β)) : Sound mux (items.foldl (FragmentRecording.ingest mux) s) := by
  induction items generalizing s with
  | nil => exact h
  | cons item items ih => exact ih (h.ingest hsome item) ((goes_ingest s item).consumer hsome)

theorem goes_ingestAll (items : List (TimedMediaFrame β)) (s : FragmentRecording β M F) :
    Goes s (items.foldl (ingest mux) s) := by
  induction items generalizing s with
  | nil => exact .refl s
  | cons item items ih => exact (goes_ingest s item).trans (ih _)

theorem Sound.settle (h : Sound mux s) (stray : Bool) :
    Sound mux { s with settled := true, stray := stray } :=
  ⟨⟨h.ledger, h.tail, h.failed, h.held, h.served, h.unattached, nofun, h.wake, h.returned,
    h.threw, h.flushed⟩, h.idle⟩

theorem Sound.attach (h : Sound mux s) (hpending : s.settled = false) (o : Options) (source : Pull)
    (fault : Option Fault) (buffered : List (TimedMediaFrame β)) :
    Sound mux (s.attach mux o source fault buffered) := by
  unfold FragmentRecording.attach
  split
  · exact h.settle s.stray
  · rename_i hopen
    rw [Bool.not_eq_true] at hopen
    split
    · refine Sound.ingestAll ?_ rfl buffered
      have hfree := h.unattached (h.before hpending)
      refine ⟨⟨h.ledger, h.tail, h.failed, h.held, ?_, nofun, nofun, h.wake, h.returned,
        h.threw, h.flushed⟩, h.idle⟩
      intro c hc
      obtain rfl := Option.some.inj hc
      refine ⟨fun _ => ⟨hfree.symm, fun _ => rfl⟩, fun _ => rfl, fun hended => ?_⟩
      rw [show s.ended = true from hended] at hopen
      cases hopen
    · exact (h.settle _).fail _

theorem goes_offer (s : FragmentRecording β M F) (item : TimedMediaFrame β) :
    Goes s (s.offer mux maxQueue item) := by
  unfold FragmentRecording.offer
  split
  · exact .refl s
  · dsimp only
    split
    · exact (goes_consumer s _).trans (goes_ingest _ item)
    · exact goes_consumer s _

theorem Sound.offer (h : Sound mux s) (item : TimedMediaFrame β) :
    Sound mux (s.offer mux maxQueue item) := by
  unfold FragmentRecording.offer
  split
  · exact h
  · rename_i c hc
    obtain ⟨hserved, hdetached⟩ := (h.served c hc).1.offer maxQueue item
    have hoffered := h.consumer hc hserved hdetached
    dsimp only
    split
    · exact hoffered.ingest rfl item
    · exact hoffered

theorem Sound.awake (h : Sound mux s) (hrunning : s.iterator ≠ .waiting) : s.wake = false := by
  by_contra hwake
  exact hrunning (h.wake.mp (by simpa using hwake))

/-- **What one step keeps.** -/
theorem Sound.act (h : Sound mux s) {label : Label β} (hcan : s.can label = true) :
    Sound mux (s.act mux maxQueue label) := by
  cases label with
  | sourceResolves o source fault buffered =>
    exact h.attach (by simpa [can] using hcan) o source fault buffered
  | sourceRejects error => exact (h.settle s.stray).fail error
  | offer item => exact h.offer item
  | upstreamStop => exact h.stop
  | upstreamError error => exact h.fail error
  | stop => exact h.stop
  | pull =>
    simp only [can, Bool.or_eq_true, decide_eq_true_eq] at hcan
    have hawake := h.awake (by rcases hcan with hi | hi <;> rw [hi] <;> decide)
    simp only [FragmentRecording.act]
    split
    · exact h.toKept.suspend hawake nofun nofun nofun
    · exact h.turn hawake
  | ready =>
    simp only [can, Bool.and_eq_true, decide_eq_true_eq] at hcan
    exact h.turn (h.awake (by rw [hcan.1]; decide))
  | wakes =>
    simp only [can, decide_eq_true_eq] at hcan
    exact h.turn (h.awake (by rw [hcan]; decide))
  | leave =>
    simp only [can, decide_eq_true_eq] at hcan
    have hawake := h.awake (by rw [hcan]; decide)
    exact h.stop.toKept.suspend ((goes_stop s).wake hawake) nofun nofun nofun

/-! ## Stray consumers -/

/-- No attach throws once the source has added its consumer. -/
def Whole (s : FragmentRecording β M F) : Label β → Prop
  | .sourceResolves _ source fault _ =>
    s.ended = true ∨ source.disposed = true ∨ source.stream = true ∨ fault = none
  | _ => True

theorem goes_turn (s : FragmentRecording β M F) : (s.turn mux maxQueue).stray = s.stray := by
  unfold FragmentRecording.turn
  split
  · exact (goes_take s).stray
  · split
    · exact (goes_stop s).stray
    · split
      · exact (goes_stop s).stray
      · rfl

theorem attachConsumer_whole {o : Options} {source : Pull} {fault : Option Fault}
    {after : Pull} {message : String}
    (hwhole : source.disposed = true ∨ source.stream = true ∨ fault = none)
    (hthrown : source.attachConsumer o fault = ⟨after, some message⟩) : after = source := by
  unfold Pull.attachConsumer at hthrown
  split at hthrown
  · exact (congrArg Outcome.state hthrown).symm
  · rename_i hopen
    split at hthrown
    · cases congrArg Outcome.thrown hthrown
    · rename_i hnone
      rw [Pull.join_stream] at hnone
      obtain rfl := (hwhole.resolve_left hopen).resolve_left hnone
      cases congrArg Outcome.thrown hthrown

theorem act_stray {label : Label β} (hwhole : s.Whole label) (hnone : s.stray = false) :
    (s.act mux maxQueue label).stray = false := by
  cases label with
  | sourceResolves o source fault buffered =>
    simp only [FragmentRecording.act, FragmentRecording.attach]
    split
    · exact hnone
    · rename_i hopen
      split
      · exact (goes_ingestAll buffered _).stray.trans hnone
      · rename_i after message hthrown
        obtain rfl := attachConsumer_whole (hwhole.resolve_left hopen) hthrown
        exact (goes_fail _ message).stray.trans (by simp)
  | sourceRejects error => exact (goes_fail _ error).stray.trans hnone
  | offer item => exact (goes_offer s item).stray.trans hnone
  | upstreamStop => exact (goes_stop s).stray.trans hnone
  | upstreamError error => exact (goes_fail s error).stray.trans hnone
  | stop => exact (goes_stop s).stray.trans hnone
  | pull =>
    simp only [FragmentRecording.act]
    split
    · exact hnone
    · exact (goes_turn s).trans hnone
  | ready => exact (goes_turn s).trans hnone
  | wakes => exact (goes_turn s).trans hnone
  | leave => exact (goes_stop s).stray.trans hnone

/-- An attach that throws once its consumer is added ends the recording and leaves the
consumer behind. -/
theorem act_not_whole (mux : FragmentMuxer β M F) (maxQueue : ℕ) {label : Label β} (hwhole : ¬s.Whole label) :
    (s.act mux maxQueue label).ended = true ∧ (s.act mux maxQueue label).settled = true ∧
      (s.act mux maxQueue label).stray = true := by
  cases label with
  | sourceResolves o source fault buffered =>
    simp only [Whole, not_or, Bool.not_eq_true] at hwhole
    obtain ⟨hopen, hundisposed, hstream, hfault⟩ := hwhole
    obtain ⟨f, rfl⟩ := Option.ne_none_iff_exists'.mp hfault
    obtain ⟨hthrown, hjoins⟩ := Pull.attachConsumer_fails (o := o) hundisposed hstream f
    rw [act, attach, if_neg (by rw [hopen]; exact Bool.false_ne_true)]
    split
    · rename_i hok
      rw [hok] at hthrown
      cases hthrown
    · rename_i after message hfails
      have hmore : source.consumers < after.consumers := by
        have hconsumers := hjoins.consumers
        rw [hfails] at hconsumers
        exact hconsumers ▸ Nat.lt_succ_self _
      have hgoes := goes_fail { s with
        settled := true
        stray := decide (source.consumers < after.consumers) } message
      exact ⟨fail_ended _ message, hgoes.settled, hgoes.stray.trans (decide_eq_true hmore)⟩
  | _ => exact absurd trivial hwhole

/-! ## The end of the iterator -/

/-- The iterator has returned or thrown. -/
def Done (s : FragmentRecording β M F) : Prop :=
  s.iterator = .returned ∨ ∃ e, s.iterator = .threw e

/-- The steps of the iterator and of its owner's `next`. -/
def Label.own : Label β → Bool
  | .pull | .ready | .wakes => true
  | _ => false

theorem take_ended (maxQueue : ℕ) {fragment : F} {rest : List F} (h : Sound mux s) (hended : s.ended = true)
    (hqueue : s.queue = fragment :: rest) :
    (s.take mux maxQueue).queue = rest ∧ (s.take mux maxQueue).ended = true := by
  unfold FragmentRecording.take
  rw [hqueue]
  dsimp only
  split
  · unfold FragmentRecording.resume
    split
    · exact ⟨rfl, hended⟩
    · rename_i c hc
      rw [if_pos ((h.served c hc).2.2 hended)]
      exact ⟨rfl, hended⟩
  · exact ⟨rfl, hended⟩

/-- A turn of a recording that has ended hands over what is queued, or is the last one. -/
theorem turn_ended (maxQueue : ℕ) (h : Sound mux s) (hended : s.ended = true) :
    (s.queue = [] → (s.turn mux maxQueue).Done) ∧
      ∀ fragment rest, s.queue = fragment :: rest →
        (s.turn mux maxQueue).queue = rest ∧ (s.turn mux maxQueue).ended = true ∧
          (s.turn mux maxQueue).iterator = .yielded := by
  constructor
  · intro hqueue
    unfold FragmentRecording.turn
    rw [if_neg (by rw [hqueue]; exact Nat.lt_irrefl 0)]
    split
    · exact .inr ⟨_, rfl⟩
    · rw [if_pos hended]
      exact .inl rfl
  · intro fragment rest hqueue
    have htake := take_ended maxQueue h hended hqueue
    unfold FragmentRecording.turn
    rw [if_pos (by rw [hqueue]; exact Nat.zero_lt_succ _)]
    exact ⟨htake.1, htake.2, rfl⟩

/-- By induction on the fragments left, each of which one `next` takes. -/
theorem done_of_yielded (maxQueue : ℕ) (h : Sound mux s) (hended : s.ended = true)
    (hiterator : s.iterator = .yielded) :
    ∃ t, Machine.exec (step mux maxQueue) s (List.replicate (s.queue.length + 1) .pull) = some t ∧
      t.Done := by
  have hawake := h.awake (by rw [hiterator]; decide)
  have hpull : step mux maxQueue s .pull = some (s.turn mux maxQueue) := by
    simp [step, can, act, hiterator]
  obtain ⟨hlast, hnext⟩ := turn_ended maxQueue h hended
  induction hqueue : s.queue generalizing s with
  | nil =>
    refine ⟨s.turn mux maxQueue, ?_, hlast hqueue⟩
    simp [Machine.exec, hpull]
  | cons fragment rest ih =>
    obtain ⟨hrest, hstill, hyielded⟩ := hnext fragment rest hqueue
    have hsound : Sound mux (s.turn mux maxQueue) := h.turn hawake
    have hquiet := hsound.awake (by rw [hyielded]; decide)
    obtain ⟨hlast', hnext'⟩ := turn_ended maxQueue hsound hstill
    obtain ⟨t, ht, hdone⟩ := ih hsound hstill hyielded hquiet
      (by simp [step, can, act, hyielded]) hlast' hnext' hrest
    refine ⟨t, ?_, hdone⟩
    rw [List.length_cons, List.replicate_succ, Machine.exec, hpull]
    exact ht

/-- From where a turn begins. -/
theorem Sound.done_of_turn (h : Sound mux s) (hended : s.ended = true) (hawake : s.wake = false)
    (label : Label β) (hown : label.own = true)
    (hstep : step mux maxQueue s label = some (s.turn mux maxQueue)) :
    ∃ labels : List (Label β), (∀ l ∈ labels, l.own = true) ∧
      ∃ t, Machine.exec (step mux maxQueue) s labels = some t ∧ t.Done := by
  obtain ⟨hlast, hnext⟩ := turn_ended maxQueue h hended
  cases hqueue : s.queue with
  | nil =>
    refine ⟨[label], by simpa using hown, s.turn mux maxQueue, ?_, hlast hqueue⟩
    simp [Machine.exec, hstep]
  | cons fragment rest =>
    obtain ⟨-, hstill, hyielded⟩ := hnext fragment rest hqueue
    obtain ⟨t, ht, hdone⟩ := done_of_yielded maxQueue (h.turn hawake) hstill hyielded
    refine ⟨label :: List.replicate ((s.turn mux maxQueue).queue.length + 1) .pull, ?_, t, ?_,
      hdone⟩
    · intro l hl
      rcases List.mem_cons.mp hl with rfl | hl
      · exact hown
      · rw [(List.mem_replicate.mp hl).2]
        rfl
    · rw [Machine.exec, hstep]
      exact ht

/-- **An iterator that is pulled comes to its end** once the recording has ended and the
source has settled. -/
theorem done_of_ended (h : Sound mux s) (hended : s.ended = true) (hsettled : s.settled = true)
    (hleft : s.iterator ≠ .left) :
    ∃ labels : List (Label β), (∀ l ∈ labels, l.own = true) ∧
      ∃ t, Machine.exec (step mux maxQueue) s labels = some t ∧ t.Done := by
  cases hiterator : s.iterator with
  | fresh =>
    have hawake := h.awake (by rw [hiterator]; decide)
    have hpull : step mux maxQueue s .pull = some { s with iterator := .starting } := by
      simp [step, can, act, hiterator]
    have hstarting : Sound mux { s with iterator := .starting } :=
      h.toKept.suspend hawake (fun hi => by cases hi) (fun hi => by cases hi)
        fun _ hi => by cases hi
    obtain ⟨labels, hown, t, ht, hdone⟩ := hstarting.done_of_turn
      hended hawake .ready rfl (by simp [step, can, act, hsettled])
    refine ⟨.pull :: labels, ?_, t, ?_, hdone⟩
    · intro l hl
      rcases List.mem_cons.mp hl with rfl | hl
      · rfl
      · exact hown l hl
    · rw [Machine.exec, hpull]
      exact ht
  | starting =>
    exact h.done_of_turn hended (h.awake (by rw [hiterator]; decide)) .ready rfl
      (by simp [step, can, act, hiterator, hsettled])
  | waiting =>
    rw [(h.idle hiterator).2] at hended
    cases hended
  | woken =>
    exact h.done_of_turn hended (h.awake (by rw [hiterator]; decide)) .wakes rfl
      (by simp [step, can, act, hiterator])
  | yielded =>
    exact h.done_of_turn hended (h.awake (by rw [hiterator]; decide)) .pull rfl
      (by simp [step, can, act, hiterator])
  | returned => exact ⟨[], by simp, s, rfl, .inl hiterator⟩
  | threw error => exact ⟨[], by simp, s, rfl, .inr ⟨error, hiterator⟩⟩
  | left => exact absurd hiterator hleft

/-! ## Every run -/

/-- What the owner of a recording can rely on. -/
structure Delivers (mux : FragmentMuxer β M F) (maxQueue : ℕ) (s : FragmentRecording β M F) :
    Prop where
  /-- Each fragment is handed over once, in order. -/
  handed : s.yielded <+: s.muxed ++ s.tail.toList
  returned : s.iterator = .returned → s.failure = none ∧ s.tail = mux.flush s.mux ∧
    s.yielded = s.muxed ++ s.tail.toList
  threw : ∀ e, s.iterator = .threw e → s.failure = some e ∧ s.yielded = s.muxed
  held : s.held = true → MAX_PENDING_FRAGMENTS ≤ s.queue.length
  paused : ∀ c, s.consumer = some c → c.detached = false → c.paused = true → s.held = true
  /-- No wake-up is lost: an iterator waits only where there is nothing to go on with. -/
  woken : s.iterator = .waiting → s.queue = [] ∧ s.ended = false ∧ s.wake = true
  /-- What the source has for an iterator that waits reaches the recording at once. -/
  flows : s.iterator = .waiting →
    ∀ c, s.consumer = some c → c.detached = false ∧ c.paused = false ∧ c.queue = []
  released : s.ended = true → s.settled = true →
    s.stray = false ∧ ∀ c, s.consumer = some c → c.detached = true
  ends : s.ended = true → s.settled = true → s.iterator ≠ .left →
    ∃ labels : List (Label β), (∀ l ∈ labels, l.own = true) ∧
      ∃ t, Machine.exec (step mux maxQueue) s labels = some t ∧ t.Done

theorem Sound.delivers (h : Sound mux s) (hstray : s.stray = false) :
    Delivers mux maxQueue s where
  handed := ⟨s.queue, h.ledger⟩
  returned hreturned := by
    obtain ⟨hqueue, hended, hfailure⟩ := h.returned hreturned
    have hledger := h.ledger
    rw [hqueue, List.append_nil] at hledger
    exact ⟨hfailure, h.flushed hended hfailure, hledger⟩
  threw e hthrew := by
    obtain ⟨hqueue, hfailure⟩ := h.threw e hthrew
    have hledger := h.ledger
    rw [hqueue, (h.failed (by rw [hfailure]; rfl)).2, Option.toList_none, List.append_nil,
      List.append_nil] at hledger
    exact ⟨hfailure, hledger⟩
  held := h.held
  paused c hc hattached hpaused := ((h.served c hc).1 hattached).1.symm.trans hpaused
  woken hwaiting := ⟨(h.idle hwaiting).1, (h.idle hwaiting).2, h.wake.mpr hwaiting⟩
  flows hwaiting c hc := by
    obtain ⟨hqueue, hopen⟩ := h.idle hwaiting
    obtain ⟨hserved, hattached, -⟩ := h.served c hc
    have hfree : s.held = false := by
      by_contra hheld
      have hfull := h.held (by simpa using hheld)
      rw [hqueue] at hfull
      exact absurd hfull (by simp [MAX_PENDING_FRAGMENTS])
    obtain ⟨hpaused, hbacklog⟩ := hserved (hattached hopen)
    exact ⟨hattached hopen, hpaused.trans hfree, hbacklog hfree⟩
  released hended _ := ⟨hstray, fun c hc => (h.served c hc).2.2 hended⟩
  ends hended hsettled hleft := done_of_ended h hended hsettled hleft

/-- **A recording delivers each fragment once and never stalls** in exactly the runs in which
no attach throws once the source has added its consumer. -/
theorem delivers_iff_whole (mux : FragmentMuxer β M F) (maxQueue : ℕ) (m : M)
    {labels : List (Label β)} {s : FragmentRecording β M F}
    (hrun : Machine.exec (step mux maxQueue) (start m) labels = some s) :
    Machine.StepsMeet (step mux maxQueue) Whole (start m) labels ↔
      ∀ before behind t, labels = before ++ behind →
        Machine.exec (step mux maxQueue) (start m) before = some t → Delivers mux maxQueue t := by
  refine Machine.stepsMeet_iff_forall_prefix (J := fun s => Sound mux s ∧ s.stray = false) hrun
    ⟨sound_start m, rfl⟩ (fun s h => h.1.delivers h.2) ?_ ?_
  · rintro s label t ⟨h, hnone⟩ hwhole hstep
    obtain ⟨hcan, rfl⟩ := step_eq_some.mp hstep
    exact ⟨h.act hcan, act_stray hwhole hnone⟩
  · intro s label t hstep hnot hdelivers
    obtain ⟨-, rfl⟩ := step_eq_some.mp hstep
    obtain ⟨hended, hsettled, hstray⟩ := act_not_whole mux maxQueue hnot
    rw [(hdelivers.released hended hsettled).1] at hstray
    cases hstray

/-- A muxer whose fragments are single video frames, with nothing left to flush but a tail. -/
def sampleMuxer : FragmentMuxer ℕ Unit ℕ where
  push
    | (), .video frame .. => .ok ((), some frame)
    | (), .audio .. => .ok ((), none)
  flush _ := some 0

def sampleFrame (frame : ℕ) : TimedMediaFrame ℕ :=
  .video frame true 0 { codec := "h264", width := 640, height := 360 }

/-- A buffered frame, a frame while the iterator waits, and a stop. -/
def sampleLabels : List (Label ℕ) :=
  [.pull, .sourceResolves {} {} none [sampleFrame 1], .ready, .pull, .offer (sampleFrame 2), .wakes,
    .stop, .pull, .pull]

theorem delivers_iff_whole_sample :
    ∃ s, Machine.exec (step sampleMuxer 900) (start ()) sampleLabels = some s ∧
      ∀ before behind t, sampleLabels = before ++ behind →
        Machine.exec (step sampleMuxer 900) (start ()) before = some t →
        Delivers sampleMuxer 900 t := by
  have hrun : Machine.exec (step sampleMuxer 900) (start ()) sampleLabels = some _ := rfl
  refine ⟨_, hrun, (delivers_iff_whole sampleMuxer 900 () hrun).mp ?_⟩
  exact ⟨trivial, fun _ _ => ⟨.inr (.inr (.inr rfl)), fun _ _ => ⟨trivial, fun _ _ =>
    ⟨trivial, fun _ _ => ⟨trivial, fun _ _ => ⟨trivial, fun _ _ => ⟨trivial, fun _ _ =>
      ⟨trivial, fun _ _ => ⟨trivial, fun _ _ => trivial⟩⟩⟩⟩⟩⟩⟩⟩⟩

/-- A recording of a camera whose key has the wrong length. -/
theorem failed_attach_stays :
    ¬∀ (labels : List (Label ℕ)) (s : FragmentRecording ℕ Unit ℕ),
      Machine.exec (step sampleMuxer 900) (start ()) labels = some s →
        Delivers sampleMuxer 900 s := by
  intro h
  have hreleased := (h
    [.sourceResolves {} {} (some (.makeStream "eccPrivateKey must be 32 bytes")) []] _ rfl).released
  exact absurd (hreleased rfl rfl).1 (by decide)

end EufySdk.FragmentRecording
