import Mathlib.Tactic
import EufySdk.Transport.P2p.Consumer

/-!
# What a consumer of a shared live source receives

Every consumer receives the items offered to it in order, except for runs that are
each followed by a keyframe; its queue stays within its bound; and its state is a
function of its own events, whatever the other consumers do.

- `Consumer.Good` — the invariant of one consumer, kept by each of its events
- `Fanout.Good` — the invariant of the fan-out: where its call stack and each
  consumer's loops stand, and what each consumer has been offered
- `fanout_delivery` — both together, behind every run
-/

namespace EufySdk.SharedLiveSource

open Resync Machine

variable {β : Type*} {maxQueue : ℕ}

/-- A keyframe video item. -/
def IsKey (item : TimedMediaFrame β) : Prop := item.isKeyframe = true

namespace Consumer

/-- What has been offered and is neither lost nor handed over yet. -/
def pending (c : Consumer β) : List (TimedMediaFrame β) := (c.queue :: c.drains).flatten

/-- Among the queue and the local copies of the running loops only one holds items, what is
received and pending tracks what was offered, and the queue is within its bound. -/
structure Good (maxQueue : ℕ) (c : Consumer β) : Prop where
  single : (c.queue :: c.drains).Pairwise fun a b => a = [] ∨ b = []
  bound : c.queue.length ≤ maxQueue
  attached : c.detached = false →
    Tracks IsKey c.awaitingKeyframe c.offered (c.received ++ c.pending)
  detached : c.detached = true → Tracks IsKey true c.offered c.received

theorem good_fresh : Good maxQueue ({} : Consumer β) where
  single := by simp
  bound := Nat.zero_le _
  attached _ := Tracks.nil
  detached h := by cases h

@[simp] theorem flush_queue (c : Consumer β) (item : TimedMediaFrame β) :
    (c.flush item).queue = c.queue := by
  unfold flush
  split <;> [split; skip] <;> rfl

@[simp] theorem flush_drains (c : Consumer β) (item : TimedMediaFrame β) :
    (c.flush item).drains = c.drains := by
  unfold flush
  split <;> [split; skip] <;> rfl

@[simp] theorem flush_detached (c : Consumer β) (item : TimedMediaFrame β) :
    (c.flush item).detached = c.detached := by
  unfold flush
  split <;> [split; skip] <;> rfl

@[simp] theorem flush_awaitingKeyframe (c : Consumer β) (item : TimedMediaFrame β) :
    (c.flush item).awaitingKeyframe = c.awaitingKeyframe := by
  unfold flush
  split <;> [split; skip] <;> rfl

@[simp] theorem flush_offered (c : Consumer β) (item : TimedMediaFrame β) :
    (c.flush item).offered = c.offered := by
  unfold flush
  split <;> [split; skip] <;> rfl

@[simp] theorem flush_received (c : Consumer β) (item : TimedMediaFrame β) :
    (c.flush item).received = c.received ++ [item] := by
  unfold flush
  split <;> [split; skip] <;> rfl

@[simp] theorem flush_pending (c : Consumer β) (item : TimedMediaFrame β) :
    (c.flush item).pending = c.pending := by
  rw [pending, flush_queue, flush_drains, pending]

/-- Dropping an overlong backlog opens a gap; a backlog within the bound stays. -/
theorem good_dropBacklogPastBound {c : Consumer β} (hattached : c.detached = false)
    (hdrains : c.drains.flatten = [])
    (htracks : Tracks IsKey c.awaitingKeyframe c.offered (c.received ++ c.pending)) :
    Good maxQueue (c.dropBacklogPastBound maxQueue) := by
  have hempty : ∀ d ∈ c.drains, d = [] := List.flatten_eq_nil_iff.mp hdrains
  have hpairs : c.drains.Pairwise fun a b => a = [] ∨ b = [] :=
    List.pairwise_of_forall_mem_list fun a ha _ _ => .inl (hempty a ha)
  unfold dropBacklogPastBound
  split
  · refine ⟨?_, Nat.zero_le _, fun _ => ?_, fun h => ?_⟩
    · exact List.pairwise_cons.mpr ⟨fun _ _ => .inl rfl, hpairs⟩
    · have hdropped := htracks.drop
      simpa [pending, hdrains] using hdropped
    · rw [hattached] at h
      cases h
  · refine ⟨?_, by omega, fun _ => htracks, fun h => ?_⟩
    · exact List.pairwise_cons.mpr ⟨fun d hd => .inr (hempty d hd), hpairs⟩
    · rw [hattached] at h
      cases h

/-- Accepting an item that may follow: handed over at once, or queued within the bound. -/
theorem good_accept {c : Consumer β} (hattached : c.detached = false) (hdrains : c.drains = [])
    (hbound : c.queue.length ≤ maxQueue) {item : TimedMediaFrame β}
    (htracks : Tracks IsKey false c.offered (c.received ++ c.pending ++ [item]))
    (hawait : c.awaitingKeyframe = false) : Good maxQueue (c.accept maxQueue item) := by
  unfold accept
  split
  · rename_i hidle
    have hqueue : c.queue = [] := List.length_eq_zero_iff.mp hidle.2
    refine ⟨by simp [hdrains], by simpa using hbound, fun _ => ?_, fun h => ?_⟩
    · simpa [pending, hqueue, hdrains, hawait] using htracks
    · rw [flush_detached, hattached] at h
      cases h
  · refine good_dropBacklogPastBound hattached (by simp [hdrains]) ?_
    simpa [pending, hdrains, hawait] using htracks

/-- Delivering an item that the consumer has just been offered: skipped while a keyframe is
awaited and it is none, accepted otherwise. -/
theorem good_deliver {c : Consumer β} (hattached : c.detached = false)
    (hsingle : (c.queue :: c.drains).Pairwise fun a b => a = [] ∨ b = [])
    (hdrains : c.drains = []) (hbound : c.queue.length ≤ maxQueue) {item : TimedMediaFrame β}
    (hskip : Tracks IsKey true c.offered (c.received ++ c.pending))
    (hkeep : c.awaitingKeyframe = false →
      Tracks IsKey false c.offered (c.received ++ c.pending ++ [item]))
    (hkey : IsKey item → Tracks IsKey false c.offered (c.received ++ c.pending ++ [item])) :
    Good maxQueue (c.deliver maxQueue item) := by
  have hgood : c.awaitingKeyframe = true → Good maxQueue c := by
    intro hawait
    refine ⟨hsingle, hbound, fun _ => ?_, fun hd => ?_⟩
    · rw [hawait]
      exact hskip
    · rw [hattached] at hd
      cases hd
  cases item with
  | video frame keyframe timestampMs config =>
    rw [deliver, if_neg (by simp [hattached])]
    by_cases hawait : c.awaitingKeyframe = true
    · rw [if_pos hawait]
      by_cases hframe : keyframe = false
      · rw [if_pos hframe]
        exact hgood hawait
      · rw [if_neg hframe]
        rw [Bool.not_eq_false] at hframe
        exact good_accept (c := { c with awaitingKeyframe := false }) hattached hdrains hbound
          (hkey hframe) rfl
    · rw [if_neg hawait]
      rw [Bool.not_eq_true] at hawait
      exact good_accept hattached hdrains hbound (hkeep hawait) hawait
  | audio frame timestampMs =>
    rw [deliver, hattached, Bool.false_or]
    by_cases hawait : c.awaitingKeyframe = true
    · rw [if_pos hawait]
      exact hgood hawait
    · rw [if_neg hawait]
      rw [Bool.not_eq_true] at hawait
      exact good_accept hattached hdrains hbound (hkeep hawait) hawait

theorem Good.offer {c : Consumer β} (h : Good maxQueue c) (hdrains : c.drains = [])
    (item : TimedMediaFrame β) : Good maxQueue (c.offer maxQueue item) := by
  unfold Consumer.offer
  split
  · exact h
  · rename_i hattached
    rw [Bool.not_eq_true] at hattached
    have htracks := h.attached hattached
    refine good_deliver (c := { c with offered := c.offered ++ [item] }) hattached h.single
      hdrains h.bound (htracks.skip item) (fun hawait => ?_) (fun hkey => htracks.resume hkey)
    rw [show c.awaitingKeyframe = false from hawait] at htracks
    exact htracks.keep item

theorem Good.pause {c : Consumer β} (h : Good maxQueue c) : Good maxQueue c.pause :=
  ⟨h.single, h.bound, h.attached, h.detached⟩

theorem Good.detach {c : Consumer β} (h : Good maxQueue c) : Good maxQueue c.detach := by
  unfold Consumer.detach
  split
  · exact h
  · rename_i hattached
    rw [Bool.not_eq_true] at hattached
    refine ⟨?_, Nat.zero_le _, fun hd => (by cases hd), fun _ => (h.attached hattached).drop⟩
    exact List.pairwise_cons.mpr ⟨fun _ _ => .inl rfl, h.single.tail⟩

theorem Good.resume {c : Consumer β} (h : Good maxQueue c) : Good maxQueue c.resume := by
  unfold Consumer.resume
  split
  · exact h
  · rename_i hattached
    rw [Bool.not_eq_true] at hattached
    refine ⟨?_, Nat.zero_le _, fun _ => h.attached hattached, fun hd => ?_⟩
    · exact List.pairwise_cons.mpr ⟨fun _ _ => .inl rfl, h.single⟩
    · rw [hattached] at hd
      cases hd

/-- One turn of a loop: the pending items stay in order whichever way it goes. -/
theorem Good.drainTurn {c : Consumer β} (h : Good maxQueue c) :
    Good maxQueue (c.drainTurn maxQueue) := by
  unfold Consumer.drainTurn
  split
  · exact h
  · rename_i outer hdrains
    have hsingle := h.single
    rw [hdrains] at hsingle
    refine ⟨?_, h.bound, fun hd => ?_, h.detached⟩
    · exact hsingle.sublist (by simp)
    · simpa [pending, hdrains] using h.attached hd
  · rename_i item rest outer hdrains
    have hsingle := h.single
    rw [hdrains] at hsingle
    -- the innermost loop holds items, so nothing else does
    obtain ⟨hqueue, houterPairs⟩ := List.pairwise_cons.mp hsingle
    have hempty : c.queue = [] := by simpa using hqueue (item :: rest) (by simp)
    have houter : ∀ d ∈ outer, d = [] := by
      intro d hd
      simpa using (List.pairwise_cons.mp houterPairs).1 d hd
    have hflat : outer.flatten = [] := List.flatten_eq_nil_iff.mpr houter
    split
    · rename_i hd
      refine ⟨?_, h.bound, fun hnd => ?_, h.detached⟩
      · exact hsingle.sublist (by simp)
      · rw [hd] at hnd
        cases hnd
    · rename_i hattached
      rw [Bool.not_eq_true] at hattached
      have htracks := h.attached hattached
      simp only [pending, hdrains, hempty, List.flatten_cons, List.nil_append, hflat,
        List.append_nil] at htracks
      split
      · simp only [retainUndelivered, hempty, List.length_nil, lt_irrefl, if_false]
        refine good_dropBacklogPastBound hattached hflat ?_
        simpa [pending, hflat] using htracks
      · refine ⟨?_, by simpa using h.bound, fun _ => ?_, fun hd => ?_⟩
        · simp only [flush_queue, flush_drains, hempty]
          refine List.pairwise_cons.mpr ⟨fun _ _ => .inl rfl, ?_⟩
          exact List.pairwise_cons.mpr
            ⟨fun d hd => .inr (houter d hd), (List.pairwise_cons.mp houterPairs).2⟩
        · simpa [pending, hempty, hflat] using htracks
        · rw [flush_detached, hattached] at hd
          cases hd

/-- What a consumer with the invariant has received of what it was offered. -/
theorem Good.resyncs {c : Consumer β} (h : Good maxQueue c) :
    Resyncs IsKey c.offered c.received := by
  cases hd : c.detached with
  | true => exact (h.detached hd).resyncs
  | false => exact (h.attached hd).drop.resyncs

end Consumer

/-! ## The call stack -/

/-- Loops above at most one fan-out, which is at the bottom. -/
inductive StackShape : List (CallFrame β) → Option (TimedMediaFrame β × List ℕ) → Prop
  | idle : StackShape [] none
  | fanOut (item : TimedMediaFrame β) (remaining : List ℕ) :
      StackShape [.fanOut item remaining] (some (item, remaining))
  | drain (c : ℕ) {stack : List (CallFrame β)} {o : Option (TimedMediaFrame β × List ℕ)}
      (h : StackShape stack o) : StackShape (.drain c :: stack) o

/-- The number of loops of a consumer on the stack. -/
def loopCount (c : ℕ) (stack : List (CallFrame β)) : ℕ :=
  stack.countP fun
    | .drain c' => c' = c
    | .fanOut _ _ => false

@[simp] theorem loopCount_nil (c : ℕ) : loopCount c ([] : List (CallFrame β)) = 0 := rfl

@[simp] theorem loopCount_fanOut (c : ℕ) (item : TimedMediaFrame β) (remaining : List ℕ)
    (stack : List (CallFrame β)) :
    loopCount c (.fanOut item remaining :: stack) = loopCount c stack := by
  simp [loopCount]

theorem loopCount_drain (c c' : ℕ) (stack : List (CallFrame β)) :
    loopCount c (.drain c' :: stack) = loopCount c stack + if c' = c then 1 else 0 := by
  simp [loopCount, List.countP_cons]

/-- The items a consumer has been reached with: all of those delivered, without the one whose
fan-out has still to come to it. -/
def reached (delivered : List (TimedMediaFrame β)) (o : Option (TimedMediaFrame β × List ℕ))
    (c : ℕ) : List (TimedMediaFrame β) :=
  match o with
  | some (_, remaining) => if c ∈ remaining then delivered.dropLast else delivered
  | none => delivered

/-- The items delivered before the fan-out under way. -/
def settled (delivered : List (TimedMediaFrame β)) (o : Option (TimedMediaFrame β × List ℕ)) :
    List (TimedMediaFrame β) :=
  if o.isSome then delivered.dropLast else delivered

/-- What an attached consumer has been offered. -/
structure OfferedSince (delivered : List (TimedMediaFrame β))
    (o : Option (TimedMediaFrame β × List ℕ)) (c attachedAt : ℕ) (consumer : Consumer β) :
    Prop where
  since : attachedAt ≤ (settled delivered o).length
  attached : consumer.detached = false →
    consumer.offered = (reached delivered o c).drop attachedAt
  among : consumer.offered <+: delivered.drop attachedAt

/-- Every consumer has its own invariant, as many loops as the stack has for it, and has been
offered what was delivered since it attached. -/
structure Fanout.Good (maxQueue : ℕ) (s : Fanout β)
    (o : Option (TimedMediaFrame β × List ℕ)) : Prop where
  shape : StackShape s.stack o
  current : ∀ item remaining, o = some (item, remaining) →
    remaining.Nodup ∧ s.delivered.getLast? = some item ∧
      ∀ c ∈ remaining, c < s.consumers.length
  lengths : s.attachedAt.length = s.consumers.length
  consumer : ∀ c consumer, s.consumers[c]? = some consumer →
    Consumer.Good maxQueue consumer ∧ consumer.drains.length = loopCount c s.stack ∧
      ∀ attachedAt, s.attachedAt[c]? = some attachedAt →
        OfferedSince s.delivered o c attachedAt consumer

theorem good_start : Fanout.Good maxQueue ({} : Fanout β) none where
  shape := .idle
  current _ _ h := by cases h
  lengths := rfl
  consumer c consumer h := by simp at h

namespace Consumer

theorem dropBacklogPastBound_fields (c : Consumer β) :
    (c.dropBacklogPastBound maxQueue).drains = c.drains ∧
      (c.dropBacklogPastBound maxQueue).detached = c.detached ∧
      (c.dropBacklogPastBound maxQueue).offered = c.offered := by
  unfold dropBacklogPastBound
  split <;> exact ⟨rfl, rfl, rfl⟩

theorem accept_fields (c : Consumer β) (item : TimedMediaFrame β) :
    (c.accept maxQueue item).drains = c.drains ∧
      (c.accept maxQueue item).detached = c.detached ∧
      (c.accept maxQueue item).offered = c.offered := by
  unfold accept
  split
  · exact ⟨flush_drains c item, flush_detached c item, flush_offered c item⟩
  · exact dropBacklogPastBound_fields _

theorem deliver_fields (c : Consumer β) (item : TimedMediaFrame β) :
    (c.deliver maxQueue item).drains = c.drains ∧
      (c.deliver maxQueue item).detached = c.detached ∧
      (c.deliver maxQueue item).offered = c.offered := by
  cases item with
  | video frame keyframe timestampMs config =>
    rw [deliver]
    split
    · exact ⟨rfl, rfl, rfl⟩
    · split
      · split
        · exact ⟨rfl, rfl, rfl⟩
        · exact accept_fields _ _
      · exact accept_fields _ _
  | audio frame timestampMs =>
    rw [deliver]
    split
    · exact ⟨rfl, rfl, rfl⟩
    · exact accept_fields _ _

theorem offer_drains (c : Consumer β) (item : TimedMediaFrame β) :
    (c.offer maxQueue item).drains = c.drains := by
  unfold offer
  split
  · rfl
  · exact (deliver_fields _ item).1

theorem offer_detached (c : Consumer β) (item : TimedMediaFrame β) :
    (c.offer maxQueue item).detached = c.detached := by
  unfold offer
  split
  · rfl
  · exact (deliver_fields _ item).2.1

theorem offer_offered (c : Consumer β) (item : TimedMediaFrame β) :
    (c.offer maxQueue item).offered =
      if c.detached then c.offered else c.offered ++ [item] := by
  unfold offer
  split
  · rfl
  · exact (deliver_fields _ item).2.2

theorem drainTurn_fields (c : Consumer β) :
    (c.drainTurn maxQueue).detached = c.detached ∧
      (c.drainTurn maxQueue).offered = c.offered ∧
      (c.drainTurn maxQueue).drains.length =
        if c.leavesLoop then c.drains.length - 1 else c.drains.length := by
  unfold drainTurn leavesLoop
  split
  · rename_i hdrains
    simp [hdrains]
  · rename_i outer hdrains
    simp [hdrains]
  · rename_i item rest outer hdrains
    split
    · rename_i hd
      simp [hdrains, hd]
    · rename_i hd
      split
      · rename_i hp
        have hfields := @dropBacklogPastBound_fields _ maxQueue
          { c with
            drains := outer
            queue := if 0 < c.queue.length then (item :: rest) ++ c.queue else item :: rest }
        exact ⟨hfields.2.1, hfields.2.2, by
          rw [retainUndelivered, hfields.1]; simp [hdrains, hp]⟩
      · rename_i hp
        simp [hdrains, hd, hp]

end Consumer

/-! ## The steps of the fan-out -/

theorem OfferedSince.congr {delivered : List (TimedMediaFrame β)}
    {o o' : Option (TimedMediaFrame β × List ℕ)} {c attachedAt : ℕ} {consumer : Consumer β}
    (h : OfferedSince delivered o c attachedAt consumer) (hsome : o'.isSome = o.isSome)
    (hreached : reached delivered o' c = reached delivered o c) :
    OfferedSince delivered o' c attachedAt consumer := by
  refine ⟨?_, ?_, h.among⟩
  · rw [settled, hsome]
    exact h.since
  · rw [hreached]
    exact h.attached

/-- A step of one consumer: what it has to show is about that consumer alone. -/
theorem Fanout.Good.modify {s : Fanout β} {o o' : Option (TimedMediaFrame β × List ℕ)}
    (h : s.Good maxQueue o) {c : ℕ} {f : Consumer β → Consumer β} {stack : List (CallFrame β)}
    (hshape : StackShape stack o') (hsome : o'.isSome = o.isSome)
    (hcurrent : ∀ item remaining, o' = some (item, remaining) →
      remaining.Nodup ∧ s.delivered.getLast? = some item ∧
        ∀ c ∈ remaining, c < s.consumers.length)
    (hothers : ∀ c', c' ≠ c → loopCount c' stack = loopCount c' s.stack ∧
      reached s.delivered o' c' = reached s.delivered o c')
    (hself : ∀ consumer, s.consumers[c]? = some consumer →
      Consumer.Good maxQueue (f consumer) ∧ (f consumer).drains.length = loopCount c stack ∧
        ∀ attachedAt, s.attachedAt[c]? = some attachedAt →
          OfferedSince s.delivered o' c attachedAt (f consumer)) :
    Fanout.Good maxQueue { s.update c f with stack := stack } o' where
  shape := hshape
  current item remaining ho := by
    simpa [Fanout.update] using hcurrent item remaining ho
  lengths := by simpa [Fanout.update] using h.lengths
  consumer c' consumer hconsumer := by
    rw [Fanout.update, List.getElem?_modify] at hconsumer
    obtain ⟨before, hbefore, rfl⟩ := Option.map_eq_some_iff.mp hconsumer
    by_cases hc : c = c'
    · subst hc
      rw [if_pos rfl]
      exact hself before hbefore
    · rw [if_neg hc]
      obtain ⟨hgood, hdrains, hoffered⟩ := h.consumer c' before hbefore
      obtain ⟨hcount, hreached⟩ := hothers c' (Ne.symm hc)
      refine ⟨hgood, ?_, fun attachedAt hattachedAt => ?_⟩
      · exact hdrains.trans hcount.symm
      · exact (hoffered attachedAt hattachedAt).congr hsome hreached

/-- The same for a step that only touches the consumer and neither its loops nor what it has
been offered. -/
theorem Fanout.Good.modify_still {s : Fanout β} {o : Option (TimedMediaFrame β × List ℕ)}
    (h : s.Good maxQueue o) {c : ℕ} {f : Consumer β → Consumer β}
    (hgood : ∀ consumer, Consumer.Good maxQueue consumer → Consumer.Good maxQueue (f consumer))
    (hdrains : ∀ consumer, (f consumer).drains = consumer.drains)
    (hoffered : ∀ consumer, (f consumer).offered = consumer.offered)
    (hdetached : ∀ consumer, (f consumer).detached = false → consumer.detached = false) :
    (s.update c f).Good maxQueue o := by
  refine @Fanout.Good.modify _ _ _ _ _ h c f s.stack h.shape rfl h.current (fun _ _ => ⟨rfl, rfl⟩) ?_
  intro consumer hconsumer
  obtain ⟨hconsumerGood, hcount, hsince⟩ := h.consumer c consumer hconsumer
  refine ⟨hgood consumer hconsumerGood, ?_, fun attachedAt hattachedAt => ?_⟩
  · rw [hdrains]
    exact hcount
  · obtain ⟨hfrom, hattached, hamong⟩ := hsince attachedAt hattachedAt
    refine ⟨hfrom, fun hd => ?_, ?_⟩
    · rw [hoffered]
      exact hattached (hdetached consumer hd)
    · rw [hoffered]
      exact hamong

theorem Fanout.Good.pause {s : Fanout β} {o : Option (TimedMediaFrame β × List ℕ)}
    (h : s.Good maxQueue o) (c : ℕ) : (s.update c Consumer.pause).Good maxQueue o :=
  h.modify_still (fun _ hgood => hgood.pause) (fun _ => rfl) (fun _ => rfl) fun _ hd => hd

theorem Fanout.Good.detach {s : Fanout β} {o : Option (TimedMediaFrame β × List ℕ)}
    (h : s.Good maxQueue o) (c : ℕ) : (s.update c Consumer.detach).Good maxQueue o := by
  refine h.modify_still (fun _ hgood => hgood.detach) ?_ ?_ ?_
  · intro consumer
    unfold Consumer.detach
    split <;> rfl
  · intro consumer
    unfold Consumer.detach
    split <;> rfl
  · intro consumer hd
    unfold Consumer.detach at hd
    split at hd
    · exact hd
    · cases hd

theorem Fanout.Good.resume {s : Fanout β} {o : Option (TimedMediaFrame β × List ℕ)}
    (h : s.Good maxQueue o) {c : ℕ} {consumer : Consumer β}
    (hconsumer : s.consumers[c]? = some consumer) :
    Fanout.Good maxQueue { s.update c Consumer.resume with
      stack := if consumer.detached then s.stack else .drain c :: s.stack } o := by
  obtain ⟨hgood, hcount, hsince⟩ := h.consumer c consumer hconsumer
  refine h.modify ?_ rfl h.current ?_ ?_
  · split
    · exact h.shape
    · exact h.shape.drain c
  · intro c' hc'
    refine ⟨?_, rfl⟩
    split
    · rfl
    · rw [loopCount_drain, if_neg (Ne.symm hc'), Nat.add_zero]
  · intro consumer' hconsumer'
    obtain rfl := Option.some.inj (hconsumer.symm.trans hconsumer')
    refine ⟨hgood.resume, ?_, fun attachedAt hattachedAt => ?_⟩
    · unfold Consumer.resume
      split
      · exact hcount
      · rw [loopCount_drain, if_pos rfl, List.length_cons, hcount]
    · unfold Consumer.resume
      split
      · exact hsince attachedAt hattachedAt
      · obtain ⟨hfrom, hattached, hamong⟩ := hsince attachedAt hattachedAt
        exact ⟨hfrom, hattached, hamong⟩

theorem Fanout.Good.drain {s : Fanout β} {o : Option (TimedMediaFrame β × List ℕ)}
    (h : s.Good maxQueue o) {c : ℕ} {below : List (CallFrame β)} {consumer : Consumer β}
    (hstack : s.stack = .drain c :: below) (hconsumer : s.consumers[c]? = some consumer) :
    Fanout.Good maxQueue { s.update c (Consumer.drainTurn maxQueue) with
      stack := if consumer.leavesLoop then below else s.stack } o := by
  obtain ⟨hgood, hcount, hsince⟩ := h.consumer c consumer hconsumer
  have hshape := h.shape
  rw [hstack] at hshape
  refine h.modify ?_ rfl h.current ?_ ?_
  · split
    · cases hshape with
      | drain _ hbelow => exact hbelow
    · exact h.shape
  · intro c' hc'
    refine ⟨?_, rfl⟩
    split
    · rw [hstack, loopCount_drain, if_neg (Ne.symm hc'), Nat.add_zero]
    · rfl
  · intro consumer' hconsumer'
    obtain rfl := Option.some.inj (hconsumer.symm.trans hconsumer')
    obtain ⟨hdetached, hoffered, hdrains⟩ := @Consumer.drainTurn_fields _ maxQueue consumer
    refine ⟨hgood.drainTurn, ?_, fun attachedAt hattachedAt => ?_⟩
    · rw [hdrains]
      rw [hstack, loopCount_drain, if_pos rfl] at hcount
      split
      · omega
      · rw [hstack, loopCount_drain, if_pos rfl]
        exact hcount
    · obtain ⟨hfrom, hattached, hamong⟩ := hsince attachedAt hattachedAt
      refine ⟨hfrom, fun hd => ?_, ?_⟩
      · rw [hoffered]
        exact hattached (hdetached ▸ hd)
      · rw [hoffered]
        exact hamong

/-- A fan-out reaches its next consumer: with no loop above it, the consumer has none. -/
theorem Fanout.Good.offer {s : Fanout β} {item : TimedMediaFrame β} {c : ℕ}
    {remaining : List ℕ} {o : Option (TimedMediaFrame β × List ℕ)} {below : List (CallFrame β)}
    (h : s.Good maxQueue o) (hstack : s.stack = .fanOut item (c :: remaining) :: below) :
    Fanout.Good maxQueue { s.update c (Consumer.offer maxQueue · item) with
      stack := .fanOut item remaining :: below } (some (item, remaining)) := by
  have hshape := h.shape
  rw [hstack] at hshape
  cases hshape with
  | fanOut =>
    obtain ⟨hnodup, hlast, hexist⟩ := h.current _ _ rfl
    obtain ⟨hnotin, hrest⟩ := List.nodup_cons.mp hnodup
    obtain ⟨before, hbefore⟩ := List.getLast?_eq_some_iff.mp hlast
    refine h.modify (.fanOut item remaining) rfl ?_ ?_ ?_
    · intro item' remaining' ho
      cases ho
      exact ⟨hrest, hlast, fun c' hc' => hexist c' (List.mem_cons_of_mem c hc')⟩
    · intro c' hc'
      refine ⟨by rw [hstack]; rfl, ?_⟩
      simp [reached, hc']
    · intro consumer hconsumer
      obtain ⟨hgood, hcount, hsince⟩ := h.consumer c consumer hconsumer
      have hdrains : consumer.drains = [] := by
        rw [hstack] at hcount
        exact List.length_eq_zero_iff.mp hcount
      refine ⟨hgood.offer hdrains item, ?_, fun attachedAt hattachedAt => ?_⟩
      · rw [Consumer.offer_drains, hdrains]
        rfl
      · obtain ⟨hfrom, hattached, hamong⟩ := hsince attachedAt hattachedAt
        simp only [settled, reached, Option.isSome_some, if_true, hbefore, List.dropLast_concat,
          List.mem_cons_self] at hfrom hattached hamong
        have hdelivered : (before ++ [item]).drop attachedAt =
            before.drop attachedAt ++ [item] := List.drop_append_of_le_length hfrom
        refine ⟨?_, fun hd => ?_, ?_⟩
        · simpa [settled, hbefore] using hfrom
        · rw [Consumer.offer_detached] at hd
          rw [Consumer.offer_offered, hd, hattached hd, reached, if_neg hnotin, hbefore, hdelivered]
          rfl
        · rw [Consumer.offer_offered, hbefore]
          split
          · exact hamong
          · rename_i hd
            rw [hattached (Bool.not_eq_true _ ▸ hd), hdelivered]

theorem Fanout.Good.fanOutDone {s : Fanout β} {item : TimedMediaFrame β}
    {o : Option (TimedMediaFrame β × List ℕ)} {below : List (CallFrame β)}
    (h : s.Good maxQueue o) (hstack : s.stack = .fanOut item [] :: below) :
    Fanout.Good maxQueue { s with stack := below } none := by
  have hshape := h.shape
  rw [hstack] at hshape
  cases hshape with
  | fanOut =>
    refine ⟨.idle, fun _ _ ho => (by cases ho), h.lengths, fun c consumer hconsumer => ?_⟩
    obtain ⟨hgood, hcount, hsince⟩ := h.consumer c consumer hconsumer
    rw [hstack] at hcount
    refine ⟨hgood, hcount, fun attachedAt hattachedAt => ?_⟩
    obtain ⟨hfrom, hattached, hamong⟩ := hsince attachedAt hattachedAt
    refine ⟨?_, hattached, hamong⟩
    refine hfrom.trans ?_
    simp [settled]

theorem Fanout.Good.attach {s : Fanout β} (h : s.Good maxQueue none) (hstack : s.stack = []) :
    Fanout.Good maxQueue { s with
      consumers := s.consumers ++ [{}]
      attachedAt := s.attachedAt ++ [s.delivered.length] } none := by
  refine ⟨h.shape, fun _ _ ho => (by cases ho), ?_, fun c consumer hconsumer => ?_⟩
  · rw [List.length_append, List.length_append, h.lengths]
    rfl
  · rcases lt_trichotomy c s.consumers.length with hc | rfl | hc
    · rw [List.getElem?_append_left hc] at hconsumer
      rw [List.getElem?_append_left (h.lengths ▸ hc)]
      exact h.consumer c consumer hconsumer
    · rw [List.getElem?_concat_length] at hconsumer
      obtain rfl := Option.some.inj hconsumer
      rw [← h.lengths, List.getElem?_concat_length]
      refine ⟨Consumer.good_fresh, by rw [hstack]; rfl, fun attachedAt hattachedAt => ?_⟩
      obtain rfl := Option.some.inj hattachedAt
      refine ⟨le_of_eq rfl, fun _ => ?_, List.nil_prefix⟩
      exact List.drop_length.symm
    · rw [List.getElem?_eq_none (by rw [List.length_append, List.length_singleton]; omega)]
        at hconsumer
      cases hconsumer

theorem mem_attachedIds {s : Fanout β} {c : ℕ} {consumer : Consumer β}
    (hconsumer : s.consumers[c]? = some consumer) :
    c ∈ s.attachedIds ↔ consumer.detached = false := by
  have hc : c < s.consumers.length := (List.getElem?_eq_some_iff.mp hconsumer).1
  rw [Fanout.attachedIds, List.mem_filter, hconsumer]
  simp [hc]

theorem Fanout.Good.deliver {s : Fanout β} (h : s.Good maxQueue none) (hstack : s.stack = [])
    (item : TimedMediaFrame β) :
    Fanout.Good maxQueue { s with
      delivered := s.delivered ++ [item]
      stack := [.fanOut item s.attachedIds] } (some (item, s.attachedIds)) := by
  refine ⟨.fanOut item _, ?_, h.lengths, fun c consumer hconsumer => ?_⟩
  · intro item' remaining ho
    cases ho
    refine ⟨List.nodup_range.filter _, List.getLast?_concat, fun c hc => ?_⟩
    exact List.mem_range.mp (List.mem_of_mem_filter hc)
  · have hmem := mem_attachedIds (s := s) hconsumer
    obtain ⟨hgood, hcount, hsince⟩ := h.consumer c consumer hconsumer
    rw [hstack] at hcount
    refine ⟨hgood, hcount, fun attachedAt hattachedAt => ?_⟩
    obtain ⟨hfrom, hattached, hamong⟩ := hsince attachedAt hattachedAt
    simp only [settled, Option.isSome_none, Bool.false_eq_true, if_false] at hfrom
    refine ⟨?_, fun hd => ?_, ?_⟩
    · simpa [settled] using hfrom
    · rw [reached, if_pos (hmem.mpr hd), List.dropLast_concat]
      exact hattached hd
    · show consumer.offered <+: (s.delivered ++ [item]).drop attachedAt
      rw [List.drop_append_of_le_length hfrom]
      exact hamong.trans (List.prefix_append _ _)

variable [DecidableEq β]

/-- Every step keeps the invariant. -/
theorem Fanout.Good.step {s t : Fanout β} {o : Option (TimedMediaFrame β × List ℕ)}
    {label : FanoutLabel β} (h : s.Good maxQueue o)
    (hstep : fanoutStep maxQueue s label = some t) : ∃ o', t.Good maxQueue o' := by
  have hidle : s.stack = [] → o = none := by
    intro hstack
    have hshape := h.shape
    rw [hstack] at hshape
    cases hshape
    rfl
  cases label with
  | attach =>
    simp only [fanoutStep] at hstep
    split at hstep
    · rename_i hstack
      obtain rfl := hidle hstack
      cases hstep
      exact ⟨none, h.attach hstack⟩
    · cases hstep
  | deliver item =>
    simp only [fanoutStep] at hstep
    split at hstep
    · rename_i hstack
      obtain rfl := hidle hstack
      cases hstep
      exact ⟨_, h.deliver hstack item⟩
    · cases hstep
  | offer c item =>
    simp only [fanoutStep] at hstep
    split at hstep
    · rename_i item' c' remaining below hstack
      split at hstep
      · rename_i hsame
        obtain ⟨rfl, rfl⟩ := hsame
        cases hstep
        exact ⟨_, h.offer hstack⟩
      · cases hstep
    · cases hstep
  | fanOutDone =>
    simp only [fanoutStep] at hstep
    split at hstep
    · rename_i hstack
      cases hstep
      exact ⟨none, h.fanOutDone hstack⟩
    · cases hstep
  | drain c =>
    simp only [fanoutStep] at hstep
    split at hstep
    · rename_i c' below consumer hstack hconsumer
      split at hstep
      · rename_i hsame
        obtain rfl := hsame
        cases hstep
        exact ⟨o, h.drain hstack hconsumer⟩
      · cases hstep
    · cases hstep
  | pause c =>
    simp only [fanoutStep] at hstep
    split at hstep
    · cases hstep
      exact ⟨o, h.pause c⟩
    · cases hstep
  | resume c =>
    simp only [fanoutStep] at hstep
    split at hstep
    · rename_i consumer hconsumer
      cases hstep
      exact ⟨o, h.resume hconsumer⟩
    · cases hstep
  | detach c =>
    simp only [fanoutStep] at hstep
    split at hstep
    · cases hstep
      exact ⟨o, h.detach c⟩
    · cases hstep

/-! ## A consumer among the others -/

/-- The consumer a label is about, and what happens to it. -/
def FanoutLabel.event : FanoutLabel β → Option (ℕ × ConsumerEvent β)
  | .attach | .deliver _ | .fanOutDone => none
  | .offer c item => some (c, .offer item)
  | .drain c => some (c, .drain)
  | .pause c => some (c, .pause)
  | .resume c => some (c, .resume)
  | .detach c => some (c, .detach)

/-- What happens to consumer `c` in a run. -/
def eventsOf (c : ℕ) (labels : List (FanoutLabel β)) : List (ConsumerEvent β) :=
  labels.filterMap fun label => label.event.bind fun e => if e.1 = c then some e.2 else none

/-- A step adds a consumer, changes the one it is about, or changes none. -/
theorem fanoutStep_consumers {s t : Fanout β} {o : Option (TimedMediaFrame β × List ℕ)}
    {label : FanoutLabel β} (h : s.Good maxQueue o)
    (hstep : fanoutStep maxQueue s label = some t) :
    (label.event = none ∧ (t.consumers = s.consumers ∨ t.consumers = s.consumers ++ [({} : Consumer β)])) ∨
      ∃ c e, label.event = some (c, e) ∧ c < s.consumers.length ∧
        t.consumers = s.consumers.modify c (Consumer.apply maxQueue · e) := by
  cases label with
  | attach =>
    simp only [fanoutStep] at hstep
    split at hstep <;> cases hstep
    exact .inl ⟨rfl, .inr rfl⟩
  | deliver item =>
    simp only [fanoutStep] at hstep
    split at hstep <;> cases hstep
    exact .inl ⟨rfl, .inl rfl⟩
  | offer c item =>
    simp only [fanoutStep] at hstep
    split at hstep
    · rename_i item' c' remaining below hstack
      split at hstep
      · rename_i hsame
        obtain ⟨rfl, rfl⟩ := hsame
        cases hstep
        have hshape := h.shape
        rw [hstack] at hshape
        cases hshape with
        | fanOut =>
          obtain ⟨-, -, hexist⟩ := h.current _ _ rfl
          exact .inr ⟨c, .offer item, rfl, hexist c List.mem_cons_self, rfl⟩
      · cases hstep
    · cases hstep
  | fanOutDone =>
    simp only [fanoutStep] at hstep
    split at hstep <;> cases hstep
    exact .inl ⟨rfl, .inl rfl⟩
  | drain c =>
    simp only [fanoutStep] at hstep
    split at hstep
    · rename_i c' below consumer hstack hconsumer
      split at hstep <;> cases hstep
      exact .inr ⟨c, .drain, rfl, (List.getElem?_eq_some_iff.mp hconsumer).1, rfl⟩
    · cases hstep
  | pause c =>
    simp only [fanoutStep] at hstep
    split at hstep <;> cases hstep
    rename_i hc
    exact .inr ⟨c, .pause, rfl, hc, rfl⟩
  | resume c =>
    simp only [fanoutStep] at hstep
    split at hstep <;> cases hstep
    rename_i consumer hconsumer
    exact .inr ⟨c, .resume, rfl, (List.getElem?_eq_some_iff.mp hconsumer).1, rfl⟩
  | detach c =>
    simp only [fanoutStep] at hstep
    split at hstep <;> cases hstep
    rename_i hc
    exact .inr ⟨c, .detach, rfl, hc, rfl⟩

/-- Every consumer is what its own events make of a fresh one, and one that has not attached
has had no events. -/
structure ByOwnEvents (maxQueue : ℕ) (labels : List (FanoutLabel β)) (s : Fanout β) : Prop where
  own : ∀ c consumer, s.consumers[c]? = some consumer →
    consumer = Consumer.applyAll maxQueue {} (eventsOf c labels)
  quiet : ∀ c, s.consumers.length ≤ c → eventsOf c labels = []

theorem ByOwnEvents.step {labels : List (FanoutLabel β)} {s t : Fanout β}
    {o : Option (TimedMediaFrame β × List ℕ)} {label : FanoutLabel β} (h : s.Good maxQueue o)
    (hown : ByOwnEvents maxQueue labels s) (hstep : fanoutStep maxQueue s label = some t) :
    ByOwnEvents maxQueue (labels ++ [label]) t := by
  rcases fanoutStep_consumers h hstep with ⟨hevent, hsame⟩ | ⟨c, e, hevent, hc, hmodify⟩
  · have hevents : ∀ c, eventsOf c (labels ++ [label]) = eventsOf c labels := by
      intro c
      simp [eventsOf, hevent]
    rcases hsame with hsame | hattach
    · refine ⟨fun c consumer hconsumer => ?_, fun c hc => ?_⟩
      · rw [hevents]
        exact hown.own c consumer (hsame ▸ hconsumer)
      · rw [hevents]
        exact hown.quiet c (hsame ▸ hc)
    · refine ⟨fun c consumer hconsumer => ?_, fun c hc => ?_⟩
      · rw [hevents]
        rw [hattach] at hconsumer
        rcases Nat.lt_or_ge c s.consumers.length with hc | hc
        · rw [List.getElem?_append_left hc] at hconsumer
          exact hown.own c consumer hconsumer
        · rw [List.getElem?_append_right hc] at hconsumer
          rw [hown.quiet c hc]
          exact List.mem_singleton.mp (List.mem_of_getElem? hconsumer)
      · rw [hevents]
        refine hown.quiet c (Nat.le_trans ?_ hc)
        rw [hattach, List.length_append]
        exact Nat.le_add_right _ _
  · refine ⟨fun c' consumer hconsumer => ?_, fun c' hc' => ?_⟩
    · rw [hmodify, List.getElem?_modify] at hconsumer
      obtain ⟨before, hbefore, rfl⟩ := Option.map_eq_some_iff.mp hconsumer
      have hbefore' := hown.own c' before hbefore
      by_cases hcc : c = c'
      · subst hcc
        have hevents : eventsOf c (labels ++ [label]) = eventsOf c labels ++ [e] := by
          simp [eventsOf, hevent]
        rw [if_pos rfl, hevents, Consumer.applyAll, List.foldl_append, hbefore']
        rfl
      · have hevents : eventsOf c' (labels ++ [label]) = eventsOf c' labels := by
          simp [eventsOf, hevent, hcc]
        rw [if_neg hcc, hevents]
        exact hbefore'
    · rw [hmodify, List.length_modify] at hc'
      have hcc : c ≠ c' := by omega
      have hevents : eventsOf c' (labels ++ [label]) = eventsOf c' labels := by
        simp [eventsOf, hevent, hcc]
      rw [hevents]
      exact hown.quiet c' hc'

theorem run_good {labels : List (FanoutLabel β)} {s : Fanout β}
    (hrun : Run (fanoutStep maxQueue) {} labels s) :
    (∃ o, s.Good maxQueue o) ∧ ByOwnEvents maxQueue labels s := by
  induction hrun with
  | nil => exact ⟨⟨none, good_start⟩, fun c consumer h => by simp at h, fun _ _ => rfl⟩
  | snoc _ hstep ih =>
    obtain ⟨⟨o, hgood⟩, hown⟩ := ih
    exact ⟨hgood.step hstep, hown.step hgood hstep⟩

/-- Between deliveries an attached consumer has been offered all since it attached. -/
theorem offered_eq {labels : List (FanoutLabel β)} {s : Fanout β} {c attachedAt : ℕ}
    {consumer : Consumer β} (hrun : Run (fanoutStep maxQueue) {} labels s)
    (hconsumer : s.consumers[c]? = some consumer)
    (hattachedAt : s.attachedAt[c]? = some attachedAt) (hattached : consumer.detached = false)
    (hstack : s.stack = []) : consumer.offered = s.delivered.drop attachedAt := by
  obtain ⟨⟨o, hgood⟩, -⟩ := run_good hrun
  obtain ⟨-, -, hsince⟩ := hgood.consumer c consumer hconsumer
  have hshape := hgood.shape
  rw [hstack] at hshape
  cases hshape
  exact (hsince attachedAt hattachedAt).attached hattached

/-- **Delivery to each consumer.** Behind every run a consumer has been offered the items
delivered since it attached, has received them in order but for runs that each end before a
keyframe, has at most `maxQueue` of them queued, and is what its own events make of it. -/
theorem fanout_delivery {labels : List (FanoutLabel β)} {s : Fanout β} {c attachedAt : ℕ}
    {consumer : Consumer β} (hrun : exec (fanoutStep maxQueue) {} labels = some s)
    (hconsumer : s.consumers[c]? = some consumer)
    (hattachedAt : s.attachedAt[c]? = some attachedAt) :
    consumer.received.Sublist (s.delivered.drop attachedAt) ∧
      Resyncs IsKey (s.delivered.drop attachedAt) consumer.received ∧
      consumer.queue.length ≤ maxQueue ∧
      consumer = Consumer.applyAll maxQueue {} (eventsOf c labels) ∧
      consumer.offered <+: s.delivered.drop attachedAt ∧
      (consumer.detached = false → s.stack = [] →
        consumer.offered = s.delivered.drop attachedAt) := by
  obtain ⟨⟨o, hgood⟩, hown⟩ := run_good (run_of_exec hrun)
  obtain ⟨hconsumerGood, -, hsince⟩ := hgood.consumer c consumer hconsumer
  have hamong := (hsince attachedAt hattachedAt).among
  have hresyncs := hconsumerGood.resyncs.of_prefix hamong
  refine ⟨hresyncs.sublist, hresyncs, hconsumerGood.bound, hown.own c consumer hconsumer, hamong, ?_⟩
  exact offered_eq (run_of_exec hrun) hconsumer hattachedAt

/-- A coded picture of the sample run below. -/
def samplePicture (n : ℕ) (keyframe : Bool) : TimedMediaFrame ℕ :=
  .video n keyframe n ⟨"h264", 1920, 1080⟩

def sampleFanOut (item : TimedMediaFrame ℕ) : List (FanoutLabel ℕ) :=
  [.deliver item, .offer 0 item, .offer 1 item, .fanOutDone]

/-- Two consumers and room for one queued item. The first pauses while it is handed the first
item, and loses its backlog on the third; the second resumes it inside that fan-out. -/
def sampleRun : List (FanoutLabel ℕ) :=
  [.attach, .attach, .deliver (samplePicture 1 true), .offer 0 (samplePicture 1 true), .pause 0,
    .offer 1 (samplePicture 1 true), .fanOutDone] ++
  sampleFanOut (samplePicture 2 false) ++
  [.deliver (samplePicture 3 false), .offer 0 (samplePicture 3 false),
    .offer 1 (samplePicture 3 false), .resume 0, .drain 0, .fanOutDone] ++
  sampleFanOut (samplePicture 4 false) ++ sampleFanOut (samplePicture 5 true)

theorem fanout_delivery_sample :
    ∃ s consumer, exec (fanoutStep 1) {} sampleRun = some s ∧
      s.consumers[0]? = some consumer ∧ s.stack = [] ∧ s.delivered.length = 5 ∧
      consumer.received = [samplePicture 1 true, samplePicture 5 true] ∧
      consumer.received.Sublist (s.delivered.drop 0) ∧
      Resyncs IsKey (s.delivered.drop 0) consumer.received ∧
      consumer.queue.length ≤ 1 ∧
      consumer = Consumer.applyAll 1 {} (eventsOf 0 sampleRun) ∧
      consumer.offered <+: s.delivered.drop 0 ∧
      (consumer.detached = false → s.stack = [] → consumer.offered = s.delivered.drop 0) := by
  refine ⟨_, _, rfl, rfl, rfl, rfl, rfl, ?_⟩
  exact @fanout_delivery _ _ _ sampleRun _ 0 0 _ rfl rfl rfl

end EufySdk.SharedLiveSource
