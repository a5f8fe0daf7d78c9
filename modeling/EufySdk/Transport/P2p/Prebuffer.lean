import Mathlib.Tactic
import EufySdk.Lib.Window
import EufySdk.Transport.P2p.FanoutDelivery

/-!
# The prebuffer ring

The rolling window of delivered items that `transport/p2p/shared-live-source.ts` keeps
for a consumer that asks for what came before it attached. A duration is `none` where
the source has no finite number; instants and durations are exact.

- `pushRing`, `bufferedMedia` — retention and drain
- `retained` — the ring behind the items of one stream generation
- `pushRing_retains` — the step lemma: a trim never goes past where a later drain
  begins
- `prebuffer_refines_history` — the ring answers as the untrimmed history would, and
  the answer joins up with the live items
-/

namespace EufySdk.SharedLiveSource

open Window Machine

variable {β : Type*}

def durationMs (seconds : Option ℚ) : ℚ :=
  let milliseconds := seconds.getD 0 * 1000
  if 0 < milliseconds then milliseconds else 0

/-- The loop of `windowStart` from index `i` on. -/
def windowStartFrom (cutoff : ℚ) (start : Option ℕ) (i : ℕ) :
    List (TimedMediaFrame β) → Option ℕ
  | [] => start
  | item :: rest =>
    if item.isKeyframe = false then windowStartFrom cutoff start (i + 1) rest
    else if cutoff < item.timestampMs ∧ start.isSome then start
    else windowStartFrom cutoff (some i) (i + 1) rest

def windowStart (ring : List (TimedMediaFrame β)) (cutoff : ℚ) : ℕ :=
  (windowStartFrom cutoff none 0 ring).getD 0

def pushRing (preBufferMs : ℚ) (ring : List (TimedMediaFrame β)) (item : TimedMediaFrame β) :
    List (TimedMediaFrame β) :=
  if preBufferMs ≤ 0 then ring
  else
    let start := windowStart (ring ++ [item]) (item.timestampMs - preBufferMs)
    if 0 < start then (ring ++ [item]).drop start else ring ++ [item]

def bufferedMedia (preBufferMs : ℚ) (ring : List (TimedMediaFrame β)) (seconds : Option ℚ)
    (now : ℚ) : List (TimedMediaFrame β) :=
  let requested := min (durationMs seconds) preBufferMs
  if requested ≤ 0 ∨ ring.length = 0 then []
  else
    let start := windowStart ring (now - requested)
    if (ring[start]?).any TimedMediaFrame.isKeyframe then ring.drop start else []

/-- The ring behind the items delivered since it was last cleared. -/
def retained (preBufferMs : ℚ) (items : List (TimedMediaFrame β)) : List (TimedMediaFrame β) :=
  items.foldl (pushRing preBufferMs) []

/-- The consumer of `attachWithPrebuffer`, not keyframe-primed, and its buffered items. -/
def attachWithPrebuffer (preBufferMs : ℚ) (ring : List (TimedMediaFrame β))
    (seconds : Option ℚ) (now : ℚ) : Consumer β × List (TimedMediaFrame β) :=
  ({}, bufferedMedia preBufferMs ring seconds now)

/-! ## Where a window begins -/

/-- Items in the order they arrived. -/
def Arrived (items : List (TimedMediaFrame β)) : Prop :=
  items.Pairwise fun a b => a.timestampMs ≤ b.timestampMs

abbrev IsWindowStart (cutoff : ℚ) (items : List (TimedMediaFrame β)) (k : ℕ) : Prop :=
  IsStart IsKey TimedMediaFrame.timestampMs cutoff items k

/-- What the loop knows at index `i`: the start so far is one for the items seen, and without a
start there was no keyframe. -/
def LoopInv (cutoff : ℚ) (seen : List (TimedMediaFrame β)) : Option ℕ → Prop
  | some k => IsWindowStart cutoff seen k
  | none => ∀ item ∈ seen, ¬IsKey item

theorem isWindowStart_append {cutoff : ℚ} {items later : List (TimedMediaFrame β)} {k : ℕ}
    (h : IsWindowStart cutoff items k)
    (hlater : ∀ item ∈ later, IsKey item → cutoff < item.timestampMs) :
    IsWindowStart cutoff (items ++ later) k := by
  refine ⟨h.early.append later, fun j hj y hy hkey => ?_⟩
  rcases Nat.lt_or_ge j items.length with hlt | hge
  · rw [List.getElem?_append_left hlt] at hy
    exact h.latest j hj y hy hkey
  · rw [List.getElem?_append_right hge] at hy
    exact hlater y (List.mem_of_getElem? hy) hkey

/-- A keyframe that is taken as the start is the last item seen. -/
theorem isWindowStart_last {cutoff : ℚ} {seen : List (TimedMediaFrame β)}
    {item : TimedMediaFrame β} (hkey : IsKey item)
    (htaken : item.timestampMs ≤ cutoff ∨ ∀ other ∈ seen, ¬IsKey other) :
    IsWindowStart cutoff (seen ++ [item]) seen.length := by
  refine ⟨⟨item, List.getElem?_concat_length, hkey, htaken.imp id ?_⟩, ?_⟩
  · intro hnone j hj y hy
    rw [List.getElem?_append_left hj] at hy
    exact hnone y (List.mem_of_getElem? hy)
  · intro j hj y hy
    rw [List.getElem?_eq_none (by rw [List.length_append, List.length_singleton]; omega)] at hy
    cases hy

theorem loopInv_windowStartFrom (cutoff : ℚ) (rest seen : List (TimedMediaFrame β))
    (start : Option ℕ) (harrived : Arrived (seen ++ rest)) (h : LoopInv cutoff seen start) :
    LoopInv cutoff (seen ++ rest) (windowStartFrom cutoff start seen.length rest) := by
  induction rest generalizing seen start with
  | nil =>
    rw [List.append_nil]
    exact h
  | cons item rest ih =>
    have hnext : seen ++ item :: rest = (seen ++ [item]) ++ rest := by simp
    have hlength : seen.length + 1 = (seen ++ [item]).length := by simp
    rw [windowStartFrom]
    by_cases hkey : item.isKeyframe = false
    · rw [if_pos hkey, hnext, hlength]
      refine ih (seen ++ [item]) start (hnext ▸ harrived) ?_
      have hnot : ¬IsKey item := by simp [IsKey, hkey]
      cases start with
      | some k =>
        refine isWindowStart_append h fun other hother hotherKey => ?_
        obtain rfl := List.mem_singleton.mp hother
        exact absurd hotherKey hnot
      | none =>
        intro other hother
        rcases List.mem_append.mp hother with hseen | hlast
        · exact h other hseen
        · obtain rfl := List.mem_singleton.mp hlast
          exact hnot
    · rw [if_neg hkey]
      rw [Bool.not_eq_false] at hkey
      by_cases hbreak : cutoff < item.timestampMs ∧ start.isSome
      · -- everything from here on arrived after the cutoff
        rw [if_pos hbreak]
        obtain ⟨hlate, hsome⟩ := hbreak
        obtain ⟨k, rfl⟩ := Option.isSome_iff_exists.mp hsome
        refine isWindowStart_append h fun other hother _ => ?_
        rcases List.mem_cons.mp hother with rfl | hrest
        · exact hlate
        · have hpairs := (List.pairwise_append.mp harrived).2.1
          exact hlate.trans_le ((List.pairwise_cons.mp hpairs).1 other hrest)
      · rw [if_neg hbreak, hnext, hlength]
        refine ih (seen ++ [item]) (some seen.length) (hnext ▸ harrived) ?_
        refine isWindowStart_last hkey ?_
        cases start with
        | some k => exact .inl (not_lt.mp fun hlate => hbreak ⟨hlate, rfl⟩)
        | none => exact .inr h

/-- The loop finds where the window begins, or there is no keyframe. -/
theorem windowStart_spec (cutoff : ℚ) {ring : List (TimedMediaFrame β)}
    (harrived : Arrived ring) :
    IsWindowStart cutoff ring (windowStart ring cutoff) ∨
      (windowStart ring cutoff = 0 ∧ ∀ item ∈ ring, ¬IsKey item) := by
  have hloop := loopInv_windowStartFrom cutoff ring [] none harrived
    (fun item hitem => by cases hitem)
  rw [List.nil_append, List.length_nil] at hloop
  rw [windowStart]
  cases hstart : windowStartFrom cutoff none 0 ring with
  | some k =>
    rw [hstart] at hloop
    exact .inl hloop
  | none =>
    rw [hstart] at hloop
    exact .inr ⟨rfl, hloop⟩

/-- What a drain with a window hands over. -/
theorem bufferedMedia_eq {preBufferMs now : ℚ} {seconds : Option ℚ}
    {ring : List (TimedMediaFrame β)} (harrived : Arrived ring)
    (hrequested : 0 < min (durationMs seconds) preBufferMs) :
    (∃ k, IsWindowStart (now - min (durationMs seconds) preBufferMs) ring k ∧
        bufferedMedia preBufferMs ring seconds now = ring.drop k) ∨
      ((∀ item ∈ ring, ¬IsKey item) ∧ bufferedMedia preBufferMs ring seconds now = []) := by
  have hspec := windowStart_spec (now - min (durationMs seconds) preBufferMs) harrived
  unfold bufferedMedia
  rcases ring with _ | ⟨first, rest⟩
  · exact .inr ⟨fun item hitem => (by cases hitem), by simp⟩
  rw [if_neg (by simpa using hrequested)]
  rcases hspec with hstart | ⟨hzero, hnone⟩
  · obtain ⟨x, hx, hkey, -⟩ := hstart.early
    refine .inl ⟨_, hstart, ?_⟩
    rw [if_pos]
    rw [hx]
    exact hkey
  · refine .inr ⟨hnone, ?_⟩
    rw [if_neg]
    rw [hzero]
    exact hnone first List.mem_cons_self

/-! ## The ring against the history -/

/-- The ring is the history from index `m` on, which is where it begins or early enough for
every window that ends behind the last item. -/
structure Retains (preBufferMs : ℚ) (history ring : List (TimedMediaFrame β)) (m : ℕ) :
    Prop where
  ring_eq : ring = history.drop m
  early : m = 0 ∨ ∃ last ∈ history.getLast?,
    IsEarly IsKey TimedMediaFrame.timestampMs (last.timestampMs - preBufferMs) history m

theorem Retains.le_length {preBufferMs : ℚ} {history ring : List (TimedMediaFrame β)} {m : ℕ}
    (h : Retains preBufferMs history ring m) : m ≤ history.length := by
  rcases h.early with rfl | ⟨-, -, x, hx, -⟩
  · exact Nat.zero_le _
  · exact (List.getElem?_eq_some_iff.mp hx).1.le

/-- One push: the trim goes no further than the start of the widest window. -/
theorem pushRing_retains {preBufferMs : ℚ} (hpositive : 0 < preBufferMs)
    {history ring : List (TimedMediaFrame β)} {m : ℕ} {item : TimedMediaFrame β}
    (harrived : Arrived (history ++ [item])) (h : Retains preBufferMs history ring m) :
    ∃ m', Retains preBufferMs (history ++ [item]) (pushRing preBufferMs ring item) m' := by
  have hring : ring ++ [item] = (history ++ [item]).drop m := by
    rw [h.ring_eq, List.drop_append_of_le_length h.le_length]
  have hlast : item ∈ (history ++ [item]).getLast? := by rw [List.getLast?_concat]; rfl
  have hearly : m = 0 ∨ IsEarly IsKey TimedMediaFrame.timestampMs
      (item.timestampMs - preBufferMs) (history ++ [item]) m := by
    rcases h.early with hzero | ⟨last, hmem, hearly⟩
    · exact .inl hzero
    · refine .inr ((hearly.append [item]).mono ?_)
      obtain ⟨before, rfl⟩ := List.getLast?_eq_some_iff.mp hmem
      have hle : last.timestampMs ≤ item.timestampMs :=
        (List.pairwise_append.mp harrived).2.2 last (by simp) item (by simp)
      linarith
  have hnext : Arrived (ring ++ [item]) := by
    rw [hring]
    exact harrived.sublist (List.drop_sublist _ _)
  have hspec := windowStart_spec (item.timestampMs - preBufferMs) hnext
  unfold pushRing
  rw [if_neg (not_le.mpr hpositive)]
  dsimp only
  split
  · rename_i htrim
    have hstart := hspec.resolve_right fun hnone => by omega
    refine ⟨m + _, by rw [hring, List.drop_drop], .inr ⟨item, hlast, ?_⟩⟩
    exact IsEarly.of_drop hearly (hring ▸ hstart.early)
  · exact ⟨m, hring, hearly.imp id fun he => ⟨item, hlast, he⟩⟩

theorem retained_retains {preBufferMs : ℚ} (hpositive : 0 < preBufferMs)
    {items : List (TimedMediaFrame β)} (harrived : Arrived items) :
    ∃ m, Retains preBufferMs items (retained preBufferMs items) m := by
  induction items using List.reverseRecOn with
  | nil => exact ⟨0, rfl, .inl rfl⟩
  | append_singleton items item ih =>
    obtain ⟨m, hm⟩ := ih (List.pairwise_append.mp harrived).1
    rw [retained, List.foldl_append]
    exact pushRing_retains hpositive harrived hm

/-- Everything retained begins no later than a drain of the history does. -/
theorem retained_drain {preBufferMs cutoff : ℚ} {items : List (TimedMediaFrame β)} {k : ℕ}
    (hpositive : 0 < preBufferMs) (harrived : Arrived items)
    (hcutoff : ∀ item ∈ items, item.timestampMs - preBufferMs ≤ cutoff)
    (hstart : IsWindowStart cutoff items k) :
    ∃ m ≤ k, retained preBufferMs items = items.drop m ∧
      IsWindowStart cutoff (retained preBufferMs items) (k - m) := by
  obtain ⟨m, hm⟩ := retained_retains hpositive harrived
  have hle : m ≤ k := by
    rcases hm.early with rfl | ⟨last, hlast, hearly⟩
    · exact Nat.zero_le _
    · exact hearly.le_start (hcutoff last (List.mem_of_getLast? hlast)) hstart
  refine ⟨m, hle, hm.ring_eq, ?_⟩
  rw [hm.ring_eq]
  exact hstart.drop hle

/-! ## A consumer that only listens -/

/-- A consumer that neither pauses nor detaches has nothing queued and has received all. -/
structure Listening (c : Consumer β) : Prop where
  attached : c.detached = false
  unpaused : c.paused = false
  queue : c.queue = []
  awaiting : c.awaitingKeyframe = false
  received : c.received = c.offered

theorem flush_paused (c : Consumer β) (item : TimedMediaFrame β) :
    (c.flush item).paused = c.paused := by
  unfold Consumer.flush
  split <;> [split; skip] <;> rfl

theorem Listening.offer {c : Consumer β} (h : Listening c) (maxQueue : ℕ)
    (item : TimedMediaFrame β) : Listening (c.offer maxQueue item) := by
  have haccept : c.offer maxQueue item =
      { c with offered := c.offered ++ [item] }.flush item := by
    rw [Consumer.offer, if_neg (by simp [h.attached])]
    cases item <;> simp [Consumer.deliver, Consumer.accept, h.attached, h.awaiting, h.unpaused,
      h.queue]
  rw [haccept]
  refine ⟨?_, ?_, ?_, ?_, ?_⟩
  · rw [Consumer.flush_detached]
    exact h.attached
  · rw [flush_paused]
    exact h.unpaused
  · rw [Consumer.flush_queue]
    exact h.queue
  · rw [Consumer.flush_awaitingKeyframe]
    exact h.awaiting
  · rw [Consumer.flush_received, Consumer.flush_offered, h.received]

theorem Listening.applyAll {c : Consumer β} (h : Listening c) (maxQueue : ℕ)
    {events : List (ConsumerEvent β)} (hevents : ∀ e ∈ events, ∃ item, e = .offer item) :
    Listening (c.applyAll maxQueue events) := by
  induction events generalizing c with
  | nil => exact h
  | cons e events ih =>
    obtain ⟨item, rfl⟩ := hevents e List.mem_cons_self
    exact ih (h.offer maxQueue item) fun e he => hevents e (List.mem_cons_of_mem _ he)

/-- A drain of the ring answers as one of the history it was trimmed from. -/
theorem bufferedMedia_retained (preBufferMs : ℚ) {now : ℚ} (seconds : Option ℚ)
    {items : List (TimedMediaFrame β)} (harrived : Arrived items)
    (hnow : ∀ item ∈ items, item.timestampMs ≤ now) :
    bufferedMedia preBufferMs (retained preBufferMs items) seconds now =
      bufferedMedia preBufferMs items seconds now := by
  rcases le_or_gt (min (durationMs seconds) preBufferMs) 0 with hnone | hrequested
  · simp only [bufferedMedia, hnone, true_or, if_true]
  have hpositive : 0 < preBufferMs := hrequested.trans_le (min_le_right _ _)
  have hcutoff : ∀ item ∈ items,
      item.timestampMs - preBufferMs ≤ now - min (durationMs seconds) preBufferMs := by
    intro item hitem
    have hle := hnow item hitem
    have hmin := min_le_right (durationMs seconds) preBufferMs
    linarith
  obtain ⟨m, hm⟩ := retained_retains hpositive harrived
  have hring : Arrived (retained preBufferMs items) := by
    rw [hm.ring_eq]
    exact harrived.sublist (List.drop_sublist _ _)
  rcases bufferedMedia_eq harrived hrequested with ⟨k, hk, heq⟩ | ⟨hkeys, heq⟩
  · obtain ⟨m', hle, hdrop, hstart⟩ := retained_drain hpositive harrived hcutoff hk
    rcases bufferedMedia_eq hring hrequested with ⟨k', hk', heq'⟩ | ⟨hkeys, -⟩
    · obtain rfl := hk'.unique hstart
      rw [heq, heq', hdrop, List.drop_drop, Nat.add_sub_of_le hle]
    · obtain ⟨x, hx, hkey, -⟩ := hstart.early
      exact absurd hkey (hkeys x (List.mem_of_getElem? hx))
  · rcases bufferedMedia_eq hring hrequested with ⟨k', hk', -⟩ | ⟨-, heq'⟩
    · obtain ⟨x, hx, hkey, -⟩ := hk'.early
      have hmem := List.mem_of_getElem? hx
      rw [hm.ring_eq] at hmem
      exact absurd hkey (hkeys x (List.mem_of_mem_drop hmem))
    · rw [heq, heq']

variable [DecidableEq β]

/-- **The ring refines the untrimmed history.** A drain answers as it would from all of the
items; the answer begins at the newest keyframe at or before the cutoff, or else at the oldest
one retained; and for a consumer attached with it that only listens, what it receives joins up
with the answer. -/
theorem prebuffer_refines_history {preBufferMs now : ℚ} {seconds : Option ℚ}
    {items : List (TimedMediaFrame β)} (harrived : Arrived items)
    (hnow : ∀ item ∈ items, item.timestampMs ≤ now) :
    let ring := retained preBufferMs items
    let cutoff := now - min (durationMs seconds) preBufferMs
    let buffered := (attachWithPrebuffer preBufferMs ring seconds now).2
    buffered = bufferedMedia preBufferMs items seconds now ∧
      (0 < min (durationMs seconds) preBufferMs →
        (∃ k, NewestOrOldest IsKey TimedMediaFrame.timestampMs cutoff ring k ∧
            buffered = ring.drop k) ∨
          ((∀ item ∈ ring, ¬IsKey item) ∧ buffered = [])) ∧
      ∀ (maxQueue : ℕ) (labels : List (FanoutLabel β)) (s : Fanout β) (c : ℕ)
        (consumer : Consumer β), exec (fanoutStep maxQueue) {} labels = some s →
        s.consumers[c]? = some consumer → s.attachedAt[c]? = some items.length →
        items <+: s.delivered → (∀ e ∈ eventsOf c labels, ∃ item, e = .offer item) →
        s.stack = [] → buffered ≠ [] →
        ∃ k, NewestOrOldest IsKey TimedMediaFrame.timestampMs cutoff items k ∧
          buffered ++ consumer.received = s.delivered.drop k := by
  dsimp only [attachWithPrebuffer]
  have hhistory := bufferedMedia_retained preBufferMs seconds harrived hnow
  refine ⟨hhistory, fun hrequested => ?_, ?_⟩
  · obtain ⟨m, hm⟩ := retained_retains (hrequested.trans_le (min_le_right _ _)) harrived
    have hring : Arrived (retained preBufferMs items) := by
      rw [hm.ring_eq]
      exact harrived.sublist (List.drop_sublist _ _)
    refine (bufferedMedia_eq hring hrequested).imp ?_ id
    rintro ⟨k, hk, heq⟩
    exact ⟨k, hk.newest_or_oldest, heq⟩
  · intro maxQueue labels s c consumer hrun hconsumer hattachedAt hpre hevents hstack hsome
    have hrequested : 0 < min (durationMs seconds) preBufferMs := by
      by_contra hnone
      refine hsome ?_
      simp only [bufferedMedia, not_lt.mp hnone, true_or, if_true]
    rw [hhistory] at hsome ⊢
    obtain ⟨k, hk, heq⟩ := (bufferedMedia_eq harrived hrequested).resolve_right
      fun hnone => hsome hnone.2
    have hlistening : Listening consumer := by
      rw [(run_good (run_of_exec hrun)).2.own c consumer hconsumer]
      exact Listening.applyAll ⟨rfl, rfl, rfl, rfl, rfl⟩ maxQueue hevents
    obtain ⟨later, hlater⟩ := hpre
    have hreceived : consumer.received = later := by
      rw [hlistening.received,
        offered_eq (run_of_exec hrun) hconsumer hattachedAt hlistening.attached hstack,
        ← hlater, List.drop_left]
    refine ⟨k, hk.newest_or_oldest, ?_⟩
    obtain ⟨x, hx, -⟩ := hk.early
    have hle : k ≤ items.length := (List.getElem?_eq_some_iff.mp hx).1.le
    rw [heq, hreceived, ← hlater, List.drop_append_of_le_length hle]

def sampleItems : List (TimedMediaFrame ℕ) :=
  [samplePicture 1 true, samplePicture 2 false, samplePicture 3 true, samplePicture 4 false]

/-- A consumer attaches behind the four items, and a fifth is delivered. -/
def samplePrebufferRun : List (FanoutLabel ℕ) :=
  sampleItems.flatMap (fun item => [.deliver item, .fanOutDone]) ++
    [.attach, .deliver (samplePicture 5 false), .offer 0 (samplePicture 5 false), .fanOutDone]

theorem sampleItems_arrived : Arrived sampleItems := by
  simp [Arrived, sampleItems, samplePicture, TimedMediaFrame.timestampMs]
  norm_num

theorem prebuffer_refines_history_sample :
    ∃ s consumer, exec (fanoutStep 1) {} samplePrebufferRun = some s ∧
      s.consumers[0]? = some consumer ∧
      (attachWithPrebuffer 2 (retained 2 sampleItems) (some (1 / 1000)) 4).2 =
        bufferedMedia 2 sampleItems (some (1 / 1000)) 4 ∧
      ∃ k, NewestOrOldest IsKey TimedMediaFrame.timestampMs
          (4 - min (durationMs (some (1 / 1000))) 2) sampleItems k ∧
        (attachWithPrebuffer 2 (retained 2 sampleItems) (some (1 / 1000)) 4).2 ++
          consumer.received = s.delivered.drop k := by
  have hnow : ∀ item ∈ sampleItems, item.timestampMs ≤ 4 := by
    simp [sampleItems, samplePicture, TimedMediaFrame.timestampMs]
    norm_num
  obtain ⟨hdrain, -, hjoin⟩ :=
    @prebuffer_refines_history _ _ 2 4 (some (1 / 1000)) _ sampleItems_arrived hnow
  refine ⟨_, _, rfl, rfl, hdrain, ?_⟩
  refine hjoin 1 samplePrebufferRun _ 0 _ rfl rfl rfl ⟨[samplePicture 5 false], rfl⟩ ?_ rfl ?_
  · intro e he
    have hevents : eventsOf 0 samplePrebufferRun = [.offer (samplePicture 5 false)] := rfl
    rw [hevents, List.mem_singleton] at he
    exact ⟨_, he⟩
  · decide +kernel

end EufySdk.SharedLiveSource
