import Mathlib.Tactic
import EufySdk.Lib.History
import EufySdk.Transport.P2p.PullSteps

/-!
# No consumer is left in silence

A consumer that is attached and has been told neither `stop` nor `error` has a stream
behind it, and a deadline pending as long as nothing has arrived. An error of the stream
and an expired deadline are told by an `error` event alone, which is skipped where a
consumer has no listener for it, and the stream is gone then.

- `told`, `unheard` — what the log says about a consumer
- `Served` — the property of a state
- `keepsServed_iff` — the runs that keep it
-/

namespace EufySdk.SharedLiveSource

open Machine History

/-! ## What a consumer has been told -/

def Event.tells (c : ℕ) : Event → Bool
  | .error d _ | .stopped d => d = c
  | _ => false

/-- Consumer `c` has been told `stop` or `error`. -/
def told (c : ℕ) (log : List Event) : Bool := log.any (Event.tells c)

def hears (c : ℕ) : Event → Option Bool
  | .video _ | .audio => some true
  | .opened => some false
  | .joined d => if d = c then some false else none
  | _ => none

/-- Nothing has arrived since the stream was opened, or since consumer `c` joined it. -/
def unheard (c : ℕ) (log : List Event) : Bool := !newest (hears c) log

namespace Pull

/-- Every consumer that has not been told otherwise has a stream behind it, with a deadline
while nothing has arrived. -/
def Served (s : Pull) : Prop :=
  ∀ v ∈ s.views, told v.id s.log = true ∨
    (s.stream = true ∧ (unheard v.id s.log = true → s.warmDeadlineTimer = true))

def Label.isItem : Label → Bool
  | .video _ | .audio => true
  | _ => false

/-- A step leaves every consumer served, and a deadline that was pending either stays so or
ends in an item, or in every consumer being told. -/
def KeepsServed (o : Options) (s : Pull) (label : Label) : Prop :=
  ∀ t, step o s label = some t → t.Served ∧
    (s.warmDeadlineTimer = true → t.warmDeadlineTimer = false →
      label.isItem = true ∨ ∀ v ∈ t.views, told v.id t.log = true)

/-- The stream ends with an `error` that one of its consumers does not listen for. -/
def EndsUnheard (s : Pull) (label : Label) : Prop :=
  ((∃ err, label = .upstreamError err) ∨ label = .deadline) ∧ s.can label = true ∧
    ∃ v ∈ s.views, v.listens = false ∧ told v.id s.log = false

/-! ## What a step tells -/

theorem told_append (c : ℕ) (es log : List Event) :
    told c (es ++ log) = (told c es || told c log) := List.any_append

section Telling

variable {o : Options} {s t : Pull}

theorem told_teardown (c : ℕ) : told c (s.teardown true).log = told c s.log := by
  unfold teardown
  dsimp only
  split <;> split <;> rfl

theorem told_endAll {v : View} (hv : v ∈ s.views) : told v.id s.endAll.log = true := by
  rw [endAll, told_append, Bool.or_eq_true]
  refine .inl (List.any_eq_true.mpr ⟨.stopped v.id, ?_, by simp [Event.tells]⟩)
  exact List.mem_map.mpr ⟨v, List.mem_reverse.mpr hv, rfl⟩

/-- An `error` reaches the consumers that listen. -/
theorem told_fail (h : s.Sound) (err : StreamError) {v : View} (hv : v ∈ s.views) :
    told v.id (s.fail err).log = true ↔ v.listens = true ∨ told v.id s.log = true := by
  rw [fail, told_append, Bool.or_eq_true]
  refine or_congr_left ⟨fun htold => ?_, fun hlistens => ?_⟩
  · obtain ⟨e, he, htells⟩ := List.any_eq_true.mp htold
    obtain ⟨u, hu, rfl⟩ := List.mem_map.mp he
    obtain ⟨hmem, hlistens⟩ := List.mem_filter.mp (List.mem_reverse.mp hu)
    have hid : u.id = v.id := by simpa [Event.tells] using htells
    rw [List.inj_on_of_nodup_map h.nodup hv hmem hid.symm]
    exact hlistens
  · refine List.any_eq_true.mpr ⟨.error v.id err, List.mem_map.mpr ⟨v, ?_, rfl⟩, ?_⟩
    · exact List.mem_reverse.mpr (List.mem_filter.mpr ⟨hv, hlistens⟩)
    · simp [Event.tells]

theorem tells_of_note {c : ℕ} {e : Event} (h : e.note = true) : e.tells c = false := by
  cases e <;> first | rfl | cases h

theorem Coasts.told (h : Coasts s t) (c : ℕ) : told c t.log = told c s.log := by
  obtain ⟨es, hlog, hnotes⟩ := h.log
  have hnone : SharedLiveSource.told c es = false :=
    List.any_eq_false.mpr fun e he => by rw [tells_of_note (hnotes e he).1]; exact Bool.false_ne_true
  rw [hlog, told_append, hnone, Bool.false_or]

/-- Nothing is heard of it that was not before, by a consumer that was there. -/
theorem Coasts.unheard (h : Coasts s t) {c : ℕ} (hc : c < s.ids) :
    unheard c t.log = unheard c s.log := by
  obtain ⟨es, hlog, hnotes⟩ := h.log
  have hpass : ∀ e ∈ es, hears c e = none := by
    intro e he
    obtain ⟨hnote, hjoined⟩ := hnotes e he
    cases e with
    | joined d =>
      have hd : d ≠ c := by
        rw [hjoined d rfl]
        exact hc.ne'
      exact if_neg hd
    | _ => first | rfl | cases hnote
  rw [SharedLiveSource.unheard, hlog, newest_append hpass]
  rfl

theorem Served.coasts (h : s.Served) (hsound : s.Sound) (hcoasts : Coasts s t)
    (hviews : ∀ v ∈ t.views, ∃ u ∈ s.views, u.id = v.id) : t.Served := by
  intro v hv
  obtain ⟨u, hu, hid⟩ := hviews v hv
  rw [← hid, hcoasts.told, hcoasts.stream, hcoasts.warmDeadlineTimer,
    hcoasts.unheard (hsound.fresh u hu)]
  exact h u hu

/-- While a stream runs with its deadline pending, everyone is served. -/
theorem served_of_deadline (hstream : t.stream = true) (hdeadline : t.warmDeadlineTimer = true) :
    t.Served := fun _ _ => .inr ⟨hstream, fun _ => hdeadline⟩

/-- Everyone has been told. -/
theorem served_of_told (h : ∀ v ∈ t.views, told v.id t.log = true) : t.Served :=
  fun v hv => .inl (h v hv)

theorem attach_waits (h : s.Sound) :
    (s.attach o).stream = true ∧ (s.attach o).warmDeadlineTimer = true := by
  cases hstream : s.stream with
  | false =>
    rw [attach_warm o s hstream]
    exact ⟨rfl, rfl⟩
  | true =>
    have hjoin := s.coasts_join
    cases hpending : s.warmDeadlineTimer || s.warmRetryTimer with
    | true =>
      have hdeadline : s.warmDeadlineTimer = true :=
        (Bool.or_eq_true _ _ |>.mp hpending).elim id h.source.retry
      rw [attach_shared o s hstream hpending, hjoin.stream, hjoin.warmDeadlineTimer]
      exact ⟨hstream, hdeadline⟩
    | false =>
      obtain ⟨hsource, -⟩ := attach_watching o s hstream hpending
      rw [hsource]
      exact ⟨s.join_stream.trans hstream, rfl⟩

theorem views_eq_nil (h : s.Sound) (hnone : s.consumers = 0) : s.views = [] := by
  rw [h.count] at hnone
  exact List.eq_nil_of_length_eq_zero hnone

/-- An item is heard by everyone. -/
theorem served_of_item {e : Event} {log : List Event} (hstream : t.stream = true)
    (hlog : t.log = e :: log) (hitem : ∀ c, hears c e = some true) : t.Served := by
  refine fun v _ => .inr ⟨hstream, fun hunheard => ?_⟩
  rw [unheard, hlog, newest_cons, hitem] at hunheard
  cases hunheard

/-- Whoever is attached when the stream ends has been told. -/
theorem told_of_ends (h : s.Sound) {label : Label} (hcan : s.can label = true)
    (hnot : ¬EndsUnheard s label)
    (hends : label = .upstreamEnd ∨ (∃ err, label = .upstreamError err) ∨ label = .deadline ∨
      label = .lingerElapses ∨ label = .graceElapses) :
    ∀ v ∈ (s.act o label).views, told v.id (s.act o label).log = true := by
  have hlistens : (∃ err, label = .upstreamError err) ∨ label = .deadline →
      ∀ v ∈ s.views, v.listens = true ∨ told v.id s.log = true := by
    intro hlabel v hv
    by_contra hunheard
    rw [not_or, Bool.not_eq_true, Bool.not_eq_true] at hunheard
    exact hnot ⟨hlabel, hcan, v, hv, hunheard⟩
  rcases hends with rfl | ⟨err, rfl⟩ | rfl | rfl | rfl
  · rw [h.act_upstreamEnd hcan]
    intro v hv
    rw [told_teardown]
    apply told_endAll
    exact hv
  · rw [h.act_upstreamError hcan]
    intro v hv
    rw [told_teardown, told_fail h _ hv]
    exact hlistens (.inl ⟨err, rfl⟩) v hv
  · rw [h.act_deadline hcan]
    intro v hv
    rw [told_teardown]
    exact (@told_fail s h _ v hv).mpr (hlistens (.inr rfl) v hv)
  · have hnone := views_eq_nil h (h.source.lingers hcan)
    intro v hv
    rw [show (s.act o .lingerElapses).views = s.views from rfl, hnone] at hv
    cases hv
  · intro v hv
    rw [show s.act o .graceElapses = s.endAll.teardown true from rfl, told_teardown]
    exact told_endAll hv

theorem keepsServed_of_coasts (h : s.Sound) (hserved : s.Served) {label : Label}
    (hcoasts : Coasts s (s.act o label))
    (hviews : ∀ v ∈ (s.act o label).views, ∃ u ∈ s.views, u.id = v.id) : KeepsServed o s label := by
  intro t hstep
  obtain ⟨-, rfl⟩ := step_eq_some.mp hstep
  refine ⟨hserved.coasts h hcoasts hviews, fun hpending hgone => ?_⟩
  rw [hcoasts.warmDeadlineTimer, hpending] at hgone
  cases hgone

theorem keepsServed_of_told {label : Label}
    (htold : ∀ v ∈ (s.act o label).views, told v.id (s.act o label).log = true) :
    KeepsServed o s label := by
  intro t hstep
  obtain ⟨-, rfl⟩ := step_eq_some.mp hstep
  exact ⟨served_of_told htold, fun _ _ => .inr htold⟩

theorem keepsServed_of_not_endsUnheard (h : s.Sound) (hserved : s.Served) {label : Label}
    (hnot : ¬EndsUnheard s label) : KeepsServed o s label := by
  by_cases hcoasts : label.coasts = true
  · exact keepsServed_of_coasts h hserved (.act o s hcoasts) (act_views hcoasts)
  intro t hstep
  obtain ⟨hcan, rfl⟩ := step_eq_some.mp hstep
  cases label with
  | attach =>
    obtain ⟨hstream, hdeadline⟩ := attach_waits (o := o) h
    refine ⟨served_of_deadline hstream hdeadline, fun _ hgone => ?_⟩
    rw [show (s.act o .attach).warmDeadlineTimer = true from hdeadline] at hgone
    cases hgone
  | detach c recycled =>
    by_cases hstays : recycled = false ∨ s.consumers - 1 ≠ 0
    · refine @keepsServed_of_coasts o s h hserved (.detach c recycled) (.detach s c hstays)
        (fun v hv => ⟨v, ?_, rfl⟩) _ hstep
      exact List.mem_of_mem_filter (detach_views hstays ▸ hv)
    · rw [not_or, Bool.not_eq_false, not_not] at hstays
      obtain ⟨rfl, hlast⟩ := hstays
      obtain ⟨v, hv, -⟩ : ∃ v ∈ s.views, v.id = c := by simpa [can] using hcan
      obtain ⟨hnone, -⟩ := detach_last (c := c) true hlast (h.open_of_view hv)
      apply keepsServed_of_told _ _ hstep
      intro u hu
      rw [show (s.act o (.detach c true)).views = [] from hnone] at hu
      cases hu
  | video keyframe =>
    refine ⟨served_of_item ?_ (onVideo_log o s keyframe) fun c => rfl, fun _ _ => .inl rfl⟩
    show (s.onVideo o keyframe).stream = true
    rw [onVideo_toSource, Source.onVideo_stream]
    exact hcan
  | audio =>
    refine ⟨@served_of_item s.onAudio _ _ ?_ rfl fun c => rfl, fun _ _ => .inl rfl⟩
    exact (Source.settleReuseWatch_stream _).trans hcan
  | upstreamEnd => exact keepsServed_of_told (told_of_ends h hcan hnot (.inl rfl)) _ hstep
  | upstreamError err =>
    exact keepsServed_of_told (told_of_ends h hcan hnot (.inr (.inl ⟨err, rfl⟩))) _ hstep
  | deadline =>
    exact keepsServed_of_told (told_of_ends h hcan hnot (.inr (.inr (.inl rfl)))) _ hstep
  | lingerElapses =>
    exact keepsServed_of_told (told_of_ends h hcan hnot (.inr (.inr (.inr (.inl rfl))))) _ hstep
  | graceElapses =>
    exact keepsServed_of_told (told_of_ends h hcan hnot (.inr (.inr (.inr (.inr rfl))))) _ hstep
  | rewarm =>
    by_cases hacts : s.sessionReplacementAsked = true ∧ s.state = .warming
    · obtain ⟨hsource, -⟩ := h.rewarm_warming hacts.1 hacts.2
      obtain ⟨hstream, hretained⟩ := h.source.warming hacts.2
      have hdeadline := h.source.awaited hstream hretained
      have hwaits : s.rewarm.stream = true ∧ s.rewarm.warmDeadlineTimer = true := by
        rw [hsource]
        exact ⟨hstream, hdeadline⟩
      refine ⟨served_of_deadline hwaits.1 hwaits.2, fun _ hgone => ?_⟩
      rw [show (s.act o .rewarm).warmDeadlineTimer = true from hwaits.2] at hgone
      cases hgone
    · rw [Pull.act, rewarm_inert s hacts]
      refine ⟨hserved, fun hpending hgone => ?_⟩
      rw [hpending] at hgone
      cases hgone
  | dispose =>
    apply keepsServed_of_told _ _ hstep
    have hnone : s.dispose.views = [] := by
      unfold Pull.dispose
      split
      · rename_i hdisposed
        exact views_eq_nil h (h.source.disposed hdisposed).2
      · rfl
    intro v hv
    rw [show (s.act o .dispose).views = s.dispose.views from rfl, hnone] at hv
    cases hv
  | listen | unacknowledged | reissue | budgetElapses | extend => exact absurd rfl hcoasts

theorem not_endsUnheard_of_keepsServed (h : s.Sound) {label : Label}
    (hkeeps : KeepsServed o s label) : ¬EndsUnheard s label := by
  rintro ⟨hlabel, hcan, v, hv, hdeaf, huntold⟩
  obtain ⟨hserved, -⟩ := hkeeps _ (step_eq_some.mpr ⟨hcan, rfl⟩)
  -- the consumer is told nothing, and the stream behind it is gone
  have hunheard : ∀ err, told v.id (s.fail err).log = false := by
    intro err
    rw [← Bool.not_eq_true, told_fail h err hv, hdeaf, huntold]
    decide
  rcases hlabel with ⟨err, rfl⟩ | rfl
  · rw [h.act_upstreamError hcan] at hserved
    rcases hserved v hv with htold | ⟨hstream, -⟩
    · rw [told_teardown, hunheard] at htold
      cases htold
    · cases hstream
  · rw [h.act_deadline hcan] at hserved
    rcases hserved v hv with htold | ⟨hstream, -⟩
    · rw [told_teardown] at htold
      cases (hunheard _).symm.trans htold
    · cases hstream

end Telling

/-- A consumer that listens for no `error`, and an error of the stream. -/
def errorUnlistened : List Label := [.attach, .video true, .upstreamError "gone"]

end Pull

end EufySdk.SharedLiveSource
