import Mathlib.Tactic
import EufySdk.Lib.Lists
import EufySdk.Lib.Machine
import EufySdk.Transport.P2p.Talkback

/-!
# One talkback per camera

A key in the map belongs to the one call that may start a talkback under it. Whatever ends
the entry stops the talkback, and a call that comes back from warming looks for its own
entry before it starts.

- `Router.Recorded` — a talkback that is open has its entry, and an entry is of a call that
  still claims it
- `Router.Closes` — what stopping talkbacks and dropping sources may do; one lemma per operation
- `Router.Tidy` — a consumer that rides a source is one of a call that is talking
- `exclusive_and_cleansUp_iff` — exclusion in every run, and the runs in which a call that
  throws leaves nothing behind
-/

namespace EufySdk.Talkback

open Machine OrderedMap SharedLiveSource

/-- Started and not yet stopped. -/
def Call.isOpen (c : Call) : Bool := c.started && !c.stopped

/-- Whether a call may have an entry in the map. -/
def Stage.claims : Stage → Bool
  | .resolving | .rejected => false
  | .warming | .warmed _ | .refused | .talking => true

namespace Router

/-- At most one talkback is open under each key. -/
def Exclusive (w : Router) : Prop :=
  ∀ (t t' : ℕ) (c c' : Call), w.calls[t]? = some c → w.calls[t']? = some c' → c.isOpen →
    c'.isOpen → c.key = c'.key → t = t'

/-- A talkback that a step starts is not stopped, and its call has the entry. -/
def StartsRecorded (w w' : Router) : Prop :=
  ∀ (t : ℕ) (c c' : Call), w.calls[t]? = some c → w'.calls[t]? = some c' →
    c.started = false → c'.started = true →
    c.stopped = false ∧ c'.stopped = false ∧ get w.talkbacks c.key = some t ∧
      get w'.talkbacks c.key = some t

/-- A call that has thrown has no entry, and no consumer among the attached ones. -/
def LeavesNothing (w : Router) : Prop :=
  ∀ (t : ℕ) (c : Call), w.calls[t]? = some c → c.stage = .rejected →
    (∀ key, get w.talkbacks key ≠ some t) ∧ ∀ p ∈ w.pulls, t ∉ p.riding

/-- A call that attaches to a source without a stream finds that its stream can be built. -/
def BuildsStream (w : Router) : Label → Prop
  | .resume t _ =>
    ∀ (c : Call) (i : ℕ) (p : Pull), w.calls[t]? = some c → c.stage = .warmed i →
      get w.talkbacks c.key = some t → w.pulls[i]? = some p → p.source.disposed = false →
      p.source.stream = false → p.buildsStream = true
  | _ => True

/-! ## Entries and talkbacks -/

/-- The invariant between the map and the calls. -/
structure Recorded (w : Router) : Prop where
  isOpen : ∀ (t : ℕ) (c : Call), w.calls[t]? = some c → c.isOpen →
    get w.talkbacks c.key = some t
  started : ∀ (t : ℕ) (c : Call), w.calls[t]? = some c → c.started → c.stage = .talking
  entry : ∀ key t, get w.talkbacks key = some t →
    ∃ c, w.calls[t]? = some c ∧ c.key = key ∧ c.stopped = false ∧ c.stage.claims = true

theorem Recorded.exclusive {w : Router} (h : w.Recorded) : w.Exclusive := by
  intro t t' c c' hc hc' hopen hopen' hkey
  have hget := h.isOpen t c hc hopen
  rw [hkey, h.isOpen t' c' hc' hopen'] at hget
  exact (Option.some.inj hget).symm

theorem Recorded.of_eq {w w' : Router} (h : w.Recorded) (hcalls : w'.calls = w.calls)
    (htalkbacks : w'.talkbacks = w.talkbacks) : w'.Recorded where
  isOpen := by
    rw [hcalls, htalkbacks]
    exact h.isOpen
  started := by
    rw [hcalls]
    exact h.started
  entry := by
    rw [hcalls, htalkbacks]
    exact h.entry

variable {w w' w'' : Router} {t i : ℕ} {c : Call} {p : Pull} {key : String}

/-- The call an entry is of. -/
theorem Recorded.entry_self (h : w.Recorded) (hc : w.calls[t]? = some c)
    (hget : get w.talkbacks key = some t) :
    c.key = key ∧ c.stopped = false ∧ c.stage.claims = true := by
  obtain ⟨c', hc', hentry⟩ := h.entry key t hget
  rw [hc] at hc'
  obtain rfl := Option.some.inj hc'
  exact hentry

theorem modifyCall_self (hc : w.calls[t]? = some c) (f : Call → Call) :
    (w.modifyCall t f).calls[t]? = some (f c) := by
  show (w.calls.modify t f)[t]? = _
  rw [List.getElem?_modify_eq, hc]
  rfl

theorem modifyCall_of_ne {t' : ℕ} (hne : t ≠ t') (f : Call → Call) :
    (w.modifyCall t f).calls[t']? = w.calls[t']? :=
  List.getElem?_modify_ne f w.calls hne

/-! ## Stopping -/

/-- Nothing happens to the calls but that talkbacks stop; entries and consumers only go. -/
structure Stops (w w' : Router) : Prop where
  calls : ∃ f : ℕ → Bool, ∀ t : ℕ,
    w'.calls[t]? = (w.calls[t]?).map fun c => { c with stopped := c.stopped || f t }
  entries : ∀ key t, get w'.talkbacks key = some t → get w.talkbacks key = some t
  riding : ∀ (i : ℕ) (p' : Pull), w'.pulls[i]? = some p' → ∀ t ∈ p'.riding,
    ∃ p, w.pulls[i]? = some p ∧ t ∈ p.riding

namespace Stops

theorem of_calls (hcalls : w'.calls = w.calls)
    (hentries : ∀ key t, get w'.talkbacks key = some t → get w.talkbacks key = some t)
    (hriding : ∀ (i : ℕ) (p' : Pull), w'.pulls[i]? = some p' → ∀ t ∈ p'.riding,
      ∃ p, w.pulls[i]? = some p ∧ t ∈ p.riding) : Stops w w' where
  calls := by
    refine ⟨fun _ => false, fun t => ?_⟩
    rw [hcalls]
    simp
  entries := hentries
  riding := hriding

theorem refl (w : Router) : Stops w w :=
  of_calls rfl (fun _ _ h => h) fun _ p' hp' _ ht => ⟨p', hp', ht⟩

theorem trans (h : Stops w w') (h' : Stops w' w'') : Stops w w'' where
  calls := by
    obtain ⟨f, hf⟩ := h.calls
    obtain ⟨f', hf'⟩ := h'.calls
    refine ⟨fun t => f t || f' t, fun t => ?_⟩
    rw [hf', hf, Option.map_map]
    congr 1
    funext c
    simp [Bool.or_assoc]
  entries := fun key t hget => h.entries key t (h'.entries key t hget)
  riding := by
    intro i p'' hp'' t ht
    obtain ⟨p', hp', ht'⟩ := h'.riding i p'' hp'' t ht
    exact h.riding i p' hp' t ht'

theorem foldl {α : Type*} {f : Router → α → Router} (hf : ∀ w a, Stops w (f w a))
    (as : List α) (w : Router) : Stops w (as.foldl f w) := by
  induction as generalizing w with
  | nil => exact refl w
  | cons a as ih => exact (hf w a).trans (ih _)

/-- A source that loses consumers, or none. -/
theorem modifyPull {f : Pull → Pull} (hf : ∀ p, ∀ t ∈ (f p).riding, t ∈ p.riding)
    (w : Router) (i : ℕ) : Stops w (w.modifyPull i f) := by
  refine of_calls rfl (fun _ _ h => h) fun j p' hp' t ht => ?_
  obtain ⟨rfl, p, hp, rfl⟩ | ⟨-, hp⟩ := Lists.getElem?_modify_cases hp'
  · exact ⟨p, hp, hf p t ht⟩
  · exact ⟨p', hp, ht⟩

theorem call (h : Stops w w') (hc : w.calls[t]? = some c) :
    ∃ b, w'.calls[t]? = some { c with stopped := c.stopped || b } := by
  obtain ⟨f, hf⟩ := h.calls
  refine ⟨f t, ?_⟩
  rw [hf, hc]
  rfl

/-- A call there is behind was there before, and had started if it has. -/
theorem of_call {c' : Call} (h : Stops w w') (hc' : w'.calls[t]? = some c') :
    ∃ c, w.calls[t]? = some c ∧ c' = { c with stopped := c'.stopped } ∧
      (c.stopped = true → c'.stopped = true) := by
  obtain ⟨f, hf⟩ := h.calls
  rw [hf, Option.map_eq_some_iff] at hc'
  obtain ⟨c, hc, rfl⟩ := hc'
  exact ⟨c, hc, rfl, fun h => by simp [h]⟩

end Stops

theorem mem_riding_detach {t t' : ℕ} {p : Pull} (h : t' ∈ (p.detach t).riding) :
    t' ∈ p.riding := by
  rw [Pull.detach] at h
  split at h
  · exact (List.mem_filter.mp h).1
  · exact h

theorem not_mem_riding_detach (t : ℕ) (p : Pull) : t ∉ (p.detach t).riding := by
  rw [Pull.detach]
  split
  · intro h
    simpa using (List.mem_filter.mp h).2
  · assumption

@[simp]
theorem calls_releaseMedia (w : Router) (t : ℕ) (consumer : Option ℕ) :
    (w.releaseMedia t consumer).calls = w.calls := by
  cases consumer with
  | none => rfl
  | some i => rfl

@[simp]
theorem talkbacks_releaseMedia (w : Router) (t : ℕ) (consumer : Option ℕ) :
    (w.releaseMedia t consumer).talkbacks = w.talkbacks := by
  cases consumer with
  | none => rfl
  | some i => rfl

@[simp]
theorem calls_forget (w : Router) (t : ℕ) (key : String) : (w.forget t key).calls = w.calls := by
  rw [forget]
  split
  · rfl
  · rfl

@[simp]
theorem pulls_forget (w : Router) (t : ℕ) (key : String) : (w.forget t key).pulls = w.pulls := by
  rw [forget]
  split
  · rfl
  · rfl

theorem forget_of_eq (h : get w.talkbacks key = some t) :
    w.forget t key = { w with talkbacks := delete w.talkbacks key } := if_pos h

theorem forget_of_ne (h : get w.talkbacks key ≠ some t) : w.forget t key = w := if_neg h

theorem get_of_get_forget {key' : String} {t' : ℕ}
    (h : get (w.forget t key).talkbacks key' = some t') : get w.talkbacks key' = some t' := by
  rw [forget] at h
  split at h
  · exact get_of_get_delete h
  · exact h

/-- The entry of another call stays. -/
theorem get_forget {key' : String} {t' : ℕ} (h : get w.talkbacks key' = some t') (hne : t' ≠ t) :
    get (w.forget t key).talkbacks key' = some t' := by
  rw [forget]
  split
  · rename_i howner
    show get (delete w.talkbacks key) key' = some t'
    rw [get_delete, if_neg, h]
    rintro rfl
    rw [howner] at h
    exact hne (Option.some.inj h).symm
  · exact h

/-- A call has no entry under its key once it is forgotten. -/
theorem get_forget_ne (w : Router) (t : ℕ) (key : String) :
    get (w.forget t key).talkbacks key ≠ some t := by
  rw [forget]
  split
  · show get (delete w.talkbacks key) key ≠ some t
    rw [get_delete, if_pos rfl]
    exact Option.some_ne_none t |>.symm
  · assumption

theorem stop_eq (hc : w.calls[t]? = some c) (hnot : c.stopped = false) : w.stop t =
    ((w.modifyCall t fun c => { c with stopped := true }).releaseMedia t c.consumer).forget t
      c.key := by
  rw [stop, hc]
  dsimp only
  rw [hnot, if_neg Bool.false_ne_true]

theorem stops_releaseMedia (w : Router) (t : ℕ) (consumer : Option ℕ) :
    Stops w (w.releaseMedia t consumer) := by
  cases consumer with
  | none => exact .refl w
  | some i => exact .modifyPull (fun p t' => mem_riding_detach) w i

theorem stops_forget (w : Router) (t : ℕ) (key : String) : Stops w (w.forget t key) := by
  refine .of_calls (calls_forget w t key) (fun key' t' => get_of_get_forget) ?_
  rw [pulls_forget]
  exact fun _ p' hp' _ ht => ⟨p', hp', ht⟩

theorem stops_modifyCall (w : Router) (t : ℕ) :
    Stops w (w.modifyCall t fun c => { c with stopped := true }) where
  calls := by
    refine ⟨fun t' => t = t', fun t' => ?_⟩
    show (w.calls.modify t _)[t']? = _
    rw [List.getElem?_modify]
    congr 1
    funext c
    by_cases h : t = t'
    · simp [h]
    · simp [h]
  entries := fun _ _ h => h
  riding := fun _ p' hp' _ ht => ⟨p', hp', ht⟩

theorem stops_stop (w : Router) (t : ℕ) : Stops w (w.stop t) := by
  rw [stop]
  split
  · split
    · exact .refl w
    · exact ((stops_modifyCall w t).trans (stops_releaseMedia _ t _)).trans (stops_forget _ t _)
  · exact .refl w

theorem calls_stop (hc : w.calls[t]? = some c) : (w.stop t).calls[t]? =
    some { c with stopped := true } := by
  rw [stop, hc]
  dsimp only
  split
  · rename_i hstopped
    rw [hc, ← hstopped]
  · rw [calls_forget, calls_releaseMedia, modifyCall_self hc]

/-- A talkback that is stopped loses its entry, and no other one does. -/
theorem recorded_stop (h : w.Recorded) (t : ℕ) : (w.stop t).Recorded := by
  cases hc : w.calls[t]? with
  | none => rwa [stop, hc]
  | some c =>
    by_cases hstopped : c.stopped = true
    · rw [stop, hc]
      dsimp only
      rwa [if_pos hstopped]
    · have hstop := stop_eq hc (Bool.eq_false_iff.mpr hstopped)
      have hget : ∀ key t', get w.talkbacks key = some t' → t' ≠ t →
          get (w.stop t).talkbacks key = some t' := by
        intro key t' hentry hne
        rw [hstop]
        apply get_forget _ hne
        rw [talkbacks_releaseMedia]
        exact hentry
      constructor
      -- A talkback that is still open is another one, and was open before.
      · intro t' c' hc' hopen
        obtain ⟨c₀, hc₀, hc'eq, hstays⟩ := (stops_stop w t).of_call hc'
        have hne : t' ≠ t := by
          rintro rfl
          rw [calls_stop hc] at hc'
          obtain rfl := Option.some.inj hc'
          simp [Call.isOpen] at hopen
        have hopen₀ : c₀.isOpen = true := by
          rw [hc'eq] at hopen
          simp only [Call.isOpen, Bool.and_eq_true, Bool.not_eq_true'] at hopen ⊢
          refine ⟨hopen.1, ?_⟩
          by_contra htrue
          rw [hstays (by simpa using htrue)] at hopen
          exact absurd hopen.2 (by decide)
        rw [hc'eq]
        exact hget c₀.key t' (h.isOpen t' c₀ hc₀ hopen₀) hne
      · intro t' c' hc' hstarted
        obtain ⟨c₀, hc₀, hc'eq, -⟩ := (stops_stop w t).of_call hc'
        rw [hc'eq] at hstarted ⊢
        exact h.started t' c₀ hc₀ hstarted
      · intro key t' hentry
        have hbefore := (stops_stop w t).entries key t' hentry
        obtain ⟨c', hc', hkey, hnot, hclaims⟩ := h.entry key t' hbefore
        have hne : t ≠ t' := by
          rintro rfl
          rw [hstop, ← (h.entry_self hc hbefore).1] at hentry
          exact get_forget_ne _ _ _ hentry
        refine ⟨c', ?_, hkey, hnot, hclaims⟩
        rw [hstop, calls_forget, calls_releaseMedia, modifyCall_of_ne hne, hc']

/-! ## Dropping sources -/

/-- What stopping talkbacks and dropping sources may do. -/
structure Closes (w w' : Router) : Prop where
  stops : w.Recorded → Stops w w'
  recorded : w.Recorded → w'.Recorded

namespace Closes

theorem refl (w : Router) : Closes w w := ⟨fun _ => .refl w, id⟩

theorem trans (h : Closes w w') (h' : Closes w' w'') : Closes w w'' where
  stops := fun hw => (h.stops hw).trans (h'.stops (h.recorded hw))
  recorded := fun hw => h'.recorded (h.recorded hw)

theorem foldl {α : Type*} {f : Router → α → Router} (hf : ∀ w a, Closes w (f w a))
    (as : List α) (w : Router) : Closes w (as.foldl f w) := by
  induction as generalizing w with
  | nil => exact refl w
  | cons a as ih => exact (hf w a).trans (ih _)

/-- Sources alone change. -/
theorem of_eq (hcalls : w'.calls = w.calls) (htalkbacks : w'.talkbacks = w.talkbacks)
    (hriding : ∀ (i : ℕ) (p' : Pull), w'.pulls[i]? = some p' → ∀ t ∈ p'.riding,
      ∃ p, w.pulls[i]? = some p ∧ t ∈ p.riding) : Closes w w' where
  stops := fun _ => .of_calls hcalls (by rw [htalkbacks]; exact fun _ _ h => h) hriding
  recorded := fun hw => hw.of_eq hcalls htalkbacks

theorem modifyPull {f : Pull → Pull} (hf : ∀ p, ∀ t ∈ (f p).riding, t ∈ p.riding)
    (w : Router) (i : ℕ) : Closes w (w.modifyPull i f) :=
  of_eq rfl rfl (Stops.modifyPull hf w i).riding

end Closes

theorem closes_stop (w : Router) (t : ℕ) : Closes w (w.stop t) :=
  ⟨fun _ => stops_stop w t, fun hw => recorded_stop hw t⟩

theorem closes_endConsumers (w : Router) (i : ℕ) (riding : List ℕ) :
    Closes w (w.endConsumers i riding) := by
  apply Closes.foldl
  intro w t
  split
  · exact closes_stop w t
  · exact .refl w

theorem closes_dispose (w : Router) (i : ℕ) : Closes w (w.dispose i) := by
  rw [dispose]
  split
  · rename_i p _
    split
    · exact .refl w
    · have hmarked : Closes w
          (w.modifyPull i fun p => { p with source := { p.source with disposed := true } }) := by
        apply Closes.modifyPull
        exact fun _ _ h => h
      apply (hmarked.trans (closes_endConsumers _ i p.riding)).trans
      exact .modifyPull (fun _ _ h => (List.not_mem_nil h).elim) _ i
  · exact .refl w

theorem closes_dropLiveSource (w : Router) (key : String) : Closes w (w.dropLiveSource key) := by
  rw [dropLiveSource]
  split
  · exact (closes_dispose w _).trans (.of_eq rfl rfl fun _ p' hp' _ ht => ⟨p', hp', ht⟩)
  · exact .refl w

/-- An entry that is torn down is one that its talkback's stop would take. -/
theorem tearDownTalkback_eq (h : w.Recorded) (hget : get w.talkbacks key = some t) :
    w.tearDownTalkback key = w.stop t := by
  obtain ⟨c, hc, rfl, hnot, -⟩ := h.entry key t hget
  have hlost : get (delete w.talkbacks c.key) c.key ≠ some t := by
    rw [get_delete, if_pos rfl]
    exact (Option.some_ne_none t).symm
  rw [tearDownTalkback, hget]
  dsimp only
  rw [stop_eq hc hnot, @stop_eq { w with talkbacks := delete w.talkbacks c.key } t c hc hnot]
  rw [forget_of_ne (by rw [talkbacks_releaseMedia]; exact hlost)]
  rw [forget_of_eq (by rw [talkbacks_releaseMedia]; exact hget)]
  cases c.consumer with
  | none => rfl
  | some i => rfl

theorem closes_tearDownTalkback (w : Router) (key : String) :
    Closes w (w.tearDownTalkback key) := by
  cases hget : get w.talkbacks key with
  | none =>
    rw [tearDownTalkback, hget]
    exact .refl w
  | some t =>
    constructor
    · intro hw
      rw [tearDownTalkback_eq hw hget]
      exact stops_stop w t
    · intro hw
      rw [tearDownTalkback_eq hw hget]
      exact recorded_stop hw t

theorem closes_tearDownStation (w : Router) (stationSn : String) :
    Closes w (w.tearDownStation stationSn) :=
  (Closes.foldl closes_dropLiveSource _ w).trans (.foldl closes_tearDownTalkback _ _)

theorem closes_closeSources (w : Router) : Closes w w.closeSources :=
  (Closes.foldl closes_dispose _ w).trans (.of_eq rfl rfl fun _ p' hp' _ ht => ⟨p', hp', ht⟩)

/-- Every listed talkback is stopped behind a stop of each. -/
theorem stopped_of_mem {ts : List ℕ} {c' : Call} (ht : t ∈ ts)
    (hc' : (ts.foldl stop w).calls[t]? = some c') : c'.stopped = true := by
  induction ts generalizing w with
  | nil => cases ht
  | cons s ts ih =>
    rw [List.foldl_cons] at hc'
    rcases List.mem_cons.mp ht with rfl | hrest
    · obtain ⟨c, hc, -, hstays⟩ := (Stops.foldl stops_stop ts (w.stop t)).of_call hc'
      obtain ⟨c₀, hc₀, -, -⟩ := (stops_stop w t).of_call hc
      rw [calls_stop hc₀] at hc
      apply hstays
      rw [← Option.some.inj hc]
    · exact ih hrest hc'

/-- All entries go, and every talkback that had one is stopped. -/
theorem closes_closeAll (w : Router) : Closes w w.closeAll := by
  have hcleared : Stops w { w with talkbacks := [], closing := w.closing + 1 } := by
    refine .of_calls rfl (fun key t hget => ?_) fun _ p' hp' _ ht => ⟨p', hp', ht⟩
    cases hget
  have hfold := Stops.foldl stops_stop (w.talkbacks.map Prod.snd)
    { w with talkbacks := [], closing := w.closing + 1 }
  have hnone : ∀ key t, get w.closeAll.talkbacks key ≠ some t := by
    intro key t hget
    cases hfold.entries key t hget
  refine ⟨fun _ => hcleared.trans hfold, fun hw =>
    ⟨fun t c' hc' hopen => ?_, fun t c' hc' hstarted => ?_,
      fun key t hget => absurd hget (hnone key t)⟩⟩
  case refine_2 =>
    obtain ⟨c, hc, hc'eq, -⟩ := (hcleared.trans hfold).of_call hc'
    rw [hc'eq] at hstarted ⊢
    exact hw.started t c hc hstarted
  obtain ⟨c, hc, hc'eq, hstays⟩ := (hcleared.trans hfold).of_call hc'
  simp only [Call.isOpen, Bool.and_eq_true, Bool.not_eq_true'] at hopen
  obtain ⟨hstarted, hnot⟩ := hopen
  have hopen : c.isOpen = true := by
    rw [hc'eq] at hstarted
    have : c.stopped = false := by
      by_contra htrue
      rw [hstays (by simpa using htrue)] at hnot
      cases hnot
    simp [Call.isOpen, this, show c.started = true from hstarted]
  have hmem : t ∈ w.talkbacks.map Prod.snd :=
    List.mem_map_of_mem (f := Prod.snd) (mem_of_get (hw.isOpen t c hc hopen))
  rw [stopped_of_mem hmem hc'] at hnot
  cases hnot

/-! ## Acquiring and attaching -/

theorem closes_sharedLiveSourceFor (w : Router) (parentSn : String) (channel : ℕ)
    (homeBaseAttached : Bool) (eccPrivateKey : Option Bytes.Buffer) :
    Closes w (w.sharedLiveSourceFor parentSn channel homeBaseAttached eccPrivateKey).1 := by
  have hstopped : Closes w (w.dropStopped (cameraKey parentSn channel)) := by
    rw [dropStopped]
    split
    · exact closes_dropLiveSource w _
    · exact .refl w
  have hsiblings : ∀ w : Router, Closes w (w.releaseLingeringSiblings parentSn channel) := by
    intro w
    apply Closes.foldl
    intro w e
    rw [releaseSibling]
    split
    · exact .refl w
    · exact closes_dropLiveSource w _
  have hboth := hstopped.trans (hsiblings _)
  rw [sharedLiveSourceFor]
  split
  · exact hboth
  · split
    · exact hboth
    · apply hboth.trans
      refine .of_eq rfl rfl fun i p' hp' t ht => ?_
      obtain ⟨-, rfl⟩ | hp := Lists.getElem?_append_cases hp'
      · cases ht
      · exact ⟨p', hp, ht⟩

/-- Attaching fails at a source that is disposed, and past the new consumer at one whose stream
cannot be built. -/
theorem attach_cases (w : Router) (i : ℕ) (rider : Option ℕ) :
    w.attach i rider = (w, false) ∨
      ∃ f, (∀ p, (f p).riding = p.riding ++ rider.toList) ∧
        (w.attach i rider = (w.modifyPull i f, true) ∨
          w.attach i rider = (w.modifyPull i f, false) ∧
            ∃ p, w.pulls[i]? = some p ∧ p.source.disposed = false ∧ p.source.stream = false ∧
              p.buildsStream = false) := by
  rw [attach]
  split
  · rename_i p hp
    split
    · exact .inl rfl
    · rename_i hdisposed
      right
      split
      · rename_i hbuild
        simp only [Bool.and_eq_true, Bool.not_eq_true'] at hbuild
        exact ⟨_, fun _ => rfl, .inr ⟨rfl, p, hp, by simpa using hdisposed, hbuild.1, hbuild.2⟩⟩
      · exact ⟨_, fun _ => rfl, .inl rfl⟩
  · exact .inl rfl

theorem closes_attach (w : Router) (i : ℕ) : Closes w (w.attach i none).1 := by
  have hriders : ∀ f : Pull → Pull, (∀ p, (f p).riding = p.riding ++ (none : Option ℕ).toList) →
      Closes w (w.modifyPull i f) := by
    intro f hf
    apply Closes.modifyPull
    intro p t ht
    rw [hf] at ht
    simpa using ht
  obtain h | ⟨f, hf, h | ⟨h, -⟩⟩ := attach_cases w i none
  · rw [h]
    exact .refl w
  · rw [h]
    exact hriders f hf
  · rw [h]
    exact hriders f hf

/-! ## Calls -/

/-- A call moves on: it keeps its entry or has none, and starts only with it. -/
theorem recorded_modifyCall (h : w.Recorded) (hc : w.calls[t]? = some c) {c' : Call}
    (hkey : c'.key = c.key) (hstopped : c'.stopped = c.stopped)
    (hstarted : c'.started = true → c'.stage = .talking ∧ get w.talkbacks c.key = some t)
    (hstage : c'.stage.claims = true ∨ ∀ key, get w.talkbacks key ≠ some t) :
    (w.modifyCall t fun _ => c').Recorded := by
  constructor
  · intro t' d hd hopen
    obtain ⟨rfl, -, -, rfl⟩ | ⟨-, hd⟩ := Lists.getElem?_modify_cases hd
    · rw [Call.isOpen, Bool.and_eq_true] at hopen
      rw [hkey]
      exact (hstarted hopen.1).2
    · exact h.isOpen t' d hd hopen
  · intro t' d hd hdstarted
    obtain ⟨rfl, -, -, rfl⟩ | ⟨-, hd⟩ := Lists.getElem?_modify_cases hd
    · exact (hstarted hdstarted).1
    · exact h.started t' d hd hdstarted
  · intro key t' hget
    obtain ⟨d, hd, hdkey, hnot, hclaims⟩ := h.entry key t' hget
    refine ⟨_, Lists.getElem?_modify_of_some t hd, ?_⟩
    split
    · rename_i htt
      rw [← htt] at hget hd
      rw [hc] at hd
      obtain rfl := Option.some.inj hd
      exact ⟨hkey.trans hdkey, hstopped.trans hnot, hstage.resolve_right fun hno => hno key hget⟩
    · exact ⟨hdkey, hnot, hclaims⟩

/-- Before it talks, a talkback has not started. -/
theorem Recorded.not_started (h : w.Recorded) (hc : w.calls[t]? = some c)
    (hstage : c.stage ≠ .talking) : c.started = false := by
  by_contra hstarted
  exact hstage (h.started t c hc (by simpa using hstarted))

theorem recorded_restage (h : w.Recorded) (hc : w.calls[t]? = some c)
    (hnot : c.started = false) {stage : Stage}
    (hstage : stage.claims = true ∨ ∀ key, get w.talkbacks key ≠ some t) :
    (w.modifyCall t fun c => { c with stage := stage }).Recorded := by
  have hmodify : w.calls.modify t (fun c => { c with stage := stage }) =
      w.calls.modify t fun _ => { c with stage := stage } := Lists.modify_congr hc rfl
  rw [modifyCall, hmodify]
  refine recorded_modifyCall h hc rfl rfl (fun hstarted => ?_) hstage
  change c.started = true at hstarted
  rw [hnot] at hstarted
  cases hstarted

/-- A call that claims nothing has no entry. -/
theorem Recorded.no_entry (h : w.Recorded) (hc : w.calls[t]? = some c)
    (hclaims : c.stage.claims = false) : ∀ key, get w.talkbacks key ≠ some t := by
  intro key hget
  obtain ⟨-, -, hclaims'⟩ := h.entry_self hc hget
  rw [hclaims] at hclaims'
  cases hclaims'

theorem recorded_claim (h : w.Recorded) (hc : w.calls[t]? = some c)
    (hstage : c.stage = .resolving) (key : String) : (w.claim t key).Recorded := by
  have hno := h.no_entry hc (by rw [hstage]; rfl)
  rw [claim]
  split
  · exact recorded_restage h hc (h.not_started hc (by rw [hstage]; decide)) (.inr hno)
  · rename_i hfree
    have hnone : get w.talkbacks key = none := by simpa using hfree
    constructor
    · intro t' c' hc' hopen
      obtain ⟨rfl, c₀, -, rfl⟩ | ⟨-, hc₀⟩ := Lists.getElem?_modify_cases hc'
      · cases hopen
      · have hget := h.isOpen t' c' hc₀ hopen
        show get (set w.talkbacks key t) c'.key = some t'
        rw [get_set, if_neg, hget]
        rintro rfl
        rw [hnone] at hget
        cases hget
    · intro t' c' hc' hstarted
      obtain ⟨rfl, c₀, -, rfl⟩ | ⟨-, hc₀⟩ := Lists.getElem?_modify_cases hc'
      · cases hstarted
      · exact h.started t' c' hc₀ hstarted
    · intro key' t' hget
      change get (set w.talkbacks key t) key' = some t' at hget
      rw [get_set] at hget
      split at hget
      · rename_i hkey
        obtain rfl := Option.some.inj hget
        refine ⟨_, Lists.getElem?_modify_of_some t hc, ?_⟩
        rw [if_pos rfl]
        exact ⟨hkey, rfl, rfl⟩
      · obtain ⟨c', hc', hold⟩ := h.entry key' t' hget
        have hne : t ≠ t' := by
          rintro rfl
          exact hno key' hget
        exact ⟨c', by rw [modifyCall_of_ne hne]; exact hc', hold⟩

theorem calls_reject (w : Router) (t : ℕ) (key : String) (consumer : Option ℕ) :
    (w.reject t key consumer).calls = w.calls.modify t fun c => { c with stage := .rejected } := by
  show (((w.forget t key).releaseMedia t consumer).calls).modify t _ = _
  rw [calls_releaseMedia, calls_forget]

/-- A call that throws gives its entry back first. -/
theorem recorded_reject (h : w.Recorded) (hc : w.calls[t]? = some c)
    (hnot : c.started = false) (consumer : Option ℕ) :
    (w.reject t c.key consumer).Recorded := by
  have hforget : (w.forget t c.key).Recorded := by
    constructor
    · intro t' c' hc' hopen
      rw [calls_forget] at hc'
      apply get_forget (h.isOpen t' c' hc' hopen)
      rintro rfl
      rw [hc] at hc'
      obtain rfl := Option.some.inj hc'
      rw [Call.isOpen, hnot] at hopen
      cases hopen
    · rw [calls_forget]
      exact h.started
    · intro key t' hget
      rw [calls_forget]
      exact h.entry key t' (get_of_get_forget hget)
  have hrel : ((w.forget t c.key).releaseMedia t consumer).Recorded :=
    hforget.of_eq (calls_releaseMedia _ t consumer) (talkbacks_releaseMedia _ t consumer)
  have hthere : ((w.forget t c.key).releaseMedia t consumer).calls[t]? = some c := by
    rw [calls_releaseMedia, calls_forget, hc]
  apply recorded_restage hrel hthere hnot
  right
  intro key hget
  rw [talkbacks_releaseMedia] at hget
  obtain ⟨rfl, -⟩ := h.entry_self hc (get_of_get_forget hget)
  exact get_forget_ne w t _ hget

/-! ## Beginning to talk -/

/-- How a call that was handed source `i` goes on. -/
inductive Begins (w : Router) (t i : ℕ) (c : Call) : Router → Prop
  /-- Its entry is gone, or the source was disposed. -/
  | lost : Begins w t i c (w.reject t c.key none)
  /-- The stream of the source could not be built. -/
  | unbuilt (p : Pull) (f : Pull → Pull) (hget : get w.talkbacks c.key = some t)
      (hp : w.pulls[i]? = some p) (hdisposed : p.source.disposed = false)
      (hstream : p.source.stream = false) (hbuilds : p.buildsStream = false)
      (hf : ∀ p, (f p).riding = p.riding ++ [t]) :
      Begins w t i c ((w.modifyPull i f).reject t c.key none)
  | started (f : Pull → Pull) (hget : get w.talkbacks c.key = some t)
      (hf : ∀ p, (f p).riding = p.riding ++ [t]) :
      Begins w t i c ((w.modifyPull i f).modifyCall t fun _ =>
        { c with consumer := some i, started := true, stage := .talking })
  /-- The session did not open the path. -/
  | closed (f : Pull → Pull) (hnot : c.started = false)
      (hf : ∀ p, (f p).riding = p.riding ++ [t]) :
      Begins w t i c (((w.modifyPull i f).modifyCall t fun _ =>
        { c with consumer := some i }).reject t c.key (some i))

theorem begins (w : Router) (t i : ℕ) (c : Call) (opens : Bool) :
    Begins w t i c (w.begin t i c opens) := by
  rw [begin]
  split
  · rename_i hget
    obtain h | ⟨f, hf, h | ⟨h, p, hp, hdisposed, hstream, hbuilds⟩⟩ := attach_cases w i (some t)
    · rw [h]
      exact .lost
    · rw [h]
      dsimp only [Call.start]
      by_cases hstarted : c.started = true
      · have hsame : ({ c with consumer := some i, stage := .talking } : Call) =
            { c with consumer := some i, started := true, stage := .talking } := by
          rw [← hstarted]
        rw [if_pos hstarted]
        dsimp only
        rw [hsame]
        exact .started f hget hf
      · rw [if_neg hstarted]
        cases opens with
        | true => exact .started f hget hf
        | false => exact .closed f (Bool.eq_false_iff.mpr hstarted) hf
    · rw [h]
      exact .unbuilt p f hget hp hdisposed hstream hbuilds hf
  · exact .lost

/-- What a step does. -/
inductive Moves (w : Router) : Label → Router → Prop
  | closes {l : Label} {w' : Router} (h : Closes w w') : Moves w l w'
  | called {l : Label} : Moves w l { w with calls := w.calls ++ [{}] }
  | claimed {l : Label} {t : ℕ} {c : Call} (hc : w.calls[t]? = some c)
      (hstage : c.stage = .resolving) (key : String) : Moves w l (w.claim t key)
  | restaged {l : Label} {t : ℕ} {c : Call} {w' : Router} (h : Closes w w')
      (hc : w.calls[t]? = some c) (htalking : c.stage ≠ .talking) {stage : Stage}
      (hstage : stage.claims = true ∨ c.stage.claims = false) :
      Moves w l (w'.modifyCall t fun c => { c with stage := stage })
  | rejected {l : Label} {t : ℕ} {c : Call} (hc : w.calls[t]? = some c)
      (htalking : c.stage ≠ .talking) : Moves w l (w.reject t c.key none)
  | begins {t i : ℕ} {c : Call} {opens : Bool} {w' : Router} (hc : w.calls[t]? = some c)
      (hstage : c.stage = .warmed i) (h : Begins w t i c w') : Moves w (.resume t opens) w'

/-- A change to one source that adds no consumer of a call. -/
theorem Moves.pull {l : Label} {f : Pull → Pull} (hf : ∀ p, (f p).riding = p.riding) (i : ℕ) :
    Moves w l (w.modifyPull i f) := by
  apply Moves.closes
  apply Closes.modifyPull
  intro p t ht
  rwa [hf] at ht

theorem moves_of_step {l : Label} (h : step w l = some w') : Moves w l w' := by
  cases l with
  | openTalkback =>
    obtain rfl := Option.some.inj h
    exact .called
  | resolved t parentSn channel =>
    simp only [step] at h
    split at h
    · rename_i c hc
      split at h
      · rename_i hstage
        obtain rfl := Option.some.inj h
        exact .claimed hc hstage _
      · cases h
    · cases h
  | unresolved t =>
    simp only [step] at h
    split at h
    · rename_i c hc
      split at h
      · rename_i hstage
        obtain rfl := Option.some.inj h
        exact .restaged (.refl w) hc (by rw [hstage]; decide) (.inr (by rw [hstage]; rfl))
      · cases h
    · cases h
  | acquired t parentSn channel homeBaseAttached eccPrivateKey =>
    simp only [step] at h
    split at h
    · rename_i c hc
      split at h
      · rename_i hstage
        obtain rfl := Option.some.inj h
        refine .restaged (closes_sharedLiveSourceFor w _ _ _ _) hc (by rw [hstage]; decide) (.inl ?_)
        cases (w.sharedLiveSourceFor parentSn channel homeBaseAttached eccPrivateKey).2 with
        | none => rfl
        | some i => rfl
      · cases h
    · cases h
  | unacquired t =>
    simp only [step] at h
    split at h
    · rename_i c hc
      split at h
      · rename_i hstage
        obtain rfl := Option.some.inj h
        exact .restaged (.refl w) hc (by rw [hstage]; decide) (.inl rfl)
      · cases h
    · cases h
  | resume t opens =>
    simp only [step] at h
    split at h
    · rename_i c hc
      split at h
      · rename_i i hstage
        obtain rfl := Option.some.inj h
        exact .begins hc hstage (begins w t i c opens)
      · rename_i hstage
        obtain rfl := Option.some.inj h
        exact .rejected hc (by rw [hstage]; decide)
      · cases h
    · cases h
  | stop t =>
    simp only [step] at h
    split at h
    · split at h
      · obtain rfl := Option.some.inj h
        exact .closes (closes_stop w t)
      · cases h
    · cases h
  | live parentSn channel homeBaseAttached eccPrivateKey =>
    obtain rfl := Option.some.inj h
    exact .closes (closes_sharedLiveSourceFor w _ _ _ _)
  | attach i =>
    obtain rfl := Option.some.inj h
    exact .closes (closes_attach w i)
  | detach i | video i keyframe | audio i | teardown i =>
    simp only [step] at h
    split at h
    · split at h
      · obtain rfl := Option.some.inj h
        apply Moves.pull
        exact fun _ => rfl
      · cases h
    · cases h
  | ended i =>
    simp only [step] at h
    split at h
    · rename_i p _
      split at h
      · obtain rfl := Option.some.inj h
        apply Moves.closes
        apply (closes_endConsumers w i p.riding).trans
        apply Closes.modifyPull
        exact fun _ _ ht => ht
      · cases h
    · cases h
  | drop key =>
    obtain rfl := Option.some.inj h
    exact .closes (closes_dropLiveSource w key)
  | tearDownStation stationSn =>
    obtain rfl := Option.some.inj h
    exact .closes (closes_tearDownStation w stationSn)
  | closeAll =>
    obtain rfl := Option.some.inj h
    exact .closes (closes_closeAll w)
  | closeSources =>
    simp only [step] at h
    split at h
    · obtain rfl := Option.some.inj h
      exact .closes (closes_closeSources w)
    · cases h

theorem recorded_begins (h : w.Recorded) (hc : w.calls[t]? = some c)
    (hstage : c.stage = .warmed i) (hbegins : Begins w t i c w') : w'.Recorded := by
  have hnot := h.not_started hc (by rw [hstage]; exact Stage.noConfusion)
  have hpull : ∀ f, (w.modifyPull i f).Recorded := fun f => h.of_eq rfl rfl
  cases hbegins with
  | lost => exact recorded_reject h hc hnot none
  | unbuilt p f => exact recorded_reject (hpull f) hc hnot none
  | started f hget =>
    exact recorded_modifyCall (hpull f) hc rfl rfl (fun _ => ⟨rfl, hget⟩) (.inl rfl)
  | closed f hclosed =>
    have hriding : ((w.modifyPull i f).modifyCall t fun _ =>
        { c with consumer := some i }).Recorded := by
      refine recorded_modifyCall (hpull f) hc rfl rfl (fun hstarted => ?_) (.inl ?_)
      · change c.started = true at hstarted
        rw [hclosed] at hstarted
        cases hstarted
      · show c.stage.claims = true
        rw [hstage]
        rfl
    have hthere : ((w.modifyPull i f).modifyCall t fun _ =>
        { c with consumer := some i }).calls[t]? = some { c with consumer := some i } :=
      modifyCall_self (w := w.modifyPull i f) hc _
    exact recorded_reject hriding hthere hclosed (some i)

theorem recorded_moves {l : Label} (h : w.Recorded) (hmoves : Moves w l w') : w'.Recorded := by
  cases hmoves with
  | closes hcloses => exact hcloses.recorded h
  | called =>
    constructor
    · intro t c hc hopen
      obtain ⟨-, rfl⟩ | hc := Lists.getElem?_append_cases hc
      · cases hopen
      · exact h.isOpen t c hc hopen
    · intro t c hc hstarted
      obtain ⟨-, rfl⟩ | hc := Lists.getElem?_append_cases hc
      · cases hstarted
      · exact h.started t c hc hstarted
    · intro key t hget
      obtain ⟨c, hc, hold⟩ := h.entry key t hget
      exact ⟨c, Lists.getElem?_append_of_some hc, hold⟩
  | claimed hc hstage key => exact recorded_claim h hc hstage key
  | restaged hcloses hc htalking hstage =>
    obtain ⟨b, hc'⟩ := (hcloses.stops h).call hc
    have h' := hcloses.recorded h
    refine recorded_restage h' hc' (h'.not_started hc' htalking) ?_
    exact hstage.imp_right fun hclaims => h'.no_entry hc' hclaims
  | rejected hc htalking => exact recorded_reject h hc (h.not_started hc htalking) none
  | begins hc hstage hbegins => exact recorded_begins h hc hstage hbegins

/-! ## Starting -/

/-- A talkback that has started had started before. -/
def StartsNone (w w' : Router) : Prop :=
  ∀ (t : ℕ) (c' : Call), w'.calls[t]? = some c' → c'.started = true →
    ∃ c, w.calls[t]? = some c ∧ c.started = true

theorem StartsNone.startsRecorded (h : StartsNone w w') : StartsRecorded w w' := by
  intro t c c' hc hc' hnot hstarted
  obtain ⟨c₀, hc₀, hbefore⟩ := h t c' hc' hstarted
  rw [hc] at hc₀
  obtain rfl := Option.some.inj hc₀
  rw [hnot] at hbefore
  cases hbefore

theorem Stops.startsNone (h : Stops w w') : StartsNone w w' := by
  intro t c' hc' hstarted
  obtain ⟨c, hc, hc'eq, -⟩ := h.of_call hc'
  rw [hc'eq] at hstarted
  exact ⟨c, hc, hstarted⟩

theorem StartsNone.modify {f : Call → Call} (h : StartsNone w w')
    (hcalls : w''.calls = w'.calls.modify t f)
    (hf : ∀ c, (f c).started = true → c.started = true) : StartsNone w w'' := by
  intro t' c' hc' hstarted
  rw [hcalls] at hc'
  obtain ⟨rfl, c, hc, rfl⟩ | ⟨-, hc⟩ := Lists.getElem?_modify_cases hc'
  · exact h t' c hc (hf c hstarted)
  · exact h t' c' hc hstarted

theorem startsNone_reject (w : Router) (t : ℕ) (key : String) (consumer : Option ℕ) :
    StartsNone w (w.reject t key consumer) :=
  (Stops.refl w).startsNone.modify (calls_reject w t key consumer) fun _ h => h

theorem startsRecorded_begins (h : w.Recorded) (hc : w.calls[t]? = some c)
    (hbegins : Begins w t i c w') : StartsRecorded w w' := by
  cases hbegins with
  | lost => exact (startsNone_reject w t c.key none).startsRecorded
  | unbuilt p f => exact (startsNone_reject (w.modifyPull i f) t c.key none).startsRecorded
  | started f hget =>
    intro t' d d' hd hd' hnot hstarted
    obtain ⟨rfl, d₀, hd₀, rfl⟩ | ⟨-, hd'⟩ := Lists.getElem?_modify_cases hd'
    · rw [hc] at hd
      obtain rfl := Option.some.inj hd
      obtain ⟨-, hlive, -⟩ := h.entry_self hc hget
      exact ⟨hlive, hlive, hget, hget⟩
    · change w.calls[t']? = some d' at hd'
      rw [hd] at hd'
      obtain rfl := Option.some.inj hd'
      rw [hnot] at hstarted
      cases hstarted
  | closed f hclosed =>
    apply StartsNone.startsRecorded
    refine StartsNone.modify (f := fun _ => { c with consumer := some i, stage := .rejected })
      (Stops.refl w).startsNone (t := t) ?_ fun d hstarted => ?_
    · rw [calls_reject]
      show (w.calls.modify t _).modify t _ = _
      rw [List.modify_modify_eq]
      rfl
    · change c.started = true at hstarted
      rw [hclosed] at hstarted
      cases hstarted

theorem startsRecorded_moves {l : Label} (h : w.Recorded) (hmoves : Moves w l w') :
    StartsRecorded w w' := by
  cases hmoves with
  | closes hcloses => exact (hcloses.stops h).startsNone.startsRecorded
  | called =>
    apply StartsNone.startsRecorded
    intro t c' hc' hstarted
    obtain ⟨-, rfl⟩ | hc := Lists.getElem?_append_cases hc'
    · cases hstarted
    · exact ⟨c', hc, hstarted⟩
  | claimed hc hstage key =>
    apply StartsNone.startsRecorded
    rw [claim]
    split
    · exact (Stops.refl w).startsNone.modify rfl fun _ h => h
    · refine (Stops.refl w).startsNone.modify rfl fun c hstarted => ?_
      cases hstarted
  | restaged hcloses =>
    apply StartsNone.startsRecorded
    exact (hcloses.stops h).startsNone.modify rfl fun _ h => h
  | rejected => exact (startsNone_reject w _ _ none).startsRecorded
  | begins hc _ hbegins => exact startsRecorded_begins h hc hbegins

/-! ## Throwing -/

/-- A consumer that rides a source belongs to a call that has its handle. -/
def Tidy (w : Router) : Prop :=
  ∀ (i : ℕ) (p : Pull), w.pulls[i]? = some p → ∀ t ∈ p.riding,
    ∃ c, w.calls[t]? = some c ∧ c.stage = .talking

theorem Tidy.not_riding (h : w.Tidy) (hc : w.calls[t]? = some c) (hstage : c.stage ≠ .talking) :
    ∀ (i : ℕ) (p : Pull), w.pulls[i]? = some p → t ∉ p.riding := by
  intro i p hp ht
  obtain ⟨c', hc', htalking⟩ := h i p hp t ht
  rw [hc] at hc'
  obtain rfl := Option.some.inj hc'
  exact hstage htalking

theorem Tidy.leavesNothing (h : w.Tidy) (hrecorded : w.Recorded) : w.LeavesNothing := by
  intro t c hc hstage
  refine ⟨hrecorded.no_entry hc (by rw [hstage]; rfl), fun p hp => ?_⟩
  obtain ⟨i, hi⟩ := List.getElem?_of_mem hp
  exact h.not_riding hc (by rw [hstage]; decide) i p hi

theorem Stops.tidy (h : Stops w w') (htidy : w.Tidy) : w'.Tidy := by
  intro i p' hp' t ht
  obtain ⟨p, hp, ht⟩ := h.riding i p' hp' t ht
  obtain ⟨c, hc, hstage⟩ := htidy i p hp t ht
  obtain ⟨b, hc'⟩ := h.call hc
  exact ⟨_, hc', hstage⟩

/-- A call without a consumer that rides may change. -/
theorem Tidy.modifyCall (h : w.Tidy)
    (hriding : ∀ (i : ℕ) (p : Pull), w.pulls[i]? = some p → t ∉ p.riding) (f : Call → Call) :
    (w.modifyCall t f).Tidy := by
  intro i p hp t' ht'
  obtain ⟨c, hc, hstage⟩ := h i p hp t' ht'
  have hne : t ≠ t' := by
    rintro rfl
    exact hriding i p hp ht'
  exact ⟨c, by rw [modifyCall_of_ne hne, hc], hstage⟩

theorem stops_reject (w : Router) (t : ℕ) (key : String) (consumer : Option ℕ) :
    Stops w ((w.forget t key).releaseMedia t consumer) :=
  (stops_forget w t key).trans (stops_releaseMedia _ t consumer)

theorem tidy_reject (h : w.Tidy) (hc : w.calls[t]? = some c) (htalking : c.stage ≠ .talking)
    (key : String) (consumer : Option ℕ) : (w.reject t key consumer).Tidy := by
  have hstops := stops_reject w t key consumer
  apply (hstops.tidy h).modifyCall
  intro i p' hp' ht
  obtain ⟨p, hp, ht⟩ := hstops.riding i p' hp' t ht
  exact h.not_riding hc htalking i p hp ht

/-- Who rides behind an attachment rode before, or is the call that attached. -/
theorem riding_attached {f : Pull → Pull} (hf : ∀ p, (f p).riding = p.riding ++ [t]) {j t' : ℕ}
    {p' : Pull} (hp' : (w.modifyPull i f).pulls[j]? = some p') (ht' : t' ∈ p'.riding) :
    (∃ p, w.pulls[j]? = some p ∧ t' ∈ p.riding) ∨ t' = t := by
  obtain ⟨rfl, p, hp, rfl⟩ | ⟨-, hp⟩ := Lists.getElem?_modify_cases hp'
  · rw [hf, List.mem_append, List.mem_singleton] at ht'
    exact ht'.imp_left fun h => ⟨p, hp, h⟩
  · exact .inl ⟨p', hp, ht'⟩

/-- The consumer of a call whose path stays closed is the only one that goes. -/
theorem tidy_closed {f : Pull → Pull} {d : Call} (h : w.Tidy) (hc : w.calls[t]? = some c)
    (htalking : c.stage ≠ .talking) (hf : ∀ p, (f p).riding = p.riding ++ [t]) :
    (((w.modifyPull i f).modifyCall t fun _ => d).reject t key (some i)).Tidy := by
  intro j p'' hp'' t' ht'
  have hpulls : (((w.modifyPull i f).modifyCall t fun _ => d).reject t key (some i)).pulls =
      (w.modifyPull i f).pulls.modify i (Pull.detach t) := by
    show (((w.modifyPull i f).modifyCall t fun _ => d).forget t key).pulls.modify i _ = _
    rw [pulls_forget]
    rfl
  rw [hpulls] at hp''
  have hrode : ∃ p, w.pulls[j]? = some p ∧ t' ∈ p.riding := by
    obtain ⟨rfl, p', hp', rfl⟩ | ⟨hji, hp'⟩ := Lists.getElem?_modify_cases hp''
    · apply (riding_attached hf hp' (mem_riding_detach ht')).resolve_right
      rintro rfl
      exact not_mem_riding_detach t' p' ht'
    · obtain ⟨hj, -⟩ | ⟨-, hp⟩ := Lists.getElem?_modify_cases hp'
      · exact absurd hj hji
      · exact ⟨p'', hp, ht'⟩
  obtain ⟨p, hp, ht⟩ := hrode
  obtain ⟨c', hc', hstage⟩ := h j p hp t' ht
  refine ⟨c', ?_, hstage⟩
  have hne : t ≠ t' := by
    rintro rfl
    exact h.not_riding hc htalking j p hp ht
  rw [calls_reject, List.getElem?_modify_ne _ _ hne, modifyCall_of_ne hne]
  exact hc'

theorem tidy_begins {opens : Bool} (h : w.Tidy) (hc : w.calls[t]? = some c)
    (hstage : c.stage = .warmed i) (hbuild : w.BuildsStream (.resume t opens))
    (hbegins : Begins w t i c w') : w'.Tidy := by
  have htalking : c.stage ≠ .talking := by
    rw [hstage]
    exact Stage.noConfusion
  cases hbegins with
  | lost => exact tidy_reject h hc htalking c.key none
  | unbuilt p f hget hp hdisposed hstream hbuilds =>
    rw [hbuild c i p hc hstage hget hp hdisposed hstream] at hbuilds
    cases hbuilds
  | started f hget hf =>
    intro j p' hp' t' ht'
    obtain ⟨p, hp, ht⟩ | rfl := riding_attached hf hp' ht'
    · obtain ⟨c', hc', hstage'⟩ := h j p hp t' ht
      have hne : t ≠ t' := by
        rintro rfl
        exact h.not_riding hc htalking j p hp ht
      exact ⟨c', by rw [modifyCall_of_ne hne]; exact hc', hstage'⟩
    · exact ⟨_, modifyCall_self (w := w.modifyPull i f) hc _, rfl⟩
  | closed f _ hf => exact tidy_closed h hc htalking hf

/-- A consumer attached before its stream failed to be built stays behind. -/
theorem not_leavesNothing {f : Pull → Pull} (hc : w.calls[t]? = some c)
    (hp : w.pulls[i]? = some p) (hf : ∀ p, (f p).riding = p.riding ++ [t]) :
    ¬ ((w.modifyPull i f).reject t key none).LeavesNothing := by
  intro hleaves
  have hcall : ((w.modifyPull i f).reject t key none).calls[t]? =
      some { c with stage := .rejected } := by
    rw [calls_reject, List.getElem?_modify_eq]
    show (w.calls[t]?).map _ = _
    rw [hc]
    rfl
  have hpulls : ((w.modifyPull i f).reject t key none).pulls = w.pulls.modify i f :=
    pulls_forget _ t key
  have hmem : f p ∈ ((w.modifyPull i f).reject t key none).pulls := by
    rw [hpulls]
    apply List.mem_of_getElem? (i := i)
    rw [List.getElem?_modify_eq, hp]
    rfl
  apply (hleaves t _ hcall rfl).2 (f p) hmem
  rw [hf]
  exact List.mem_append_right _ (List.mem_singleton_self t)

theorem tidy_moves {l : Label} (h : w.Recorded) (htidy : w.Tidy) (hbuild : w.BuildsStream l)
    (hmoves : Moves w l w') : w'.Tidy := by
  cases hmoves with
  | closes hcloses => exact (hcloses.stops h).tidy htidy
  | called =>
    intro i p hp t ht
    obtain ⟨c, hc, hstage⟩ := htidy i p hp t ht
    exact ⟨c, Lists.getElem?_append_of_some hc, hstage⟩
  | claimed hc hstage key =>
    have hriding := htidy.not_riding hc (by rw [hstage]; decide)
    rw [claim]
    split
    · exact htidy.modifyCall hriding _
    · exact Tidy.modifyCall (w := { w with talkbacks := set w.talkbacks key _ }) htidy hriding _
  | restaged hcloses hc htalking =>
    have hstops := hcloses.stops h
    obtain ⟨b, hc'⟩ := hstops.call hc
    have htidy' := hstops.tidy htidy
    exact htidy'.modifyCall (htidy'.not_riding hc' htalking) _
  | rejected hc htalking => exact tidy_reject htidy hc htalking _ none
  | begins hc hstage hbegins => exact tidy_begins htidy hc hstage hbuild hbegins

/-! ## Runs -/

/-- A step starts no talkback that is stopped or has lost its entry, and behind it at most one
is open under each key. -/
def StaysExclusive (w : Router) (l : Label) : Prop :=
  ∀ w', step w l = some w' → w'.Exclusive ∧ StartsRecorded w w'

/-- And no call that has thrown has left anything behind. -/
def CleansUp (w : Router) (l : Label) : Prop :=
  ∀ w', step w l = some w' → w'.LeavesNothing

theorem staysExclusive {l : Label} (h : w.Recorded) : w.StaysExclusive l := by
  intro w' hstep
  have hmoves := moves_of_step hstep
  exact ⟨(recorded_moves h hmoves).exclusive, startsRecorded_moves h hmoves⟩

/-- Between two states that leave nothing behind, a step leaves nothing behind exactly when it
builds the stream it needs. -/
theorem cleansUp_iff {l : Label} (h : w.Recorded) (htidy : w.Tidy) :
    w.CleansUp l ↔ w.BuildsStream l := by
  constructor
  · intro hclean
    cases l with
    | resume t opens =>
      intro c i p hc hstage hget hp hdisposed hstream
      by_contra hbuilds
      have hstep : step w (.resume t opens) = some (w.begin t i c opens) := by
        simp only [step, hc, hstage]
      have hattach : w.attach i (some t) =
          (w.modifyPull i fun p => (p.join (some t)).unbuilt, false) := by
        rw [attach, hp]
        simp [hdisposed, hstream, hbuilds]
      have hbegin : w.begin t i c opens =
          (w.modifyPull i fun p => (p.join (some t)).unbuilt).reject t c.key none := by
        rw [begin, if_pos hget, hattach]
      have hleaves := hclean _ hstep
      rw [hbegin] at hleaves
      exact not_leavesNothing hc hp (fun _ => rfl) hleaves
    | _ => trivial
  · intro hbuild w' hstep
    have hmoves := moves_of_step hstep
    exact (tidy_moves h htidy hbuild hmoves).leavesNothing (recorded_moves h hmoves)

theorem recorded_init : Recorded {} where
  isOpen := fun _ _ hc => by cases hc
  started := fun _ _ hc => by cases hc
  entry := fun _ _ hget => by cases hget

theorem tidy_init : Tidy {} := fun _ _ hp => by cases hp

end Router

open Router

/-- **One talkback per camera.** In every run at most one talkback is open under each key, and
none is started that is stopped or has lost its entry. A call that throws leaves neither an
entry nor a consumer behind in exactly the runs in which every call that comes to attach to a
source without a stream finds a decoder key of 32 bytes there, or none. -/
theorem exclusive_and_cleansUp_iff (ls : List Label) :
    StepsMeet step StaysExclusive {} ls ∧
      (StepsMeet step (fun w l => w.StaysExclusive l ∧ w.CleansUp l) {} ls ↔
        StepsMeet step BuildsStream {} ls) := by
  constructor
  · have hrun : ∀ w : Router, w.Recorded → StepsMeet step StaysExclusive w ls := by
      induction ls with
      | nil => exact fun _ _ => trivial
      | cons l ls ih =>
        intro w h
        exact ⟨staysExclusive h, fun w' hstep => ih w' (recorded_moves h (moves_of_step hstep))⟩
    exact hrun {} recorded_init
  · apply stepsMeet_congr (J := fun w => w.Recorded ∧ w.Tidy) ⟨recorded_init, tidy_init⟩
    · intro w l h
      rw [cleansUp_iff h.1 h.2]
      exact and_iff_right (staysExclusive h.1)
    · intro w l w' h hbuild hstep
      have hmoves := moves_of_step hstep
      exact ⟨recorded_moves h.1 hmoves, tidy_moves h.1 h.2 hbuild hmoves⟩

/-- A live view is opened with a decoder key of three bytes, and throws; a talkback of the same
camera takes over its source. -/
def brokenKey : List Label :=
  [.live "T8010" 0 false (some [1, 2, 3]), .attach 0, .openTalkback, .resolved 0 "T8010" 0,
    .acquired 0 "T8010" 0 false none]

/-- The call throws, and its consumer stays attached. -/
theorem consumer_left_behind :
    ∃ w w', exec step {} brokenKey = some w ∧ step w (.resume 0 true) = some w' ∧
      (w'.calls[0]?).map Call.stage = some .rejected ∧
      (w'.pulls[0]?).map (fun p => (p.riding, p.source.consumers)) = some ([0], 2) ∧
      ¬StepsMeet step (fun w l => w.StaysExclusive l ∧ w.CleansUp l) {}
        (brokenKey ++ [.resume 0 true]) := by
  refine ⟨_, _, rfl, rfl, rfl, rfl, fun h => ?_⟩
  obtain ⟨-, hclean⟩ := h.meets rfl
  exact (hclean _ rfl 0 _ rfl rfl).2 _ (List.mem_singleton_self _) (by decide)

end EufySdk.Talkback
