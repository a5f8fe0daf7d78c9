import Mathlib.Tactic
import EufySdk.Lib.Lists
import EufySdk.Transport.P2p.SessionLifecycle

/-!
# What retaining and closing leave of an open

Retains, holds, idle windows, closes and resets do not touch the opens in flight. They may
make an empty entry, or take entries out of the map for good, and close the sessions of
those.

- `Manager.Frame` — such a change of a manager, a preorder
- `Frame.discard`, `Frame.autoClose`, `Frame.closeAll`, `Frame.release`, … — one lemma for
  each operation
-/

namespace EufySdk.SessionLifecycle

namespace Manager

variable {κ : Type*}

/-- A change that leaves the opens alone. -/
structure Frame (m n : Manager κ) : Prop where
  objects : ∀ (k : ℕ) e, m.objects[k]? = some e → ∃ e', n.objects[k]? = some e' ∧
    e'.key = e.key ∧ e'.session = e.session ∧ e'.connecting = e.connecting
  fresh : ∀ (k : ℕ) e, n.objects[k]? = some e → m.objects[k]? = none →
    e.session = none ∧ e.connecting = none
  /-- An entry that was discarded does not come back. -/
  gone : ∀ (k : ℕ) e, m.objects[k]? = some e → n.present k = true → m.present k = true
  opens : n.opens = m.opens
  calls : n.calls = m.calls
  sessions : n.sessions = m.sessions
  closed : ∀ i ∈ n.closed, i ∈ m.closed ∨
    ∃ (k : ℕ) (e : Entry κ), n.objects[k]? = some e ∧ e.session = some i ∧ n.present k = false
  generation : n.generation = m.generation ∨
    ∀ (k : ℕ) e, m.objects[k]? = some e → n.present k = false

namespace Frame

variable {l m n : Manager κ} {k : ℕ} {key : κ}

theorem refl (m : Manager κ) : m.Frame m where
  objects k e he := ⟨e, he, rfl, rfl, rfl⟩
  fresh k e he hnone := by
    rw [hnone] at he
    cases he
  gone k e he h := h
  opens := rfl
  calls := rfl
  sessions := rfl
  closed i hi := .inl hi
  generation := .inl rfl

/-- An entry that is not in the map stays out of it. -/
theorem absent (h : m.Frame n) {e : Entry κ} (he : m.objects[k]? = some e)
    (hk : m.present k = false) : n.present k = false := by
  by_contra hpresent
  rw [Bool.not_eq_false] at hpresent
  rw [h.gone k e he hpresent] at hk
  cases hk

theorem trans (h : l.Frame m) (h' : m.Frame n) : l.Frame n where
  objects k e he := by
    obtain ⟨a, ha, hkey, hsession, hconnecting⟩ := h.objects k e he
    obtain ⟨b, hb, hbkey, hbsession, hbconnecting⟩ := h'.objects k a ha
    exact ⟨b, hb, hbkey.trans hkey, hbsession.trans hsession, hbconnecting.trans hconnecting⟩
  fresh k e he hnone := by
    cases hmid : m.objects[k]? with
    | none => exact h'.fresh k e he hmid
    | some a =>
      obtain ⟨b, hb, -, hsession, hconnecting⟩ := h'.objects k a hmid
      obtain rfl := Option.some.inj (he.symm.trans hb)
      rw [hsession, hconnecting]
      exact h.fresh k a hmid hnone
  gone k e he hpresent := by
    obtain ⟨a, ha, -⟩ := h.objects k e he
    exact h.gone k e he (h'.gone k a ha hpresent)
  opens := h'.opens.trans h.opens
  calls := h'.calls.trans h.calls
  sessions := h'.sessions.trans h.sessions
  closed i hi := by
    rcases h'.closed i hi with hi | hgone
    · rcases h.closed i hi with hi | ⟨k, e, he, hsession, hgone⟩
      · exact .inl hi
      · obtain ⟨a, ha, -, hasession, -⟩ := h'.objects k e he
        exact .inr ⟨k, a, ha, hasession.trans hsession, h'.absent he hgone⟩
    · exact .inr hgone
  generation := by
    rcases h.generation with hsame | hgone
    · rcases h'.generation with hsame' | hgone'
      · exact .inl (hsame'.trans hsame)
      · refine .inr fun k e he => ?_
        obtain ⟨a, ha, -⟩ := h.objects k e he
        exact hgone' k a ha
    · refine .inr fun k e he => ?_
      obtain ⟨a, ha, -⟩ := h.objects k e he
      exact h'.absent ha (hgone k e he)

/-- Nothing changes that a frame is about. -/
theorem of_eq (hobjects : n.objects = m.objects) (hentries : n.entries = m.entries)
    (hopens : n.opens = m.opens) (hcalls : n.calls = m.calls) (hsessions : n.sessions = m.sessions)
    (hclosed : n.closed = m.closed) (hgeneration : n.generation = m.generation) : m.Frame n where
  objects k e he := ⟨e, by rw [hobjects]; exact he, rfl, rfl, rfl⟩
  fresh k e he hnone := by
    rw [hobjects, hnone] at he
    cases he
  gone k e _ h := by
    rw [present, hobjects, hentries] at h
    exact h
  opens := hopens
  calls := hcalls
  sessions := hsessions
  closed i hi := .inl (hclosed ▸ hi)
  generation := .inl hgeneration

theorem modify_objects {f : Entry κ → Entry κ}
    (hf : ∀ e, (f e).key = e.key ∧ (f e).session = e.session ∧ (f e).connecting = e.connecting)
    {j : ℕ} {e : Entry κ} (he : m.objects[j]? = some e) :
    ∃ e', (m.modify k f).objects[j]? = some e' ∧
      e'.key = e.key ∧ e'.session = e.session ∧ e'.connecting = e.connecting := by
  refine ⟨_, Lists.getElem?_modify_of_some k he, ?_⟩
  split
  · exact hf e
  · exact ⟨rfl, rfl, rfl⟩

/-- A change of an entry that keeps its key, its session and its open. -/
theorem modify (m : Manager κ) (k : ℕ) {f : Entry κ → Entry κ}
    (hf : ∀ e, (f e).key = e.key ∧ (f e).session = e.session ∧ (f e).connecting = e.connecting) :
    m.Frame (m.modify k f) where
  objects j e he := modify_objects hf he
  fresh j e he hnone := by
    rcases Lists.getElem?_modify_cases he with ⟨rfl, a, ha, -⟩ | ⟨-, hold⟩
    · rw [hnone] at ha
      cases ha
    · rw [hnone] at hold
      cases hold
  gone j e he hpresent := by
    obtain ⟨a, ha, hentries⟩ := present_iff.mp hpresent
    obtain ⟨b, hb, hkey, -⟩ := modify_objects (k := k) hf he
    obtain rfl := Option.some.inj (ha.symm.trans hb)
    exact present_iff.mpr ⟨e, he, hkey ▸ hentries⟩
  opens := rfl
  calls := rfl
  sessions := rfl
  closed i hi := .inl hi
  generation := .inl rfl

variable [DecidableEq κ]

theorem entry (m : Manager κ) (key : κ) : m.Frame (m.entry key).1 := by
  unfold Manager.entry
  split
  · exact .refl m
  · rename_i hnone
    refine ⟨fun k e he => ⟨e, Lists.getElem?_append_of_some he, rfl, rfl, rfl⟩, ?_, ?_, rfl, rfl, rfl,
      fun i hi => .inl hi, .inl rfl⟩
    · intro k e he hfresh
      rcases Lists.getElem?_append_cases he with ⟨-, rfl⟩ | hold
      · exact ⟨rfl, rfl⟩
      · rw [hfresh] at hold
        cases hold
    · intro k e he hpresent
      obtain ⟨a, ha, hentries⟩ := present_iff.mp hpresent
      obtain rfl := Option.some.inj ((Lists.getElem?_append_of_some he).symm.trans ha)
      refine present_iff.mpr ⟨e, he, ?_⟩
      dsimp only at hentries
      by_cases hkey : e.key = key
      · rw [hkey, Function.update_self] at hentries
        obtain ⟨hlt, -⟩ := List.getElem?_eq_some_iff.mp he
        exact absurd (Option.some.inj hentries) hlt.ne'
      · rwa [Function.update_of_ne hkey] at hentries

theorem discard (m : Manager κ) (k : ℕ) : m.Frame (m.discard k) := by
  unfold Manager.discard
  split
  · rename_i e he
    have hf : ∀ e : Entry κ, ({ e with idle := false, holdTimers := [] } : Entry κ).key = e.key ∧
        ({ e with idle := false, holdTimers := [] } : Entry κ).session = e.session ∧
        ({ e with idle := false, holdTimers := [] } : Entry κ).connecting = e.connecting :=
      fun e => ⟨rfl, rfl, rfl⟩
    have hmodify := modify m k hf
    refine ⟨hmodify.objects, hmodify.fresh, ?_, rfl, rfl, rfl, fun i hi => .inl hi, .inl rfl⟩
    intro j a ha hpresent
    obtain ⟨b, hb, hentries⟩ := present_iff.mp hpresent
    obtain ⟨c, hc, hkey, -⟩ := hmodify.objects j a ha
    obtain rfl := Option.some.inj (hb.symm.trans hc)
    rw [hkey] at hentries
    refine present_iff.mpr ⟨a, ha, ?_⟩
    dsimp only at hentries
    by_cases hsame : a.key = e.key
    · rw [hsame, Function.update_self] at hentries
      cases hentries
    · rwa [Function.update_of_ne hsame] at hentries
  · exact .refl m

/-- A discarded entry is not in the map. -/
theorem present_discard_self (m : Manager κ) (k : ℕ) : (m.discard k).present k = false := by
  by_contra hpresent
  rw [Bool.not_eq_false] at hpresent
  obtain ⟨a, ha, hentries⟩ := present_iff.mp hpresent
  cases he : m.objects[k]? with
  | none =>
    rw [Manager.discard, he] at ha
    rw [he] at ha
    cases ha
  | some e =>
    rw [Manager.discard, he] at ha hentries
    obtain rfl := Option.some.inj
      (ha.symm.trans ((List.getElem?_modify_eq ..).trans (congrArg (Option.map _) he)))
    dsimp only at hentries
    rw [Function.update_self] at hentries
    cases hentries

omit [DecidableEq κ] in
/-- The session of an entry that is not in the map is closed. -/
theorem closeEntry (h : m.present k = false) : m.Frame (m.closeEntry k) where
  objects j e he := ⟨e, he, rfl, rfl, rfl⟩
  fresh j e he hnone := (refl m).fresh j e he hnone
  gone j e _ hpresent := hpresent
  opens := rfl
  calls := rfl
  sessions := rfl
  closed i hi := by
    rcases List.mem_append.mp hi with hi | hi
    · exact .inl hi
    · rw [Option.mem_toList, Option.bind_eq_some_iff] at hi
      obtain ⟨e, he, hsession⟩ := hi
      exact .inr ⟨k, e, he, hsession, h⟩
  generation := .inl rfl

omit [DecidableEq κ] in
theorem settleReset (m : Manager κ) (k : ℕ) (outcome : Outcome) :
    m.Frame (m.settleReset k outcome) := by
  unfold Manager.settleReset
  split
  · have hmodify : m.Frame (m.modify k fun e => { e with reset := none }) :=
      modify m k fun e => ⟨rfl, rfl, rfl⟩
    exact hmodify.trans (of_eq rfl rfl rfl rfl rfl rfl rfl)
  · exact .refl m

omit [DecidableEq κ] in
theorem closeEnds (m : Manager κ) (c : ℕ) (x : Closing) (outcome : Outcome) :
    m.Frame (m.closeEnds c x outcome) := by
  have hended : m.Frame { m with
      closings := m.closings.modify c fun x => { x with outcome := some outcome } } :=
    of_eq rfl rfl rfl rfl rfl rfl rfl
  exact hended.trans (settleReset _ x.entry outcome)

theorem close (m : Manager κ) (key : κ) : m.Frame (m.close key) := by
  unfold Manager.close
  split
  · rename_i k _
    exact (discard m k).trans (closeEntry (present_discard_self m k))
  · exact .refl m

theorem autoClose (m : Manager κ) (key : κ) : m.Frame (m.autoClose key) := by
  unfold Manager.autoClose
  split
  · rename_i k _
    have hannounced : (m.discard k).Frame { m.discard k with
        announced := if ((m.objects[k]?).bind Entry.session).isSome then m.announced ++ [key]
          else m.announced } :=
      of_eq rfl rfl rfl rfl rfl rfl rfl
    refine ((discard m k).trans hannounced).trans (closeEntry ?_)
    exact present_discard_self m k
  · exact .refl m

theorem remove (m : Manager κ) (key : κ) : m.Frame (m.remove key) := by
  unfold Manager.remove
  split
  · rename_i k _
    exact (discard m k).trans (settleReset _ k .resolved)
  · exact .refl m

theorem discards (m : Manager κ) (ks : List ℕ) : m.Frame (ks.foldl Manager.discard m) := by
  induction ks generalizing m with
  | nil => exact .refl m
  | cons k ks ih => exact (discard m k).trans (ih (m.discard k))

theorem absent_discards (m : Manager κ) (ks : List ℕ) (hk : k ∈ ks) {e : Entry κ}
    (he : m.objects[k]? = some e) : (ks.foldl Manager.discard m).present k = false := by
  induction ks generalizing m e with
  | nil => cases hk
  | cons j ks ih =>
    obtain ⟨a, ha, -⟩ := (discard m j).objects k e he
    rcases List.mem_cons.mp hk with rfl | hk
    · exact (discards (m.discard k) ks).absent ha (present_discard_self m k)
    · exact ih (m.discard j) hk ha

omit [DecidableEq κ] in
theorem closeEntries (m : Manager κ) (ks : List ℕ) (h : ∀ k ∈ ks, m.present k = false) :
    m.Frame (ks.foldl Manager.closeEntry m) := by
  induction ks generalizing m with
  | nil => exact .refl m
  | cons k ks ih =>
    refine (closeEntry (h k List.mem_cons_self)).trans (ih _ fun j hj => ?_)
    exact h j (List.mem_cons_of_mem k hj)

theorem closeAll (m : Manager κ) : m.Frame m.closeAll := by
  have hgone : ∀ (k : ℕ) e, m.objects[k]? = some e →
      (m.presentEntries.foldl Manager.discard { m with generation := m.generation + 1 }).present k =
        false := by
    intro k e he
    by_cases hk : k ∈ m.presentEntries
    · exact absent_discards _ _ hk he
    · refine (discards { m with generation := m.generation + 1 } _).absent he ?_
      rw [presentEntries, List.mem_filter, List.mem_range] at hk
      by_contra hpresent
      rw [Bool.not_eq_false] at hpresent
      exact hk ⟨(List.getElem?_eq_some_iff.mp he).1, hpresent⟩
  have hdiscards := discards { m with generation := m.generation + 1 } m.presentEntries
  have hframe : m.Frame
      (m.presentEntries.foldl Manager.discard { m with generation := m.generation + 1 }) :=
    { hdiscards with generation := .inr hgone }
  refine hframe.trans (closeEntries _ _ fun k hk => ?_)
  rw [presentEntries, List.mem_filter, List.mem_range] at hk
  exact hgone k _ (List.getElem?_eq_getElem hk.1)

theorem retain (m : Manager κ) (key : κ) : m.Frame (m.retain key) :=
  (entry m key).trans (modify _ _ fun _ => ⟨rfl, rfl, rfl⟩)

theorem release (m : Manager κ) (key : κ) : m.Frame (m.release key) := by
  unfold Manager.release
  split
  · rename_i k _
    split
    · split
      · exact .refl m
      · have hreleased : m.Frame (m.modify k fun e => { e with retained := e.retained - 1 }) :=
          modify m k fun e => ⟨rfl, rfl, rfl⟩
        dsimp only
        split
        · exact hreleased.trans (autoClose _ key)
        · split
          · exact hreleased.trans (modify _ k fun e => ⟨rfl, rfl, rfl⟩)
          · exact hreleased
    · exact .refl m
  · exact .refl m

theorem hold (m : Manager κ) (key : κ) : m.Frame (m.hold key) := by
  have hretained : m.Frame ((m.entry key).1.retain key) := (entry m key).trans (retain _ key)
  have htimer : ((m.entry key).1.retain key).Frame (((m.entry key).1.retain key).modify
      (m.entry key).2 fun e =>
        { e with holdTimers := e.holdTimers ++ [(m.entry key).1.holds.length] }) :=
    modify _ _ fun _ => ⟨rfl, rfl, rfl⟩
  exact (hretained.trans htimer).trans (of_eq rfl rfl rfl rfl rfl rfl rfl)

theorem holdExpires (m : Manager κ) (i : ℕ) (t : Hold κ) : m.Frame (m.holdExpires i t) := by
  have htimer : m.Frame (m.modify t.entry fun e => { e with holdTimers := e.holdTimers.erase i }) :=
    modify m t.entry fun e => ⟨rfl, rfl, rfl⟩
  have hexpired : m.Frame
      { m.modify t.entry fun e => { e with holdTimers := e.holdTimers.erase i } with
        holds := m.holds.modify i fun h => { h with pending := false } } :=
    htimer.trans (of_eq rfl rfl rfl rfl rfl rfl rfl)
  exact hexpired.trans (release _ t.key)

theorem idleElapses (m : Manager κ) (k : ℕ) (e : Entry κ) : m.Frame (m.idleElapses k e) := by
  have hoff : m.Frame (m.modify k fun e => { e with idle := false }) :=
    modify m k fun e => ⟨rfl, rfl, rfl⟩
  unfold Manager.idleElapses
  dsimp only
  split
  · split
    · exact hoff
    · exact hoff.trans (autoClose _ e.key)
  · exact hoff

theorem resetWhenUnused (m : Manager κ) (key : κ) : m.Frame (m.resetWhenUnused key) := by
  unfold Manager.resetWhenUnused
  split
  · rename_i k _
    split
    · split
      · exact (autoClose m key).trans (of_eq rfl rfl rfl rfl rfl rfl rfl)
      · split
        · exact of_eq rfl rfl rfl rfl rfl rfl rfl
        · have hmodify : m.Frame (m.modify k fun e => { e with reset := some m.resets.length }) :=
            modify m k fun e => ⟨rfl, rfl, rfl⟩
          exact hmodify.trans (of_eq rfl rfl rfl rfl rfl rfl rfl)
    · exact .refl m
  · exact of_eq rfl rfl rfl rfl rfl rfl rfl

end Frame

end Manager

end EufySdk.SessionLifecycle
