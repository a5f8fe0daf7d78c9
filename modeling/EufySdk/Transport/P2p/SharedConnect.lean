import Mathlib.Tactic
import EufySdk.Lib.Lists
import EufySdk.Transport.P2p.SessionBookkeeping
import EufySdk.Transport.P2p.SessionFrame

/-!
# Calls that share a connect

The caller that opens and the callers that join wait on one promise of the factory, but only
the one that opens looks behind it whether the station was closed meanwhile. A caller that
joined gets what the promise resolved with, which the manager may have closed by then.

- `Manager.SettlesRight` — a step settles the calls of an open alike, and none with a session
  the manager has closed
- `Manager.KeepsJoiners` — no step closes the session of an open that calls wait on as joiners
- `Manager.Shared`, `Manager.Joined` — what holds behind every run, and behind the steps that
  keep the joiners
- `settlesRight_of_keepsJoiners` — the runs whose steps keep the joiners, and what follows
  where one does not
-/

namespace EufySdk.SessionLifecycle

open Machine

/-- What a caller is told where nothing has happened to the station. -/
def verdict : Except String ℕ → Acquired
  | .ok i => .session i
  | .error err => .failed err

def Acquired.session? : Acquired → Option ℕ
  | .session i => some i
  | _ => none

def Stage.concluded : Stage → Option Acquired
  | .done v => some v
  | _ => none

/-- The call has joined open `o` and waits. -/
def Call.waitsOn (call : Call) (o : ℕ) : Prop :=
  call.opening = some o ∧ call.opener = false ∧ call.outcome = none

instance (call : Call) (o : ℕ) : Decidable (call.waitsOn o) :=
  inferInstanceAs (Decidable (_ ∧ _ ∧ _))

namespace Manager

variable {κ : Type*}

/-- Behind every run. -/
structure Shared (m : Manager κ) : Prop where
  /-- An open that is not concluded is the one its entry is connecting with. -/
  opened : ∀ (o : ℕ) p, m.opens[o]? = some p → ∃ e, m.objects[p.entry]? = some e ∧
    (p.stage.concluded = none → e.connecting = some o ∧ e.session = p.session)
  connecting : ∀ (k : ℕ) e o, m.objects[k]? = some e → e.connecting = some o →
    ∃ p, m.opens[o]? = some p ∧ p.entry = k ∧ p.stage.concluded = none
  session : ∀ (k : ℕ) e i, m.objects[k]? = some e → e.session = some i →
    ∃ (o : ℕ) (p : Open), m.opens[o]? = some p ∧ p.entry = k ∧ p.session = some i
  fresh : ∀ (o : ℕ) p i, m.opens[o]? = some p → p.session = some i → i < m.sessions
  unique : ∀ (o o' : ℕ) p p' i, m.opens[o]? = some p → m.opens[o']? = some p' →
    p.session = some i → p'.session = some i → o = o'
  result : ∀ (o : ℕ) p i, m.opens[o]? = some p → p.result = some (.ok i) → p.session = some i
  opening : ∀ (o : ℕ) p, m.opens[o]? = some p → p.result = none → p.stage = .opening
  verdict : ∀ (o : ℕ) p v, m.opens[o]? = some p → p.stage = .done v →
    ∃ r, p.result = some r ∧ (v = verdict r ∨ ∀ i, v ≠ .session i)
  closing : ∀ (o : ℕ) p, m.opens[o]? = some p → p.stage = .closing → m.present p.entry = false
  /-- What the manager has closed belongs to an entry that was discarded. -/
  closed : ∀ i ∈ m.closed, ∃ (o : ℕ) (p : Open), m.opens[o]? = some p ∧ p.session = some i ∧
    m.present p.entry = false
  current : ∀ (o : ℕ) p, m.opens[o]? = some p → m.present p.entry = true →
    p.generation = m.generation
  calls : ∀ call ∈ m.calls, ∀ o, call.opening = some o → ∃ p, m.opens[o]? = some p ∧
    (call.opener = true → call.outcome = p.stage.concluded)

/-- Where every step has kept the joiners. -/
def Joined (m : Manager κ) : Prop :=
  ∀ call ∈ m.calls, ∀ o p, call.opening = some o → call.opener = false → m.opens[o]? = some p →
    (p.stage = .opening ∧ call.outcome = none) ∨
      ∃ r, p.result = some r ∧ p.stage = .done (SessionLifecycle.verdict r) ∧
        (call.outcome = none → ∀ i, r = .ok i → i ∉ m.closed) ∧
        ∀ v, call.outcome = some v → v = SessionLifecycle.verdict r

namespace Shared

variable {m n : Manager κ} {o : ℕ} {p : Open}

theorem start : Shared ({} : Manager κ) where
  opened o p h := by simp at h
  connecting k e o h := by simp at h
  session k e i h := by simp at h
  fresh o p i h := by simp at h
  unique o o' p p' i h := by simp at h
  result o p i h := by simp at h
  opening o p h := by simp at h
  verdict o p v h := by simp at h
  closing o p h := by simp at h
  closed i h := by cases h
  current o p h := by simp at h
  calls call h := by cases h

/-- The session of an entry in the map is not closed. -/
theorem not_closed (h : m.Shared) {k i : ℕ} {e : Entry κ} (he : m.objects[k]? = some e)
    (hsession : e.session = some i) (hpresent : m.present k = true) : i ∉ m.closed := by
  intro hi
  obtain ⟨o, p, hp, rfl, hpi⟩ := h.session k e i he hsession
  obtain ⟨o', p', hp', hpi', hgone⟩ := h.closed i hi
  obtain rfl := h.unique o o' p p' i hp hp' hpi hpi'
  obtain rfl := Option.some.inj (hp.symm.trans hp')
  rw [hpresent] at hgone
  cases hgone

theorem superseded_iff (h : m.Shared) (hp : m.opens[o]? = some p) :
    m.superseded p = true ↔ m.present p.entry = false := by
  rw [superseded, Bool.or_eq_true, decide_eq_true_eq, Bool.not_eq_true']
  constructor
  · rintro (hgeneration | hgone)
    · by_contra hpresent
      rw [Bool.not_eq_false] at hpresent
      exact hgeneration (h.current o p hp hpresent)
    · exact hgone
  · exact .inr

theorem frame (h : m.Shared) (hframe : m.Frame n) : n.Shared where
  opened o p hp := by
    rw [hframe.opens] at hp
    obtain ⟨e, he, hopen⟩ := h.opened o p hp
    obtain ⟨a, ha, -, hsession, hconnecting⟩ := hframe.objects _ e he
    rw [← hsession, ← hconnecting] at hopen
    exact ⟨a, ha, hopen⟩
  connecting k e o he hconnecting := by
    rw [hframe.opens]
    cases hold : m.objects[k]? with
    | none =>
      rw [(hframe.fresh k e he hold).2] at hconnecting
      cases hconnecting
    | some a =>
      obtain ⟨b, hb, -, -, hsame⟩ := hframe.objects k a hold
      obtain rfl := Option.some.inj (he.symm.trans hb)
      exact h.connecting k a o hold (hsame ▸ hconnecting)
  session k e i he hsession := by
    rw [hframe.opens]
    cases hold : m.objects[k]? with
    | none =>
      rw [(hframe.fresh k e he hold).1] at hsession
      cases hsession
    | some a =>
      obtain ⟨b, hb, -, hsame, -⟩ := hframe.objects k a hold
      obtain rfl := Option.some.inj (he.symm.trans hb)
      exact h.session k a i hold (hsame ▸ hsession)
  fresh := by rw [hframe.opens, hframe.sessions]; exact h.fresh
  unique := by rw [hframe.opens]; exact h.unique
  result := by rw [hframe.opens]; exact h.result
  opening := by rw [hframe.opens]; exact h.opening
  verdict := by rw [hframe.opens]; exact h.verdict
  closing o p hp hstage := by
    rw [hframe.opens] at hp
    obtain ⟨e, he, -⟩ := h.opened o p hp
    exact hframe.absent he (h.closing o p hp hstage)
  closed i hi := by
    rw [hframe.opens]
    rcases hframe.closed i hi with hi | ⟨k, e, he, hsession, hgone⟩
    · obtain ⟨o, p, hp, hpi, hgone⟩ := h.closed i hi
      obtain ⟨e, he, -⟩ := h.opened o p hp
      exact ⟨o, p, hp, hpi, hframe.absent he hgone⟩
    · cases hold : m.objects[k]? with
      | none =>
        rw [(hframe.fresh k e he hold).1] at hsession
        cases hsession
      | some a =>
        obtain ⟨b, hb, -, hsame, -⟩ := hframe.objects k a hold
        obtain rfl := Option.some.inj (he.symm.trans hb)
        obtain ⟨o, p, hp, rfl, hpi⟩ := h.session k a i hold (hsame ▸ hsession)
        exact ⟨o, p, hp, hpi, hgone⟩
  current o p hp hpresent := by
    rw [hframe.opens] at hp
    obtain ⟨e, he, -⟩ := h.opened o p hp
    rcases hframe.generation with hsame | hgone
    · rw [hsame]
      exact h.current o p hp (hframe.gone _ e he hpresent)
    · rw [hgone _ e he] at hpresent
      cases hpresent
  calls := by rw [hframe.calls, hframe.opens]; exact h.calls

theorem present_modify {k : ℕ} {f : Entry κ → Entry κ} (hkey : ∀ e, (f e).key = e.key) (j : ℕ) :
    (m.modify k f).present j = m.present j := by
  rw [present, present, Manager.modify, List.getElem?_modify]
  cases m.objects[j]? with
  | none => rfl
  | some e =>
    show decide (m.entries (if k = j then f e else e).key = some j) = _
    split
    · rw [hkey]
      rfl
    · rfl

/-- An open changes in its session, its result or its stage, and its entry with it. -/
theorem change (h : m.Shared) (hp : m.opens[o]? = some p) {q : Open} {g : Open → Open}
    {f : Entry κ → Entry κ} {sessions : ℕ} {closed : List ℕ} {calls : List Call} (hq : g p = q)
    (hopen : p.stage.concluded = none) (hentry : q.entry = p.entry)
    (hgeneration : q.generation = p.generation)
    (hkey : ∀ e, (f e).key = e.key)
    (hf : ∀ e, e.connecting = some o → e.session = p.session → (f e).session = q.session ∧
      (f e).connecting = if q.stage.concluded = none then some o else none)
    (hresult : ∀ i, q.result = some (.ok i) → q.session = some i)
    (hopening : q.result = none → q.stage = .opening)
    (hverdict : ∀ v, q.stage = .done v →
      ∃ r, q.result = some r ∧ (v = SessionLifecycle.verdict r ∨ ∀ i, v ≠ .session i))
    (hclosing : q.stage = .closing → m.present p.entry = false)
    (hsession : (q.session = p.session ∧ m.sessions ≤ sessions) ∨
      (p.session = none ∧ q.session = some m.sessions ∧ m.sessions < sessions))
    (hclosed : ∀ i ∈ closed, i ∈ m.closed ∨ q.session = some i ∧ m.present p.entry = false)
    (hcalls : ∀ call ∈ calls, ∃ old ∈ m.calls, call.opening = old.opening ∧
      call.opener = old.opener ∧ (call.opener = true →
        call.outcome = if call.opening = some o then q.stage.concluded else old.outcome)) :
    Shared { (m.modify p.entry f).modifyOpen o g with
      sessions := sessions, closed := closed, calls := calls } := by
  obtain ⟨e, he, hwaits⟩ := h.opened o p hp
  obtain ⟨hconnecting, hsame⟩ := hwaits hopen
  obtain ⟨hfsession, hfconnecting⟩ := hf e hconnecting hsame
  have hhere : (m.modify p.entry f).objects[p.entry]? = some (f e) :=
    (List.getElem?_modify_eq ..).trans (congrArg (Option.map _) he)
  have hobjects : ∀ {k : ℕ} {a : Entry κ}, (m.modify p.entry f).objects[k]? = some a →
      (k = p.entry ∧ a = f e) ∨ (k ≠ p.entry ∧ m.objects[k]? = some a) := by
    intro k a ha
    obtain ⟨rfl, rfl⟩ | hold := Lists.getElem?_modify_known he ha
    · exact .inl ⟨rfl, rfl⟩
    · exact .inr hold
  have hpresent : ∀ k, (m.modify p.entry f).present k = m.present k :=
    present_modify hkey
  have hback : ∀ {o' : ℕ} {p' : Open}, (m.opens.modify o g)[o']? = some p' →
      (o' = o ∧ p' = q) ∨ (o' ≠ o ∧ m.opens[o']? = some p') := by
    intro o' p' hp'
    obtain ⟨rfl, rfl⟩ | hold := Lists.getElem?_modify_known hp hp'
    · exact .inl ⟨rfl, hq⟩
    · exact .inr hold
  have hthis : (m.opens.modify o g)[o]? = some q := by
    rw [← hq]
    exact (List.getElem?_modify_eq ..).trans (congrArg (Option.map _) hp)
  have hother : ∀ {o' : ℕ} {p' : Open}, m.opens[o']? = some p' → o' ≠ o →
      (m.opens.modify o g)[o']? = some p' :=
    fun hp' hne => (List.getElem?_modify_ne _ _ (Ne.symm hne)).trans hp'
  -- the sessions of the other opens are older than one that is registered now
  have hnot : ∀ {o' : ℕ} {p' : Open} {i : ℕ}, o' ≠ o → m.opens[o']? = some p' →
      p'.session = some i → q.session ≠ some i := by
    intro o' p' i hne hp' hi hq
    rcases hsession with ⟨hq', -⟩ | ⟨-, hq', -⟩
    · exact hne (h.unique o' o p' p i hp' hp hi (hq'.symm.trans hq))
    · rw [hq'] at hq
      obtain rfl := Option.some.inj hq
      exact (h.fresh o' p' _ hp' hi).ne rfl
  have hkeeps : ∀ {o' : ℕ} {p' : Open} {i : ℕ}, m.opens[o']? = some p' → p'.session = some i →
      ∃ q', (m.opens.modify o g)[o']? = some q' ∧ q'.entry = p'.entry ∧
        q'.session = some i := by
    intro o' p' i hp' hi
    by_cases hne : o' = o
    · subst hne
      obtain rfl := Option.some.inj (hp.symm.trans hp')
      rcases hsession with ⟨hq, -⟩ | ⟨hnone, -, -⟩
      · exact ⟨q, hthis, hentry, hq.trans hi⟩
      · rw [hnone] at hi
        cases hi
    · exact ⟨p', hother hp' hne, rfl, hi⟩
  refine ⟨?_, ?_, ?_, ?_, ?_, ?_, ?_, ?_, ?_, ?_, ?_, ?_⟩
  · intro o' p' hp'
    rcases hback hp' with ⟨rfl, rfl⟩ | ⟨hne, hp'⟩
    · refine ⟨f e, hentry ▸ hhere, fun hnone => ⟨?_, hfsession⟩⟩
      rw [hfconnecting, if_pos hnone]
    · obtain ⟨a, ha, hrest⟩ := h.opened o' p' hp'
      by_cases hk : p'.entry = p.entry
      · refine ⟨f e, hk ▸ hhere, fun hnone => ?_⟩
        rw [hk, he] at ha
        obtain rfl := Option.some.inj ha
        exact absurd (Option.some.inj ((hrest hnone).1.symm.trans hconnecting)) hne
      · exact ⟨a, (List.getElem?_modify_ne _ _ (Ne.symm hk)).trans ha, hrest⟩
  · intro k a o' ha hao
    rcases hobjects ha with ⟨rfl, rfl⟩ | ⟨hk, ha⟩
    · rw [hfconnecting] at hao
      split at hao
      · rename_i hnone
        obtain rfl := Option.some.inj hao
        exact ⟨q, hthis, hentry, hnone⟩
      · cases hao
    · obtain ⟨p', hp', hk', hnone⟩ := h.connecting k a o' ha hao
      refine ⟨p', hother hp' ?_, hk', hnone⟩
      rintro rfl
      obtain rfl := Option.some.inj (hp.symm.trans hp')
      exact hk hk'.symm
  · intro k a i ha hai
    rcases hobjects ha with ⟨rfl, rfl⟩ | ⟨hk, ha⟩
    · exact ⟨o, q, hthis, hentry, hfsession.symm.trans hai⟩
    · obtain ⟨o', p', hp', rfl, hi⟩ := h.session k a i ha hai
      obtain ⟨q', hq', hentry', hi'⟩ := hkeeps hp' hi
      exact ⟨o', q', hq', hentry', hi'⟩
  · intro o' p' i hp' hi
    rcases hback hp' with ⟨rfl, rfl⟩ | ⟨hne, hp'⟩
    · rcases hsession with ⟨hq, hle⟩ | ⟨-, hq, hlt⟩
      · exact (h.fresh _ p i hp (hq.symm.trans hi)).trans_le hle
      · rw [hq] at hi
        obtain rfl := Option.some.inj hi
        exact hlt
    · rcases hsession with ⟨-, hle⟩ | ⟨-, -, hlt⟩
      · exact (h.fresh o' p' i hp' hi).trans_le hle
      · exact (h.fresh o' p' i hp' hi).trans hlt
  · intro o' o'' p' p'' i hp' hp'' hi' hi''
    rcases hback hp' with ⟨rfl, rfl⟩ | ⟨hne, hold⟩
    · rcases hback hp'' with ⟨rfl, -⟩ | ⟨hne', hold'⟩
      · rfl
      · exact absurd hi' (hnot hne' hold' hi'')
    · rcases hback hp'' with ⟨rfl, rfl⟩ | ⟨-, hold'⟩
      · exact absurd hi'' (hnot hne hold hi')
      · exact h.unique o' o'' p' p'' i hold hold' hi' hi''
  · intro o' p' i hp' hi
    rcases hback hp' with ⟨-, rfl⟩ | ⟨-, hp'⟩
    · exact hresult i hi
    · exact h.result o' p' i hp' hi
  · intro o' p' hp' hnone
    rcases hback hp' with ⟨-, rfl⟩ | ⟨-, hp'⟩
    · exact hopening hnone
    · exact h.opening o' p' hp' hnone
  · intro o' p' v hp' hv
    rcases hback hp' with ⟨-, rfl⟩ | ⟨-, hp'⟩
    · exact hverdict v hv
    · exact h.verdict o' p' v hp' hv
  · intro o' p' hp' hstage
    refine (hpresent p'.entry).trans ?_
    rcases hback hp' with ⟨-, rfl⟩ | ⟨-, hp'⟩
    · exact hentry ▸ hclosing hstage
    · exact h.closing o' p' hp' hstage
  · intro i hi
    rcases hclosed i hi with hi | ⟨hq, hgone⟩
    · obtain ⟨o', p', hp', hpi, hgone⟩ := h.closed i hi
      obtain ⟨q', hq', hentry', hi'⟩ := hkeeps hp' hpi
      exact ⟨o', q', hq', hi', (hpresent _).trans (hentry' ▸ hgone)⟩
    · exact ⟨o, q, hthis, hq, (hpresent _).trans (hentry ▸ hgone)⟩
  · intro o' p' hp' hp'present
    have hwas : m.present p'.entry = true := (hpresent p'.entry).symm.trans hp'present
    rcases hback hp' with ⟨-, rfl⟩ | ⟨-, hp'⟩
    · exact hgeneration.trans (h.current o p hp (hentry ▸ hwas))
    · exact h.current o' p' hp' hwas
  · intro call hcall o' ho'
    obtain ⟨old, hold, hopening', hopener, houtcome⟩ := hcalls call hcall
    obtain ⟨p', hp', hthen⟩ := h.calls old hold o' (hopening'.symm.trans ho')
    by_cases hne : o' = o
    · subst hne
      refine ⟨q, hthis, fun hopens => ?_⟩
      rw [houtcome hopens, if_pos ho']
    · refine ⟨p', hother hp' hne, fun hopens => ?_⟩
      rw [houtcome hopens, if_neg]
      · exact hthen (hopener ▸ hopens)
      · rw [ho']
        exact fun heq => hne (Option.some.inj heq)

theorem concluded_of_result (h : m.Shared) (hp : m.opens[o]? = some p) (hnone : p.result = none) :
    p.stage.concluded = none := by
  rw [h.opening o p hp hnone]
  rfl

/-- The call that opened is told nothing yet. -/
theorem calls_opened (h : m.Shared) (hp : m.opens[o]? = some p) {call : Call}
    (hcall : call ∈ m.calls) (hopener : call.opener = true) :
    call.outcome = if call.opening = some o then p.stage.concluded else call.outcome := by
  split
  · rename_i hthis
    obtain ⟨p', hp', houtcome⟩ := h.calls call hcall o hthis
    obtain rfl := Option.some.inj (hp.symm.trans hp')
    exact houtcome hopener
  · rfl

theorem register (h : m.Shared) (hp : m.opens[o]? = some p) (hsession : p.session = none)
    (hresult : p.result = none) : (m.register o p).Shared := by
  have hopen := h.concluded_of_result hp hresult
  refine h.change hp (f := fun e => { e with session := some m.sessions }) rfl hopen rfl rfl
    (fun _ => rfl) ?_ ?_ (h.opening o p hp) (h.verdict o p · hp) (h.closing o p hp)
    (.inr ⟨hsession, rfl, m.sessions.lt_succ_self⟩) (fun i hi => .inl hi)
    (fun call hcall => ⟨call, hcall, rfl, rfl, h.calls_opened hp hcall⟩)
  · intro e hconnecting _
    exact ⟨rfl, by rw [if_pos hopen]; exact hconnecting⟩
  · intro i hi
    rw [hresult] at hi
    cases hi

/-- Where nothing but the open changes. -/
theorem modifyOpen (h : m.Shared) (hp : m.opens[o]? = some p) {g : Open → Open} {closed : List ℕ}
    (hopen : p.stage.concluded = none) (hg : (g p).entry = p.entry ∧
      (g p).generation = p.generation ∧ (g p).session = p.session ∧ (g p).stage.concluded = none)
    (hresult : ∀ i, (g p).result = some (.ok i) → p.session = some i)
    (hopening : (g p).result = none → (g p).stage = .opening)
    (hclosing : (g p).stage = .closing → m.present p.entry = false)
    (hclosed : ∀ i ∈ closed, i ∈ m.closed ∨ p.session = some i ∧ m.present p.entry = false) :
    Shared { m.modifyOpen o g with closed := closed } := by
  obtain ⟨hentry, hgeneration, hsession, hconcluded⟩ := hg
  have hsame : m.objects.modify p.entry (fun e => e) = m.objects := List.modify_id ..
  have hchanged : Shared { (m.modify p.entry fun e => e).modifyOpen o g with
      sessions := m.sessions, closed := closed, calls := m.calls } := by
    refine h.change hp rfl hopen hentry hgeneration (fun _ => rfl) ?_ ?_ hopening ?_ hclosing
      (.inl ⟨hsession, le_rfl⟩) ?_ (fun call hcall => ⟨call, hcall, rfl, rfl, ?_⟩)
    · intro e hconnecting hesession
      exact ⟨hesession.trans hsession.symm, by rw [if_pos hconcluded]; exact hconnecting⟩
    · intro i hi
      exact hsession.trans (hresult i hi)
    · intro v hv
      rw [hv] at hconcluded
      cases hconcluded
    · rw [hsession]
      exact hclosed
    · rw [hconcluded, ← hopen]
      exact h.calls_opened hp hcall
  simp only [Manager.modify, hsame] at hchanged
  exact hchanged

theorem conclude (h : m.Shared) (hp : m.opens[o]? = some p) (hopen : p.stage.concluded = none)
    {r : Except String ℕ} (hr : p.result = some r) {v : Acquired}
    (hv : v = SessionLifecycle.verdict r ∨ ∀ i, v ≠ .session i) : (m.conclude o p v).Shared := by
  refine h.change hp (q := { p with stage := .done v }) rfl hopen rfl rfl ?_ ?_ (h.result o p · hp)
    ?_ ?_ ?_ (.inl ⟨rfl, le_rfl⟩) (fun i hi => .inl hi) ?_
  · intro e
    split
    · rfl
    · rfl
  · intro e hconnecting hesession
    rw [if_pos hconnecting]
    exact ⟨hesession, rfl⟩
  · intro hnone
    rw [hr] at hnone
    cases hnone
  · rintro w ⟨⟩
    exact ⟨r, hr, hv⟩
  · intro hclosing
    cases hclosing
  · intro call hcall
    obtain ⟨old, hold, rfl⟩ := List.mem_map.mp hcall
    refine ⟨old, hold, ?_, ?_, fun hopener => ?_⟩
    · split <;> rfl
    · split <;> rfl
    · have hopens : old.opener = true := by
        split at hopener
        · exact hopener
        · exact hopener
      by_cases hthis : old.opening = some o
      · simp [hthis, hopens, Stage.concluded]
      · simp [hthis]

/-- A call is noted that waits on nothing, or joins the open its entry is connecting with. -/
theorem called (h : m.Shared) {call : Call} (hopener : call.opener = false)
    (hopening : ∀ o, call.opening = some o → ∃ p, m.opens[o]? = some p) :
    Shared { m with calls := m.calls ++ [call] } :=
  { h with
    calls := by
      intro other hother o ho
      rcases List.mem_append.mp hother with hother | hother
      · exact h.calls other hother o ho
      · obtain rfl := List.mem_singleton.mp hother
        obtain ⟨p, hp⟩ := hopening o ho
        refine ⟨p, hp, fun hopens => ?_⟩
        rw [hopener] at hopens
        cases hopens }

theorem settle (h : m.Shared) {c : ℕ} {call : Call} (hc : m.calls[c]? = some call)
    (hopener : call.opener = false) (r : Except String ℕ) : (m.settle c r).Shared := by
  have hcalls : ∀ {v : Acquired}, Shared { m with
      calls := m.calls.modify c fun call => { call with outcome := some v } } := by
    intro v
    refine { h with calls := ?_ }
    intro other hother o ho
    obtain ⟨d, hd⟩ := List.mem_iff_getElem?.mp hother
    obtain ⟨rfl, rfl⟩ | ⟨-, hold⟩ := Lists.getElem?_modify_known hc hd
    · obtain ⟨p, hp, -⟩ := h.calls _ (List.mem_of_getElem? hc) o ho
      refine ⟨p, hp, fun hopens => ?_⟩
      rw [show call.opener = true from hopens] at hopener
      cases hopener
    · exact h.calls other (List.mem_of_getElem? hold) o ho
  cases r with
  | ok i => exact hcalls
  | error err => exact hcalls

/-- An entry begins to connect. -/
theorem connects (h : m.Shared) {k : ℕ} {e : Entry κ} (he : m.objects[k]? = some e)
    (hconnecting : e.connecting = none) (hsession : e.session = none) :
    Shared { m.modify k fun e => { e with connecting := some m.opens.length } with
      opens := m.opens ++ [{ entry := k, generation := m.generation }]
      calls := m.calls ++ [{ opening := some m.opens.length, opener := true }] } := by
  have hhere : (m.modify k fun e => { e with connecting := some m.opens.length }).objects[k]? =
      some { e with connecting := some m.opens.length } :=
    (List.getElem?_modify_eq ..).trans (congrArg (Option.map _) he)
  have hpresent : ∀ j, (m.modify k fun e => { e with connecting := some m.opens.length }).present j =
      m.present j := present_modify fun _ => rfl
  have hback : ∀ {o : ℕ} {p : Open},
      (m.opens ++ [({ entry := k, generation := m.generation } : Open)])[o]? = some p →
        (o = m.opens.length ∧ p = { entry := k, generation := m.generation }) ∨
          m.opens[o]? = some p := Lists.getElem?_append_cases
  have hthere : ∀ {o : ℕ} {p : Open}, m.opens[o]? = some p →
      (m.opens ++ [({ entry := k, generation := m.generation } : Open)])[o]? = some p :=
    Lists.getElem?_append_of_some
  refine ⟨?_, ?_, ?_, ?_, ?_, ?_, ?_, ?_, ?_, ?_, ?_, ?_⟩
  · intro o p hp
    rcases hback hp with ⟨rfl, rfl⟩ | hp
    · exact ⟨_, hhere, fun _ => ⟨rfl, hsession⟩⟩
    · obtain ⟨a, ha, hrest⟩ := h.opened o p hp
      refine ⟨_, Lists.getElem?_modify_of_some k ha, fun hnone => ?_⟩
      split
      · rename_i hk
        rw [← hk, he] at ha
        obtain rfl := Option.some.inj ha
        rw [hconnecting] at hrest
        cases (hrest hnone).1
      · exact hrest hnone
  · intro j a o ha hao
    rcases Lists.getElem?_modify_cases ha with ⟨rfl, b, hb, rfl⟩ | ⟨-, ha⟩
    · obtain rfl := Option.some.inj hao
      exact ⟨_, List.getElem?_concat_length, rfl, rfl⟩
    · obtain ⟨p, hp, hrest⟩ := h.connecting j a o ha hao
      exact ⟨p, hthere hp, hrest⟩
  · intro j a i ha hai
    have hold : ∃ b, m.objects[j]? = some b ∧ b.session = some i := by
      rcases Lists.getElem?_modify_cases ha with ⟨rfl, b, hb, rfl⟩ | ⟨-, ha⟩
      · exact ⟨b, hb, hai⟩
      · exact ⟨a, ha, hai⟩
    obtain ⟨b, hb, hbi⟩ := hold
    obtain ⟨o, p, hp, hrest⟩ := h.session j b i hb hbi
    exact ⟨o, p, hthere hp, hrest⟩
  · intro o p i hp hi
    rcases hback hp with ⟨-, rfl⟩ | hp
    · cases hi
    · exact h.fresh o p i hp hi
  · intro o o' p p' i hp hp' hi hi'
    rcases hback hp with ⟨-, rfl⟩ | hp
    · cases hi
    · rcases hback hp' with ⟨-, rfl⟩ | hp'
      · cases hi'
      · exact h.unique o o' p p' i hp hp' hi hi'
  · intro o p i hp hi
    rcases hback hp with ⟨-, rfl⟩ | hp
    · cases hi
    · exact h.result o p i hp hi
  · intro o p hp hnone
    rcases hback hp with ⟨-, rfl⟩ | hp
    · rfl
    · exact h.opening o p hp hnone
  · intro o p v hp hv
    rcases hback hp with ⟨-, rfl⟩ | hp
    · cases hv
    · exact h.verdict o p v hp hv
  · intro o p hp hstage
    refine (hpresent p.entry).trans ?_
    rcases hback hp with ⟨-, rfl⟩ | hp
    · cases hstage
    · exact h.closing o p hp hstage
  · intro i hi
    obtain ⟨o, p, hp, hpi, hgone⟩ := h.closed i hi
    exact ⟨o, p, hthere hp, hpi, (hpresent _).trans hgone⟩
  · intro o p hp hhas
    rcases hback hp with ⟨-, rfl⟩ | hp
    · rfl
    · exact h.current o p hp ((hpresent _).symm.trans hhas)
  · intro call hcall o ho
    rcases List.mem_append.mp hcall with hcall | hcall
    · obtain ⟨p, hp, hrest⟩ := h.calls call hcall o ho
      exact ⟨p, hthere hp, hrest⟩
    · obtain rfl := List.mem_singleton.mp hcall
      obtain rfl := Option.some.inj ho
      exact ⟨_, List.getElem?_concat_length, fun _ => rfl⟩

variable [DecidableEq κ]

theorem acquire (h : m.Shared) (key : κ) : (m.acquire key).Shared := by
  have hentry := h.frame (Frame.entry m key)
  unfold Manager.acquire
  dsimp only
  split
  · rename_i e he
    split
    · rename_i o hconnecting
      refine hentry.called rfl fun o' ho' => ?_
      obtain rfl := Option.some.inj ho'
      obtain ⟨p, hp, -⟩ := hentry.connecting _ e _ he hconnecting
      exact ⟨p, hp⟩
    · exact hentry.called rfl fun o' ho' => by cases ho'
    · rename_i hconnecting hsession
      exact hentry.connects he hconnecting hsession
  · exact hentry

omit [DecidableEq κ] in
/-- An open that was not superseded: its session is that of its entry, and not closed. -/
theorem going (h : m.Shared) (hp : m.opens[o]? = some p) (hopen : p.stage.concluded = none) {i : ℕ}
    (hresult : p.result = some (.ok i)) (hgoes : m.superseded p = false) :
    (∃ e, m.objects[p.entry]? = some e ∧ e.session = some i) ∧ i ∉ m.closed := by
  obtain ⟨e, he, hwaits⟩ := h.opened o p hp
  have hsession : e.session = some i := (hwaits hopen).2.trans (h.result o p i hp hresult)
  refine ⟨⟨e, he, hsession⟩, h.not_closed he hsession ?_⟩
  by_contra hgone
  rw [Bool.not_eq_true, ← h.superseded_iff hp, hgoes] at hgone
  cases hgone

omit [DecidableEq κ] in
/-- Where the open was not superseded, the caller that opened is told what the joiners are. -/
theorem continues_ok (h : m.Shared) (hp : m.opens[o]? = some p) (hopen : p.stage.concluded = none)
    {i : ℕ} (hresult : p.result = some (.ok i)) (hgoes : m.superseded p = false) :
    m.continues o p (.ok i) = m.conclude o p (.session i) := by
  obtain ⟨⟨e, he, hsession⟩, -⟩ := h.going hp hopen hresult hgoes
  have hsame : m.modify p.entry (fun e => { e with session := some i }) = m := by
    have hobjects : m.objects.modify p.entry (fun e => { e with session := some i }) = m.objects := by
      refine (Lists.modify_congr (g := id) he ?_).trans (List.modify_id ..)
      rw [← hsession]
      rfl
    rw [Manager.modify, hobjects]
  simp [Manager.continues, hgoes, he, hsession, hsame]

omit [DecidableEq κ] in
theorem continues (h : m.Shared) (hp : m.opens[o]? = some p) (hstage : p.stage = .opening)
    {r : Except String ℕ} (hresult : p.result = some r) : (m.continues o p r).Shared := by
  have hopen : p.stage.concluded = none := by
    rw [hstage]
    rfl
  cases r with
  | error err => exact h.conclude hp hopen hresult (.inl rfl)
  | ok i =>
    cases hgoes : m.superseded p with
    | false =>
      rw [h.continues_ok hp hopen hresult hgoes]
      exact h.conclude hp hopen hresult (.inl rfl)
    | true =>
      have hgone := (h.superseded_iff hp).mp hgoes
      simp only [Manager.continues, hgoes, if_true]
      refine h.modifyOpen hp hopen ⟨rfl, rfl, rfl, rfl⟩ (h.result o p · hp) ?_ (fun _ => hgone) ?_
      · intro hnone
        rw [show p.result = none from hnone] at hresult
        cases hresult
      · intro j hj
        rcases List.mem_append.mp hj with hj | hj
        · exact .inl hj
        · obtain rfl := List.mem_singleton.mp hj
          exact .inr ⟨h.result o p j hp hresult, hgone⟩

end Shared

/-! ## Steps -/

variable [DecidableEq κ] {m n : Manager κ} {a : Label κ}

/-- What a step is to the opens in flight. -/
inductive Moves (m : Manager κ) : Label κ → Manager κ → Prop
  | frame {a : Label κ} {n : Manager κ} (hframe : m.Frame n) : Moves m a n
  | acquire (key : κ) : Moves m (.acquire key) (m.acquire key)
  | register {o : ℕ} {p : Open} (hp : m.opens[o]? = some p) (hsession : p.session = none)
      (hresult : p.result = none) : Moves m (.register o) (m.register o p)
  | answers {a : Label κ} {o : ℕ} {p : Open} {r : Except String ℕ} (hp : m.opens[o]? = some p)
      (hresult : p.result = none) (hr : ∀ i, r = .ok i → p.session = some i) :
      Moves m a (m.modifyOpen o fun p => { p with result := some r })
  | continues {o : ℕ} {p : Open} {r : Except String ℕ} (hp : m.opens[o]? = some p)
      (hresult : p.result = some r) (hstage : p.stage = .opening) :
      Moves m (.continues o) (m.continues o p r)
  | abandoned {o : ℕ} {p : Open} {failure : Option String} {v : Acquired}
      (hp : m.opens[o]? = some p) (hstage : p.stage = .closing) (hv : ∀ i, v ≠ .session i) :
      Moves m (.abandoned o failure) (m.conclude o p v)
  | settles {c o : ℕ} {call : Call} {p : Open} {r : Except String ℕ}
      (hc : m.calls[c]? = some call) (hwaits : call.waitsOn o) (hp : m.opens[o]? = some p)
      (hresult : p.result = some r) (hstage : p.stage ≠ .opening) :
      Moves m (.settles c) (m.settle c r)

theorem moves_of_step (hstep : m.step a = some n) : m.Moves a n := by
  cases transition_of_step hstep with
  | acquire => exact .acquire _
  | register hp hsession hresult => exact .register hp hsession hresult
  | completes hp hsession hresult =>
    refine .answers hp hresult fun i hi => ?_
    obtain rfl := Except.ok.inj hi
    exact hsession
  | fails hp hresult => exact .answers hp hresult fun i hi => by cases hi
  | continues hp hresult hstage => exact .continues hp hresult hstage
  | @abandoned o p failure hp hstage =>
    refine .abandoned hp hstage fun i hi => ?_
    cases failure with
    | none => cases hi
    | some err => cases hi
  | settles hc hp hresult hstage => exact .settles hc ⟨rfl, rfl, rfl⟩ hp hresult hstage
  | retain => exact .frame (Frame.retain m _)
  | release => exact .frame (Frame.release m _)
  | hold => exact .frame (Frame.hold m _)
  | holdExpires => exact .frame (Frame.holdExpires m _ _)
  | idleElapses => exact .frame (Frame.idleElapses m _ _)
  | close => exact .frame (Frame.close m _)
  | remove => exact .frame (Frame.remove m _)
  | closeAll => exact .frame (Frame.closeAll m)
  | resetWhenUnused => exact .frame (Frame.resetWhenUnused m _)
  | closeEnds => exact .frame (Frame.closeEnds m _ _ _)
  | powered => exact .frame (.of_eq rfl rfl rfl rfl rfl rfl rfl)

theorem Shared.moves (h : m.Shared) (hmoves : m.Moves a n) : n.Shared := by
  cases hmoves with
  | frame hframe => exact h.frame hframe
  | acquire key => exact h.acquire key
  | register hp hsession hresult => exact h.register hp hsession hresult
  | @answers _ o p r hp hresult hr =>
    have hopen := h.concluded_of_result hp hresult
    refine h.modifyOpen hp hopen ⟨rfl, rfl, rfl, hopen⟩ ?_ (fun hnone => by cases hnone)
      (h.closing o p hp) (fun i hi => .inl hi)
    intro i hi
    exact hr i (Option.some.inj hi)
  | continues hp hresult hstage => exact h.continues hp hstage hresult
  | @abandoned o p _ v hp hstage hv =>
    obtain ⟨r, hr⟩ : ∃ r, p.result = some r := by
      refine Option.ne_none_iff_exists'.mp fun hnone => ?_
      rw [h.opening o p hp hnone] at hstage
      cases hstage
    refine h.conclude hp ?_ hr (.inr hv)
    rw [hstage]
    rfl
  | settles hc hwaits => exact h.settle hc hwaits.2.1 _

/-- **Run lemma.** -/
theorem Shared.run {labels : List (Label κ)} (hexec : exec Manager.step {} labels = some m) :
    m.Shared :=
  (run_of_exec hexec).invariant .start fun _ _ _ h hstep => h.moves (moves_of_step hstep)

/-! ## Joiners -/

/-- What a step must not do to the calls that have joined an open and wait. -/
structure KeepsJoiners (m : Manager κ) (a : Label κ) : Prop where
  /-- An open they wait on is not superseded when the caller that opened goes on. -/
  superseded : ∀ o p i, a = .continues o → m.opens[o]? = some p → p.result = some (.ok i) →
    ∀ call ∈ m.calls, call.waitsOn o → m.superseded p = false
  /-- The session of an open they wait on is not closed once the caller that opened has it. -/
  closed : ∀ n, m.step a = some n → ∀ (o : ℕ) p i, m.opens[o]? = some p →
    p.stage = .done (.session i) → ∀ call ∈ m.calls, call.waitsOn o → i ∉ m.closed → i ∉ n.closed

instance : Decidable (m.KeepsJoiners a) :=
  decidable_of_iff
    (∀ call ∈ m.calls, ∀ o ∈ call.opening, call.waitsOn o → ∀ p ∈ m.opens[o]?,
      (a = .continues o → ∀ r ∈ p.result, r.toOption.isSome → m.superseded p = false) ∧
        ∀ n ∈ m.step a, ∀ v ∈ p.stage.concluded, ∀ i ∈ v.session?, i ∉ m.closed → i ∉ n.closed) <| by
    constructor
    · intro h
      constructor
      · rintro o p i rfl hp hresult call hcall hwaits
        exact (h call hcall o hwaits.1 hwaits p hp).1 rfl (.ok i) hresult rfl
      · intro n hstep o p i hp hstage call hcall hwaits
        refine (h call hcall o hwaits.1 hwaits p hp).2 n hstep (.session i) ?_ i rfl
        rw [hstage]
        rfl
    · intro h call hcall o _ hwaits p hp
      constructor
      · rintro rfl r hr hok
        cases r with
        | ok i => exact h.superseded o p i rfl hp hr call hcall hwaits
        | error err => cases hok
      · intro n hstep v hv i hi
        refine h.closed n hstep o p i hp ?_ call hcall hwaits
        cases hstage : p.stage with
        | done w =>
          rw [hstage] at hv
          obtain rfl := Option.some.inj hv
          cases w with
          | session j => rw [Option.some.inj hi]
          | superseded | failed err => cases hi
        | opening | closing =>
          rw [hstage] at hv
          cases hv

namespace Joined

variable {o : ℕ} {p : Open}

omit [DecidableEq κ]

/-- Only what is closed changes, and not what joiners wait for. -/
theorem of_eq (h : m.Joined) (hopens : n.opens = m.opens) (hcalls : n.calls = m.calls)
    (hclosed : ∀ (o : ℕ) p i, m.opens[o]? = some p → p.stage = .done (.session i) →
      ∀ call ∈ m.calls, call.waitsOn o → i ∉ m.closed → i ∉ n.closed) : n.Joined := by
  intro call hcall o p ho hopener hp
  rw [hopens] at hp
  rw [hcalls] at hcall
  refine (h call hcall o p ho hopener hp).imp_right ?_
  rintro ⟨r, hr, hstage, hpending, hsettled⟩
  refine ⟨r, hr, hstage, fun hnone i hi => ?_, hsettled⟩
  subst hi
  exact hclosed o p i hp hstage call hcall ⟨ho, hopener, hnone⟩ (hpending hnone i rfl)

/-- The caller that opened has not gone on. -/
theorem modifyOpen (h : m.Joined) (hp : m.opens[o]? = some p) (hstage : p.stage = .opening)
    {g : Open → Open} (hg : (g p).stage = p.stage) (hopens : n.opens = m.opens.modify o g)
    (hcalls : n.calls = m.calls) (hclosed : n.closed = m.closed) : n.Joined := by
  intro call hcall o' p' ho hopener hp'
  rw [hopens] at hp'
  rw [hcalls] at hcall
  rw [hclosed]
  obtain ⟨rfl, rfl⟩ | ⟨-, hold⟩ := Lists.getElem?_modify_known hp hp'
  · rcases h call hcall _ p ho hopener hp with ⟨hopening, hnone⟩ | ⟨r, -, hdone, -⟩
    · exact .inl ⟨hg.trans hopening, hnone⟩
    · rw [hstage] at hdone
      cases hdone
  · exact h call hcall o' p' ho hopener hold

/-- The caller that opened goes on with what the joiners will be told, or there are none. -/
theorem conclude (h : m.Joined) (hp : m.opens[o]? = some p) {r : Except String ℕ}
    (hr : p.result = some r) {v : Acquired}
    (hv : ∀ call ∈ m.calls, call.opening = some o → call.opener = false →
      p.stage = .opening ∧ v = verdict r ∧ ∀ i, r = .ok i → i ∉ m.closed) :
    (m.conclude o p v).Joined := by
  intro call hcall o' p' ho hopener hp'
  obtain ⟨old, hold, rfl⟩ := List.mem_map.mp hcall
  have hsame : (if (old.opening = some o && old.opener) = true then
      { old with outcome := some v } else old) = old := by
    refine if_neg fun hopens => ?_
    rw [if_pos hopens] at hopener
    rw [Bool.and_eq_true] at hopens
    rw [show old.opener = false from hopener] at hopens
    cases hopens.2
  rw [hsame] at ho hopener ⊢
  obtain ⟨rfl, rfl⟩ | ⟨-, hthere⟩ := Lists.getElem?_modify_known hp hp'
  · obtain ⟨hstage, rfl, hnot⟩ := hv old hold ho hopener
    rcases h old hold _ p ho hopener hp with ⟨-, hnone⟩ | ⟨r', -, hdone, -⟩
    · refine .inr ⟨r, hr, rfl, fun _ => hnot, fun w hw => ?_⟩
      rw [hnone] at hw
      cases hw
    · rw [hstage] at hdone
      cases hdone
  · exact h old hold o' p' ho hopener hthere

theorem settle (h : m.Joined) {c : ℕ} {call : Call} (hc : m.calls[c]? = some call)
    (hwaits : call.waitsOn o) (hp : m.opens[o]? = some p) {r : Except String ℕ}
    (hr : p.result = some r) (hstage : p.stage ≠ .opening) : (m.settle c r).Joined := by
  have hcalls : (m.settle c r).calls =
      m.calls.modify c fun call => { call with outcome := some (verdict r) } := by
    cases r <;> rfl
  have hopens : (m.settle c r).opens = m.opens := by cases r <;> rfl
  have hclosed : (m.settle c r).closed = m.closed := by cases r <;> rfl
  intro other hother o' p' ho hopener hp'
  rw [hcalls] at hother
  rw [hopens] at hp'
  rw [hclosed]
  obtain ⟨d, hd⟩ := List.mem_iff_getElem?.mp hother
  obtain ⟨rfl, rfl⟩ | ⟨-, hold⟩ := Lists.getElem?_modify_known hc hd
  · obtain rfl := Option.some.inj (hwaits.1.symm.trans ho)
    obtain rfl := Option.some.inj (hp.symm.trans hp')
    rcases h call (List.mem_of_getElem? hc) o p hwaits.1 hwaits.2.1 hp with
      ⟨hopening, -⟩ | ⟨r', hr', hdone, -⟩
    · exact absurd hopening hstage
    · obtain rfl := Option.some.inj (hr.symm.trans hr')
      refine .inr ⟨r, hr, hdone, fun hnone => (by cases hnone), fun v hv => ?_⟩
      exact (Option.some.inj hv).symm
  · exact h other (List.mem_of_getElem? hold) o' p' ho hopener hp'

/-- A call is noted that waits on nothing, or joins an open whose opener has not gone on. -/
theorem called (h : m.Joined) {call : Call} (hjoins : call.opener = false → ∀ o p,
    call.opening = some o → m.opens[o]? = some p → p.stage = .opening ∧ call.outcome = none) :
    Joined { m with calls := m.calls ++ [call] } := by
  intro other hother o p ho hopener hp
  rcases List.mem_append.mp hother with hother | hother
  · exact h other hother o p ho hopener hp
  · obtain rfl := List.mem_singleton.mp hother
    exact .inl (hjoins hopener o p ho hp)

variable [DecidableEq κ]

theorem closed_entry (m : Manager κ) (key : κ) : (m.entry key).1.closed = m.closed := by
  unfold Manager.entry
  split
  · rfl
  · rfl

theorem acquire (h : m.Joined) (hs : m.Shared) (hkept : m.Kept []) (key : κ) :
    (m.acquire key).Joined := by
  have hentry := hs.frame (Frame.entry m key)
  have hjoined : (m.entry key).1.Joined := by
    refine h.of_eq (Frame.entry m key).opens (Frame.entry m key).calls fun o p i _ _ call _ _ hi => ?_
    rw [closed_entry]
    exact hi
  obtain ⟨e, he, rfl, hentries⟩ := hkept.entry_spec key
  have hpresent : (m.entry e.key).1.present (m.entry e.key).2 = true :=
    present_iff.mpr ⟨e, he, hentries⟩
  unfold Manager.acquire
  dsimp only
  simp only [he]
  split
  · rename_i o hconnecting
    refine hjoined.called fun _ o' p ho hp => ⟨?_, rfl⟩
    obtain rfl := Option.some.inj ho
    obtain ⟨q, hq, hk, hopen⟩ := hentry.connecting _ e _ he hconnecting
    obtain rfl := Option.some.inj (hp.symm.trans hq)
    -- the entry is in the map, so its open was not superseded
    cases hstage : p.stage with
    | opening => rfl
    | closing =>
      have hgone := hentry.closing _ p hp hstage
      rw [hk, hpresent] at hgone
      cases hgone
    | done v =>
      rw [hstage] at hopen
      cases hopen
  · exact hjoined.called fun _ o p ho => by cases ho
  · intro call hcall o p ho hopener hp
    rcases List.mem_append.mp hcall with hcall | hcall
    · rcases Lists.getElem?_append_cases hp with ⟨rfl, -⟩ | hold
      · -- nobody had joined the open that begins
        obtain ⟨q, hq, -⟩ := hentry.calls call hcall _ ho
        rw [List.getElem?_eq_none (le_refl _)] at hq
        cases hq
      · exact hjoined call hcall o p ho hopener hold
    · obtain rfl := List.mem_singleton.mp hcall
      cases hopener

theorem moves (h : m.Joined) (hs : m.Shared) (hkept : m.Kept []) (hkeeps : m.KeepsJoiners a)
    (hstep : m.step a = some n) : n.Joined := by
  have hclosed := hkeeps.closed n hstep
  cases moves_of_step hstep with
  | frame hframe => exact h.of_eq hframe.opens hframe.calls hclosed
  | acquire key => exact h.acquire hs hkept key
  | register hp hsession hresult =>
    exact h.modifyOpen hp (hs.opening _ _ hp hresult) rfl rfl rfl rfl
  | answers hp hresult hr =>
    exact h.modifyOpen hp (hs.opening _ _ hp hresult) rfl rfl rfl rfl
  | @continues o p r hp hresult hstage =>
    have hopen : p.stage.concluded = none := by
      rw [hstage]
      rfl
    cases r with
    | error err => exact h.conclude hp hresult fun _ _ _ _ => ⟨hstage, rfl, fun i hi => by cases hi⟩
    | ok i =>
      cases hgoes : m.superseded p with
      | false =>
        rw [hs.continues_ok hp hopen hresult hgoes]
        refine h.conclude hp hresult fun _ _ _ _ => ⟨hstage, rfl, fun j hj => ?_⟩
        obtain rfl := Except.ok.inj hj
        exact (hs.going hp hopen hresult hgoes).2
      | true =>
        have hnone : ∀ call ∈ m.calls, call.opening = some o → call.opener = true := by
          intro call hcall ho
          by_contra hopener
          rw [Bool.not_eq_true] at hopener
          rcases h call hcall o p ho hopener hp with ⟨-, hpending⟩ | ⟨r, -, hdone, -⟩
          · have hnot := hkeeps.superseded o p i rfl hp hresult call hcall ⟨ho, hopener, hpending⟩
            rw [hgoes] at hnot
            cases hnot
          · rw [hstage] at hdone
            cases hdone
        simp only [Manager.continues, hgoes, if_true] at hclosed ⊢
        intro call hcall o' p' ho hopener hp'
        rcases Lists.getElem?_modify_cases hp' with ⟨rfl, -, -, -⟩ | ⟨-, hold⟩
        · rw [hnone call hcall ho] at hopener
          cases hopener
        · refine (h call hcall o' p' ho hopener hold).imp_right ?_
          rintro ⟨r, hr, hdone, hpending, hsettled⟩
          refine ⟨r, hr, hdone, fun hwaits j hj => ?_, hsettled⟩
          subst hj
          exact hclosed o' p' j hold hdone call hcall ⟨ho, hopener, hwaits⟩ (hpending hwaits j rfl)
  | @abandoned o p _ v hp hstage hv =>
    obtain ⟨r, hr⟩ : ∃ r, p.result = some r := by
      refine Option.ne_none_iff_exists'.mp fun hnone => ?_
      rw [hs.opening o p hp hnone] at hstage
      cases hstage
    refine h.conclude hp hr fun call hcall ho hopener => ?_
    rcases h call hcall o p ho hopener hp with ⟨hopening, -⟩ | ⟨r, -, hdone, -⟩
    · rw [hstage] at hopening
      cases hopening
    · rw [hstage] at hdone
      cases hdone
  | settles hc hwaits hp hresult hstage => exact h.settle hc hwaits hp hresult hstage

end Joined

/-! ## How calls settle -/

/-- A call that this step settles gets no session the manager has closed before, and what every
other call has got that shares its open. -/
def SettlesRight (m : Manager κ) (a : Label κ) : Prop :=
  ∀ n, m.step a = some n → ∀ (c : ℕ) call v, n.calls[c]? = some call → call.outcome = some v →
    (∀ old, m.calls[c]? = some old → old.outcome = none) →
    (∀ i, v = .session i → i ∉ m.closed) ∧
    ∀ other ∈ n.calls, ∀ o, call.opening = some o → other.opening = some o →
      ∀ w, other.outcome = some w → w = v

omit [DecidableEq κ] in
/-- What a settled call was told is how its open was concluded. -/
theorem Joined.told (h : m.Joined) (hs : m.Shared) {call : Call} {o : ℕ} {v : Acquired}
    (hcall : call ∈ m.calls) (ho : call.opening = some o) (hv : call.outcome = some v) :
    ∃ p, m.opens[o]? = some p ∧ p.stage = .done v := by
  obtain ⟨p, hp, hopened⟩ := hs.calls call hcall o ho
  refine ⟨p, hp, ?_⟩
  cases hopener : call.opener with
  | true =>
    have hconcluded := hopened hopener
    rw [hv] at hconcluded
    cases hstage : p.stage with
    | done w =>
      rw [hstage] at hconcluded
      rw [Option.some.inj hconcluded]
    | opening | closing =>
      rw [hstage] at hconcluded
      cases hconcluded
  | false =>
    rcases h call hcall o p ho hopener hp with ⟨-, hnone⟩ | ⟨r, -, hdone, -, hsettled⟩
    · rw [hv] at hnone
      cases hnone
    · rw [hdone, hsettled v hv]

omit [DecidableEq κ] in
/-- The settled calls of an open are settled alike. -/
theorem Joined.alike (h : m.Joined) (hs : m.Shared) {call other : Call} {o : ℕ} {v w : Acquired}
    (hcall : call ∈ m.calls) (hother : other ∈ m.calls) (ho : call.opening = some o)
    (ho' : other.opening = some o) (hv : call.outcome = some v) (hw : other.outcome = some w) :
    w = v := by
  obtain ⟨p, hp, hstage⟩ := h.told hs hcall ho hv
  obtain ⟨q, hq, hstage'⟩ := h.told hs hother ho' hw
  obtain rfl := Option.some.inj (hp.symm.trans hq)
  rw [hstage] at hstage'
  exact (Stage.done.inj hstage').symm

omit [DecidableEq κ] in
/-- Only the calls that opened are settled when an open is concluded. -/
theorem calls_conclude {o : ℕ} {p : Open} {v w : Acquired} {c : ℕ} {call : Call}
    (hc : (m.conclude o p v).calls[c]? = some call) (hw : call.outcome = some w)
    (hnew : ∀ old, m.calls[c]? = some old → old.outcome = none) : w = v := by
  rw [conclude, List.getElem?_map] at hc
  obtain ⟨old, hold, rfl⟩ := Option.map_eq_some_iff.mp hc
  split at hw
  · exact (Option.some.inj hw).symm
  · rw [hnew old hold] at hw
    cases hw

theorem settlesRight (h : m.Joined) (hs : m.Shared) (hkept : m.Kept [])
    (hkeeps : m.KeepsJoiners a) : m.SettlesRight a := by
  intro n hstep c call v hc hv hnew
  have hjoined := h.moves hs hkept hkeeps hstep
  have hshared := hs.moves (moves_of_step hstep)
  refine ⟨?_, fun other hother o ho ho' w hw =>
    hjoined.alike hshared (List.mem_of_getElem? hc) hother ho ho' hv hw⟩
  have hsame : n.calls = m.calls → False := by
    intro hcalls
    rw [hcalls] at hc
    rw [hnew call hc] at hv
    cases hv
  intro i hvi
  cases moves_of_step hstep with
  | frame hframe => exact absurd hframe.calls hsame
  | acquire key =>
    have hentry := hs.frame (Frame.entry m key)
    have hcalls := (Frame.entry m key).calls
    obtain ⟨e, he, rfl, hentries⟩ := hkept.entry_spec key
    have hold : ∀ {new : Call}, ((m.entry e.key).1.calls ++ [new])[c]? = some call → call = new := by
      intro new hc
      rcases Lists.getElem?_append_cases hc with ⟨-, rfl⟩ | hold
      · rfl
      · rw [hcalls] at hold
        rw [hnew call hold] at hv
        cases hv
    simp only [Manager.acquire, he] at hc
    split at hc
    · obtain rfl := hold hc
      cases hv
    · rename_i j _ hsession
      obtain rfl := hold hc
      obtain rfl := Acquired.session.inj ((Option.some.inj hv).trans hvi)
      rw [← Joined.closed_entry m e.key]
      exact hentry.not_closed he hsession (present_iff.mpr ⟨e, he, hentries⟩)
    · obtain rfl := hold hc
      cases hv
  | register hp hsession hresult => exact absurd rfl hsame
  | answers hp hresult hr => exact absurd rfl hsame
  | @continues o p r hp hresult hstage =>
    have hopen : p.stage.concluded = none := by
      rw [hstage]
      rfl
    cases r with
    | error err =>
      rw [calls_conclude hc hv hnew] at hvi
      cases hvi
    | ok j =>
      cases hgoes : m.superseded p with
      | false =>
        rw [hs.continues_ok hp hopen hresult hgoes] at hc
        rw [calls_conclude hc hv hnew] at hvi
        obtain rfl := Acquired.session.inj hvi
        exact (hs.going hp hopen hresult hgoes).2
      | true =>
        simp only [Manager.continues, hgoes, if_true] at hsame
        exact absurd rfl hsame
  | abandoned hp hstage hnot =>
    rw [calls_conclude hc hv hnew] at hvi
    exact absurd hvi (hnot i)
  | @settles d o old p r hd hwaits hp hresult hstage =>
    have hcalls : (m.settle d r).calls =
        m.calls.modify d fun call => { call with outcome := some (verdict r) } := by
      cases r <;> rfl
    rw [hcalls] at hc
    obtain ⟨rfl, rfl⟩ | ⟨-, hold⟩ := Lists.getElem?_modify_known hd hc
    · rcases h old (List.mem_of_getElem? hd) o p hwaits.1 hwaits.2.1 hp with
        ⟨hopening, -⟩ | ⟨r', hr', -, hpending, -⟩
      · exact absurd hopening hstage
      · obtain rfl := Option.some.inj (hresult.symm.trans hr')
        refine hpending hwaits.2.2 i ?_
        have htold : verdict r = .session i := (Option.some.inj hv).trans hvi
        cases r with
        | ok j => rw [Acquired.session.inj htold]
        | error err => cases htold
    · rw [hnew call hold] at hv
      cases hv

/-- The turn of a call that joined comes when the session is closed. -/
theorem settles_wrong {c o i : ℕ} {call : Call} {p : Open} (hc : n.calls[c]? = some call)
    (hwaits : call.waitsOn o) (hp : n.opens[o]? = some p) (hresult : p.result = some (.ok i))
    (hstage : p.stage ≠ .opening) (hi : i ∈ n.closed) : ¬n.SettlesRight (.settles c) := by
  intro hright
  obtain ⟨opening, opener, outcome⟩ := call
  obtain ⟨rfl, rfl, rfl⟩ := hwaits
  have hstep : n.step (.settles c) = some (n.settle c (.ok i)) := by
    cases hs : p.stage with
    | opening => exact absurd hs hstage
    | closing => simp only [step, hc, hp, hresult, hs]
    | done v => simp only [step, hc, hp, hresult, hs]
  have hsettled : (n.settle c (.ok i)).calls[c]? = some ⟨some o, false, some (.session i)⟩ :=
    (List.getElem?_modify_eq ..).trans (congrArg (Option.map _) hc)
  refine (hright _ hstep c _ _ hsettled rfl fun old hold => ?_).1 i rfl hi
  obtain rfl := Option.some.inj (hc.symm.trans hold)
  rfl

theorem closed_acquire (m : Manager κ) (key : κ) : (m.acquire key).closed = m.closed := by
  refine Eq.trans ?_ (Joined.closed_entry m key)
  unfold Manager.acquire
  dsimp only
  split
  · split
    · rfl
    · rfl
    · rfl
  · rfl

omit [DecidableEq κ] in
theorem closed_continues {o : ℕ} {p : Open} {r : Except String ℕ} :
    (m.continues o p r).closed = m.closed ∨ ∃ i, r = .ok i ∧
      (m.continues o p r).closed = m.closed ++ [i] := by
  cases r with
  | error err => exact .inl rfl
  | ok i =>
    unfold Manager.continues
    dsimp only
    split
    · exact .inr ⟨i, rfl, rfl⟩
    · exact .inl rfl

/-- Where a step does not keep a joiner, the joiner settles wrong when its turn comes. -/
theorem not_settlesRight (hs : m.Shared) (hstep : m.step a = some n) (hnot : ¬m.KeepsJoiners a) :
    ∃ c, ¬n.SettlesRight (.settles c) := by
  by_contra hall
  push Not at hall
  apply hnot
  constructor
  · rintro o p i rfl hp hresult call hcall hwaits
    by_contra hsuperseded
    rw [Bool.not_eq_false] at hsuperseded
    obtain ⟨c, hc⟩ := List.mem_iff_getElem?.mp hcall
    simp only [step, hp, hresult] at hstep
    split at hstep
    · obtain rfl := Option.some.inj hstep
      rename_i hr _
      obtain rfl := Option.some.inj hr
      have hcloses : m.continues o p (.ok i) =
          { m.modifyOpen o fun p => { p with stage := .closing } with closed := m.closed ++ [i] } := by
        simp only [Manager.continues, hsuperseded, if_true]
      rw [hcloses] at hall
      refine @settles_wrong _ _ { m.modifyOpen o fun p => { p with stage := .closing } with
        closed := m.closed ++ [i] } c o i call { p with stage := .closing } hc hwaits ?_ hresult ?_ ?_
          (hall c)
      · exact (List.getElem?_modify_eq ..).trans (congrArg (Option.map _) hp)
      · simp
      · exact List.mem_append_right _ (List.mem_singleton.mpr rfl)
    · cases hstep
  · intro n' hstep' o p i hp hstage call hcall hwaits hi hi'
    obtain rfl := Option.some.inj (hstep.symm.trans hstep')
    obtain ⟨c, hc⟩ := List.mem_iff_getElem?.mp hcall
    have hresult : p.result = some (.ok i) := by
      obtain ⟨r, hr, hv | hv⟩ := hs.verdict o p _ hp hstage
      · cases r with
        | ok j => rw [hr, Acquired.session.inj hv]
        | error err => cases hv
      · exact absurd rfl (hv i)
    have hgoes : p.stage ≠ .opening := by
      rw [hstage]
      simp
    -- only a step that leaves the calls and the opens alone can have closed it
    cases moves_of_step hstep with
    | frame hframe =>
      exact settles_wrong (hframe.calls ▸ hc) hwaits (hframe.opens ▸ hp) hresult hgoes hi' (hall c)
    | acquire key =>
      rw [closed_acquire] at hi'
      exact hi hi'
    | register => exact hi hi'
    | answers => exact hi hi'
    | @continues o' p' r hp' hresult' hstage' =>
      rcases closed_continues (m := m) (o := o') (p := p') (r := r) with hsame | ⟨j, rfl, hmore⟩
      · rw [hsame] at hi'
        exact hi hi'
      · rw [hmore, List.mem_append] at hi'
        obtain rfl := List.mem_singleton.mp (hi'.resolve_left hi)
        obtain rfl := hs.unique o o' p p' i hp hp' (hs.result o p i hp hresult)
          (hs.result o' p' i hp' hresult')
        obtain rfl := Option.some.inj (hp.symm.trans hp')
        exact hgoes hstage'
    | abandoned => exact hi hi'
    | @settles d _ _ _ r =>
      have hsame : (m.settle d r).closed = m.closed := by cases r <;> rfl
      rw [hsame] at hi'
      exact hi hi'

/-- **Everyone who shares a connect shares its outcome**, in every run whose steps keep the
joiners; behind a step that does not, a joiner settles wrong. -/
theorem settlesRight_of_keepsJoiners (labels : List (Label κ)) :
    (StepsMeet step KeepsJoiners ({} : Manager κ) labels → StepsMeet step SettlesRight {} labels) ∧
    ∀ m a n, exec step {} labels = some m → m.step a = some n → ¬m.KeepsJoiners a →
      ∃ c, ¬n.SettlesRight (.settles c) := by
  constructor
  · intro hmeet
    refine hmeet.strengthen (J := fun m => m.Joined ∧ m.Shared ∧ m.Kept [])
      ⟨fun call hcall => (by cases hcall), .start, .start⟩ ?_ ?_
    · rintro m a ⟨h, hs, hkept⟩ hkeeps
      exact settlesRight h hs hkept hkeeps
    · rintro m a n ⟨h, hs, hkept⟩ hkeeps hstep
      exact ⟨h.moves hs hkept hkeeps hstep, hs.moves (moves_of_step hstep), hkept.step hstep⟩
  · intro m a n hexec hstep hnot
    exact not_settlesRight (Shared.run hexec) hstep hnot

/-- Two calls share a connect that nothing comes in the way of. -/
theorem settlesRight_of_keepsJoiners_shared_connect :
    StepsMeet step SettlesRight ({} : Manager ℕ)
      [.acquire 0, .acquire 0, .register 0, .completes 0, .continues 0, .settles 1, .close 0] :=
  (settlesRight_of_keepsJoiners _).1 (by decide)

/-- Two calls share a connect, and the station is closed before it completes. -/
def closedWhileConnecting : List (Label ℕ) :=
  [.acquire 0, .acquire 0, .register 0, .close 0, .completes 0, .continues 0, .abandoned 0 none]

/-- The caller that opened is told that it was superseded, the other one gets the session the
manager has closed. -/
theorem joiner_gets_closed_session : ∃ m n : Manager ℕ,
    exec step {} closedWhileConnecting = some m ∧ m.step (.settles 1) = some n ∧ 0 ∈ m.closed ∧
      n.calls = [⟨some 0, true, some .superseded⟩, ⟨some 0, false, some (.session 0)⟩] ∧
      ¬StepsMeet step SettlesRight ({} : Manager ℕ) (closedWhileConnecting ++ [.settles 1]) := by
  refine ⟨_, _, rfl, rfl, by decide, by decide, fun h => ?_⟩
  have hright := h.meets rfl _ rfl 1 _ _ rfl rfl fun old hold => ?_
  · exact hright.1 0 rfl (by decide)
  · obtain rfl := Option.some.inj hold
    rfl

end Manager

end EufySdk.SessionLifecycle
