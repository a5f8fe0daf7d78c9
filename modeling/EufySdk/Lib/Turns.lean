import EufySdk.Lib.Lists

/-!
# Taking turns behind a predecessor

Work that joins under a key waits for the work that joined last under that key, where the key
remembers who came last until that one is over. Turns under one key are then taken one at a
time, in the order they joined.

Main results:

- `InTurn.join`, `InTurn.start`, `InTurn.finish` — what joining, starting and finishing keep
- `InTurn.alone` — two turns of one key are never underway together
- `InTurn.ready` — a turn waits for nothing but the turn before it
-/

namespace Turns

inductive Stage
  | waiting
  | underway
  | over
  deriving DecidableEq, Repr

/-- One piece of work, with the entry it waits for. -/
structure Turn (κ : Type*) where
  key : κ
  after : Option ℕ
  stage : Stage

variable {κ : Type*} {ts : List (Turn κ)} {k : κ} {last : Option ℕ} {i j : ℕ} {t u : Turn κ}

/-- Entry `i` is the turn `t`, taken under `k`. -/
def At (ts : List (Turn κ)) (k : κ) (i : ℕ) (t : Turn κ) : Prop :=
  ts[i]? = some t ∧ t.key = k

/-- Turns under `k` start in the order they joined, each behind the end of the one before;
`last` is the one that joined last, while it is not over. -/
structure InTurn (ts : List (Turn κ)) (k : κ) (last : Option ℕ) : Prop where
  behind : ∀ {i j t u}, i < j → At ts k i t → At ts k j u → u.stage ≠ .waiting →
    t.stage = .over
  waits : ∀ {j u}, At ts k j u → u.stage = .waiting →
    ∃ p t, u.after = some p ∧ p < j ∧ At ts k p t ∧ ∀ i s, p < i → i < j → ¬At ts k i s
  idle : last = none → ∀ {i t}, At ts k i t → t.stage = .over
  busy : ∀ {p}, last = some p →
    (∃ t, At ts k p t ∧ t.stage ≠ .over) ∧ ∀ {i s}, At ts k i s → i ≤ p

theorem At.lt (h : At ts k i t) : i < ts.length :=
  (List.getElem?_eq_some_iff.mp h.1).1

theorem At.unique (h : At ts k i t) (h' : At ts k i u) : t = u :=
  Option.some.inj (h.1.symm.trans h'.1)

/-- What is there behind an append is the new turn, or was there. -/
theorem at_append {n : Turn κ} (h : At (ts ++ [n]) k i t) :
    (i = ts.length ∧ t = n) ∨ At ts k i t := by
  obtain ⟨rfl, rfl⟩ | hold := Lists.getElem?_append_cases h.1
  · exact .inl ⟨rfl, rfl⟩
  · exact .inr ⟨hold, h.2⟩

theorem At.append {n : Turn κ} (h : At ts k i t) : At (ts ++ [n]) k i t :=
  ⟨Lists.getElem?_append_of_some h.1, h.2⟩

/-- Setting the stage of one entry. -/
def setStage (ts : List (Turn κ)) (i : ℕ) (s : Stage) : List (Turn κ) :=
  ts.modify i fun t => { t with stage := s }

theorem at_setStage {s : Stage} (h : At (setStage ts i s) k j u) :
    ∃ t, At ts k j t ∧ u.after = t.after ∧ u.stage = if j = i then s else t.stage := by
  obtain ⟨rfl, t, ht, rfl⟩ | ⟨hne, hold⟩ := Lists.getElem?_modify_cases h.1
  · exact ⟨t, ⟨ht, h.2⟩, rfl, (if_pos rfl).symm⟩
  · exact ⟨u, ⟨hold, h.2⟩, rfl, (if_neg hne).symm⟩

theorem At.setStage {s : Stage} (h : At ts k j t) :
    ∃ u, At (setStage ts i s) k j u ∧ u.stage = if j = i then s else t.stage := by
  have hthere := Lists.getElem?_modify_of_some (f := fun t => { t with stage := s }) i h.1
  by_cases hij : j = i
  · rw [if_pos hij.symm] at hthere
    exact ⟨_, ⟨hthere, h.2⟩, (if_pos hij).symm⟩
  · rw [if_neg (Ne.symm hij)] at hthere
    exact ⟨_, ⟨hthere, h.2⟩, (if_neg hij).symm⟩

/-- Under a key no turn was taken under, there is none to wait for. -/
theorem InTurn.fresh (h : ∀ i t, ¬At ts k i t) : InTurn ts k none where
  behind := fun _ hi => absurd hi (h _ _)
  waits := fun hj => absurd hj (h _ _)
  idle := fun _ _ _ hi => absurd hi (h _ _)
  busy := fun hlast => by cases hlast

/-- A turn joins its key behind the last one, or starts at once. -/
theorem InTurn.join {n : Turn κ} (h : InTurn ts k last) (hkey : n.key = k)
    (hafter : n.after = last) (hstage : n.stage = if last.isSome then .waiting else .underway) :
    InTurn (ts ++ [n]) k (some ts.length) := by
  have hnew : At (ts ++ [n]) k ts.length n := ⟨List.getElem?_concat_length, hkey⟩
  constructor
  · intro i j t u hij hi hj hu
    obtain ⟨rfl, rfl⟩ | hj := at_append hj
    · obtain ⟨rfl, -⟩ | hi := at_append hi
      · exact absurd hij (lt_irrefl _)
      · refine h.idle ?_ hi
        cases last with
        | none => rfl
        | some p => exact absurd (hstage.trans (if_pos rfl)) hu
    · obtain ⟨rfl, -⟩ | hi := at_append hi
      · exact absurd hj.lt (by omega)
      · exact h.behind hij hi hj hu
  · intro j u hj hu
    obtain ⟨rfl, rfl⟩ | hj := at_append hj
    · cases last with
      | none => rw [hu] at hstage; cases hstage
      | some p =>
        obtain ⟨⟨t, ht, -⟩, hlast⟩ := h.busy rfl
        refine ⟨p, t, hafter, ht.lt, ht.append, fun i s hpi hi hs => ?_⟩
        obtain ⟨rfl, -⟩ | hs := at_append hs
        · exact lt_irrefl _ hi
        · exact absurd (hlast hs) (by omega)
    · obtain ⟨p, t, hp, hpj, ht, hbetween⟩ := h.waits hj hu
      refine ⟨p, t, hp, hpj, ht.append, fun i s hpi hi hs => ?_⟩
      obtain ⟨rfl, -⟩ | hs := at_append hs
      · exact absurd hj.lt (by omega)
      · exact hbetween i s hpi hi hs
  · intro hlast
    cases hlast
  · intro p hlast
    obtain rfl := Option.some.inj hlast
    refine ⟨⟨n, hnew, ?_⟩, fun {i s} hs => ?_⟩
    · rw [hstage]
      split <;> decide
    · obtain ⟨rfl, -⟩ | hs := at_append hs
      · exact le_refl _
      · exact hs.lt.le

/-- A turn that joins under another key changes nothing. -/
theorem InTurn.joinOther {n : Turn κ} (h : InTurn ts k last) (hkey : n.key ≠ k) :
    InTurn (ts ++ [n]) k last := by
  have hback : ∀ {i t}, At (ts ++ [n]) k i t → At ts k i t := by
    intro i t hi
    obtain ⟨-, rfl⟩ | hold := at_append hi
    · exact absurd hi.2 hkey
    · exact hold
  constructor
  · exact fun hij hi hj hu => h.behind hij (hback hi) (hback hj) hu
  · intro j u hj hu
    obtain ⟨p, t, hp, hpj, ht, hbetween⟩ := h.waits (hback hj) hu
    exact ⟨p, t, hp, hpj, ht.append, fun i s hpi hi hs => hbetween i s hpi hi (hback hs)⟩
  · exact fun hlast _ _ hi => h.idle hlast (hback hi)
  · intro p hlast
    obtain ⟨⟨t, ht, hstage⟩, hmax⟩ := h.busy hlast
    exact ⟨⟨t, ht.append, hstage⟩, fun hs => hmax (hback hs)⟩

/-- What a turn waits for, when all the ones before it are over, is over. -/
theorem InTurn.ready (h : InTurn ts k last) (hj : At ts k j u) (hu : u.stage = .waiting)
    (hover : ∀ i t, i < j → At ts k i t → t.stage = .over) :
    ∃ p t, u.after = some p ∧ At ts k p t ∧ t.stage = .over := by
  obtain ⟨p, t, hp, hpj, ht, -⟩ := h.waits hj hu
  exact ⟨p, t, hp, ht, hover p t hpj ht⟩

/-- Two turns of one key are never underway together. -/
theorem InTurn.alone (h : InTurn ts k last) (hi : At ts k i t) (hj : At ts k j u)
    (ht : t.stage = .underway) (hu : u.stage = .underway) : i = j := by
  rcases lt_trichotomy i j with hij | hij | hij
  · have hover := h.behind hij hi hj (by rw [hu]; decide)
    rw [ht] at hover
    cases hover
  · exact hij
  · have hover := h.behind hij hj hi (by rw [ht]; decide)
    rw [hu] at hover
    cases hover

/-- A turn that waits starts once the one it waits for is over. -/
theorem InTurn.start {p : ℕ} (h : InTurn ts k last) (hi : ts[i]? = some t)
    (hwaiting : t.stage = .waiting) (hafter : t.after = some p) {q : Turn κ}
    (hp : ts[p]? = some q) (hover : q.stage = .over) :
    InTurn (setStage ts i .underway) k last := by
  constructor
  · intro a b x y hab hx hy hy'
    obtain ⟨x₀, hx₀, -, hxs⟩ := at_setStage hx
    obtain ⟨y₀, hy₀, -, hys⟩ := at_setStage hy
    by_cases hbi : b = i
    · -- the one that starts: its predecessor is over, and with it all before that one
      subst hbi
      obtain rfl := Option.some.inj (hi.symm.trans hy₀.1)
      obtain ⟨p', q', hafter', hpb, hq', hbetween⟩ := h.waits hy₀ hwaiting
      obtain rfl := Option.some.inj (hafter.symm.trans hafter')
      obtain rfl := Option.some.inj (hp.symm.trans hq'.1)
      rw [hxs, if_neg (by omega)]
      rcases lt_trichotomy a p with hap | rfl | hpa
      · exact h.behind hap hx₀ hq' (by rw [hover]; decide)
      · rw [hx₀.unique hq', hover]
      · exact absurd hx₀ (hbetween a x₀ hpa hab)
    · rw [hys, if_neg hbi] at hy'
      have hxover := h.behind hab hx₀ hy₀ hy'
      have hai : a ≠ i := by
        rintro rfl
        obtain rfl := Option.some.inj (hi.symm.trans hx₀.1)
        rw [hwaiting] at hxover
        cases hxover
      rw [hxs, if_neg hai, hxover]
  · intro b y hy hy'
    obtain ⟨y₀, hy₀, hya, hys⟩ := at_setStage hy
    have hbi : b ≠ i := by
      rintro rfl
      rw [hys, if_pos rfl] at hy'
      cases hy'
    rw [hys, if_neg hbi] at hy'
    obtain ⟨p', q', hafter', hpb, hq', hbetween⟩ := h.waits hy₀ hy'
    obtain ⟨q'', hq'', -⟩ := hq'.setStage (i := i) (s := .underway)
    refine ⟨p', q'', hya.trans hafter', hpb, hq'', fun a s hpa hab hs => ?_⟩
    obtain ⟨s₀, hs₀, -⟩ := at_setStage hs
    exact hbetween a s₀ hpa hab hs₀
  · intro hlast a x hx
    obtain ⟨x₀, hx₀, -, hxs⟩ := at_setStage hx
    have hxover := h.idle hlast hx₀
    have hai : a ≠ i := by
      rintro rfl
      obtain rfl := Option.some.inj (hi.symm.trans hx₀.1)
      rw [hwaiting] at hxover
      cases hxover
    rw [hxs, if_neg hai, hxover]
  · intro p' hlast
    obtain ⟨⟨x, hx, hxs⟩, hmax⟩ := h.busy hlast
    obtain ⟨x', hx', hxs'⟩ := hx.setStage (i := i) (s := .underway)
    refine ⟨⟨x', hx', ?_⟩, fun hs => ?_⟩
    · rw [hxs']
      split
      · decide
      · exact hxs
    · obtain ⟨s₀, hs₀, -⟩ := at_setStage hs
      exact hmax hs₀

/-- A turn underway ends, and is forgotten if none joined behind it. -/
theorem InTurn.finish (h : InTurn ts k last) (hi : ts[i]? = some t)
    (hunderway : t.stage = .underway) :
    InTurn (setStage ts i .over) k (if last = some i then none else last) := by
  have hover : ∀ {a x}, At (setStage ts i .over) k a x →
      ∃ x₀, At ts k a x₀ ∧ x.after = x₀.after ∧ (x₀.stage = .over → x.stage = .over) ∧
        (a = i → x.stage = .over) ∧ (a ≠ i → x.stage = x₀.stage) := by
    intro a x hx
    obtain ⟨x₀, hx₀, hxa, hxs⟩ := at_setStage hx
    refine ⟨x₀, hx₀, hxa, fun h₀ => ?_, fun hai => ?_, fun hai => ?_⟩
    · rw [hxs, h₀, ite_self]
    · rw [hxs, if_pos hai]
    · rw [hxs, if_neg hai]
  constructor
  · intro a b x y hab hx hy hy'
    obtain ⟨x₀, hx₀, -, hxover, -⟩ := hover hx
    obtain ⟨y₀, hy₀, -, -, -, hys⟩ := hover hy
    refine hxover (h.behind hab hx₀ hy₀ ?_)
    by_cases hbi : b = i
    · subst hbi
      obtain rfl := Option.some.inj (hi.symm.trans hy₀.1)
      rw [hunderway]
      decide
    · exact hys hbi ▸ hy'
  · intro b y hy hy'
    obtain ⟨y₀, hy₀, hya, -, hyi, hys⟩ := hover hy
    have hbi : b ≠ i := by
      intro hbi
      rw [hyi hbi] at hy'
      cases hy'
    obtain ⟨p', q', hafter', hpb, hq', hbetween⟩ := h.waits hy₀ (hys hbi ▸ hy')
    obtain ⟨q'', hq'', -⟩ := hq'.setStage (i := i) (s := .over)
    refine ⟨p', q'', hya.trans hafter', hpb, hq'', fun a s hpa hab hs => ?_⟩
    obtain ⟨s₀, hs₀, -⟩ := at_setStage hs
    exact hbetween a s₀ hpa hab hs₀
  · intro hlast a x hx
    obtain ⟨x₀, hx₀, -, hxover, hxi, -⟩ := hover hx
    by_cases hsame : last = some i
    · -- the last one ends: those before it ended before it started
      obtain ⟨⟨y, hy, -⟩, hmax⟩ := h.busy hsame
      obtain rfl := Option.some.inj (hi.symm.trans hy.1)
      rcases (hmax hx₀).lt_or_eq with hai | hai
      · exact hxover (h.behind hai hx₀ hy (by rw [hunderway]; decide))
      · exact hxi hai
    · rw [if_neg hsame] at hlast
      exact hxover (h.idle hlast hx₀)
  · intro p' hlast
    by_cases hsame : last = some i
    · rw [if_pos hsame] at hlast
      cases hlast
    · rw [if_neg hsame] at hlast
      have hpi : p' ≠ i := by
        rintro rfl
        exact hsame hlast
      obtain ⟨⟨x, hx, hxs⟩, hmax⟩ := h.busy hlast
      obtain ⟨x', hx', hxs'⟩ := hx.setStage (i := i) (s := .over)
      rw [if_neg hpi] at hxs'
      refine ⟨⟨x', hx', hxs' ▸ hxs⟩, fun hs => ?_⟩
      obtain ⟨s₀, hs₀, -⟩ := at_setStage hs
      exact hmax hs₀

end Turns
