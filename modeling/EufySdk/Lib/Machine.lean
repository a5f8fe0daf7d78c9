import Mathlib.Tactic

/-!
# Step functions and their runs

A system is a step function that takes a state and a label to the next state, where
the label can happen. A run is a list of labels executed in order; what one step
preserves, a run preserves.

Main definitions:

- `exec` — the state behind a list of labels
- `Run` — the same as a relation, for induction
- `StepsMeet` — every step of a run meets a condition on its state and label
-/

namespace Machine

variable {σ α : Type*}

/-- Execute labels in order. -/
def exec (step : σ → α → Option σ) (s : σ) : List α → Option σ
  | [] => some s
  | a :: as => (step s a).bind fun t => exec step t as

theorem exec_append (step : σ → α → Option σ) (s : σ) (as bs : List α) :
    exec step s (as ++ bs) = (exec step s as).bind fun t => exec step t bs := by
  induction as generalizing s with
  | nil => rfl
  | cons a as ih =>
    rw [List.cons_append, exec, exec, Option.bind_assoc]
    exact congrArg _ (funext fun t => ih t)

/-- The labels take `s` to the last state, one step after the other. -/
inductive Run (step : σ → α → Option σ) (s : σ) : List α → σ → Prop
  | nil : Run step s [] s
  | snoc {as : List α} {t u : σ} {a : α} (h : Run step s as t) (hstep : step t a = some u) :
      Run step s (as ++ [a]) u

variable {step : σ → α → Option σ}

theorem Run.cons {s t u : σ} {a : α} {as : List α} (hstep : step s a = some t)
    (h : Run step t as u) : Run step s (a :: as) u := by
  induction h with
  | nil => exact @Run.snoc _ _ step s [] s _ a .nil hstep
  | snoc _ hlast ih => exact .snoc ih hlast

theorem run_of_exec {s t : σ} {as : List α} (h : exec step s as = some t) :
    Run step s as t := by
  induction as generalizing s with
  | nil =>
    obtain rfl := Option.some.inj h
    exact .nil
  | cons a as ih =>
    obtain ⟨u, hu, hrest⟩ := Option.bind_eq_some_iff.mp h
    exact .cons hu (ih hrest)

/-- **Invariant rule.** What holds at the start and is kept by every step holds behind every
run. -/
theorem Run.invariant {P : σ → Prop} {s t : σ} {as : List α} (h : Run step s as t)
    (hstart : P s) (hkeep : ∀ t a u, P t → step t a = some u → P u) : P t := by
  induction h with
  | nil => exact hstart
  | snoc _ hstep ih => exact hkeep _ _ _ ih hstep

/-- Every step from `s` along the labels meets `C`. -/
def StepsMeet (step : σ → α → Option σ) (C : σ → α → Prop) (s : σ) : List α → Prop
  | [] => True
  | a :: as => C s a ∧ ∀ t, step s a = some t → StepsMeet step C t as

/-- Whether the steps along a run meet a decidable condition. -/
instance {C : σ → α → Prop} [∀ s a, Decidable (C s a)] :
    (s : σ) → (as : List α) → Decidable (StepsMeet step C s as)
  | _, [] => .isTrue trivial
  | s, a :: as =>
    match h : step s a with
    | none => decidable_of_iff (C s a) ⟨fun hC => ⟨hC, by simp [h]⟩, And.left⟩
    | some t =>
      have : Decidable (StepsMeet step C t as) := instDecidableStepsMeet t as
      decidable_of_iff (C s a ∧ StepsMeet step C t as)
        (and_congr_right fun _ => by simp [h])

/-- What the steps of a run meet, each one does at the state behind those before it. -/
theorem StepsMeet.meets {C : σ → α → Prop} {s t : σ} {as bs : List α} {a : α}
    (h : StepsMeet step C s (as ++ a :: bs)) (hexec : exec step s as = some t) : C t a := by
  induction as generalizing s with
  | nil =>
    obtain rfl := Option.some.inj hexec
    exact h.1
  | cons b as ih =>
    obtain ⟨u, hu, hrest⟩ := Option.bind_eq_some_iff.mp hexec
    exact ih (h.2 u hu) hrest

/-- **Invariant rule for steps.** Where an invariant is kept by every step and gives `D`, all steps
of every run meet `D`. -/
theorem stepsMeet_of_invariant {D : σ → α → Prop} {J : σ → Prop} {s : σ} (hs : J s)
    (hgive : ∀ s a, J s → D s a) (hkeep : ∀ s a t, J s → step s a = some t → J t) (as : List α) :
    StepsMeet step D s as := by
  induction as generalizing s with
  | nil => trivial
  | cons a as ih => exact ⟨hgive s a hs, fun t ht => ih (hkeep s a t hs ht)⟩

/-- **Strengthening rule.** Where an invariant is kept by the steps that meet `C`, and turns `C`
into `D`, the steps of a run that all meet `C` all meet `D`. -/
theorem StepsMeet.strengthen {C D : σ → α → Prop} {J : σ → Prop} {s : σ} {as : List α}
    (hmeet : StepsMeet step C s as) (hs : J s) (himp : ∀ s a, J s → C s a → D s a)
    (hkeep : ∀ s a t, J s → C s a → step s a = some t → J t) : StepsMeet step D s as := by
  induction as generalizing s with
  | nil => trivial
  | cons a as ih =>
    obtain ⟨hC, hrest⟩ := hmeet
    exact ⟨himp s a hs hC, fun t ht => ih (hrest t ht) (hkeep s a t hs hC ht)⟩

/-- **Exactness rule.** Where an invariant makes two conditions on a step agree, and is kept by
the steps that meet them, a run whose steps all meet the one is a run whose steps all meet the
other: neither fails first. -/
theorem stepsMeet_congr {C D : σ → α → Prop} {J : σ → Prop} {s : σ} {as : List α}
    (hs : J s) (hagree : ∀ s a, J s → (C s a ↔ D s a))
    (hkeep : ∀ s a t, J s → D s a → step s a = some t → J t) :
    StepsMeet step C s as ↔ StepsMeet step D s as := by
  induction as generalizing s with
  | nil => exact Iff.rfl
  | cons a as ih =>
    have hhere := hagree s a hs
    constructor
    · rintro ⟨hC, hrest⟩
      exact ⟨hhere.mp hC, fun t ht => (ih (hkeep s a t hs (hhere.mp hC) ht)).mp (hrest t ht)⟩
    · rintro ⟨hD, hrest⟩
      exact ⟨hhere.mpr hD, fun t ht => (ih (hkeep s a t hs hD ht)).mpr (hrest t ht)⟩

/-- **Exactness rule for states, within the invariant.** Where the steps that meet `C` keep an
invariant that gives `P`, and `P` fails behind a step from within it that does not meet `C`, the
steps of a run all meet `C` if and only if `P` holds in every state the run goes through. -/
theorem stepsMeet_iff_forall_prefix_within {C : σ → α → Prop} {J P : σ → Prop} {s u : σ}
    {as : List α} (hrun : exec step s as = some u) (hs : J s) (hgive : ∀ s, J s → P s)
    (hkeep : ∀ s a t, J s → C s a → step s a = some t → J t)
    (hfail : ∀ s a t, J s → step s a = some t → ¬C s a → ¬P t) :
    StepsMeet step C s as ↔ ∀ bs cs t, as = bs ++ cs → exec step s bs = some t → P t := by
  induction as generalizing s with
  | nil =>
    refine ⟨fun _ bs cs t hsplit hbs => ?_, fun _ => trivial⟩
    obtain rfl := (List.append_eq_nil_iff.mp hsplit.symm).1
    exact Option.some.inj hbs ▸ hgive s hs
  | cons a as ih =>
    obtain ⟨t, ht, hrest⟩ := Option.bind_eq_some_iff.mp hrun
    constructor
    · rintro ⟨hC, hmeet⟩ bs cs v hsplit hbs
      cases bs with
      | nil => exact Option.some.inj hbs ▸ hgive s hs
      | cons b bs =>
        obtain ⟨rfl, rfl⟩ := List.cons_eq_cons.mp hsplit
        rw [exec, ht] at hbs
        exact (ih hrest (hkeep s a t hs hC ht)).mp (hmeet t ht) bs cs v rfl hbs
    · intro hall
      have hC : C s a := by
        by_contra hnot
        refine hfail s a t hs ht hnot (hall [a] as t rfl ?_)
        rw [exec, ht]
        rfl
      refine ⟨hC, fun v hv => ?_⟩
      obtain rfl := Option.some.inj (ht.symm.trans hv)
      refine (ih hrest (hkeep s a t hs hC ht)).mpr fun bs cs w hsplit hbs => ?_
      refine hall (a :: bs) cs w (congrArg (a :: ·) hsplit) ?_
      rw [exec, ht]
      exact hbs

/-- **Exactness rule for states.** The same where `P` fails behind every step that does not meet
`C`. -/
theorem stepsMeet_iff_forall_prefix {C : σ → α → Prop} {J P : σ → Prop} {s u : σ} {as : List α}
    (hrun : exec step s as = some u) (hs : J s) (hgive : ∀ s, J s → P s)
    (hkeep : ∀ s a t, J s → C s a → step s a = some t → J t)
    (hfail : ∀ s a t, step s a = some t → ¬C s a → ¬P t) :
    StepsMeet step C s as ↔ ∀ bs cs t, as = bs ++ cs → exec step s bs = some t → P t :=
  stepsMeet_iff_forall_prefix_within hrun hs hgive hkeep fun s a t _ => hfail s a t

end Machine
