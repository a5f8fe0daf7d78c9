import Mathlib.Tactic
import EufySdk.Lib.Machine
import EufySdk.Client.StateSync

/-!
# A device's report against the cloud record

A value the device reported for one of its properties is *held* until the device reports the
property again or a poll diff names one of the property's own ids. The paths that land cloud
values keep what is held exactly when the map they land agrees with it.

- `Reporting` — a client with what its device holds
- `Reporting.KeepsReports` — what is held is what `getProperty` answers behind the step
- `Reporting.AgreesWithReports` — the map the step lands feeds no held property another value
-/

namespace EufySdk.EufyMega

open Machine

/-- A client, with the values that stand by the device's own report. -/
structure Reporting where
  client : Client
  held : String → Option Json

namespace Reporting

variable (cv : Conversions)

/-- What is held behind a step. -/
def holds (s : Reporting) (l : Label) (name : String) : Option Json :=
  let sch := s.client.device.schema
  match l with
  | .report params =>
    if (sch.specByName name).isSome || (s.held name).isSome
    then (sch.fed cv name params).or (s.held name)
    else none
  | .pollApply k =>
    if (s.client.polls[k]?).any fun diff => diff.entries.any fun e => sch.ownsId name e.1
    then none
    else s.held name
  | _ => s.held name

def step (s : Reporting) (l : Label) : Option Reporting :=
  (s.client.step cv l).map fun r => ⟨r.1, s.holds cv l⟩

/-- Behind the step `getProperty` answers what is held. -/
def KeepsReports (s : Reporting) (l : Label) : Prop :=
  ∀ t, s.step cv l = some t → ∀ name v, t.held name = some v →
    t.client.device.read name = some v

/-- Of the ids in the landed map that feed a held property, the greatest carries the value
held. -/
def AgreesWithReports (s : Reporting) (l : Label) : Prop :=
  ∀ params, s.client.lands cv l = some params → ∀ name v, s.holds cv l name = some v →
    ∀ w, s.client.device.schema.fed cv name params = some w → w = v

/-- Live state answers what is held. -/
def Standing (s : Reporting) : Prop :=
  ∀ name v, s.held name = some v → s.client.device.read name = some v

variable {cv} {s t : Reporting} {l : Label}

/-- A property that the step does not feed was held before if it is behind the step. -/
theorem held_of_holds {name : String} {v : Json} (h : s.holds cv l name = some v)
    (hfed : (s.client.lands cv l).bind (s.client.device.schema.fed cv name) = none) :
    s.held name = some v := by
  cases l with
  | report params =>
    have hnone : s.client.device.schema.fed cv name params = none := hfed
    dsimp only [holds] at h
    split at h
    · rwa [hnone, Option.none_or] at h
    · cases h
  | pollApply k =>
    dsimp only [holds] at h
    split at h
    · cases h
    · exact h
  | _ => exact h

theorem step_eq_some (h : s.step cv l = some t) :
    ∃ changes, s.client.step cv l = some (t.client, changes) ∧ t.held = s.holds cv l := by
  obtain ⟨⟨c, changes⟩, hstep, rfl⟩ := Option.map_eq_some_iff.mp h
  exact ⟨changes, hstep, rfl⟩

/-- While live state answers what is held, it goes on doing so exactly over the steps whose map
agrees. -/
theorem keeps_iff_agrees (hs : s.Standing) :
    s.KeepsReports cv l ↔ s.AgreesWithReports cv l := by
  constructor
  · intro hkeeps params hparams name v hv w hw
    obtain ⟨c, changes, hstep⟩ := Client.step_of_lands hparams
    have hread : c.device.read name = some v :=
      hkeeps ⟨c, s.holds cv l⟩ (by rw [step, hstep]; rfl) name v hv
    rw [Client.step_read hstep, hparams, Option.bind_some, hw, Option.some_or] at hread
    exact Option.some.inj hread
  · intro hagrees t ht name v hv
    obtain ⟨changes, hstep, hheld⟩ := step_eq_some ht
    rw [hheld] at hv
    rw [Client.step_read hstep]
    cases hfed : (s.client.lands cv l).bind (s.client.device.schema.fed cv name) with
    | none => exact hs name v (held_of_holds hv hfed)
    | some w =>
      obtain ⟨params, hparams, hw⟩ := Option.bind_eq_some_iff.mp hfed
      rw [hagrees params hparams name v hv w hw]
      rfl

/-- **Reports stand exactly while the landed maps agree.** From any client, with nothing held
yet: every step of a run keeps what is held iff every map its steps land agrees with it. -/
theorem reports_stand_iff (c : Client) (labels : List Label) :
    StepsMeet (step cv) (KeepsReports cv) ⟨c, fun _ => none⟩ labels ↔
      StepsMeet (step cv) (AgreesWithReports cv) ⟨c, fun _ => none⟩ labels := by
  apply stepsMeet_congr (J := Standing)
  · rintro name v ⟨⟩
  · intro s l hs
    exact keeps_iff_agrees hs
  · intro s l t hs hagrees ht
    exact (keeps_iff_agrees hs).mpr hagrees t ht

/-! ### A confirmation of another param -/

/-- The door reports that it opened; then a write of the mode is confirmed by the list. -/
def sampleRun : List Label :=
  [.report (.single 1 "1"), .observe true ⟨2, "mode", some "1", none⟩, .settled 0]

/-- The list still says closed, and the confirmation of the mode applies it. -/
theorem confirmation_reverts_report :
    (∃ t, exec (step sampleConversions) ⟨sampleClient, fun _ => none⟩ sampleRun = some t ∧
      t.held "open" = some (.bool true) ∧
      t.client.device.read "open" = some (.bool false)) ∧
    ¬StepsMeet (step sampleConversions) (KeepsReports sampleConversions)
      ⟨sampleClient, fun _ => none⟩ sampleRun := by
  have hopen : ∃ t, exec (step sampleConversions) ⟨sampleClient, fun _ => none⟩ sampleRun =
      some t ∧ t.held "open" = some (.bool true) ∧
        t.client.device.read "open" = some (.bool false) := ⟨_, rfl, rfl, rfl⟩
  refine ⟨hopen, fun hmeet => ?_⟩
  obtain ⟨-, hreport⟩ := hmeet
  obtain ⟨-, hobserve⟩ := hreport _ rfl
  obtain ⟨hsettled, -⟩ := hobserve _ rfl
  have hread := hsettled _ rfl "open" (.bool true) rfl
  cases hread

end Reporting
end EufySdk.EufyMega
