import Mathlib.Tactic
import EufySdk.Lib.Machine
import EufySdk.Client.StateSync

/-!
# Announcements are complete

A host that listens to `propertyChanged` knows, of each property, the value last announced,
or the one `getDevice` gave it. The inbound paths keep that the value served; the application
of a whole record by a confirming observation does exactly when it moves nothing the host was
not told of.

- `Listening` — a client with what its host was told
- `Listening.Complete` — the host knows what `getProperty` serves
- `Listening.MovesNothingUntold` — the step changes no property behind the host's back
-/

namespace EufySdk.EufyMega

open Machine

/-- A client, and what its host was told of each property. -/
structure Listening where
  client : Client
  /-- The value from which the announcements count: the one at `getDevice`, or at the end of the
  last observed write of the property. -/
  baseline : String → Option Json
  /-- The payload of the last announcement since. -/
  announced : String → Option (Option Json)

/-- The observed writes in flight confirm the property. -/
def Client.writing (c : Client) (name : String) : Bool :=
  c.observations.any fun o => o.command && o.refresh.property = name

/-- The last announcement of a property. -/
def lastChange (changes : List PropertyChange) (name : String) : Option PropertyChange :=
  changes.reverse.find? fun change => change.property = name

/-- The announcements of a param map name its changed properties, with the values served. -/
theorem lastChange_announcements {d : Device} {changed : List String} {name : String}
    {spec : PropertySpec} (hspec : d.schema.specByName name = some spec) (hraw : spec.raw = false) :
    (lastChange (d.announcements changed) name).map PropertyChange.value =
      if name ∈ changed then some (narrow spec.type (d.read name)) else none := by
  have hmem : ∀ change, change ∈ d.announcements changed → change.property = name →
      name ∈ changed ∧ change.value = narrow spec.type (d.read name) := by
    intro change hchange hname
    obtain ⟨n, hn, hvalue⟩ := List.mem_filterMap.mp hchange
    obtain ⟨spec', hspec', rfl⟩ := Option.map_eq_some_iff.mp hvalue
    obtain rfl : n = name := hname
    obtain rfl := Option.some.inj (hspec.symm.trans hspec')
    exact ⟨hn, by rw [hraw]; rfl⟩
  rw [lastChange]
  cases hfind : (d.announcements changed).reverse.find? fun change => change.property = name with
  | some change =>
    have hname : change.property = name := by simpa using List.find?_some hfind
    obtain ⟨hchanged, hvalue⟩ :=
      hmem change (List.mem_reverse.mp (List.mem_of_find?_eq_some hfind)) hname
    rw [if_pos hchanged, Option.map_some, hvalue]
  | none =>
    rw [if_neg ?_]
    · rfl
    · intro hchanged
      have habsent := List.find?_eq_none.mp hfind ⟨name, narrow spec.type (d.read name)⟩ ?_
      · simp at habsent
      · rw [List.mem_reverse]
        exact List.mem_filterMap.mpr ⟨name, hchanged, by rw [hspec, Option.map_some, hraw]; rfl⟩

namespace Listening

variable (cv : Conversions)

/-- The value of a property the host goes by. -/
def heard (s : Listening) (name : String) (type : PropertyValueType) : Option Json :=
  (s.announced name).getD (narrow type (s.baseline name))

/-- The host hears the announcements of a step; the end of an observed write answers for its own
property. -/
def hear (s : Listening) (c : Client) (changes : List PropertyChange) : Listening where
  client := c
  baseline name :=
    if s.client.writing name && !c.writing name then c.device.read name else s.baseline name
  announced name :=
    if s.client.writing name && !c.writing name then none
    else ((lastChange changes name).map PropertyChange.value).or (s.announced name)

def step (s : Listening) (l : Label) : Option Listening :=
  (s.client.step cv l).map fun r => s.hear r.1 r.2

/-- The host goes by the values served, leaving aside what an observed write in flight
confirms. -/
def Complete (s : Listening) : Prop :=
  ∀ name spec, s.client.device.schema.specByName name = some spec → spec.raw = false →
    s.client.writing name = false →
    s.heard name spec.type = narrow spec.type (s.client.device.read name)

/-- Announcements are complete behind the step. -/
def KeepsComplete (s : Listening) (l : Label) : Prop := ∀ t, s.step cv l = some t → t.Complete

/-- A confirming observation applies a record that feeds no property but the ones being written
a value narrowing to another, and a resolution adopts no property whose value the host does
not know. -/
def MovesNothingUntold (s : Listening) (l : Label) : Prop :=
  let d := s.client.device
  match l with
  | .settled i =>
    ∀ params, s.client.confirms cv i = some params → ∀ name spec,
      d.schema.specByName name = some spec → spec.raw = false → s.client.writing name = false →
      ∀ w, d.schema.fed cv name params = some w →
        narrow spec.type (some w) = narrow spec.type (d.read name)
  | .reresolve resolved =>
    ∀ name spec, resolved.specByName name = some spec → spec.raw = false →
      s.client.writing name = false →
      (∀ old, d.schema.specByName name = some old → old.raw = true ∨ old.type ≠ spec.type) →
      s.heard name spec.type = narrow spec.type (d.read name)
  | _ => True

variable {cv} {s t : Listening} {l : Label} {c : Client} {changes : List PropertyChange}
  {name : String}

/-- While no write of a property is in flight, the host goes by its announcements. -/
theorem heard_hear (hwriting : s.client.writing name = false) (type : PropertyValueType) :
    (s.hear c changes).heard name type =
      ((lastChange changes name).map PropertyChange.value).getD (s.heard name type) := by
  simp only [heard, hear, hwriting, Bool.false_and, Bool.false_eq_true, if_false]
  cases (lastChange changes name).map PropertyChange.value <;> rfl

/-- The host knows the value behind a write that has ended. -/
theorem heard_of_write_ended (hwriting : s.client.writing name = true)
    (hended : c.writing name = false) (type : PropertyValueType) :
    (s.hear c changes).heard name type = narrow type (c.device.read name) := by
  simp [heard, hear, hwriting, hended]

/-- A step keeps announcements complete if it does for the properties without a write. -/
theorem complete_hear
    (h : ∀ name spec, c.device.schema.specByName name = some spec → spec.raw = false →
      s.client.writing name = false → c.writing name = false →
      ((lastChange changes name).map PropertyChange.value).getD (s.heard name spec.type) =
        narrow spec.type (c.device.read name)) :
    (s.hear c changes).Complete := by
  intro name spec hspec hraw hended
  cases hwriting : s.client.writing name with
  | true => exact heard_of_write_ended hwriting hended spec.type
  | false =>
    rw [heard_hear hwriting]
    exact h name spec hspec hraw hwriting hended

/-- **An announcing step keeps announcements complete.** -/
theorem complete_of_announces (hs : s.Complete) (hannounces : l.announces = true)
    (hstep : s.client.step cv l = some (c, changes)) : (s.hear c changes).Complete := by
  obtain ⟨params, hparams⟩ := Client.lands_of_announces hannounces hstep
  obtain ⟨hdevice, hchanges⟩ := Client.step_landing hstep hparams
  rw [if_pos hannounces] at hchanges
  apply complete_hear
  intro name spec hspec hraw hwriting _
  have hschema : c.device.schema = s.client.device.schema := by
    rw [hdevice, Device.applyParams_schema]
  rw [hchanges, lastChange_announcements hspec hraw]
  by_cases hchanged : name ∈ (s.client.device.applyParams cv params).2
  · rw [if_pos hchanged]
    rfl
  · rw [if_neg hchanged, Option.getD_none, hs name spec (hschema ▸ hspec) hraw hwriting, hdevice,
      Device.narrow_applyParams spec.type hchanged]

/-- A step that leaves the device alone keeps announcements complete. -/
theorem complete_of_still (hs : s.Complete) (hdevice : c.device = s.client.device) :
    (s.hear c []).Complete := by
  apply complete_hear
  intro name spec hspec hraw hwriting _
  rw [hdevice] at hspec ⊢
  exact hs name spec hspec hraw hwriting

/-- A settling observation only ends: it starts no write. -/
theorem writing_settle {i : ℕ} {o : Observation} (hwriting : s.client.writing name = false) :
    (s.client.settle cv i o).writing name = false := by
  rw [Client.writing, List.any_eq_false] at hwriting ⊢
  rcases @Client.settle_observations cv s.client i o with h | h
  · rw [h]
    exact hwriting
  · rw [h]
    exact fun o' ho' => hwriting o' (List.mem_of_mem_eraseIdx ho')

theorem keeps_of_announces (hs : s.Complete) (hannounces : l.announces = true) :
    s.KeepsComplete cv l := by
  intro t ht
  obtain ⟨r, hstep, rfl⟩ := Option.map_eq_some_iff.mp ht
  exact complete_of_announces hs hannounces hstep

theorem keeps_of_still (hs : s.Complete) (hnone : s.client.lands cv l = none)
    (hadopts : ∀ d, l.adopts d = d) : s.KeepsComplete cv l := by
  intro t ht
  obtain ⟨r, hstep, rfl⟩ := Option.map_eq_some_iff.mp ht
  obtain ⟨hchanges, hdevice⟩ := Client.step_still hstep hnone
  rw [hadopts] at hdevice
  rw [hchanges]
  exact complete_of_still hs hdevice

/-- A confirmation keeps announcements complete exactly if it moves nothing untold. -/
theorem keeps_settled_iff (hs : s.Complete) (i : ℕ) :
    s.KeepsComplete cv (.settled i) ↔ s.MovesNothingUntold cv (.settled i) := by
  cases hconfirms : s.client.confirms cv i with
  | none =>
    refine ⟨fun _ params hparams => ?_, fun _ => keeps_of_still hs hconfirms fun _ => rfl⟩
    cases hconfirms.symm.trans hparams
  | some params =>
    -- the step can be taken: it applies the record and announces nothing
    obtain ⟨c, changes, hstep⟩ :=
      @Client.step_of_lands cv s.client (.settled i) params hconfirms
    obtain ⟨hdevice, hchanges⟩ := Client.step_landing hstep hconfirms
    have hstepped : s.step cv (.settled i) = some (s.hear c changes) := by
      rw [step, hstep]
      rfl
    have hstill : ∀ name, s.client.writing name = false → c.writing name = false := by
      intro name hwriting
      obtain ⟨o, -, ho⟩ := Option.map_eq_some_iff.mp hstep
      cases ho
      exact writing_settle hwriting
    have hschema : c.device.schema = s.client.device.schema := by
      rw [hdevice, Device.applyParams_schema]
    have hread : ∀ name, c.device.read name =
        (s.client.device.schema.fed cv name params).or (s.client.device.read name) := by
      intro name
      rw [hdevice, Device.read_applyParams]
    rw [show changes = [] from hchanges] at hstepped
    constructor
    · intro hkeeps params' hparams' name spec hspec hraw hwriting w hw
      obtain rfl := Option.some.inj (hconfirms.symm.trans hparams')
      have hcomplete := hkeeps _ hstepped name spec (hschema ▸ hspec) hraw (hstill name hwriting)
      rw [heard_hear hwriting] at hcomplete
      have hmoved : s.heard name spec.type = narrow spec.type (c.device.read name) := hcomplete
      rw [hread, hw, Option.some_or, hs name spec hspec hraw hwriting] at hmoved
      exact hmoved.symm
    · intro hmoves t ht
      obtain rfl := Option.some.inj (hstepped.symm.trans ht)
      apply complete_hear
      intro name spec hspec hraw hwriting _
      have hspec' : s.client.device.schema.specByName name = some spec := hschema ▸ hspec
      show s.heard name spec.type = _
      rw [hs name spec hspec' hraw hwriting, hread]
      cases hw : s.client.device.schema.fed cv name params with
      | none => rfl
      | some w => exact (hmoves params hconfirms name spec hspec' hraw hwriting w hw).symm

/-- A resolution keeps announcements complete exactly if the host knows what it adopts. -/
theorem keeps_reresolve_iff (hs : s.Complete) (resolved : Schema) :
    s.KeepsComplete cv (.reresolve resolved) ↔ s.MovesNothingUntold cv (.reresolve resolved) := by
  have hstepped : s.step cv (.reresolve resolved) =
      some (s.hear { s.client with device := s.client.device.resolveInto resolved } []) := rfl
  constructor
  · intro hkeeps name spec hspec hraw hwriting _
    have hcomplete := hkeeps _ hstepped name spec hspec hraw hwriting
    rwa [heard_hear hwriting] at hcomplete
  · intro hmoves t ht
    obtain rfl := Option.some.inj (hstepped.symm.trans ht)
    apply complete_hear
    intro name spec hspec hraw hwriting _
    show s.heard name spec.type = narrow spec.type (s.client.device.read name)
    by_cases hold : ∃ old, s.client.device.schema.specByName name = some old ∧
        old.raw = false ∧ old.type = spec.type
    · obtain ⟨old, hspec', hraw', htype⟩ := hold
      rw [← htype]
      exact hs name old hspec' hraw' hwriting
    · refine hmoves name spec hspec hraw hwriting fun old hspec' => ?_
      by_contra hsame
      rw [not_or, Bool.not_eq_true, not_not] at hsame
      exact hold ⟨old, hspec', hsame⟩

/-- **The exact condition, for one step.** -/
theorem keeps_iff_movesNothing (hs : s.Complete) :
    s.KeepsComplete cv l ↔ s.MovesNothingUntold cv l := by
  cases l with
  | report params => exact ⟨fun _ => trivial, fun _ => keeps_of_announces hs rfl⟩
  | pollApply k => exact ⟨fun _ => trivial, fun _ => keeps_of_announces hs rfl⟩
  | refreshLand => exact ⟨fun _ => trivial, fun _ => keeps_of_announces hs rfl⟩
  | settled i => exact keeps_settled_iff hs i
  | reresolve resolved => exact keeps_reresolve_iff hs resolved
  | listRefresh cloud => exact ⟨fun _ => trivial, fun _ => keeps_of_still hs rfl fun _ => rfl⟩
  | pollFetch cloud => exact ⟨fun _ => trivial, fun _ => keeps_of_still hs rfl fun _ => rfl⟩
  | refreshBegin => exact ⟨fun _ => trivial, fun _ => keeps_of_still hs rfl fun _ => rfl⟩
  | refreshFetch overlay => exact ⟨fun _ => trivial, fun _ => keeps_of_still hs rfl fun _ => rfl⟩
  | refreshFail => exact ⟨fun _ => trivial, fun _ => keeps_of_still hs rfl fun _ => rfl⟩
  | observe command refresh =>
    exact ⟨fun _ => trivial, fun _ => keeps_of_still hs rfl fun _ => rfl⟩
  | observationEnds i => exact ⟨fun _ => trivial, fun _ => keeps_of_still hs rfl fun _ => rfl⟩

/-- **Announcements are complete exactly while nothing moves untold.** From any client as
`getDevice` returns it: every step of a run keeps announcements complete iff every step of it
moves nothing untold. -/
theorem announcements_complete_iff (c : Client) (labels : List Label) :
    StepsMeet (step cv) (KeepsComplete cv) ⟨c, c.device.read, fun _ => none⟩ labels ↔
      StepsMeet (step cv) (MovesNothingUntold cv) ⟨c, c.device.read, fun _ => none⟩ labels := by
  apply stepsMeet_congr (J := Complete)
  · intro name spec _ _ _
    rfl
  · intro s l hs
    exact keeps_iff_movesNothing hs
  · intro s l t hs hmoves ht
    exact (keeps_iff_movesNothing hs).mpr hmoves t ht

/-! ### A change behind a confirmation -/

/-- The door opens, a re-read of the list says so, and the confirmation of a mode lands it;
then the poll finds it. -/
def sampleRun : List Label :=
  let opened := (SortedMap.single 1 "1").insert 2 "1"
  [.listRefresh (some opened), .observe true ⟨2, "mode", some "1", none⟩, .settled 0,
    .pollFetch (some opened), .pollApply 0]

/-- The door reads open, and the host was told nothing since it read closed: the poll's diff
changes nothing any more. -/
theorem confirmation_moves_untold :
    (∃ t, exec (step sampleConversions) ⟨sampleClient, sampleClient.device.read, fun _ => none⟩
        sampleRun = some t ∧
      t.client.observations.length = 0 ∧ t.heard "open" .bool = some (.bool false) ∧
      t.client.device.read "open" = some (.bool true)) ∧
    ¬StepsMeet (step sampleConversions) (KeepsComplete sampleConversions)
      ⟨sampleClient, sampleClient.device.read, fun _ => none⟩ sampleRun := by
  refine ⟨⟨_, rfl, rfl, rfl, rfl⟩, fun hmeet => ?_⟩
  obtain ⟨-, hlist⟩ := hmeet
  obtain ⟨-, hobserve⟩ := hlist _ rfl
  obtain ⟨hsettled, -⟩ := hobserve _ rfl
  have htold := hsettled _ rfl "open" _ rfl rfl rfl
  cases htold

end Listening
end EufySdk.EufyMega
