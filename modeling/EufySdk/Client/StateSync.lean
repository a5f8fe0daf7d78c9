import Mathlib.Tactic
import EufySdk.Model.Device

/-!
# The paths into a live device's state

What `client/eufy-mega.ts` and `client/device-registry.ts` do to one live `Device` from the
moment `getDevice` has built it: realtime reports, re-reads of the device list, poll passes,
read-through freshness refreshes, and the observations that confirm an event or a command.
Each await of the source ends a step, so the steps of different paths interleave.

- `Client` — the cloud record, the reports and the device of one serial, with what is in
  flight
- `Client.step` — one step of one path, and what it announces
- `Client.lands` — the param map a step lands on the device
- `Client.step_spec` — what any step does to the device
-/

namespace EufySdk.EufyMega

/-- What an observation waits for; expectations as the strings they are compared by. -/
structure SemanticEventRefresh where
  param : ℕ
  property : String
  expected : Option String := none
  observed : Option String := none
  deriving DecidableEq, Repr

/-- A `refreshEventState` in flight: for a write's dispatch or for an event, with the
property's value at its start. -/
structure Observation where
  command : Bool
  refresh : SemanticEventRefresh
  before : Option Json

/-- How the per-device param list answered `record`. -/
inductive Overlay
  | refused
  | granted (live : RawParams)
  /-- Any other failure: the record the re-read list gives, or the one already held. -/
  | failed (listed : RawParams)

/-- The one freshness refresh in flight. A fetched record holds the report map by reference. -/
inductive Refresh
  | fetching (params : RawParams)
  | fetched (params : RawParams) (dpParams : Option ℕ)

structure Client where
  /-- The serial's params in the device list; `none` while the list lacks it. -/
  cloud : Option RawParams
  pollSnapshot : Option RawParams
  /-- Every object that has been the serial's report map; the last is the current one. -/
  reports : List RawParams
  device : Device
  refresh : Option Refresh := none
  /-- Poll diffs not yet applied. -/
  polls : List RawParams := []
  observations : List Observation := []

/-- One step of one path. What the cloud, the device and the resolver say is part of it. -/
inductive Label
  | report (params : RawParams)
  | listRefresh (cloud : Option RawParams)
  | pollFetch (cloud : Option RawParams)
  | pollApply (k : ℕ)
  | refreshBegin
  | refreshFetch (overlay : Overlay)
  | refreshLand
  | refreshFail
  | observe (command : Bool) (refresh : SemanticEventRefresh)
  | settled (i : ℕ)
  /-- Deadline, supersession or failure. -/
  | observationEnds (i : ℕ)
  | reresolve (resolved : Schema)

section Observations

variable (cv : Conversions)

/-- `String(value)` of a property read. -/
def displayed : Option Json → Except Thrown String
  | none => .ok "undefined"
  | some value => value.display cv.numberToString

namespace Observation

/-- The list's raw value for the param satisfies the observation. -/
def converged (o : Observation) (params : RawParams) : Except Thrown Bool := do
  let rawValue := (params.find? o.refresh.param).getD "undefined"
  match o.refresh.expected with
  | none =>
    let before ← displayed cv o.before
    return rawValue ≠ before
  | some expected => return rawValue = expected

/-- `value !== before` on property reads. Two references to equal structured values count as
one value here; `observationEnds` covers the end they may bring. -/
def differs : Option Json → Option Json → Bool
  | none, none => false
  | some a, some b => !a.structuralEqual b
  | _, _ => true

def matchesObservation (o : Observation) (value : Option Json) : Except Thrown Bool :=
  match o.refresh.observed.or o.refresh.expected with
  | none => .ok (differs value o.before)
  | some want => do
    let shown ← displayed cv value
    return shown = want

end Observation
end Observations

namespace Client

variable (cv : Conversions)

/-- An object of the report map's history, by reference. -/
def dpParams (c : Client) (ref : Option ℕ) : RawParams :=
  (ref.bind fun i => c.reports[i]?).getD .empty

def currentReports (c : Client) : Option ℕ :=
  if c.reports.isEmpty then none else some (c.reports.length - 1)

/-- A report is merged into a new object. -/
def applyRealtimeParams (c : Client) (params : RawParams) : Client :=
  if params.isEmpty then c
  else { c with reports := c.reports ++ [(c.dpParams c.currentReports).join params] }

/-- Ids are deleted from the current object, in place. -/
def retireRealtimeParams (c : Client) (ids : ℕ → Bool) : Client :=
  { c with reports := c.reports.modify (c.reports.length - 1) (·.erase ids) }

def applyAndAnnounce (c : Client) (params : RawParams) : Client × List PropertyChange :=
  let r := c.device.applyParams cv params
  ({ c with device := r.1 }, r.1.announcements r.2)

/-- A param is a change only if it existed before with a different value. -/
def pollChanges : Option RawParams → Option RawParams → RawParams
  | some was, some now =>
    now.filter fun id value => (was.find? id).any fun prior => prior ≠ value
  | _, _ => .empty

/-- The join a refresh lands: the device's reports over the record. -/
def joined (c : Client) (params : RawParams) (dp : Option ℕ) : RawParams :=
  params.join (c.dpParams dp)

def endObservation (c : Client) (i : ℕ) : Client :=
  { c with observations := c.observations.eraseIdx i }

/-- One pass of `settled`: a converged record is applied whole, without announcing. -/
def settle (c : Client) (i : ℕ) (o : Observation) : Client :=
  match c.cloud with
  -- `require` throws out of the observation
  | none => c.endObservation i
  | some params =>
    match o.converged cv params with
    | .error _ => c.endObservation i
    | .ok false => c
    | .ok true =>
      let t := { c with device := (c.device.applyParams cv params).1 }
      match o.matchesObservation cv (t.device.read o.refresh.property) with
      | .ok false => t
      | _ => t.endObservation i

/-- One step, with the announcements it makes. -/
def step (c : Client) : Label → Option (Client × List PropertyChange)
  | .report params => some ((c.applyRealtimeParams params).applyAndAnnounce cv params)
  | .listRefresh cloud => some ({ c with cloud }, [])
  | .pollFetch cloud =>
    some ({ c with
      cloud
      pollSnapshot := cloud
      polls := c.polls ++ [pollChanges c.pollSnapshot cloud] }, [])
  | .pollApply k =>
    c.polls[k]?.map fun diff =>
      ({ c.retireRealtimeParams diff.contains with
        polls := c.polls.eraseIdx k }).applyAndAnnounce cv diff
  | .refreshBegin =>
    match c.refresh, c.cloud with
    | none, some params => some ({ c with refresh := some (.fetching params) }, [])
    -- `record` rejects for a serial the list lacks
    | none, none => some (c, [])
    | some _, _ => none
  | .refreshFetch overlay =>
    match c.refresh with
    | some (.fetching params) =>
      let params :=
        match overlay with
        | .refused => params
        | .granted live => params.join live
        | .failed listed => params.join listed
      some ({ c with refresh := some (.fetched params c.currentReports) }, [])
    | _ => none
  | .refreshLand =>
    match c.refresh with
    | some (.fetched params dp) =>
      some (({ c with refresh := none }).applyAndAnnounce cv (c.joined params dp))
    | _ => none
  | .refreshFail => if c.refresh.isSome then some ({ c with refresh := none }, []) else none
  | .observe command refresh =>
    some (match c.cloud with
    | none => c
    | some _ =>
      { c with
        observations :=
          c.observations ++ [⟨command, refresh, c.device.read refresh.property⟩] }, [])
  | .settled i => c.observations[i]?.map fun o => (c.settle cv i o, [])
  | .observationEnds i =>
    if i < c.observations.length then some (c.endObservation i, []) else none
  | .reresolve resolved => some ({ c with device := c.device.resolveInto resolved }, [])

/-- The map a confirming observation applies: the whole record, once it has converged. -/
def confirms (c : Client) (i : ℕ) : Option RawParams :=
  match c.observations[i]?, c.cloud with
  | some o, some params =>
    match o.converged cv params with
    | .ok true => some params
    | _ => none
  | _, _ => none

/-- The map a step lands on the device, if it is one that lands any. -/
def lands (c : Client) : Label → Option RawParams
  | .report params => some params
  | .pollApply k => c.polls[k]?
  | .refreshLand =>
    match c.refresh with
    | some (.fetched params dp) => some (c.joined params dp)
    | _ => none
  | .settled i => c.confirms cv i
  | _ => none

end Client

/-- The inbound paths; the observations land without announcing. -/
def Label.announces : Label → Bool
  | .report _ | .pollApply _ | .refreshLand => true
  | _ => false

/-- The device behind a step that lands nothing. -/
def Label.adopts (d : Device) : Label → Device
  | .reresolve resolved => d.resolveInto resolved
  | _ => d

namespace Client

variable {cv : Conversions} {c t : Client} {l : Label} {changes : List PropertyChange}

/-- A settling observation that confirms has applied the record it confirms by. -/
theorem settle_device {i : ℕ} {o : Observation} (ho : c.observations[i]? = some o) :
    (c.settle cv i o).device =
      match c.confirms cv i with
      | some params => (c.device.applyParams cv params).1
      | none => c.device := by
  rw [settle, confirms, ho]
  cases c.cloud with
  | none => rfl
  | some params =>
    dsimp only
    cases o.converged cv params with
    | error e => rfl
    | ok b =>
      cases b with
      | false => rfl
      | true =>
        dsimp only
        split <;> rfl

/-- A settling observation goes on or ends; the others stay. -/
theorem settle_observations (i : ℕ) (o : Observation) :
    (c.settle cv i o).observations = c.observations ∨
      (c.settle cv i o).observations = c.observations.eraseIdx i := by
  rw [settle]
  split
  · exact .inr rfl
  · split
    · exact .inr rfl
    · exact .inl rfl
    · dsimp only
      split
      · exact .inl rfl
      · exact .inr rfl

/-- A step that lands a map can be taken. -/
theorem step_of_lands {params : RawParams} (h : c.lands cv l = some params) :
    ∃ t changes, c.step cv l = some (t, changes) := by
  cases l with
  | report params => exact ⟨_, _, rfl⟩
  | pollApply k =>
    have hk : c.polls[k]? = some params := h
    exact ⟨_, _, by rw [step, hk]; rfl⟩
  | refreshLand =>
    rw [lands] at h
    split at h
    · next hrefresh => exact ⟨_, _, by rw [step, hrefresh]⟩
    · cases h
  | settled i =>
    rw [lands, confirms] at h
    split at h
    · next ho _ => exact ⟨_, _, by rw [step, ho]; rfl⟩
    · cases h
  | _ => cases h

/-- An inbound path that takes a step lands a map. -/
theorem lands_of_announces (hannounces : l.announces = true)
    (h : c.step cv l = some (t, changes)) : ∃ params, c.lands cv l = some params := by
  cases l with
  | report params => exact ⟨params, rfl⟩
  | pollApply k =>
    obtain ⟨diff, hdiff, -⟩ := Option.map_eq_some_iff.mp h
    exact ⟨diff, hdiff⟩
  | refreshLand =>
    rw [step] at h
    split at h
    · next hrefresh => exact ⟨_, by rw [lands, hrefresh]⟩
    · cases h
  | _ => cases hannounces

/-- **What a landing step does**: the device has the map applied, and the inbound paths announce
what changed by it. -/
theorem step_landing (h : c.step cv l = some (t, changes)) {params : RawParams}
    (hparams : c.lands cv l = some params) :
    t.device = (c.device.applyParams cv params).1 ∧
      changes = if l.announces then t.device.announcements (c.device.applyParams cv params).2
        else [] := by
  cases l with
  | report reported =>
    obtain rfl : reported = params := Option.some.inj hparams
    have hdevice : (c.applyRealtimeParams reported).device = c.device := by
      rw [applyRealtimeParams]
      split <;> rfl
    rw [step, applyAndAnnounce, hdevice] at h
    cases h
    exact ⟨rfl, rfl⟩
  | pollApply k =>
    have hk : c.polls[k]? = some params := hparams
    rw [step, hk] at h
    cases h
    exact ⟨rfl, rfl⟩
  | refreshLand =>
    rw [lands] at hparams
    split at hparams
    · next hrefresh =>
      rw [step, hrefresh] at h
      cases h
      cases hparams
      exact ⟨rfl, rfl⟩
    · cases hparams
  | settled i =>
    have hconfirms : c.confirms cv i = some params := hparams
    cases ho : c.observations[i]? with
    | none =>
      rw [confirms, ho] at hconfirms
      cases hconfirms
    | some o =>
      rw [step, ho] at h
      cases h
      refine ⟨?_, rfl⟩
      rw [settle_device ho, hconfirms]
  | _ => cases hparams

/-- **What any other step does**: nothing is announced, and live state stays. -/
theorem step_still (h : c.step cv l = some (t, changes)) (hnone : c.lands cv l = none) :
    changes = [] ∧ t.device = l.adopts c.device := by
  cases l with
  | report params => cases hnone
  | pollApply k =>
    have hk : c.polls[k]? = none := hnone
    rw [step, hk] at h
    cases h
  | refreshLand =>
    rw [step] at h
    rw [lands] at hnone
    cases hrefresh : c.refresh with
    | none =>
      rw [hrefresh] at h
      cases h
    | some r =>
      rw [hrefresh] at h hnone
      cases r with
      | fetching params => cases h
      | fetched params dp => cases hnone
  | settled i =>
    have hconfirms : c.confirms cv i = none := hnone
    cases ho : c.observations[i]? with
    | none =>
      rw [step, ho] at h
      cases h
    | some o =>
      rw [step, ho] at h
      cases h
      refine ⟨rfl, ?_⟩
      rw [settle_device ho, hconfirms]
      rfl
  | refreshBegin =>
    rw [step] at h
    split at h <;> cases h <;> exact ⟨rfl, rfl⟩
  | refreshFetch overlay =>
    rw [step] at h
    split at h <;> cases h
    exact ⟨rfl, rfl⟩
  | refreshFail =>
    rw [step] at h
    split at h <;> cases h
    exact ⟨rfl, rfl⟩
  | observationEnds i =>
    rw [step] at h
    split at h <;> cases h
    exact ⟨rfl, rfl⟩
  | observe command refresh =>
    rw [step] at h
    cases h
    refine ⟨rfl, ?_⟩
    cases c.cloud <;> rfl
  | listRefresh cloud | pollFetch cloud | reresolve resolved =>
    cases h
    exact ⟨rfl, rfl⟩

/-- **What a step does to one property**: it takes the value the landed map feeds it. -/
theorem step_read (h : c.step cv l = some (t, changes)) (name : String) :
    t.device.read name =
      ((c.lands cv l).bind (c.device.schema.fed cv name)).or (c.device.read name) := by
  cases hparams : c.lands cv l with
  | none =>
    rw [(step_still h hparams).2]
    cases l <;> rfl
  | some params =>
    rw [(step_landing h hparams).1, Device.read_applyParams]
    rfl

end Client

/-! ### A sample client -/

def sampleConversions : Conversions where
  number raw := if raw = "0" then some 0 else if raw = "1" then some 1 else none
  numberToString n := if n = 0 then "0" else "1"
  jsonParse _ := none
  base64 raw := raw

def sampleRecord : RawParams := (SortedMap.single 1 "0").insert 2 "1"

def sampleSchema : Schema where
  properties :=
    [⟨"open", 1, .bool, false, none, false, []⟩, ⟨"mode", 2, .enum, false, none, false, []⟩]
  paramDef _ := none

/-- A door sensor with a mode, as its list record built it: closed, mode 1. -/
def sampleClient : Client where
  cloud := some sampleRecord
  pollSnapshot := some sampleRecord
  reports := []
  device := (Device.applyParams sampleConversions ⟨sampleSchema, fun _ => none⟩ sampleRecord).1

end EufySdk.EufyMega
