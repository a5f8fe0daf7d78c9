import Mathlib.Tactic
import EufySdk.Model.ReadPrecedence

/-!
# A device that is resolved again

`Device.reresolve` of `model/device.ts`: a fresher record may widen the capabilities and change the
manifest, and the device adopts what the resolver says of the union. Live state stays as it is, kept
under the names the params had when they came. A device that had been resolved so from the start
would have filed them by the adopted schema.

- `ResolvedUnit.reresolve` — the resolution adopted, and the capabilities gained
- `ResolvedUnit.run` — params applied and records taken, in any order
- `indistinguishable_iff` — when the widened device reads as one built with the adopted resolution
-/

namespace EufySdk.Reresolve

/-- A property of a manifest, with what adoption compares beside the name. -/
structure ManifestEntry extends PropertySpec where
  writable : Bool
  enumValues : Option (List (ℕ × String))

structure ResolvedDevice (Codec Capability : Type) where
  codec : Codec
  capabilities : List Capability
  properties : List ManifestEntry

/-- The resolver, and the dictionary of each codec's namespace. -/
structure Resolver (CloudRecord Codec Capability : Type) where
  resolveDevice : CloudRecord → ResolvedDevice Codec Capability
  resolveProperties : CloudRecord → Codec → List Capability → List ManifestEntry
  paramDef : Codec → ℕ → Option ParamDef

variable {CloudRecord Codec Capability ρ : Type} [WireValue ρ]
variable (R : Resolver CloudRecord Codec Capability) (cv : Conversions)

def ResolvedDevice.schema (resolved : ResolvedDevice Codec Capability) : Schema where
  properties := resolved.properties.map ManifestEntry.toPropertySpec
  paramDef := R.paramDef resolved.codec

/-- Whether two manifests are the same for adoption: as many properties, with the same names,
writability and options. -/
def sameManifest (a b : List ManifestEntry) : Bool :=
  let sig (p : ManifestEntry) := (p.name, p.writable, p.enumValues)
  a.length = b.length && a.all fun p => sig p ∈ b.map sig

/-- An entry of a map that was applied, with a schema to file it by. -/
structure Arrival (ρ : Type) where
  schema : Schema
  paramType : ℕ
  raw : ρ

/-- The same entry filed by another schema. -/
def Arrival.under (sch : Schema) (a : Arrival ρ) : Arrival ρ := { a with schema := sch }

/-- What the last arrival filed under a name decodes to. -/
def lastFiled (name : String) (arrivals : List (Arrival ρ)) : Option Json :=
  ((arrivals.filter fun a => a.schema.nameOf a.paramType = name).getLast?).map fun a =>
    a.schema.valueOf cv a.paramType a.raw

theorem lastFiled_append (name : String) (l m : List (Arrival ρ)) :
    lastFiled cv name (l ++ m) = (lastFiled cv name m).or (lastFiled cv name l) := by
  rw [lastFiled, List.filter_append, List.getLast?_append, lastFiled, lastFiled]
  cases (m.filter fun a => a.schema.nameOf a.paramType = name).getLast? <;> rfl

/-- A map filed by one schema leaves what it feeds. -/
theorem lastFiled_entries (sch : Schema) (params : SortedMap ℕ ρ) (name : String) :
    lastFiled cv name (params.entries.map fun e => ⟨sch, e.1, e.2⟩) = sch.fed cv name params := by
  rw [lastFiled, List.filter_map, List.getLast?_map, Option.map_map]
  rfl

/-- What comes to a device. -/
inductive Event (ρ CloudRecord : Type)
  | applied (params : SortedMap ℕ ρ)
  | record (rec : CloudRecord)

/-- A device with its resolution. -/
structure ResolvedUnit (Codec Capability : Type) where
  resolved : ResolvedDevice Codec Capability
  state : String → Option PropertyValue

namespace ResolvedUnit

def construct (resolved : ResolvedDevice Codec Capability) : ResolvedUnit Codec Capability :=
  ⟨resolved, fun _ => none⟩

def device (u : ResolvedUnit Codec Capability) : Device := ⟨u.resolved.schema R, u.state⟩

def applyParams (u : ResolvedUnit Codec Capability) (params : SortedMap ℕ ρ) :
    ResolvedUnit Codec Capability :=
  { u with state := ((u.device R).applyParams cv params).1.state }

def resolveInto (u : ResolvedUnit Codec Capability) (resolved : ResolvedDevice Codec Capability) :
    ResolvedUnit Codec Capability :=
  { u with resolved }

section Widening

variable [DecidableEq Capability]

def reresolve (u : ResolvedUnit Codec Capability) (rec : CloudRecord) :
    ResolvedUnit Codec Capability × List Capability :=
  let next := R.resolveDevice rec
  let gained := next.capabilities.filter (· ∉ u.resolved.capabilities)
  let capabilities := (u.resolved.capabilities ++ next.capabilities).eraseDups
  let properties := R.resolveProperties rec next.codec capabilities
  if gained = [] ∧ sameManifest properties u.resolved.properties = true then (u, [])
  else (u.resolveInto { next with capabilities, properties }, gained)

def step (u : ResolvedUnit Codec Capability) : Event ρ CloudRecord → ResolvedUnit Codec Capability
  | .applied params => u.applyParams R cv params
  | .record rec => (u.reresolve R rec).1

def run (u : ResolvedUnit Codec Capability) (events : List (Event ρ CloudRecord)) :
    ResolvedUnit Codec Capability :=
  events.foldl (step R cv) u

/-- The entries an event brings, filed by the schema they meet. -/
def entriesOf (u : ResolvedUnit Codec Capability) : Event ρ CloudRecord → List (Arrival ρ)
  | .applied params => params.entries.map fun e => ⟨u.resolved.schema R, e.1, e.2⟩
  | .record _ => []

/-- All entries that come, each filed by the schema it meets. -/
def arrivals (u : ResolvedUnit Codec Capability) : List (Event ρ CloudRecord) → List (Arrival ρ)
  | [] => []
  | e :: rest => u.entriesOf R e ++ arrivals (u.step R cv e) rest

/-- The events without the records. -/
def appliedOnly (events : List (Event ρ CloudRecord)) : List (Event ρ CloudRecord) :=
  events.filter fun
    | .applied _ => true
    | .record _ => false

/-- A device constructed with a resolution, and the maps of a history applied to it. -/
def replay (resolved : ResolvedDevice Codec Capability) (events : List (Event ρ CloudRecord)) :
    ResolvedUnit Codec Capability :=
  (construct resolved).run R cv (appliedOnly events)

variable {R cv}

/-- Taking a record leaves what is read. -/
theorem read_reresolve (u : ResolvedUnit Codec Capability) (rec : CloudRecord) (name : String) :
    ((u.reresolve R rec).1.device R).read name = (u.device R).read name := by
  simp only [reresolve]
  split_ifs <;> rfl

theorem read_step (u : ResolvedUnit Codec Capability) (e : Event ρ CloudRecord) (name : String) :
    ((u.step R cv e).device R).read name =
      (lastFiled cv name (u.entriesOf R e)).or ((u.device R).read name) := by
  cases e with
  | record rec => exact read_reresolve u rec name
  | applied params =>
    rw [entriesOf, lastFiled_entries]
    exact Device.read_applyParams params name

/-- **A property reads what was filed under its name last**, by the schema of that time. -/
theorem read_run (events : List (Event ρ CloudRecord)) (u : ResolvedUnit Codec Capability)
    (name : String) :
    ((u.run R cv events).device R).read name =
      (lastFiled cv name (u.arrivals R cv events)).or ((u.device R).read name) := by
  induction events generalizing u with
  | nil => rfl
  | cons e rest ih =>
    rw [run, List.foldl_cons, ← run, ih, read_step, arrivals, lastFiled_append, Option.or_assoc]

/-- In a replay all entries meet the one schema. -/
theorem arrivals_replay (events : List (Event ρ CloudRecord))
    (u v : ResolvedUnit Codec Capability) :
    v.arrivals R cv (appliedOnly events) =
      (u.arrivals R cv events).map (Arrival.under (v.resolved.schema R)) := by
  induction events generalizing u v with
  | nil => rfl
  | cons e rest ih =>
    rw [arrivals, List.map_append]
    cases e with
    | record rec => exact ih (u.step R cv (.record rec)) v
    | applied params =>
      have hrest := ih (u.step R cv (.applied params)) (v.step R cv (.applied params))
      rw [appliedOnly, List.filter_cons_of_pos rfl, ← appliedOnly, arrivals, hrest]
      refine congrArg (· ++ _) ?_
      rw [entriesOf, entriesOf, List.map_map]
      rfl

theorem read_replay (events : List (Event ρ CloudRecord)) (u : ResolvedUnit Codec Capability)
    (resolved : ResolvedDevice Codec Capability) (name : String) :
    ((replay R cv resolved events).device R).read name =
      lastFiled cv name ((u.arrivals R cv events).map (Arrival.under (resolved.schema R))) := by
  rw [replay, read_run, arrivals_replay events u]
  exact Option.or_none

variable (R cv)

/-- A param of the property is among the arrivals. -/
def Arrived (p : PropertySpec) (arrivals : List (Arrival ρ)) : Prop :=
  ∃ a ∈ arrivals, ∃ s ∈ p.sources, s.1 = a.paramType

/-- After a history the device reads every property of its schema of which a param came as a device
does that was constructed with its resolution. -/
def Indistinguishable (resolved : ResolvedDevice Codec Capability)
    (events : List (Event ρ CloudRecord)) : Prop :=
  let u := (construct resolved).run R cv events
  ∀ p ∈ (u.resolved.schema R).properties,
    Arrived p ((construct resolved).arrivals R cv events) →
      (u.device R).read p.name = ((replay R cv u.resolved events).device R).read p.name

/-- Every property of which a param came has the value that the adopted schema would have filed
under its name last. -/
def FiledAlike (resolved : ResolvedDevice Codec Capability)
    (events : List (Event ρ CloudRecord)) : Prop :=
  let sch := ((construct resolved).run R cv events).resolved.schema R
  let arrivals := (construct resolved).arrivals R cv events
  ∀ p ∈ sch.properties, Arrived p arrivals →
    lastFiled cv p.name arrivals = lastFiled cv p.name (arrivals.map (Arrival.under sch))

variable {R cv}

/-- **When a widened device reads as one that was built so**: exactly where the last entry that was
filed under the name of a property decoded to what the last entry that the adopted schema files
under it decodes to. -/
theorem indistinguishable_iff (resolved : ResolvedDevice Codec Capability)
    (events : List (Event ρ CloudRecord)) :
    Indistinguishable R cv resolved events ↔ FiledAlike R cv resolved events := by
  have hread (name : String) : (((construct resolved).run R cv events).device R).read name =
      lastFiled cv name ((construct resolved).arrivals R cv events) := by
    rw [read_run]
    exact Option.or_none
  constructor
  · intro h p hp harrived
    have hsame := h p hp harrived
    rwa [hread, read_replay events (construct resolved)] at hsame
  · intro h p hp harrived
    rw [hread, read_replay events (construct resolved)]
    exact h p hp harrived

/-- Where the adopted schema names and decodes all that came as the schemas of its time did, the
entries are filed alike. -/
theorem filedAlike_of_same {resolved : ResolvedDevice Codec Capability}
    {events : List (Event ρ CloudRecord)}
    (h : ∀ a ∈ (construct resolved).arrivals R cv events,
      let sch := ((construct resolved).run R cv events).resolved.schema R
      sch.nameOf a.paramType = a.schema.nameOf a.paramType ∧
        sch.valueOf cv a.paramType a.raw = a.schema.valueOf cv a.paramType a.raw) :
    FiledAlike R cv resolved events := by
  intro p _ _
  generalize (construct resolved).arrivals R cv events = arrivals at h ⊢
  generalize ((construct resolved).run R cv events).resolved.schema R = sch at h ⊢
  have hfilter : (arrivals.filter fun a => sch.nameOf a.paramType = p.name) =
      arrivals.filter fun a => a.schema.nameOf a.paramType = p.name :=
    List.filter_congr fun a ha => by rw [(h a ha).1]
  have hunder : lastFiled cv p.name (arrivals.map (Arrival.under sch)) =
      ((arrivals.filter fun a => sch.nameOf a.paramType = p.name).getLast?).map fun a =>
        sch.valueOf cv a.paramType a.raw := by
    rw [lastFiled, List.filter_map, List.getLast?_map, Option.map_map]
    rfl
  rw [hunder, hfilter, lastFiled]
  exact Option.map_congr fun a ha => (h a (List.mem_of_mem_filter (List.mem_of_getLast? ha))).2.symm

end Widening

/-! ### A light that is found out later -/

/-- A camera whose spotlight is granted once a record reports its switch. -/
def spotlightResolver : Resolver (List ℕ) Unit String where
  resolveDevice rec := ⟨(), if 1400 ∈ rec then ["camera", "light"] else ["camera"], []⟩
  resolveProperties _ _ capabilities :=
    if "light" ∈ capabilities then
      [{ name := "light", paramType := 1400, type := .bool, writable := true, enumValues := none }]
    else []
  paramDef _ pt := if pt = 1400 then some ⟨"floodlightManualSwitch", .bool, none⟩ else none

/-- The switch is reported on, and a record with it is taken. -/
def spotlightFound : List (Event String (List ℕ)) :=
  [.applied (SortedMap.single 1400 "1"), .record [1400]]

theorem widened_reads_nothing :
    ¬∀ (cv : Conversions) (R : Resolver (List ℕ) Unit String)
      (resolved : ResolvedDevice Unit String) (events : List (Event String (List ℕ))),
      Indistinguishable R cv resolved events := by
  intro hclaim
  have hsame := hclaim Device.switchConversions spotlightResolver ⟨(), ["camera"], []⟩
    spotlightFound ⟨"light", 1400, .bool, false, none, false, []⟩ (List.mem_singleton.mpr rfl)
      ⟨_, List.mem_singleton.mpr rfl, _, List.mem_singleton.mpr rfl, rfl⟩
  exact absurd (congrArg Option.isSome hsame) (by decide)

end ResolvedUnit

end EufySdk.Reresolve
