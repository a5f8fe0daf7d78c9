import Mathlib.Tactic
import EufySdk.Core.Scalar
import EufySdk.Core.Util
import EufySdk.Lib.SortedMap

/-!
# A device's live state

`Device` of `model/device.ts` as far as its state goes: how a raw param map becomes named
property values, which of them count as changed, and what is announced of those.

- `Schema` — what the resolver decided: the property manifest and the param dictionary of
  the device's namespace
- `Device.applyParams` — a param map landed in live state, entry by entry in id order
- `Device.announcements` — the changed schema properties with their narrowed values
- `Schema.fed` — the value a param map leaves in one property
-/

namespace EufySdk

/-- The platform's conversions: `Number(raw)` where it is finite, `String(n)`, `JSON.parse`
where it returns, which gives no object a key twice, and the UTF-8 text behind a base64 string. -/
structure Conversions where
  number : String → Option ℚ
  numberToString : ℚ → String
  jsonParse : String → Option {j : Json // j.keysOnce = true}
  base64 : String → String

inductive PropertyValueType
  | bool
  | number
  | enum
  | string
  deriving DecidableEq, Repr

inductive ParamEncoding
  | base64Json
  | json
  deriving DecidableEq, Repr

structure ReadAlias where
  paramType : ℕ
  invert : Bool := false
  deriving DecidableEq, Repr

structure PropertySpec where
  name : String
  paramType : ℕ
  type : PropertyValueType
  invert : Bool := false
  decode : Option (Scalar → {j : Json // j.scalar = true}) := none
  raw : Bool := false
  readAliases : List ReadAlias := []

structure ParamDef where
  name : String
  type : PropertyValueType
  encoding : Option ParamEncoding := none
  deriving DecidableEq, Repr

/-- `param_type` → raw value, as cloud records and reports carry them: strings. Iteration is by
ascending id, as for the integer keys of an object. -/
abbrev RawParams := SortedMap ℕ String

structure PropertyValue where
  name : String
  paramType : ℕ
  value : Json

/-- One `propertyChanged` announcement; no value where the stored one does not narrow. -/
structure PropertyChange where
  property : String
  value : Option Json

section Coercion

variable (cv : Conversions)

/-- `Number(raw)` where it is finite. -/
def finiteNumber : Scalar → Option ℚ
  | .bool b => some (if b then 1 else 0)
  | .num n => n.finite?
  | .str s => cv.number s

def decodeEncoded (raw : Scalar) (encoding : ParamEncoding) : Json :=
  let s := raw.text cv.numberToString
  let parsed :=
    match encoding with
    | .base64Json => cv.jsonParse (cv.base64 s)
    | .json => cv.jsonParse s
  (parsed.map Subtype.val).getD (.str s)

def coerceByType (type : PropertyValueType) (raw : Scalar) : Json :=
  match type with
  | .bool =>
    .bool (raw = .bool true || raw = .num (.finite 1) || raw = .str "1" || raw = .str "true")
  | .number | .enum =>
    match finiteNumber cv raw with
    | some n => .num n
    -- not numeric: kept as the raw string
    | none => .str (raw.text cv.numberToString)
  | .string => .str (raw.text cv.numberToString)

def coerce (spec : PropertySpec) (raw : Scalar) (invert : Bool) : Json :=
  match spec.decode with
  | some decode => decode raw
  | none =>
    match spec.type, coerceByType cv spec.type raw with
    | .bool, .bool b => .bool (if invert then !b else b)
    | _, v => v

end Coercion

/-- The runtime narrowing of the getters and of the announcements: `none` on a mismatch. -/
def narrow : PropertyValueType → Option Json → Option Json
  | .bool, some (.bool b) => some (.bool b)
  | .string, some (.str s) => some (.str s)
  | .number, some (.num n) => some (.num n)
  | .enum, some (.num n) => some (.num n)
  | _, _ => none

/-- Values that change detection takes for the same narrow to the same. -/
theorem narrow_congr {a b : Json} (h : a.structuralEqual b = true) (type : PropertyValueType) :
    narrow type (some a) = narrow type (some b) := by
  by_cases hscalar : a.scalar = true ∨ b.scalar = true
  · rw [Json.eq_of_structuralEqual h hscalar]
  · cases a <;> cases b <;> simp_all [Json.scalar] <;> cases type <;> rfl

/-- A resolution: the property manifest, and the param dictionary of the codec's namespace. -/
structure Schema where
  properties : List PropertySpec
  paramDef : ℕ → Option ParamDef

namespace Schema

variable {ρ : Type} [WireValue ρ] (cv : Conversions) (sch : Schema)

/-- The last property of a name, as for a map built from the manifest. -/
def specByName (name : String) : Option PropertySpec :=
  sch.properties.reverse.find? fun p => p.name = name

/-- Every id a property of the manifest reads, with the polarity it has there. -/
def readIds : List (ℕ × PropertySpec × Bool) :=
  sch.properties.flatMap fun p =>
    (p.paramType, p, p.invert) :: p.readAliases.map fun a => (a.paramType, p, a.invert)

/-- First writer wins: an earlier property's id is never taken by a later alias. -/
def specByParam (pt : ℕ) : Option (PropertySpec × Bool) :=
  (sch.readIds.find? fun e => e.1 = pt).map Prod.snd

/-- The id is the `paramType` or a read alias of the property. -/
def ownsId (name : String) (pt : ℕ) : Bool :=
  sch.readIds.any fun e => e.2.1.name = name && e.1 = pt

/-- The manifest's name for an id, else the dictionary's, else a passthrough name. -/
def nameOf (pt : ℕ) : String :=
  match sch.specByParam pt, sch.paramDef pt with
  | some (spec, _), _ => spec.name
  | none, some pd => pd.name
  | none, none => s!"unknown_{pt}"

def valueOf (pt : ℕ) (rawValue : ρ) : Json :=
  let raw := WireValue.scalar rawValue
  match (sch.paramDef pt).bind ParamDef.encoding with
  | some encoding => decodeEncoded cv raw encoding
  | none =>
    match sch.specByParam pt, sch.paramDef pt with
    | some (spec, invert), _ => coerce cv spec raw invert
    | none, some pd => coerceByType cv pd.type raw
    | none, none => .str (raw.text cv.numberToString)

/-- The value the map leaves in a property: that of the greatest id feeding it. -/
def fed (name : String) (params : SortedMap ℕ ρ) : Option Json :=
  ((params.entries.filter fun e => sch.nameOf e.1 = name).getLast?).map fun e =>
    sch.valueOf cv e.1 e.2

end Schema

/-- A device: its resolution and its live values by property name. -/
structure Device where
  schema : Schema
  state : String → Option PropertyValue

namespace Device

variable {ρ : Type} [WireValue ρ] (cv : Conversions)

def getProperty (d : Device) (name : String) : Option PropertyValue := d.state name

/-- `getProperty(name)?.value`. -/
def read (d : Device) (name : String) : Option Json := (d.getProperty name).map PropertyValue.value

/-- Whether the value is not the one the property has. -/
def changedVal (d : Device) (name : String) (value : Json) : Bool :=
  match d.state name with
  | none => true
  | some prev => !prev.value.structuralEqual value

/-- One entry of a param map landed; the name is added to the changed ones if the value is
new. -/
def applyEntry (d : Device) (changed : List String) (e : ℕ × ρ) : Device × List String :=
  let name := d.schema.nameOf e.1
  let value := d.schema.valueOf cv e.1 e.2
  ({ d with state := Function.update d.state name (some ⟨name, e.1, value⟩) },
    if d.changedVal name value then changed ++ [name] else changed)

def applyEntries (d : Device) (changed : List String) :
    List (ℕ × ρ) → Device × List String
  | [] => (d, changed)
  | e :: rest =>
    let r := applyEntry cv d changed e
    applyEntries r.1 r.2 rest

/-- The device with the map landed, and the names whose value changed. -/
def applyParams (d : Device) (params : SortedMap ℕ ρ) : Device × List String :=
  applyEntries cv d [] params.entries

/-- What is announced of the changed names: those of the manifest, read out of live state. -/
def announcements (d : Device) (changed : List String) : List PropertyChange :=
  changed.filterMap fun name =>
    (d.schema.specByName name).map fun spec =>
      ⟨name, if spec.raw then none else narrow spec.type (d.read name)⟩

/-- Adopt a resolution; live state stays. -/
def resolveInto (d : Device) (resolved : Schema) : Device := { d with schema := resolved }

section Apply

variable {cv} {d : Device} {changed : List String}

@[simp]
theorem applyEntry_schema (e : ℕ × ρ) :
    (applyEntry cv d changed e).1.schema = d.schema := rfl

theorem read_applyEntry (e : ℕ × ρ) (name : String) :
    (applyEntry cv d changed e).1.read name =
      if d.schema.nameOf e.1 = name then some (d.schema.valueOf cv e.1 e.2)
      else d.read name := by
  by_cases hname : d.schema.nameOf e.1 = name
  · rw [if_pos hname]
    subst hname
    simp [applyEntry, read, getProperty]
  · rw [if_neg hname]
    simp [applyEntry, read, getProperty, Function.update_of_ne (Ne.symm hname)]

theorem applyEntries_schema (entries : List (ℕ × ρ)) :
    (applyEntries cv d changed entries).1.schema = d.schema := by
  induction entries generalizing d changed with
  | nil => rfl
  | cons e rest ih => exact ih

@[simp]
theorem applyParams_schema (params : SortedMap ℕ ρ) :
    (d.applyParams cv params).1.schema = d.schema :=
  applyEntries_schema params.entries

theorem read_applyEntries (entries : List (ℕ × ρ)) (name : String) :
    (applyEntries cv d changed entries).1.read name =
      (((entries.filter fun e => d.schema.nameOf e.1 = name).getLast?).map fun e =>
        d.schema.valueOf cv e.1 e.2).or (d.read name) := by
  induction entries generalizing d changed with
  | nil => rfl
  | cons e rest ih =>
    rw [applyEntries, ih, applyEntry_schema, read_applyEntry]
    by_cases hname : d.schema.nameOf e.1 = name
    · rw [if_pos hname, List.filter_cons_of_pos (by simpa using hname), List.getLast?_cons]
      cases (rest.filter fun e => d.schema.nameOf e.1 = name).getLast? <;> rfl
    · rw [if_neg hname, List.filter_cons_of_neg (by simpa using hname)]

/-- **What a param map does to one property**: it takes the value the map feeds it, and keeps
its own where the map feeds it none. -/
theorem read_applyParams (params : SortedMap ℕ ρ) (name : String) :
    (d.applyParams cv params).1.read name = (d.schema.fed cv name params).or (d.read name) :=
  read_applyEntries params.entries name

/-- A name stays among the changed ones. -/
theorem mem_applyEntries {name : String} (hmem : name ∈ changed) (entries : List (ℕ × ρ)) :
    name ∈ (applyEntries cv d changed entries).2 := by
  induction entries generalizing d changed with
  | nil => exact hmem
  | cons e rest ih =>
    apply ih
    show name ∈ if d.changedVal _ _ then _ else _
    split
    · exact List.mem_append_left _ hmem
    · exact hmem

/-- A value that does not count as changed narrows as the one before it. -/
theorem narrow_of_not_changedVal {name : String} {value : Json} (type : PropertyValueType)
    (h : d.changedVal name value = false) :
    narrow type (some value) = narrow type (d.read name) := by
  unfold changedVal at h
  cases hprev : d.state name with
  | none =>
    rw [hprev] at h
    cases h
  | some prev =>
    rw [hprev] at h
    rw [read, getProperty, hprev]
    exact (narrow_congr (by simpa using h) type).symm

/-- A name that is not among the changed ones narrows to what it did. -/
theorem narrow_applyEntries {name : String} (type : PropertyValueType)
    (entries : List (ℕ × ρ)) (hmem : name ∉ (applyEntries cv d changed entries).2) :
    narrow type ((applyEntries cv d changed entries).1.read name) = narrow type (d.read name) := by
  induction entries generalizing d changed with
  | nil => rfl
  | cons e rest ih =>
    rw [applyEntries] at hmem ⊢
    rw [ih hmem, read_applyEntry]
    by_cases hname : d.schema.nameOf e.1 = name
    · rw [if_pos hname]
      apply narrow_of_not_changedVal
      by_contra hchanged
      refine hmem (mem_applyEntries ?_ rest)
      show name ∈ if d.changedVal (d.schema.nameOf e.1) _ then _ else _
      rw [hname, if_pos (Bool.not_eq_false _ ▸ hchanged)]
      exact List.mem_append_right _ (List.mem_singleton_self name)
    · rw [if_neg hname]

/-- **Change detection is complete**: a property that `applyParams` does not report narrows to
what it did before. -/
theorem narrow_applyParams {name : String} {params : SortedMap ℕ ρ} (type : PropertyValueType)
    (hmem : name ∉ (d.applyParams cv params).2) :
    narrow type ((d.applyParams cv params).1.read name) = narrow type (d.read name) :=
  narrow_applyEntries type params.entries hmem

end Apply

end Device

end EufySdk
