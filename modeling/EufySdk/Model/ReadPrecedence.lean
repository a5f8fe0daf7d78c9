import Mathlib.Tactic
import EufySdk.Lib.Lists
import EufySdk.Model.Device

/-!
# Which id of a map a property reads

Several ids can feed one property: its own, its read aliases, an id the dictionary names like it.
`applyParams` of `model/device.ts` visits them in ascending order and keeps the last, where the spec
says that the property's own id wins, and then the first alias. The two agree, and a map that
lands again is silent, exactly when all ids of the map that feed one name say the same.

- `PropertySpec.source?` — the id that ought to be read
- `RespectsPrecedence` — it is read, each name counts once, and landing the map again is silent
- `respectsPrecedence_iff` — for which maps
-/

namespace EufySdk

variable {ρ : Type} [WireValue ρ] (cv : Conversions)

/-- The ids of a property in the order they ought to win, each with its polarity. -/
def PropertySpec.sources (p : PropertySpec) : List (ℕ × Bool) :=
  (p.paramType, p.invert) :: p.readAliases.map fun a => (a.paramType, a.invert)

/-- The id that ought to be read out of a map: the property's own, else its first alias there. -/
def PropertySpec.source? (p : PropertySpec) (params : SortedMap ℕ ρ) : Option (ℕ × Bool × ρ) :=
  p.sources.findSome? fun s => (params.find? s.1).map fun raw => (s.1, s.2, raw)

namespace Schema

variable (sch : Schema)

/-- What a property reads from one of its ids. -/
def decoded (p : PropertySpec) (invert : Bool) (pt : ℕ) (raw : ρ) : Json :=
  match (sch.paramDef pt).bind ParamDef.encoding with
  | some encoding => decodeEncoded cv (WireValue.scalar raw) encoding
  | none => coerce cv p (WireValue.scalar raw) invert

/-- No id is one of two properties. -/
def IdsApart : Prop :=
  ∀ p ∈ sch.properties, ∀ q ∈ sch.properties, ∀ s ∈ p.sources, ∀ t ∈ q.sources, s.1 = t.1 → p = q

/-- The ids of a map that feed one name decode to equal values. -/
def AgreesByName (params : SortedMap ℕ ρ) : Prop :=
  ∀ e ∈ params.entries, ∀ e' ∈ params.entries, sch.nameOf e.1 = sch.nameOf e'.1 →
    (sch.valueOf cv e.1 e.2).structuralEqual (sch.valueOf cv e'.1 e'.2) = true

/-- The first property that has an id reads it. -/
theorem specByParam_eq_findSome? (pt : ℕ) :
    sch.specByParam pt = sch.properties.findSome? fun p =>
      (p.sources.find? fun t => t.1 = pt).map fun t => (p, t.2) := by
  have hown (q : PropertySpec) : (((q.paramType, q, q.invert) ::
      q.readAliases.map fun a => (a.paramType, q, a.invert)).find? fun e => e.1 = pt) =
        (q.sources.find? fun t => t.1 = pt).map fun t => (t.1, q, t.2) := by
    have hmap : ((q.paramType, q, q.invert) ::
        q.readAliases.map fun a => (a.paramType, q, a.invert)) =
          q.sources.map fun t => (t.1, q, t.2) := by
      rw [PropertySpec.sources, List.map_cons, List.map_map]
      rfl
    rw [hmap, List.find?_map]
    rfl
  rw [specByParam, readIds, List.find?_flatMap]
  simp only [hown, List.map_findSome?]
  refine congrArg (List.findSome? · _) (funext fun p => ?_)
  exact Option.map_map ..

variable {sch}

/-- The schema reads an id as the property does that has it. -/
theorem specByParam_eq (hapart : sch.IdsApart) {p : PropertySpec} (hp : p ∈ sch.properties)
    {pt : ℕ} {invert : Bool}
    (hs : p.sources.find? (fun t => t.1 = pt) = some (pt, invert)) :
    sch.specByParam pt = some (p, invert) := by
  rw [specByParam_eq_findSome?]
  refine Lists.findSome?_eq_of_unique (fun q hq x hx => ?_) hp (by rw [hs]; rfl)
  obtain ⟨t, ht, rfl⟩ := Option.map_eq_some_iff.mp hx
  have hid : t.1 = pt := by simpa using List.find?_some ht
  obtain rfl := hapart p hp q hq _ (List.mem_of_find?_eq_some hs) t
    (List.mem_of_find?_eq_some ht) hid.symm
  rw [hs] at ht
  obtain rfl := Option.some.inj ht
  rfl

/-- Decoding gives no object a key twice. -/
theorem keysOnce_valueOf (pt : ℕ) (raw : ρ) : (sch.valueOf cv pt raw).keysOnce = true := by
  have hscalar {j : Json} (h : j.scalar = true) : j.keysOnce = true := by
    cases j <;> first | rfl | cases h
  have hcoerced (type : PropertyValueType) (raw : Scalar) :
      (coerceByType cv type raw).scalar = true := by
    cases type with
    | bool | string => rfl
    | number | enum =>
      simp only [coerceByType]
      cases finiteNumber cv raw <;> rfl
  rw [valueOf]
  cases (sch.paramDef pt).bind ParamDef.encoding with
  | some encoding =>
    have hparsed (parsed : Option {j : Json // j.keysOnce = true}) (s : String) :
        ((parsed.map Subtype.val).getD (.str s)).keysOnce = true := by
      cases parsed with
      | none => rfl
      | some j => exact j.2
    cases encoding <;> exact hparsed _ _
  | none =>
    cases sch.specByParam pt with
    | some hit =>
      dsimp only
      rw [coerce]
      cases hdecode : hit.1.decode with
      | some decode => exact hscalar (decode _).2
      | none =>
        dsimp only
        split
        · rfl
        · exact hscalar (hcoerced _ _)
    | none =>
      cases sch.paramDef pt with
      | some pd => exact hscalar (hcoerced _ _)
      | none => rfl

/-- A property decodes its ids as the schema does. -/
theorem decoded_eq_valueOf (hapart : sch.IdsApart) {p : PropertySpec} (hp : p ∈ sch.properties)
    {pt : ℕ} {invert : Bool}
    (hs : p.sources.find? (fun t => t.1 = pt) = some (pt, invert)) (raw : ρ) :
    sch.decoded cv p invert pt raw = sch.valueOf cv pt raw := by
  cases hencoding : (sch.paramDef pt).bind ParamDef.encoding <;>
    simp only [decoded, valueOf, specByParam_eq hapart hp hs, hencoding]

end Schema

/-! ### What moves -/

/-- Whether a value counts as changed. -/
def moved (prev : Option Json) (v : Json) : Bool := prev.all fun u => !u.structuralEqual v

/-- How often values that land one after the other count as changed. -/
def moves (prev : Option Json) : List Json → ℕ
  | [] => 0
  | v :: rest => (if moved prev v then 1 else 0) + moves (some v) rest

/-- Equal values do not move. -/
theorem moves_eq_zero {u : Json} {values : List Json}
    (h : ∀ v ∈ u :: values, ∀ w ∈ u :: values, v.structuralEqual w = true) :
    moves (some u) values = 0 := by
  induction values generalizing u with
  | nil => rfl
  | cons v rest ih =>
    have hmoved : u.structuralEqual v = true := h u (by simp) v (by simp)
    rw [moves, ih fun a ha b hb => h a (List.mem_cons_of_mem u ha) b (List.mem_cons_of_mem u hb)]
    simp [moved, hmoved]

/-- Values that do not move are equal to the ones behind them. -/
theorem pairwise_of_moves {u : Json} {values : List Json} (h : moves (some u) values = 0) :
    (u :: values).Pairwise fun v w => v.structuralEqual w = true := by
  induction values generalizing u with
  | nil => exact List.pairwise_singleton _ _
  | cons v rest ih =>
    rw [moves, Nat.add_eq_zero_iff] at h
    have hfirst : u.structuralEqual v = true := by
      by_contra hne
      simp [moved, hne] at h
    have hrest := ih h.2
    refine List.pairwise_cons.mpr ⟨fun w hw => ?_, hrest⟩
    rcases List.mem_cons.mp hw with rfl | hw
    · exact hfirst
    · exact Json.structuralEqual_trans hfirst ((List.pairwise_cons.mp hrest).1 w hw)

/-- Of equal values only the first can move. -/
theorem moves_le_one {prev : Option Json} {values : List Json}
    (h : ∀ v ∈ values, ∀ w ∈ values, v.structuralEqual w = true) : moves prev values ≤ 1 := by
  cases values with
  | nil => exact Nat.zero_le 1
  | cons v rest =>
    rw [moves, moves_eq_zero h]
    split_ifs <;> decide

/-- Values that land again, behind the last of them, move exactly where they are not all equal. -/
theorem moves_again_eq_zero_iff {prev : Option Json} {values : List Json}
    (hrefl : ∀ v ∈ values, v.structuralEqual v = true) :
    moves (values.getLast?.or prev) values = 0 ↔
      ∀ v ∈ values, ∀ w ∈ values, v.structuralEqual w = true := by
  obtain rfl | ⟨front, last, rfl⟩ := List.eq_nil_or_concat values
  · simp [moves]
  rw [List.concat_eq_append] at hrefl ⊢
  rw [List.getLast?_concat, Option.some_or]
  have hlast : last ∈ front ++ [last] := List.mem_append_right _ List.mem_cons_self
  constructor
  · intro hsilent v hv w hw
    -- the last value stands when the values land again, so it equals the first, and so on round
    have hround := List.pairwise_cons.mp (pairwise_of_moves hsilent)
    have hend : v.structuralEqual last = true := by
      rcases List.mem_append.mp hv with hfront | hback
      · exact (List.pairwise_append.mp hround.2).2.2 _ hfront _ List.mem_cons_self
      · rw [List.mem_singleton.mp hback]
        exact hrefl last hlast
    exact Json.structuralEqual_trans hend (hround.1 _ hw)
  · intro hequal
    refine moves_eq_zero fun v hv w hw => hequal v ?_ w ?_
    · exact (List.mem_cons.mp hv).elim (fun h => h ▸ hlast) id
    · exact (List.mem_cons.mp hw).elim (fun h => h ▸ hlast) id

namespace Device

variable {cv} {d : Device} {changed : List String}

/-- The values of a map that land under a name, in their order. -/
def feeding (sch : Schema) (cv : Conversions) (name : String) (entries : List (ℕ × ρ)) : List Json :=
  (entries.filter fun e => sch.nameOf e.1 = name).map fun e => sch.valueOf cv e.1 e.2

theorem feeding_cons (sch : Schema) (name : String) (e : ℕ × ρ) (rest : List (ℕ × ρ)) :
    feeding sch cv name (e :: rest) =
      if sch.nameOf e.1 = name then sch.valueOf cv e.1 e.2 :: feeding sch cv name rest
      else feeding sch cv name rest := by
  rw [feeding, List.filter_cons]
  by_cases hname : sch.nameOf e.1 = name
  · rw [if_pos hname, if_pos (decide_eq_true hname), List.map_cons, feeding]
  · rw [if_neg hname, if_neg (by simpa using hname), feeding]

theorem changedVal_eq (name : String) (v : Json) :
    d.changedVal name v = moved (d.read name) v := by
  rw [changedVal, read, getProperty]
  cases d.state name <;> rfl

/-- A name is among the changed ones as often as its value moves. -/
theorem count_applyEntries (entries : List (ℕ × ρ)) (name : String) :
    (applyEntries cv d changed entries).2.count name =
      changed.count name + moves (d.read name) (feeding d.schema cv name entries) := by
  induction entries generalizing d changed with
  | nil => rfl
  | cons e rest ih =>
    rw [applyEntries, ih, applyEntry_schema, read_applyEntry]
    by_cases hname : d.schema.nameOf e.1 = name
    · rw [if_pos hname, feeding_cons, if_pos hname, moves, ← Nat.add_assoc]
      refine congrArg (· + _) ?_
      rw [applyEntry, hname, changedVal_eq]
      cases moved (d.read name) (d.schema.valueOf cv e.1 e.2) <;> simp
    · rw [if_neg hname, feeding_cons, if_neg hname]
      refine congrArg (· + _) ?_
      rw [applyEntry]
      dsimp only
      split_ifs
      · rw [List.count_append, List.count_singleton]
        simp [hname]
      · rfl

theorem fed_eq_getLast? (sch : Schema) (name : String) (params : SortedMap ℕ ρ) :
    sch.fed cv name params = (feeding sch cv name params.entries).getLast? := by
  rw [feeding, List.getLast?_map]
  rfl

theorem mem_feeding {sch : Schema} {name : String} {entries : List (ℕ × ρ)} {v : Json} :
    v ∈ feeding sch cv name entries ↔
      ∃ e ∈ entries, sch.nameOf e.1 = name ∧ sch.valueOf cv e.1 e.2 = v := by
  simp [feeding, and_assoc]

theorem structuralEqual_feeding {sch : Schema} {name : String} {entries : List (ℕ × ρ)} :
    ∀ v ∈ feeding sch cv name entries, v.structuralEqual v = true := by
  intro v hv
  obtain ⟨x, -, -, rfl⟩ := mem_feeding.mp hv
  exact Json.structuralEqual_refl _ (Schema.keysOnce_valueOf cv _ _)

/-- The ids of a map agree by name exactly where what feeds a name is equal. -/
theorem agreesByName_iff {sch : Schema} {params : SortedMap ℕ ρ} :
    sch.AgreesByName cv params ↔ ∀ name, ∀ v ∈ feeding sch cv name params.entries,
      ∀ w ∈ feeding sch cv name params.entries, v.structuralEqual w = true := by
  constructor
  · intro hagrees name v hv w hw
    obtain ⟨e, he, hname, rfl⟩ := mem_feeding.mp hv
    obtain ⟨e', he', hname', rfl⟩ := mem_feeding.mp hw
    exact hagrees e he e' he' (hname.trans hname'.symm)
  · intro hequal e he e' he' hname
    exact hequal (sch.nameOf e.1) _ (mem_feeding.mpr ⟨e, he, rfl, rfl⟩) _
      (mem_feeding.mpr ⟨e', he', hname.symm, rfl⟩)

/-- A name reads the last value that feeds it, or what it read before. -/
theorem read_applyParams_feeding (params : SortedMap ℕ ρ) (name : String) :
    (d.applyParams cv params).1.read name =
      (feeding d.schema cv name params.entries).getLast?.or (d.read name) := by
  rw [read_applyParams, fed_eq_getLast?]

theorem count_applyParams (params : SortedMap ℕ ρ) (name : String) :
    (d.applyParams cv params).2.count name =
      moves (d.read name) (feeding d.schema cv name params.entries) := by
  rw [applyParams, count_applyEntries, List.count_nil, Nat.zero_add]

/-- A map that lands again is silent exactly where its ids agree by name. -/
theorem silent_iff {params : SortedMap ℕ ρ} :
    ((d.applyParams cv params).1.applyParams cv params).2 = [] ↔
      d.schema.AgreesByName cv params := by
  rw [agreesByName_iff, List.eq_nil_iff_forall_not_mem]
  refine forall_congr' fun name => ?_
  rw [← List.count_eq_zero, count_applyParams, applyParams_schema, read_applyParams_feeding,
    moves_again_eq_zero_iff structuralEqual_feeding]

variable (cv d)

/-- What is said of a map that lands: a property reads the id that ought to win, each name counts
once, and the same map landing again moves nothing. -/
structure RespectsPrecedence (params : SortedMap ℕ ρ) : Prop where
  reads : ∀ p ∈ d.schema.properties, ∀ pt invert raw, p.source? params = some (pt, invert, raw) →
    ∃ v, (d.applyParams cv params).1.read p.name = some v ∧
      (d.schema.decoded cv p invert pt raw).structuralEqual v = true
  once : (d.applyParams cv params).2.Nodup
  silent : ((d.applyParams cv params).1.applyParams cv params).2 = []
  still : ∀ name, ((d.applyParams cv params).1.applyParams cv params).1.read name =
    (d.applyParams cv params).1.read name

variable {cv d}

omit [WireValue ρ] in
/-- The id that ought to win is in the map, and has its polarity in the schema. -/
theorem source?_spec {p : PropertySpec} {params : SortedMap ℕ ρ} {pt : ℕ} {invert : Bool} {raw : ρ}
    (h : p.source? params = some (pt, invert, raw)) :
    (pt, raw) ∈ params.entries ∧ p.sources.find? (fun t => t.1 = pt) = some (pt, invert) := by
  rw [PropertySpec.source?] at h
  generalize p.sources = sources at h ⊢
  induction sources with
  | nil => cases h
  | cons s rest ih =>
    rw [List.findSome?_cons] at h
    cases hfind : params.find? s.1 with
    | some found =>
      rw [hfind] at h
      obtain ⟨rfl, rfl, rfl⟩ : s.1 = pt ∧ s.2 = invert ∧ found = raw := by simpa using h
      exact ⟨SortedMap.find?_eq_some_iff.mp hfind, List.find?_cons_of_pos (by simp)⟩
    | none =>
      rw [hfind] at h
      obtain ⟨hmem, hfirst⟩ := ih h
      refine ⟨hmem, ?_⟩
      rw [List.find?_cons_of_neg, hfirst]
      simp only [decide_eq_true_eq]
      rintro rfl
      rw [SortedMap.find?_eq_some_iff.mpr hmem] at hfind
      cases hfind

/-- **Precedence is respected exactly where it does not matter**: where all ids of the map that the
device keeps under one name decode to equal values. -/
theorem respectsPrecedence_iff (hapart : d.schema.IdsApart) (params : SortedMap ℕ ρ) :
    d.RespectsPrecedence cv params ↔ d.schema.AgreesByName cv params := by
  refine ⟨fun hrespects => silent_iff.mp hrespects.silent, fun hagrees => ?_⟩
  have hequal := agreesByName_iff.mp hagrees
  refine ⟨fun p hp pt invert raw hsource => ?_, ?_, silent_iff.mpr hagrees, fun name => ?_⟩
  · obtain ⟨hmem, hfirst⟩ := source?_spec hsource
    have hname : d.schema.nameOf pt = p.name := by
      rw [Schema.nameOf, Schema.specByParam_eq hapart hp hfirst]
    have hdecoded : d.schema.decoded cv p invert pt raw ∈
        feeding d.schema cv p.name params.entries :=
      mem_feeding.mpr ⟨_, hmem, hname, (Schema.decoded_eq_valueOf cv hapart hp hfirst raw).symm⟩
    have hsome := List.getLast?_isSome.mpr (List.ne_nil_of_mem hdecoded)
    obtain ⟨v, hv⟩ := Option.isSome_iff_exists.mp hsome
    refine ⟨v, ?_, hequal p.name _ hdecoded v (List.mem_of_getLast? hv)⟩
    rw [read_applyParams_feeding, hv]
    rfl
  · refine List.nodup_iff_count_le_one.mpr fun name => ?_
    rw [count_applyParams]
    exact moves_le_one (hequal name)
  · rw [read_applyParams, applyParams_schema, read_applyParams]
    cases d.schema.fed cv name params <;> rfl

/-! ### A switch of either polarity -/

/-- A switch that one family reports as a disable flag and another as it is. -/
def switchSchema : Schema where
  properties := [⟨"enabled", 1035, .bool, true, none, false, [⟨2001, false⟩]⟩]
  paramDef _ := none

def switchConversions : Conversions where
  number _ := none
  numberToString _ := "0"
  jsonParse _ := none
  base64 raw := raw

theorem switchSchema_apart : switchSchema.IdsApart := by
  intro p hp q hq s _ t _ _
  rw [List.mem_singleton.mp hp, List.mem_singleton.mp hq]

/-- Both ids off: the switch's own says that it is on, and the alias, which is the greater id, is
what is read. -/
def bothOff : SortedMap ℕ Scalar := (SortedMap.single 1035 (.str "0")).insert 2001 (.str "0")

theorem alias_shadows_own :
    ¬∀ (cv : Conversions) (d : Device) (params : SortedMap ℕ Scalar), d.schema.IdsApart →
      d.RespectsPrecedence cv params := by
  intro hclaim
  have hrespects := hclaim switchConversions ⟨switchSchema, fun _ => none⟩ bothOff switchSchema_apart
  exact absurd hrespects.silent (by decide)

theorem respectsPrecedence_iff_own :
    switchSchema.IdsApart ∧
      (Device.RespectsPrecedence switchConversions ⟨switchSchema, fun _ => none⟩
          (SortedMap.single 1035 (Scalar.str "0")) ↔
        switchSchema.AgreesByName switchConversions (SortedMap.single 1035 (Scalar.str "0"))) :=
  ⟨switchSchema_apart, respectsPrecedence_iff switchSchema_apart _⟩

end Device

end EufySdk
