import Mathlib.Tactic
import EufySdk.Model.Capabilities.Members
import EufySdk.Model.ReadPrecedence

/-!
# A getter installed on evidence

`bindMembers` of `model/capabilities/members.ts` installs a getter where the device has reported an
id of the member; `propertiesOf`, walking the same table, decides which id the property is kept
under, and `applyParams` of `model/device.ts` files what comes. Here the two walks are compared:
whether the getter has a value to read, and whether it has the polarity of the id that was reported.

- `ValueMember.evidence` — the reported ids that install the getter, each with its own inversion
- `Members.nameOf`, `Members.valueOf` — how the table files an id, member by member
- `holdsValue_iff` — when an installed getter reads what was reported
-/

namespace EufySdk.Capabilities

variable {ρ : Type} [WireValue ρ]

namespace ValueMember

variable (m : ValueMember) (ctx : CommandContext)

/-- The inversion that an alias states of itself. -/
def ownAlias (a : ReadAliasDecl) : ℕ × Bool := (a.paramType, a.invert.getD false)

/-- The reported ids that carry the member's value, each with its own inversion. -/
def evidence : List (ℕ × Bool) :=
  ((if m.readAvailable ctx then m.param.toList.map fun param => (param, m.invert.getD false)
    else []) ++ (m.openAliases (some ctx)).map ownAlias).filter fun s => s.1 ∈ ctx.paramIds

/-- The ids that the property of the member is kept under, with the inversion it applies to each. A
promoted alias that states none takes the member's. -/
def kept : List (ℕ × Bool) :=
  match m.param with
  | none => []
  | some param =>
    if m.writeOnly || !m.available ctx then []
    else
      match m.readAvailable ctx, m.openAliases (some ctx) with
      | true, aliases => (param, m.invert.getD false) :: aliases.map ownAlias
      | false, promoted :: aliases =>
        (promoted.paramType, (promoted.invert.or m.invert).getD false) :: aliases.map ownAlias
      | false, [] => []

/-- Every wire id of the member. -/
def ids : List ℕ := m.param.toList ++ m.readAliases.map ReadAliasDecl.paramType

variable {m ctx}

/-- The evidence gate is open on reported ids alone, but for state that only comes live. -/
theorem reads_iff : m.reads ctx = true ↔ m.realtime = true ∨ m.evidence ctx ≠ [] := by
  have hevidence : m.evidence ctx ≠ [] ↔
      (m.readAvailable ctx && m.param.any (· ∈ ctx.paramIds)) = true ∨
        (m.readAliases.any fun a => a.available ctx && a.paramType ∈ ctx.paramIds) = true := by
    rw [evidence, List.filter_append, ne_eq, List.append_eq_nil_iff, not_and_or]
    refine or_congr ?_ ?_
    · cases m.readAvailable ctx <;> cases m.param <;> simp
    · have hfilter : ((m.openAliases (some ctx)).map ownAlias).filter (fun s => s.1 ∈ ctx.paramIds) =
          ((m.openAliases (some ctx)).filter fun a => a.paramType ∈ ctx.paramIds).map ownAlias :=
        List.filter_map
      rw [hfilter, openAliases, List.map_eq_nil_iff, List.filter_filter, List.filter_eq_nil_iff]
      simp [and_comm]
  rw [reads, Bool.or_eq_true, Bool.or_eq_true, or_assoc, hevidence]

/-- Where the member has an inversion to lose, its aliases state theirs. -/
def StatesInversions (m : ValueMember) : Prop :=
  ∀ a ∈ m.readAliases, a.invert = none → m.invert.getD false = false

/-- The ids of evidence are ids the property is kept under, where there is a property; with their own
inversions, where these are stated. -/
theorem mem_kept_of_evidence {s : ℕ × Bool} (hs : s ∈ m.evidence ctx) (hparam : m.param.isSome)
    (hread : m.writeOnly = false) (havailable : m.available ctx = true) :
    ∃ invert, (s.1, invert) ∈ m.kept ctx ∧ (m.StatesInversions → invert = s.2) := by
  obtain ⟨param, hparam⟩ := Option.isSome_iff_exists.mp hparam
  have hs := (List.mem_filter.mp hs).1
  rw [kept, hparam]
  simp only [hread, havailable, Bool.not_true, Bool.or_self, Bool.false_eq_true, if_false]
  cases hprimary : m.readAvailable ctx with
  | true =>
    rw [hprimary, hparam] at hs
    exact ⟨s.2, hs, fun _ => rfl⟩
  | false =>
    rw [hprimary] at hs
    cases hopen : m.openAliases (some ctx) with
    | nil =>
      rw [hopen] at hs
      cases hs
    | cons promoted aliases =>
      rw [hopen] at hs
      rcases List.mem_cons.mp hs with rfl | hs
      · refine ⟨_, List.mem_cons_self, fun hstated => ?_⟩
        -- the promoted alias takes the member's inversion only where it states none
        have hmem : promoted ∈ m.openAliases (some ctx) := hopen ▸ List.mem_cons_self
        cases hinvert : promoted.invert with
        | some _ => simp [ownAlias, hinvert]
        | none => simp [ownAlias, hinvert, hstated promoted (List.mem_of_mem_filter hmem) hinvert]
      · exact ⟨s.2, List.mem_cons_of_mem _ hs, fun _ => rfl⟩

theorem mem_ids_of_kept {s : ℕ × Bool} (hs : s ∈ m.kept ctx) : s.1 ∈ m.ids := by
  have halias {a : ReadAliasDecl} (ha : a ∈ m.openAliases (some ctx)) :
      (ownAlias a).1 ∈ m.readAliases.map ReadAliasDecl.paramType :=
    List.mem_map_of_mem (List.mem_of_mem_filter ha)
  rw [kept] at hs
  rw [ids]
  cases hparam : m.param with
  | none =>
    rw [hparam] at hs
    cases hs
  | some param =>
    rw [hparam] at hs
    refine List.mem_append.mpr ?_
    dsimp only at hs
    split_ifs at hs
    · cases hs
    · split at hs
      · rcases List.mem_cons.mp hs with rfl | hs
        · exact .inl List.mem_cons_self
        · obtain ⟨a, ha, rfl⟩ := List.mem_map.mp hs
          exact .inr (halias ha)
      · rename_i promoted aliases _ haliases
        rcases List.mem_cons.mp hs with rfl | hs
        · exact .inr (halias (a := promoted) (haliases ▸ List.mem_cons_self))
        · obtain ⟨a, ha, rfl⟩ := List.mem_map.mp hs
          exact .inr (halias (haliases ▸ List.mem_cons_of_mem _ ha))
      · cases hs

theorem nodup_kept (hids : m.ids.Nodup) : ((m.kept ctx).map Prod.fst).Nodup := by
  have haliases : ((m.openAliases (some ctx)).map ReadAliasDecl.paramType).Sublist
      (m.readAliases.map ReadAliasDecl.paramType) := List.filter_sublist.map _
  have hown (aliases : List ReadAliasDecl) :
      (aliases.map ownAlias).map Prod.fst = aliases.map ReadAliasDecl.paramType := by
    rw [List.map_map]
    rfl
  rw [ids] at hids
  rw [kept]
  cases hparam : m.param with
  | none => exact List.nodup_nil
  | some param =>
    rw [hparam] at hids
    dsimp only
    split_ifs
    · exact List.nodup_nil
    · cases m.readAvailable ctx with
      | true =>
        rw [List.map_cons, hown]
        exact hids.sublist (haliases.cons_cons param)
      | false =>
        cases hopen : m.openAliases (some ctx) with
        | nil => exact List.nodup_nil
        | cons promoted aliases =>
          rw [hopen] at haliases
          rw [List.map_cons, hown]
          exact (List.nodup_append.mp hids).2.1.sublist haliases

/-- A member with its ids once that states its inversions is kept under each reported id with that
id's own. -/
theorem find?_kept {s : ℕ × Bool} (hs : s ∈ m.evidence ctx) (hparam : m.param.isSome)
    (hread : m.writeOnly = false) (havailable : m.available ctx = true) (hids : m.ids.Nodup)
    (hstated : m.StatesInversions) : (m.kept ctx).find? (fun t => t.1 = s.1) = some s := by
  obtain ⟨invert, hin, hown⟩ := mem_kept_of_evidence hs hparam hread havailable
  obtain rfl := hown hstated
  have hsome : ((m.kept ctx).find? fun t => t.1 = s.1).isSome :=
    List.find?_isSome.mpr ⟨s, hin, by simp⟩
  obtain ⟨t, ht⟩ := Option.isSome_iff_exists.mp hsome
  have hid : t.1 = s.1 := by simpa using List.find?_some ht
  rw [ht, List.inj_on_of_nodup_map (nodup_kept hids) (List.mem_of_find?_eq_some ht) hin hid]

/-- **The schema's walk and the table's**: the property of a member has just the ids that it is kept
under, with their inversions. -/
theorem sources_specOf (name : String) :
    ((m.specOf name (some ctx)).map PropertySpec.sources).getD [] = m.kept ctx := by
  rw [specOf, kept]
  cases m.param with
  | none => rfl
  | some param =>
    dsimp only [Option.all_some]
    split_ifs
    · rfl
    · cases m.readAvailable ctx with
      | true => simp [PropertySpec.sources, readAlias, ownAlias]
      | false =>
        cases m.openAliases (some ctx) with
        | nil => rfl
        | cons promoted aliases => simp [PropertySpec.sources, readAlias, ownAlias]

/-- What a property takes of its member, besides its ids. -/
theorem specOf_eq_some {name : String} {p : PropertySpec}
    (hp : m.specOf name (some ctx) = some p) :
    p.name = m.propertyName name ∧ p.type = m.type ∧ p.decode = m.coerce := by
  rw [specOf] at hp
  split at hp
  · cases hp
  · split_ifs at hp
    dsimp only at hp
    split at hp <;> cases hp <;> exact ⟨rfl, rfl, rfl⟩

variable (m)

/-- A raw value as the member reads it, with an inversion. -/
def coerceRaw (cv : Conversions) (raw : Scalar) (invert : Bool) : Json :=
  EufySdk.coerce cv { name := "", paramType := 0, type := m.type, decode := m.coerce } raw invert

/-- What a raw value under an id of the member stands for, with an inversion. -/
def decodedAs (cv : Conversions) (dict : ℕ → Option ParamDef) (invert : Bool) (pt : ℕ) (raw : ρ) :
    Json :=
  match (dict pt).bind ParamDef.encoding with
  | some encoding => decodeEncoded cv (WireValue.scalar raw) encoding
  | none => m.coerceRaw cv (WireValue.scalar raw) invert

end ValueMember

namespace Members

variable (members : Members) (dict : ℕ → Option ParamDef) (ctx : CommandContext)

/-- The schema of a device that is resolved with the table. -/
def schema : Schema := ⟨propertiesOf members (some ctx), dict⟩

/-- The first member kept under an id, with the inversion applied to it. -/
def keeper (pt : ℕ) : Option (String × ValueMember × Bool) :=
  members.findSome? fun e => ((e.2.kept ctx).find? fun s => s.1 = pt).map fun s => (e.1, e.2, s.2)

/-- The name that an id is filed under: the property of its member, else the dictionary's name. -/
def nameOf (pt : ℕ) : String :=
  match keeper members ctx pt, dict pt with
  | some (name, m, _), _ => m.propertyName name
  | none, some pd => pd.name
  | none, none => s!"unknown_{pt}"

/-- The value that a raw one is filed as. -/
def valueOf (cv : Conversions) (pt : ℕ) (raw : ρ) : Json :=
  match (dict pt).bind ParamDef.encoding with
  | some encoding => decodeEncoded cv (WireValue.scalar raw) encoding
  | none =>
    match keeper members ctx pt, dict pt with
    | some (_, m, invert), _ => m.coerceRaw cv (WireValue.scalar raw) invert
    | none, some pd => coerceByType cv pd.type (WireValue.scalar raw)
    | none, none => .str ((WireValue.scalar raw).text cv.numberToString)

/-- No id is one of two members. -/
def IdsApart : Prop :=
  ∀ e ∈ members, ∀ e' ∈ members, ∀ pt ∈ e.2.ids, pt ∈ e'.2.ids → e = e'

variable {members dict ctx}

@[simp]
theorem schema_paramDef (pt : ℕ) : (schema members dict ctx).paramDef pt = dict pt := rfl

variable (members dict ctx) in
/-- The schema reads an id by the property of the member that keeps it. -/
theorem specByParam_schema (pt : ℕ) :
    ((schema members dict ctx).specByParam pt = none ∧ keeper members ctx pt = none) ∨
      ∃ name m invert p, keeper members ctx pt = some (name, m, invert) ∧
        (schema members dict ctx).specByParam pt = some (p, invert) ∧
          m.specOf name (some ctx) = some p := by
  rw [Schema.specByParam_eq_findSome?, schema, propertiesOf, keeper, Lists.findSome?_filterMap]
  induction members with
  | nil => exact .inl ⟨rfl, rfl⟩
  | cons e rest ih =>
    rw [List.findSome?_cons, List.findSome?_cons, ← ValueMember.sources_specOf e.1]
    cases hspec : e.2.specOf e.1 (some ctx) with
    | none => exact ih
    | some p =>
      simp only [Option.bind_some, Option.map_some, Option.getD_some]
      cases p.sources.find? fun s => s.1 = pt with
      | none => exact ih
      | some s => exact .inr ⟨e.1, e.2, s.2, p, rfl, rfl, hspec⟩

theorem nameOf_schema (pt : ℕ) :
    (schema members dict ctx).nameOf pt = nameOf members dict ctx pt := by
  rw [Schema.nameOf, nameOf]
  obtain ⟨hspec, hkeeper⟩ | ⟨name, m, invert, p, hkeeper, hspec, hp⟩ :=
    specByParam_schema members dict ctx pt
  · rw [hspec, hkeeper, schema_paramDef]
    cases dict pt <;> rfl
  · rw [hspec, hkeeper]
    exact (ValueMember.specOf_eq_some hp).1

theorem valueOf_schema (cv : Conversions) (pt : ℕ) (raw : ρ) :
    (schema members dict ctx).valueOf cv pt raw = valueOf members dict ctx cv pt raw := by
  rw [Schema.valueOf, valueOf, schema_paramDef]
  obtain ⟨hspec, hkeeper⟩ | ⟨name, m, invert, p, hkeeper, hspec, hp⟩ :=
    specByParam_schema members dict ctx pt
  · rw [hspec, hkeeper]
    cases dict pt <;> rfl
  · obtain ⟨-, htype, hdecode⟩ := ValueMember.specOf_eq_some hp
    have hcoerce : coerce cv p (WireValue.scalar raw) invert =
        m.coerceRaw cv (WireValue.scalar raw) invert := by
      rw [ValueMember.coerceRaw, coerce, coerce, htype, hdecode]
    cases (dict pt).bind ParamDef.encoding <;> simp only [hspec, hkeeper, hcoerce]

/-- An id of a member that the member's property is kept under is kept by that member. -/
theorem keeper_eq (hapart : IdsApart members) {name : String} {m : ValueMember}
    (hmem : (name, m) ∈ members) {pt : ℕ} {invert : Bool}
    (hkept : (m.kept ctx).find? (fun s => s.1 = pt) = some (pt, invert)) :
    keeper members ctx pt = some (name, m, invert) := by
  refine Lists.findSome?_eq_of_unique (fun e he x hx => ?_) hmem (by rw [hkept]; rfl)
  obtain ⟨s, hs, rfl⟩ := Option.map_eq_some_iff.mp hx
  have hid : s.1 = pt := by simpa using List.find?_some hs
  obtain rfl := hapart _ hmem e he pt
    (ValueMember.mem_ids_of_kept (List.mem_of_find?_eq_some hkept))
    (hid ▸ ValueMember.mem_ids_of_kept (List.mem_of_find?_eq_some hs))
  rw [hkept] at hs
  obtain rfl := Option.some.inj hs
  rfl

/-! ### What an installed getter reads -/

variable (members dict ctx)

/-- No property is that of two members. -/
def NamesApart : Prop :=
  ∀ e ∈ members, ∀ e' ∈ members, e.2.propertyName e.1 = e'.2.propertyName e'.1 → e = e'

variable (cv : Conversions)

/-- The getter has a value to read once a map with the reported id is applied: there is a property of
the name it reads, and that holds what the id's raw value stands for in the id's own inversion. -/
def HoldsValue (m : ValueMember) (prop : String) (s : ℕ × Bool) (raw : ρ)
    (params : SortedMap ℕ ρ) : Prop :=
  (∃ p ∈ (schema members dict ctx).properties, p.name = prop) ∧
    ∀ d : Device, d.schema = schema members dict ctx →
      (d.applyParams cv params).1.read prop = some (m.decodedAs cv dict s.2 s.1 raw)

/-- Nothing stands in the way of the reported id: the greatest of the greater ids of the map that are
filed under the name carries the same value; and where there is none, the inversion that the id is
kept with gives the value that its own does. -/
def Undisturbed (m : ValueMember) (prop : String) (s : ℕ × Bool) (raw : ρ)
    (params : SortedMap ℕ ρ) : Prop :=
  match (params.entries.filter fun e => s.1 < e.1 && nameOf members dict ctx e.1 = prop).getLast? with
  | some later => valueOf members dict ctx cv later.1 later.2 = m.decodedAs cv dict s.2 s.1 raw
  | none => ∀ kept, (m.kept ctx).find? (fun t => t.1 = s.1) = some kept →
      m.decodedAs cv dict kept.2 s.1 raw = m.decodedAs cv dict s.2 s.1 raw

variable {members dict ctx cv}

omit [WireValue ρ] in
/-- An installed getter is of a member the device has, and reads its property. -/
theorem bindGetter_eq_some {name prop : String} {m : ValueMember}
    (hget : bindGetter members name m ctx = some prop) :
    prop = m.propertyName name ∧ m.available ctx = true ∧ m.writeOnly = false := by
  rw [bindGetter] at hget
  split_ifs at hget with hgate
  simp only [Bool.and_eq_true, Bool.not_eq_eq_eq_not, Bool.not_true] at hgate
  exact ⟨(Option.some.inj hget).symm, hgate.1.1.1, hgate.1.2⟩

variable (dict) in
/-- A member that is kept under an id contributes its property. -/
theorem exists_property {name : String} {m : ValueMember} (hmem : (name, m) ∈ members)
    (hkept : m.kept ctx ≠ []) :
    ∃ p ∈ (schema members dict ctx).properties, p.name = m.propertyName name := by
  rw [← ValueMember.sources_specOf name] at hkept
  cases hspec : m.specOf name (some ctx) with
  | none =>
    rw [hspec] at hkept
    exact absurd rfl hkept
  | some p =>
    exact ⟨p, List.mem_filterMap.mpr ⟨(name, m), hmem, hspec⟩,
      (ValueMember.specOf_eq_some hspec).1⟩

variable (cv) in
/-- A device reads what the greatest id filed under a name leaves. -/
theorem read_eq_later {params : SortedMap ℕ ρ} {pt : ℕ} {raw : ρ} (hraw : params.find? pt = some raw)
    {d : Device} (hd : d.schema = schema members dict ctx) :
    (d.applyParams cv params).1.read (nameOf members dict ctx pt) =
      some (((params.entries.filter fun e =>
        pt < e.1 && nameOf members dict ctx e.1 = nameOf members dict ctx pt).getLast?).elim
          (valueOf members dict ctx cv pt raw) fun e => valueOf members dict ctx cv e.1 e.2) := by
  have hlast := SortedMap.getLast?_filter (SortedMap.find?_eq_some_iff.mp hraw)
    (f := fun e => decide (nameOf members dict ctx e.1 = nameOf members dict ctx pt)) (by simp)
  rw [Device.read_applyParams, hd, Schema.fed]
  simp only [nameOf_schema, valueOf_schema]
  rw [hlast, Option.map_some, Option.some_or]
  cases (params.entries.filter fun e =>
    pt < e.1 && nameOf members dict ctx e.1 = nameOf members dict ctx pt).getLast? <;> rfl

/-- **When an installed getter reads what was reported**: the member declares a `param`, and nothing
stands in the way of the reported id. -/
theorem holdsValue_iff (hids : IdsApart members) (hnames : NamesApart members) {name prop : String}
    {m : ValueMember} (hmem : (name, m) ∈ members)
    (hget : bindGetter members name m ctx = some prop) {s : ℕ × Bool} (hs : s ∈ m.evidence ctx)
    {params : SortedMap ℕ ρ} {raw : ρ} (hraw : params.find? s.1 = some raw) :
    HoldsValue members dict ctx cv m prop s raw params ↔
      m.param.isSome = true ∧ Undisturbed members dict ctx cv m prop s raw params := by
  obtain ⟨hprop, havailable, hread⟩ := bindGetter_eq_some hget
  cases hparam : m.param with
  | none =>
    -- the property that the getter reads could only be of a member with its name
    refine ⟨fun h => ?_, fun h => absurd h.1 Bool.false_ne_true⟩
    obtain ⟨p, hp, hname⟩ := h.1
    obtain ⟨e, he, hspec⟩ := List.mem_filterMap.mp hp
    have hsame : e.2.propertyName e.1 = m.propertyName name := by
      rw [← (ValueMember.specOf_eq_some hspec).1, hname, hprop]
    obtain rfl := hnames e he (name, m) hmem hsame
    rw [ValueMember.specOf, hparam] at hspec
    cases hspec
  | some param =>
    obtain ⟨invert, hin, -⟩ :=
      ValueMember.mem_kept_of_evidence hs (by rw [hparam]; rfl) hread havailable
    have hsome : ((m.kept ctx).find? fun t => t.1 = s.1).isSome :=
      List.find?_isSome.mpr ⟨_, hin, by simp⟩
    obtain ⟨kept, hkept⟩ := Option.isSome_iff_exists.mp hsome
    have hid : kept.1 = s.1 := by simpa using List.find?_some hkept
    obtain ⟨pt, polarity⟩ := kept
    obtain rfl : pt = s.1 := hid
    have hkeeper := keeper_eq hids hmem hkept
    have hfiled : nameOf members dict ctx s.1 = prop := by
      rw [nameOf, hkeeper, hprop]
    have hvalue : valueOf members dict ctx cv s.1 raw = m.decodedAs cv dict polarity s.1 raw := by
      rw [valueOf, ValueMember.decodedAs, hkeeper]
    have hproperty := exists_property dict hmem (List.ne_nil_of_mem hin)
    rw [← hprop] at hproperty
    have hlater {d : Device} (hd : d.schema = schema members dict ctx) :=
      read_eq_later cv hraw hd
    rw [hfiled, hvalue] at hlater
    rw [HoldsValue, Undisturbed]
    generalize (params.entries.filter fun e =>
      s.1 < e.1 && nameOf members dict ctx e.1 = prop).getLast? = later at hlater ⊢
    refine ⟨fun h => ⟨rfl, ?_⟩, fun h => ⟨hproperty, fun d hd => (hlater hd).trans ?_⟩⟩
    · have hholds := Option.some.inj
        ((hlater rfl).symm.trans (h.2 ⟨schema members dict ctx, fun _ => none⟩ rfl))
      cases later with
      | some e => exact hholds
      | none =>
        rintro kept hfirst
        obtain rfl := Option.some.inj (hkept.symm.trans hfirst)
        exact hholds
    · cases later with
      | some e => exact congrArg some h.2
      | none => exact congrArg some (h.2 _ hkept)

/-- Nothing stands in the way of a reported id of a member that states its inversions, where no
greater id of the map is filed under the name. -/
theorem undisturbed_of_stated {m : ValueMember} {prop : String} {s : ℕ × Bool} {raw : ρ}
    {params : SortedMap ℕ ρ} (hs : s ∈ m.evidence ctx) (hparam : m.param.isSome)
    (hread : m.writeOnly = false) (havailable : m.available ctx = true) (hids : m.ids.Nodup)
    (hstated : m.StatesInversions)
    (halone : ∀ e ∈ params.entries, s.1 < e.1 → nameOf members dict ctx e.1 ≠ prop) :
    Undisturbed members dict ctx cv m prop s raw params := by
  have hkept := ValueMember.find?_kept hs hparam hread havailable hids hstated
  have hnone : (params.entries.filter fun e =>
      s.1 < e.1 && nameOf members dict ctx e.1 = prop) = [] := by
    refine List.filter_eq_nil_iff.mpr fun e he => ?_
    simpa using halone e he
  rw [Undisturbed, hnone]
  intro kept hfirst
  obtain rfl := Option.some.inj (hkept.symm.trans hfirst)
  rfl

end Members

/-! ### A switch with two ids -/

/-- A camera's power as its table declares it, on an inverted id and an alias that is not. -/
def power : ValueMember where
  param := some 1035
  type := .bool
  invert := some true
  readAliases := [{ paramType := 2001, invert := some false }]

def powerMembers : Members := [("enabled", power)]

/-- A camera that has reported the inverted id. -/
def powerReported : CommandContext := { codec := .camera, paramIds := {1035} }

def bothReported : RawParams := (SortedMap.single 1035 "0").insert 2001 "0"

theorem powerMembers_apart : Members.IdsApart powerMembers ∧ Members.NamesApart powerMembers := by
  have hsame : ∀ e ∈ powerMembers, ∀ e' ∈ powerMembers, e = e' := by
    intro e he e' he'
    rw [List.mem_singleton.mp he, List.mem_singleton.mp he']
  exact ⟨fun e he e' he' _ _ _ => hsame e he e' he', fun e he e' he' _ => hsame e he e' he'⟩

theorem alias_read_instead :
    ¬∀ (cv : Conversions) (dict : ℕ → Option ParamDef) (members : Members) (ctx : CommandContext)
      (name : String) (m : ValueMember) (prop : String) (s : ℕ × Bool) (params : RawParams)
      (raw : String), Members.IdsApart members → Members.NamesApart members → (name, m) ∈ members →
      m.readsFrom = none → bindGetter members name m ctx = some prop → s ∈ m.evidence ctx →
      params.find? s.1 = some raw → Members.HoldsValue members dict ctx cv m prop s raw params := by
  intro hclaim
  have hholds := hclaim Device.switchConversions (fun _ => none) powerMembers powerReported "enabled"
    power "enabled" (1035, true) bothReported "0" powerMembers_apart.1 powerMembers_apart.2
    (List.mem_singleton.mpr rfl) rfl (by decide) (by decide) (by decide)
  have hread := hholds.2 ⟨_, fun _ => none⟩ rfl
  exact absurd (congrArg (Option.map fun v => v.structuralEqual (.bool true)) hread) (by decide)

theorem holdsValue_iff_own :
    (1035, true) ∈ power.evidence powerReported ∧
      (Members.HoldsValue powerMembers (fun _ => none) powerReported Device.switchConversions power
          "enabled" (1035, true) "0" (SortedMap.single 1035 "0") ↔
        power.param.isSome = true ∧
          Members.Undisturbed powerMembers (fun _ => none) powerReported Device.switchConversions power
            "enabled" (1035, true) "0" (SortedMap.single 1035 "0")) :=
  ⟨by decide, Members.holdsValue_iff powerMembers_apart.1 powerMembers_apart.2
    (List.mem_singleton.mpr rfl) (by decide : bindGetter powerMembers "enabled" power powerReported = _)
    (by decide) rfl⟩

end EufySdk.Capabilities
