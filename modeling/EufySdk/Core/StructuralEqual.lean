import Mathlib.Tactic
import Mathlib.Data.String.Basic
import EufySdk.Core.Scalar
import EufySdk.Core.Util
import EufySdk.Lib.OrderedMap

/-!
# `structuralEqual` and canonical forms

`structuralEqual` of `core/util.ts` on all trees of plain values: with `undefined`, with every
number, and with the references behind which arrays and objects are held. The comparison is that of
canonical forms, which have neither references nor an order of keys.

- `JsValue.structuralEqual` — the comparison
- `JsTree` — a tree of the heap, each key of an object there once
- `JsValue.canonical` — the canonical form
- `structuralEqual_json` — on what JSON can hold, the comparison of `Core.Util`
-/

namespace EufySdk

/-- A number with its sign. -/
inductive JsDouble
  | number (n : JsNumber)
  | negativeZero
  deriving DecidableEq, Repr

inductive JsValue
  | undefined
  | null
  | bool (b : Bool)
  | num (n : JsDouble)
  | str (s : String)
  | arr (ref : ℕ) (elems : List JsValue)
  | obj (ref : ℕ) (fields : List (String × JsValue))

namespace JsValue

/-- `Object.is`: arrays and objects by their references. -/
def objectIs : JsValue → JsValue → Bool
  | undefined, undefined => true
  | null, null => true
  | bool a, bool b => a == b
  | num a, num b => a == b
  | str a, str b => a == b
  | arr ref _, arr ref' _ => ref == ref'
  | obj ref _, obj ref' _ => ref == ref'
  | _, _ => false

mutual

def structuralEqual : JsValue → JsValue → Bool
  | a, b =>
    objectIs a b ||
      match a, b with
      | arr _ xs, arr _ ys => xs.length == ys.length && elemsEqual xs ys
      | obj _ fs, obj _ gs => fs.length == gs.length && fieldsEqual fs gs
      | _, _ => false
termination_by structural a => a

/-- The loop over two arrays of one length. -/
def elemsEqual : List JsValue → List JsValue → Bool
  | x :: xs, y :: ys => structuralEqual x y && elemsEqual xs ys
  | _, _ => true
termination_by structural a => a

/-- The loop over the keys of the first object. -/
def fieldsEqual : List (String × JsValue) → List (String × JsValue) → Bool
  | [], _ => true
  | f :: fs, gs => fieldEqual f gs && fieldsEqual fs gs
termination_by structural a => a

def fieldEqual : String × JsValue → List (String × JsValue) → Bool
  | (key, v), gs =>
    match OrderedMap.get gs key with
    | some w => structuralEqual v w
    | none => false
termination_by structural a => a

end

mutual

/-- A tree of the heap: a reference holds one value, and an object each of its keys once. -/
def Held (heap : ℕ → JsValue) : JsValue → Prop
  | arr ref elems => heap ref = arr ref elems ∧ HeldElems heap elems
  | obj ref fields =>
    heap ref = obj ref fields ∧ (fields.map Prod.fst).Nodup ∧ HeldFields heap fields
  | _ => True

def HeldElems (heap : ℕ → JsValue) : List JsValue → Prop
  | [] => True
  | elem :: rest => elem.Held heap ∧ HeldElems heap rest

def HeldFields (heap : ℕ → JsValue) : List (String × JsValue) → Prop
  | [] => True
  | (_, value) :: rest => value.Held heap ∧ HeldFields heap rest

end

end JsValue

/-- A tree of plain values in a heap. -/
structure JsTree (heap : ℕ → JsValue) where
  value : JsValue
  held : value.Held heap

/-- Values without references; the entries of an object are in key order. -/
inductive Canonical
  | undefined
  | null
  | bool (b : Bool)
  | num (n : JsDouble)
  | str (s : String)
  | arr (elems : List Canonical)
  | obj (fields : List (String × Canonical))

namespace JsValue

mutual

def canonical : JsValue → Canonical
  | undefined => .undefined
  | null => .null
  | bool b => .bool b
  | num n => .num n
  | str s => .str s
  | arr _ elems => .arr (canonicalElems elems)
  | obj _ fields => .obj (OrderedMap.sortKeys (canonicalFields fields))

def canonicalElems : List JsValue → List Canonical
  | [] => []
  | elem :: rest => elem.canonical :: canonicalElems rest

def canonicalFields : List (String × JsValue) → List (String × Canonical)
  | [] => []
  | (key, value) :: rest => (key, value.canonical) :: canonicalFields rest

end

theorem canonicalFields_eq_map (fields : List (String × JsValue)) :
    canonicalFields fields = fields.map fun f => (f.1, f.2.canonical) := by
  induction fields with
  | nil => rfl
  | cons f rest ih => rw [canonicalFields, ih, List.map_cons]

theorem keys_canonicalFields (fields : List (String × JsValue)) :
    (canonicalFields fields).map Prod.fst = fields.map Prod.fst := by
  rw [canonicalFields_eq_map, List.map_map]
  rfl

variable {heap : ℕ → JsValue}

theorem held_of_mem {fields : List (String × JsValue)} (h : HeldFields heap fields)
    {f : String × JsValue} (hf : f ∈ fields) : f.2.Held heap := by
  induction fields with
  | nil => cases hf
  | cons g rest ih =>
    rcases List.mem_cons.mp hf with rfl | hrest
    · exact h.1
    · exact ih h.2 hrest

/-- The entries of two objects without a key twice are the same, in any order, exactly when there
are as many of both and every key of the first is one of the second, with the same value. -/
theorem canonical_obj_iff (ref ref' : ℕ) {fs gs : List (String × JsValue)}
    (hfs : (fs.map Prod.fst).Nodup) (hgs : (gs.map Prod.fst).Nodup) :
    (obj ref fs).canonical = (obj ref' gs).canonical ↔
      fs.length = gs.length ∧
        ∀ f ∈ fs, (OrderedMap.get gs f.1).map canonical = some f.2.canonical := by
  have hfs' : ((canonicalFields fs).map Prod.fst).Nodup := by rwa [keys_canonicalFields]
  have hgs' : ((canonicalFields gs).map Prod.fst).Nodup := by rwa [keys_canonicalFields]
  rw [canonical, canonical, Canonical.obj.injEq, OrderedMap.sortKeys_eq_iff hfs',
    OrderedMap.perm_iff_get hfs' hgs']
  simp only [canonicalFields_eq_map, List.length_map, List.forall_mem_map, OrderedMap.get_map_snd]

/-- A reference holds one value. -/
theorem eq_of_ref_arr {ref : ℕ} {xs ys : List JsValue} (hx : (arr ref xs).Held heap)
    (hy : (arr ref ys).Held heap) : xs = ys := by
  have h := hx.1.symm.trans hy.1
  rwa [arr.injEq, eq_self, true_and] at h

theorem eq_of_ref_obj {ref : ℕ} {fs gs : List (String × JsValue)} (hf : (obj ref fs).Held heap)
    (hg : (obj ref gs).Held heap) : fs = gs := by
  have h := hf.1.symm.trans hg.1
  rwa [obj.injEq, eq_self, true_and] at h

mutual

/-- **The comparison is that of canonical forms.** -/
theorem structuralEqual_iff : ∀ {a b : JsValue}, a.Held heap → b.Held heap →
    (a.structuralEqual b = true ↔ a.canonical = b.canonical)
  | undefined, b, _, _ | null, b, _, _ | bool _, b, _, _ | num _, b, _, _ | str _, b, _, _ => by
    cases b <;> simp [structuralEqual, objectIs, canonical]
  | arr ref xs, b, ha, hb => by
    cases b with
    | arr ref' ys =>
      have helems := elemsEqual_iff ha.2 hb.2
      rw [structuralEqual, objectIs, canonical, canonical, Canonical.arr.injEq, Bool.or_eq_true,
        beq_iff_eq, Bool.and_eq_true, beq_iff_eq, helems]
      refine ⟨?_, .inr⟩
      rintro (rfl | h)
      · rw [eq_of_ref_arr ha hb]
      · exact h
    | _ => simp [structuralEqual, objectIs, canonical]
  | obj ref fs, b, ha, hb => by
    cases b with
    | obj ref' gs =>
      have hfields := fieldsEqual_iff ha.2.2 hb.2.2
      rw [structuralEqual, objectIs, Bool.or_eq_true, beq_iff_eq, Bool.and_eq_true, beq_iff_eq,
        hfields]
      rw [← canonical_obj_iff ref ref' ha.2.1 hb.2.1]
      refine ⟨?_, .inr⟩
      rintro (rfl | h)
      · rw [eq_of_ref_obj ha hb]
      · exact h
    | _ => simp [structuralEqual, objectIs, canonical]

theorem elemsEqual_iff : ∀ {xs ys : List JsValue}, HeldElems heap xs → HeldElems heap ys →
    (xs.length = ys.length ∧ elemsEqual xs ys = true ↔ canonicalElems xs = canonicalElems ys)
  | [], [], _, _ => by simp [elemsEqual, canonicalElems]
  | [], _ :: _, _, _ => by simp [canonicalElems]
  | _ :: _, [], _, _ => by simp [canonicalElems]
  | x :: xs, y :: ys, hx, hy => by
    have hhead := structuralEqual_iff hx.1 hy.1
    have htail := elemsEqual_iff hx.2 hy.2
    rw [elemsEqual, canonicalElems, canonicalElems, List.cons.injEq, ← hhead, ← htail,
      List.length_cons, List.length_cons, Nat.add_right_cancel_iff, Bool.and_eq_true]
    exact and_left_comm

theorem fieldsEqual_iff : ∀ {fs gs : List (String × JsValue)}, HeldFields heap fs →
    HeldFields heap gs → (fieldsEqual fs gs = true ↔
      ∀ f ∈ fs, (OrderedMap.get gs f.1).map canonical = some f.2.canonical)
  | [], _, _, _ => by simp [fieldsEqual]
  | (key, v) :: fs, gs, hf, hg => by
    have hrest := fieldsEqual_iff hf.2 hg
    rw [fieldsEqual, Bool.and_eq_true, hrest, List.forall_mem_cons, fieldEqual]
    refine and_congr_left fun _ => ?_
    cases hget : OrderedMap.get gs key with
    | none => simp
    | some w =>
      have hw : w.Held heap := held_of_mem hg (OrderedMap.mem_of_get hget)
      rw [Option.map_some, Option.some_inj]
      exact (structuralEqual_iff hf.1 hw).trans eq_comm

end

/-- The same entries in another order compare equal. -/
theorem structuralEqual_of_perm {ref ref' : ℕ} {fs gs : List (String × JsValue)}
    (ha : (obj ref fs).Held heap) (hb : (obj ref' gs).Held heap) (h : fs.Perm gs) :
    (obj ref fs).structuralEqual (obj ref' gs) = true := by
  rw [structuralEqual_iff ha hb, canonical_obj_iff ref ref' ha.2.1 hb.2.1]
  refine ⟨h.length_eq, fun f hf => ?_⟩
  rw [OrderedMap.get_of_mem hb.2.1 (h.subset hf), Option.map_some]

/-- Objects that compare equal have the same keys, those with `undefined` behind them included. -/
theorem mem_keys_iff {ref ref' : ℕ} {fs gs : List (String × JsValue)}
    (ha : (obj ref fs).Held heap) (hb : (obj ref' gs).Held heap)
    (h : (obj ref fs).structuralEqual (obj ref' gs) = true) (key : String) :
    key ∈ fs.map Prod.fst ↔ key ∈ gs.map Prod.fst := by
  rw [structuralEqual_iff ha hb, canonical, canonical, Canonical.obj.injEq,
    OrderedMap.sortKeys_eq_iff (by rw [keys_canonicalFields]; exact ha.2.1)] at h
  rw [← keys_canonicalFields fs, ← keys_canonicalFields gs]
  exact (h.map Prod.fst).mem_iff

/-! ## What JSON can hold -/

/-- That two references are one decides nothing the walk over the elements does not. -/
theorem structuralEqual_arr {ref ref' : ℕ} {xs ys : List JsValue} (ha : (arr ref xs).Held heap)
    (hb : (arr ref' ys).Held heap) :
    (arr ref xs).structuralEqual (arr ref' ys) =
      (xs.length == ys.length && elemsEqual xs ys) := by
  rw [Bool.eq_iff_iff, structuralEqual_iff ha hb, canonical, canonical, Canonical.arr.injEq,
    ← elemsEqual_iff ha.2 hb.2, Bool.and_eq_true, beq_iff_eq]

theorem structuralEqual_obj {ref ref' : ℕ} {fs gs : List (String × JsValue)}
    (ha : (obj ref fs).Held heap) (hb : (obj ref' gs).Held heap) :
    (obj ref fs).structuralEqual (obj ref' gs) =
      (fs.length == gs.length && fieldsEqual fs gs) := by
  rw [Bool.eq_iff_iff, structuralEqual_iff ha hb, canonical_obj_iff ref ref' ha.2.1 hb.2.1,
    ← fieldsEqual_iff ha.2.2 hb.2.2, Bool.and_eq_true, beq_iff_eq]

mutual

/-- A value that JSON can hold, but for the sign of zero. -/
def plain : JsValue → Bool
  | undefined => false
  | num (.number (.finite _)) => true
  | num _ => false
  | arr _ elems => plainElems elems
  | obj _ fields => plainFields fields
  | _ => true

def plainElems : List JsValue → Bool
  | [] => true
  | elem :: rest => elem.plain && plainElems rest

def plainFields : List (String × JsValue) → Bool
  | [] => true
  | (_, value) :: rest => value.plain && plainFields rest

end

mutual

/-- The parsed value; what JSON cannot hold is `null`. -/
def json : JsValue → Json
  | undefined => .null
  | null => .null
  | bool b => .bool b
  | num (.number (.finite q)) => .num q
  | num _ => .null
  | str s => .str s
  | arr _ elems => .arr (jsonElems elems)
  | obj _ fields => .obj (jsonFields fields)

def jsonElems : List JsValue → List Json
  | [] => []
  | elem :: rest => elem.json :: jsonElems rest

def jsonFields : List (String × JsValue) → List (String × Json)
  | [] => []
  | (key, value) :: rest => (key, value.json) :: jsonFields rest

end

theorem length_jsonFields (fields : List (String × JsValue)) :
    (jsonFields fields).length = fields.length := by
  induction fields with
  | nil => rfl
  | cons f rest ih => rw [jsonFields, List.length_cons, List.length_cons, ih]

theorem find?_jsonFields (fields : List (String × JsValue)) (key : String) :
    (jsonFields fields).find? (fun g => g.1 = key) =
      (OrderedMap.get fields key).map fun v => (key, v.json) := by
  induction fields with
  | nil => rfl
  | cons f rest ih =>
    obtain ⟨k, v⟩ := f
    rw [jsonFields, OrderedMap.get]
    by_cases hkey : k = key
    · rw [if_pos hkey, List.find?_cons, decide_eq_true hkey, hkey, Option.map_some]
    · rw [if_neg hkey, List.find?_cons, decide_eq_false hkey, ih]

theorem plain_of_mem {fields : List (String × JsValue)} (h : plainFields fields = true)
    {f : String × JsValue} (hf : f ∈ fields) : f.2.plain = true := by
  induction fields with
  | nil => cases hf
  | cons g rest ih =>
    rw [plainFields, Bool.and_eq_true] at h
    rcases List.mem_cons.mp hf with rfl | hrest
    · exact h.1
    · exact ih h.2 hrest

mutual

/-- On what JSON can hold the comparison is the one on parsed values. -/
theorem structuralEqual_json : ∀ {a b : JsValue}, a.Held heap → b.Held heap → a.plain = true →
    b.plain = true → a.structuralEqual b = a.json.structuralEqual b.json
  | null, b, _, _, _, hb | bool _, b, _, _, _, hb | num (.number (.finite _)), b, _, _, _, hb
  | str _, b, _, _, _, hb => by
    cases b with
    | num n =>
      rcases n with (_ | _ | _) | _ <;>
        simp [structuralEqual, objectIs, json, plain, Json.structuralEqual] at hb ⊢
    | _ => simp [structuralEqual, objectIs, json, plain, Json.structuralEqual] at hb ⊢
  | arr ref xs, b, ha, hb, hpa, hpb => by
    cases b with
    | arr ref' ys =>
      rw [structuralEqual_arr ha hb, json, json, Json.structuralEqual]
      exact elemsEqual_json ha.2 hb.2 hpa hpb
    | num n => rcases n with (_ | _ | _) | _ <;> rfl
    | _ => rfl
  | obj ref fs, b, ha, hb, hpa, hpb => by
    cases b with
    | obj ref' gs =>
      rw [structuralEqual_obj ha hb, json, json, Json.structuralEqual, length_jsonFields,
        length_jsonFields, fieldsEqual_json ha.2.2 hb.2.2 hpa hpb]
    | num n => rcases n with (_ | _ | _) | _ <;> rfl
    | _ => rfl

theorem elemsEqual_json : ∀ {xs ys : List JsValue}, HeldElems heap xs → HeldElems heap ys →
    plainElems xs = true → plainElems ys = true →
    (xs.length == ys.length && elemsEqual xs ys) = Json.elemsEqual (jsonElems xs) (jsonElems ys)
  | [], [], _, _, _, _ => rfl
  | [], _ :: _, _, _, _, _ => rfl
  | _ :: _, [], _, _, _, _ => rfl
  | x :: xs, y :: ys, hx, hy, hpx, hpy => by
    rw [plainElems, Bool.and_eq_true] at hpx hpy
    have hhead := structuralEqual_json hx.1 hy.1 hpx.1 hpy.1
    have htail := elemsEqual_json hx.2 hy.2 hpx.2 hpy.2
    rw [elemsEqual, jsonElems, jsonElems, Json.elemsEqual, ← hhead, ← htail, List.length_cons,
      List.length_cons, Bool.and_left_comm]
    simp only [Nat.add_right_cancel_iff, beq_eq_decide]

theorem fieldsEqual_json : ∀ {fs gs : List (String × JsValue)}, HeldFields heap fs →
    HeldFields heap gs → plainFields fs = true → plainFields gs = true →
    fieldsEqual fs gs = Json.fieldsEqual (jsonFields fs) (jsonFields gs)
  | [], _, _, _, _, _ => rfl
  | (key, v) :: fs, gs, hf, hg, hpf, hpg => by
    rw [plainFields, Bool.and_eq_true] at hpf
    have hrest := fieldsEqual_json hf.2 hg hpf.2 hpg
    rw [fieldsEqual, jsonFields, Json.fieldsEqual, hrest, fieldEqual, Json.fieldEqual,
      find?_jsonFields]
    cases hget : OrderedMap.get gs key with
    | none => rfl
    | some w =>
      have hmem := OrderedMap.mem_of_get hget
      have hvalue := structuralEqual_json hf.1 (held_of_mem hg hmem) hpf.1 (plain_of_mem hpg hmem)
      dsimp only [Option.map_some]
      rw [hvalue]

end

end JsValue

namespace JsTree

open JsValue

/-- **Change detection**: on the trees of a heap the comparison is an equivalence and that of
canonical forms. The order of keys makes no difference to it, and a missing key does. -/
theorem structuralEqual_equivalence (heap : ℕ → JsValue) :
    (Equivalence fun a b : JsTree heap => a.value.structuralEqual b.value = true) ∧
      (∀ a b : JsTree heap,
        a.value.structuralEqual b.value = true ↔ a.value.canonical = b.value.canonical) ∧
      ∀ (a b : JsTree heap) (ref ref' : ℕ) (fs gs : List (String × JsValue)),
        a.value = obj ref fs → b.value = obj ref' gs →
          (fs.Perm gs → a.value.structuralEqual b.value = true) ∧
          ∀ key, ¬(key ∈ fs.map Prod.fst ↔ key ∈ gs.map Prod.fst) →
            a.value.structuralEqual b.value = false := by
  have hiff (a b : JsTree heap) :
      a.value.structuralEqual b.value = true ↔ a.value.canonical = b.value.canonical :=
    structuralEqual_iff a.held b.held
  refine ⟨⟨fun a => ?_, fun {a b} h => ?_, fun {a b c} h h' => ?_⟩, hiff, ?_⟩
  · exact (hiff a a).mpr rfl
  · exact (hiff b a).mpr ((hiff a b).mp h).symm
  · exact (hiff a c).mpr (((hiff a b).mp h).trans ((hiff b c).mp h'))
  · intro a b ref ref' fs gs ha hb
    have haheld := ha ▸ a.held
    have hbheld := hb ▸ b.held
    rw [ha, hb]
    constructor
    · exact structuralEqual_of_perm haheld hbheld
    · intro key hkey
      rw [Bool.eq_false_iff]
      exact fun h => hkey (mem_keys_iff haheld hbheld h key)

/-- Two objects with the same entries in another order, and one without the second of them. -/
def sampleHeap : ℕ → JsValue
  | 0 => obj 0 [("b", undefined), ("a", num (.number .nan))]
  | 1 => obj 1 [("a", num (.number .nan)), ("b", undefined)]
  | 2 => obj 2 [("a", num (.number .nan))]
  | _ => null

theorem structuralEqual_equivalence_sample :
    (sampleHeap 0).structuralEqual (sampleHeap 1) = true ∧
      (sampleHeap 1).structuralEqual (sampleHeap 2) = false := by
  obtain ⟨-, -, hobj⟩ := structuralEqual_equivalence sampleHeap
  have hheld : ∀ ref < 3, (sampleHeap ref).Held sampleHeap
    | 0, _ => ⟨rfl, by decide, trivial, trivial, trivial⟩
    | 1, _ => ⟨rfl, by decide, trivial, trivial, trivial⟩
    | 2, _ => ⟨rfl, by decide, trivial, trivial⟩
  let tree (ref : ℕ) (h : ref < 3) : JsTree sampleHeap := ⟨sampleHeap ref, hheld ref h⟩
  exact ⟨(hobj (tree 0 (by decide)) (tree 1 (by decide)) 0 1 _ _ rfl rfl).1 (List.Perm.swap _ _ _),
    (hobj (tree 1 (by decide)) (tree 2 (by decide)) 1 2 _ _ rfl rfl).2 "b" (by decide)⟩

end JsTree

end EufySdk
