import Mathlib.Tactic
import EufySdk.Core.Json

/-!
# `structuralEqual`

The comparison of `core/util.ts` behind change detection on decoded param values.
-/

namespace EufySdk.Json

mutual

/-- `structuralEqual` on parsed values. Scalars are compared as `Object.is` does, except that
the sign of zero is not kept; of two references to one value the deep comparison says the same
as `Object.is`. -/
def structuralEqual : Json → Json → Bool
  | null, null => true
  | bool a, bool b => a == b
  | num a, num b => a == b
  | str a, str b => a == b
  | arr xs, arr ys => elemsEqual xs ys
  | obj fs, obj gs => fs.length == gs.length && fieldsEqual fs gs
  | _, _ => false
termination_by structural a => a

/-- Arrays: the length, then elementwise. -/
def elemsEqual : List Json → List Json → Bool
  | [], [] => true
  | x :: xs, y :: ys => structuralEqual x y && elemsEqual xs ys
  | _, _ => false
termination_by structural a => a

/-- Every key of the first object is one of the second, with an equal value. -/
def fieldsEqual : List (String × Json) → List (String × Json) → Bool
  | [], _ => true
  | f :: fs, gs => fieldEqual f gs && fieldsEqual fs gs
termination_by structural a => a

def fieldEqual : String × Json → List (String × Json) → Bool
  | (key, v), gs =>
    match gs.find? fun g => g.1 = key with
    | some g => structuralEqual v g.2
    | none => false
termination_by structural a => a

end

mutual

/-- No object in the value has a key twice. -/
def keysOnce : Json → Bool
  | arr elems => allKeysOnce elems
  | obj fields => decide (fields.map Prod.fst).Nodup && fieldsKeysOnce fields
  | _ => true

def allKeysOnce : List Json → Bool
  | [] => true
  | elem :: rest => elem.keysOnce && allKeysOnce rest

def fieldsKeysOnce : List (String × Json) → Bool
  | [] => true
  | (_, value) :: rest => value.keysOnce && fieldsKeysOnce rest

end

/-- Whether the value is neither an array nor an object. -/
def scalar : Json → Bool
  | arr _ | obj _ => false
  | _ => true

/-- A value that compares equal to a scalar is that scalar. -/
theorem eq_of_structuralEqual {a b : Json} (h : structuralEqual a b = true)
    (hscalar : a.scalar = true ∨ b.scalar = true) : a = b := by
  cases a <;> cases b <;> simp_all [structuralEqual, scalar]

theorem fieldEqual_iff {f : String × Json} {gs : List (String × Json)} :
    fieldEqual f gs = true ↔
      ∃ g, (gs.find? fun g => g.1 = f.1) = some g ∧ structuralEqual f.2 g.2 = true := by
  obtain ⟨key, v⟩ := f
  rw [fieldEqual]
  cases gs.find? fun g => g.1 = key with
  | none => simp
  | some g => simp

theorem fieldsEqual_iff {fs gs : List (String × Json)} :
    fieldsEqual fs gs = true ↔ ∀ f ∈ fs, fieldEqual f gs = true := by
  induction fs with
  | nil => simp [fieldsEqual]
  | cons f fs ih => rw [fieldsEqual, Bool.and_eq_true, ih, List.forall_mem_cons]

mutual

/-- A value without a key twice compares equal to itself. -/
theorem structuralEqual_refl : ∀ j : Json, j.keysOnce = true → j.structuralEqual j = true
  | null, _ => rfl
  | bool _, _ => beq_self_eq_true _
  | num _, _ => beq_self_eq_true _
  | str _, _ => beq_self_eq_true _
  | arr elems, h => elemsEqual_refl elems h
  | obj fields, h => by
    rw [keysOnce, Bool.and_eq_true, decide_eq_true_eq] at h
    rw [structuralEqual, beq_self_eq_true, Bool.true_and]
    exact fieldsEqual_refl fields fields (fun _ hf => hf) h.1 h.2

theorem elemsEqual_refl : ∀ elems : List Json, allKeysOnce elems = true →
    elemsEqual elems elems = true
  | [], _ => rfl
  | elem :: rest, h => by
    rw [allKeysOnce, Bool.and_eq_true] at h
    rw [elemsEqual, structuralEqual_refl elem h.1, elemsEqual_refl rest h.2]
    rfl

theorem fieldsEqual_refl : ∀ fs gs : List (String × Json), fs ⊆ gs → (gs.map Prod.fst).Nodup →
    fieldsKeysOnce fs = true → fieldsEqual fs gs = true
  | [], _, _, _, _ => rfl
  | (key, v) :: rest, gs, hsub, hnodup, h => by
    rw [fieldsKeysOnce, Bool.and_eq_true] at h
    have hmem : (key, v) ∈ gs := hsub List.mem_cons_self
    have hfind : (gs.find? fun g => g.1 = key) = some (key, v) := by
      have hsome : (gs.find? fun g => g.1 = key).isSome :=
        List.find?_isSome.mpr ⟨(key, v), hmem, decide_eq_true rfl⟩
      obtain ⟨g, hg⟩ := Option.isSome_iff_exists.mp hsome
      have hkey : g.1 = key := by simpa using List.find?_some hg
      rw [hg, List.inj_on_of_nodup_map hnodup (List.mem_of_find?_eq_some hg) hmem hkey]
    rw [fieldsEqual, fieldEqual_iff.mpr ⟨_, hfind, structuralEqual_refl v h.1⟩, Bool.true_and]
    exact fieldsEqual_refl rest gs (List.subset_of_cons_subset hsub) hnodup h.2

end

mutual

/-- The comparison is transitive, whatever the values. -/
theorem structuralEqual_trans : ∀ {a b c : Json}, a.structuralEqual b = true →
    b.structuralEqual c = true → a.structuralEqual c = true
  | arr xs, arr ys, arr zs, h, h' => elemsEqual_trans h h'
  | obj fs, obj gs, obj hs, h, h' => by
    rw [structuralEqual, Bool.and_eq_true, beq_iff_eq] at *
    refine ⟨h.1.trans h'.1, fieldsEqual_trans h.2 h'.2⟩
  | null, b, c, h, h' => by rwa [eq_of_structuralEqual h (.inl rfl)]
  | bool _, b, c, h, h' => by rwa [eq_of_structuralEqual h (.inl rfl)]
  | num _, b, c, h, h' => by rwa [eq_of_structuralEqual h (.inl rfl)]
  | str _, b, c, h, h' => by rwa [eq_of_structuralEqual h (.inl rfl)]

theorem elemsEqual_trans : ∀ {xs ys zs : List Json}, elemsEqual xs ys = true →
    elemsEqual ys zs = true → elemsEqual xs zs = true
  | [], [], [], _, _ => rfl
  | x :: xs, y :: ys, z :: zs, h, h' => by
    rw [elemsEqual, Bool.and_eq_true] at *
    exact ⟨structuralEqual_trans h.1 h'.1, elemsEqual_trans h.2 h'.2⟩

theorem fieldsEqual_trans : ∀ {fs gs hs : List (String × Json)}, fieldsEqual fs gs = true →
    fieldsEqual gs hs = true → fieldsEqual fs hs = true
  | [], _, _, _, _ => rfl
  | (key, v) :: rest, gs, hs, h, h' => by
    rw [fieldsEqual, Bool.and_eq_true] at *
    obtain ⟨g, hg, hvalue⟩ := fieldEqual_iff.mp h.1
    have hkey : g.1 = key := by simpa using List.find?_some hg
    obtain ⟨e, he, hvalue'⟩ := fieldEqual_iff.mp
      (fieldsEqual_iff.mp h' g (List.mem_of_find?_eq_some hg))
    rw [hkey] at he
    exact ⟨fieldEqual_iff.mpr ⟨e, he, structuralEqual_trans hvalue hvalue'⟩,
      fieldsEqual_trans h.2 h'⟩

end

end EufySdk.Json
