import Mathlib.Tactic
import EufySdk.Transport.P2p.Annexb

/-!
# Splitting a byte stream into NAL units

`splitAnnexbNals` of `transport/p2p/annexb.ts` over the byte stream format: NAL units, each behind a
start code with any number of zeros ahead of it. The scan meets every unit where it begins, twice
where a zero is ahead of its code, and each unit ends at the start code of the next.

- `IsNal` — the bytes a stream can carry as a unit
- `frameNals` — units in the byte stream format
- `splitAnnexbNals_frame` — what the split finds of them
- `serialize`, `split_serialize` — units behind start codes of three or four bytes
-/

namespace EufySdk

open Bytes

/-- A NAL unit as a byte stream can carry it: no start code within, no zero at its end. -/
structure IsNal (bytes : Buffer) : Prop where
  ne_nil : bytes ≠ []
  no_start_code : ¬[0, 0, 1] <:+: bytes
  getLast?_ne : bytes.getLast? ≠ some 0

instance (bytes : Buffer) : Decidable (IsNal bytes) :=
  decidable_of_iff (bytes ≠ [] ∧ ¬[0, 0, 1] <:+: bytes ∧ bytes.getLast? ≠ some 0)
    ⟨fun h => ⟨h.1, h.2.1, h.2.2⟩, fun h => ⟨h.1, h.2, h.3⟩⟩

abbrev Nal := {bytes : Buffer // IsNal bytes}

/-- NAL units in the byte stream format, each with the number of zeros ahead of its start code. -/
def frameNals : List (ℕ × Nal) → Buffer
  | [] => []
  | (zeros, nal) :: nals => List.replicate zeros 0 ++ ([0, 0, 1] ++ (nal.1 ++ frameNals nals))

/-- What the scan finds: a start with a zero ahead of its code is found twice. -/
def framedStarts (i : ℕ) : List (ℕ × Nal) → List ℕ
  | [] => []
  | (zeros, nal) :: nals =>
    List.replicate (if zeros = 0 then 1 else 2) (i + zeros + 3) ++
      framedStarts (i + zeros + 3 + nal.1.length) nals

/-- The units as they are split: each with the zeros behind it, but for the one that the start code
of the next unit takes. -/
def framedBodies (trailing : ℕ) : List (ℕ × Nal) → List Buffer
  | [] => []
  | [(_, nal)] => [nal.1 ++ List.replicate trailing 0]
  | (_, nal) :: (zeros, next) :: nals =>
    (nal.1 ++ List.replicate (zeros - 1) 0) :: framedBodies trailing ((zeros, next) :: nals)

/-! ### The scan -/

/-- A byte that no start code begins at is passed over. -/
theorem nalStartsFrom_skip {i : ℕ} {b : UInt8} {l : Buffer}
    (h : b = 0 → ¬[0, 1] <+: l ∧ ¬[0, 0, 1] <+: l) :
    nalStartsFrom i (b :: l) = nalStartsFrom (i + 1) l := by
  match l with
  | [] | [_] | [_, _] => rfl
  | b₁ :: b₂ :: b₃ :: rest =>
    rw [nalStartsFrom, if_neg, if_neg]
    · rintro ⟨-, rfl, rfl, rfl, rfl⟩
      exact (h rfl).2 ⟨rest, rfl⟩
    · rintro ⟨rfl, rfl, rfl⟩
      exact (h rfl).1 ⟨b₃ :: rest, rfl⟩

/-- A code that reaches beyond a run ends beyond it: the run would end with a zero. -/
theorem code_within {bytes tail : Buffer} {zeros : ℕ} (hne : bytes ≠ [])
    (hlast : bytes.getLast? ≠ some 0)
    (h : List.replicate zeros 0 ++ [1] <+: bytes ++ tail) :
    List.replicate zeros 0 ++ [1] <+: bytes := by
  rcases List.prefix_or_prefix_of_prefix h (List.prefix_append bytes tail) with hcode | hrun
  · exact hcode
  · rcases List.prefix_concat_iff.mp hrun with rfl | hzeros
    · exact List.prefix_rfl
    · have hmem := hzeros.subset (List.getLast_mem hne)
      rw [List.getLast?_eq_some_getLast hne, List.eq_of_mem_replicate hmem] at hlast
      exact absurd rfl hlast

/-- A run without a start code, a nonzero byte at its end, is passed over. -/
theorem nalStartsFrom_append (i : ℕ) {bytes : Buffer} (tail : Buffer)
    (hfree : ¬[0, 0, 1] <:+: bytes) (hlast : bytes.getLast? ≠ some 0) :
    nalStartsFrom i (bytes ++ tail) = nalStartsFrom (i + bytes.length) tail := by
  induction bytes generalizing i with
  | nil => rfl
  | cons b bytes ih =>
    rw [List.cons_append, List.length_cons, show i + (bytes.length + 1) = i + 1 + bytes.length by omega]
    by_cases hne : bytes = []
    · subst hne
      exact nalStartsFrom_skip fun hzero => absurd (congrArg some hzero) hlast
    · have hend : bytes.getLast? ≠ some 0 := by
        rwa [List.getLast?_cons_of_ne_nil hne] at hlast
      have hrest : ¬[0, 0, 1] <:+: bytes := fun h => hfree (List.infix_cons h)
      rw [nalStartsFrom_skip, ih (i + 1) hrest hend]
      rintro rfl
      constructor
      · intro hcode
        have hwithin : List.replicate 1 0 ++ [1] <+: bytes := code_within hne hend hcode
        exact hfree ((List.prefix_cons_inj 0).mpr hwithin).isInfix
      · intro hcode
        have hwithin : List.replicate 2 0 ++ [1] <+: bytes := code_within hne hend hcode
        exact hfree (List.infix_cons hwithin.isInfix)

/-- The scan at a start code and the zeros ahead of it. -/
theorem nalStartsFrom_code (i zeros : ℕ) (nal : Nal) (tail : Buffer) :
    nalStartsFrom i (List.replicate zeros 0 ++ ([0, 0, 1] ++ (nal.1 ++ tail))) =
      List.replicate (if zeros = 0 then 1 else 2) (i + zeros + 3) ++
        nalStartsFrom (i + zeros + 3 + nal.1.length) tail := by
  induction zeros generalizing i with
  | zero =>
    have hnal := nalStartsFrom_append (i + 3) tail nal.2.no_start_code nal.2.getLast?_ne
    obtain ⟨b, rest, hbytes⟩ := List.exists_cons_of_ne_nil nal.2.ne_nil
    rw [← hnal, hbytes]
    have hskip : nalStartsFrom (i + 1) (0 :: 1 :: b :: (rest ++ tail)) =
        nalStartsFrom (i + 3) (b :: (rest ++ tail)) := by
      rw [nalStartsFrom_skip, nalStartsFrom_skip]
      · exact fun h => absurd h (by decide)
      · exact fun _ => ⟨fun h => absurd (List.cons_prefix_cons.mp h).1 (by decide),
          fun h => absurd (List.cons_prefix_cons.mp h).1 (by decide)⟩
    rw [← List.cons_append] at hskip
    exact congrArg ((i + 3) :: ·) hskip
  | succ zeros ih =>
    rw [List.replicate_succ, List.cons_append, if_neg (Nat.succ_ne_zero zeros),
      show i + (zeros + 1) + 3 = i + 1 + zeros + 3 by omega]
    have hbehind := ih (i + 1)
    cases zeros with
    | zero =>
      -- The code of three bytes behind the zero is one of four bytes here.
      obtain ⟨b, rest, hbytes⟩ := List.exists_cons_of_ne_nil nal.2.ne_nil
      rw [hbytes] at hbehind ⊢
      rw [if_pos rfl] at hbehind
      have hfound : nalStartsFrom i (0 :: 0 :: 0 :: 1 :: b :: (rest ++ tail)) =
          (i + 4) :: nalStartsFrom (i + 1) (0 :: 0 :: 1 :: b :: (rest ++ tail)) := by
        rw [nalStartsFrom, if_neg (by decide), if_pos ⟨List.cons_ne_nil _ _, rfl, rfl, rfl, rfl⟩]
      exact hfound.trans (congrArg ((i + 4) :: ·) hbehind)
    | succ zeros =>
      rw [nalStartsFrom_skip, hbehind, if_neg (Nat.succ_ne_zero zeros)]
      have hzeros : ∃ rest, List.replicate (zeros + 1) 0 ++ ([0, 0, 1] ++ (nal.1 ++ tail)) =
          (0 : UInt8) :: 0 :: 0 :: rest := by
        match zeros with
        | 0 | 1 | _ + 2 => exact ⟨_, rfl⟩
      obtain ⟨rest, hrest⟩ := hzeros
      rw [hrest]
      simp [List.cons_prefix_cons]

/-- Zeros at the end hold no start code. -/
theorem nalStartsFrom_zeros (i n : ℕ) : nalStartsFrom i (List.replicate n 0) = [] := by
  induction n generalizing i with
  | zero => rfl
  | succ n ih =>
    rw [List.replicate_succ, nalStartsFrom_skip, ih]
    have hone : (1 : UInt8) ∉ List.replicate n 0 := fun h =>
      absurd (List.eq_of_mem_replicate h) (by decide)
    exact fun _ => ⟨fun h => hone (h.subset (by simp)), fun h => hone (h.subset (by simp))⟩

/-- **Every unit is found where it is.** -/
theorem nalStartsFrom_frame (i trailing : ℕ) (nals : List (ℕ × Nal)) :
    nalStartsFrom i (frameNals nals ++ List.replicate trailing 0) = framedStarts i nals := by
  induction nals generalizing i with
  | nil => exact nalStartsFrom_zeros i trailing
  | cons piece nals ih =>
    obtain ⟨zeros, nal⟩ := piece
    rw [frameNals, framedStarts, ← ih]
    simp only [List.append_assoc]
    exact nalStartsFrom_code i zeros nal _

/-! ### The units -/

/-- A start that is found twice makes an empty unit, which is left out. -/
theorem nalBodies_twice (buf : Buffer) (p : ℕ) (starts : List ℕ) :
    (nalBodies buf (p :: p :: starts)).filter (· ≠ []) =
      (nalBodies buf (p :: starts)).filter (· ≠ []) := by
  have hempty : Buf.subarray buf p (startCodeBegin buf p) = [] := by
    have hle : startCodeBegin buf p ≤ p := by
      simp only [startCodeBegin]
      split_ifs <;> omega
    rw [Buf.subarray, List.drop_eq_nil_iff, List.length_take]
    omega
  rw [nalBodies, List.filter_cons_of_neg (by simpa using hempty)]

theorem subarray_behind (code rest : Buffer) (n : ℕ) :
    Buf.subarray (code ++ rest) code.length (code.length + n) = rest.take n := by
  rw [Buf.subarray, List.take_length_add_append, List.drop_left]

/-- Where the start code of the next unit begins: at the zero ahead of it, if there is one. -/
theorem startCodeBegin_next (code tail : Buffer) (nal next : Nal) (zeros : ℕ)
    (nals : List (ℕ × Nal)) :
    startCodeBegin (code ++ (nal.1 ++ (frameNals ((zeros, next) :: nals) ++ tail)))
        (code.length + nal.1.length + zeros + 3) =
      code.length + (nal.1.length + (zeros - 1)) := by
  have hpos := List.length_pos_of_ne_nil nal.2.ne_nil
  simp only [startCodeBegin, Nat.add_sub_cancel]
  cases zeros with
  | zero =>
    rw [if_neg]
    · omega
    · rintro ⟨-, hzero⟩
      rw [show code.length + nal.1.length + 0 - 1 = code.length + (nal.1.length - 1) by
        omega, List.getElem?_append_right (by omega), Nat.add_sub_cancel_left,
        List.getElem?_append_left (by omega), ← List.getLast?_eq_getElem?] at hzero
      exact nal.2.getLast?_ne hzero
  | succ zeros =>
    rw [if_pos]
    · omega
    · refine ⟨by omega, ?_⟩
      rw [show code.length + nal.1.length + (zeros + 1) - 1 =
        code.length + (nal.1.length + zeros) by omega, List.getElem?_append_right (by omega),
        Nat.add_sub_cancel_left, List.getElem?_append_right (by omega), Nat.add_sub_cancel_left,
        frameNals, List.append_assoc, List.getElem?_append_left (by simp),
        List.getElem?_replicate, if_pos (Nat.lt_succ_self zeros)]

/-- The bytes up to a unit, and those from it on. -/
theorem frameNals_cons (front : Buffer) (zeros : ℕ) (nal : Nal) (nals : List (ℕ × Nal))
    (tail : Buffer) :
    ∃ code : Buffer, code.length = front.length + zeros + 3 ∧
      front ++ (frameNals ((zeros, nal) :: nals) ++ tail) =
        code ++ (nal.1 ++ (frameNals nals ++ tail)) := by
  refine ⟨front ++ (List.replicate zeros 0 ++ [0, 0, 1]), ?_, ?_⟩
  · rw [List.length_append, List.length_append, List.length_replicate]
    rfl
  · simp only [frameNals, List.append_assoc]

theorem nalBodies_frame (front : Buffer) (trailing : ℕ) (nals : List (ℕ × Nal)) :
    (nalBodies (front ++ (frameNals nals ++ List.replicate trailing 0))
        (framedStarts front.length nals)).filter (· ≠ []) = framedBodies trailing nals := by
  induction nals generalizing front with
  | nil => rfl
  | cons piece nals ih =>
    obtain ⟨zeros, nal⟩ := piece
    obtain ⟨code, hcode, hsplit⟩ := frameNals_cons front zeros nal nals (List.replicate trailing 0)
    have hrest := ih (code ++ nal.1)
    rw [List.length_append, List.append_assoc, ← hsplit, hcode] at hrest
    have honce : (nalBodies (front ++ (frameNals ((zeros, nal) :: nals) ++
        List.replicate trailing 0)) (framedStarts front.length ((zeros, nal) :: nals))).filter
        (· ≠ []) =
        (nalBodies (front ++ (frameNals ((zeros, nal) :: nals) ++ List.replicate trailing 0))
          ((front.length + zeros + 3) ::
            framedStarts (front.length + zeros + 3 + nal.1.length) nals)).filter (· ≠ []) := by
      rw [framedStarts]
      split_ifs
      · rfl
      · exact nalBodies_twice _ _ _
    rw [honce]
    match nals with
    | [] =>
      have hlength : (code ++ (nal.1 ++ (frameNals [] ++ List.replicate trailing 0))).length =
          code.length + (nal.1 ++ List.replicate trailing 0).length := List.length_append
      rw [framedStarts, nalBodies, framedBodies, hsplit, ← hcode, hlength, subarray_behind]
      change List.filter _ [(nal.1 ++ List.replicate trailing 0).take _] = _
      rw [List.take_of_length_le le_rfl, List.filter_cons_of_pos (by simp [nal.2.ne_nil]),
        List.filter_nil]
    | (zeros', next) :: nals =>
      have hnext : ∃ more, framedStarts (front.length + zeros + 3 + nal.1.length)
          ((zeros', next) :: nals) =
            (front.length + zeros + 3 + nal.1.length + zeros' + 3) :: more := by
        rw [framedStarts]
        split_ifs <;> exact ⟨_, rfl⟩
      obtain ⟨more, hmore⟩ := hnext
      rw [hmore] at hrest ⊢
      rw [nalBodies, framedBodies, ← hrest, hsplit, ← hcode, startCodeBegin_next, subarray_behind,
        List.take_length_add_append, frameNals, List.append_assoc,
        List.take_append_of_le_length (by simp), List.take_replicate, min_eq_left (by omega),
        List.filter_cons_of_pos (by simp [nal.2.ne_nil])]

/-- **The split finds every unit**, with the zeros behind it that no start code takes. -/
theorem splitAnnexbNals_frame (nals : List (ℕ × Nal)) (trailing : ℕ) :
    splitAnnexbNals (frameNals nals ++ List.replicate trailing 0) = framedBodies trailing nals := by
  rw [splitAnnexbNals, nalStarts, nalStartsFrom_frame]
  exact nalBodies_frame [] trailing nals

/-! ### Start codes of three and four bytes -/

inductive StartCode
  | three
  | four
  deriving DecidableEq, Repr

def StartCode.bytes : StartCode → Buffer
  | .three => [0, 0, 1]
  | .four => ANNEXB_START

/-- The zeros ahead of the last three bytes of a start code. -/
def StartCode.zeros : StartCode → ℕ
  | .three => 0
  | .four => 1

/-- Units behind start codes of either length. -/
def serialize (nals : List (StartCode × Nal)) : Buffer :=
  nals.flatMap fun piece => piece.1.bytes ++ piece.2.1

theorem serialize_eq_frameNals (nals : List (StartCode × Nal)) :
    serialize nals = frameNals (nals.map (Prod.map StartCode.zeros id)) := by
  induction nals with
  | nil => rfl
  | cons piece nals ih =>
    obtain ⟨code, nal⟩ := piece
    rw [serialize, List.flatMap_cons, ← serialize, ih, List.append_assoc]
    cases code <;> rfl

/-- No zero is left between units behind such codes. -/
theorem framedBodies_zeros (nals : List (StartCode × Nal)) :
    framedBodies 0 (nals.map (Prod.map StartCode.zeros id)) = nals.map (·.2.1) := by
  induction nals with
  | nil => rfl
  | cons piece nals ih =>
    match nals with
    | [] => exact congrArg ([·]) (List.append_nil piece.2.1)
    | (code, next) :: nals =>
      have hnone : StartCode.zeros code - 1 = 0 := by cases code <;> rfl
      rw [List.map_cons] at ih ⊢
      rw [List.map_cons, Prod.map, Prod.map, framedBodies, hnone, List.replicate_zero,
        List.append_nil, List.map_cons]
      exact congrArg (piece.2.1 :: ·) ih

/-- **The split undoes the serialisation.** -/
theorem split_serialize (nals : List (StartCode × Nal)) :
    splitAnnexbNals (serialize nals) = nals.map (·.2.1) := by
  have hsplit := splitAnnexbNals_frame (nals.map (Prod.map StartCode.zeros id)) 0
  rwa [List.replicate_zero, List.append_nil, ← serialize_eq_frameNals, framedBodies_zeros] at hsplit

/-- The parameter sets as units behind start codes of four bytes. -/
theorem prefixParamSets_serialize (sets : ParamSets) (hsets : ∀ set ∈ sets.ordered, IsNal set)
    (nals : List (StartCode × Nal)) :
    prefixParamSets (serialize nals) sets =
      serialize (sets.ordered.attach.map (fun set => (.four, ⟨set.1, hsets set.1 set.2⟩)) ++ nals) := by
  have hprefix (l : List {set // set ∈ sets.ordered}) :
      serialize (l.map (fun set => (.four, ⟨set.1, hsets set.1 set.2⟩)) ++ nals) =
        (l.map (·.1)).flatMap (ANNEXB_START ++ ·) ++ serialize nals := by
    induction l with
    | nil => rfl
    | cons set l ih =>
      rw [List.map_cons, List.cons_append, serialize, List.flatMap_cons, ← serialize, ih,
        List.map_cons, List.flatMap_cons, List.append_assoc (ANNEXB_START ++ set.1)]
      rfl
  rw [prefixParamSets, hprefix, List.attach_map_subtype_val]
  split_ifs with hnone
  · rw [hnone]
    rfl
  · rfl

/-- **Splitting undoes serialisation.** Units behind start codes of either length are split off as
they are, and where parameter sets are put ahead of them these come first, in the order a decoder
reads them. -/
theorem splitAnnexbNals_serialize (nals : List (StartCode × Nal)) :
    splitAnnexbNals (serialize nals) = nals.map (·.2.1) ∧
      ∀ sets : ParamSets, (∀ set ∈ sets.ordered, IsNal set) →
        splitAnnexbNals (prefixParamSets (serialize nals) sets) =
          sets.ordered ++ splitAnnexbNals (serialize nals) := by
  refine ⟨split_serialize nals, fun sets hsets => ?_⟩
  rw [prefixParamSets_serialize sets hsets, split_serialize, split_serialize, List.map_append,
    List.map_map]
  exact congrArg (· ++ nals.map (·.2.1)) (List.attach_map_subtype_val sets.ordered)

/-- A keyframe behind its parameter sets, both lengths of start code in one unit. -/
theorem splitAnnexbNals_serialize_keyframe :
    splitAnnexbNals (prefixParamSets (serialize
        [(.three, ⟨[0x06, 5, 0, 0, 3], by decide⟩), (.four, ⟨[0x65, 0x88], by decide⟩)])
        ⟨.h264, [[0x67, 66]], [[0x68, 0xce]], []⟩) =
      [[0x67, 66], [0x68, 0xce], [0x06, 5, 0, 0, 3], [0x65, 0x88]] := by
  have hsplit := splitAnnexbNals_serialize
    [(.three, ⟨[0x06, 5, 0, 0, 3], by decide⟩), (.four, ⟨[0x65, 0x88], by decide⟩)]
  rw [hsplit.2 _ (by decide), hsplit.1]
  rfl

end EufySdk
