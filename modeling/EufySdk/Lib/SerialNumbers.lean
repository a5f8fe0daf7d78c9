import Mathlib.Tactic

/-!
# Receivers of wrapping sequence numbers

A sender numbers its messages in a space of `N` numbers that wraps. A receiver keeps the
number it took last as its mark, leaves out what is numbered at the mark or up to `depth`
behind it, and takes everything else, however far ahead it looks.

Main definitions:

- `Repeats` — a number is at the mark or up to `depth` behind it
- `follow`, `markAfter` — the mark behind one number and behind a list of them
- `Steady` — arrivals that are never later nor further ahead than two bounds

Main results:

- `exists_markAfter_upwards` — a count that starts anywhere is left out `depth + 1` times
  at most, and taken from there on
- `Steady.fresh` — among steady arrivals, what is newer than all before it is taken
-/

namespace SerialNumbers

variable {N depth : ℕ}

def Repeats (N depth mark n : ℕ) : Prop := ((mark : ℤ) - n) % N ≤ depth

instance (mark n : ℕ) : Decidable (Repeats N depth mark n) :=
  inferInstanceAs (Decidable (_ ≤ _))

/-- The mark behind a number. -/
def follow (N depth : ℕ) : Option ℕ → ℕ → Option ℕ
  | none, n => some n
  | some mark, n => if Repeats N depth mark n then some mark else some n

/-- The mark behind a list of numbers. -/
def markAfter (N depth : ℕ) (mark : Option ℕ) (ns : List ℕ) : Option ℕ :=
  ns.foldl (follow N depth) mark

/-- The number is one the receiver takes. -/
def Fresh (N depth : ℕ) (mark : Option ℕ) (n : ℕ) : Prop :=
  ∀ m ∈ mark, ¬Repeats N depth m n

theorem follow_of_repeats {mark n : ℕ} (h : Repeats N depth mark n) :
    follow N depth (some mark) n = some mark := if_pos h

theorem follow_of_fresh {mark : Option ℕ} {n : ℕ} (h : Fresh N depth mark n) :
    follow N depth mark n = some n := by
  cases mark with
  | none => rfl
  | some m => exact if_neg (h m rfl)

@[simp] theorem markAfter_nil (mark : Option ℕ) : markAfter N depth mark [] = mark := rfl

theorem markAfter_cons (mark : Option ℕ) (n : ℕ) (ns : List ℕ) :
    markAfter N depth mark (n :: ns) = markAfter N depth (follow N depth mark n) ns := rfl

theorem markAfter_snoc (mark : Option ℕ) (ns : List ℕ) (n : ℕ) :
    markAfter N depth mark (ns ++ [n]) = follow N depth (markAfter N depth mark ns) n := by
  rw [markAfter, List.foldl_append]
  rfl

/-! ## Distances -/

/-- Only the numbers' residues count. -/
theorem repeats_congr {m m' n n' : ℕ} (hm : (m : ℤ) ≡ m' [ZMOD N])
    (hn : (n : ℤ) ≡ n' [ZMOD N]) : Repeats N depth m n ↔ Repeats N depth m' n' := by
  have hsub : ((m : ℤ) - n) % N = ((m' : ℤ) - n') % N := hm.sub hn
  rw [Repeats, Repeats, hsub]

theorem mod_modEq (n : ℕ) : ((n % N : ℕ) : ℤ) ≡ n [ZMOD N] := by
  rw [Int.natCast_mod]
  exact Int.mod_modEq _ _

theorem repeats_mod (m n : ℕ) :
    Repeats N depth (m % N) (n % N) ↔ Repeats N depth m n :=
  repeats_congr (mod_modEq m) (mod_modEq n)

theorem repeats_of_behind (hN : depth < N) {m n : ℕ} (hle : n ≤ m) (hnear : m ≤ n + depth) :
    Repeats N depth m n := by
  have hmod : ((m : ℤ) - n) % N = (m : ℤ) - n := by
    refine Int.emod_eq_of_lt ?_ ?_ <;> omega
  rw [Repeats, hmod]
  omega

theorem not_repeats_of_ahead {m n : ℕ} (hlt : m < n) (hnear : n + depth < m + N) :
    ¬Repeats N depth m n := by
  have hmod : ((m : ℤ) - n) % N = (m : ℤ) - n + N := by
    rw [← Int.add_emod_right ((m : ℤ) - n) N]
    refine Int.emod_eq_of_lt ?_ ?_ <;> omega
  rw [Repeats, hmod]
  omega

/-! ## A count that starts anywhere -/

/-- The first `j` numbers of a count from `start`. -/
def upwards (N start j : ℕ) : List ℕ :=
  (List.range j).map fun i => (start + i) % N

theorem upwards_succ (start j : ℕ) :
    upwards N start (j + 1) = upwards N start j ++ [(start + j) % N] := by
  rw [upwards, List.range_succ, List.map_append]
  rfl

/-- As long as the count repeats the mark, the mark stays. -/
theorem markAfter_upwards_of_repeats {mark start j : ℕ}
    (h : ∀ i < j, Repeats N depth mark ((start + i) % N)) :
    markAfter N depth (some mark) (upwards N start j) = some mark := by
  induction j with
  | zero => rfl
  | succ j ih =>
    rw [upwards_succ, markAfter_snoc, ih fun i hi => h i (hi.trans (Nat.lt_succ_self j))]
    exact follow_of_repeats (h j (Nat.lt_succ_self j))

/-- The number behind the mark is taken. -/
theorem fresh_next (hN : depth + 1 < N) (n : ℕ) :
    Fresh N depth (some (n % N)) ((n + 1) % N) := by
  intro m hm
  obtain rfl := Option.some.inj hm
  rw [repeats_mod]
  exact not_repeats_of_ahead (Nat.lt_succ_self n) (by omega)

/-- Once one number of the count is taken, the mark keeps up with it. -/
theorem markAfter_upwards_of_taken (hN : depth + 1 < N) {mark : Option ℕ} {start k : ℕ}
    (h : markAfter N depth mark (upwards N start (k + 1)) = some ((start + k) % N)) (i : ℕ) :
    markAfter N depth mark (upwards N start (k + 1 + i)) = some ((start + k + i) % N) := by
  induction i with
  | zero => exact h
  | succ i ih =>
    rw [← Nat.add_assoc (k + 1) i 1, upwards_succ, markAfter_snoc, ih]
    have hnext := follow_of_fresh (fresh_next hN (start + k + i))
    rw [show start + k + i + 1 = start + (k + 1 + i) by omega] at hnext
    rw [hnext, show start + k + (i + 1) = start + (k + 1 + i) by omega]

/-- Where a count that starts anywhere is taken up: the number of its messages left out. -/
theorem exists_leftOut (hN : depth + 1 < N) (mark start : ℕ) :
    ∃ k ≤ depth + 1, (∀ j < k, Repeats N depth mark ((start + j) % N)) ∧
      ¬Repeats N depth mark ((start + k) % N) := by
  have hpos : (0 : ℤ) < N := by omega
  have hnonneg := Int.emod_nonneg ((mark : ℤ) - start) hpos.ne'
  obtain ⟨d, hd⟩ := Int.eq_ofNat_of_zero_le hnonneg
  by_cases hbehind : d ≤ depth
  · -- the mark is `d` numbers into the count
    have hmark : ((mark : ℕ) : ℤ) ≡ (start + d : ℕ) [ZMOD N] := by
      have hdist : ((mark : ℤ) - start) % N = (d : ℤ) % N := by
        rw [hd, Int.emod_eq_of_lt (by omega) (by omega)]
      have hshift := (show (mark : ℤ) - start ≡ d [ZMOD N] from hdist).add_left (start : ℤ)
      rwa [add_sub_cancel, ← Nat.cast_add] at hshift
    have hrep : ∀ n, Repeats N depth mark (n % N) ↔ Repeats N depth (start + d) n :=
      fun n => repeats_congr hmark (mod_modEq n)
    refine ⟨d + 1, by omega, fun j hj => ?_, ?_⟩
    · rw [hrep]
      exact repeats_of_behind (by omega) (by omega) (by omega)
    · rw [hrep]
      exact not_repeats_of_ahead (by omega) (by omega)
  · refine ⟨0, Nat.zero_le _, fun j hj => absurd hj (Nat.not_lt_zero j), ?_⟩
    rw [repeats_congr (Int.ModEq.refl _) (mod_modEq _), Nat.add_zero, Repeats, hd]
    exact_mod_cast hbehind

/-- **A restart freezes nobody out.** Of a count that starts anywhere the receiver leaves
out the first `k ≤ depth + 1` messages and takes every one from there on. -/
theorem exists_markAfter_upwards (hN : depth + 1 < N) (mark start : ℕ) :
    ∃ k ≤ depth + 1,
      (∀ j ≤ k, markAfter N depth (some mark) (upwards N start j) = some mark) ∧
      (∀ j < k, Repeats N depth mark ((start + j) % N)) ∧
      ¬Repeats N depth mark ((start + k) % N) ∧
      ∀ i, markAfter N depth (some mark) (upwards N start (k + 1 + i)) =
        some ((start + k + i) % N) := by
  obtain ⟨k, hk, hrep, htaken⟩ := exists_leftOut hN mark start
  have hstays : ∀ j ≤ k,
      markAfter N depth (some mark) (upwards N start j) = some mark := fun j hj =>
    markAfter_upwards_of_repeats fun i hi => hrep i (hi.trans_le hj)
  refine ⟨k, hk, hstays, hrep, htaken, markAfter_upwards_of_taken hN ?_⟩
  have hfresh : Fresh N depth (some mark) ((start + k) % N) := by
    intro m hm
    obtain rfl := Option.some.inj hm
    exact htaken
  rw [upwards_succ, markAfter_snoc, hstays k le_rfl, follow_of_fresh hfresh]

/-! ## Steady arrivals -/

/-- The newest of a number and those after it. -/
def newest (last : Option ℕ) (ns : List ℕ) : Option ℕ :=
  ns.foldl (fun last n => some (last.elim n (max n))) last

/-- Arrivals by the numbers the sender counts, before they wrap: each is at most `late`
behind the newest before it and at most `jump` ahead of it. -/
def Steady (late jump : ℕ) : Option ℕ → List ℕ → Prop
  | _, [] => True
  | none, n :: ns => Steady late jump (some n) ns
  | some last, n :: ns =>
    last ≤ n + late ∧ n ≤ last + jump ∧ Steady late jump (some (max n last)) ns

/-- How far the mark can be behind the newest number: what is left out does not move it. -/
def drift (depth late : ℕ) : ℕ := if late ≤ depth then 0 else late

/-- The mark is the newest number, or at most the drift behind it. -/
def Near (N drift : ℕ) : Option ℕ → Option ℕ → Prop
  | none, mark => mark = none
  | some last, mark => ∃ m ≤ last, last ≤ m + drift ∧ mark = some (m % N)

theorem Near.fresh {late jump last n : ℕ} {mark : Option ℕ}
    (hfit : jump + drift depth late + depth < N) (h : Near N (drift depth late) (some last) mark)
    (hnew : last < n) (hjump : n ≤ last + jump) : Fresh N depth mark (n % N) := by
  obtain ⟨m, hle, hdrift, rfl⟩ := h
  intro m' hm'
  obtain rfl := Option.some.inj hm'
  rw [repeats_mod]
  exact not_repeats_of_ahead (hle.trans_lt hnew) (by omega)

/-- What one arrival does to the mark. -/
theorem Near.follow {late jump last n : ℕ} {mark : Option ℕ} (hN : depth < N)
    (hfit : jump + drift depth late + depth < N) (h : Near N (drift depth late) (some last) mark)
    (hlate : last ≤ n + late) (hjump : n ≤ last + jump) :
    Near N (drift depth late) (some (max n last)) (follow N depth mark (n % N)) := by
  rcases lt_or_ge last n with hnew | hold
  · rw [follow_of_fresh (h.fresh hfit hnew hjump), max_eq_left hnew.le]
    exact ⟨n, le_rfl, Nat.le_add_right _ _, rfl⟩
  · obtain ⟨m, hle, hdrift, rfl⟩ := h
    rw [max_eq_right hold]
    by_cases hrep : Repeats N depth (m % N) (n % N)
    · rw [follow_of_repeats hrep]
      exact ⟨m, hle, hdrift, rfl⟩
    · -- a late arrival the receiver takes is later than `depth`
      have hfar : ¬late ≤ depth := by
        intro hsmall
        rw [drift, if_pos hsmall] at hdrift
        refine hrep ((repeats_mod m n).mpr (repeats_of_behind hN ?_ ?_)) <;> omega
      rw [SerialNumbers.follow, if_neg hrep]
      refine ⟨n, hold, ?_, rfl⟩
      rwa [drift, if_neg hfar]

theorem Near.markAfter {late jump : ℕ} (hN : depth < N)
    (hfit : jump + drift depth late + depth < N) {last mark : Option ℕ} {ns rest : List ℕ}
    (h : Near N (drift depth late) last mark) (hsteady : Steady late jump last (ns ++ rest)) :
    Near N (drift depth late) (newest last ns)
        (markAfter N depth mark (ns.map (· % N))) ∧
      Steady late jump (newest last ns) rest := by
  induction ns generalizing last mark with
  | nil => exact ⟨h, hsteady⟩
  | cons n ns ih =>
    cases last with
    | none =>
      obtain rfl := h
      exact ih ⟨n, le_rfl, Nat.le_add_right _ _, rfl⟩ hsteady
    | some last =>
      obtain ⟨hlate, hjump, hrest⟩ := hsteady
      exact ih (h.follow hN hfit hlate hjump) hrest

/-- **Steady arrivals are taken.** What is newer than everything before it is taken. -/
theorem Steady.fresh {late jump : ℕ} (hN : depth < N)
    (hfit : jump + drift depth late + depth < N) {last mark : Option ℕ} {ns : List ℕ} {n : ℕ}
    (hnear : Near N (drift depth late) last mark)
    (h : Steady late jump last (ns ++ [n])) (hnew : ∀ m ∈ newest last ns, m < n) :
    Fresh N depth (markAfter N depth mark (ns.map (· % N))) (n % N) := by
  obtain ⟨hmark, hstep⟩ := hnear.markAfter hN hfit h
  cases hlast : newest last ns with
  | none =>
    rw [hlast] at hmark
    rw [show SerialNumbers.markAfter N depth mark (ns.map (· % N)) = none from hmark]
    intro m hm
    cases hm
  | some m =>
    rw [hlast] at hmark hstep
    exact hmark.fresh hfit (hnew m hlast) hstep.2.1

end SerialNumbers
