import Mathlib.Tactic

/-!
# Readers and what they consume

A reader is a state computation on some state that still has symbols to give. `Reads` says that
it takes certain symbols from the front, whatever is behind them, and answers a certain value. The
symbols of a composite reader are those of its parts, one after the other.

- `Reads` — a reader takes these symbols and answers this
- `Reads.bind`, `Reads.answer` — the parts of a composite reader
- `Reads.mapM`, `Reads.forM` — readers that go through a list
-/

namespace Reading

universe u v

variable {σ α γ : Type u} {β : Type v} {ahead : σ → List β → Prop}

/-- The reader takes `w` from the front of what is ahead, and answers `a`. -/
def Reads (ahead : σ → List β → Prop) (m : StateM σ α) (w : List β) (a : α) : Prop :=
  ∀ s tail, ahead s (w ++ tail) → (m.run s).1 = a ∧ ahead (m.run s).2 tail

theorem Reads.answer (a : α) : Reads ahead (pure a) [] a := fun _ _ h => ⟨rfl, h⟩

theorem Reads.bind {m : StateM σ α} {f : α → StateM σ γ} {w w' : List β} {a : α} {c : γ}
    (h : Reads ahead m w a) (h' : Reads ahead (f a) w' c) :
    Reads ahead (m >>= f) (w ++ w') c := by
  intro s tail hahead
  rw [List.append_assoc] at hahead
  obtain ⟨hanswer, hahead⟩ := h s (w' ++ tail) hahead
  obtain ⟨hanswer', hahead'⟩ := h' (m.run s).2 tail hahead
  have hrun : (m >>= f).run s = (f a).run (m.run s).2 := by rw [← hanswer]; rfl
  rw [hrun]
  exact ⟨hanswer', hahead'⟩

/-- A reader whose last part takes nothing. -/
theorem Reads.bind_answer {m : StateM σ α} {f : α → StateM σ γ} {w : List β} {a : α} {c : γ}
    (h : Reads ahead m w a) (h' : Reads ahead (f a) [] c) : Reads ahead (m >>= f) w c := by
  have hbind := h.bind h'
  rwa [List.append_nil] at hbind

/-- A look at the state takes nothing; what is ahead decides how the reader goes on. -/
theorem Reads.look {f : σ → StateM σ α} {m : StateM σ α} {w : List β} {a : α}
    (h : Reads ahead m w a) (hsame : ∀ s tail, ahead s (w ++ tail) → f s = m) :
    Reads ahead (get >>= f) w a := by
  intro s tail hahead
  have hrun : (get >>= f).run s = m.run s := by
    rw [← hsame s tail hahead]
    rfl
  rw [hrun]
  exact h s tail hahead

/-- One reader for each of some values, whose answers come in a list. -/
theorem Reads.mapM {ι : Type*} {m : StateM σ α} {w : ι → List β} {answer : ι → α} (l : List ι)
    (h : ∀ x, Reads ahead m (w x) (answer x)) :
    Reads ahead ((List.replicate l.length ()).mapM fun _ => m) (l.flatMap w) (l.map answer) := by
  induction l with
  | nil => exact .answer []
  | cons x l ih =>
    rw [List.length_cons, List.replicate_succ, List.mapM_cons, List.flatMap_cons, List.map_cons]
    exact (h x).bind (ih.bind_answer (.answer _))

/-- A reader for each entry of a list. -/
theorem Reads.forM {ι κ : Type*} {f : κ → StateM σ PUnit} {entry : ι → κ} {w : ι → List β}
    (l : List ι) (h : ∀ x, Reads ahead (f (entry x)) (w x) ⟨⟩) :
    Reads ahead ((l.map entry).forM f) (l.flatMap w) ⟨⟩ := by
  induction l with
  | nil => exact .answer PUnit.unit
  | cons x l ih =>
    rw [List.map_cons, List.forM, List.flatMap_cons]
    exact (h x).bind ih

end Reading
