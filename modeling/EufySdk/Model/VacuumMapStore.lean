import Mathlib.Tactic
import EufySdk.Lib.Latest
import EufySdk.Model.VacuumMap

/-!
# The map of a vacuum

`model/vacuum-map-store.ts`: a map comes in pieces of five kinds, each with the map it names, if
it names one, and a revision. A piece that names another map than the one held replaces
everything but the pose; a piece of an older revision than the one held of its kind is dropped.
What else a piece carries is not read by the store.

- `VacuumMapStore.apply`, `VacuumMapStore.clear` — the calls
- `Heard` — what the calls since the last switch of maps have brought
- `Settled` — what the store holds, as a matter of that
-/

namespace EufySdk

open Latest

inductive StampedKind
  | plane
  | outline
  | rooms
  | zones
  | description
  deriving DecidableEq, Repr

/-- A piece of a kind, with what it carries beside its stamp. -/
structure Stamped (Body : StampedKind → Type) (kind : StampedKind) where
  mapId : Option ℕ
  releases : ℕ
  body : Body kind

structure VacuumMapBackup (Body : StampedKind → Type) where
  description : Option (Stamped Body .description)
  map : Option (Stamped Body .plane)
  outline : Option (Stamped Body .outline)
  rooms : Option (Stamped Body .rooms)
  zones : Option (Stamped Body .zones)

/-- A piece of some kind. -/
abbrev AnyPiece (Body : StampedKind → Type) := (kind : StampedKind) × Stamped Body kind

inductive VacuumMapPiece (Body : StampedKind → Type)
  | stamped (piece : AnyPiece Body)
  | pose (value : MapPose)
  | backup (value : VacuumMapBackup Body)

variable {Body : StampedKind → Type}

/-- The parts of a backup the device sent. -/
def piecesOf (backup : VacuumMapBackup Body) : List (AnyPiece Body) :=
  backup.description.toList.map (⟨.description, ·⟩) ++ backup.map.toList.map (⟨.plane, ·⟩) ++
    backup.outline.toList.map (⟨.outline, ·⟩) ++ backup.rooms.toList.map (⟨.rooms, ·⟩) ++
    backup.zones.toList.map (⟨.zones, ·⟩)

structure VacuumMapSnapshot (Body : StampedKind → Type) where
  mapId : Option ℕ := none
  piece : (kind : StampedKind) → Option (Stamped Body kind) := fun _ => none
  pose : Option MapPose := none

def EMPTY : VacuumMapSnapshot Body := {}

/-- The store. Snapshots are objects, which go by the number they were made under; `EMPTY` is
number zero. -/
structure VacuumMapStore (Body : StampedKind → Type) where
  current : VacuumMapSnapshot Body := EMPTY
  revisions : StampedKind → Option ℕ := fun _ => none
  object : ℕ := 0
  made : ℕ := 0
  object_le : object ≤ made := by decide

/-- Whether a piece that names `mapId` is of another map than `held`. -/
def switches (held mapId : Option ℕ) : Bool := mapId.isSome && held.isSome && mapId ≠ held

namespace VacuumMapStore

/-- A new snapshot object. -/
def assign (s : VacuumMapStore Body) (snapshot : VacuumMapSnapshot Body) : VacuumMapStore Body :=
  { s with current := snapshot, made := s.made + 1, object := s.made + 1, object_le := le_rfl }

/-- Forget the map that is held, for the one a piece names. -/
def switched (s : VacuumMapStore Body) (mapId : Option ℕ) : VacuumMapStore Body :=
  if switches s.current.mapId mapId then
    { s.assign { EMPTY with pose := s.current.pose, mapId } with revisions := fun _ => none }
  else s

/-- Store one stamped piece, and say whether anything changed. -/
def put (s : VacuumMapStore Body) (p : AnyPiece Body) : VacuumMapStore Body × Bool :=
  let s := s.switched p.2.mapId
  if (s.revisions p.1).any fun seen => p.2.releases < seen then (s, false)
  else
    ({ s.assign
        { s.current with
          mapId := p.2.mapId.or s.current.mapId
          piece := Function.update s.current.piece p.1 (some p.2) } with
        revisions := Function.update s.revisions p.1 (some p.2.releases) }, true)

def applyBackup (s : VacuumMapStore Body) (backup : VacuumMapBackup Body) :
    VacuumMapStore Body × Bool :=
  (piecesOf backup).foldl (fun r p => ((r.1.put p).1, (r.1.put p).2 || r.2)) (s, false)

def apply (s : VacuumMapStore Body) : VacuumMapPiece Body → VacuumMapStore Body × Bool
  | .stamped p => s.put p
  | .pose value => (s.assign { s.current with pose := some value }, true)
  | .backup value => s.applyBackup value

def clear (s : VacuumMapStore Body) : VacuumMapStore Body :=
  { s with current := EMPTY, revisions := fun _ => none, object := 0, object_le := Nat.zero_le _ }

end VacuumMapStore

inductive MapCall (Body : StampedKind → Type)
  | apply (piece : VacuumMapPiece Body)
  | clear

namespace VacuumMapStore

def call (s : VacuumMapStore Body) : MapCall Body → VacuumMapStore Body
  | .apply piece => (s.apply piece).1
  | .clear => s.clear

/-- The store behind some calls. -/
def behind (s : VacuumMapStore Body) (calls : List (MapCall Body)) : VacuumMapStore Body :=
  calls.foldl call s

end VacuumMapStore

/-! ## What is heard of a map -/

/-- The stamped pieces of a piece. -/
def VacuumMapPiece.stampedPieces : VacuumMapPiece Body → List (AnyPiece Body)
  | .stamped p => [p]
  | .pose _ => []
  | .backup value => piecesOf value

/-- The pieces of one kind. -/
def ofKind (kind : StampedKind) (pieces : List (AnyPiece Body)) : List (Stamped Body kind) :=
  pieces.filterMap fun p => if h : p.1 = kind then some (h ▸ p.2) else none

/-- A store, with what it was given: the stamped pieces since the last switch of maps or `clear`,
in order, and the last pose since `clear`. -/
structure Heard (Body : StampedKind → Type) where
  store : VacuumMapStore Body := {}
  pieces : List (AnyPiece Body) := []
  pose : Option MapPose := none

namespace Heard

def put (h : Heard Body) (p : AnyPiece Body) : Heard Body :=
  { h with
    store := (h.store.put p).1
    pieces := if switches h.store.current.mapId p.2.mapId then [p] else h.pieces ++ [p] }

def putAll (h : Heard Body) (pieces : List (AnyPiece Body)) : Heard Body := pieces.foldl put h

def call (h : Heard Body) : MapCall Body → Heard Body
  | .apply (.pose value) => { h with store := (h.store.apply (.pose value)).1, pose := some value }
  | .apply (.stamped p) => h.put p
  | .apply (.backup backup) => h.putAll (piecesOf backup)
  | .clear => { store := h.store.clear }

def behind (calls : List (MapCall Body)) : Heard Body := calls.foldl call {}

end Heard

/-- A store that holds what was heard: of each kind the latest piece, all of one map. -/
structure Settled (h : Heard Body) : Prop where
  pose : h.store.current.pose = h.pose
  piece : ∀ kind, h.store.current.piece kind = kept Stamped.releases none (ofKind kind h.pieces)
  revisions : ∀ kind, h.store.revisions kind =
    (h.store.current.piece kind).map Stamped.releases
  named : ∀ kind held, h.store.current.piece kind = some held → ∀ m, held.mapId = some m →
    h.store.current.mapId = some m

theorem ofKind_append (kind : StampedKind) (pieces later : List (AnyPiece Body)) :
    ofKind kind (pieces ++ later) = ofKind kind pieces ++ ofKind kind later :=
  List.filterMap_append

@[simp] theorem ofKind_self (p : AnyPiece Body) : ofKind p.1 [p] = [p.2] := by
  simp [ofKind]

@[simp] theorem ofKind_other {kind : StampedKind} {p : AnyPiece Body} (h : p.1 ≠ kind) :
    ofKind kind [p] = [] := by
  simp [ofKind, h]

namespace VacuumMapStore

variable {s : VacuumMapStore Body} {h : Heard Body}

/-- The pieces that are left behind a switch, if there is one. -/
def left (s : VacuumMapStore Body) (mapId : Option ℕ) (kind : StampedKind) :
    Option (Stamped Body kind) :=
  if switches s.current.mapId mapId then none else s.current.piece kind

theorem switched_spec (hrevisions : ∀ kind, s.revisions kind =
      (s.current.piece kind).map Stamped.releases) (mapId : Option ℕ) :
    (s.switched mapId).current.pose = s.current.pose ∧
      (s.switched mapId).current.piece = s.left mapId ∧
      (∀ kind, (s.switched mapId).revisions kind = (s.left mapId kind).map Stamped.releases) ∧
      (s.switched mapId).current.mapId =
        if switches s.current.mapId mapId then mapId else s.current.mapId := by
  by_cases hswitch : switches s.current.mapId mapId = true
  · rw [switched, if_pos hswitch, if_pos hswitch]
    refine ⟨rfl, funext fun kind => ?_, fun kind => ?_, rfl⟩
    · rw [left, if_pos hswitch]
      rfl
    · rw [left, if_pos hswitch]
      rfl
  · rw [switched, if_neg hswitch, if_neg hswitch]
    refine ⟨rfl, funext fun kind => ?_, fun kind => ?_, rfl⟩
    · rw [left, if_neg hswitch]
    · rw [left, if_neg hswitch, hrevisions]

/-- **What `put` does**, to a store whose revisions are those of its pieces: a piece that is older
than the one left of its kind is dropped, any other one is stored. -/
theorem put_spec (hrevisions : ∀ kind, s.revisions kind =
      (s.current.piece kind).map Stamped.releases) (p : AnyPiece Body) :
    ((s.put p).2 = false ∧ (s.put p).1 = s ∧
        keep Stamped.releases (s.left p.2.mapId p.1) p.2 = s.left p.2.mapId p.1 ∧
        switches s.current.mapId p.2.mapId = false) ∨
      ((s.put p).2 = true ∧ s.made < (s.put p).1.object ∧
        keep Stamped.releases (s.left p.2.mapId p.1) p.2 = some p.2 ∧
        (s.put p).1.current.pose = s.current.pose ∧
        (s.put p).1.current.piece = Function.update (s.left p.2.mapId) p.1 (some p.2) ∧
        (∀ kind, (s.put p).1.revisions kind =
          ((s.put p).1.current.piece kind).map Stamped.releases) ∧
        (s.put p).1.current.mapId = p.2.mapId.or s.current.mapId) := by
  obtain ⟨hpose, hpiece, hrevisions, hmapId⟩ := switched_spec hrevisions p.2.mapId
  have hmade : s.made ≤ (s.switched p.2.mapId).made := by
    rw [switched]
    split
    · exact Nat.le_succ _
    · exact le_rfl
  by_cases holder : ((s.switched p.2.mapId).revisions p.1).any (fun seen => p.2.releases < seen) = true
  · have hput : s.put p = (s.switched p.2.mapId, false) := if_pos holder
    rw [hrevisions] at holder
    cases hleft : s.left p.2.mapId p.1 with
    | none =>
      rw [hleft] at holder
      cases holder
    | some held =>
      rw [hleft] at holder
      have hlt : p.2.releases < held.releases := by simpa using holder
      -- A switch leaves nothing that a piece could be older than.
      have hstays : switches s.current.mapId p.2.mapId = false := by
        by_contra hswitch
        rw [left, if_pos (by simpa using hswitch)] at hleft
        cases hleft
      have hsame : s.switched p.2.mapId = s := by rw [switched, hstays, if_neg Bool.false_ne_true]
      refine .inl ⟨by rw [hput], by rw [hput, hsame], ?_, hstays⟩
      rw [keep_some, if_pos hlt]
  · have hput : s.put p =
        ({ (s.switched p.2.mapId).assign
            { (s.switched p.2.mapId).current with
              mapId := p.2.mapId.or (s.switched p.2.mapId).current.mapId
              piece := Function.update (s.switched p.2.mapId).current.piece p.1 (some p.2) } with
            revisions := Function.update (s.switched p.2.mapId).revisions p.1
              (some p.2.releases) }, true) := if_neg holder
    rw [hrevisions] at holder
    refine .inr ⟨by rw [hput], by rw [hput]; exact Nat.lt_succ_of_le hmade, ?_, ?_, ?_, ?_, ?_⟩
    · cases hleft : s.left p.2.mapId p.1 with
      | none => rfl
      | some held =>
        rw [hleft] at holder
        rw [keep_some, if_neg (by simpa using holder)]
    · rw [hput]
      exact hpose
    · rw [hput]
      exact congrArg (fun held => Function.update held p.1 (some p.2)) hpiece
    · rw [hput]
      intro kind
      by_cases hkind : kind = p.1
      · subst hkind
        simp [assign]
      · change Function.update (s.switched p.2.mapId).revisions p.1 _ kind =
          (Function.update (s.switched p.2.mapId).current.piece p.1 _ kind).map Stamped.releases
        rw [Function.update_of_ne hkind, Function.update_of_ne hkind, hrevisions, hpiece]
    · rw [hput]
      change p.2.mapId.or (s.switched p.2.mapId).current.mapId = _
      rw [hmapId]
      by_cases hswitch : switches s.current.mapId p.2.mapId = true
      · have hnames : p.2.mapId.isSome = true := by
          rw [switches, Bool.and_eq_true, Bool.and_eq_true] at hswitch
          exact hswitch.1.1
        obtain ⟨m, hm⟩ := Option.isSome_iff_exists.mp hnames
        rw [if_pos hswitch, hm, Option.some_or, Option.some_or]
      · rw [if_neg hswitch]

/-- The revisions of a store are those of its pieces. -/
def InStep (s : VacuumMapStore Body) : Prop :=
  ∀ kind, s.revisions kind = (s.current.piece kind).map Stamped.releases

theorem inStep_put (hs : s.InStep) (p : AnyPiece Body) : (s.put p).1.InStep := by
  obtain ⟨-, hsame, -⟩ | ⟨-, -, -, -, -, hrevisions, -⟩ := put_spec hs p
  · rw [hsame]
    exact hs
  · exact hrevisions

theorem pose_put (hs : s.InStep) (p : AnyPiece Body) :
    (s.put p).1.current.pose = s.current.pose := by
  obtain ⟨-, hsame, -⟩ | ⟨-, -, -, hpose, -⟩ := put_spec hs p
  · rw [hsame]
  · exact hpose

/-- The pieces behind a piece: each kind keeps the later one of what is left and what comes. -/
theorem piece_put (hs : s.InStep) (p : AnyPiece Body) (kind : StampedKind) :
    (s.put p).1.current.piece kind =
      kept Stamped.releases (s.left p.2.mapId kind) (ofKind kind [p]) := by
  by_cases hkind : p.1 = kind
  · subst hkind
    rw [ofKind_self, kept_cons, kept_nil]
    obtain ⟨-, hsame, hkeep, hstays⟩ | ⟨-, -, hkeep, -, hpiece, -⟩ := put_spec hs p
    · rw [hkeep, hsame, left, hstays, if_neg Bool.false_ne_true]
    · rw [hkeep, hpiece, Function.update_self]
  · rw [ofKind_other hkind, kept_nil]
    obtain ⟨-, hsame, -, hstays⟩ | ⟨-, -, -, -, hpiece, -⟩ := put_spec hs p
    · rw [hsame, left, hstays, if_neg Bool.false_ne_true]
    · rw [hpiece, Function.update_of_ne (Ne.symm hkind)]

/-- Where a piece of a map is stored or dropped, that map is held, or none is. -/
theorem switches_put (hs : s.InStep) {p : AnyPiece Body} {m : ℕ} (hnames : p.2.mapId = some m) :
    switches (s.put p).1.current.mapId (some m) = false := by
  obtain ⟨-, hsame, -, hstays⟩ | ⟨-, -, -, -, -, -, hmapId⟩ := put_spec hs p
  · rw [hsame, ← hnames]
    exact hstays
  · rw [hmapId, hnames]
    simp [switches]

theorem changed_put (hs : s.InStep) (p : AnyPiece Body) :
    ((s.put p).2 = false ∧ (s.put p).1 = s) ∨ ((s.put p).2 = true ∧ s.made < (s.put p).1.object) := by
  obtain ⟨hfalse, hsame, -⟩ | ⟨htrue, hobject, -⟩ := put_spec hs p
  · exact .inl ⟨hfalse, hsame⟩
  · exact .inr ⟨htrue, hobject⟩

/-- A backup changes something when one of its pieces does. -/
theorem changed_foldl {start : VacuumMapStore Body} {r : VacuumMapStore Body × Bool}
    (pieces : List (AnyPiece Body)) (hstep : r.1.InStep)
    (hr : (r.2 = false ∧ r.1 = start) ∨ (r.2 = true ∧ start.made < r.1.object)) :
    let r' := pieces.foldl (fun r p => ((r.1.put p).1, (r.1.put p).2 || r.2)) r
    (r'.2 = false ∧ r'.1 = start) ∨ (r'.2 = true ∧ start.made < r'.1.object) := by
  induction pieces generalizing r with
  | nil => exact hr
  | cons p pieces ih =>
    refine ih (r := ((r.1.put p).1, (r.1.put p).2 || r.2)) (inStep_put hstep p) ?_
    obtain ⟨hfalse, hsame⟩ | ⟨htrue, hobject⟩ := changed_put hstep p
    · rw [hfalse, hsame, Bool.false_or]
      exact hr
    · refine .inr ⟨by rw [htrue]; rfl, ?_⟩
      obtain ⟨-, hstart⟩ | ⟨-, hbefore⟩ := hr
      · rw [hstart] at hobject ⊢
        exact hobject
      · exact hbefore.trans_le (r.1.object_le.trans hobject.le)

/-- **`apply` answers `false` exactly when the snapshot stays the object it is.** -/
theorem apply_eq_false_iff (hs : s.InStep) (piece : VacuumMapPiece Body) :
    (s.apply piece).2 = false ↔ (s.apply piece).1.object = s.object := by
  have hchanged : ((s.apply piece).2 = false ∧ (s.apply piece).1 = s) ∨
      ((s.apply piece).2 = true ∧ s.made < (s.apply piece).1.object) := by
    cases piece with
    | stamped p => exact changed_put hs p
    | pose value => exact .inr ⟨rfl, Nat.lt_succ_self _⟩
    | backup value => exact changed_foldl (r := (s, false)) (piecesOf value) hs (.inl ⟨rfl, rfl⟩)
  obtain ⟨hfalse, hsame⟩ | ⟨htrue, hobject⟩ := hchanged
  · rw [hfalse, hsame]
    exact ⟨fun _ => rfl, fun _ => rfl⟩
  · have hle := s.object_le
    rw [htrue]
    exact ⟨nofun, fun h => absurd h (by omega)⟩

/-! ## Pieces of one map -/

def applyAll (s : VacuumMapStore Body) (pieces : List (VacuumMapPiece Body)) :
    VacuumMapStore Body :=
  pieces.foldl (fun s piece => (s.apply piece).1) s

def putAll (s : VacuumMapStore Body) (pieces : List (AnyPiece Body)) : VacuumMapStore Body :=
  pieces.foldl (fun s p => (s.put p).1) s

theorem applyBackup_fst (s : VacuumMapStore Body) (backup : VacuumMapBackup Body) :
    (s.applyBackup backup).1 = s.putAll (piecesOf backup) := by
  have hfold (pieces : List (AnyPiece Body)) (r : VacuumMapStore Body × Bool) :
      (pieces.foldl (fun r p => ((r.1.put p).1, (r.1.put p).2 || r.2)) r).1 =
        r.1.putAll pieces := by
    induction pieces generalizing r with
    | nil => rfl
    | cons p pieces ih => exact ih _
  exact hfold (piecesOf backup) (s, false)

/-- Pieces of map `m`, one after the other: what is left for `m` keeps the latest of each kind. -/
theorem left_putAll {m : ℕ} {pieces : List (AnyPiece Body)} (hs : s.InStep)
    (hnames : ∀ p ∈ pieces, p.2.mapId = some m) :
    (s.putAll pieces).InStep ∧
      (∀ kind, (s.putAll pieces).left (some m) kind =
        kept Stamped.releases (s.left (some m) kind) (ofKind kind pieces)) ∧
      (pieces ≠ [] → switches (s.putAll pieces).current.mapId (some m) = false) ∧
      (switches s.current.mapId (some m) = false →
        switches (s.putAll pieces).current.mapId (some m) = false) := by
  induction pieces generalizing s with
  | nil => exact ⟨hs, fun _ => rfl, fun hne => absurd rfl hne, id⟩
  | cons p pieces ih =>
    have hname := hnames p List.mem_cons_self
    have hsame := switches_put hs hname
    obtain ⟨hstep, hleft, -, hstays⟩ := ih (inStep_put hs p)
      fun q hq => hnames q (List.mem_cons_of_mem p hq)
    refine ⟨hstep, fun kind => ?_, fun _ => hstays hsame, fun _ => hstays hsame⟩
    have hcons : ofKind kind (p :: pieces) = ofKind kind [p] ++ ofKind kind pieces :=
      ofKind_append kind [p] pieces
    rw [hcons, kept_append, ← hname, ← piece_put hs p kind, hname]
    refine (hleft kind).trans ?_
    rw [left, hsame, if_neg Bool.false_ne_true]

/-- The same, alone or grouped in backups, with poses between them. -/
theorem left_applyAll {m : ℕ} {pieces : List (VacuumMapPiece Body)} (hs : s.InStep)
    (hnames : ∀ p ∈ pieces.flatMap VacuumMapPiece.stampedPieces, p.2.mapId = some m) :
    (∀ kind, (s.applyAll pieces).left (some m) kind = kept Stamped.releases (s.left (some m) kind)
        (ofKind kind (pieces.flatMap VacuumMapPiece.stampedPieces))) ∧
      (pieces.flatMap VacuumMapPiece.stampedPieces ≠ [] ∨
          switches s.current.mapId (some m) = false →
        switches (s.applyAll pieces).current.mapId (some m) = false) ∧
      (pieces.flatMap VacuumMapPiece.stampedPieces = [] →
        (s.applyAll pieces).current.piece = s.current.piece) := by
  induction pieces generalizing s with
  | nil => exact ⟨fun _ => rfl, fun h => h.resolve_left fun hne => absurd rfl hne, fun _ => rfl⟩
  | cons piece pieces ih =>
    rw [List.flatMap_cons] at hnames ⊢
    have hhere (p : AnyPiece Body) (hp : p ∈ piece.stampedPieces) : p.2.mapId = some m :=
      hnames p (List.mem_append_left _ hp)
    have hlater (p : AnyPiece Body)
        (hp : p ∈ pieces.flatMap VacuumMapPiece.stampedPieces) : p.2.mapId = some m :=
      hnames p (List.mem_append_right _ hp)
    -- A piece is its stamped pieces, one after the other, but for a pose.
    obtain ⟨hstep, hleft, hsome, hstays, hnone⟩ : (s.apply piece).1.InStep ∧
        (∀ kind, (s.apply piece).1.left (some m) kind = kept Stamped.releases
          (s.left (some m) kind) (ofKind kind piece.stampedPieces)) ∧
        (piece.stampedPieces ≠ [] → switches (s.apply piece).1.current.mapId (some m) = false) ∧
        (switches s.current.mapId (some m) = false →
          switches (s.apply piece).1.current.mapId (some m) = false) ∧
        (piece.stampedPieces = [] → (s.apply piece).1.current.piece = s.current.piece) := by
      cases piece with
      | stamped p =>
        obtain ⟨hstep, hleft, hsome, hstays⟩ := left_putAll hs hhere
        exact ⟨hstep, hleft, hsome, hstays, nofun⟩
      | pose value => exact ⟨hs, fun _ => rfl, fun hne => absurd rfl hne, id, fun _ => rfl⟩
      | backup value =>
        obtain ⟨hstep, hleft, hsome, hstays⟩ := left_putAll hs hhere
        have hput : (s.apply (.backup value)).1 = s.putAll (piecesOf value) :=
          applyBackup_fst s value
        rw [hput]
        refine ⟨hstep, hleft, hsome, hstays, fun hnil => ?_⟩
        rw [show piecesOf value = [] from hnil]
        rfl
    obtain ⟨hrest, hrestSwitches, hrestNone⟩ := ih hstep hlater
    refine ⟨fun kind => ?_, fun h => hrestSwitches ?_, fun hnil => ?_⟩
    · rw [ofKind_append, kept_append, ← hleft kind]
      exact hrest kind
    · obtain hne | hsame := h
      · by_cases hempty : piece.stampedPieces = []
        · rw [hempty, List.nil_append] at hne
          exact .inl hne
        · exact .inr (hsome hempty)
      · exact .inr (hstays hsame)
    · obtain ⟨hempty, hlaterEmpty⟩ := List.append_eq_nil_iff.mp hnil
      exact (hrestNone hlaterEmpty).trans (hnone hempty)

/-- **Pieces of one map, each with a revision of its own among those of its kind, may come in any
order**, alone or grouped in backups. -/
theorem piece_applyAll_perm {m : ℕ} {xs ys : List (VacuumMapPiece Body)} (hs : s.InStep)
    (hperm : (xs.flatMap VacuumMapPiece.stampedPieces).Perm
      (ys.flatMap VacuumMapPiece.stampedPieces))
    (hnames : ∀ p ∈ xs.flatMap VacuumMapPiece.stampedPieces, p.2.mapId = some m)
    (hdistinct : ∀ kind, (ofKind kind (xs.flatMap VacuumMapPiece.stampedPieces)).Pairwise
      fun p q => p.releases ≠ q.releases) :
    (s.applyAll xs).current.piece = (s.applyAll ys).current.piece := by
  obtain ⟨hleft, hsame, hnone⟩ := left_applyAll hs hnames
  obtain ⟨hleft', hsame', hnone'⟩ := left_applyAll hs fun p hp => hnames p (hperm.mem_iff.mpr hp)
  by_cases hempty : xs.flatMap VacuumMapPiece.stampedPieces = []
  · rw [hnone hempty, hnone' (List.nil_perm.mp (hempty ▸ hperm))]
  · have hempty' : ys.flatMap VacuumMapPiece.stampedPieces ≠ [] := fun hnil =>
      hempty (List.perm_nil.mp (hnil ▸ hperm))
    funext kind
    have hthere := hleft kind
    have hthere' := hleft' kind
    rw [left, hsame (.inl hempty), if_neg Bool.false_ne_true] at hthere
    rw [left, hsame' (.inl hempty'), if_neg Bool.false_ne_true] at hthere'
    rw [hthere, hthere']
    exact kept_perm (hperm.filterMap _) (hdistinct kind)

end VacuumMapStore

/-! ## Runs -/

namespace Heard

open VacuumMapStore

theorem settled_put {h : Heard Body} (hs : Settled h) (p : AnyPiece Body) : Settled (h.put p) where
  pose := (pose_put hs.revisions p).trans hs.pose
  piece := fun kind => by
    refine (piece_put hs.revisions p kind).trans ?_
    rw [put, left]
    dsimp only
    split
    · rfl
    · rw [ofKind_append, kept_append, hs.piece kind]
  revisions := inStep_put hs.revisions p
  named := fun kind held hheld m hm => by
    have hput : (h.put p).store = (h.store.put p).1 := rfl
    rw [hput] at hheld ⊢
    obtain ⟨-, hsame, -⟩ | ⟨-, -, -, -, hpiece, -, hmapId⟩ := put_spec hs.revisions p
    · rw [hsame] at hheld ⊢
      exact hs.named kind held hheld m hm
    · rw [hpiece] at hheld
      rw [hmapId]
      by_cases hkind : kind = p.1
      · subst hkind
        rw [Function.update_self] at hheld
        obtain rfl := Option.some.inj hheld
        rw [hm, Option.some_or]
      · rw [Function.update_of_ne hkind, left] at hheld
        split at hheld
        · cases hheld
        · next hstays =>
          have hloaded := hs.named kind held hheld m hm
          cases hname : p.2.mapId with
          | none => rw [Option.none_or, hloaded]
          | some other =>
            rw [hname, hloaded] at hstays
            rw [Option.some_or]
            simpa [switches] using hstays

theorem settled_call {h : Heard Body} (hs : Settled h) (c : MapCall Body) : Settled (h.call c) := by
  cases c with
  | clear =>
    exact { pose := rfl, piece := fun _ => rfl, revisions := fun _ => rfl, named := nofun }
  | apply piece =>
    cases piece with
    | stamped p => exact settled_put hs p
    | pose value =>
      exact { pose := rfl, piece := hs.piece, revisions := hs.revisions, named := hs.named }
    | backup backup =>
      have hall (pieces : List (AnyPiece Body)) {h : Heard Body} (hs : Settled h) :
          Settled (h.putAll pieces) := by
        induction pieces generalizing h with
        | nil => exact hs
        | cons p pieces ih => exact ih (settled_put hs p)
      exact hall (piecesOf backup) hs

theorem store_call (h : Heard Body) (c : MapCall Body) : (h.call c).store = h.store.call c := by
  cases c with
  | clear => rfl
  | apply piece =>
    cases piece with
    | stamped p => rfl
    | pose value => rfl
    | backup backup =>
      have hall (pieces : List (AnyPiece Body)) (h : Heard Body) :
          (h.putAll pieces).store = h.store.putAll pieces := by
        induction pieces generalizing h with
        | nil => rfl
        | cons p pieces ih => exact ih _
      exact (hall (piecesOf backup) h).trans (applyBackup_fst h.store backup).symm

theorem settled_behind (calls : List (MapCall Body)) :
    Settled (behind calls) ∧ (behind calls).store = VacuumMapStore.behind {} calls := by
  have hfold (h : Heard Body) (hs : Settled h) : Settled (calls.foldl call h) ∧
      (calls.foldl call h).store = h.store.behind calls := by
    induction calls generalizing h with
    | nil => exact ⟨hs, rfl⟩
    | cons c calls ih =>
      obtain ⟨hsettled, hstore⟩ := ih (h.call c) (settled_call hs c)
      refine ⟨hsettled, hstore.trans ?_⟩
      rw [store_call]
      rfl
  exact hfold {}
    { pose := rfl, piece := fun _ => rfl, revisions := fun _ => rfl, named := nofun }

end Heard

/-- What a store promises behind some calls: one map, the latest piece of each kind since the map was
switched, an answer that is `false` exactly for a snapshot that stays, the pose whatever map, and
the same pieces in whatever order those of one map are applied. -/
structure NeverMixes (h : Heard Body) (s : VacuumMapStore Body) : Prop where
  follows : h.store = s
  oneMap : ∀ kind held m, s.current.piece kind = some held → held.mapId = some m →
    s.current.mapId = some m
  heldIfAny : ∀ kind, s.current.piece kind = none ↔ ofKind kind h.pieces = []
  latest : ∀ kind held, s.current.piece kind = some held → held ∈ ofKind kind h.pieces ∧
    ∀ p ∈ ofKind kind h.pieces, p.releases ≤ held.releases
  answers : ∀ piece, (s.apply piece).2 = false ↔ (s.apply piece).1.object = s.object
  pose : s.current.pose = h.pose
  poseStays : ∀ p, (s.put p).1.current.pose = s.current.pose
  anyOrder : ∀ m (xs ys : List (VacuumMapPiece Body)),
    (xs.flatMap VacuumMapPiece.stampedPieces).Perm (ys.flatMap VacuumMapPiece.stampedPieces) →
    (∀ p ∈ xs.flatMap VacuumMapPiece.stampedPieces, p.2.mapId = some m) →
    (∀ kind, (ofKind kind (xs.flatMap VacuumMapPiece.stampedPieces)).Pairwise
      fun p q => p.releases ≠ q.releases) →
    (s.applyAll xs).current.piece = (s.applyAll ys).current.piece

end EufySdk
