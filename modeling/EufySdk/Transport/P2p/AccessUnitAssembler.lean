import Mathlib.Data.List.ReduceOption
import Mathlib.Tactic
import EufySdk.Lib.Groups
import EufySdk.Transport.P2p.VideoFrames

/-!
# Access units a station has split

`AccessUnitAssembler` of `transport/p2p/video.ts`: a station splits an access unit that is larger
than 64000 bytes over several frames, all but the last of them full, and the frames repeat the
header of the unit. The assembler keeps a unit while its last frame is full, and hands it on when a
shorter one continues it.

- `push`, `discard` — what the assembler does with one frame
- `feed` — the frames of a stream, one after the other
- `continues` — the cuts of a stream that is known whole
- `feed_eq` — fed one by one, the frames are grouped as in the stream that is known whole
-/

namespace EufySdk.Video

open Bytes

structure AssembledAccessUnit where
  keyframe : Bool
  width : ℤ
  height : ℤ
  data : Buffer
  deriving DecidableEq, Repr

def STATION_CHUNK_BYTES : ℕ := 64000

/-- A unit that is not complete. -/
structure OpenUnit where
  header : VideoFrameHeader
  chunks : List Buffer
  carried : ℕ
  deriving DecidableEq, Repr

/-- A call of `onDropped`. -/
structure DroppedUnit where
  carried : ℕ
  chunks : ℕ
  count : ℕ
  deriving DecidableEq, Repr

structure AccessUnitAssembler where
  openUnit : Option OpenUnit := none
  droppedUnits : ℕ := 0
  deriving DecidableEq, Repr

/-- What a frame carries of its unit. -/
structure Share where
  header : VideoFrameHeader
  body : Buffer
  deriving DecidableEq, Repr

/-- The share in a payload, where it has a header and `decode` finds bytes in it. -/
def shareOf (payload : Buffer) (decode : Buffer → Option Buffer) : Option Share := do
  let header ← parseVideoFrameHeader payload
  let body ← decode payload
  if body = [] then none else some { header, body }

def Share.full (s : Share) : Bool := s.header.payloadLength = STATION_CHUNK_BYTES

/-- Whether two frames describe the same access unit. -/
def sameUnit (opened next : VideoFrameHeader) : Bool :=
  next.timestamp = opened.timestamp && next.sequence = opened.sequence

/-- Whether a body begins with a start code. -/
def beginsAccessUnit : Buffer → Bool
  | b₀ :: b₁ :: b₂ :: b₃ :: _ => b₀ = 0 && b₁ = 0 && (b₂ = 1 || (b₂ = 0 && b₃ = 1))
  | _ => false

def unitOf (header : VideoFrameHeader) (data : Buffer) : AssembledAccessUnit :=
  { keyframe := header.keyframe, width := header.width, height := header.height, data }

namespace AccessUnitAssembler

/-- A unit that is not complete is forgotten and reported. -/
def discard (a : AccessUnitAssembler) : List DroppedUnit × AccessUnitAssembler :=
  match a.openUnit with
  | none => ([], a)
  | some opened =>
    let count := a.droppedUnits + 1
    ([{ carried := opened.carried, chunks := opened.chunks.length, count }],
      { openUnit := none, droppedUnits := count })

/-- What a frame brings about: the units it completes, the unit it drops, and the assembler
behind it. -/
structure Pushed where
  units : List AssembledAccessUnit
  dropped : List DroppedUnit
  next : AccessUnitAssembler

/-- A frame; `decode` finds the bytes in its payload. -/
def push (a : AccessUnitAssembler) (payload : Buffer) (decode : Buffer → Option Buffer) : Pushed :=
  match shareOf payload decode with
  | none => { units := [], dropped := a.discard.1, next := a.discard.2 }
  | some s =>
    match a.openUnit.filter fun o => sameUnit o.header s.header && !beginsAccessUnit s.body with
    | some o =>
      let o := { o with chunks := o.chunks ++ [s.body], carried := o.carried + s.body.length }
      if s.full then { units := [], dropped := [], next := { a with openUnit := some o } }
      else
        { units := [unitOf o.header o.chunks.flatten], dropped := []
          next := { a with openUnit := none } }
    | none =>
      if s.full then
        { units := [], dropped := a.discard.1
          next :=
            { a.discard.2 with
              openUnit := some { header := s.header, chunks := [s.body], carried := s.body.length } } }
      else
        { units := [unitOf s.header s.body], dropped := a.discard.1, next := a.discard.2 }

/-- What a payload does depends on the share in it alone. -/
theorem push_congr {a : AccessUnitAssembler} {payload : Buffer}
    {decode decode' : Buffer → Option Buffer}
    (h : shareOf payload decode = shareOf payload decode') :
    a.push payload decode = a.push payload decode' := by
  rw [push, push, h]

/-- A frame of a stream, and what finds the bytes in it when it comes. -/
structure Frame where
  payload : Buffer
  decode : Buffer → Option Buffer

/-- The frames of a stream, one after the other: all that is handed on and all that is dropped. -/
def feed (frames : List Frame) : Pushed :=
  frames.foldl
    (fun p f =>
      let q := p.next.push f.payload f.decode
      { units := p.units ++ q.units, dropped := p.dropped ++ q.dropped, next := q.next })
    { units := [], dropped := [], next := {} }

def Frame.share (f : Frame) : Option Share := shareOf f.payload f.decode

/-! ## A stream that is known whole -/

/-- Whether a frame goes on with the unit of the one before it. -/
def continues : Option Share → Option Share → Bool
  | some a, some b => a.full && sameUnit a.header b.header && !beginsAccessUnit b.body
  | _, _ => false

/-- The frames of a stream, cut where one does not go on with the one before it. -/
def groups (frames : List Frame) : List (List (Option Share)) :=
  (frames.map Frame.share).splitBy continues

/-- The unit that frames are what has come of, if it is not complete. -/
def incomplete (group : List (Option Share)) : Option OpenUnit :=
  match group.reduceOption with
  | [] => none
  | first :: rest =>
    if ((first :: rest).getLast (List.cons_ne_nil _ _)).full then
      some
        { header := first.header, chunks := (first :: rest).map Share.body
          carried := (((first :: rest).map Share.body).map List.length).sum }
    else none

/-- The unit that frames make up. -/
def complete (group : List (Option Share)) : Option AssembledAccessUnit :=
  match group.reduceOption with
  | [] => none
  | first :: rest =>
    if ((first :: rest).getLast (List.cons_ne_nil _ _)).full then none
    else some (unitOf first.header ((first :: rest).map Share.body).flatten)

/-- The reports of units that are dropped, counted from one on. -/
def reports (units : List OpenUnit) : List DroppedUnit :=
  units.mapIdx fun i o => { carried := o.carried, chunks := o.chunks.length, count := i + 1 }

/-! ## Shares of one unit -/

variable {first s l : Share} {rest : List Share} {o : OpenUnit} {x y : Option Share}
  {g : List (Option Share)} {a : AccessUnitAssembler}

theorem continues_iff :
    continues x y = true ↔ ∃ l s, x = some l ∧ y = some s ∧ l.full = true ∧
      sameUnit l.header s.header = true ∧ beginsAccessUnit s.body = false := by
  cases x with
  | none => simp [continues]
  | some l =>
    cases y with
    | none => simp [continues]
    | some s => simp [continues, and_assoc]

@[simp] theorem reduceOption_map_some (shares : List Share) :
    (shares.map some).reduceOption = shares := by
  rw [List.reduceOption, List.filterMap_map]
  exact List.filterMap_some

theorem incomplete_map_some :
    incomplete ((first :: rest).map some) =
      if ((first :: rest).getLast (List.cons_ne_nil _ _)).full then
        some
          { header := first.header, chunks := (first :: rest).map Share.body
            carried := (((first :: rest).map Share.body).map List.length).sum }
      else none := by
  rw [incomplete, reduceOption_map_some]

theorem complete_map_some :
    complete ((first :: rest).map some) =
      if ((first :: rest).getLast (List.cons_ne_nil _ _)).full then none
      else some (unitOf first.header ((first :: rest).map Share.body).flatten) := by
  rw [complete, reduceOption_map_some]

theorem incomplete_singleton (s : Share) :
    incomplete [some s] =
      if s.full then some { header := s.header, chunks := [s.body], carried := s.body.length }
      else none := by
  have h : incomplete ([s].map some) = _ := incomplete_map_some
  simpa using h

theorem complete_singleton (s : Share) :
    complete [some s] = if s.full then none else some (unitOf s.header s.body) := by
  have h : complete ([s].map some) = _ := complete_map_some
  simpa using h

theorem sameUnit_iff {h h' : VideoFrameHeader} :
    sameUnit h h' = true ↔ (h'.timestamp, h'.sequence) = (h.timestamp, h.sequence) := by
  simp [sameUnit]

theorem sameUnit_congr {h h' : VideoFrameHeader} (hsame : sameUnit h h' = true) :
    sameUnit h = sameUnit h' := by
  obtain ⟨htime, hseq⟩ := Bool.and_eq_true_iff.mp hsame
  funext k
  rw [sameUnit, sameUnit, of_decide_eq_true htime, of_decide_eq_true hseq]

/-- The frames of a group: one that carries nothing, or shares of one unit. -/
theorem shares_of_chain (hne : g ≠ []) (hchain : g.IsChain fun x y => continues x y) :
    g = [none] ∨ ∃ first rest, g = (first :: rest).map some ∧
      ∀ s ∈ first :: rest, sameUnit s.header = sameUnit first.header := by
  induction g with
  | nil => exact absurd rfl hne
  | cons x g ih =>
    cases g with
    | nil =>
      cases x with
      | none => exact .inl rfl
      | some s =>
        refine .inr ⟨s, [], rfl, fun t ht => ?_⟩
        rw [List.mem_singleton.mp ht]
    | cons y g =>
      obtain ⟨hxy, htail⟩ := List.isChain_cons_cons.mp hchain
      obtain hnone | ⟨first, rest, hg, hsame⟩ := ih (List.cons_ne_nil _ _) htail
      · rw [(List.cons_eq_cons.mp hnone).1] at hxy
        cases x <;> cases hxy
      · obtain rfl := (List.cons_eq_cons.mp hg).1
        cases x with
        | none => cases hxy
        | some s =>
          refine .inr ⟨s, first :: rest, congrArg (some s :: ·) hg, fun t ht => ?_⟩
          have hfirst : sameUnit s.header = sameUnit first.header := by
            obtain ⟨l, t, hl, ht, -, hsame, -⟩ := continues_iff.mp hxy
            obtain rfl := Option.some.inj hl
            obtain rfl := Option.some.inj ht
            exact sameUnit_congr hsame
          rcases List.mem_cons.mp ht with rfl | ht
          · rfl
          · rw [hfirst, hsame t ht]

/-! ## One frame -/

variable {f : Frame}

/-- A unit that is not complete is known by its first frame, and its last frame is full. -/
theorem incomplete_eq_some (hchain : g.IsChain fun x y => continues x y)
    (hopen : incomplete g = some o) :
    ∃ first rest, g = (first :: rest).map some ∧
      ((first :: rest).getLast (List.cons_ne_nil _ _)).full = true ∧
      (∀ s ∈ first :: rest, sameUnit s.header = sameUnit first.header) ∧
      o = { header := first.header, chunks := (first :: rest).map Share.body
            carried := (((first :: rest).map Share.body).map List.length).sum } := by
  have hne : g ≠ [] := by
    rintro rfl
    cases hopen
  obtain rfl | ⟨first, rest, rfl, hsame⟩ := shares_of_chain hne hchain
  · cases hopen
  · rw [incomplete_map_some] at hopen
    obtain ⟨hfull, ho⟩ := Option.ite_none_right_eq_some.mp hopen
    exact ⟨first, rest, rfl, hfull, hsame, (Option.some.inj ho).symm⟩

/-- Frames that end in a full one make up no unit. -/
theorem complete_eq_none (hchain : g.IsChain fun x y => continues x y)
    (hlast : g.getLast? = some (some l)) (hfull : l.full = true) : complete g = none := by
  have hne : g ≠ [] := by
    rintro rfl
    cases hlast
  obtain rfl | ⟨first, rest, rfl, -⟩ := shares_of_chain hne hchain
  · rfl
  · rw [List.getLast?_map, List.getLast?_eq_some_getLast (List.cons_ne_nil _ _)] at hlast
    rw [complete_map_some, if_pos]
    rw [Option.some.inj (Option.some.inj hlast)]
    exact hfull

/-- A frame that does not go on with the last one does not go on with the unit. -/
theorem parted_of_incomplete (hchain : g.IsChain fun x y => continues x y)
    (hlast : g.getLast? = some x) (hcont : continues x y = false) (ho : incomplete g = some o)
    (hy : y = some s) : (sameUnit o.header s.header && !beginsAccessUnit s.body) = false := by
  obtain ⟨first, rest, rfl, hfull, hunit, rfl⟩ := incomplete_eq_some hchain ho
  rw [List.getLast?_map, List.getLast?_eq_some_getLast (List.cons_ne_nil _ _)] at hlast
  obtain rfl := Option.some.inj hlast
  rw [hy, continues, hfull, hunit _ (List.getLast_mem _), Bool.true_and] at hcont
  exact hcont

/-- A frame that goes on with the last one is added to the unit. -/
theorem push_of_continues (hchain : g.IsChain fun x y => continues x y)
    (hlast : g.getLast? = some x) (hopen : a.openUnit = incomplete g)
    (hcont : continues x f.share = true) :
    a.push f.payload f.decode =
      { units := (complete (g ++ [f.share])).toList, dropped := []
        next := { a with openUnit := incomplete (g ++ [f.share]) } } := by
  obtain ⟨l, s, rfl, hs, hfull, hsame, hmid⟩ := continues_iff.mp hcont
  have hne : g ≠ [] := by
    rintro rfl
    cases hlast
  obtain rfl | ⟨first, rest, rfl, hunit⟩ := shares_of_chain hne hchain
  · cases hlast
  have hl : l = (first :: rest).getLast (List.cons_ne_nil _ _) := by
    rw [List.getLast?_map, List.getLast?_eq_some_getLast (List.cons_ne_nil _ _)] at hlast
    exact (Option.some.inj (Option.some.inj hlast)).symm
  have hfirst : sameUnit first.header s.header = true := by
    rw [← hunit l (hl ▸ List.getLast_mem _)]
    exact hsame
  have hgrown : (first :: rest).map some ++ [some s] = (first :: (rest ++ [s])).map some := by
    simp
  have hend : (first :: (rest ++ [s])).getLast (List.cons_ne_nil _ _) = s := by simp
  rw [incomplete_map_some, if_pos (hl ▸ hfull)] at hopen
  rw [hs, hgrown, incomplete_map_some, complete_map_some, hend]
  change shareOf f.payload f.decode = some s at hs
  rw [push, hs, hopen]
  simp only [Option.filter_some, hfirst, hmid, Bool.not_false, Bool.and_self, if_true]
  by_cases hshort : s.full = true
  · simp [hshort, Nat.add_assoc]
  · simp [hshort, unitOf]

theorem discard_next (a : AccessUnitAssembler) :
    a.discard.2 = { openUnit := none, droppedUnits := a.discard.2.droppedUnits } := by
  rw [discard]
  cases hopen : a.openUnit with
  | none => simp [← hopen]
  | some o => rfl

/-- A frame that goes on with no unit drops the one that is not complete. -/
theorem push_of_parted
    (hparted : ∀ o ∈ a.openUnit, ∀ s ∈ f.share,
      (sameUnit o.header s.header && !beginsAccessUnit s.body) = false) :
    a.push f.payload f.decode =
      { units := (complete [f.share]).toList, dropped := a.discard.1
        next := { openUnit := incomplete [f.share], droppedUnits := a.discard.2.droppedUnits } } := by
  cases hs : f.share with
  | none =>
    change shareOf f.payload f.decode = none at hs
    rw [push, hs]
    exact congrArg (Pushed.mk [] a.discard.1) a.discard_next
  | some s =>
    have hnone : (a.openUnit.filter fun o =>
        sameUnit o.header s.header && !beginsAccessUnit s.body) = none := by
      rw [Option.filter_eq_none_iff]
      intro o ho
      rw [hparted o ho s hs]
      exact Bool.false_ne_true
    rw [incomplete_singleton, complete_singleton]
    change shareOf f.payload f.decode = some s at hs
    rw [push, hs]
    simp only [hnone]
    by_cases hfull : s.full = true
    · simp [hfull]
    · simp only [hfull, if_false, Option.toList_some, Bool.false_eq_true]
      rw [← discard_next]

/-! ## Whole streams -/

theorem feed_concat (frames : List Frame) (f : Frame) :
    feed (frames ++ [f]) =
      { units := (feed frames).units ++ ((feed frames).next.push f.payload f.decode).units
        dropped := (feed frames).dropped ++ ((feed frames).next.push f.payload f.decode).dropped
        next := ((feed frames).next.push f.payload f.decode).next } := by
  rw [feed, List.foldl_concat]
  rfl

theorem reports_concat (units : List OpenUnit) (o : OpenUnit) :
    reports (units ++ [o]) = reports units ++
      [{ carried := o.carried, chunks := o.chunks.length, count := units.length + 1 }] := by
  simp [reports, List.mapIdx_append]

/-- What is dropped when a unit is given up is its report. -/
theorem reports_discard (units : List OpenUnit) (hcount : a.droppedUnits = units.length) :
    reports units ++ a.discard.1 = reports (units ++ a.openUnit.toList) ∧
      a.discard.2.droppedUnits = (units ++ a.openUnit.toList).length := by
  rw [discard]
  cases hopen : a.openUnit with
  | none => simp [hcount]
  | some o => simp [hcount, reports_concat]

theorem filterMap_concat {α β : Type} (p : α → Option β) (as : List α) (a : α) :
    (as ++ [a]).filterMap p = as.filterMap p ++ (p a).toList := by
  cases h : p a <;> simp [h]

/-- **Fed one by one, the frames of a stream are grouped as in the stream that is known whole.** The
groups that end in a frame that is not full are handed on, each other one is reported when the next
frame does not go on with it, and the last one is kept. -/
theorem feed_groups (frames : List Frame) :
    feed frames =
      { units := (groups frames).filterMap complete
        dropped := reports ((groups frames).dropLast.filterMap incomplete)
        next :=
          { openUnit := (groups frames).getLast?.bind incomplete
            droppedUnits := ((groups frames).dropLast.filterMap incomplete).length } } := by
  induction frames using List.reverseRecOn with
  | nil => rfl
  | append_singleton frames f ih =>
    rw [feed_concat, ih]
    obtain hnil | ⟨gs, g, hgs⟩ := List.eq_nil_or_concat (groups frames)
    · obtain rfl : frames = [] := List.map_eq_nil_iff.mp (List.splitBy_eq_nil.mp hnil)
      rw [push_of_parted fun o ho => absurd ho (Option.not_mem_none _)]
      have hone : groups ([] ++ [f]) = [] ++ [[f.share]] := rfl
      rw [hone, filterMap_concat, List.dropLast_concat, List.getLast?_concat]
      rfl
    · rw [List.concat_eq_append] at hgs
      have hmem : g ∈ groups frames := hgs ▸ List.mem_append_right gs List.mem_cons_self
      have hchain := List.isChain_of_mem_splitBy hmem
      obtain ⟨x, hx⟩ : ∃ x, g.getLast? = some x :=
        ⟨_, List.getLast?_eq_some_getLast (List.ne_nil_of_mem_splitBy hmem)⟩
      have hlast := (Groups.getLast?_of_splitBy_eq hgs).trans hx
      have hstep : groups (frames ++ [f]) =
          (frames.map Frame.share ++ [f.share]).splitBy continues := by
        rw [groups, List.map_append]
        rfl
      rw [hgs]
      simp only [List.dropLast_concat, List.getLast?_concat, Option.bind_some]
      cases hcont : continues x f.share with
      | true =>
        obtain ⟨l, -, rfl, -, hfull, -, -⟩ := continues_iff.mp hcont
        rw [push_of_continues hchain hx rfl hcont, hstep,
          Groups.splitBy_concat_of_continues hgs hlast hcont, filterMap_concat, filterMap_concat,
          complete_eq_none hchain hx hfull]
        simp
      | false =>
        rw [push_of_parted fun o ho s hs => parted_of_incomplete hchain hx hcont ho hs, hstep,
          Groups.splitBy_concat_of_parted fun y hy => ?_]
        · have hdropped := reports_discard (a :=
            { openUnit := incomplete g, droppedUnits := (gs.filterMap incomplete).length })
            (gs.filterMap incomplete) rfl
          rw [← groups, hgs, List.dropLast_concat, List.getLast?_concat, hdropped.1, hdropped.2]
          simp only [filterMap_concat]
          rfl
        · obtain rfl := Option.some.inj (hlast.symm.trans hy)
          exact hcont

/-! ## No byte is lost or handed on twice -/

/-- The bytes in the frames of a group. -/
def carriedBytes (group : List (Option Share)) : Buffer :=
  (group.reduceOption.map Share.body).flatten

/-- The bytes of a group are handed on or still wanting their end, not both. -/
theorem length_carriedBytes (g : List (Option Share)) :
    (carriedBytes g).length =
      ((complete g).toList.map (·.data.length)).sum + ((incomplete g).toList.map (·.carried)).sum := by
  rw [carriedBytes, complete, incomplete]
  cases g.reduceOption with
  | nil => rfl
  | cons first rest =>
    by_cases hfull : ((first :: rest).getLast (List.cons_ne_nil _ _)).full = true
    · simp [hfull, List.length_flatten]
    · simp [hfull, unitOf, List.length_flatten]

theorem sum_length_carriedBytes (gs : List (List (Option Share))) :
    (gs.map fun g => (carriedBytes g).length).sum =
      ((gs.filterMap complete).map (·.data.length)).sum +
        ((gs.filterMap incomplete).map (·.carried)).sum := by
  induction gs with
  | nil => rfl
  | cons g gs ih =>
    have hcons {β : Type} (p : List (Option Share) → Option β) :
        (g :: gs).filterMap p = (p g).toList ++ gs.filterMap p := by
      cases h : p g <;> simp [h]
    rw [List.map_cons, List.sum_cons, ih, length_carriedBytes, hcons, hcons, List.map_append,
      List.map_append, List.sum_append, List.sum_append]
    omega

theorem sum_carried_reports (units : List OpenUnit) :
    ((reports units).map (·.carried)).sum = (units.map (·.carried)).sum := by
  induction units using List.reverseRecOn with
  | nil => rfl
  | append_singleton units o ih => simp [reports_concat, ih]

/-- The bytes that `decode` finds in the frames of a stream. -/
def decodedBytes (frames : List Frame) : Buffer :=
  ((frames.map Frame.share).reduceOption.map Share.body).flatten

theorem carriedBytes_groups (frames : List Frame) :
    ((groups frames).map carriedBytes).flatten = decodedBytes frames := by
  have hjoin (gs : List (List (Option Share))) :
      (gs.map carriedBytes).flatten = (gs.flatten.reduceOption.map Share.body).flatten := by
    induction gs with
    | nil => rfl
    | cons g gs ih =>
      rw [List.map_cons, List.flatten_cons, ih, List.flatten_cons, carriedBytes,
        List.reduceOption_append, List.map_append, List.flatten_append]
  rw [hjoin, groups, List.flatten_splitBy]
  rfl

/-- The units that are not complete are those before the last group and the last one. -/
theorem filterMap_incomplete_groups (gs : List (List (Option Share))) :
    gs.filterMap incomplete =
      gs.dropLast.filterMap incomplete ++ (gs.getLast?.bind incomplete).toList := by
  obtain rfl | ⟨gs, g, rfl⟩ := List.eq_nil_or_concat gs
  · rfl
  · rw [List.concat_eq_append, filterMap_concat, List.dropLast_concat, List.getLast?_concat]
    rfl

/-- **The assembler merges no units and loses no byte.** Whatever frames come, those of one unit are
the ones that each go on with the one before; a unit that ends is handed on as its frames' bytes one
behind the other, one that does not is reported with all it carried and the count so far, and every
byte found in a frame is in one unit, in one report or in the unit that is kept. -/
theorem feed_partitions (frames : List Frame) :
    (groups frames).flatten = frames.map Frame.share ∧
      (∀ g ∈ groups frames, g.IsChain fun x y => continues x y) ∧
      (feed frames).units = (groups frames).filterMap complete ∧
      (feed frames).dropped = reports ((groups frames).dropLast.filterMap incomplete) ∧
      (feed frames).next.openUnit = (groups frames).getLast?.bind incomplete ∧
      ((feed frames).units.map (·.data.length)).sum + ((feed frames).dropped.map (·.carried)).sum +
        ((feed frames).next.openUnit.toList.map (·.carried)).sum = (decodedBytes frames).length := by
  have hfeed := feed_groups frames
  refine ⟨List.flatten_splitBy _ _, fun g hg => List.isChain_of_mem_splitBy hg, ?_, ?_, ?_, ?_⟩
  · rw [hfeed]
  · rw [hfeed]
  · rw [hfeed]
  · have hbytes := sum_length_carriedBytes (groups frames)
    rw [filterMap_incomplete_groups, List.map_append, List.sum_append] at hbytes
    rw [← carriedBytes_groups, List.length_flatten, List.map_map, hfeed]
    simp only [sum_carried_reports]
    rw [Nat.add_assoc]
    exact hbytes.symm

/-! ## A station's units, some of whose frames are lost -/

/-- A unit as a station splits it: its frames repeat its header, all but the last are full, and all
but the first begin inside of it. -/
structure StationUnit where
  shares : List Share
  shares_ne : shares ≠ []
  same : ∀ s ∈ shares, ∀ t ∈ shares, sameUnit s.header t.header = true
  full : ∀ s ∈ shares.dropLast, s.full = true
  short : (shares.getLast shares_ne).full = false
  inside : ∀ s ∈ shares.tail, beginsAccessUnit s.body = false

namespace StationUnit

variable (u : StationUnit)

/-- The last frame of a unit. -/
def last : Share := u.shares.getLast u.shares_ne

/-- The unit as the station has it. -/
def whole : AssembledAccessUnit :=
  unitOf (u.shares.head u.shares_ne).header (u.shares.map Share.body).flatten

/-- What tells the units of a stream apart. -/
def identity : ℕ × ℕ :=
  ((u.shares.head u.shares_ne).header.timestamp, (u.shares.head u.shares_ne).header.sequence)

theorem eq_last_iff {s : Share} (hs : s ∈ u.shares) : s.full = false ↔ s = u.last := by
  constructor
  · intro hshort
    rw [← List.dropLast_append_getLast u.shares_ne] at hs
    rcases List.mem_append.mp hs with hinit | hlast
    · rw [u.full s hinit] at hshort
      cases hshort
    · exact List.mem_singleton.mp hlast
  · rintro rfl
    exact u.short

/-- Each frame of a unit goes on with every one before it. -/
theorem pairwise_continues :
    (u.shares.map some).Pairwise fun x y => continues x y = true := by
  rw [List.pairwise_map, List.pairwise_iff_getElem]
  intro i j hi hj hij
  refine continues_iff.mpr ⟨u.shares[i], u.shares[j], rfl, rfl, ?_,
    u.same _ (List.getElem_mem hi) _ (List.getElem_mem hj), ?_⟩
  · refine u.full _ (List.mem_iff_getElem.mpr ⟨i, ?_, List.getElem_dropLast _⟩)
    rw [List.length_dropLast]
    omega
  · refine u.inside _ (List.mem_iff_getElem.mpr ⟨j - 1, ?_, ?_⟩)
    · rw [List.length_tail]
      omega
    · rw [List.getElem_tail]
      congr 1
      omega

end StationUnit

/-- A unit on its way: the frames of it that arrive, in order. -/
structure Transmission where
  unit : StationUnit
  arrived : List Share
  sublist : arrived.Sublist unit.shares
  frames : List Frame
  shares_frames : frames.map Frame.share = arrived.map some

namespace Transmission

variable {t t' : Transmission}

/-- What comes of a unit: it is handed on when its last frame arrives, as what has arrived of it. -/
def handedOn (t : Transmission) : Option AssembledAccessUnit :=
  match t.arrived with
  | [] => none
  | first :: rest =>
    if (first :: rest).getLast? = some t.unit.last then
      some (unitOf first.header ((first :: rest).map Share.body).flatten)
    else none

/-- Some frames of the unit arrive, and not its last one. -/
def Truncated (t : Transmission) : Prop :=
  t.arrived ≠ [] ∧ t.arrived.getLast? ≠ some t.unit.last

instance (t : Transmission) : Decidable t.Truncated := inferInstanceAs (Decidable (_ ∧ _))

/-- The frames that arrive of a unit as a group. -/
def group (t : Transmission) : List (Option Share) := t.arrived.map some

theorem mem_shares (t : Transmission) {s : Share} (hs : s ∈ t.arrived) : s ∈ t.unit.shares :=
  t.sublist.subset hs

theorem complete_group (t : Transmission) : complete t.group = t.handedOn := by
  rw [group, handedOn]
  cases harrived : t.arrived with
  | nil => rfl
  | cons first rest =>
    have hlast := t.unit.eq_last_iff (t.mem_shares (s := (first :: rest).getLast
      (List.cons_ne_nil _ _)) (by rw [harrived]; exact List.getLast_mem _))
    simp only [complete_map_some, List.getLast?_eq_some_getLast (List.cons_ne_nil first rest),
      Option.some.injEq, ← hlast]
    cases ((first :: rest).getLast (List.cons_ne_nil _ _)).full <;> rfl

theorem incomplete_group (t : Transmission) :
    (incomplete t.group).isSome = true ↔ t.Truncated := by
  unfold group Truncated
  cases harrived : t.arrived with
  | nil => simp [incomplete]
  | cons first rest =>
    have hlast := t.unit.eq_last_iff (t.mem_shares (s := (first :: rest).getLast
      (List.cons_ne_nil _ _)) (by rw [harrived]; exact List.getLast_mem _))
    rw [incomplete_map_some, List.getLast?_eq_some_getLast (List.cons_ne_nil first rest)]
    simp only [ne_eq, Option.some.injEq, ← hlast, reduceCtorEq, not_false_eq_true, true_and]
    cases ((first :: rest).getLast (List.cons_ne_nil _ _)).full <;> simp

theorem isChain_group (t : Transmission) : t.group.IsChain fun x y => continues x y = true :=
  ((t.unit.pairwise_continues).sublist (t.sublist.map some)).isChain

/-- The frames of one unit do not go on with those of another. -/
theorem parted_group (hother : t.unit.identity ≠ t'.unit.identity) (hne : t.group ≠ [])
    (hne' : t'.group ≠ []) : continues (t.group.getLast hne) (t'.group.head hne') = false := by
  rw [Bool.eq_false_iff]
  intro hcont
  obtain ⟨l, s, hl, hs, -, hsame, -⟩ := continues_iff.mp hcont
  have hmem : l ∈ t.arrived := by
    have := hl ▸ List.getLast_mem hne
    simpa [group] using this
  have hmem' : s ∈ t'.arrived := by
    have := hs ▸ List.head_mem hne'
    simpa [group] using this
  have hhead := t.unit.same _ (List.head_mem t.unit.shares_ne) l (t.mem_shares hmem)
  have hhead' := t'.unit.same s (t'.mem_shares hmem') _ (List.head_mem t'.unit.shares_ne)
  rw [sameUnit_iff] at hsame hhead hhead'
  exact hother (hhead'.trans (hsame.trans hhead)).symm

theorem group_eq_nil : t.group = [] ↔ t.arrived = [] := List.map_eq_nil_iff

/-- A unit that loses frames from its end only is handed on when it loses none, as it was sent. -/
theorem handedOn_of_prefix (hcut : t.arrived <+: t.unit.shares) :
    t.handedOn = if t.arrived = t.unit.shares then some t.unit.whole else none := by
  have hshares := t.unit.shares_ne
  by_cases hall : t.arrived = t.unit.shares
  · rw [if_pos hall, handedOn]
    cases harrived : t.arrived with
    | nil => exact absurd (harrived ▸ hall).symm hshares
    | cons first rest =>
      have hunit : t.unit.shares = first :: rest := hall.symm.trans harrived
      have hlast : (first :: rest).getLast? = some t.unit.last := by
        rw [StationUnit.last, ← List.getLast?_eq_some_getLast, hunit]
      simp only [hlast, if_true, StationUnit.whole, hunit, List.head_cons]
  · rw [if_neg hall, handedOn]
    cases harrived : t.arrived with
    | nil => rfl
    | cons first rest =>
      simp only
      rw [if_neg]
      intro hlast
      -- A last frame that arrives behind all frames before it leaves none to be lost.
      obtain ⟨tail, htail⟩ := hcut
      have hshort : t.unit.last.full = false := t.unit.short
      have hmem : t.unit.last ∈ t.arrived := harrived ▸ List.mem_of_getLast? hlast
      have hnil : tail ≠ [] := by
        rintro rfl
        exact hall (by rw [← htail, List.append_nil])
      have hinit : t.unit.last ∈ t.unit.shares.dropLast := by
        rw [← htail, List.dropLast_append_of_ne_nil hnil]
        exact List.mem_append_left _ hmem
      rw [t.unit.full _ hinit] at hshort
      cases hshort

end Transmission

variable {ts : List Transmission}

/-- The frames that arrive are grouped by the units that they are of. -/
theorem groups_transmissions (hdistinct : (ts.map fun t => t.unit.identity).Nodup) :
    groups (ts.flatMap Transmission.frames) =
      (ts.filter fun t => t.arrived ≠ []).map Transmission.group := by
  have hflat : (ts.flatMap Transmission.frames).map Frame.share =
      ((ts.filter fun t => t.arrived ≠ []).map Transmission.group).flatten := by
    clear hdistinct
    induction ts with
    | nil => rfl
    | cons t ts ih =>
      rw [List.flatMap_cons, List.map_append, ih, t.shares_frames]
      by_cases hnil : t.arrived = []
      · simp [hnil]
      · simp [hnil, Transmission.group]
  have hne : ∀ t ∈ ts.filter fun t => t.arrived ≠ [], t.group ≠ [] := by
    intro t ht
    rw [ne_eq, Transmission.group_eq_nil]
    simpa using (List.mem_filter.mp ht).2
  rw [groups, hflat]
  refine List.splitBy_flatten ?_ ?_ ?_
  · intro hnil
    obtain ⟨t, ht, hgroup⟩ := List.mem_map.mp hnil
    exact hne t ht hgroup
  · intro g hg
    obtain ⟨t, -, rfl⟩ := List.mem_map.mp hg
    exact t.isChain_group
  · rw [List.isChain_map]
    have hpair : (ts.filter fun t => t.arrived ≠ []).Pairwise fun t t' =>
        t.unit.identity ≠ t'.unit.identity :=
      (List.pairwise_map.mp hdistinct).filter _
    refine (List.Pairwise.imp_of_mem ?_ hpair).isChain
    intro t t' ht ht' hother
    exact ⟨hne t ht, hne t' ht', Transmission.parted_group hother _ _⟩

theorem filterMap_group {β : Type} (p : List (Option Share) → Option β) (hp : p [] = none) :
    ((ts.filter fun t => t.arrived ≠ []).map Transmission.group).filterMap p =
      ts.filterMap fun t => p t.group := by
  induction ts with
  | nil => rfl
  | cons t ts ih =>
    by_cases hnil : t.arrived = []
    · have hnone : p t.group = none := by rw [Transmission.group, hnil]; exact hp
      simpa [hnil, hnone] using ih
    · rw [List.filter_cons_of_pos (by simpa using hnil), List.map_cons, List.filterMap_cons,
        List.filterMap_cons, ih]

theorem length_filterMap_incomplete :
    (ts.filterMap fun t => incomplete t.group).length =
      ts.countP fun t => t.Truncated := by
  induction ts with
  | nil => rfl
  | cons t ts ih =>
    have ht := t.incomplete_group
    rw [List.countP_cons, ← ih, List.filterMap_cons]
    cases hgroup : incomplete t.group with
    | none =>
      rw [hgroup] at ht
      simp [mt ht.mpr]
    | some o =>
      rw [hgroup] at ht
      simp [ht.mp rfl]

theorem units_transmissions (hdistinct : (ts.map fun t => t.unit.identity).Nodup) :
    (feed (ts.flatMap Transmission.frames)).units = ts.filterMap Transmission.handedOn := by
  rw [feed_groups, groups_transmissions hdistinct, filterMap_group _ rfl]
  exact congrArg (List.filterMap · ts) (funext Transmission.complete_group)

/-- Where units only lose their ends, those that lose nothing are handed on. -/
theorem filterMap_handedOn_of_prefix (hcut : ∀ t ∈ ts, t.arrived <+: t.unit.shares) :
    ts.filterMap Transmission.handedOn =
      (ts.filter fun t => t.arrived = t.unit.shares).map fun t => t.unit.whole := by
  induction ts with
  | nil => rfl
  | cons t ts ih =>
    have hhere := Transmission.handedOn_of_prefix (hcut t List.mem_cons_self)
    rw [List.filterMap_cons, hhere, ih fun t' ht' => hcut t' (List.mem_cons_of_mem t ht')]
    by_cases hall : t.arrived = t.unit.shares
    · simp [hall]
    · simp [hall]

/-- **What a station's units come to when frames are lost.** However many frames are lost, and
whichever, the units whose last frame arrives are handed on, once each and in order, as what has
arrived of them, and every other one that something has arrived of is reported or still kept. Where
units only lose their ends, those handed on are exactly those that lose nothing, as the station sent
them. -/
theorem feed_transmissions (ts : List Transmission)
    (hdistinct : (ts.map fun t => t.unit.identity).Nodup) :
    (feed (ts.flatMap Transmission.frames)).units = ts.filterMap Transmission.handedOn ∧
      (feed (ts.flatMap Transmission.frames)).dropped.length +
          (feed (ts.flatMap Transmission.frames)).next.openUnit.toList.length =
        ts.countP (fun t => t.Truncated) ∧
      ((∀ t ∈ ts, t.arrived <+: t.unit.shares) →
        (feed (ts.flatMap Transmission.frames)).units =
          (ts.filter fun t => t.arrived = t.unit.shares).map fun t => t.unit.whole) := by
  refine ⟨units_transmissions hdistinct, ?_, fun hcut => ?_⟩
  · rw [← length_filterMap_incomplete, ← filterMap_group incomplete rfl,
      ← groups_transmissions hdistinct, filterMap_incomplete_groups, List.length_append,
      feed_groups]
    simp [reports]
  · rw [units_transmissions hdistinct, filterMap_handedOn_of_prefix hcut]

/-! ### A keyframe that loses its end, and the unit behind it -/

/-- A frame that is not encrypted. -/
def plainFrame (head body : Buffer) : Frame where
  payload := head ++ body
  decode data := some (data.drop HEADER_LEN)

theorem share_plainFrame {head : Buffer} (body : Buffer) {header : VideoFrameHeader}
    (hlength : head.length = HEADER_LEN) (hparse : parseVideoFrameHeader head = some header)
    (hbody : body ≠ []) : (plainFrame head body).share = some { header, body } := by
  have hdrop : (head ++ body).drop HEADER_LEN = body := by rw [← hlength, List.drop_left]
  have hheader : parseVideoFrameHeader (head ++ body) = some header :=
    (parseVideoFrameHeader_append hlength body).trans hparse
  simp [Frame.share, plainFrame, shareOf, hheader, hdrop, hbody]

def keyframeHead : Buffer :=
  [0x00, 0xfa, 0, 0, 1, 0, 7, 0, 0, 0, 0x80, 0x07, 0x38, 0x04, 0, 0x10, 0, 0, 0, 0, 0, 0]

def keyframeShare : Share where
  header :=
    { payloadLength := 64000, keyframe := true, flags := 1, sequence := 7, width := 1920
      height := 1080, timestamp := 4096 }
  body := [0, 0, 0, 1, 0x65] ++ List.replicate 63995 0x11

def keyframeEnd : Share where
  header := { keyframeShare.header with payloadLength := 3 }
  body := [0x22, 0x33, 0x44]

/-- A keyframe in two frames, of which the first arrives. -/
def lostKeyframe : Transmission where
  unit :=
    { shares := [keyframeShare, keyframeEnd]
      shares_ne := List.cons_ne_nil _ _
      same := by
        intro s hs t ht
        rcases List.mem_pair.mp hs with rfl | rfl <;> rcases List.mem_pair.mp ht with rfl | rfl <;> rfl
      full := by
        intro s hs
        rw [List.mem_singleton.mp hs]
        rfl
      short := rfl
      inside := by
        intro s hs
        rw [List.mem_singleton.mp hs]
        rfl }
  arrived := [keyframeShare]
  sublist := List.Sublist.cons_cons _ (List.nil_sublist _)
  frames := [plainFrame keyframeHead keyframeShare.body]
  shares_frames := by
    rw [List.map_singleton, share_plainFrame keyframeShare.body rfl rfl
      (List.append_ne_nil_of_left_ne_nil (List.cons_ne_nil _ _) _)]
    rfl

def deltaHead : Buffer :=
  [5, 0, 0, 0, 0, 0, 8, 0, 0, 0, 0x80, 0x07, 0x38, 0x04, 0x28, 0x10, 0, 0, 0, 0, 0, 0]

def deltaShare : Share where
  header :=
    { payloadLength := 5, keyframe := false, flags := 0, sequence := 8, width := 1920
      height := 1080, timestamp := 4136 }
  body := [0, 0, 0, 1, 0x41]

/-- A unit in one frame, that arrives. -/
def wholeDelta : Transmission where
  unit :=
    { shares := [deltaShare]
      shares_ne := List.cons_ne_nil _ _
      same := by
        intro s hs t ht
        rw [List.mem_singleton.mp hs, List.mem_singleton.mp ht]
        rfl
      full := fun s hs => absurd hs List.not_mem_nil
      short := rfl
      inside := fun s hs => absurd hs List.not_mem_nil }
  arrived := [deltaShare]
  sublist := List.Sublist.refl _
  frames := [plainFrame deltaHead deltaShare.body]
  shares_frames := by
    rw [List.map_singleton, share_plainFrame deltaShare.body rfl rfl
      (List.cons_ne_nil _ _)]
    rfl

/-- The keyframe is reported, and the unit behind it is handed on. -/
theorem feed_lostKeyframe :
    (feed ([lostKeyframe, wholeDelta].flatMap Transmission.frames)).units =
        [wholeDelta.unit.whole] ∧
      (feed ([lostKeyframe, wholeDelta].flatMap Transmission.frames)).dropped.length +
          (feed ([lostKeyframe, wholeDelta].flatMap Transmission.frames)).next.openUnit.toList.length =
        1 := by
  obtain ⟨hunits, hcount, -⟩ := feed_transmissions [lostKeyframe, wholeDelta] (by decide)
  refine ⟨hunits.trans ?_, hcount.trans ?_⟩
  · rfl
  · rfl

end AccessUnitAssembler
end EufySdk.Video
