import Mathlib.Tactic
import EufySdk.Transport.P2p.Annexb

/-!
# Announcements of parameter sets

A decoder is given the parameter sets in force as units behind start codes. What `extractParamSets`
of `transport/p2p/annexb.ts` reads out of an access unit can be told from these bytes again: no
start code is left within a unit, and the first byte of a unit has its kind.

- `ParamKind`, `IsKind` — the kinds of parameter sets, and their headers
- `units_inj` — units are told apart behind their start codes
- `unitsHeld` — the units of some sets that a decoder of a codec can use
- `ParamSets.Announced` — sets that have been read out of access units
- `announcement` — the sets as a decoder is given them
- `announcement_eq_iff` — the bytes have the units of every kind
- `ParamSets.tells`, `unitsHeld_updatedParamSets` — what an access unit says of a kind
-/

namespace EufySdk

open Bytes

inductive ParamKind
  | vps
  | sps
  | pps
  deriving DecidableEq, Repr

def ParamSets.ofKind (sets : ParamSets) : ParamKind → List Buffer
  | .vps => sets.vps
  | .sps => sets.sps
  | .pps => sets.pps

/-- The type of the parameter sets of a kind; H.264 has none of the first. -/
def paramType : Bool → ParamKind → Option UInt8
  | true, .vps => some 32
  | true, .sps => some 33
  | true, .pps => some 34
  | false, .vps => none
  | false, .sps => some 7
  | false, .pps => some 8

/-- The type of a unit of either codec. -/
def nalType (hevc : Bool) (header : UInt8) : UInt8 :=
  if hevc then hevcNalType header else h264NalType header

theorem paramType_inj {hevc : Bool} {kind kind' : ParamKind} {type : UInt8}
    (h : paramType hevc kind = some type) (h' : paramType hevc kind' = some type) :
    kind = kind' := by
  have hsame : (paramType hevc kind).isSome → paramType hevc kind = paramType hevc kind' →
      kind = kind' := by
    cases hevc <;> cases kind <;> cases kind' <;> decide
  exact hsame (Option.isSome_of_eq_some h) (h.trans h'.symm)

/-- A header of a parameter set of a kind. -/
def IsKind (codec : VideoCodec) (kind : ParamKind) (header : UInt8) : Prop :=
  paramType (codec = .h265) kind = some (nalType (codec = .h265) header)

instance (codec : VideoCodec) (kind : ParamKind) (header : UInt8) :
    Decidable (IsKind codec kind header) :=
  inferInstanceAs (Decidable (_ = _))

theorem not_isKind_zero (codec : VideoCodec) (kind : ParamKind) : ¬IsKind codec kind 0 := by
  cases codec <;> cases kind <;> decide

/-! ### Units behind start codes -/

/-- A unit as the scan leaves it: it begins with a byte that is not zero, and no start code with a
byte behind it is within. -/
structure IsBody (nal : Buffer) : Prop where
  headD_ne : nal.headD 0 ≠ 0
  clear : ∀ b, ¬[0, 0, 1, b] <:+: nal

/-- What stands behind a unit: nothing, or the start code of another. -/
inductive Ensuing : Buffer → Prop
  | nothing : Ensuing []
  | unit {b : UInt8} (hb : b ≠ 0) (rest : Buffer) : Ensuing (ANNEXB_START ++ b :: rest)

/-- A unit does not go on with what follows another one. -/
theorem eq_nil_of_ensuing {nal more rest rest' : Buffer} (hbody : IsBody (nal ++ more))
    (hrest : Ensuing rest) (hrest' : Ensuing rest') (h : rest = more ++ rest') : more = [] := by
  cases hrest with
  | nothing => exact (List.append_eq_nil_iff.mp h.symm).1
  | @unit b hb rest =>
    -- how much of the start code `more` takes
    match more with
    | [] => rfl
    | [_] | [_, _] | [_, _, _] => cases hrest' <;> simp_all [ANNEXB_START]
    | [_, _, _, _] =>
      cases hrest' with
      | nothing => simp [ANNEXB_START] at h
      | unit hb' rest' =>
        simp only [ANNEXB_START, List.cons_append, List.nil_append, List.cons.injEq] at h
        exact absurd h.2.2.2.2.1 hb
    | b₀ :: b₁ :: b₂ :: b₃ :: b₄ :: more =>
      simp only [ANNEXB_START, List.cons_append, List.nil_append, List.cons.injEq] at h
      obtain ⟨rfl, rfl, rfl, rfl, rfl, -⟩ := h
      exact absurd ⟨nal ++ [0], more, by simp⟩ (hbody.clear b)

theorem append_inj_of_ensuing {nal nal' rest rest' : Buffer} (hbody : IsBody nal)
    (hbody' : IsBody nal') (hrest : Ensuing rest) (hrest' : Ensuing rest')
    (h : nal ++ rest = nal' ++ rest') : nal = nal' := by
  rcases List.append_eq_append_iff.mp h with ⟨more, rfl, hmore⟩ | ⟨more, rfl, hmore⟩
  · rw [eq_nil_of_ensuing hbody' hrest hrest' hmore, List.append_nil]
  · rw [eq_nil_of_ensuing hbody hrest' hrest hmore, List.append_nil]

theorem ensuing_units {nals : List Buffer} (hnals : ∀ nal ∈ nals, IsBody nal) :
    Ensuing (nals.flatMap (ANNEXB_START ++ ·)) := by
  match nals with
  | [] => exact .nothing
  | nal :: nals =>
    match nal, hnals nal List.mem_cons_self with
    | [], hbody => exact absurd rfl hbody.headD_ne
    | b :: nal, hbody =>
      rw [List.flatMap_cons, List.append_assoc]
      exact .unit hbody.headD_ne _

/-- **Units are told apart behind their start codes.** -/
theorem units_inj {nals nals' : List Buffer} (hnals : ∀ nal ∈ nals, IsBody nal)
    (hnals' : ∀ nal ∈ nals', IsBody nal)
    (h : nals.flatMap (ANNEXB_START ++ ·) = nals'.flatMap (ANNEXB_START ++ ·)) :
    nals = nals' := by
  induction nals generalizing nals' with
  | nil =>
    cases nals' with
    | nil => rfl
    | cons nal' nals' => cases h
  | cons nal nals ih =>
    cases nals' with
    | nil => cases h
    | cons nal' nals' =>
      rw [List.flatMap_cons, List.flatMap_cons, List.append_assoc, List.append_assoc] at h
      obtain ⟨hbody, hmore⟩ := List.forall_mem_cons.mp hnals
      obtain ⟨hbody', hmore'⟩ := List.forall_mem_cons.mp hnals'
      have hbytes := List.append_cancel_left h
      obtain rfl := append_inj_of_ensuing hbody hbody' (ensuing_units hmore) (ensuing_units hmore')
        hbytes
      rw [ih hmore hmore' (List.append_cancel_left hbytes)]

/-! ### What the scan leaves within a unit -/

theorem nalStartsFrom_cons (i : ℕ) (b : UInt8) {bytes : Buffer} (h : 3 ≤ bytes.length) {p : ℕ}
    (hp : p ∈ nalStartsFrom (i + 1) bytes) : p ∈ nalStartsFrom i (b :: bytes) := by
  obtain ⟨b₁, b₂, b₃, rest, rfl⟩ : ∃ b₁ b₂ b₃ rest, bytes = b₁ :: b₂ :: b₃ :: rest := by
    rcases bytes with _ | ⟨b₁, _ | ⟨b₂, _ | ⟨b₃, rest⟩⟩⟩ <;> simp at h ⊢
  rw [nalStartsFrom]
  split_ifs <;> simp [hp]

/-- The scan finds every start code that has a byte behind it. -/
theorem mem_nalStartsFrom (i : ℕ) (before : Buffer) (b : UInt8) (after : Buffer) :
    i + before.length + 3 ∈ nalStartsFrom i (before ++ [0, 0, 1, b] ++ after) := by
  induction before generalizing i with
  | nil => simp [nalStartsFrom]
  | cons b₀ before ih =>
    have hlater := nalStartsFrom_cons i b₀ (by simp; omega) (ih (i + 1))
    rwa [show i + (b₀ :: before).length + 3 = i + 1 + before.length + 3 by
      rw [List.length_cons]; omega]

theorem le_of_mem_nalStartsFrom {i : ℕ} {bytes : Buffer} :
    ∀ p ∈ nalStartsFrom i bytes, i + 3 ≤ p := by
  fun_induction nalStartsFrom i bytes with
  | case1 | case2 | case3 => grind
  | case4 => exact List.forall_mem_nil _

/-- The starts of units ascend. -/
theorem sorted_nalStartsFrom (i : ℕ) (bytes : Buffer) :
    (nalStartsFrom i bytes).Pairwise (· ≤ ·) := by
  fun_induction nalStartsFrom i bytes with
  | case1 i b₀ b₁ b₂ b₃ rest more hcode ih =>
    refine List.pairwise_cons.mpr ⟨fun p hp => ?_, ih⟩
    exact (Nat.le_succ _).trans (Nat.succ_add i 3 ▸ le_of_mem_nalStartsFrom p hp)
  | case2 i b₀ b₁ b₂ b₃ rest more hshort hcode ih =>
    refine List.pairwise_cons.mpr ⟨fun p hp => ?_, ih⟩
    exact Nat.add_right_comm i 1 3 ▸ le_of_mem_nalStartsFrom p hp
  | case3 i b₀ b₁ b₂ b₃ rest more hshort hcode ih => exact ih
  | case4 => exact .nil

theorem startCodeBegin_le (buf : Buffer) (p : ℕ) : startCodeBegin buf p ≤ p := by
  simp only [startCodeBegin]
  split_ifs <;> omega

/-- Where a start code is within a part of a buffer. -/
theorem split_of_infix_subarray {buf code : Buffer} (hcode : code ≠ []) {start stop : ℕ}
    (h : code <:+: Buf.subarray buf start stop) :
    ∃ before after, buf = before ++ code ++ after ∧ start ≤ before.length ∧
      before.length + code.length ≤ stop := by
  obtain ⟨before, after, h⟩ := h
  have hlength := congrArg List.length h
  rw [List.length_append, List.length_append, Buf.subarray, List.length_drop] at hlength
  have hpos := List.length_pos_of_ne_nil hcode
  refine ⟨(buf.take stop).take start ++ before, after ++ buf.drop stop, ?_, ?_, ?_⟩
  · calc buf = (buf.take stop).take start ++ (buf.take stop).drop start ++ buf.drop stop := by
          rw [List.take_append_drop, List.take_append_drop]
      _ = _ := by rw [← Buf.subarray, ← h]; simp only [List.append_assoc]
  · rw [List.length_append, List.length_take]
    omega
  · rw [List.length_append, List.length_take]
    have hstop := List.length_take_le stop buf
    omega

/-- No start code is left within a unit, when the units begin at all start codes but some that are
ahead of them. -/
theorem nalBodies_clear {buf : Buffer} (starts : List ℕ) (hsorted : starts.Pairwise (· ≤ ·))
    (hall : ∀ before b after, buf = before ++ [0, 0, 1, b] ++ after →
      before.length + 3 ∈ starts ∨ ∀ start ∈ starts, before.length + 3 ≤ start) :
    ∀ nal ∈ nalBodies buf starts, ∀ b, ¬[0, 0, 1, b] <:+: nal := by
  fun_induction nalBodies buf starts with
  | case1 => exact List.forall_mem_nil _
  | case2 start =>
    rw [List.forall_mem_singleton]
    intro b hinfix
    obtain ⟨before, after, hbuf, hstart, -⟩ := split_of_infix_subarray (List.cons_ne_nil _ _) hinfix
    rcases hall before b after hbuf with hmem | hahead
    · rw [List.mem_singleton] at hmem
      omega
    · have := hahead start List.mem_cons_self
      omega
  | case3 start next offsets ih =>
    obtain ⟨hfirst, hlater⟩ := List.pairwise_cons.mp hsorted
    obtain ⟨hnext, -⟩ := List.pairwise_cons.mp hlater
    refine List.forall_mem_cons.mpr ⟨?_, ih hlater ?_⟩
    · intro b hinfix
      obtain ⟨before, after, hbuf, hstart, hstop⟩ :=
        split_of_infix_subarray (List.cons_ne_nil _ _) hinfix
      have hbegin := startCodeBegin_le buf next
      simp only [List.length_cons, List.length_nil] at hstop
      rcases hall before b after hbuf with hmem | hahead
      · rcases List.mem_cons.mp hmem with heq | hmem
        · omega
        · rcases List.mem_cons.mp hmem with heq | hmem
          · omega
          · have := hnext _ hmem
            omega
      · have := hahead start List.mem_cons_self
        omega
    · intro before b after hbuf
      rcases hall before b after hbuf with hmem | hahead
      · rcases List.mem_cons.mp hmem with heq | hmem
        · exact .inr fun s hs => heq ▸ hfirst s hs
        · exact .inl hmem
      · exact .inr fun s hs => hahead s (List.mem_cons_of_mem start hs)

theorem splitAnnexbNals_clear (buf : Buffer) :
    ∀ nal ∈ splitAnnexbNals buf, ∀ b, ¬[0, 0, 1, b] <:+: nal := by
  intro nal hnal
  refine nalBodies_clear (nalStarts buf) (sorted_nalStartsFrom 0 buf) ?_ nal
    (List.mem_filter.mp hnal).1
  intro before b after hbuf
  have hmem := mem_nalStartsFrom 0 before b after
  rw [Nat.zero_add, ← hbuf] at hmem
  exact .inl hmem

/-! ### The units of some sets -/

/-- The units of some sets for a decoder of a codec: none of sets of another codec. -/
def unitsHeld (units : ParamSets → List Buffer) (codec : VideoCodec) (sets : Option ParamSets) :
    List Buffer :=
  (sets.filter (·.codec = codec)).elim [] units

theorem unitsHeld_some (units : ParamSets → List Buffer) (codec : VideoCodec) (sets : ParamSets) :
    unitsHeld units codec (some sets) = if sets.codec = codec then units sets else [] := by
  rw [unitsHeld, Option.filter_some]
  by_cases hcodec : sets.codec = codec
  · rw [if_pos (decide_eq_true hcodec), if_pos hcodec]
    rfl
  · rw [if_neg (by simpa using hcodec), if_neg hcodec]
    rfl

theorem mem_unitsHeld {units : ParamSets → List Buffer} {codec : VideoCodec}
    {sets : Option ParamSets} {nal : Buffer} :
    nal ∈ unitsHeld units codec sets ↔ ∃ s ∈ sets, s.codec = codec ∧ nal ∈ units s := by
  cases sets with
  | none => simp [unitsHeld]
  | some sets =>
    rw [unitsHeld_some]
    split_ifs with hcodec <;> simp [hcodec]

/-- The sets in force after an access unit that announces some. -/
theorem updatedParamSets_of_extract {buf : Buffer} {announced : ParamSets}
    (h : extractParamSets buf = some announced) (current : Option ParamSets) :
    ∃ next, updatedParamSets buf current = some next ∧ next.codec = announced.codec ∧
      ∀ kind, next.ofKind kind =
        if announced.ofKind kind = [] then unitsHeld (·.ofKind kind) announced.codec current
        else announced.ofKind kind := by
  simp only [updatedParamSets, h]
  cases current with
  | none =>
    refine ⟨announced, rfl, rfl, fun kind => ?_⟩
    split_ifs with hnone
    · exact hnone
    · rfl
  | some current =>
    by_cases hcodec : current.codec = announced.codec
    · refine ⟨_, if_neg (not_not.mpr hcodec), rfl, fun kind => ?_⟩
      rw [unitsHeld_some, if_pos hcodec]
      cases kind <;> exact ite_not _ _ _
    · refine ⟨announced, if_pos hcodec, rfl, fun kind => ?_⟩
      rw [unitsHeld_some, if_neg hcodec]
      split_ifs with hnone
      · exact hnone
      · rfl

/-! ### Announced sets -/

/-- Sets as access units announce them: every unit is of the kind it is kept as, and has no start
code within. -/
def ParamSets.Announced (sets : ParamSets) : Prop :=
  ∀ kind, ∀ nal ∈ sets.ofKind kind,
    IsKind sets.codec kind (nal.headD 0) ∧ ∀ b, ¬[0, 0, 1, b] <:+: nal

namespace ParamSets

variable {sets : ParamSets}

theorem mem_ordered {nal : Buffer} : nal ∈ sets.ordered ↔ ∃ kind, nal ∈ sets.ofKind kind := by
  rw [ordered, List.mem_append, List.mem_append]
  constructor
  · rintro ((hvps | hsps) | hpps)
    · exact ⟨.vps, hvps⟩
    · exact ⟨.sps, hsps⟩
    · exact ⟨.pps, hpps⟩
  · rintro ⟨_ | _ | _, hnal⟩
    · exact .inl (.inl hnal)
    · exact .inl (.inr hnal)
    · exact .inr hnal

theorem Announced.isBody (h : sets.Announced) : ∀ nal ∈ sets.ordered, IsBody nal := by
  intro nal hnal
  obtain ⟨kind, hkind⟩ := mem_ordered.mp hnal
  obtain ⟨hhead, hclear⟩ := h kind nal hkind
  refine ⟨fun hzero => ?_, hclear⟩
  rw [hzero] at hhead
  exact not_isKind_zero sets.codec kind hhead

/-- The units of a kind among all units in order. -/
theorem Announced.ofKind_eq_filter (h : sets.Announced) (kind : ParamKind) :
    sets.ofKind kind = sets.ordered.filter fun nal => IsKind sets.codec kind (nal.headD 0) := by
  have hown (kind' : ParamKind) :
      ((sets.ofKind kind').filter fun nal => IsKind sets.codec kind (nal.headD 0)) =
        if kind' = kind then sets.ofKind kind' else [] := by
    split_ifs with heq
    · refine List.filter_eq_self.mpr fun nal hnal => decide_eq_true ?_
      exact heq ▸ (h kind' nal hnal).1
    · refine List.filter_eq_nil_iff.mpr fun nal hnal hkind => heq ?_
      exact paramType_inj (h kind' nal hnal).1 (of_decide_eq_true hkind)
  have hvps := hown .vps
  have hsps := hown .sps
  have hpps := hown .pps
  simp only [ofKind] at hvps hsps hpps
  rw [ordered, List.filter_append, List.filter_append, hvps, hsps, hpps]
  cases kind <;> simp [ofKind]

end ParamSets

theorem extractParamSets_announced {buf : Buffer} {sets : ParamSets}
    (h : extractParamSets buf = some sets) : sets.Announced := by
  obtain ⟨codec, -, h⟩ := Option.bind_eq_some_iff.mp h
  obtain ⟨-, h⟩ := Option.ite_none_left_eq_some.mp h
  have hclear := splitAnnexbNals_clear buf
  have hnals {typeOf : UInt8 → UInt8} {type : UInt8} {nal : Buffer}
      (hnal : nal ∈ nalsOfType typeOf (splitAnnexbNals buf) type) :
      typeOf (nal.headD 0) = type ∧ ∀ b, ¬[0, 0, 1, b] <:+: nal :=
    have h := List.mem_filter.mp hnal
    ⟨of_decide_eq_true h.2, hclear nal h.1⟩
  split_ifs at h with hcodec
  · obtain rfl := Option.some.inj h
    subst hcodec
    rintro (_ | _ | _) nal hnal <;> obtain ⟨htype, hnal⟩ := hnals hnal <;>
      exact ⟨congrArg some htype.symm, hnal⟩
  · obtain rfl := Option.some.inj h
    have hhevc : decide (codec = .h265) = false := decide_eq_false hcodec
    rintro (_ | _ | _) nal hnal
    · cases hnal
    all_goals
      obtain ⟨htype, hnal⟩ := hnals hnal
      refine ⟨?_, hnal⟩
      rw [IsKind, hhevc]
      exact congrArg some htype.symm

theorem updatedParamSets_announced (buf : Buffer) {current : Option ParamSets}
    (h : ∀ sets ∈ current, sets.Announced) :
    ∀ sets ∈ updatedParamSets buf current, sets.Announced := by
  cases hbuf : extractParamSets buf with
  | none => rwa [updatedParamSets, hbuf]
  | some announced =>
    have hannounced := extractParamSets_announced hbuf
    obtain ⟨next, hnext, hcodec, hkinds⟩ := updatedParamSets_of_extract hbuf current
    rw [hnext]
    rintro sets hsets kind nal hnal
    obtain rfl := Option.some.inj hsets
    rw [hkinds] at hnal
    rw [hcodec]
    split_ifs at hnal with hnone
    · obtain ⟨s, hs, hscodec, hnal⟩ := mem_unitsHeld.mp hnal
      exact hscodec ▸ h s hs kind nal hnal
    · exact hannounced kind nal hnal

/-! ### What a decoder is given -/

/-- Some parameter sets as a decoder of a codec is given them. -/
def announcement (codec : VideoCodec) (sets : Option ParamSets) : Buffer :=
  (unitsHeld ParamSets.ordered codec sets).flatMap (ANNEXB_START ++ ·)

theorem unitsHeld_ordered (codec : VideoCodec) (sets : Option ParamSets) :
    unitsHeld ParamSets.ordered codec sets =
      unitsHeld (·.ofKind .vps) codec sets ++ unitsHeld (·.ofKind .sps) codec sets ++
        unitsHeld (·.ofKind .pps) codec sets := by
  cases sets with
  | none => rfl
  | some sets =>
    simp only [unitsHeld_some]
    split_ifs <;> rfl

theorem unitsHeld_ofKind {codec : VideoCodec} {sets : Option ParamSets}
    (h : ∀ s ∈ sets, s.Announced) (kind : ParamKind) :
    unitsHeld (·.ofKind kind) codec sets =
      (unitsHeld ParamSets.ordered codec sets).filter fun nal =>
        IsKind codec kind (nal.headD 0) := by
  cases sets with
  | none => rfl
  | some sets =>
    rw [unitsHeld_some, unitsHeld_some]
    split_ifs with hcodec
    · exact hcodec ▸ (h sets rfl).ofKind_eq_filter kind
    · rfl

/-- **What a decoder is given has the units of every kind.** -/
theorem announcement_eq_iff {codec : VideoCodec} {sets sets' : Option ParamSets}
    (h : ∀ s ∈ sets, s.Announced) (h' : ∀ s ∈ sets', s.Announced) :
    announcement codec sets = announcement codec sets' ↔
      ∀ kind, unitsHeld (·.ofKind kind) codec sets = unitsHeld (·.ofKind kind) codec sets' := by
  have hbodies {sets : Option ParamSets} (h : ∀ s ∈ sets, s.Announced) :
      ∀ nal ∈ unitsHeld ParamSets.ordered codec sets, IsBody nal := by
    intro nal hnal
    obtain ⟨s, hs, -, hnal⟩ := mem_unitsHeld.mp hnal
    exact (h s hs).isBody nal hnal
  constructor
  · intro hbytes kind
    rw [unitsHeld_ofKind h, unitsHeld_ofKind h', units_inj (hbodies h) (hbodies h') hbytes]
  · intro hkinds
    rw [announcement, announcement, unitsHeld_ordered, unitsHeld_ordered, hkinds, hkinds, hkinds]

/-! ### What an access unit says of a kind -/

/-- What an announcement says of a kind of set to a decoder of a codec: that there is none, where it
is of another codec, and nothing of the kinds that it leaves out. -/
def ParamSets.tells (codec : VideoCodec) (kind : ParamKind) (announced : ParamSets) :
    Option (List Buffer) :=
  if announced.codec ≠ codec then some []
  else if announced.ofKind kind = [] then none
  else some (announced.ofKind kind)

theorem unitsHeld_updatedParamSets (codec : VideoCodec) (kind : ParamKind) (buf : Buffer)
    (sets : Option ParamSets) :
    unitsHeld (·.ofKind kind) codec (updatedParamSets buf sets) =
      ((extractParamSets buf).bind (·.tells codec kind)).getD
        (unitsHeld (·.ofKind kind) codec sets) := by
  cases hbuf : extractParamSets buf with
  | none =>
    rw [updatedParamSets, hbuf]
    rfl
  | some announced =>
    obtain ⟨next, hnext, hcodec, hkinds⟩ := updatedParamSets_of_extract hbuf sets
    rw [hnext, unitsHeld_some, hcodec, hkinds, Option.bind_some, ParamSets.tells]
    by_cases hother : announced.codec = codec
    · rw [if_pos hother, if_neg (not_not.mpr hother), hother]
      split_ifs <;> rfl
    · rw [if_neg hother, if_pos hother]
      rfl

end EufySdk
