import EufySdk.Lib.Machine
import EufySdk.Client.StateSync

/-!
# A cloud value older than a report

Reports and poll passes on a clock: when the cloud recorded each param, when the device last
reported it, and which update times a pass sees in its list. A diff compares two lists and
looks at no time.

- `Clocked` — a client with the cloud's record and the times behind it
- `Clocked.KeepsNewer` — a pass leaves a report alone that is newer than what it sees
- `Clocked.SeenBefore` — a pass sees nothing new of a param reported since it was recorded
- `Clocked.Inv` — a report that no longer stands is not newer than the list
-/

namespace EufySdk.EufyMega

open Machine

/-- A pass that has diffed: its baseline, its list and the update times in it. -/
structure Seen where
  base : Option RawParams
  listed : Option RawParams
  updatedAt : ℕ → ℕ

/-- One serial's client and cloud record. The cloud's clock and the client's agree. -/
structure Clocked where
  client : Client
  now : ℕ := 0
  recorded : RawParams
  recordedAt : ℕ → ℕ := fun _ => 0
  /-- The update times in the cached list. -/
  listedAt : ℕ → ℕ := fun _ => 0
  /-- When the device last reported a param. -/
  reportedAt : ℕ → Option ℕ := fun _ => none
  /-- The passes not yet applied, in the order of `client.polls`. -/
  seen : List Seen := []

inductive Moment
  | tick (dt : ℕ)
  /-- The cloud records a value. -/
  | records (id : ℕ) (value : String)
  | report (params : RawParams)
  /-- A list read outside the passes. -/
  | listRefresh
  /-- A pass lists and diffs. Where the query for the serial fails its entry is kept. -/
  | poll (answered : Bool)
  | apply (k : ℕ)

namespace Clocked

variable (cv : Conversions)

/-- A client before its first report and its first pass. -/
def start (device : Device) (cloud pollSnapshot : Option RawParams) (recorded : RawParams) :
    Clocked where
  client := { cloud, pollSnapshot, reports := [], device }
  recorded

/-- The list a pass reads, with its update times. -/
def lists (s : Clocked) (answered : Bool) : Option RawParams × (ℕ → ℕ) :=
  if answered then (some s.recorded, s.recordedAt) else (s.client.cloud, s.listedAt)

def step (s : Clocked) : Moment → Option Clocked
  | .tick dt => some { s with now := s.now + dt }
  | .records id value =>
    some { s with
      recorded := s.recorded.insert id value
      recordedAt := Function.update s.recordedAt id s.now }
  | .report params =>
    (s.client.step cv (.report params)).map fun r => { s with
      client := r.1
      reportedAt := fun id => if params.contains id then some s.now else s.reportedAt id }
  | .listRefresh =>
    (s.client.step cv (.listRefresh (some s.recorded))).map fun r =>
      { s with client := r.1, listedAt := s.recordedAt }
  | .poll answered =>
    (s.client.step cv (.pollFetch (s.lists answered).1)).map fun r => { s with
      client := r.1
      listedAt := (s.lists answered).2
      seen := s.seen ++ [⟨s.client.pollSnapshot, (s.lists answered).1, (s.lists answered).2⟩] }
  | .apply k =>
    (s.client.step cv (.pollApply k)).map fun r =>
      { s with client := r.1, seen := s.seen.eraseIdx k }

/-- The list a step of a pass goes by, with its update times. -/
def sees (s : Clocked) : Moment → Option (Option RawParams × (ℕ → ℕ))
  | .poll answered => some (s.lists answered)
  | .apply k => (s.seen[k]?).map fun q => (q.listed, q.updatedAt)
  | _ => none

/-- The device reported the param after the update time of the value a pass sees. -/
def Newer (s : Clocked) (m : Moment) (id : ℕ) : Prop :=
  ∃ listed updatedAt value r, s.sees m = some (some listed, updatedAt) ∧
    listed.find? id = some value ∧ s.reportedAt id = some r ∧ updatedAt id < r

/-- The report of a param as it stands in the registry. -/
def reported (s : Clocked) (id : ℕ) : Option String :=
  (s.client.dpParams s.client.currentReports).find? id

/-- What `record` joined with the reports answers for a param. -/
def recordAnswer (s : Clocked) (id : ℕ) : Option String :=
  (s.client.joined (s.client.cloud.getD .empty) s.client.currentReports).find? id

/-- The step's pass changes no other param that feeds the property. -/
def OnlyFeeds (s : Clocked) (m : Moment) (id : ℕ) (name : String) : Prop :=
  ∀ k diff, m = .apply k → s.client.polls[k]? = some diff →
    ∀ e ∈ diff.entries, e.1 ≠ id → s.client.device.schema.nameOf e.1 ≠ name

/-- A pass leaves a newer report alone: it stands, and what `record` and a live `Device` answer for
its param stays. -/
def KeepsNewer (s : Clocked) (m : Moment) : Prop :=
  ∀ t, s.step cv m = some t → ∀ id, s.Newer m id →
    t.reported id = s.reported id ∧ t.recordAnswer id = s.recordAnswer id ∧
      ∀ name, s.OnlyFeeds m id name → t.client.device.read name = s.client.device.read name

/-- Of a param reported since the cloud recorded it, the pass's baseline carries no value or the
one the list has. -/
def seenBefore (s : Clocked) : Moment → Bool
  | .apply k =>
    match s.seen[k]? with
    | some ⟨some base, some listed, updatedAt⟩ =>
      listed.entries.all fun e =>
        !(s.reportedAt e.1).any (updatedAt e.1 < ·) || (base.find? e.1).all (· = e.2)
    | _ => true
  | _ => true

def SeenBefore (s : Clocked) (m : Moment) : Prop := s.seenBefore m = true

instance (s : Clocked) (m : Moment) : Decidable (s.SeenBefore m) :=
  inferInstanceAs (Decidable (_ = true))

/-- What the client's data says about the times. -/
structure Inv (s : Clocked) : Prop where
  polls : s.client.polls = s.seen.map fun q => Client.pollChanges q.base q.listed
  stands : ∀ id r, s.reportedAt id = some r → (s.reported id).isSome ∨ r ≤ s.listedAt id
  pending : ∀ q ∈ s.seen, ∀ id, q.updatedAt id ≤ s.listedAt id
  listed : ∀ id, s.listedAt id ≤ s.recordedAt id
  recorded : ∀ id, s.recordedAt id ≤ s.now

variable {cv} {s t : Clocked} {m : Moment}

section Reports

/-- The current report map is the last object. -/
theorem dpParams_current (c : Client) :
    c.dpParams c.currentReports = (c.reports[c.reports.length - 1]?).getD .empty := by
  rw [Client.dpParams, Client.currentReports]
  split
  · rename_i hempty
    rw [List.isEmpty_iff.mp hempty]
    rfl
  · rfl

/-- A report lands over the ones before it. -/
theorem find?_applyRealtimeParams (c : Client) (params : RawParams) (id : ℕ) :
    (((c.applyRealtimeParams params).dpParams (c.applyRealtimeParams params).currentReports).find?
      id) = (params.find? id).or ((c.dpParams c.currentReports).find? id) := by
  rw [Client.applyRealtimeParams]
  split
  · rename_i hempty
    have hnone : params.find? id = none := by
      rw [SortedMap.find?, List.isEmpty_iff.mp hempty]
      rfl
    rw [hnone, Option.none_or]
  · rw [← SortedMap.find?_join, dpParams_current, List.length_append, List.length_singleton,
      Nat.add_sub_cancel, List.getElem?_concat_length]
    rfl

/-- A retired id no longer stands; the others do. -/
theorem find?_retireRealtimeParams (c : Client) (ids : ℕ → Bool) (id : ℕ) :
    (((c.retireRealtimeParams ids).dpParams (c.retireRealtimeParams ids).currentReports).find?
      id) = if ids id then none else (c.dpParams c.currentReports).find? id := by
  rw [Client.retireRealtimeParams, dpParams_current, dpParams_current, List.length_modify,
    List.getElem?_modify_eq]
  cases c.reports[c.reports.length - 1]? with
  | none => simp
  | some map => exact SortedMap.find?_erase ids map id

end Reports

/-- What a poll diff names, in terms of the two lists. -/
theorem find?_pollChanges {base listed : Option RawParams} {id : ℕ} {value : String}
    (h : (Client.pollChanges base listed).find? id = some value) :
    ∃ was now prior, base = some was ∧ listed = some now ∧ was.find? id = some prior ∧
      now.find? id = some value ∧ prior ≠ value := by
  cases base with
  | none => cases h
  | some was =>
    cases listed with
    | none => cases h
    | some now =>
      rw [Client.pollChanges, SortedMap.find?_filter, Option.filter_eq_some_iff] at h
      obtain ⟨hnow, hmoved⟩ := h
      obtain ⟨prior, hprior, hne⟩ := (Option.any_eq_true _ _).mp hmoved
      exact ⟨was, now, prior, rfl, rfl, hprior, hnow, of_decide_eq_true hne⟩

/-- A pass does not diff a newer report's param while it sees nothing new of it. -/
theorem not_named {k : ℕ} {q : Seen} (hseen : s.SeenBefore (.apply k))
    (hq : s.seen[k]? = some q) {id r : ℕ} (hr : s.reportedAt id = some r)
    (hnewer : q.updatedAt id < r) : (Client.pollChanges q.base q.listed).find? id = none := by
  by_contra hnamed
  obtain ⟨value, hvalue⟩ := Option.ne_none_iff_exists'.mp hnamed
  -- the diff names it with two values, which the pass has seen to be one
  obtain ⟨was, now, prior, hbase, hlisted, hprior, hnow, hne⟩ := find?_pollChanges hvalue
  obtain ⟨base, listed, updatedAt⟩ := q
  obtain rfl : base = some was := hbase
  obtain rfl : listed = some now := hlisted
  rw [SeenBefore, seenBefore, hq] at hseen
  have hentry := List.all_eq_true.mp hseen _ (SortedMap.find?_eq_some_iff.mp hnow)
  rw [hr, hprior, Option.any_some, decide_eq_true hnewer] at hentry
  exact hne (of_decide_eq_true hentry)

namespace Inv

theorem start (device : Device) (cloud pollSnapshot : Option RawParams) (recorded : RawParams) :
    Inv (start device cloud pollSnapshot recorded) where
  polls := rfl
  stands := fun _ _ hr => by cases hr
  pending := fun _ hq => by cases hq
  listed := fun _ => le_rfl
  recorded := fun _ => le_rfl

/-- The list a pass reads is not older than the cached one. -/
theorem listedAt_le (h : Inv s) (answered : Bool) (id : ℕ) :
    s.listedAt id ≤ (s.lists answered).2 id ∧ (s.lists answered).2 id ≤ s.recordedAt id := by
  cases answered with
  | true => exact ⟨h.listed id, le_rfl⟩
  | false => exact ⟨le_rfl, h.listed id⟩

/-- A report that is newer than what a pass lists still stands. -/
theorem standing (h : Inv s) {answered : Bool} {id r : ℕ} (hr : s.reportedAt id = some r)
    (hnewer : (s.lists answered).2 id < r) : ∃ value, s.reported id = some value := by
  obtain hstands | hold := h.stands id r hr
  · exact Option.isSome_iff_exists.mp hstands
  · have := (h.listedAt_le answered id).1
    omega

/-- The diff of a pass waiting to be applied. -/
theorem diff_eq (h : Inv s) {k : ℕ} {diff : RawParams} (hdiff : s.client.polls[k]? = some diff) :
    ∃ q, s.seen[k]? = some q ∧ diff = Client.pollChanges q.base q.listed := by
  rw [h.polls, List.getElem?_map] at hdiff
  obtain ⟨q, hq, rfl⟩ := Option.map_eq_some_iff.mp hdiff
  exact ⟨q, hq, rfl⟩

theorem report (h : Inv s) (params : RawParams)
    (ht : s.step cv (.report params) = some t) : Inv t := by
  cases ht
  have hreported : ∀ id, ((s.client.applyRealtimeParams params).dpParams
      (s.client.applyRealtimeParams params).currentReports).find? id =
        (params.find? id).or (s.reported id) := find?_applyRealtimeParams s.client params
  have hpolls : (s.client.applyRealtimeParams params).polls = s.client.polls := by
    rw [Client.applyRealtimeParams]
    split <;> rfl
  constructor
  · exact hpolls.trans h.polls
  · intro id r hr
    change (((s.client.applyRealtimeParams params).dpParams
      (s.client.applyRealtimeParams params).currentReports).find? id).isSome ∨ _
    change (if params.contains id then some s.now else s.reportedAt id) = some r at hr
    rw [hreported]
    split at hr
    · rename_i hcontains
      rw [SortedMap.contains_eq] at hcontains
      obtain ⟨value, hvalue⟩ := Option.isSome_iff_exists.mp hcontains
      exact .inl (by rw [hvalue]; rfl)
    · obtain hstands | hold := h.stands id r hr
      · left
        cases params.find? id with
        | some value => rfl
        | none => exact hstands
      · exact .inr hold
  · exact h.pending
  · exact h.listed
  · exact h.recorded

theorem poll (h : Inv s) (answered : Bool) (ht : s.step cv (.poll answered) = some t) : Inv t := by
  cases ht
  constructor
  · change s.client.polls ++ [_] = (s.seen ++ [_]).map _
    rw [h.polls, List.map_append, List.map_singleton]
  · intro id r hr
    obtain hstands | hold := h.stands id r hr
    · exact .inl hstands
    · exact .inr (hold.trans (h.listedAt_le answered id).1)
  · intro q hq id
    obtain hq | hq := List.mem_append.mp hq
    · exact (h.pending q hq id).trans (h.listedAt_le answered id).1
    · rw [List.mem_singleton.mp hq]
  · exact fun id => (h.listedAt_le answered id).2
  · exact h.recorded

theorem apply (h : Inv s) {k : ℕ} (hseen : s.SeenBefore (.apply k))
    (ht : s.step cv (.apply k) = some t) : Inv t := by
  obtain ⟨r, hr, rfl⟩ := Option.map_eq_some_iff.mp ht
  obtain ⟨diff, hdiff, rfl⟩ := Option.map_eq_some_iff.mp hr
  obtain ⟨q, hq, rfl⟩ := h.diff_eq hdiff
  have hreported := find?_retireRealtimeParams s.client
    (Client.pollChanges q.base q.listed).contains
  constructor
  · change s.client.polls.eraseIdx k = (s.seen.eraseIdx k).map _
    rw [h.polls, List.eraseIdx_map]
  · intro id r hr
    change (((s.client.retireRealtimeParams _).dpParams
      (s.client.retireRealtimeParams _).currentReports).find? id).isSome ∨ r ≤ s.listedAt id
    rw [hreported]
    -- the pass's list is not newer than the cached one, whatever was listed since
    by_cases hnewer : r ≤ s.listedAt id
    · exact .inr hnewer
    · have hpending := h.pending q (List.mem_of_getElem? hq) id
      have hnone := not_named hseen hq hr (by omega)
      rw [SortedMap.contains_eq, hnone]
      exact h.stands id r hr
  · exact fun q hq => h.pending q (List.mem_of_mem_eraseIdx hq)
  · exact h.listed
  · exact h.recorded

theorem step (h : Inv s) (hseen : s.SeenBefore m) (ht : s.step cv m = some t) : Inv t := by
  cases m with
  | tick dt =>
    cases ht
    exact ⟨h.polls, h.stands, h.pending, h.listed,
      fun id => (h.recorded id).trans (Nat.le_add_right _ _)⟩
  | records id value =>
    cases ht
    have hlater : ∀ j, s.recordedAt j ≤ Function.update s.recordedAt id s.now j := by
      intro j
      rw [Function.update_apply]
      split
      · rename_i hj
        exact hj ▸ h.recorded j
      · exact le_rfl
    refine ⟨h.polls, h.stands, h.pending, fun j => (h.listed j).trans (hlater j), fun j => ?_⟩
    change Function.update s.recordedAt id s.now j ≤ s.now
    rw [Function.update_apply]
    split
    · exact le_rfl
    · exact h.recorded j
  | report params => exact h.report params ht
  | listRefresh =>
    cases ht
    refine ⟨h.polls, fun id r hr => ?_, fun q hq id => (h.pending q hq id).trans (h.listed id),
      fun _ => le_rfl, h.recorded⟩
    exact (h.stands id r hr).imp_right fun hold => hold.trans (h.listed id)
  | poll answered => exact h.poll answered ht
  | apply k => exact h.apply hseen ht

/-- What a standing report answers, it answers whatever the list says. -/
theorem recordAnswer_eq (c : Client) (params : RawParams) (id : ℕ) :
    (c.joined params c.currentReports).find? id =
      ((c.dpParams c.currentReports).find? id).or (params.find? id) :=
  SortedMap.find?_join _ _ _

theorem keepsNewer (h : Inv s) (hseen : s.SeenBefore m) : s.KeepsNewer cv m := by
  intro t ht id hnewer
  obtain ⟨listed, updatedAt, value, r, hsees, hlisted, hr, hlt⟩ := hnewer
  cases m with
  | tick dt | records id value | report params | listRefresh => cases hsees
  | poll answered =>
    cases ht
    have htimes : (s.lists answered).2 = updatedAt :=
      congrArg Prod.snd (Option.some.inj hsees)
    -- the list that is stored is hidden behind the report
    obtain ⟨value, hvalue⟩ := h.standing hr (htimes ▸ hlt)
    refine ⟨rfl, ?_, fun _ _ => rfl⟩
    rw [recordAnswer, recordAnswer, recordAnswer_eq, recordAnswer_eq]
    change Option.or (s.reported id) _ = Option.or (s.reported id) _
    rw [hvalue]
    rfl
  | apply k =>
    obtain ⟨r', hr', rfl⟩ := Option.map_eq_some_iff.mp ht
    obtain ⟨diff, hdiff, rfl⟩ := Option.map_eq_some_iff.mp hr'
    obtain ⟨q, hq, rfl⟩ := h.diff_eq hdiff
    rw [sees, hq] at hsees
    have htimes : q.updatedAt = updatedAt := congrArg Prod.snd (Option.some.inj hsees)
    have hnone := not_named hseen hq hr (htimes ▸ hlt)
    have hreported := find?_retireRealtimeParams s.client
      (Client.pollChanges q.base q.listed).contains id
    rw [SortedMap.contains_eq, hnone] at hreported
    refine ⟨hreported, ?_, fun name honly => ?_⟩
    · rw [recordAnswer, recordAnswer, recordAnswer_eq, recordAnswer_eq]
      exact congrArg (Option.or · _) hreported
    · change (s.client.device.applyParams cv _).1.read name = _
      -- neither the param itself nor another one in the diff feeds the property
      have hunfed : s.client.device.schema.fed cv name
          (Client.pollChanges q.base q.listed) = none := by
        rw [Schema.fed, List.filter_eq_nil_iff.mpr]
        · rfl
        · intro e he
          rw [decide_eq_true_eq]
          refine honly k _ rfl hdiff e he ?_
          rintro rfl
          rw [SortedMap.find?_eq_some_iff.mpr he] at hnone
          cases hnone
      rw [Device.read_applyParams, hunfed, Option.none_or]

end Inv

/-- The cloud records the door open, a pass sees it, and the door reports itself closed before a
second pass: nothing of it is new to that one. -/
def seenFirst : List Moment :=
  [.tick 10, .records 1 "1", .poll true, .apply 0, .tick 10, .report (.single 1 "0"), .tick 10,
    .poll true, .apply 0]

/-- The door reports itself closed after the cloud recorded it open, and before a pass saw that. -/
def seenLate : List Moment :=
  [.tick 10, .records 1 "1", .tick 10, .report (.single 1 "0"), .tick 10, .poll true, .apply 0]

end Clocked
end EufySdk.EufyMega
