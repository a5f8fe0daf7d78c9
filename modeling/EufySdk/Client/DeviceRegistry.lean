import Mathlib.Tactic
import EufySdk.Lib.OrderedMap
import EufySdk.Model.Device

/-!
# The device list and its diffs

`getDevices` and `pollChanges` of `client/device-registry.ts`: the house-scoped queries that
are merged by serial, what a partial outage keeps, and what a pass reports against the list
of the pass before.

- `Fetch` — one `getDevices` while its queries are answered
- `getDevices` — a whole one
- `pollChanges` — the diff of a pass, and what it stores
- `serials_getDevices`, `serials_added`, `serials_removed` — what they say about serials
-/

namespace EufySdk.DeviceRegistry

/-- A listed device; of its record, the part that a pass diffs. -/
structure EufyDevice where
  sn : String
  params : RawParams := .empty
  lastSeenMs : Option ℕ := none
  /-- When the cloud served the record. -/
  servedAt : ℕ := 0

def serials (devices : List EufyDevice) : Finset String :=
  (devices.map EufyDevice.sn).toFinset

/-- A `getDevices` in progress: the devices answered by serial, and whether a query failed. -/
structure Fetch where
  seen : List (String × EufyDevice) := []
  isPartial : Bool := false

namespace Fetch

def set (seen : List (String × EufyDevice)) (dev : EufyDevice) : List (String × EufyDevice) :=
  OrderedMap.set seen dev.sn dev

/-- A house query answered, or failed. -/
def answer (f : Fetch) : Option (List EufyDevice) → Fetch
  | some rows => { f with seen := rows.foldl set f.seen }
  | none => { f with isPartial := true }

/-- The records answered. -/
def answers (f : Fetch) : List EufyDevice := f.seen.map Prod.snd

/-- A device of the previous list, where the fetch did not return it. -/
def keep (seen : List (String × EufyDevice)) (prev : EufyDevice) : List (String × EufyDevice) :=
  if (OrderedMap.get seen prev.sn).isSome then seen else set seen prev

/-- The list a fetch ends with. -/
def settle (f : Fetch) (previous : List EufyDevice) : List EufyDevice :=
  (if f.isPartial then previous.foldl keep f.seen else f.seen).map Prod.snd

end Fetch

/-- How the queries of one fetch went: the house list, and the device list without a house and of
each house. -/
structure Reply where
  houses : Bool := true
  lists : List (Option (List EufyDevice))

namespace Reply

def fetch (r : Reply) : Fetch := r.lists.foldl Fetch.answer { isPartial := !r.houses }

/-- Every query was answered. -/
def complete (r : Reply) : Bool := r.houses && r.lists.all Option.isSome

/-- The serials answered. -/
def answered (r : Reply) : Finset String := serials (r.lists.filterMap id).flatten

end Reply

def getDevices (previous : List EufyDevice) (r : Reply) : List EufyDevice :=
  r.fetch.settle previous

/-- What a pass stored. -/
structure Snapshot where
  devices : List EufyDevice
  complete : Bool

namespace Snapshot

def find? (s : Snapshot) (sn : String) : Option EufyDevice := s.devices.find? fun d => d.sn = sn

end Snapshot

structure ParamChange where
  deviceSn : String
  paramType : ℕ
  before : String
  after : String

structure PollDiff where
  params : List ParamChange
  added : List EufyDevice
  removed : List EufyDevice
  reported : List EufyDevice

/-- The params of a device that had another value in the baseline. -/
def movedParams (prev dev : EufyDevice) : List ParamChange :=
  dev.params.entries.filterMap fun e =>
    match prev.params.find? e.1 with
    | some value => if value ≠ e.2 then some ⟨dev.sn, e.1, value, e.2⟩ else none
    | none => none

/-- The record is fresher than the baseline's. -/
def reportedSince (prev dev : EufyDevice) : Bool :=
  match dev.lastSeenMs, prev.lastSeenMs with
  | some seen, some before => before < seen
  | some _, none => true
  | none, _ => false

/-- The diff of a pass whose refresh was partial or not. -/
def pollChanges (base : Option Snapshot) (devices : List EufyDevice) (lastRefreshPartial : Bool) :
    PollDiff :=
  let prev := fun sn => base.bind fun b => b.find? sn
  { params := devices.flatMap fun dev => ((prev dev.sn).map (movedParams · dev)).getD []
    -- what an incomplete baseline lacks is not new
    added :=
      if base.any Snapshot.complete then devices.filter fun dev => (prev dev.sn).isNone else []
    -- what a partial refresh lacks is not gone
    removed :=
      match base with
      | some b =>
        if lastRefreshPartial then []
        else b.devices.filter fun d => !devices.any fun dev => dev.sn = d.sn
      | none => []
    reported := devices.filter fun dev => (prev dev.sn).any (reportedSince · dev) }

/-! ### What a fetch shows -/

section Shows

variable {seen : List (String × EufyDevice)} {f : Fetch} {d : EufyDevice} {k : String}

/-- The entries of a fetch are under their own serials, each once. -/
structure Keyed (seen : List (String × EufyDevice)) : Prop where
  nodup : (seen.map Prod.fst).Nodup
  own : ∀ e ∈ seen, e.2.sn = e.1

namespace Keyed

theorem nil : Keyed [] := ⟨List.nodup_nil, nofun⟩

theorem set (h : Keyed seen) (dev : EufyDevice) : Keyed (Fetch.set seen dev) where
  nodup := OrderedMap.nodup_set h.nodup
  own := fun e he => by
    obtain rfl | hmem := OrderedMap.mem_set he
    · rfl
    · exact h.own e hmem

theorem foldl_set (h : Keyed seen) (rows : List EufyDevice) :
    Keyed (rows.foldl Fetch.set seen) := by
  induction rows generalizing seen with
  | nil => exact h
  | cons dev rest ih => exact ih (h.set dev)

theorem keep (h : Keyed seen) (prev : EufyDevice) : Keyed (Fetch.keep seen prev) := by
  rw [Fetch.keep]
  split
  · exact h
  · exact h.set prev

theorem foldl_keep (h : Keyed seen) (previous : List EufyDevice) :
    Keyed (previous.foldl Fetch.keep seen) := by
  induction previous generalizing seen with
  | nil => exact h
  | cons prev rest ih => exact ih (h.keep prev)

theorem answer (h : Keyed f.seen) (rows : Option (List EufyDevice)) :
    Keyed (f.answer rows).seen := by
  cases rows with
  | some rows => exact h.foldl_set rows
  | none => exact h

/-- A device listed is what its serial is looked up to. -/
theorem mem_values (h : Keyed seen) :
    d ∈ seen.map Prod.snd ↔ OrderedMap.get seen d.sn = some d := by
  rw [List.mem_map]
  constructor
  · rintro ⟨⟨key, dev⟩, hmem, rfl⟩
    obtain rfl : dev.sn = key := h.own _ hmem
    exact OrderedMap.get_of_mem h.nodup hmem
  · exact fun hget => ⟨_, OrderedMap.mem_of_get hget, rfl⟩

/-- What a serial is looked up to has that serial. -/
theorem sn_of_get (h : Keyed seen) (hget : OrderedMap.get seen k = some d) : d.sn = k :=
  h.own _ (OrderedMap.mem_of_get hget)

end Keyed

theorem get_set (dev : EufyDevice) :
    OrderedMap.get (Fetch.set seen dev) k =
      if dev.sn = k then some dev else OrderedMap.get seen k :=
  OrderedMap.get_set

/-- A row answered takes the place of one before it. -/
theorem get_foldl_set (rows : List EufyDevice) :
    OrderedMap.get (rows.foldl Fetch.set seen) k =
      (rows.reverse.find? fun dev => dev.sn = k).or (OrderedMap.get seen k) := by
  induction rows generalizing seen with
  | nil => rfl
  | cons dev rest ih =>
    -- a later row is found first from the back
    rw [List.foldl_cons, ih, get_set, List.reverse_cons, List.find?_append, Option.or_assoc]
    refine congrArg _ ?_
    by_cases hk : dev.sn = k
    · simp [hk]
    · simp [hk]

/-- A previous device is kept where the fetch has none of its serial. -/
theorem get_foldl_keep (previous : List EufyDevice) :
    OrderedMap.get (previous.foldl Fetch.keep seen) k =
      (OrderedMap.get seen k).or (previous.find? fun prev => prev.sn = k) := by
  induction previous generalizing seen with
  | nil => rw [List.foldl_nil, List.find?_nil, Option.or_none]
  | cons prev rest ih =>
    rw [List.foldl_cons, ih]
    have hkeep : OrderedMap.get (Fetch.keep seen prev) k =
        (OrderedMap.get seen k).or (if prev.sn = k then some prev else none) := by
      rw [Fetch.keep]
      by_cases hk : prev.sn = k
      · subst hk
        cases hget : OrderedMap.get seen prev.sn with
        | some dev => rw [Option.isSome_some, if_pos rfl, hget, Option.some_or]
        | none =>
          rw [Option.isSome_none, if_neg (by decide), get_set, if_pos rfl, if_pos rfl]
          rfl
      · rw [if_neg hk, Option.or_none]
        split
        · rfl
        · rw [get_set, if_neg hk]
    rw [hkeep, Option.or_assoc]
    refine congrArg _ ?_
    by_cases hk : prev.sn = k
    · simp [hk]
    · simp [hk]

/-- **What a fetch shows of a serial**: the record it was answered, or the previous one where a
query failed. -/
theorem mem_settle (h : Keyed f.seen) (previous : List EufyDevice) :
    d ∈ f.settle previous ↔
      (OrderedMap.get f.seen d.sn).or
        (if f.isPartial then previous.find? fun prev => prev.sn = d.sn else none) = some d := by
  rw [Fetch.settle]
  split
  · rw [(h.foldl_keep previous).mem_values, get_foldl_keep]
  · rw [h.mem_values, Option.or_none]

/-- A fetch shows what it was answered. -/
theorem mem_settle_of_answers (h : Keyed f.seen) (previous : List EufyDevice)
    (hd : d ∈ f.answers) : d ∈ f.settle previous := by
  rw [mem_settle h, h.mem_values.mp hd, Option.some_or]

/-- It shows nothing else but what was listed before. -/
theorem answers_or_previous (h : Keyed f.seen) {previous : List EufyDevice}
    (hd : d ∈ f.settle previous) : d ∈ f.answers ∨ d ∈ previous := by
  rw [mem_settle h] at hd
  cases hget : OrderedMap.get f.seen d.sn with
  | some e =>
    rw [hget, Option.some_or] at hd
    exact .inl (h.mem_values.mpr (hget.trans hd))
  | none =>
    rw [hget, Option.none_or] at hd
    split at hd
    · exact .inr (List.mem_of_find?_eq_some hd)
    · cases hd

/-- It shows a serial once. -/
theorem eq_of_mem_settle (h : Keyed f.seen) {previous : List EufyDevice} {e : EufyDevice}
    (hd : d ∈ f.settle previous) (he : e ∈ f.settle previous) (hsn : e.sn = d.sn) : e = d := by
  rw [mem_settle h] at hd he
  rw [hsn] at he
  exact Option.some.inj (he.symm.trans hd)

end Shows

section Serials

variable {sn : String}

theorem mem_serials {devices : List EufyDevice} :
    sn ∈ serials devices ↔ ∃ d ∈ devices, d.sn = sn := by
  rw [serials, List.mem_toFinset, List.mem_map]

theorem mem_serials_iff_find? {devices : List EufyDevice} :
    sn ∈ serials devices ↔ (devices.find? fun d => d.sn = sn).isSome := by
  rw [mem_serials, List.find?_isSome]
  simp

/-- The serials of a list that ends a fetch. -/
theorem mem_serials_settle {f : Fetch} (h : Keyed f.seen) {previous : List EufyDevice} :
    sn ∈ serials (f.settle previous) ↔
      (OrderedMap.get f.seen sn).isSome ∨ f.isPartial ∧ sn ∈ serials previous := by
  rw [Fetch.settle]
  have hvalues : ∀ {seen : List (String × EufyDevice)}, Keyed seen →
      (sn ∈ serials (seen.map Prod.snd) ↔ (OrderedMap.get seen sn).isSome) := by
    intro seen hseen
    rw [mem_serials, Option.isSome_iff_exists]
    constructor
    · rintro ⟨d, hd, rfl⟩
      exact ⟨d, hseen.mem_values.mp hd⟩
    · rintro ⟨d, hd⟩
      obtain rfl := hseen.sn_of_get hd
      exact ⟨d, hseen.mem_values.mpr hd, rfl⟩
  by_cases hfails : f.isPartial
  · rw [if_pos hfails, hvalues (h.foldl_keep previous), get_foldl_keep, Option.isSome_or,
      Bool.or_eq_true, mem_serials_iff_find?]
    exact or_congr_right ⟨fun hk => ⟨hfails, hk⟩, And.right⟩
  · rw [if_neg hfails, hvalues h]
    exact ⟨.inl, fun hk => hk.resolve_right fun hkept => hfails hkept.1⟩

namespace Reply

/-- A reply is partial where a query of it failed. -/
theorem isPartial_fetch (r : Reply) : r.fetch.isPartial = !r.complete := by
  have hfold : ∀ (lists : List (Option (List EufyDevice))) (f : Fetch),
      (lists.foldl Fetch.answer f).isPartial = (f.isPartial || !lists.all Option.isSome) := by
    intro lists
    induction lists with
    | nil => intro f; rw [List.foldl_nil, List.all_nil, Bool.not_true, Bool.or_false]
    | cons rows rest ih =>
      intro f
      rw [List.foldl_cons, ih]
      cases rows with
      | some rows => rfl
      | none => simp [Fetch.answer]
  rw [fetch, hfold, complete, Bool.not_and]

theorem keyed_fetch (r : Reply) : Keyed r.fetch.seen := by
  have hfold : ∀ (lists : List (Option (List EufyDevice))) (f : Fetch), Keyed f.seen →
      Keyed (lists.foldl Fetch.answer f).seen := by
    intro lists
    induction lists with
    | nil => exact fun f h => h
    | cons rows rest ih => exact fun f h => ih _ (h.answer rows)
  exact hfold _ _ .nil

/-- A fetch has what was answered of a serial. -/
theorem get_fetch_isSome (r : Reply) :
    (OrderedMap.get r.fetch.seen sn).isSome ↔ sn ∈ r.answered := by
  have hfold : ∀ (lists : List (Option (List EufyDevice))) (f : Fetch),
      (OrderedMap.get (lists.foldl Fetch.answer f).seen sn).isSome ↔
        (OrderedMap.get f.seen sn).isSome ∨ sn ∈ serials (lists.filterMap id).flatten := by
    intro lists
    induction lists with
    | nil => intro f; simp [serials]
    | cons rows rest ih =>
      intro f
      rw [List.foldl_cons, ih]
      cases rows with
      | none => rfl
      | some rows =>
        have hrows : (OrderedMap.get (f.answer (some rows)).seen sn).isSome ↔
            (OrderedMap.get f.seen sn).isSome ∨ ∃ d ∈ rows, d.sn = sn := by
          rw [Fetch.answer, get_foldl_set, Option.isSome_or, Bool.or_eq_true, List.find?_isSome,
            or_comm]
          simp
        rw [hrows, or_assoc]
        refine or_congr_right ?_
        simp [mem_serials, or_and_right, exists_or]
  rw [fetch, hfold, answered]
  exact or_iff_right (by simp)

end Reply

/-- **The serials of a list refreshed**: those answered, and where a query failed, those listed
before. -/
theorem serials_getDevices (previous : List EufyDevice) (r : Reply) :
    serials (getDevices previous r) =
      if r.complete then r.answered else r.answered ∪ serials previous := by
  ext sn
  rw [getDevices, mem_serials_settle r.keyed_fetch, r.get_fetch_isSome, r.isPartial_fetch]
  cases r.complete <;> simp

variable {devices : List EufyDevice} {b : Snapshot} {wasPartial : Bool}

/-- What a pass reports added: what its baseline lacks, where that is complete. -/
theorem serials_added :
    serials (pollChanges (some b) devices wasPartial).added =
      if b.complete then serials devices \ serials b.devices else ∅ := by
  rw [pollChanges]
  cases hcomplete : b.complete with
  | false => simp [hcomplete, serials]
  | true =>
    ext sn
    have hlacks : ∀ dev : EufyDevice, (b.find? dev.sn).isNone ↔ dev.sn ∉ serials b.devices := by
      intro dev
      rw [mem_serials_iff_find?, Snapshot.find?, Option.isNone_iff_eq_none,
        Option.not_isSome_iff_eq_none]
    simp only [hcomplete, Option.any_some, Option.bind_some, if_pos, mem_serials, List.mem_filter,
      hlacks, Finset.mem_sdiff]
    constructor
    · rintro ⟨d, ⟨hd, hnew⟩, rfl⟩
      exact ⟨⟨d, hd, rfl⟩, by simpa [mem_serials] using hnew⟩
    · rintro ⟨⟨d, hd, rfl⟩, hnew⟩
      exact ⟨d, ⟨hd, by simpa [mem_serials] using hnew⟩, rfl⟩

/-- What a pass reports removed: what it no longer lists of its baseline, where no query failed. -/
theorem serials_removed :
    serials (pollChanges (some b) devices wasPartial).removed =
      if wasPartial then ∅ else serials b.devices \ serials devices := by
  rw [pollChanges]
  cases wasPartial with
  | true => rfl
  | false =>
    ext sn
    simp only [Bool.false_eq_true, if_false, mem_serials, List.mem_filter, Finset.mem_sdiff]
    constructor
    · rintro ⟨d, ⟨hd, hgone⟩, rfl⟩
      exact ⟨⟨d, hd, rfl⟩, by simpa using hgone⟩
    · rintro ⟨⟨d, hd, rfl⟩, hgone⟩
      exact ⟨d, ⟨hd, by simpa using hgone⟩, rfl⟩

end Serials

end EufySdk.DeviceRegistry
