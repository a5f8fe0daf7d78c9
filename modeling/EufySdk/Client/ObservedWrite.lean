import EufySdk.Lib.Machine
import EufySdk.Client.StateSync

/-!
# A write that waits for its value

The loop of `refreshEventState` for a write with an expected value: a pass over what is known,
a read of the device list, a pass, a pause, a pass, until the window closes. What the other
paths do to the client meanwhile interleaves.

- `ObservedWrite` — the client and the write, with whether the device has volunteered the value
- `ObservedWrite.SettlesByReport` — the value volunteered, a pass resolves and nothing throws
- `ObservedWrite.ListAgrees` — the list carries the value itself wherever a pass looks
-/

namespace EufySdk.EufyMega

open Machine

/-- Where a write stands. -/
inductive Progress
  /-- In `routeCommand`. -/
  | routing
  /-- In `refreshedList`. -/
  | listing
  | pausing
  | resolved (observed : Bool)
  /-- Rejected with `StateConvergenceError`. -/
  | unconverged
  /-- Rejected with another error. -/
  | failed
  deriving DecidableEq, Repr

structure ObservedWrite where
  client : Client
  observation : Observation
  expected : String
  expects : observation.refresh.expected = some expected
  /-- Whether a `Device` of the serial is still held. -/
  live : Bool := true
  progress : Progress := .routing
  /-- The device's own report of the param, carrying the expected value, has been applied. -/
  volunteered : Bool := false

inductive Event
  /-- A step of another path. -/
  | path (l : Label)
  /-- The held `Device` is collected. -/
  | dropped
  /-- The command is routed; `late` when the window is empty. -/
  | routed (late : Bool)
  | listed
  /-- The pause is over; `late` when the window has closed meanwhile. -/
  | paused (late : Bool)
  /-- The window closes on a list read. -/
  | windowCloses
  | listRejects
  | superseded

namespace ObservedWrite

variable (cv : Conversions)

def param (w : ObservedWrite) : ℕ := w.observation.refresh.param

/-- Whether the device's report of the param, the last one, carries the expected value. -/
def volunteers (w : ObservedWrite) : Label → Bool
  | .report params =>
    match params.find? w.param with
    | some value => value = w.expected
    | none => w.volunteered
  | _ => w.volunteered

/-- `settled()`: the client behind it and its answer, none where it throws. -/
def settled (w : ObservedWrite) : Client × Option Bool :=
  match w.client.cloud with
  -- `require` throws for a serial the list lacks
  | none => (w.client, none)
  | some params =>
    match w.observation.converged cv params with
    | .error _ => (w.client, none)
    | .ok false => (w.client, some false)
    | .ok true =>
      if w.live then
        -- the list's record, without what the device reported
        let device := (w.client.device.applyParams cv params).1
        ({ w.client with device },
          (w.observation.matchesObservation cv
            (device.read w.observation.refresh.property)).toOption)
      else (w.client, some true)

/-- How a pass leaves the write: on to `next` unless settled. -/
def Progress.after (next : Progress) : Option Bool → Progress
  | some true => .resolved true
  | some false => next
  | none => .failed

def pass (w : ObservedWrite) (next : Progress) : ObservedWrite :=
  { w with client := (w.settled cv).1, progress := Progress.after next (w.settled cv).2 }

def step (w : ObservedWrite) : Event → Option ObservedWrite
  -- of the other paths, the widening of a schema is left out
  | .path (.reresolve _) => none
  | .path l =>
    (w.client.step cv l).map fun r => { w with client := r.1, volunteered := w.volunteers l }
  | .dropped => some { w with live := false }
  | .routed late =>
    if w.progress = .routing then some (w.pass cv (if late then .unconverged else .listing))
    else none
  | .listed => if w.progress = .listing then some (w.pass cv .pausing) else none
  | .paused late =>
    if w.progress = .pausing then some (w.pass cv (if late then .unconverged else .listing))
    else none
  | .windowCloses =>
    if w.progress = .listing then some { w with progress := .unconverged } else none
  | .listRejects => if w.progress = .listing then some { w with progress := .failed } else none
  | .superseded =>
    if w.progress = .listing then some { w with progress := .resolved false } else none

/-- The step is the pass that is due. -/
def passes (w : ObservedWrite) : Event → Bool
  | .routed _ => w.progress = .routing
  | .listed => w.progress = .listing
  | .paused _ => w.progress = .pausing
  | _ => false

/-- Once the device has volunteered the value, the next pass resolves and the write does not
fail to converge. -/
def SettlesByReport (w : ObservedWrite) (e : Event) : Prop :=
  ∀ t, w.step cv e = some t → w.volunteered = true →
    (w.passes e = true → t.progress = .resolved true) ∧
      (w.progress ≠ .unconverged → t.progress ≠ .unconverged)

/-- The device list carries the expected value, and where a `Device` is held its record makes
the property read as asked. -/
def ListCarries (w : ObservedWrite) : Prop :=
  ∃ params, w.client.cloud = some params ∧
    (params.find? w.param).getD "undefined" = w.expected ∧
    (w.live = true → w.observation.matchesObservation cv
      ((w.client.device.schema.fed cv w.observation.refresh.property params).or
        (w.client.device.read w.observation.refresh.property)) = .ok true)

/-- With the value volunteered, a pass finds it in the device list too, and the window does not
close on a list read. -/
def ListAgrees (w : ObservedWrite) (e : Event) : Prop :=
  w.volunteered = true → (w.passes e = true → w.ListCarries cv) ∧
    ¬(e = .windowCloses ∧ w.progress = .listing)

variable {cv} {w t : ObservedWrite} {e : Event}

theorem converged_eq (w : ObservedWrite) (params : RawParams) :
    w.observation.converged cv params =
      .ok (decide ((params.find? w.param).getD "undefined" = w.expected)) := by
  rw [Observation.converged, w.expects]
  rfl

/-- **What a pass asks**: the list, and not what the device reported. -/
theorem settled_iff (w : ObservedWrite) : (w.settled cv).2 = some true ↔ w.ListCarries cv := by
  rw [settled]
  cases hcloud : w.client.cloud with
  | none =>
    constructor
    · intro h
      cases h
    · rintro ⟨params, hparams, -⟩
      rw [hcloud] at hparams
      cases hparams
  | some params =>
    simp only [converged_eq]
    by_cases hcarries : (params.find? w.param).getD "undefined" = w.expected
    · rw [decide_eq_true hcarries]
      cases hlive : w.live with
      | false =>
        simp only [Bool.false_eq_true, if_false, true_iff]
        exact ⟨params, hcloud, hcarries, fun h => by rw [hlive] at h; cases h⟩
      | true =>
        simp only [if_true, Device.read_applyParams]
        constructor
        · intro h
          refine ⟨params, hcloud, hcarries, fun _ => ?_⟩
          cases hmatch : w.observation.matchesObservation cv
              ((w.client.device.schema.fed cv w.observation.refresh.property params).or
                (w.client.device.read w.observation.refresh.property)) with
          | error e =>
            rw [hmatch] at h
            cases h
          | ok b =>
            rw [hmatch] at h
            rw [Option.some.inj h]
        · rintro ⟨params', hparams', -, hmatch⟩
          obtain rfl := Option.some.inj (hcloud.symm.trans hparams')
          rw [hmatch hlive]
          rfl
    · rw [decide_eq_false hcarries]
      constructor
      · intro h
        cases h
      · rintro ⟨params', hparams', hcarries', -⟩
        obtain rfl := Option.some.inj (hcloud.symm.trans hparams')
        exact absurd hcarries' hcarries

theorem pass_resolves {next : Progress} (hnext : next ≠ .resolved true) :
    (w.pass cv next).progress = .resolved true ↔ w.ListCarries cv := by
  rw [← settled_iff, pass]
  cases hanswer : (w.settled cv).2 with
  | none => simp [Progress.after]
  | some b => cases b <;> simp [Progress.after, hnext]

/-- A pass that is due is taken. -/
theorem step_pass (hpass : w.passes e = true) :
    ∃ next, next ≠ .resolved true ∧ w.step cv e = some (w.pass cv next) := by
  cases e with
  | routed late =>
    refine ⟨if late then .unconverged else .listing, by cases late <;> decide, ?_⟩
    exact if_pos (of_decide_eq_true hpass)
  | listed => exact ⟨.pausing, by decide, if_pos (of_decide_eq_true hpass)⟩
  | paused late =>
    refine ⟨if late then .unconverged else .listing, by cases late <;> decide, ?_⟩
    exact if_pos (of_decide_eq_true hpass)
  | _ => cases hpass

/-- What another path's step does to a write. -/
theorem step_path {l : Label} (hstep : w.step cv (.path l) = some t) :
    ∃ c' changes, w.client.step cv l = some (c', changes) ∧
      t = { w with client := c', volunteered := w.volunteers l } := by
  cases l with
  | reresolve resolved => cases hstep
  | _ =>
    simp only [step, Option.map_eq_some_iff] at hstep
    obtain ⟨⟨c', changes⟩, hpath, rfl⟩ := hstep
    exact ⟨c', changes, hpath, rfl⟩

/-- Only a pass, or a window that closes on a list read, leaves a write unconverged. -/
theorem unconverged_cases (hstep : w.step cv e = some t) (hpass : w.passes e = false)
    (ht : t.progress = .unconverged) :
    w.progress = .unconverged ∨ e = .windowCloses ∧ w.progress = .listing := by
  cases e with
  | path l =>
    obtain ⟨c', changes, -, rfl⟩ := step_path hstep
    exact .inl ht
  | dropped =>
    obtain rfl := Option.some.inj hstep
    exact .inl ht
  | routed late | listed | paused late =>
    have hnot := of_decide_eq_false hpass
    simp only [step, if_neg hnot] at hstep
    cases hstep
  | windowCloses =>
    rw [step] at hstep
    split at hstep
    · exact .inr ⟨rfl, by assumption⟩
    · cases hstep
  | listRejects | superseded =>
    rw [step] at hstep
    split at hstep
    · obtain rfl := Option.some.inj hstep
      cases ht
    · cases hstep

theorem settlesByReport_iff (w : ObservedWrite) (e : Event) :
    w.SettlesByReport cv e ↔ w.ListAgrees cv e := by
  cases hpass : w.passes e with
  | true =>
    obtain ⟨next, hnext, hstep⟩ := @step_pass cv w e hpass
    constructor
    · intro h hvol
      refine ⟨fun _ => (pass_resolves hnext).mp ((h _ hstep hvol).1 hpass), ?_⟩
      rintro ⟨rfl, -⟩
      cases hpass
    · intro h t ht hvol
      obtain rfl := Option.some.inj (hstep.symm.trans ht)
      have hresolved := (pass_resolves hnext).mpr ((h hvol).1 hpass)
      refine ⟨fun _ => hresolved, fun _ hunconverged => ?_⟩
      rw [hresolved] at hunconverged
      cases hunconverged
  | false =>
    constructor
    · intro h hvol
      refine ⟨fun h => absurd (hpass.symm.trans h) (by decide), ?_⟩
      rintro ⟨rfl, hlisting⟩
      have hstep : w.step cv .windowCloses = some { w with progress := .unconverged } :=
        if_pos hlisting
      exact (h _ hstep hvol).2 (by rw [hlisting]; decide) rfl
    · intro h t ht hvol
      refine ⟨fun h => absurd (hpass.symm.trans h) (by decide), fun hw hunconverged => ?_⟩
      obtain hwas | hcloses := unconverged_cases ht hpass hunconverged
      · exact hw hwas
      · exact (h hvol).2 hcloses

/-- A write settles by the device's own report, over every order of reports and list refreshes,
exactly if wherever a pass looks after the report the list itself carries the value, and the
window does not close on a list read. -/
theorem observedWrite_settles_iff (w : ObservedWrite) (events : List Event) :
    StepsMeet (step cv) (SettlesByReport cv) w events ↔
      StepsMeet (step cv) (ListAgrees cv) w events :=
  stepsMeet_congr (J := fun _ => True) trivial (fun w e _ => settlesByReport_iff w e)
    fun _ _ _ _ _ _ => trivial

/-- A step of another path replaces the list by one read from the cloud, or keeps it. -/
theorem path_cloud {c c' : Client} {l : Label} {changes : List PropertyChange}
    (hstep : c.step cv l = some (c', changes)) :
    c'.cloud = c.cloud ∨ l = .listRefresh c'.cloud ∨ l = .pollFetch c'.cloud := by
  cases l with
  | listRefresh cloud =>
    obtain rfl := congrArg Prod.fst (Option.some.inj hstep)
    exact .inr (.inl rfl)
  | pollFetch cloud =>
    obtain rfl := congrArg Prod.fst (Option.some.inj hstep)
    exact .inr (.inr rfl)
  | report params =>
    obtain rfl := congrArg Prod.fst (Option.some.inj hstep)
    left
    change (c.applyRealtimeParams params).cloud = c.cloud
    rw [Client.applyRealtimeParams]
    split <;> rfl
  | pollApply k =>
    obtain ⟨diff, -, hdiff⟩ := Option.map_eq_some_iff.mp hstep
    obtain rfl := congrArg Prod.fst hdiff
    exact .inl rfl
  | settled i =>
    obtain ⟨o, -, ho⟩ := Option.map_eq_some_iff.mp hstep
    obtain rfl := congrArg Prod.fst ho
    left
    change (c.settle cv i o).cloud = c.cloud
    rw [Client.settle]
    split
    · rfl
    · split
      · rfl
      · rfl
      · dsimp only
        split <;> rfl
  | observe command refresh =>
    obtain rfl := congrArg Prod.fst (Option.some.inj hstep)
    left
    dsimp only
    split
    · rfl
    · rfl
  | refreshBegin | refreshFetch overlay | refreshLand | refreshFail | observationEnds i
    | reresolve resolved =>
    rw [Client.step] at hstep
    first
      | (obtain rfl := congrArg Prod.fst (Option.some.inj hstep); exact .inl rfl)
      | (split at hstep <;> cases hstep <;> exact .inl rfl)

/-- The list does not carry the expected value. -/
def Stale (w : ObservedWrite) : Prop :=
  ∀ params, w.client.cloud = some params →
    (params.find? w.param).getD "undefined" ≠ w.expected

/-- **No report settles a write**: while no list read carries the expected value, none of the
passes resolves it, whatever the device reports. -/
theorem not_resolved_of_stale {events : List Event} (hrun : Run (step cv) w events t)
    (hstart : w.progress ≠ .resolved true) (hstale : w.Stale)
    (hlists : ∀ params, .path (.listRefresh (some params)) ∈ events ∨
      .path (.pollFetch (some params)) ∈ events →
        (params.find? w.param).getD "undefined" ≠ w.expected) :
    t.progress ≠ .resolved true := by
  suffices h : t.param = w.param ∧ t.expected = w.expected ∧ t.Stale ∧
      t.progress ≠ .resolved true from h.2.2.2
  induction hrun with
  | nil => exact ⟨rfl, rfl, hstale, hstart⟩
  | @snoc as v u e _ hstep ih =>
    obtain ⟨hparam, hexpected, hv, hprogress⟩ := ih fun params hmem =>
      hlists params (hmem.imp (List.mem_append_left _) (List.mem_append_left _))
    by_cases hpass : v.passes e = true
    -- a pass finds the value missing from the list, and leaves the list as it is
    · obtain ⟨next, hnext, htaken⟩ := @step_pass cv v e hpass
      obtain rfl := Option.some.inj (htaken.symm.trans hstep)
      have hcarries : ¬v.ListCarries cv := by
        rintro ⟨params, hcloud, hcarries, -⟩
        exact hv params hcloud hcarries
      refine ⟨hparam, hexpected, ?_, fun h => hcarries ((pass_resolves hnext).mp h)⟩
      intro params hcloud
      refine hv params ?_
      have hkept : (v.settled cv).1.cloud = v.client.cloud := by
        rw [settled]
        split
        · rfl
        · split
          · rfl
          · rfl
          · split <;> rfl
      exact hkept.symm.trans hcloud
    · have hlast : e ∈ as ++ [e] := List.mem_append_right _ (List.mem_singleton_self e)
      cases e with
      | path l =>
        obtain ⟨c', changes, hpath, rfl⟩ := step_path hstep
        refine ⟨hparam, hexpected, fun params hcloud => ?_, hprogress⟩
        change (params.find? v.param).getD "undefined" ≠ v.expected
        have hc' : c'.cloud = some params := hcloud
        -- the list is the one it was, or one of those that were read
        obtain hkept | hread | hread := path_cloud hpath
        · exact hv params (hkept.symm.trans hc')
        · rw [hparam, hexpected]
          exact hlists params (.inl (by rw [← hc', ← hread]; exact hlast))
        · rw [hparam, hexpected]
          exact hlists params (.inr (by rw [← hc', ← hread]; exact hlast))
      | dropped =>
        obtain rfl := Option.some.inj hstep
        exact ⟨hparam, hexpected, hv, hprogress⟩
      | routed late | listed | paused late =>
        have hnot := of_decide_eq_false (Bool.eq_false_iff.mpr hpass)
        simp only [step, if_neg hnot] at hstep
        cases hstep
      | windowCloses | listRejects | superseded =>
        rw [step] at hstep
        split at hstep
        · obtain rfl := Option.some.inj hstep
          exact ⟨hparam, hexpected, hv, by simp⟩
        · cases hstep

/-- A door sensor asked to read open, whose list says closed. -/
def sampleWrite : ObservedWrite where
  client := sampleClient
  observation := ⟨true, ⟨1, "open", some "1", some "true"⟩, none⟩
  expected := "1"
  expects := rfl

/-- The sensor itself reports open, and the window closes with the list unchanged. -/
def reportedOpen : List Event :=
  [.path (.report (SortedMap.single 1 "1")), .routed false, .listed, .paused true]

theorem reportedOpen_not_settled :
    ¬StepsMeet (step sampleConversions) (SettlesByReport sampleConversions) sampleWrite
      reportedOpen := by
  intro h
  have hpath : (exec (step sampleConversions) sampleWrite
      [.path (.report (SortedMap.single 1 "1")), .routed false, .listed]).map
        (fun w => (w.progress, w.volunteered)) = some (.pausing, true) := by decide
  obtain ⟨w, hw, hstate⟩ := Option.map_eq_some_iff.mp hpath
  obtain ⟨hprogress, hvolunteered⟩ := Prod.mk.inj hstate
  have hend : (exec (step sampleConversions) sampleWrite reportedOpen).map (·.progress) =
      some .unconverged := by decide
  have hlast : reportedOpen =
      [.path (.report (SortedMap.single 1 "1")), .routed false, .listed] ++ .paused true :: [] := rfl
  rw [hlast] at h
  have hmeets : SettlesByReport sampleConversions w (.paused true) := h.meets hw
  obtain ⟨t, ht⟩ : ∃ t, w.step sampleConversions (.paused true) = some t :=
    ⟨_, if_pos hprogress⟩
  have hresolved := (hmeets t ht hvolunteered).1 (decide_eq_true hprogress)
  have hexec : exec (step sampleConversions) sampleWrite reportedOpen = some t := by
    rw [show reportedOpen = [_, _, _] ++ [_] from rfl, exec_append, hw, Option.bind_some, exec, ht]
    rfl
  rw [hexec] at hend
  exact absurd (hresolved.symm.trans (Option.some.inj hend)) (by decide)

end ObservedWrite
end EufySdk.EufyMega
