import Mathlib.Tactic
import EufySdk.Lib.Lists
import EufySdk.Lib.Machine
import EufySdk.Transport.Ff09AutolockSet

/-!
# Overlapping auto-lock writes

The `ff09-autolock` dispatches of both command routers: a settings GET, the wait for its reply,
and the SET built from it. Several of them run against one lock, which answers with its settings
and applies what reaches it, in any order and more than once where a transport sends again.

- `AutolockChange.rewrite` — what a SET built from a reply makes of the settings
- `decode_buildAutolockSet` — the frame that `buildFf09AutolockSetFrame` builds says that
- `Lock.step` — an answer, a reply received, a SET applied
- `autolock_serial_iff` — when the outcome is one of the dispatches run one after another
-/

namespace EufySdk.Ff09

/-- What an `ff09-autolock` command asks for. -/
structure AutolockChange where
  enabled : Bool
  delaySeconds : Option ℕ
  deriving DecidableEq, Repr

namespace AutolockChange

/-- The settings that a SET built from a reply carries. -/
def rewrite (c : AutolockChange) (current : AutoLockSnapshot) : AutoLockSnapshot :=
  { current with
    enabled := c.enabled
    delaySeconds := (c.delaySeconds.map (· % 65536)).getD current.delaySeconds
    isSchedule := false }

/-- The change gives this delay. -/
def Gives (c : AutolockChange) (delay : ℕ) : Prop := ∃ d, c.delaySeconds = some d ∧ d % 65536 = delay

variable {c : AutolockChange} {current : AutoLockSnapshot} {delay : ℕ}

theorem rewrite_delay_of_gives (h : c.Gives delay) : (c.rewrite current).delaySeconds = delay := by
  obtain ⟨d, hd, rfl⟩ := h
  rw [rewrite, hd]
  rfl

theorem rewrite_delay_of_none (h : c.delaySeconds = none) :
    (c.rewrite current).delaySeconds = current.delaySeconds := by
  rw [rewrite, h]
  rfl

/-- A change gives a delay or none. -/
theorem none_or_gives (c : AutolockChange) : c.delaySeconds = none ∨ ∃ delay, c.Gives delay := by
  cases hc : c.delaySeconds with
  | none => exact .inl rfl
  | some d => exact .inr ⟨d % 65536, d, hc, rfl⟩

end AutolockChange

/-- What the lock reads in a command. -/
def decodeCommand (command : List (UInt8 × Bytes.Buffer)) : Except Ff09Error AutoLockSnapshot := do
  let field := OrderedMap.get command
  let enabled ← readFf09U8 (field 0xa4) "A4"
  let delaySeconds ← readFf09U16LE (field 0xa5) "A5"
  let isSchedule ← readFf09U8 (field 0xa6) "A6"
  let scheduleStartTime ← readFf09HourMinute (field 0xa7) "A7"
  let scheduleEndTime ← readFf09HourMinute (field 0xa8) "A8"
  return { enabled := enabled ≠ 0, delaySeconds, isSchedule := isSchedule ≠ 0, scheduleStartTime
           scheduleEndTime }

/-- What a snapshot was decoded from. -/
theorem decodeSnapshot_eq_ok {parsed : Ff09SettingsResponse} {current : AutoLockSnapshot}
    (h : decodeFf09AutoLockSnapshot parsed = .ok current) :
    readFf09U16LE (parsed.field 0xa2) "a2 (delaySeconds)" = .ok current.delaySeconds ∧
      readFf09HourMinute (parsed.field 0xa4) "a4 (scheduleStartTime)" =
        .ok current.scheduleStartTime ∧
      readFf09HourMinute (parsed.field 0xa5) "a5 (scheduleEndTime)" =
        .ok current.scheduleEndTime := by
  obtain ⟨_, _, h⟩ := bind_eq_ok.mp h
  obtain ⟨_, hdelay, h⟩ := bind_eq_ok.mp h
  obtain ⟨_, _, h⟩ := bind_eq_ok.mp h
  obtain ⟨_, hstart, h⟩ := bind_eq_ok.mp h
  obtain ⟨_, hend, h⟩ := bind_eq_ok.mp h
  obtain rfl := Except.ok.inj h
  exact ⟨hdelay, hstart, hend⟩

/-- **The frame built from a reply is the rewrite of what the reply reports.** -/
theorem decode_buildAutolockSet {C : Cipher} (hC : C.Inverts) {input : AutolockSetInput}
    {plain : Bytes.Buffer} {parsed : Ff09SettingsResponse} {current : AutoLockSnapshot}
    {unixTime nonce : ℕ} {frame : Ff09Frame}
    (hplain : decryptFf09Frame C input.lockPayload input.keyTime input.adminUserId
      input.deviceSn = .ok plain)
    (hparsed : parseFf09SettingsResponse plain = .ok parsed)
    (hcurrent : decodeFf09AutoLockSnapshot parsed = .ok current)
    (hframe : buildFf09AutolockSetFrame C input unixTime nonce = .ok frame) :
    ∃ command, parseCommand C frame input.adminUserId input.deviceSn = .ok command ∧
      decodeCommand command =
        .ok (AutolockChange.rewrite ⟨input.enabled, input.delaySeconds⟩ current) := by
  obtain ⟨delay, a7, a8, hdelay, ha7, ha8, hbuilt⟩ :=
    (buildAutolockSet_eq_ok hplain hparsed).mp hframe
  obtain ⟨hreported, hstart, hend⟩ := decodeSnapshot_eq_ok hcurrent
  refine ⟨_, parseCommand_buildSettings hC hbuilt, ?_⟩
  -- Every field of the command is one that the settings were written to.
  have henabled : readFf09U8 (some [if input.enabled then (1 : UInt8) else 0]) "A4" =
      .ok (if input.enabled then 1 else 0) := by
    cases input.enabled with
    | true => rfl
    | false => rfl
  have hwritten : readFf09U16LE (some (Bytes.uint16LE (input.delaySeconds.getD delay))) "A5" =
      .ok ((input.delaySeconds.map (· % 65536)).getD current.delaySeconds) := by
    refine congrArg Except.ok ((Bytes.readUIntLE_uint16LE_mod _).trans ?_)
    cases hrequest : input.delaySeconds with
    | some d => rfl
    | none =>
      obtain ⟨b0, b1, rest, hfield, rfl⟩ := readFf09U16LE_eq_ok.mp hdelay
      rw [hfield] at hreported
      exact (Nat.mod_eq_of_lt (readUIntLE_pair_lt b0 b1)).trans (Except.ok.inj hreported)
  have hbegins : readFf09HourMinute (some (Bytes.uint16LE a7)) "A7" =
      .ok current.scheduleStartTime := hourMinute_of_u16LE ha7 hstart
  have hends : readFf09HourMinute (some (Bytes.uint16LE a8)) "A8" =
      .ok current.scheduleEndTime := hourMinute_of_u16LE ha8 hend
  refine bind_eq_ok.mpr ⟨_, henabled, bind_eq_ok.mpr ⟨_, hwritten, bind_eq_ok.mpr ⟨0, rfl,
    bind_eq_ok.mpr ⟨_, hbegins, bind_eq_ok.mpr ⟨_, hends, ?_⟩⟩⟩⟩⟩
  cases input.enabled with
  | true => rfl
  | false => rfl

/-! ### One after another -/

/-- The settings behind changes that run one after another. -/
def rewrites (current : AutoLockSnapshot) (changes : List AutolockChange) : AutoLockSnapshot :=
  changes.foldl (fun s c => c.rewrite s) current

/-- The enable flag and the delay are those of the changes run one after another in some order. -/
def Serial (start : AutoLockSnapshot) (changes : List AutolockChange) (final : AutoLockSnapshot) :
    Prop :=
  ∃ order : List AutolockChange, order.Perm changes ∧
    (rewrites start order).enabled = final.enabled ∧
      (rewrites start order).delaySeconds = final.delaySeconds

section Serial

variable {start current : AutoLockSnapshot} {changes : List AutolockChange} {c k : AutolockChange}
  {delay : ℕ}

theorem rewrites_append (changes rest : List AutolockChange) :
    rewrites start (changes ++ rest) = rewrites (rewrites start changes) rest :=
  List.foldl_append

/-- The delay behind changes of which one gives a delay is one that a change gives. -/
theorem rewrites_delay_given (start : AutoLockSnapshot) (h : ∃ c ∈ changes, ∃ delay, c.Gives delay) :
    ∃ c ∈ changes, c.Gives (rewrites start changes).delaySeconds := by
  induction changes using List.reverseRecOn with
  | nil => simp at h
  | append_singleton rest c ih =>
    have hlast : rewrites start (rest ++ [c]) = c.rewrite (rewrites start rest) :=
      rewrites_append rest [c]
    rw [hlast]
    obtain hnone | ⟨delay, hgives⟩ := c.none_or_gives
    · have hrest : ∃ c ∈ rest, ∃ delay, c.Gives delay := by
        obtain ⟨k, hk, delay, hgives⟩ := h
        obtain hold | rfl := (List.mem_append.mp hk).imp_right List.mem_singleton.mp
        · exact ⟨k, hold, delay, hgives⟩
        · obtain ⟨d, hd, -⟩ := hgives
          rw [hnone] at hd
          cases hd
      obtain ⟨k, hk, hgives⟩ := ih hrest
      refine ⟨k, List.mem_append_left _ hk, ?_⟩
      rwa [AutolockChange.rewrite_delay_of_none hnone]
    · refine ⟨c, List.mem_append_right _ List.mem_cons_self, ?_⟩
      rwa [AutolockChange.rewrite_delay_of_gives hgives]

/-- Changes that give no delay keep it. -/
theorem rewrites_delay_kept (h : ∀ c ∈ changes, c.delaySeconds = none) :
    (rewrites start changes).delaySeconds = start.delaySeconds := by
  induction changes generalizing start with
  | nil => rfl
  | cons c rest ih =>
    have hrest := @ih (c.rewrite start) fun k hk => h k (List.mem_cons_of_mem _ hk)
    exact hrest.trans (AutolockChange.rewrite_delay_of_none (h c List.mem_cons_self))

theorem perm_last (h : c ∈ changes) : (changes.erase c ++ [c]).Perm changes :=
  (List.perm_append_singleton c _).trans (List.perm_cons_erase h).symm

/-- A change run last leaves its flag, and the delay it gives. -/
theorem serial_of_gives {final : AutoLockSnapshot} (hc : c ∈ changes)
    (henabled : c.enabled = final.enabled) (hgives : c.Gives final.delaySeconds) :
    Serial start changes final := by
  refine ⟨changes.erase c ++ [c], perm_last hc, ?_⟩
  rw [rewrites_append]
  exact ⟨henabled, AutolockChange.rewrite_delay_of_gives hgives⟩

/-- A change without a delay leaves the one given right before it. -/
theorem serial_of_given {final : AutoLockSnapshot} (hc : c ∈ changes)
    (henabled : c.enabled = final.enabled) (hnone : c.delaySeconds = none) (hk : k ∈ changes)
    (hgives : k.Gives final.delaySeconds) : Serial start changes final := by
  have hne : k ≠ c := by
    rintro rfl
    obtain ⟨d, hd, -⟩ := hgives
    rw [hnone] at hd
    cases hd
  have hkept : k ∈ changes.erase c := (List.mem_erase_of_ne hne).mpr hk
  refine ⟨((changes.erase c).erase k ++ [k]) ++ [c],
    ((perm_last hkept).append_right [c]).trans (perm_last hc), ?_⟩
  rw [rewrites_append, rewrites_append]
  refine ⟨henabled, (AutolockChange.rewrite_delay_of_none hnone).trans ?_⟩
  exact AutolockChange.rewrite_delay_of_gives hgives

/-- A change run last leaves the delay that none of them gives. -/
theorem serial_of_kept {final : AutoLockSnapshot} (hc : c ∈ changes)
    (henabled : c.enabled = final.enabled) (hnone : ∀ c ∈ changes, c.delaySeconds = none)
    (hdelay : start.delaySeconds = final.delaySeconds) : Serial start changes final := by
  have hperm := perm_last hc
  refine ⟨changes.erase c ++ [c], hperm, ?_, ?_⟩
  · rw [rewrites_append]
    exact henabled
  · rw [rewrites_delay_kept fun k hk => hnone k (hperm.mem_iff.mp hk)]
    exact hdelay

end Serial

/-! ### Overlapping -/

/-- How far a dispatch is; behind its reply, with the settings of its SET. -/
inductive Progress
  | awaiting
  | sending (settings : AutoLockSnapshot) (given : Bool)
  deriving DecidableEq, Repr

/-- A dispatch, whose GET carries a time that its reply must carry too. -/
structure Dispatch where
  change : AutolockChange
  keyTime : ℕ
  progress : Progress := .awaiting
  applied : Bool := false
  deriving DecidableEq, Repr

/-- A settings reply on its way. -/
structure GetReply where
  keyTime : ℕ
  settings : AutoLockSnapshot
  given : Bool
  deriving DecidableEq, Repr

/-- The lock, the dispatches and the replies. The delay of some settings is `given` if it stems from
a dispatch that gives one, directly or through the replies that others were built from. -/
structure Lock where
  settings : AutoLockSnapshot
  given : Bool := false
  dispatches : List Dispatch
  replies : List GetReply := []
  deriving DecidableEq, Repr

inductive LockLabel
  /-- The lock answers the GET of a dispatch. -/
  | answer (i : ℕ)
  /-- A dispatch receives a reply with its time, and builds its SET. -/
  | receive (i r : ℕ)
  /-- The lock applies the SET of a dispatch. -/
  | apply (i : ℕ)
  deriving DecidableEq, Repr

namespace Lock

def step (s : Lock) : LockLabel → Option Lock
  | .answer i =>
    s.dispatches[i]?.map fun d => { s with replies := s.replies ++ [⟨d.keyTime, s.settings, s.given⟩] }
  | .receive i r =>
    match s.dispatches[i]?, s.replies[r]? with
    | some d, some reply =>
      -- a reply is told from others by its time alone
      if d.progress = .awaiting ∧ reply.keyTime = d.keyTime then
        let progress :=
          .sending (d.change.rewrite reply.settings) (d.change.delaySeconds.isSome || reply.given)
        some { s with dispatches := s.dispatches.set i { d with progress } }
      else none
    | _, _ => none
  | .apply i =>
    s.dispatches[i]?.bind fun d =>
      match d.progress with
      -- the same SET may arrive again
      | .sending settings given =>
        some { s with settings, given, dispatches := s.dispatches.set i { d with applied := true } }
      | .awaiting => none

/-- Every SET has been applied. -/
def Done (s : Lock) : Prop := ∀ d ∈ s.dispatches, d.applied = true

instance (s : Lock) : Decidable s.Done :=
  inferInstanceAs (Decidable (∀ d ∈ s.dispatches, d.applied = true))

/-- The lock before any of the dispatches, each with the time of its GET. -/
def before (start : AutoLockSnapshot) (commands : List (AutolockChange × ℕ)) : Lock where
  settings := start
  dispatches := commands.map fun command => { change := command.1, keyTime := command.2 }

/-- No delay that a dispatch gives is lost: none gives one, or one gives the delay that the lock
had, or the delay of the SET applied last stems from one that does. -/
def DelayKept (start : AutoLockSnapshot) (changes : List AutolockChange) (s : Lock) : Prop :=
  (∀ c ∈ changes, c.delaySeconds = none) ∨ (∃ c ∈ changes, c.Gives start.delaySeconds) ∨
    s.given = true

/-- A delay that stems from one that a change gives, or is the one that the lock had. -/
def Stems (start : AutoLockSnapshot) (changes : List AutolockChange) (delay : ℕ) (given : Bool) :
    Prop :=
  if given then ∃ c ∈ changes, c.Gives delay else delay = start.delaySeconds

section Runs

variable {start current : AutoLockSnapshot} {changes : List AutolockChange} {s t : Lock}
  {c : AutolockChange} {given : Bool}

/-- What a change makes of settings stems from its own delay, or from where theirs does. -/
theorem stems_rewrite (hc : c ∈ changes) (h : Stems start changes current.delaySeconds given) :
    Stems start changes (c.rewrite current).delaySeconds (c.delaySeconds.isSome || given) := by
  obtain hnone | ⟨delay, hgives⟩ := c.none_or_gives
  · rw [AutolockChange.rewrite_delay_of_none hnone, hnone]
    exact h
  · rw [AutolockChange.rewrite_delay_of_gives hgives]
    obtain ⟨d, hd, hdelay⟩ := hgives
    rw [hd]
    exact ⟨c, hc, d, hd, hdelay⟩

/-- The SET of a dispatch: its flag, its delay where it gives one, and one that stems. -/
structure Writes (start : AutoLockSnapshot) (changes : List AutolockChange) (c : AutolockChange)
    (settings : AutoLockSnapshot) (given : Bool) : Prop where
  enabled : c.enabled = settings.enabled
  gives : ∀ delay, c.Gives delay → settings.delaySeconds = delay
  stems : Stems start changes settings.delaySeconds given

structure Sound (start : AutoLockSnapshot) (changes : List AutolockChange) (s : Lock) : Prop where
  dispatched : s.dispatches.map Dispatch.change = changes
  replies : ∀ r ∈ s.replies, Stems start changes r.settings.delaySeconds r.given
  sending : ∀ d ∈ s.dispatches, ∀ settings given, d.progress = .sending settings given →
    Writes start changes d.change settings given
  /-- The settings are those that the lock had, or of a SET. -/
  written : (s.settings = start ∧ s.given = false ∧ ∀ d ∈ s.dispatches, d.applied = false) ∨
    ∃ c ∈ changes, Writes start changes c s.settings s.given

theorem sound_before (start : AutoLockSnapshot) (commands : List (AutolockChange × ℕ)) :
    Sound start (commands.map Prod.fst) (before start commands) where
  dispatched := by rw [before, List.map_map]; rfl
  replies := nofun
  sending := fun d hd settings given hprogress => by
    obtain ⟨command, -, rfl⟩ := List.mem_map.mp hd
    cases hprogress
  written := .inl ⟨rfl, rfl, fun d hd => by
    obtain ⟨command, -, rfl⟩ := List.mem_map.mp hd
    rfl⟩

theorem Sound.stems (h : Sound start changes s) :
    Stems start changes s.settings.delaySeconds s.given := by
  obtain ⟨hstart, hgiven, -⟩ | ⟨c, -, hwrites⟩ := h.written
  · rw [hstart, hgiven]
    rfl
  · exact hwrites.stems

theorem Sound.mem_changes (h : Sound start changes s) {d : Dispatch} (hd : d ∈ s.dispatches) :
    d.change ∈ changes := by
  rw [← h.dispatched]
  exact List.mem_map_of_mem hd

/-- A dispatch set to another of its change keeps the changes. -/
theorem map_change_set {dispatches : List Dispatch} {i : ℕ} {d d' : Dispatch}
    (hd : dispatches[i]? = some d) (hchange : d'.change = d.change) :
    (dispatches.set i d').map Dispatch.change = dispatches.map Dispatch.change := by
  rw [List.map_set, hchange, ← List.map_set, Lists.set_known hd]

theorem Sound.answer (h : Sound start changes s) {i : ℕ} (hstep : step s (.answer i) = some t) :
    Sound start changes t := by
  obtain ⟨d, hd, rfl⟩ := Option.map_eq_some_iff.mp hstep
  refine ⟨h.dispatched, fun r hr => ?_, h.sending, h.written⟩
  obtain hold | hnew := List.mem_append.mp hr
  · exact h.replies r hold
  · obtain rfl := List.mem_singleton.mp hnew
    exact h.stems

theorem Sound.receive (h : Sound start changes s) {i r : ℕ}
    (hstep : step s (.receive i r) = some t) : Sound start changes t := by
  rw [step] at hstep
  split at hstep
  · rename_i d reply hd hreply
    split at hstep
    · obtain rfl := Option.some.inj hstep
      have hmem := List.mem_of_getElem? hd
      have hchange := h.mem_changes hmem
      have hstems := h.replies reply (List.mem_of_getElem? hreply)
      refine ⟨(map_change_set hd (by rfl)).trans h.dispatched, h.replies, ?_, ?_⟩
      · intro d' hd' settings given hprogress
        obtain hold | rfl := List.mem_or_eq_of_mem_set hd'
        · exact h.sending d' hold settings given hprogress
        · cases hprogress
          exact ⟨rfl, fun _ hgives => AutolockChange.rewrite_delay_of_gives hgives,
            stems_rewrite hchange hstems⟩
      · refine h.written.imp_left fun ⟨hstart, hgiven, hnone⟩ => ⟨hstart, hgiven, ?_⟩
        intro d' hd'
        obtain hold | rfl := List.mem_or_eq_of_mem_set hd'
        · exact hnone d' hold
        · exact hnone d hmem
    · cases hstep
  · cases hstep

theorem Sound.apply (h : Sound start changes s) {i : ℕ} (hstep : step s (.apply i) = some t) :
    Sound start changes t := by
  obtain ⟨d, hd, hstep⟩ := Option.bind_eq_some_iff.mp hstep
  split at hstep
  · rename_i settings given hprogress
    obtain rfl := Option.some.inj hstep
    have hmem := List.mem_of_getElem? hd
    refine ⟨(map_change_set hd (by rfl)).trans h.dispatched, h.replies, ?_, ?_⟩
    · intro d' hd' settings' given' hprogress'
      obtain hold | rfl := List.mem_or_eq_of_mem_set hd'
      · exact h.sending d' hold settings' given' hprogress'
      · exact h.sending d hmem settings' given' hprogress'
    · exact .inr ⟨d.change, h.mem_changes hmem, h.sending d hmem settings given hprogress⟩
  · cases hstep

theorem Sound.step (h : Sound start changes s) {a : LockLabel} (hstep : step s a = some t) :
    Sound start changes t := by
  cases a with
  | answer i => exact h.answer hstep
  | receive i r => exact h.receive hstep
  | apply i => exact h.apply hstep

/-- A lock whose dispatches are done has the settings of a SET, if there is one. -/
theorem Sound.final (h : Sound start changes s) (hdone : s.Done) :
    (changes = [] ∧ s.settings = start) ∨
      ∃ c ∈ changes, Writes start changes c s.settings s.given := by
  obtain ⟨hstart, -, hnone⟩ | hwritten := h.written
  · refine .inl ⟨?_, hstart⟩
    rw [← h.dispatched, List.map_eq_nil_iff, List.eq_nil_iff_forall_not_mem]
    intro d hd
    exact absurd ((hdone d hd).symm.trans (hnone d hd)) (by decide)
  · exact .inr hwritten

/-- The outcome of a serial run keeps a given delay. -/
theorem Sound.kept_of_serial (h : Sound start changes s)
    (hserial : Serial start changes s.settings) : DelayKept start changes s := by
  obtain ⟨order, hperm, -, hdelay⟩ := hserial
  by_cases hgiver : ∃ c ∈ changes, ∃ delay, c.Gives delay
  -- the serial run ends with a given delay, and the lock with the same one
  · have horder : ∃ c ∈ order, ∃ delay, c.Gives delay := by
      obtain ⟨c, hc, hgives⟩ := hgiver
      exact ⟨c, hperm.mem_iff.mpr hc, hgives⟩
    obtain ⟨c, hc, hgives⟩ := rewrites_delay_given start horder
    rw [hdelay] at hgives
    cases hgiven : s.given with
    | true => exact .inr (.inr hgiven)
    | false =>
      have hstems := h.stems
      rw [hgiven] at hstems
      have hkept : s.settings.delaySeconds = start.delaySeconds := hstems
      exact .inr (.inl ⟨c, hperm.mem_iff.mp hc, hkept ▸ hgives⟩)
  · refine .inl fun c hc => c.none_or_gives.resolve_right fun hgives => hgiver ⟨c, hc, hgives⟩

/-- An outcome that keeps a given delay is that of a serial run. -/
theorem Sound.serial_of_kept (h : Sound start changes s) (hdone : s.Done)
    (hkept : DelayKept start changes s) : Serial start changes s.settings := by
  obtain ⟨rfl, hstart⟩ | ⟨c, hc, hwrites⟩ := h.final hdone
  · exact ⟨[], .nil, congrArg AutoLockSnapshot.enabled hstart.symm,
      congrArg AutoLockSnapshot.delaySeconds hstart.symm⟩
  · obtain hnone | ⟨delay, hgives⟩ := c.none_or_gives
    -- the last SET gives none: another dispatch has to give the delay right before it
    · have hstems := h.stems
      rw [Stems] at hstems
      split at hstems
      · obtain ⟨k, hk, hgives⟩ := hstems
        exact serial_of_given hc hwrites.enabled hnone hk hgives
      · rename_i hgiven
        obtain hall | ⟨k, hk, hgives⟩ | htrue := hkept
        · exact Ff09.serial_of_kept hc hwrites.enabled hall hstems.symm
        · exact serial_of_given hc hwrites.enabled hnone hk (hstems ▸ hgives)
        · exact absurd htrue hgiven
    · have hdelay := hwrites.gives delay hgives
      exact serial_of_gives hc hwrites.enabled (hdelay ▸ hgives)

/-- **When overlapping auto-lock writes are as if run one after another.** Behind every run in which
each dispatch has its SET applied, the enable flag and the delay are those of some order of the
dispatches if and only if no delay that a dispatch gives is lost. -/
theorem autolock_serial_iff (start : AutoLockSnapshot) (commands : List (AutolockChange × ℕ))
    (labels : List LockLabel) (hrun : Machine.exec step (before start commands) labels = some s)
    (hdone : s.Done) :
    Serial start (commands.map Prod.fst) s.settings ↔
      DelayKept start (commands.map Prod.fst) s := by
  have hsound : Sound start (commands.map Prod.fst) s :=
    (Machine.run_of_exec hrun).invariant (sound_before start commands)
      fun _ _ _ h hstep => h.step hstep
  exact ⟨hsound.kept_of_serial, hsound.serial_of_kept hdone⟩

/-- A lock whose delay is 30 s. -/
def sampleLock : AutoLockSnapshot where
  enabled := false
  delaySeconds := 30
  isSchedule := false
  scheduleStartTime := (22, 0)
  scheduleEndTime := (6, 0)

/-- One dispatch sets a delay of 60 s, the other switches the auto-lock off. -/
def sampleCommands : List (AutolockChange × ℕ) :=
  [(⟨true, some 60⟩, 1700000001), (⟨false, none⟩, 1700000003)]

/-- Both GETs are answered before the first SET is applied. -/
def overlapping : List LockLabel :=
  [.answer 0, .answer 1, .receive 0 0, .receive 1 1, .apply 0, .apply 1]

/-- The second GET is answered behind the first SET. -/
def consecutive : List LockLabel :=
  [.answer 0, .receive 0 0, .apply 0, .answer 1, .receive 1 1, .apply 1]

/-- The delay of 60 s is lost: in each order of the two it is the lock's last. -/
theorem overlapping_not_serial :
    ∃ s, Machine.exec step (before sampleLock sampleCommands) overlapping = some s ∧ s.Done ∧
      s.settings.delaySeconds = 30 ∧
        ¬ Serial sampleLock (sampleCommands.map Prod.fst) s.settings := by
  refine ⟨_, rfl, by decide, rfl, ?_⟩
  rintro ⟨order, hperm, -, hdelay⟩
  obtain ⟨c, hc, hgives⟩ := rewrites_delay_given sampleLock
    ⟨⟨true, some 60⟩, hperm.mem_iff.mpr (by decide), 60, 60, rfl, rfl⟩
  rw [hdelay] at hgives
  obtain ⟨d, hd, hmod⟩ := hgives
  have hc' : c ∈ [(⟨true, some 60⟩ : AutolockChange), ⟨false, none⟩] := hperm.mem_iff.mp hc
  simp only [List.mem_cons, List.not_mem_nil, or_false] at hc'
  obtain rfl | rfl := hc'
  · obtain rfl := Option.some.inj hd
    exact absurd hmod (by decide)
  · cases hd

/-- Behind the other, the second dispatch keeps it. -/
theorem consecutive_serial :
    ∃ s, Machine.exec step (before sampleLock sampleCommands) consecutive = some s ∧
      Serial sampleLock (sampleCommands.map Prod.fst) s.settings := by
  refine ⟨_, rfl, ?_⟩
  exact (autolock_serial_iff sampleLock sampleCommands consecutive rfl (by decide)).mpr
    (.inr (.inr rfl))

end Runs

end Lock

end EufySdk.Ff09
