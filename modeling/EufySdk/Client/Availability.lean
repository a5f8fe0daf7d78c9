import Mathlib.Tactic
import Mathlib.Data.Prod.Lex
import EufySdk.Core.Json
import EufySdk.Lib.Latest

/-!
# Availability

What `client/eufy-mega.ts` retains of the `state_info` messages of `transport/mqtt/availability.ts`:
one observation per device. A message is compared with the observation that is retained, by the
evidence of order that both carry, its time first; without any, the later arrival stands.

- `parseStateInfoSignal` — a message decoded
- `Client.applyAvailabilityObservation` — one observation retained or dropped
- `Older` — older by all evidence that two observations both carry
-/

namespace EufySdk.Availability

/-! ## The wire -/

structure ParsedTopic where
  root : String
  category : String
  model : String
  sn : String
  tail : String
  deriving DecidableEq, Repr

def parseSecureTopic (topic : String) : Option ParsedTopic :=
  match topic.splitOn "/" with
  | root :: category :: model :: sn :: leg :: legs =>
    if root ≠ "cmd" ∧ root ≠ "synq" ∧ root ≠ "biz" ∧ root ≠ "dt" then none
    else if category = "" ∨ model = "" ∨ sn = "" then none
    else some ⟨root, category, model, sn, "/".intercalate (leg :: legs)⟩
  | _ => none

/-- Text that parses as an object. -/
def jsonObject (jsonParse : String → Option Json) : Option Json → Option Json
  | some (.str text) =>
    match jsonParse text with
    | some (.obj fields) => some (.obj fields)
    | _ => none
  | _ => none

structure StateInfoSignal where
  deviceSn : String
  status : Bool
  observedAt : Option ℚ
  sequence : Option ℚ
  deriving DecidableEq, Repr

/-- A number, if it is one. -/
def numberOf : Option Json → Option ℚ
  | some (.num n) => some n
  | _ => none

def parseStateInfoSignal (jsonParse : String → Option Json) (topic : String) (raw : Json) :
    Option StateInfoSignal :=
  match parseSecureTopic topic with
  | some ⟨"synq", "eufy_life", _, sn, "state_info"⟩ =>
    match (jsonObject jsonParse (raw.get? "payload")).bind (Json.get? "status") with
    | some (.bool status) =>
      let head := raw.get? "head"
      some
        { deviceSn := sn
          status
          observedAt := (numberOf (head.bind (Json.get? "timestamp"))).map (· * 1000)
          sequence := numberOf (head.bind (Json.get? "msg_seq")) }
    | _ => none
  | _ => none

/-! ## The client -/

inductive AvailabilityState
  | available
  | unavailable
  deriving DecidableEq, Repr

structure AvailabilitySource where
  transport : String
  signal : String
  deriving DecidableEq, Repr

structure AvailabilityObservation where
  sn : String
  availability : AvailabilityState
  source : AvailabilitySource
  observedAt : Option ℚ
  sequence : Option ℚ
  receivedAt : ℚ
  deriving DecidableEq, Repr

/-- Whether an observation leaves the one that is retained in its place. -/
def superseded (previous observation : AvailabilityObservation) : Bool :=
  let bothTimed := previous.observedAt.isSome && observation.observedAt.isSome
  let older := match previous.observedAt, observation.observedAt with
    | some before, some now => decide (now < before)
    | _, _ => false
  older ||
    (previous.source = observation.source &&
      -- sequences compare where the times are not both there, or tie
      (!bothTimed || observation.observedAt = previous.observedAt) &&
      ((match previous.sequence, observation.sequence with
        | some before, some now => decide (now < before)
        | _, _ => false) ||
      -- a number that was seen with another status keeps the first one
      (previous.sequence.isSome && observation.sequence = previous.sequence &&
        observation.availability ≠ previous.availability)))

structure Client where
  availabilityObservations : String → Option AvailabilityObservation := fun _ => none

/-- The event of an observation that takes the place of another one. -/
def announcement (previous : Option AvailabilityObservation)
    (observation : AvailabilityObservation) : Option AvailabilityObservation :=
  if previous.map AvailabilityObservation.availability ≠ some observation.availability
  then some observation else none

/-- What is announced goes with the client behind it. -/
def Client.applyAvailabilityObservation (c : Client) (observation : AvailabilityObservation) :
    Client × Option AvailabilityObservation :=
  let previous := c.availabilityObservations observation.sn
  if previous.any fun p => superseded p observation then (c, none)
  else
    (⟨Function.update c.availabilityObservations observation.sn (some observation)⟩,
      announcement previous observation)

/-- The observation of a signal. -/
def StateInfoSignal.observation (signal : StateInfoSignal) (receivedAt : ℚ) :
    AvailabilityObservation where
  sn := signal.deviceSn
  availability := if signal.status then .available else .unavailable
  source := ⟨"smqtt", "state-info"⟩
  observedAt := signal.observedAt
  sequence := signal.sequence
  receivedAt

def Client.processAvailabilityMessage (c : Client) (jsonParse : String → Option Json)
    (topic : String) (raw : Json) (now : ℚ) : Client × Option AvailabilityObservation :=
  match parseStateInfoSignal jsonParse topic raw with
  | none => (c, none)
  | some signal => c.applyAvailabilityObservation (signal.observation now)

/-! ## Signals -/

/-- A signal and the time it is received at. -/
structure Arrival where
  signal : StateInfoSignal
  receivedAt : ℚ
  deriving DecidableEq, Repr

def Arrival.observation (a : Arrival) : AvailabilityObservation := a.signal.observation a.receivedAt

/-- The client behind some signals. -/
def Client.behind (c : Client) (arrivals : List Arrival) : Client :=
  arrivals.foldl (fun c a => (c.applyAvailabilityObservation a.observation).1) c

/-- A message, with its topic and the time it is received at. -/
structure Message where
  topic : String
  raw : Json
  now : ℚ

/-- The signal of a message. -/
def Message.arrival (jsonParse : String → Option Json) (m : Message) : Option Arrival :=
  (parseStateInfoSignal jsonParse m.topic m.raw).map fun signal => ⟨signal, m.now⟩

/-- **Messages come down to their signals.** -/
theorem processAvailabilityMessages_eq (jsonParse : String → Option Json) (c : Client)
    (messages : List Message) :
    messages.foldl (fun c m => (c.processAvailabilityMessage jsonParse m.topic m.raw m.now).1) c =
      c.behind (messages.filterMap (Message.arrival jsonParse)) := by
  induction messages generalizing c with
  | nil => rfl
  | cons m messages ih =>
    rw [List.foldl_cons, ih, Client.processAvailabilityMessage]
    cases hsignal : parseStateInfoSignal jsonParse m.topic m.raw with
    | none =>
      rw [List.filterMap_cons_none (by rw [Message.arrival, hsignal]; rfl)]
    | some signal =>
      rw [List.filterMap_cons_some (b := ⟨signal, m.now⟩) (by rw [Message.arrival, hsignal]; rfl)]
      rfl

/-- What is retained of a device behind some signals. -/
def retained (arrivals : List Arrival) (sn : String) : Option AvailabilityObservation :=
  (Client.behind {} arrivals).availabilityObservations sn

/-- Whether a signal, behind some others, is retained. -/
def accepted (before : List Arrival) (a : Arrival) : Bool :=
  !(retained before a.signal.deviceSn).any fun p => superseded p a.observation

/-- Older by every kind of evidence both carry, of which there is one. -/
def Older (o p : AvailabilityObservation) : Prop :=
  ((o.observedAt.isSome ∧ p.observedAt.isSome) ∨ (o.sequence.isSome ∧ p.sequence.isSome)) ∧
    (∀ now before, o.observedAt = some now → p.observedAt = some before → now < before) ∧
    ∀ now before, o.sequence = some now → p.sequence = some before → now < before

/-- What the vendor's order is asked to decide of a signal behind some others, against each one
that has been accepted. -/
def AcceptedOrder (arrivals : List Arrival) : Prop :=
  ∀ before a after, arrivals = before ++ a :: after → ∀ earlier p between,
    before = earlier ++ p :: between → accepted earlier p = true →
    p.signal.deviceSn = a.signal.deviceSn → Older a.observation p.observation →
    retained (before ++ [a]) a.signal.deviceSn = retained before a.signal.deviceSn

/-- The same against the one that is retained. -/
def RetainedOrder (arrivals : List Arrival) : Prop :=
  ∀ before a after, arrivals = before ++ a :: after → ∀ p,
    retained before a.signal.deviceSn = some p → Older a.observation p →
    retained (before ++ [a]) a.signal.deviceSn = some p

/-- A signal is announced exactly when it changes what is retained of its device's availability. -/
def AnnouncesChanges (arrivals : List Arrival) : Prop :=
  ∀ before a after, arrivals = before ++ a :: after →
    ((((Client.behind {} before).applyAvailabilityObservation a.observation).2 = some a.observation ↔
        (retained (before ++ [a]) a.signal.deviceSn).map AvailabilityObservation.availability ≠
          (retained before a.signal.deviceSn).map AvailabilityObservation.availability) ∧
      (((Client.behind {} before).applyAvailabilityObservation a.observation).2 = none ↔
        (retained (before ++ [a]) a.signal.deviceSn).map AvailabilityObservation.availability =
          (retained before a.signal.deviceSn).map AvailabilityObservation.availability))

/-- The place of a signal that carries both kinds of evidence in the vendor's order. -/
def orderKey (o : AvailabilityObservation) : ℚ ×ₗ ℚ :=
  toLex (o.observedAt.getD 0, o.sequence.getD 0)

/-! ## One signal -/

variable {arrivals before : List Arrival} {a : Arrival} {sn : String}

theorem behind_append (c : Client) (arrivals : List Arrival) (a : Arrival) :
    c.behind (arrivals ++ [a]) =
      ((c.behind arrivals).applyAvailabilityObservation a.observation).1 := by
  rw [Client.behind, List.foldl_append]
  rfl

/-- A signal that is not accepted leaves everything as it is. -/
theorem apply_of_not_accepted (h : accepted before a = false) :
    (Client.behind {} before).applyAvailabilityObservation a.observation =
      (Client.behind {} before, none) := by
  rw [accepted, Bool.not_eq_false'] at h
  exact if_pos h

/-- A signal that is accepted is retained, and announced where it says something else. -/
theorem apply_of_accepted (h : accepted before a = true) :
    (Client.behind {} before).applyAvailabilityObservation a.observation =
      (⟨Function.update (Client.behind {} before).availabilityObservations a.signal.deviceSn
          (some a.observation)⟩,
        announcement (retained before a.signal.deviceSn) a.observation) := by
  rw [accepted, Bool.not_eq_true'] at h
  exact if_neg (by rw [Bool.not_eq_true]; exact h)

/-- What one more signal leaves retained. -/
theorem retained_append (before : List Arrival) (a : Arrival) (sn : String) :
    retained (before ++ [a]) sn =
      if sn = a.signal.deviceSn ∧ accepted before a = true then some a.observation
      else retained before sn := by
  rw [retained, behind_append]
  cases haccepted : accepted before a with
  | false =>
    rw [apply_of_not_accepted haccepted, if_neg (by simp)]
    rfl
  | true =>
    rw [apply_of_accepted haccepted]
    by_cases hsn : sn = a.signal.deviceSn
    · rw [if_pos ⟨hsn, rfl⟩, hsn]
      exact Function.update_self _ _ _
    · rw [if_neg fun h => hsn h.1]
      exact Function.update_of_ne hsn _ _

/-- What is retained of a device is one of its signals. -/
theorem mem_of_retained {p : AvailabilityObservation} (h : retained arrivals sn = some p) :
    ∃ a ∈ arrivals, a.signal.deviceSn = sn ∧ p = a.observation := by
  induction arrivals using List.reverseRecOn with
  | nil => cases h
  | append_singleton arrivals a ih =>
    rw [retained_append] at h
    split at h
    · next hnew =>
      exact ⟨a, by simp, hnew.1.symm, (Option.some.inj h).symm⟩
    · obtain ⟨b, hb, hsn, heq⟩ := ih h
      exact ⟨b, List.mem_append_left _ hb, hsn, heq⟩

theorem superseded_of_older {o p : AvailabilityObservation} (hsource : p.source = o.source)
    (h : Older o p) : superseded p o = true := by
  obtain ⟨hboth, htime, hsequence⟩ := h
  -- two times decide; where one is missing, both sequences are there and do
  cases ho : o.observedAt with
  | none =>
    cases hos : o.sequence with
    | none => simp [ho, hos] at hboth
    | some now =>
      cases hps : p.sequence with
      | none => simp [ho, hps] at hboth
      | some was => simp [superseded, ho, hos, hps, hsource, hsequence now was hos hps]
  | some now =>
    cases hp : p.observedAt with
    | none =>
      cases hos : o.sequence with
      | none => simp [hp, hos] at hboth
      | some later =>
        cases hps : p.sequence with
        | none => simp [hp, hps] at hboth
        | some was => simp [superseded, ho, hp, hos, hps, hsource, hsequence later was hos hps]
    | some was => simp [superseded, ho, hp, htime now was ho hp]

/-- **The retained observation stands against older ones.** -/
theorem retainedOrder (arrivals : List Arrival) : RetainedOrder arrivals := by
  intro before a after _ p hp holder
  obtain ⟨b, -, -, rfl⟩ := mem_of_retained hp
  have hnot : accepted before a = false := by
    rw [accepted, hp, Bool.not_eq_false']
    exact superseded_of_older rfl holder
  rw [retained_append, hnot, if_neg (by simp)]
  exact hp

/-- **A signal is announced exactly when it changes the availability.** -/
theorem announcesChanges (arrivals : List Arrival) : AnnouncesChanges arrivals := by
  intro before a after _
  rw [retained_append]
  cases haccepted : accepted before a with
  | false =>
    rw [apply_of_not_accepted haccepted, if_neg (by simp)]
    simp
  | true =>
    rw [apply_of_accepted haccepted, if_pos ⟨rfl, rfl⟩, Option.map_some, announcement]
    by_cases hsame : (retained before a.signal.deviceSn).map
        AvailabilityObservation.availability = some a.observation.availability
    · rw [if_neg (not_not.mpr hsame), hsame]
      simp
    · rw [if_pos hsame]
      simp only [true_iff, reduceCtorEq, false_iff]
      exact ⟨fun h => hsame h.symm, fun h => hsame h.symm⟩

/-! ## Runs -/

/-- Where every signal that is retained ranks at least as high as the one before it, what is
retained ranks at least as high as any signal that was. -/
theorem rank_le_retained (rank : AvailabilityObservation → ℚ) {earlier between : List Arrival}
    {p : Arrival} (hp : accepted earlier p = true)
    (hrank : ∀ b ∈ earlier ++ p :: between, ∀ a ∈ earlier ++ p :: between,
      superseded b.observation a.observation = false → rank b.observation ≤ rank a.observation) :
    ∃ q ∈ earlier ++ p :: between, q.signal.deviceSn = p.signal.deviceSn ∧
      retained (earlier ++ p :: between) p.signal.deviceSn = some q.observation ∧
      rank p.observation ≤ rank q.observation := by
  induction between using List.reverseRecOn with
  | nil =>
    refine ⟨p, by simp, rfl, ?_, le_rfl⟩
    rw [retained_append, if_pos ⟨rfl, hp⟩]
  | append_singleton between a ih =>
    have hassoc : earlier ++ p :: (between ++ [a]) = (earlier ++ p :: between) ++ [a] := by simp
    rw [hassoc] at hrank ⊢
    obtain ⟨q, hq, hsn, hretained, hle⟩ := ih fun b hb c hc =>
      hrank b (List.mem_append_left _ hb) c (List.mem_append_left _ hc)
    rw [retained_append]
    by_cases hnew : p.signal.deviceSn = a.signal.deviceSn ∧
        accepted (earlier ++ p :: between) a = true
    · obtain ⟨hdevice, haccepted⟩ := hnew
      rw [if_pos ⟨hdevice, haccepted⟩]
      refine ⟨a, by simp, hdevice.symm, rfl, hle.trans ?_⟩
      rw [accepted, ← hdevice, hretained, Bool.not_eq_true'] at haccepted
      exact hrank q (List.mem_append_left _ hq) a (by simp) haccepted
    · rw [if_neg hnew]
      exact ⟨q, List.mem_append_left _ hq, hsn, hretained, hle⟩

/-- A rank that the signals which are retained do not fall in, and that older signals fall short
of, keeps older signals out. -/
theorem acceptedOrder_of_rank (rank : AvailabilityObservation → ℚ)
    (hrank : ∀ b ∈ arrivals, ∀ a ∈ arrivals,
      superseded b.observation a.observation = false → rank b.observation ≤ rank a.observation)
    (holder : ∀ a ∈ arrivals, ∀ p ∈ arrivals, Older a.observation p.observation →
      rank a.observation < rank p.observation) : AcceptedOrder arrivals := by
  rintro before a after rfl earlier p between rfl hp hsn hold
  -- by now another signal is retained, but none of a lower rank than the one accepted
  obtain ⟨q, hq, hdevice, hretained, hle⟩ := rank_le_retained rank hp fun b hb c hc =>
    hrank b (List.mem_append_left _ hb) c (List.mem_append_left _ hc)
  have hlt : rank a.observation < rank q.observation :=
    (holder a (by simp) p (by simp) hold).trans_le hle
  have hnot : accepted (earlier ++ p :: between) a = false := by
    by_contra haccepted
    rw [Bool.not_eq_false, accepted, ← hsn, hretained, Bool.not_eq_true'] at haccepted
    exact absurd (hrank q (List.mem_append_left _ hq) a (by simp) haccepted) hlt.not_ge
  rw [retained_append, hnot, if_neg (by simp)]

/-- Where all signals are timed, or none is and all are numbered, older ones stay out for good. -/
theorem acceptedOrder_of_evidence
    (h : (∀ a ∈ arrivals, a.signal.observedAt.isSome = true) ∨
      ∀ a ∈ arrivals, a.signal.observedAt = none ∧ a.signal.sequence.isSome = true) :
    AcceptedOrder arrivals := by
  obtain htimed | hnumbered := h
  · apply acceptedOrder_of_rank fun o => o.observedAt.getD 0
    · intro b hb a ha hstays
      obtain ⟨was, hwas⟩ := Option.isSome_iff_exists.mp (htimed b hb)
      obtain ⟨now, hnow⟩ := Option.isSome_iff_exists.mp (htimed a ha)
      simp only [superseded, Arrival.observation, StateInfoSignal.observation, hwas, hnow,
        Bool.or_eq_false_iff, decide_eq_false_iff_not, not_lt] at hstays
      simpa [Arrival.observation, StateInfoSignal.observation, hwas, hnow] using hstays.1
    · rintro a ha p hp ⟨-, htime, -⟩
      obtain ⟨was, hwas⟩ := Option.isSome_iff_exists.mp (htimed p hp)
      obtain ⟨now, hnow⟩ := Option.isSome_iff_exists.mp (htimed a ha)
      have hlt := htime now was hnow hwas
      simpa [Arrival.observation, StateInfoSignal.observation, hwas, hnow] using hlt
  · apply acceptedOrder_of_rank fun o => o.sequence.getD 0
    · intro b hb a ha hstays
      obtain ⟨huntimed, hsome⟩ := hnumbered b hb
      obtain ⟨huntimed', hsome'⟩ := hnumbered a ha
      obtain ⟨was, hwas⟩ := Option.isSome_iff_exists.mp hsome
      obtain ⟨now, hnow⟩ := Option.isSome_iff_exists.mp hsome'
      simp only [superseded, Arrival.observation, StateInfoSignal.observation, huntimed, huntimed',
        hwas, hnow] at hstays
      simp at hstays
      simpa [Arrival.observation, StateInfoSignal.observation, hwas, hnow] using hstays.1
    · rintro a ha p hp ⟨-, -, hsequence⟩
      obtain ⟨was, hwas⟩ := Option.isSome_iff_exists.mp (hnumbered p hp).2
      obtain ⟨now, hnow⟩ := Option.isSome_iff_exists.mp (hnumbered a ha).2
      have hlt := hsequence now was hnow hwas
      simpa [Arrival.observation, StateInfoSignal.observation, hwas, hnow] using hlt

/-- A signal with both kinds of evidence. -/
def Dated (a : Arrival) : Prop :=
  a.signal.observedAt.isSome = true ∧ a.signal.sequence.isSome = true

/-- Among signals with both kinds of evidence, and with another place in the order, the order
decides. -/
theorem superseded_iff_key {p o : Arrival} (hp : Dated p) (ho : Dated o)
    (hne : orderKey p.observation ≠ orderKey o.observation) :
    superseded p.observation o.observation = true ↔
      orderKey o.observation < orderKey p.observation := by
  obtain ⟨was, hwas⟩ := Option.isSome_iff_exists.mp hp.1
  obtain ⟨wasSeq, hwasSeq⟩ := Option.isSome_iff_exists.mp hp.2
  obtain ⟨now, hnow⟩ := Option.isSome_iff_exists.mp ho.1
  obtain ⟨nowSeq, hnowSeq⟩ := Option.isSome_iff_exists.mp ho.2
  have hkeyO : orderKey o.observation = toLex (now, nowSeq) := by
    simp [orderKey, Arrival.observation, StateInfoSignal.observation, hnow, hnowSeq]
  have hkeyP : orderKey p.observation = toLex (was, wasSeq) := by
    simp [orderKey, Arrival.observation, StateInfoSignal.observation, hwas, hwasSeq]
  -- of one place in the order, the first to arrive would stay
  have hdistinct : ¬(now = was ∧ nowSeq = wasSeq) := by
    rintro ⟨rfl, rfl⟩
    exact hne (hkeyP.trans hkeyO.symm)
  rw [hkeyO, hkeyP, Prod.Lex.toLex_lt_toLex]
  simp only [superseded, Arrival.observation, StateInfoSignal.observation, hwas, hwasSeq, hnow,
    hnowSeq, Option.isSome_some, Bool.and_self, Bool.not_true, Bool.false_or, decide_true,
    Bool.true_and, Option.some.injEq, Bool.or_eq_true, Bool.and_eq_true, decide_eq_true_eq]
  constructor
  · rintro (htime | ⟨heq, hseq | ⟨hseq, -⟩⟩)
    · exact .inl htime
    · exact .inr ⟨heq, hseq⟩
    · exact absurd ⟨heq, hseq⟩ hdistinct
  · rintro (htime | ⟨heq, hseq⟩)
    · exact .inl htime
    · exact .inr ⟨heq, .inl hseq⟩

/-- Among signals of one device with both kinds of evidence, each in another place of the order,
what is retained is the latest one. -/
theorem retained_eq_kept (hone : ∀ a ∈ arrivals, a.signal.deviceSn = sn)
    (hdated : ∀ a ∈ arrivals, Dated a)
    (hdistinct : arrivals.Pairwise fun a b => orderKey a.observation ≠ orderKey b.observation) :
    retained arrivals sn =
      (Latest.kept (fun a => orderKey a.observation) none arrivals).map Arrival.observation := by
  induction arrivals using List.reverseRecOn with
  | nil => rfl
  | append_singleton arrivals a ih =>
    obtain ⟨hbefore, -, hlater⟩ := List.pairwise_append.mp hdistinct
    have hsn : a.signal.deviceSn = sn := hone a (by simp)
    have hkept := ih (fun b hb => hone b (List.mem_append_left _ hb))
      (fun b hb => hdated b (List.mem_append_left _ hb)) hbefore
    rw [retained_append, Latest.kept_append, Latest.kept_cons, Latest.kept_nil]
    cases hheld : Latest.kept (fun a => orderKey a.observation) none arrivals with
    | none =>
      rw [hheld] at hkept
      have haccepted : accepted arrivals a = true := by
        rw [accepted, hsn, hkept]
        rfl
      rw [haccepted, if_pos ⟨hsn.symm, rfl⟩]
      rfl
    | some p =>
      -- the latest so far is retained, so the next one is compared with it
      rw [hheld] at hkept
      have hp : p ∈ arrivals := (Latest.mem_of_kept hheld).resolve_right nofun
      have hiff := superseded_iff_key (hdated p (List.mem_append_left _ hp)) (hdated a (by simp))
        (hlater p hp a (by simp))
      rw [Latest.keep_some]
      by_cases hlt : orderKey a.observation < orderKey p.observation
      · have hnot : accepted arrivals a = false := by
          rw [accepted, hsn, hkept, Bool.not_eq_false']
          exact hiff.mpr hlt
        rw [hnot, if_neg (by simp), if_pos hlt, hkept]
      · have haccepted : accepted arrivals a = true := by
          rw [accepted, hsn, hkept, Bool.not_eq_true', ← Bool.not_eq_true]
          exact fun h => hlt (hiff.mp h)
        rw [haccepted, if_pos ⟨hsn.symm, rfl⟩, if_neg hlt]
        rfl

/-- What is retained of signals with both kinds of evidence, each in another place of the order: the
one in the last place, in whatever order they arrive. -/
def RetainsLatest (arrivals : List Arrival) : Prop :=
  ∀ sn, (∀ a ∈ arrivals, a.signal.deviceSn = sn) → (∀ a ∈ arrivals, Dated a) →
    (arrivals.Pairwise fun a b => orderKey a.observation ≠ orderKey b.observation) →
    (arrivals ≠ [] → ∃ m ∈ arrivals, retained arrivals sn = some m.observation ∧
      ∀ a ∈ arrivals, orderKey a.observation ≤ orderKey m.observation) ∧
    ∀ delivered, arrivals.Perm delivered → retained delivered sn = retained arrivals sn

theorem retainsLatest (arrivals : List Arrival) : RetainsLatest arrivals := by
  intro sn hone hdated hdistinct
  refine ⟨fun hne => ?_, fun delivered hperm => ?_⟩
  · have hsome : Latest.kept (fun a => orderKey a.observation) none arrivals ≠ none :=
      fun hnone => hne (Latest.kept_eq_none.mp hnone).2
    obtain ⟨m, hm⟩ := Option.ne_none_iff_exists'.mp hsome
    refine ⟨m, (Latest.mem_of_kept hm).resolve_right nofun, ?_, (Latest.le_kept hm).1⟩
    rw [retained_eq_kept hone hdated hdistinct, hm]
    rfl
  · have hdistinct' : delivered.Pairwise fun a b =>
        orderKey a.observation ≠ orderKey b.observation :=
      hdistinct.perm hperm fun h => h.symm
    rw [retained_eq_kept hone hdated hdistinct,
      retained_eq_kept (fun a ha => hone a (hperm.mem_iff.mpr ha))
        (fun a ha => hdated a (hperm.mem_iff.mpr ha)) hdistinct',
      Latest.kept_perm hperm hdistinct]

/-- **Availability follows the vendor's order**, as far as the evidence that is retained goes. -/
theorem availability_follows (arrivals : List Arrival) :
    RetainedOrder arrivals ∧
      ((∀ a ∈ arrivals, a.signal.observedAt.isSome = true) ∨
        (∀ a ∈ arrivals, a.signal.observedAt = none ∧ a.signal.sequence.isSome = true) →
          AcceptedOrder arrivals) ∧
      RetainsLatest arrivals ∧ AnnouncesChanges arrivals :=
  ⟨retainedOrder arrivals, acceptedOrder_of_evidence, retainsLatest arrivals,
    announcesChanges arrivals⟩

/-- A light comes up, says so again without any evidence, and an older message arrives late. -/
def lostEvidence : List Arrival :=
  [⟨⟨"light", true, some 100, some 5⟩, 1⟩, ⟨⟨"light", true, none, none⟩, 2⟩,
    ⟨⟨"light", false, some 50, some 3⟩, 3⟩]

/-- The evidence went with the observation in between. -/
theorem lostEvidence_not_acceptedOrder :
    ¬AcceptedOrder lostEvidence ∧
      (retained lostEvidence "light").map AvailabilityObservation.availability =
        some .unavailable := by
  refine ⟨fun h => ?_, by decide +kernel⟩
  have holder : Older (Arrival.observation ⟨⟨"light", false, some 50, some 3⟩, 3⟩)
      (Arrival.observation ⟨⟨"light", true, some 100, some 5⟩, 1⟩) := by
    refine ⟨.inl ⟨rfl, rfl⟩, ?_, ?_⟩
    · rintro now before ⟨⟩ ⟨⟩
      norm_num
    · rintro now before ⟨⟩ ⟨⟩
      norm_num
  have hstays := h [⟨⟨"light", true, some 100, some 5⟩, 1⟩, ⟨⟨"light", true, none, none⟩, 2⟩] _ []
    rfl [] ⟨⟨"light", true, some 100, some 5⟩, 1⟩ [⟨⟨"light", true, none, none⟩, 2⟩] rfl rfl rfl
    holder
  exact absurd hstays (by decide +kernel)

end EufySdk.Availability
