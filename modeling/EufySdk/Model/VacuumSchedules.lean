import Mathlib.Tactic
import EufySdk.Core.Numbers
import EufySdk.Model.DeviceMessage
import EufySdk.Model.VacuumMap

/-!
# Schedules of a vacuum

`model/vacuum-schedules.ts`: a report of the timers a robot holds. What a timer runs is told by the
branch of its action that is there, and the rooms of a clean are in one of two places, by the
generation of the robot.

- `decodeVacuumSchedules` and its counts
- `Timer`, `timerResponse` — a timer as the robot holds it, and the report it sends
- `decodeVacuumSchedules_response` — every timer is read as it is held
-/

namespace EufySdk.VacuumSchedules

open Bytes ProtoRead

inductive VacuumScheduleAction
  | autoClean
  | roomsClean
  | cruise
  | sceneClean
  deriving DecidableEq, Repr

def VACUUM_SCHEDULE_ACTIONS : List VacuumScheduleAction :=
  [.autoClean, .roomsClean, .cruise, .sceneClean]

inductive VacuumScheduleWeekday
  | sunday
  | monday
  | tuesday
  | wednesday
  | thursday
  | friday
  | saturday
  deriving DecidableEq, Repr

def VACUUM_SCHEDULE_WEEKDAYS : List VacuumScheduleWeekday :=
  [.sunday, .monday, .tuesday, .wednesday, .thursday, .friday, .saturday]

/-- What a timer runs, with the target of its branch. -/
structure Run where
  action : VacuumScheduleAction
  mapId : Option ℤ := none
  roomIds : Option (List ℤ) := none
  sceneId : Option ℤ := none
  sceneName : Option String := none
  deriving DecidableEq, Repr

structure VacuumSchedule extends Run where
  id : ℤ
  enabled : Bool
  valid : Bool
  repeats : Bool
  hour : ℤ
  minute : ℤ
  weekdays : List VacuumScheduleWeekday
  utcOffsetSeconds : ℤ
  daylightSaving : Bool
  deriving DecidableEq, Repr

/-! ### Field numbers -/

def RESPONSE_FIELD_TIMERS : ℕ := 4

namespace TIMER_FIELD

def ID : ℕ := 1
def STATUS : ℕ := 2
def DESC : ℕ := 3
def ACTION : ℕ := 5

end TIMER_FIELD

def ID_FIELD_VALUE : ℕ := 1

namespace STATUS_FIELD

def VALID : ℕ := 1
def OPENED : ℕ := 2

end STATUS_FIELD

namespace DESC_FIELD

def TRIGGER : ℕ := 1
def TIMING : ℕ := 2
def CYCLE : ℕ := 3

end DESC_FIELD

namespace TIMING_FIELD

def USER_TZ : ℕ := 1
def SUMMER : ℕ := 2
def HOURS : ℕ := 3
def MINUTES : ℕ := 4

end TIMING_FIELD

def CYCLE_FIELD_WEEK_BITS : ℕ := 1

namespace ACTION_FIELD

def TYPE : ℕ := 1
def ROOMS_CLEAN : ℕ := 4
def CRUISE : ℕ := 5
def SCENE_CLEAN : ℕ := 6

end ACTION_FIELD

namespace ROOMS_CLEAN_FIELD

def GENERAL : ℕ := 2
def CUSTOM : ℕ := 3

end ROOMS_CLEAN_FIELD

namespace ROOMS_GENERAL_FIELD

def MAP_ID : ℕ := 1
def ROOMS : ℕ := 6

end ROOMS_GENERAL_FIELD

namespace ROOMS_CUSTOM_FIELD

def MAP_ID : ℕ := 1
def ROOMS : ℕ := 3

end ROOMS_CUSTOM_FIELD

def ROOM_FIELD_ID : ℕ := 1

def CRUISE_FIELD_MAP_ID : ℕ := 1

namespace SCENE_FIELD

def SCENE_ID : ℕ := 1
def SCENE_NAME : ℕ := 2

end SCENE_FIELD

def TRIGGER_CYCLE : ℤ := 1

/-! ### Decoders -/

/-- The days a mask names, of the 32 bits it has as an operand. -/
def weekdaysOf (bits : ℤ) : List VacuumScheduleWeekday :=
  (VACUUM_SCHEDULE_WEEKDAYS.zipIdx.filter fun d => toInt32 bits / 2 ^ d.2 % 2 = 1).map Prod.fst

section Decoders

variable (codec : RawDpCodec) (toText : Buffer → String)

def roomsOf (rooms : Option (List RawDpField)) (field : ℕ) : List ℤ :=
  (each codec rooms field).map fun room => int (some room) ROOM_FIELD_ID

def actionOf (timer : Option (List RawDpField)) : Run :=
  let action := sub codec timer TIMER_FIELD.ACTION
  match sub codec action ACTION_FIELD.ROOMS_CLEAN with
  | some rooms =>
    match sub codec (some rooms) ROOMS_CLEAN_FIELD.CUSTOM with
    | some custom =>
      { action := .roomsClean
        mapId := some (int (some custom) ROOMS_CUSTOM_FIELD.MAP_ID)
        roomIds := some (roomsOf codec (some custom) ROOMS_CUSTOM_FIELD.ROOMS) }
    | none =>
      let general := sub codec (some rooms) ROOMS_CLEAN_FIELD.GENERAL
      { action := .roomsClean
        mapId := some (int general ROOMS_GENERAL_FIELD.MAP_ID)
        roomIds := some (roomsOf codec general ROOMS_GENERAL_FIELD.ROOMS) }
  | none =>
    match sub codec action ACTION_FIELD.CRUISE with
    | some cruise =>
      { action := .cruise, mapId := some (int (some cruise) CRUISE_FIELD_MAP_ID) }
    | none =>
      match sub codec action ACTION_FIELD.SCENE_CLEAN with
      | some scene =>
        { action := .sceneClean
          sceneId := some (int (some scene) SCENE_FIELD.SCENE_ID)
          sceneName := ProtoRead.text (some scene) SCENE_FIELD.SCENE_NAME toText }
      | none =>
        { action :=
            (elemAt VACUUM_SCHEDULE_ACTIONS (int action ACTION_FIELD.TYPE)).getD .autoClean }

def scheduleOf (timer : List RawDpField) : VacuumSchedule :=
  let status := sub codec (some timer) TIMER_FIELD.STATUS
  let desc := sub codec (some timer) TIMER_FIELD.DESC
  let timing := sub codec desc DESC_FIELD.TIMING
  let repeats : Bool := int desc DESC_FIELD.TRIGGER = TRIGGER_CYCLE
  { actionOf codec toText (some timer) with
    id := int (sub codec (some timer) TIMER_FIELD.ID) ID_FIELD_VALUE
    enabled := flag status STATUS_FIELD.OPENED
    valid := flag status STATUS_FIELD.VALID
    repeats
    hour := int timing TIMING_FIELD.HOURS
    minute := int timing TIMING_FIELD.MINUTES
    weekdays :=
      if repeats then weekdaysOf (int (sub codec desc DESC_FIELD.CYCLE) CYCLE_FIELD_WEEK_BITS)
      else []
    utcOffsetSeconds := int timing TIMING_FIELD.USER_TZ
    daylightSaving := flag timing TIMING_FIELD.SUMMER }

def decodeVacuumSchedules (raw : String) : Option (List VacuumSchedule) := do
  let report ← codec.decode raw
  return (each codec (some report) RESPONSE_FIELD_TIMERS).map (scheduleOf codec toText)

def decodeVacuumScheduleCount (raw : String) : Option ℕ :=
  (decodeVacuumSchedules codec toText raw).map List.length

/-- The schedules that are switched on and still usable. -/
def decodeActiveVacuumScheduleCount (raw : String) : Option ℕ :=
  (decodeVacuumSchedules codec toText raw).map fun schedules =>
    (schedules.filter fun s => s.enabled && s.valid).length

end Decoders

/-! ## Timers -/

/-- Where a robot puts the rooms of a clean. -/
inductive Generation
  | general
  | custom
  deriving DecidableEq, Repr

/-- What a timer runs. An auto-clean has a branch of its own, which is there or is not. -/
inductive TimerAction
  | autoClean (branch : Bool)
  | roomsClean (generation : Generation) (mapId : ℤ) (rooms : List ℤ)
  | cruise (mapId : ℤ)
  | sceneClean (sceneId : ℤ) (sceneName : Buffer)

/-- A timer as the robot holds it. The days of a timer that fires once are kept, and mean nothing. -/
structure Timer where
  id : ℤ
  opened : Bool
  valid : Bool
  cycle : Bool
  days : VacuumScheduleWeekday → Bool
  userTz : ℤ
  summer : Bool
  hours : ℤ
  minutes : ℤ
  action : TimerAction

def weekBits (days : VacuumScheduleWeekday → Bool) : ℕ :=
  (VACUUM_SCHEDULE_WEEKDAYS.zipIdx.map fun d => if days d.1 then 2 ^ d.2 else 0).sum

namespace TimerAction

def roomMessage (id : ℤ) : DeviceMessage where
  once := [.int ROOM_FIELD_ID id]

/-- The rooms of a clean, under the number their generation has for them. -/
def roomsMessage (field : ℕ) (hfield : field ≠ 1) (mapId : ℤ) (rooms : List ℤ) : DeviceMessage where
  once := [.int 1 mapId]
  repeats := rooms.map fun id => ((field : ℤ), (roomMessage id).fields)
  apart r hr hnumber := by
    obtain ⟨id, -, rfl⟩ := List.mem_map.mp hr
    exact hfield (Int.ofNat.inj (List.mem_singleton.mp hnumber))

def generationMessage (mapId : ℤ) (rooms : List ℤ) : Generation → DeviceMessage
  | .general =>
    { once := [.sub ROOMS_CLEAN_FIELD.GENERAL
          (roomsMessage ROOMS_GENERAL_FIELD.ROOMS (by decide) mapId rooms).fields] }
  | .custom =>
    { once := [.sub ROOMS_CLEAN_FIELD.CUSTOM
        (roomsMessage ROOMS_CUSTOM_FIELD.ROOMS (by decide) mapId rooms).fields] }

def cruiseMessage (mapId : ℤ) : DeviceMessage where
  once := [.int CRUISE_FIELD_MAP_ID mapId]

def sceneMessage (sceneId : ℤ) (sceneName : Buffer) : DeviceMessage where
  once := [.int SCENE_FIELD.SCENE_ID sceneId, .bytes SCENE_FIELD.SCENE_NAME sceneName]

def message : TimerAction → DeviceMessage
  | autoClean false => { once := [.int ACTION_FIELD.TYPE 0] }
  | autoClean true => { once := [.int ACTION_FIELD.TYPE 0, .sub 3 []] }
  | roomsClean generation mapId rooms =>
    { once := [.int ACTION_FIELD.TYPE 1,
        .sub ACTION_FIELD.ROOMS_CLEAN (generationMessage mapId rooms generation).fields] }
  | cruise mapId =>
    { once := [.int ACTION_FIELD.TYPE 2, .sub ACTION_FIELD.CRUISE (cruiseMessage mapId).fields] }
  | sceneClean sceneId sceneName =>
    { once := [.int ACTION_FIELD.TYPE 3,
        .sub ACTION_FIELD.SCENE_CLEAN (sceneMessage sceneId sceneName).fields] }

/-- What is to be read of it. -/
def run (toText : Buffer → String) : TimerAction → Run
  | autoClean _ => { action := .autoClean }
  | roomsClean _ mapId rooms => { action := .roomsClean, mapId := some mapId, roomIds := some rooms }
  | cruise mapId => { action := .cruise, mapId := some mapId }
  | sceneClean sceneId sceneName =>
    { action := .sceneClean
      sceneId := some sceneId
      sceneName := if sceneName = [] then none else some (toText sceneName) }

end TimerAction

namespace Timer

variable (t : Timer)

def idMessage : DeviceMessage where
  once := [.int ID_FIELD_VALUE t.id]

def statusMessage : DeviceMessage where
  once := [.bool STATUS_FIELD.VALID t.valid, .bool STATUS_FIELD.OPENED t.opened]

def timingMessage : DeviceMessage where
  once := [.int TIMING_FIELD.USER_TZ t.userTz, .bool TIMING_FIELD.SUMMER t.summer,
    .int TIMING_FIELD.HOURS t.hours, .int TIMING_FIELD.MINUTES t.minutes]

def cycleMessage : DeviceMessage where
  once := [.int CYCLE_FIELD_WEEK_BITS (weekBits t.days)]

def descMessage : DeviceMessage where
  once := [.int DESC_FIELD.TRIGGER (if t.cycle then 1 else 0),
    .sub DESC_FIELD.TIMING t.timingMessage.fields, .sub DESC_FIELD.CYCLE t.cycleMessage.fields]

def message : DeviceMessage where
  once := [.sub TIMER_FIELD.ID t.idMessage.fields, .sub TIMER_FIELD.STATUS t.statusMessage.fields,
    .sub TIMER_FIELD.DESC t.descMessage.fields, .sub TIMER_FIELD.ACTION t.action.message.fields]

/-- What is to be read of it. -/
def schedule (toText : Buffer → String) : VacuumSchedule :=
  { t.action.run toText with
    id := t.id
    enabled := t.opened
    valid := t.valid
    repeats := t.cycle
    hour := t.hours
    minute := t.minutes
    weekdays := if t.cycle then VACUUM_SCHEDULE_WEEKDAYS.filter t.days else []
    utcOffsetSeconds := t.userTz
    daylightSaving := t.summer }

end Timer

theorem responseTimers_apart : (RESPONSE_FIELD_TIMERS : ℤ) ∉ [(1 : ℤ), 2, 3] := by decide

/-- The report of a robot's timers, to the request it answers. -/
def timerResponse (method seq result : ℤ) (timers : List Timer) : DeviceMessage where
  once := [.int 1 method, .int 2 seq, .int 3 result]
  repeats := timers.map fun t => ((RESPONSE_FIELD_TIMERS : ℤ), t.message.fields)
  distinct := distinct_answer method seq result
  apart r hr := by
    obtain ⟨t, -, rfl⟩ := List.mem_map.mp hr
    exact responseTimers_apart

/-! ### Reading -/

variable {reader : WireReader} (toText : Buffer → String)

/-- A mask below 2^31 keeps its bits, and the bits are the days. -/
theorem weekdaysOf_weekBits (days : VacuumScheduleWeekday → Bool) :
    weekdaysOf (weekBits days) = VACUUM_SCHEDULE_WEEKDAYS.filter days := by
  have hall : ∀ sun mon tue wed thu fri sat : Bool,
      let days : VacuumScheduleWeekday → Bool := fun
        | .sunday => sun
        | .monday => mon
        | .tuesday => tue
        | .wednesday => wed
        | .thursday => thu
        | .friday => fri
        | .saturday => sat
      weekdaysOf (weekBits days) = VACUUM_SCHEDULE_WEEKDAYS.filter days := by
    decide
  have hdays : days = fun
      | .sunday => days .sunday
      | .monday => days .monday
      | .tuesday => days .tuesday
      | .wednesday => days .wednesday
      | .thursday => days .thursday
      | .friday => days .friday
      | .saturday => days .saturday := by
    funext day
    cases day <;> rfl
  rw [hdays]
  exact hall _ _ _ _ _ _ _

namespace TimerAction

theorem roomsOf_roomsMessage (hreader : reader.Lawful) {field : ℕ} (hfield : field ≠ 1) {mapId : ℤ} {rooms : List ℤ}
    (h : (roomsMessage field hfield mapId rooms).Sendable) :
    roomsOf (rawDpCodec reader) (some (roomsMessage field hfield mapId rooms).read) field =
      rooms := by
  have honce : (field : ℤ) ∉ (roomsMessage field hfield mapId rooms).once.map Field.number := by
    intro hmem
    exact hfield (Int.ofNat.inj (List.mem_singleton.mp hmem))
  rw [roomsOf, DeviceMessage.each_of_under hreader h honce (DeviceMessage.under_map_self rooms _ _),
    List.map_map]
  refine (List.map_congr_left fun id hid => ?_).trans (List.map_id rooms)
  exact DeviceMessage.int_of_once (h.repeated (List.mem_map_of_mem hid)) List.mem_cons_self

/-- The branch that is there tells what a timer runs. -/
theorem actionOf_message (hreader : reader.Lawful) {timer : List RawDpField} (a : TimerAction)
    (h : a.message.Sendable)
    (hsub : sub (rawDpCodec reader) (some timer) TIMER_FIELD.ACTION = some a.message.read) :
    actionOf (rawDpCodec reader) toText (some timer) = a.run toText := by
  rw [actionOf, hsub]
  cases a with
  | autoClean branch =>
    have habsent (field : ℕ) (hne : (field : ℤ) ≠ 1 ∧ (field : ℤ) ≠ 3) :
        sub (rawDpCodec reader) (some (autoClean branch).message.read) field = none := by
      cases branch
      · exact DeviceMessage.sub_of_absent h (fun hmem => hne.1 (List.mem_singleton.mp hmem))
          List.not_mem_nil
      · exact DeviceMessage.sub_of_absent h
          (fun hmem => (List.mem_pair.mp hmem).elim hne.1 hne.2) List.not_mem_nil
    have htype : int (some (autoClean branch).message.read) ACTION_FIELD.TYPE = 0 := by
      cases branch <;> exact DeviceMessage.int_of_once h List.mem_cons_self
    rw [habsent _ (by decide), habsent _ (by decide), habsent _ (by decide), htype]
    rfl
  | roomsClean generation mapId rooms =>
    have hrooms : .sub ACTION_FIELD.ROOMS_CLEAN (generationMessage mapId rooms generation).fields ∈
        (roomsClean generation mapId rooms).message.once := List.mem_cons_of_mem _ List.mem_cons_self
    have hbranch := h.sub hrooms
    rw [DeviceMessage.sub_of_once hreader h hrooms]
    cases generation with
    | general =>
      have habsent : sub (rawDpCodec reader) (some (generationMessage mapId rooms .general).read)
          ROOMS_CLEAN_FIELD.CUSTOM = none :=
        DeviceMessage.sub_of_absent hbranch (by exact (by decide : (3 : ℤ) ∉ [2]))
          List.not_mem_nil
      have hinner := hbranch.sub List.mem_cons_self
      have hsub := DeviceMessage.sub_of_once hreader hbranch List.mem_cons_self
      have hmap := DeviceMessage.int_of_once hinner List.mem_cons_self
      dsimp only
      rw [habsent]
      dsimp only
      rw [hsub, roomsOf_roomsMessage hreader (by decide) hinner]
      exact congrArg (fun id => Run.mk _ (some id) _ _ _) hmap
    | custom =>
      have hinner := hbranch.sub List.mem_cons_self
      have hsub := DeviceMessage.sub_of_once hreader hbranch List.mem_cons_self
      have hmap := DeviceMessage.int_of_once hinner List.mem_cons_self
      dsimp only
      rw [hsub]
      dsimp only
      rw [roomsOf_roomsMessage hreader (by decide) hinner]
      exact congrArg (fun id => Run.mk _ (some id) _ _ _) hmap
  | cruise mapId =>
    have hcruise : .sub ACTION_FIELD.CRUISE (cruiseMessage mapId).fields ∈
        (cruise mapId).message.once := List.mem_cons_of_mem _ List.mem_cons_self
    rw [DeviceMessage.sub_of_absent h (by exact (by decide : (4 : ℤ) ∉ [(1 : ℤ), 5]))
        List.not_mem_nil, DeviceMessage.sub_of_once hreader h hcruise]
    dsimp only
    rw [DeviceMessage.int_of_once (h.sub hcruise) List.mem_cons_self]
    rfl
  | sceneClean sceneId sceneName =>
    have hscene : .sub ACTION_FIELD.SCENE_CLEAN (sceneMessage sceneId sceneName).fields ∈
        (sceneClean sceneId sceneName).message.once := List.mem_cons_of_mem _ List.mem_cons_self
    have hname := DeviceMessage.bytes_of_once (h.sub hscene)
      (List.mem_cons_of_mem _ List.mem_cons_self)
    rw [DeviceMessage.sub_of_absent h (by exact (by decide : (4 : ℤ) ∉ [(1 : ℤ), 6]))
        List.not_mem_nil,
      DeviceMessage.sub_of_absent h (by exact (by decide : (5 : ℤ) ∉ [(1 : ℤ), 6]))
        List.not_mem_nil, DeviceMessage.sub_of_once hreader h hscene]
    dsimp only
    rw [DeviceMessage.int_of_once (h.sub hscene) List.mem_cons_self, ProtoRead.text, hname, run]
    split_ifs <;> rfl

end TimerAction

theorem scheduleOf_message (hreader : reader.Lawful) (t : Timer) (h : t.message.Sendable) :
    scheduleOf (rawDpCodec reader) toText t.message.read = t.schedule toText := by
  have hid : .sub TIMER_FIELD.ID t.idMessage.fields ∈ t.message.once := List.mem_cons_self
  have hstatus : .sub TIMER_FIELD.STATUS t.statusMessage.fields ∈ t.message.once :=
    List.mem_cons_of_mem _ List.mem_cons_self
  have hdesc : .sub TIMER_FIELD.DESC t.descMessage.fields ∈ t.message.once :=
    List.mem_cons_of_mem _ (List.mem_cons_of_mem _ List.mem_cons_self)
  have haction : .sub TIMER_FIELD.ACTION t.action.message.fields ∈ t.message.once := by
    simp [Timer.message]
  have htiming : .sub DESC_FIELD.TIMING t.timingMessage.fields ∈ t.descMessage.once := by
    simp [Timer.descMessage]
  have hcycle : .sub DESC_FIELD.CYCLE t.cycleMessage.fields ∈ t.descMessage.once := by
    simp [Timer.descMessage]
  have hrepeats : int (some t.descMessage.read) DESC_FIELD.TRIGGER = if t.cycle then 1 else 0 :=
    DeviceMessage.int_of_once (h.sub hdesc) List.mem_cons_self
  have hbits := DeviceMessage.int_of_once ((h.sub hdesc).sub hcycle) List.mem_cons_self
  have hsent := (h.sub hdesc).sub htiming
  have htz : int (some t.timingMessage.read) TIMING_FIELD.USER_TZ = t.userTz :=
    DeviceMessage.int_of_once hsent List.mem_cons_self
  have hsummer : flag (some t.timingMessage.read) TIMING_FIELD.SUMMER = t.summer :=
    DeviceMessage.flag_of_once hsent (List.mem_cons_of_mem _ List.mem_cons_self)
  have hhours : int (some t.timingMessage.read) TIMING_FIELD.HOURS = t.hours :=
    DeviceMessage.int_of_once hsent (by simp [Timer.timingMessage])
  have hminutes : int (some t.timingMessage.read) TIMING_FIELD.MINUTES = t.minutes :=
    DeviceMessage.int_of_once hsent (by simp [Timer.timingMessage])
  have hvalid : flag (some t.statusMessage.read) STATUS_FIELD.VALID = t.valid :=
    DeviceMessage.flag_of_once (h.sub hstatus) List.mem_cons_self
  have hopened : flag (some t.statusMessage.read) STATUS_FIELD.OPENED = t.opened :=
    DeviceMessage.flag_of_once (h.sub hstatus) (List.mem_cons_of_mem _ List.mem_cons_self)
  have hvalue : int (some t.idMessage.read) ID_FIELD_VALUE = t.id :=
    DeviceMessage.int_of_once (h.sub hid) List.mem_cons_self
  have hcycles : (decide ((if t.cycle then (1 : ℤ) else 0) = TRIGGER_CYCLE)) = t.cycle := by
    cases t.cycle <;> rfl
  rw [scheduleOf, DeviceMessage.sub_of_once hreader h hid, DeviceMessage.sub_of_once hreader h hdesc,
    DeviceMessage.sub_of_once hreader h hstatus,
    TimerAction.actionOf_message toText hreader t.action (h.sub haction)
      (DeviceMessage.sub_of_once hreader h haction),
    DeviceMessage.sub_of_once hreader (h.sub hdesc) htiming,
    DeviceMessage.sub_of_once hreader (h.sub hdesc) hcycle, hrepeats, hbits, htz, hsummer, hhours,
    hminutes, hvalid, hopened, hvalue, hcycles, weekdaysOf_weekBits]
  rfl

/-- **Every timer of a report is read as the robot holds it**, in order, whatever of it is zero;
and so are its days, its rooms of either generation, and the counts. -/
theorem decodeVacuumSchedules_response (hreader : reader.Lawful) (method seq result : ℤ)
    (timers : List Timer) (h : (timerResponse method seq result timers).Sendable) :
    let raw := String.ofList (text (timerResponse method seq result timers).fields)
    decodeVacuumSchedules (rawDpCodec reader) toText raw =
        some (timers.map fun t => t.schedule toText) ∧
      decodeVacuumScheduleCount (rawDpCodec reader) toText raw = some timers.length ∧
      decodeActiveVacuumScheduleCount (rawDpCodec reader) toText raw =
        some (timers.filter fun t => t.opened && t.valid).length := by
  have hdecode : decodeVacuumSchedules (rawDpCodec reader) toText
      (String.ofList (text (timerResponse method seq result timers).fields)) =
        some (timers.map fun t => t.schedule toText) := by
    rw [decodeVacuumSchedules, DeviceMessage.decode_fields hreader h]
    dsimp only [bind, Option.bind, pure]
    rw [DeviceMessage.each_of_under hreader h (by exact (by decide : (4 : ℤ) ∉ [(1 : ℤ), 2, 3]))
      (DeviceMessage.under_map_self timers _ _), List.map_map]
    refine congrArg some (List.map_congr_left fun t ht => ?_)
    exact scheduleOf_message toText hreader t (h.repeated (List.mem_map_of_mem ht))
  dsimp only
  refine ⟨hdecode, ?_, ?_⟩
  · rw [decodeVacuumScheduleCount, hdecode, Option.map_some, List.length_map]
  · rw [decodeActiveVacuumScheduleCount, hdecode, Option.map_some, List.filter_map,
      List.length_map]
    rfl

/-- A weekly timer that cleans rooms 3 and 1 of map 2 on Sundays and Saturdays at 0:30, and one
that is switched off, runs once, and lost its scene's name. -/
def heldTimers : List Timer :=
  [{ id := 1, opened := true, valid := true, cycle := true,
     days := fun d => d = .sunday || d = .saturday, userTz := 7200, summer := true, hours := 0,
     minutes := 30, action := .roomsClean .general 2 [3, 1] },
    { id := 2, opened := false, valid := true, cycle := false, days := fun _ => true, userTz := 0,
      summer := false, hours := 9, minutes := 0, action := .sceneClean 5 [] }]

theorem decodeVacuumSchedules_heldTimers :
    let raw := String.ofList (text (timerResponse 0 4 0 heldTimers).fields)
    decodeVacuumSchedules (rawDpCodec wireFormat) (fun _ => "") raw =
        some (heldTimers.map fun t => t.schedule fun _ => "") ∧
      decodeVacuumScheduleCount (rawDpCodec wireFormat) (fun _ => "") raw = some 2 ∧
      decodeActiveVacuumScheduleCount (rawDpCodec wireFormat) (fun _ => "") raw = some 1 :=
  decodeVacuumSchedules_response (fun _ => "") lawful_wireFormat 0 4 0 heldTimers (by decide)

end EufySdk.VacuumSchedules
