import Mathlib.Tactic
import EufySdk.Core.Thrown
import EufySdk.Lib.OrderedMap

/-!
# The stored-image cache

`transport/stored-image-cache.ts`: thumbnails of push notifications are downloaded as they are
observed, two at a time and one per device, and read later without network work. A step is an
observed URL, the end of a download with what its callback does, or a `clear`.

- `DeviceState`, `Cache` — the fields of the cache, with the downloads under way
- `pump`, `complete` — starting downloads, and what the end of one does
- `step` — what can happen
-/

namespace EufySdk.StoredImages

open Bytes

def MAX_JPEG_BYTES : ℕ := 10 * 1024 * 1024

def DIAGNOSTIC_INTERVAL_MS : ℤ := 60000

inductive StoredSnapshotUnavailableReason
  | notObserved
  | pending
  | downloadFailed
  | invalidImage
  deriving DecidableEq, Repr

/-- The candidates of a device in one generation differ in their sequence, so that two of them
are the same object where they are equal. -/
structure Candidate where
  deviceKey : String
  url : String
  sequence : ℕ
  observedAt : ℤ
  generation : ℕ
  deriving DecidableEq, Repr

structure Retained where
  sequence : ℕ
  image : Buffer
  deriving DecidableEq, Repr

structure DeviceState (ε : Type) where
  deviceKey : String
  nextSequence : ℕ := 0
  seenUrls : List String := []
  loggedFailures : List (StoredSnapshotUnavailableReason × ℤ) := []
  queued : Option Candidate := none
  inFlight : Option Candidate := none
  retained : Option Retained := none
  reason : Option StoredSnapshotUnavailableReason := none
  lifecycleError : Option ε := none

/-- A warning `diagnose` logs. -/
structure Diagnostic where
  failure : StoredSnapshotUnavailableReason
  observedAt : ℤ
  retained : Bool
  deriving DecidableEq, Repr

inductive Event
  | cleared
  | began (candidate : Candidate)
  | stored (candidate : Candidate) (image : Buffer)
  deriving DecidableEq, Repr

structure Cache (ε : Type) where
  devices : List (String × DeviceState ε) := []
  activeDevices : List String := []
  activeDownloads : ℕ := 0
  generation : ℕ := 0
  /-- The downloads under way. -/
  downloads : List Candidate := []
  diagnostics : List Diagnostic := []
  /-- What has happened, newest first. -/
  log : List Event := []

/-- How a download ends: with an image, or with the value it is rejected with, if it has one. -/
inductive Download (ε : Type)
  | image (image : Buffer)
  | rejected (error : Option ε)

/-- What `snapshotStored` settles with. -/
inductive Snapshot (ε : Type)
  | image (image : Buffer)
  | lifecycleError (error : ε)
  | unavailable (reason : StoredSnapshotUnavailableReason)

def isValidJpeg (image : Buffer) : Bool :=
  0 < image.length && image.length ≤ MAX_JPEG_BYTES && 5 ≤ image.length &&
    image[0]? = some 0xff && image[1]? = some 0xd8 && image[2]? = some 0xff &&
    image[image.length - 2]? = some 0xff && image[image.length - 1]? = some 0xd9

variable {ε : Type}

namespace DeviceState

/-- `diagnose`: each failure of a device is logged once a minute. -/
def diagnose (state : DeviceState ε) (candidate : Candidate)
    (failure : StoredSnapshotUnavailableReason) (now : ℤ) : DeviceState ε × List Diagnostic :=
  if (OrderedMap.get state.loggedFailures failure).any
      fun last => now - last < DIAGNOSTIC_INTERVAL_MS then (state, [])
  else
    ({ state with loggedFailures := OrderedMap.set state.loggedFailures failure now },
      [{ failure, observedAt := candidate.observedAt, retained := state.retained.isSome }])

/-- A download that did not give an image the cache can keep. -/
def fail (state : DeviceState ε) (candidate : Candidate)
    (failure : StoredSnapshotUnavailableReason) (now : ℤ) : DeviceState ε × List Diagnostic :=
  { state with lifecycleError := none, reason := some failure }.diagnose candidate failure now

/-- The branches of `complete` for a candidate that is still the one in flight. -/
def settle (isLifecycleError : ε → Bool) (state : DeviceState ε) (candidate : Candidate)
    (now : ℤ) : Download ε → DeviceState ε × List Diagnostic
  | .rejected none => state.fail candidate .downloadFailed now
  | .rejected (some error) =>
    if isLifecycleError error then
      ({ state with lifecycleError := some error, reason := none }, [])
    else state.fail candidate .downloadFailed now
  | .image image =>
    if !isValidJpeg image then state.fail candidate .invalidImage now
    else if state.retained.all fun retained => retained.sequence < candidate.sequence then
      ({ state with
        retained := some { sequence := candidate.sequence, image }
        lifecycleError := none
        reason := none }, [])
    else (state, [])

end DeviceState

namespace Cache

/-- The device whose download starts next. -/
def next (s : Cache ε) : Option (Candidate × DeviceState ε) :=
  s.devices.findSome? fun entry =>
    match entry.2.queued with
    | some candidate =>
      if entry.2.deviceKey ∈ s.activeDevices then none else some (candidate, entry.2)
    | none => none

def start (s : Cache ε) (candidate : Candidate) (state : DeviceState ε) : Cache ε :=
  { s with
    devices := OrderedMap.set s.devices state.deviceKey
      { state with queued := none, inFlight := some candidate }
    activeDownloads := s.activeDownloads + 1
    activeDevices := s.activeDevices.insert candidate.deviceKey
    downloads := s.downloads ++ [candidate]
    log := .began candidate :: s.log }

/-- The loop of `pump`, while that many slots are free. -/
def fill : ℕ → Cache ε → Cache ε
  | 0, s => s
  | slots + 1, s =>
    match s.next with
    | some (candidate, state) => fill slots (s.start candidate state)
    | none => s

def pump (s : Cache ε) : Cache ε := fill (2 - s.activeDownloads) s

def observe (s : Cache ε) (deviceKey url : String) (now : ℤ) : Cache ε :=
  let state := (OrderedMap.get s.devices deviceKey).getD { deviceKey }
  if url ∈ state.seenUrls then s
  else
    let candidate : Candidate :=
      { deviceKey, url, sequence := state.nextSequence + 1, observedAt := now,
        generation := s.generation }
    { s with
      devices := OrderedMap.set s.devices deviceKey
        { state with
          seenUrls := state.seenUrls ++ [url]
          nextSequence := state.nextSequence + 1
          queued := some candidate } }.pump

def snapshotStored (s : Cache ε) (deviceKey : String) : Snapshot ε :=
  match OrderedMap.get s.devices deviceKey with
  | none => .unavailable .notObserved
  | some state =>
    let reason := if state.queued.isSome || state.inFlight.isSome then .pending
      else state.reason.getD .notObserved
    match (if reason ≠ .pending then state.lifecycleError else none), state.retained with
    | some error, _ => .lifecycleError error
    | none, some retained => .image retained.image
    | none, none => .unavailable reason

def clear (s : Cache ε) : Cache ε :=
  { s with generation := s.generation + 1, devices := [], log := .cleared :: s.log }

/-- What `complete` stores, if it stores anything. -/
def storedBy (candidate : Candidate) (before : Option Retained) : Option Retained → List Event
  | some retained => if before = some retained then [] else [.stored candidate retained.image]
  | none => []

/-- `complete`, up to its `pump`: a candidate that a clear or a later start has left behind
changes no device. -/
def completed (isLifecycleError : ε → Bool) (s : Cache ε) (candidate : Candidate)
    (download : Download ε) (now : ℤ) : Cache ε :=
  match OrderedMap.get s.devices candidate.deviceKey with
  | none => s
  | some state =>
    if candidate.generation = s.generation ∧ state.inFlight = some candidate then
      let state := { state with inFlight := none }
      let settled := state.settle isLifecycleError candidate now download
      { s with
        devices := OrderedMap.set s.devices candidate.deviceKey settled.1
        diagnostics := s.diagnostics ++ settled.2
        log := storedBy candidate state.retained settled.1.retained ++ s.log }
    else s

/-- The download at an index ends. -/
def complete (isLifecycleError : ε → Bool) (s : Cache ε) (i : ℕ) (candidate : Candidate)
    (download : Download ε) (now : ℤ) : Cache ε :=
  ({ s with
    activeDownloads := s.activeDownloads - 1
    activeDevices := s.activeDevices.filter fun key => key ≠ candidate.deviceKey
    downloads := s.downloads.eraseIdx i }.completed isLifecycleError candidate download now).pump

end Cache

/-! ## Steps -/

inductive Label (ε : Type)
  | observe (deviceKey url : String) (now : ℤ)
  | complete (i : ℕ) (download : Download ε) (now : ℤ)
  | clear

def step (isLifecycleError : ε → Bool) (s : Cache ε) : Label ε → Option (Cache ε)
  | .observe deviceKey url now => some (s.observe deviceKey url now)
  | .complete i download now =>
    (s.downloads[i]?).map fun candidate => s.complete isLifecycleError i candidate download now
  | .clear => some s.clear

end EufySdk.StoredImages
