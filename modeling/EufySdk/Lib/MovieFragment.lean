import Mathlib.Tactic
import EufySdk.Lib.IsoBox

/-!
# Movie fragments

A fragment is a `moof` box and an `mdat` box. The first has a `traf` for each track that has
samples in the fragment, with the decode time of the first of them and, for each one, its
duration, size and flags; the samples lie in the second one, where the run of the track says.

Main definitions:

- `Run` — the samples of one track in a fragment
- `encode` — the fragment of some runs
- `read` — the runs a player finds in a fragment
- `read_encode` — reading a fragment back
-/

namespace MovieFragment

open Bytes IsoBox

structure Sample where
  duration : ℕ
  flags : ℕ
  data : Buffer
  deriving DecidableEq, Repr

structure Run where
  track : ℕ
  decodeTime : ℕ
  samples : List Sample
  deriving DecidableEq, Repr

def Run.data (run : Run) : Buffer := run.samples.flatMap Sample.data

/-! ## Writing -/

/-- The sample table row of a sample. -/
def row (sample : Sample) : Buffer :=
  uint32BE sample.duration ++ uint32BE sample.data.length ++ uint32BE sample.flags

def mfhd (sequence : ℕ) : Box := ⟨.mfhd, uint32BE 0 ++ uint32BE sequence⟩

/-- The track of a run, whose offsets count from the start of the fragment. -/
def tfhd (track : ℕ) : Box := ⟨.tfhd, uint32BE 0x020000 ++ uint32BE track⟩

def tfdt (decodeTime : ℕ) : Box := ⟨.tfdt, uint32BE 0x01000000 ++ uint64BE decodeTime⟩

/-- The table of a run: where its samples start, and a duration, a size and flags for each. -/
def trun (offset : ℕ) (samples : List Sample) : Box :=
  ⟨.trun, uint32BE 0x000701 ++ uint32BE samples.length ++ uint32BE offset ++
    samples.flatMap row⟩

def traf (offset : ℕ) (run : Run) : Box :=
  ⟨.traf, encodeAll [tfhd run.track, tfdt run.decodeTime, trun offset run.samples]⟩

/-- The index of some runs, each with the place its samples start at. -/
def moof (sequence : ℕ) (parts : List (ℕ × Run)) : Box :=
  ⟨.moof, encodeAll (mfhd sequence :: parts.map fun part => traf part.1 part.2)⟩

def mdat (runs : List Run) : Box := ⟨.mdat, runs.flatMap Run.data⟩

/-- The runs with their places, the first one at the given offset. -/
def placed (offset : ℕ) : List Run → List (ℕ × Run)
  | [] => []
  | run :: runs => (offset, run) :: placed (offset + run.data.length) runs

/-- Where the samples of a fragment start. The places of the runs do not show in the size of the
index. -/
def dataStart (sequence : ℕ) (runs : List Run) : ℕ :=
  (moof sequence (placed 0 runs)).size + 8

/-- The fragment of some runs. -/
def encode (sequence : ℕ) (runs : List Run) : Buffer :=
  encodeAll [moof sequence (placed (dataStart sequence runs) runs), mdat runs]

/-! ## Reading -/

/-- The number in the first bytes, and the bytes behind it. -/
def field (width : ℕ) (bytes : Buffer) : Option (ℕ × Buffer) :=
  if width ≤ bytes.length then some (readUIntBE (bytes.take width), bytes.drop width) else none

/-- The rows of a sample table, which fill the bytes exactly: duration, size and flags. -/
def readRows : ℕ → Buffer → Option (List (ℕ × ℕ × ℕ))
  | 0, bytes => if bytes.isEmpty then some [] else none
  | count + 1, bytes => do
    let (duration, bytes) ← field 4 bytes
    let (size, bytes) ← field 4 bytes
    let (flags, bytes) ← field 4 bytes
    let rows ← readRows count bytes
    return (duration, size, flags) :: rows

/-- The samples of some rows, which lie one behind the other from an offset on. -/
def slices (fragment : Buffer) : ℕ → List (ℕ × ℕ × ℕ) → Option (List Sample)
  | _, [] => some []
  | offset, (duration, size, flags) :: rows =>
    if offset + size ≤ fragment.length then
      (slices fragment (offset + size) rows).map
        (⟨duration, flags, (fragment.drop offset).take size⟩ :: ·)
    else none

/-- The track a run is for; its offsets must count from the start of the fragment. -/
def readTfhd (box : Box) : Option ℕ := do
  guard (box.type = .tfhd)
  let (flags, bytes) ← field 4 box.payload
  let (track, bytes) ← field 4 bytes
  guard (flags = 0x020000 ∧ bytes = [])
  return track

def readTfdt (box : Box) : Option ℕ := do
  guard (box.type = .tfdt)
  let (version, bytes) ← field 4 box.payload
  let (decodeTime, bytes) ← field 8 bytes
  guard (version = 0x01000000 ∧ bytes = [])
  return decodeTime

/-- The samples of a run, none of which lies before the body of the `mdat` box. -/
def readTrun (fragment : Buffer) (body : ℕ) (box : Box) : Option (List Sample) := do
  guard (box.type = .trun)
  let (flags, bytes) ← field 4 box.payload
  let (count, bytes) ← field 4 bytes
  let (offset, bytes) ← field 4 bytes
  guard (flags = 0x000701 ∧ body ≤ offset ∧ offset < 2 ^ 31)
  let rows ← readRows count bytes
  slices fragment offset rows

def readTraf (fragment : Buffer) (body : ℕ) (box : Box) : Option Run := do
  guard (box.type = .traf)
  match ← parse box.payload with
  | [tfhd, tfdt, trun] => do
    let track ← readTfhd tfhd
    let decodeTime ← readTfdt tfdt
    let samples ← readTrun fragment body trun
    return ⟨track, decodeTime, samples⟩
  | _ => none

/-- The runs a player finds in a fragment. -/
def read (fragment : Buffer) : Option (List Run) := do
  match ← parse fragment with
  | [moof, mdat] => do
    guard (moof.type = .moof ∧ mdat.type = .mdat)
    match ← parse moof.payload with
    | mfhd :: trafs => do
      guard (mfhd.type = .mfhd)
      trafs.mapM (readTraf fragment (moof.size + 8))
    | [] => none
  | _ => none

/-! ## Sizes -/

@[simp] theorem length_row (sample : Sample) : (row sample).length = 12 := rfl

theorem length_rows (samples : List Sample) : (samples.flatMap row).length = 12 * samples.length := by
  induction samples with
  | nil => rfl
  | cons sample samples ih =>
    rw [List.flatMap_cons, List.length_append, length_row, ih, List.length_cons]
    omega

theorem size_trun (offset : ℕ) (samples : List Sample) :
    (trun offset samples).size = 20 + 12 * samples.length := by
  rw [trun, Box.size, List.length_append, length_rows]
  simp only [List.length_append, length_uint32BE]
  omega

theorem size_traf (offset : ℕ) (run : Run) :
    (traf offset run).size = 64 + 12 * run.samples.length := by
  have htfhd : (tfhd run.track).size = 16 := rfl
  have htfdt : (tfdt run.decodeTime).size = 20 := rfl
  rw [traf, Box.size]
  simp only [encodeAll_cons, encodeAll_nil, List.length_append, Box.length_encode, size_trun,
    htfhd, htfdt, List.length_nil]
  omega

/-- The bytes of an index that are there for its runs. -/
def indexed (runs : List Run) : ℕ := (runs.map fun run => 64 + 12 * run.samples.length).sum

theorem size_moof (sequence : ℕ) (parts : List (ℕ × Run)) :
    (moof sequence parts).size = 24 + indexed (parts.map Prod.snd) := by
  have hmfhd : (mfhd sequence).size = 16 := rfl
  have htrafs : (encodeAll (parts.map fun part => traf part.1 part.2)).length =
      indexed (parts.map Prod.snd) := by
    induction parts with
    | nil => rfl
    | cons part parts ih =>
      rw [List.map_cons, encodeAll_cons, List.length_append, Box.length_encode, size_traf, ih]
      rfl
  rw [moof, Box.size, encodeAll_cons, List.length_append, Box.length_encode, hmfhd, htrafs]
  omega

@[simp] theorem map_snd_placed (offset : ℕ) (runs : List Run) :
    (placed offset runs).map Prod.snd = runs := by
  induction runs generalizing offset with
  | nil => rfl
  | cons run runs ih => rw [placed, List.map_cons, ih]

/-- No run is placed behind the end of the data. -/
theorem offset_le_of_mem_placed {offset : ℕ} {runs : List Run} {part : ℕ × Run}
    (h : part ∈ placed offset runs) : part.1 ≤ offset + (runs.flatMap Run.data).length := by
  induction runs generalizing offset with
  | nil => cases h
  | cons run runs ih =>
    rw [List.flatMap_cons, List.length_append]
    cases List.mem_cons.mp h with
    | inl heq =>
      rw [heq]
      omega
    | inr hmem =>
      have := ih hmem
      omega

/-- The size of an index, wherever its runs are. -/
theorem size_moof_placed (sequence offset : ℕ) (runs : List Run) :
    (moof sequence (placed offset runs)).size = 24 + indexed runs := by
  rw [size_moof, map_snd_placed]

theorem dataStart_eq (sequence : ℕ) (runs : List Run) :
    dataStart sequence runs = 32 + indexed runs := by
  rw [dataStart, size_moof_placed]
  omega

theorem length_encode (sequence : ℕ) (runs : List Run) :
    (encode sequence runs).length = dataStart sequence runs + (runs.flatMap Run.data).length := by
  have hmdat : (mdat runs).size = 8 + (runs.flatMap Run.data).length := rfl
  simp only [encode, encodeAll_cons, encodeAll_nil, List.length_append, Box.length_encode,
    size_moof_placed, hmdat, List.length_nil, dataStart_eq]
  omega

/-! ## Reading back -/

theorem field_append {head : Buffer} {width : ℕ} (h : head.length = width) (rest : Buffer) :
    field width (head ++ rest) = some (readUIntBE head, rest) := by
  subst h
  rw [field, if_pos (by rw [List.length_append]; omega), List.take_left, List.drop_left]

theorem field_uint32BE {n : ℕ} (h : n < 2 ^ 32) (rest : Buffer) :
    field 4 (uint32BE n ++ rest) = some (n, rest) := by
  rw [field_append (length_uint32BE n), readUIntBE_uint32BE h]

theorem field_uint64BE {n : ℕ} (h : n < 2 ^ 64) (rest : Buffer) :
    field 8 (uint64BE n ++ rest) = some (n, rest) := by
  rw [field_append (length_uint64BE n), readUIntBE_uint64BE h]

/-- A sample whose numbers fit the fields of its row. -/
structure Sample.Fits (sample : Sample) : Prop where
  duration : sample.duration < 2 ^ 32
  flags : sample.flags < 2 ^ 32

/-- A run whose numbers fit the fields of its boxes. -/
structure Run.Fits (run : Run) : Prop where
  track : run.track < 2 ^ 32
  decodeTime : run.decodeTime < 2 ^ 64
  samples : ∀ sample ∈ run.samples, sample.Fits

/-- What a row says of a sample. -/
def rowOf (sample : Sample) : ℕ × ℕ × ℕ := (sample.duration, sample.data.length, sample.flags)

theorem length_le_data {sample : Sample} {samples : List Sample} (h : sample ∈ samples) :
    sample.data.length ≤ (samples.flatMap Sample.data).length := by
  obtain ⟨left, right, rfl⟩ := List.append_of_mem h
  rw [List.flatMap_append, List.flatMap_cons, List.length_append, List.length_append]
  omega

theorem readRows_rows {samples : List Sample} (h : ∀ sample ∈ samples, sample.Fits)
    (hdata : (samples.flatMap Sample.data).length < 2 ^ 32) :
    readRows samples.length (samples.flatMap row) = some (samples.map rowOf) := by
  induction samples with
  | nil => rfl
  | cons sample samples ih =>
    have hsize : sample.data.length < 2 ^ 32 :=
      lt_of_le_of_lt (length_le_data List.mem_cons_self) hdata
    have hfits := h sample List.mem_cons_self
    have hrest := ih (fun s hs => h s (List.mem_cons_of_mem sample hs)) (by
      rw [List.flatMap_cons, List.length_append] at hdata
      omega)
    rw [List.flatMap_cons, List.length_cons, readRows, row, List.append_assoc, List.append_assoc,
      field_uint32BE hfits.duration]
    simp only [Option.bind_eq_bind, Option.bind_some]
    rw [field_uint32BE hsize]
    simp only [Option.bind_some]
    rw [field_uint32BE hfits.flags]
    simp only [Option.bind_some]
    rw [hrest]
    rfl

/-- Samples that lie where their rows say are found there. -/
theorem slices_rows {fragment rest : Buffer} {offset : ℕ} {samples : List Sample}
    (h : fragment.drop offset = samples.flatMap Sample.data ++ rest)
    (hoffset : offset ≤ fragment.length) :
    slices fragment offset (samples.map rowOf) = some samples := by
  induction samples generalizing offset with
  | nil => rfl
  | cons sample samples ih =>
    rw [List.flatMap_cons, List.append_assoc] at h
    have hlength : offset + sample.data.length ≤ fragment.length := by
      have := congrArg List.length h
      rw [List.length_drop, List.length_append] at this
      omega
    have hhere : (fragment.drop offset).take sample.data.length = sample.data := by
      rw [h, List.take_left]
    have hnext : fragment.drop (offset + sample.data.length) =
        samples.flatMap Sample.data ++ rest := by
      rw [← List.drop_drop, h, List.drop_left]
    rw [List.map_cons]
    change (if offset + sample.data.length ≤ fragment.length then _ else _) = _
    rw [if_pos hlength, ih hnext hlength, Option.map_some, hhere]

theorem readTfhd_tfhd {track : ℕ} (h : track < 2 ^ 32) : readTfhd (tfhd track) = some track := by
  have hflags := field_uint32BE (n := 0x020000) (by decide) (uint32BE track)
  have htrack := field_uint32BE h []
  rw [List.append_nil] at htrack
  simp [readTfhd, tfhd, hflags, htrack]

theorem readTfdt_tfdt {decodeTime : ℕ} (h : decodeTime < 2 ^ 64) :
    readTfdt (tfdt decodeTime) = some decodeTime := by
  have hversion := field_uint32BE (n := 0x01000000) (by decide) (uint64BE decodeTime)
  have htime := field_uint64BE h []
  rw [List.append_nil] at htime
  simp [readTfdt, tfdt, hversion, htime]

theorem readTrun_trun {fragment rest : Buffer} {body offset : ℕ} {samples : List Sample}
    (hsamples : ∀ sample ∈ samples, sample.Fits)
    (hfragment : fragment.length < 2 ^ 31) (hcount : samples.length < 2 ^ 32)
    (hbody : body ≤ offset) (hoffset : offset ≤ fragment.length)
    (h : fragment.drop offset = samples.flatMap Sample.data ++ rest) :
    readTrun fragment body (trun offset samples) = some samples := by
  have hdata : (samples.flatMap Sample.data).length < 2 ^ 32 := by
    have := congrArg List.length h
    rw [List.length_drop, List.length_append] at this
    omega
  have hflags := field_uint32BE (n := 0x000701) (by decide)
    (uint32BE samples.length ++ (uint32BE offset ++ samples.flatMap row))
  have hlength := field_uint32BE hcount (uint32BE offset ++ samples.flatMap row)
  have hplace := field_uint32BE (n := offset) (by omega) (samples.flatMap row)
  have hsmall : offset < 2147483648 := by omega
  simp [readTrun, trun, hflags, hlength, hplace, hbody, hsmall, readRows_rows hsamples hdata,
    slices_rows h hoffset]

theorem readTraf_traf {fragment rest : Buffer} {body offset : ℕ} {run : Run} (hrun : run.Fits)
    (hfragment : fragment.length < 2 ^ 31) (hsize : (traf offset run).size < 2 ^ 31)
    (hbody : body ≤ offset) (hoffset : offset ≤ fragment.length)
    (h : fragment.drop offset = run.data ++ rest) :
    readTraf fragment body (traf offset run) = some run := by
  rw [size_traf] at hsize
  have hboxes : ∀ box ∈ [tfhd run.track, tfdt run.decodeTime, trun offset run.samples],
      box.size < 2 ^ 32 := by
    intro box hbox
    have htfhd : (tfhd run.track).size = 16 := rfl
    have htfdt : (tfdt run.decodeTime).size = 20 := rfl
    have htrun := size_trun offset run.samples
    simp only [List.mem_cons, List.not_mem_nil, or_false] at hbox
    rcases hbox with rfl | rfl | rfl <;> omega
  have htrun := readTrun_trun hrun.samples hfragment (by omega) hbody hoffset h
  simp [readTraf, traf, parse_encodeAll hboxes, readTfhd_tfhd hrun.track,
    readTfdt_tfdt hrun.decodeTime, htrun]

theorem mapM_readTraf {fragment : Buffer} (body : ℕ) {offset : ℕ} {runs : List Run}
    (hruns : ∀ run ∈ runs, run.Fits) (hfragment : fragment.length < 2 ^ 31)
    (hsize : ∀ run ∈ runs, 64 + 12 * run.samples.length < 2 ^ 31)
    (hbody : body ≤ offset) (hoffset : offset ≤ fragment.length)
    (h : fragment.drop offset = runs.flatMap Run.data) :
    ((placed offset runs).map fun part => traf part.1 part.2).mapM (readTraf fragment body) =
      some runs := by
  induction runs generalizing offset with
  | nil => rfl
  | cons run runs ih =>
    rw [List.flatMap_cons] at h
    have hlength : offset + run.data.length ≤ fragment.length := by
      have := congrArg List.length h
      rw [List.length_drop, List.length_append] at this
      omega
    have hnext : fragment.drop (offset + run.data.length) = runs.flatMap Run.data := by
      rw [← List.drop_drop, h, List.drop_left]
    have hhere := readTraf_traf (hruns run List.mem_cons_self) hfragment
      (by rw [size_traf]; exact hsize run List.mem_cons_self) hbody hoffset h
    have hrest := ih (fun r hr => hruns r (List.mem_cons_of_mem run hr))
      (fun r hr => hsize r (List.mem_cons_of_mem run hr)) (by omega) hlength hnext
    rw [placed, List.map_cons, List.mapM_cons, hhere, hrest]
    rfl

/-- **Round trip.** A player finds the runs of a fragment in it. -/
theorem read_encode {sequence : ℕ} {runs : List Run} (hruns : ∀ run ∈ runs, run.Fits)
    (hlength : (encode sequence runs).length < 2 ^ 31) :
    read (encode sequence runs) = some runs := by
  set start := dataStart sequence runs with hstart
  have hbytes := length_encode sequence runs
  have hindex : ∀ run ∈ runs, 64 + 12 * run.samples.length ≤ indexed runs := fun run hrun =>
    List.single_le_sum (fun n _ => Nat.zero_le n) _ (List.mem_map_of_mem hrun)
  have hmoof := size_moof_placed sequence start runs
  have heq := dataStart_eq sequence runs
  have hboxes : ∀ box ∈ [moof sequence (placed start runs), mdat runs], box.size < 2 ^ 32 := by
    intro box hbox
    have := size_le_encodeAll hbox
    change box.size ≤ (encode sequence runs).length at this
    omega
  have htrafs : ∀ box ∈ mfhd sequence :: (placed start runs).map fun part => traf part.1 part.2,
      box.size < 2 ^ 32 := by
    intro box hbox
    have := size_le_encodeAll hbox
    rw [moof, Box.size_mk] at hmoof
    omega
  have hdata : (encode sequence runs).drop start = runs.flatMap Run.data := by
    have hhead : encode sequence runs = ((moof sequence (placed start runs)).encode ++
        (uint32BE (mdat runs).size ++ FourCC.mdat.bytes)) ++ runs.flatMap Run.data := by
      simp [encode, encodeAll, Box.encode, mdat, hstart]
    have hskip : start = ((moof sequence (placed start runs)).encode ++
        (uint32BE (mdat runs).size ++ FourCC.mdat.bytes)).length := by
      rw [List.length_append, Box.length_encode, hmoof, hstart, heq]
      simp only [List.length_append, length_uint32BE, FourCC.length_bytes]
      omega
    rw [hhead]
    exact List.drop_left' hskip.symm
  have hfound := mapM_readTraf ((moof sequence (placed start runs)).size + 8) hruns hlength
    (fun run hrun => by have := hindex run hrun; omega) (by omega) (by omega) hdata
  have hparse : parse (encode sequence runs) =
      some [moof sequence (placed start runs), mdat runs] := parse_encodeAll hboxes
  have hinner : parse (moof sequence (placed start runs)).payload =
      some (mfhd sequence :: (placed start runs).map fun part => traf part.1 part.2) :=
    parse_encodeAll htrafs
  have hmoofType : (moof sequence (placed start runs)).type = .moof := rfl
  have hmdatType : (mdat runs).type = .mdat := rfl
  have hmfhdType : (mfhd sequence).type = .mfhd := rfl
  simp [read, hparse, hinner, hmoofType, hmdatType, hmfhdType, hfound]

/-! ## Boxes in boxes -/

theorem nested_traf {offset : ℕ} {run : Run} (hsize : (traf offset run).size < 2 ^ 32) :
    Nested containers (traf offset run).encode := by
  have hinner : Nested containers
      (encodeAll [tfhd run.track, tfdt run.decodeTime, trun offset run.samples]) := by
    refine Nested.all fun box hbox => ?_
    have hle := size_le_encodeAll hbox
    rw [traf, Box.size_mk] at hsize
    have hsmall : box.size < 2 ^ 32 := by omega
    simp only [List.mem_cons, List.not_mem_nil, or_false] at hbox
    rcases hbox with rfl | rfl | rfl <;> exact Nested.leaf rfl hsmall
  exact Nested.container [] rfl hinner hsize

/-- A fragment is boxes all the way down. -/
theorem nested_encode {sequence : ℕ} {runs : List Run}
    (hlength : (encode sequence runs).length < 2 ^ 32) :
    Nested containers (encode sequence runs) := by
  set parts := placed (dataStart sequence runs) runs with hparts
  have hsize : ∀ box ∈ [moof sequence parts, mdat runs], box.size < 2 ^ 32 := fun box hbox =>
    lt_of_le_of_lt (size_le_encodeAll hbox) hlength
  have hmoof : (moof sequence parts).size < 2 ^ 32 := hsize _ List.mem_cons_self
  have hinner : Nested containers
      (encodeAll (mfhd sequence :: parts.map fun part => traf part.1 part.2)) := by
    refine Nested.all fun box hbox => ?_
    have hle := size_le_encodeAll hbox
    have hsmall : box.size < 2 ^ 32 := by
      rw [moof, Box.size_mk] at hmoof
      omega
    cases List.mem_cons.mp hbox with
    | inl heq =>
      subst heq
      exact Nested.leaf rfl hsmall
    | inr hmem =>
      obtain ⟨part, -, rfl⟩ := List.mem_map.mp hmem
      exact nested_traf hsmall
  have hindex : Nested containers (moof sequence parts).encode :=
    Nested.container [] rfl hinner hmoof
  have hmedia : Nested containers (mdat runs).encode :=
    Nested.leaf rfl (hsize _ (List.mem_cons_of_mem _ List.mem_cons_self))
  exact hindex.append (hmedia.append Nested.nil)

end MovieFragment
