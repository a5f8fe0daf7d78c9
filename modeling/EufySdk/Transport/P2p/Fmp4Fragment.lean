import Mathlib.Tactic
import EufySdk.Lib.MovieFragment
import EufySdk.Transport.P2p.Fmp4Init

/-!
# Fragments

The fragment the muxer writes is the movie fragment of its queues: one run for the video and, when
it has samples and a track, one for the audio. The data offsets, which are zero when the index is
built and are then looked for in its bytes, are those of the samples in the fragment.

- `Sample.written`, `writtenRun` — what is written of a sample, and of a queue
- `patchTrunDataOffsets_ok` — the offsets end up in the runs they are for
- `fragmentBytes_ok` — the bytes of a fragment
-/

namespace EufySdk

open Bytes IsoBox

/-- What a fragment says of a sample. -/
def Sample.written (sample : Sample) : MovieFragment.Sample where
  duration := toUint32 sample.duration
  flags := if sample.keyframe then 0x02000000 else 0x01010000
  data := sample.data

/-- The run of a queue. -/
def writtenRun (track decodeTime : ℕ) (samples : List Sample) : MovieFragment.Run :=
  ⟨track, decodeTime, samples.map Sample.written⟩

theorem data_writtenRun (track decodeTime : ℕ) (samples : List Sample) :
    (writtenRun track decodeTime samples).data = samples.flatMap Sample.data := by
  rw [MovieFragment.Run.data, writtenRun, List.flatMap_map]
  rfl

theorem toUint32_lt (n : ℚ) : toUint32 n < 2 ^ 32 := by
  rw [toUint32]
  have := Int.emod_lt_of_pos (if 0 ≤ n then ⌊n⌋ else ⌈n⌉) (show (0 : ℤ) < 2 ^ 32 by decide)
  have := Int.emod_nonneg (if 0 ≤ n then ⌊n⌋ else ⌈n⌉) (show (2 ^ 32 : ℤ) ≠ 0 by decide)
  omega

theorem fits_writtenRun {track decodeTime : ℕ} {samples : List Sample} (htrack : track < 2 ^ 32)
    (htime : decodeTime < 2 ^ 64) : (writtenRun track decodeTime samples).Fits where
  track := htrack
  decodeTime := htime
  samples := by
    intro sample hsample
    obtain ⟨s, -, rfl⟩ := List.mem_map.mp hsample
    refine ⟨toUint32_lt s.duration, ?_⟩
    change (if s.keyframe then 0x02000000 else 0x01010000) < 2 ^ 32
    split <;> decide

/-! ## The index before its offsets are known -/

theorem trun_ok {samples : List Sample} (h : 20 + 12 * samples.length < 2 ^ 32) :
    Fmp4Muxer.trun samples = .ok (MovieFragment.trun 0 (samples.map Sample.written)).encode := by
  have hrows : (samples.flatMap fun sample => u32 (toUint32 sample.duration) ++
      u32 sample.data.length ++ u32 (if sample.keyframe then 0x02000000 else 0x01010000)) =
      (samples.map Sample.written).flatMap MovieFragment.row := by
    rw [List.flatMap_map]
    rfl
  have hsize := MovieFragment.size_trun 0 (samples.map Sample.written)
  rw [List.length_map] at hsize
  rw [Fmp4Muxer.trun, hrows, ← List.length_map (f := Sample.written)]
  exact box_ok (by rw [← hsize] at h; exact h)

theorem u64_ok {n : ℕ} (h : n < 2 ^ 64) : u64 n = .ok (uint64BE n) := by
  have hnum : (n : ℚ).num = n := Rat.num_natCast n
  have hfits : (n : ℚ).den = 1 ∧ 0 ≤ (n : ℚ).num ∧ (n : ℚ).num < 2 ^ 64 :=
    ⟨Rat.den_natCast n, by omega, by omega⟩
  rw [u64, if_pos hfits, hnum, Int.toNat_natCast]

theorem concat_ok (parts : List Buffer) : concat (parts.map .ok) = .ok parts.flatten := by
  induction parts with
  | nil => rfl
  | cons part parts ih =>
    rw [List.map_cons, concat_cons, ih]
    rfl

theorem boxOf_ok {type : FourCC} (boxes : List Box) (h : 8 + (encodeAll boxes).length < 2 ^ 32) :
    boxOf type (boxes.map fun b => .ok b.encode) = .ok (Box.encode ⟨type, encodeAll boxes⟩) := by
  have hconcat : concat (boxes.map fun b => .ok b.encode) = .ok (encodeAll boxes) := by
    have := concat_ok (boxes.map Box.encode)
    rwa [List.map_map] at this
  rw [boxOf, hconcat, ok_bind, box_ok h]

theorem traf_ok {track decodeTime : ℕ} {samples : List Sample} (htime : decodeTime < 2 ^ 64)
    (hsize : 64 + 12 * samples.length < 2 ^ 32) :
    Fmp4Muxer.traf track decodeTime samples =
      .ok (MovieFragment.traf 0 (writtenRun track decodeTime samples)).encode := by
  have htfhd : box .tfhd (u32 0x020000 ++ u32 track) = .ok (MovieFragment.tfhd track).encode :=
    box_ok (show 16 < 2 ^ 32 by decide)
  have htfdt : (do box .tfdt (u32 0x01000000 ++ (← u64 (decodeTime : ℚ)))) =
      .ok (MovieFragment.tfdt decodeTime).encode := by
    rw [u64_ok htime, ok_bind]
    exact box_ok (show 20 < 2 ^ 32 by decide)
  have hsum := MovieFragment.size_traf 0 (writtenRun track decodeTime samples)
  rw [writtenRun, List.length_map] at hsum
  rw [Fmp4Muxer.traf, htfhd, htfdt, trun_ok (by omega)]
  refine boxOf_ok [MovieFragment.tfhd track, MovieFragment.tfdt decodeTime,
    MovieFragment.trun 0 (samples.map Sample.written)] ?_
  rw [MovieFragment.traf, Box.size_mk] at hsum
  exact lt_of_eq_of_lt hsum hsize

/-- The runs of the two queues; there is none for the audio when its queue is empty. -/
def writtenRuns (videoTime audioTime : ℕ) (samples audioSamples : List Sample) :
    List MovieFragment.Run :=
  writtenRun 1 videoTime samples ::
    if audioSamples = [] then [] else [writtenRun 2 audioTime audioSamples]

/-- The index of some runs with no offsets yet. -/
def unplaced (runs : List MovieFragment.Run) : List (ℕ × MovieFragment.Run) :=
  runs.map fun run => (0, run)

@[simp] theorem map_snd_unplaced (runs : List MovieFragment.Run) :
    (unplaced runs).map Prod.snd = runs := by
  rw [unplaced, List.map_map]
  exact List.map_id runs

theorem size_traf_le_indexed {run : MovieFragment.Run} {runs : List MovieFragment.Run}
    (h : run ∈ runs) : 64 + 12 * run.samples.length ≤ MovieFragment.indexed runs :=
  List.single_le_sum (fun n _ => Nat.zero_le n) _ (List.mem_map_of_mem h)

theorem moof_ok {s : Fmp4Muxer} {seq videoTime audioTime : ℕ} {samples audioSamples : List Sample}
    (hvideo : s.baseDecodeTime = videoTime) (hvideoTime : videoTime < 2 ^ 64)
    (haudio : audioSamples ≠ [] → s.audioBaseDecodeTime = audioTime ∧ audioTime < 2 ^ 64)
    (htrack : audioSamples ≠ [] → s.hasAudioTrack = true)
    (hsize : 24 + MovieFragment.indexed (writtenRuns videoTime audioTime samples audioSamples) <
      2 ^ 32) :
    s.moof seq samples audioSamples =
      .ok (MovieFragment.moof seq
        (unplaced (writtenRuns videoTime audioTime samples audioSamples))).encode := by
  set runs := writtenRuns videoTime audioTime samples audioSamples with hruns
  have hmfhd : box .mfhd (u32 0 ++ u32 seq) = .ok (MovieFragment.mfhd seq).encode :=
    box_ok (show 16 < 2 ^ 32 by decide)
  have hone : Fmp4Muxer.traf 1 s.baseDecodeTime samples =
      .ok (MovieFragment.traf 0 (writtenRun 1 videoTime samples)).encode := by
    have hmem : writtenRun 1 videoTime samples ∈ runs := by
      rw [hruns]
      exact List.mem_cons_self
    have := size_traf_le_indexed hmem
    rw [writtenRun, List.length_map] at this
    rw [hvideo]
    exact traf_ok hvideoTime (by omega)
  have hsum := MovieFragment.size_moof seq (unplaced runs)
  rw [map_snd_unplaced] at hsum
  have hfits : (MovieFragment.moof seq (unplaced runs)).size < 2 ^ 32 := lt_of_eq_of_lt hsum hsize
  rw [Fmp4Muxer.moof, hmfhd, hone]
  by_cases hempty : audioSamples = []
  · have hnone : ¬(s.hasAudioTrack = true ∧ audioSamples ≠ []) := fun h => h.2 hempty
    have hboxes : runs = [writtenRun 1 videoTime samples] := by
      rw [hruns, writtenRuns, if_pos hempty]
    rw [if_neg hnone, hboxes]
    rw [hboxes] at hfits
    exact boxOf_ok [MovieFragment.mfhd seq,
      MovieFragment.traf 0 (writtenRun 1 videoTime samples)] hfits
  · have hboth : s.hasAudioTrack = true ∧ audioSamples ≠ [] := ⟨htrack hempty, hempty⟩
    have hboxes : runs =
        [writtenRun 1 videoTime samples, writtenRun 2 audioTime audioSamples] := by
      rw [hruns, writtenRuns, if_neg hempty]
    have htwo : Fmp4Muxer.traf 2 s.audioBaseDecodeTime audioSamples =
        .ok (MovieFragment.traf 0 (writtenRun 2 audioTime audioSamples)).encode := by
      have hmem : writtenRun 2 audioTime audioSamples ∈ runs := by
        rw [hboxes]
        exact List.mem_cons_of_mem _ List.mem_cons_self
      have := size_traf_le_indexed hmem
      rw [writtenRun, List.length_map] at this
      rw [(haudio hempty).1]
      exact traf_ok (haudio hempty).2 (by omega)
    rw [if_pos hboth, htwo, hboxes]
    rw [hboxes] at hfits
    exact boxOf_ok [MovieFragment.mfhd seq,
      MovieFragment.traf 0 (writtenRun 1 videoTime samples),
      MovieFragment.traf 0 (writtenRun 2 audioTime audioSamples)] hfits

/-! ## Finding the runs -/

/-- A type as it is read back. -/
def masked (t : FourCC) : FourCC := ⟨t.a &&& 0x7f, t.b &&& 0x7f, t.c &&& 0x7f, t.d &&& 0x7f⟩

/-- Where boxes begin that lie one behind the other. -/
def boxStarts (start : ℕ) : List Box → List ChildBox
  | [] => []
  | box :: boxes => ⟨masked box.type, start⟩ :: boxStarts (start + box.size) boxes

theorem readUInt32BE_ok {buf rest : Buffer} {start : ℕ} {box : Box}
    (h : buf.drop start = box.encode ++ rest) (hsize : box.size < 2 ^ 32) :
    readUInt32BE buf start = .ok box.size := by
  have hlength := congrArg List.length h
  rw [List.length_drop, List.length_append, Box.length_encode, Box.size] at hlength
  rw [readUInt32BE, if_pos (by omega), h]
  exact congrArg Except.ok (readUIntBE_uint32BE hsize)

theorem typeAt_eq {buf rest : Buffer} {start : ℕ} {box : Box}
    (h : buf.drop start = box.encode ++ rest) : typeAt buf start = masked box.type := by
  have hbyte (i : ℕ) : buf.getD (start + i) 0 = (box.encode ++ rest).getD i 0 := by
    rw [← h, List.getD_eq_getElem?_getD, List.getD_eq_getElem?_getD, List.getElem?_drop]
  simp only [typeAt, hbyte]
  rfl

/-- The children of a box, as the walk over its bytes finds them. -/
theorem childBoxesFrom_ok {buf rest : Buffer} {parentEnd left start : ℕ} {boxes : List Box}
    (h : buf.drop start = encodeAll boxes ++ rest)
    (hend : parentEnd = start + (encodeAll boxes).length) (hleft : boxes.length < left)
    (hsizes : ∀ box ∈ boxes, box.size < 2 ^ 32) :
    childBoxesFrom buf parentEnd left start = .ok (boxStarts start boxes) := by
  induction boxes generalizing left start with
  | nil =>
    cases left with
    | zero => cases hleft
    | succ left =>
      rw [encodeAll_nil, List.length_nil] at hend
      rw [childBoxesFrom, if_neg (by omega)]
      rfl
  | cons box boxes ih =>
    cases left with
    | zero => cases hleft
    | succ left =>
      rw [encodeAll_cons, List.append_assoc] at h
      rw [encodeAll_cons, List.length_append, Box.length_encode] at hend
      rw [List.length_cons] at hleft
      have hnext : buf.drop (start + box.size) = encodeAll boxes ++ rest := by
        rw [← List.drop_drop, h, ← Box.length_encode, List.drop_left]
      have hfewer : boxes.length < left := by omega
      have hrest := ih hnext (by omega) hfewer
        fun b hb => hsizes b (List.mem_cons_of_mem box hb)
      have height : 8 ≤ box.size := by
        rw [Box.size]
        omega
      rw [childBoxesFrom, if_pos (by omega), readUInt32BE_ok h (hsizes box List.mem_cons_self),
        ok_bind, if_neg (by omega), typeAt_eq h]
      change (childBoxesFrom buf parentEnd left (start + box.size) >>= fun more => _) = _
      rw [hrest]
      rfl

theorem childBoxes_ok {buf rest : Buffer} {type : FourCC} {start : ℕ} {boxes : List Box}
    (h : buf.drop start = Box.encode ⟨type, encodeAll boxes⟩ ++ rest)
    (hsize : 8 + (encodeAll boxes).length < 2 ^ 32) :
    childBoxes buf start = .ok (boxStarts (start + 8) boxes) := by
  have hinner : buf.drop (start + 8) = encodeAll boxes ++ rest := by
    rw [← List.drop_drop, h]
    rfl
  have hcount := length_le_encodeAll boxes
  have hread := readUInt32BE_ok h hsize
  rw [Box.size_mk] at hread
  rw [childBoxes, hread, ok_bind]
  refine childBoxesFrom_ok hinner (by omega) (by omega) fun box hbox => ?_
  have := size_le_encodeAll hbox
  omega

/-! ## Setting the offsets -/

theorem writeAt_append (left right : Buffer) {old new : Buffer} (h : old.length = new.length) :
    writeAt (left ++ old ++ right) left.length new = left ++ new ++ right := by
  have htake : (left ++ old ++ right).take left.length = left := by
    rw [List.append_assoc, List.take_left]
  have hdrop : (left ++ old ++ right).drop (left.length + new.length) = right := by
    rw [← h, ← List.length_append, List.drop_left]
  rw [writeAt, htake, hdrop]

/-- Where the offset is in the box of a track. -/
theorem encode_traf (run : MovieFragment.Run) :
    ∃ left right : Buffer, left.length = 60 ∧
      ∀ offset, (MovieFragment.traf offset run).encode = left ++ uint32BE offset ++ right := by
  refine ⟨uint32BE (64 + 12 * run.samples.length) ++ FourCC.traf.bytes ++
    ((MovieFragment.tfhd run.track).encode ++ (MovieFragment.tfdt run.decodeTime).encode ++
      (uint32BE (20 + 12 * run.samples.length) ++ FourCC.trun.bytes ++
        (uint32BE 0x000701 ++ uint32BE run.samples.length))),
    run.samples.flatMap MovieFragment.row, rfl, fun offset => ?_⟩
  rw [Box.encode, MovieFragment.size_traf]
  simp only [MovieFragment.traf, encodeAll_cons, encodeAll_nil, List.append_assoc, List.append_nil]
  rw [Box.encode.eq_def (MovieFragment.trun offset run.samples), MovieFragment.size_trun]
  simp only [MovieFragment.trun, List.append_assoc]

/-- The run of a track is the last one of its three boxes. -/
theorem patchTruns_ok {offsets : List ℕ} {moof : Buffer} {start i offset : ℕ}
    (hoffset : offsets[i]? = some offset) (run : MovieFragment.Run) :
    patchTruns offsets (boxStarts (start + 8) [MovieFragment.tfhd run.track,
        MovieFragment.tfdt run.decodeTime, MovieFragment.trun 0 run.samples]) (moof, i) = do
      return (← writeInt32BE moof offset (start + 60), i + 1) := by
  have htfhd : masked (MovieFragment.tfhd run.track).type ≠ .trun :=
    show masked .tfhd ≠ .trun by decide
  have htfdt : masked (MovieFragment.tfdt run.decodeTime).type ≠ .trun :=
    show masked .tfdt ≠ .trun by decide
  have htrun : ¬masked (MovieFragment.trun 0 run.samples).type ≠ .trun :=
    show ¬masked .trun ≠ .trun by decide
  rw [boxStarts, patchTruns, if_pos htfhd, boxStarts, patchTruns, if_pos htfdt, boxStarts,
    patchTruns, if_neg htrun, hoffset]
  rfl

/-- The offset of one track is set where its table has it. -/
theorem patchTraf_ok (left right : Buffer) {offsets : List ℕ} {i offset : ℕ}
    {run : MovieFragment.Run} (hat : offsets[i]? = some offset)
    (hsize : 64 + 12 * run.samples.length < 2 ^ 32) (hoffset : offset < 2 ^ 31) :
    (childBoxes (left ++ ((MovieFragment.traf 0 run).encode ++ right)) left.length >>=
      fun children => patchTruns offsets children
        (left ++ ((MovieFragment.traf 0 run).encode ++ right), i)) =
      .ok (left ++ ((MovieFragment.traf offset run).encode ++ right), i + 1) := by
  have hinner := MovieFragment.size_traf 0 run
  rw [MovieFragment.traf, Box.size_mk] at hinner
  have hchildren : childBoxes (left ++ ((MovieFragment.traf 0 run).encode ++ right)) left.length =
      .ok (boxStarts (left.length + 8) [MovieFragment.tfhd run.track,
        MovieFragment.tfdt run.decodeTime, MovieFragment.trun 0 run.samples]) :=
    childBoxes_ok (by rw [List.drop_left]; rfl) (lt_of_eq_of_lt hinner hsize)
  obtain ⟨front, back, hfront, hencode⟩ := encode_traf run
  have hbytes (n : ℕ) : left ++ ((MovieFragment.traf n run).encode ++ right) =
      (left ++ front) ++ uint32BE n ++ (back ++ right) := by
    rw [hencode]
    simp only [List.append_assoc]
  have hplace : left.length + 60 = (left ++ front).length := by
    rw [List.length_append, hfront]
  have hfits : offset < 2 ^ 31 ∧
      (left ++ front).length + 4 ≤ (left ++ front ++ uint32BE 0 ++ (back ++ right)).length := by
    refine ⟨hoffset, ?_⟩
    simp only [List.length_append, length_uint32BE]
    omega
  rw [hchildren, ok_bind, patchTruns_ok hat, hbytes, hplace, writeInt32BE, if_pos hfits,
    writeAt_append _ _ (by rfl : (uint32BE 0).length = (uint32BE offset).length), ← hbytes]
  rfl

/-- Each offset ends up in the run it is for, the first one behind those already used. -/
theorem patchTrafs_ok {done : List ℕ} {left : Buffer} {parts : List (ℕ × MovieFragment.Run)}
    (hsize : ∀ part ∈ parts, 64 + 12 * part.2.samples.length < 2 ^ 32)
    (hoffset : ∀ part ∈ parts, part.1 < 2 ^ 31) :
    patchTrafs (done ++ parts.map Prod.fst)
        (boxStarts left.length (parts.map fun part => MovieFragment.traf 0 part.2))
        (left ++ encodeAll (parts.map fun part => MovieFragment.traf 0 part.2), done.length) =
      .ok (left ++ encodeAll (parts.map fun part => MovieFragment.traf part.1 part.2),
        done.length + parts.length) := by
  induction parts generalizing done left with
  | nil => rfl
  | cons part parts ih =>
    obtain ⟨offset, run⟩ := part
    have htraf : ¬masked (MovieFragment.traf 0 run).type ≠ .traf :=
      show ¬masked .traf ≠ .traf by decide
    have hat : (done ++ offset :: parts.map Prod.fst)[done.length]? = some offset := by
      rw [List.getElem?_append_right (Nat.le_refl _), Nat.sub_self]
      rfl
    have hhere := patchTraf_ok left (encodeAll (parts.map fun part => MovieFragment.traf 0 part.2))
      hat (hsize (offset, run) List.mem_cons_self) (hoffset (offset, run) List.mem_cons_self)
    -- The boxes behind this one are where they were: an offset does not change a size.
    have hnext : left.length + (MovieFragment.traf 0 run).size =
        (left ++ (MovieFragment.traf offset run).encode).length := by
      rw [List.length_append, Box.length_encode, MovieFragment.size_traf, MovieFragment.size_traf]
    have hrest := @ih (done ++ [offset]) (left ++ (MovieFragment.traf offset run).encode)
      (fun p hp => hsize p (List.mem_cons_of_mem _ hp))
      (fun p hp => hoffset p (List.mem_cons_of_mem _ hp))
    have hdone : (done ++ [offset]).length = done.length + 1 := by
      rw [List.length_append, List.length_singleton]
    rw [hdone, List.append_assoc, List.singleton_append, ← hnext, List.append_assoc,
      List.append_assoc] at hrest
    simp only [List.map_cons, encodeAll_cons, List.length_cons]
    rw [boxStarts, patchTrafs, if_neg htraf, ← bind_assoc, hhere, ok_bind, hrest, Nat.add_assoc,
      Nat.add_comm 1]

/-- What stands in an index before its tracks. -/
theorem encode_moof (seq : ℕ) (parts : List (ℕ × MovieFragment.Run)) :
    (MovieFragment.moof seq parts).encode =
      (uint32BE (24 + MovieFragment.indexed (parts.map Prod.snd)) ++ FourCC.moof.bytes ++
        (MovieFragment.mfhd seq).encode) ++
      encodeAll (parts.map fun part => MovieFragment.traf part.1 part.2) := by
  rw [Box.encode, MovieFragment.size_moof]
  simp only [MovieFragment.moof, encodeAll_cons, List.append_assoc]

/-- The offsets of an index end up in the runs they are for. -/
theorem patchTrunDataOffsets_ok {seq : ℕ} {parts : List (ℕ × MovieFragment.Run)}
    (hsize : 24 + MovieFragment.indexed (parts.map Prod.snd) < 2 ^ 32)
    (hoffset : ∀ part ∈ parts, part.1 < 2 ^ 31) :
    patchTrunDataOffsets (MovieFragment.moof seq (unplaced (parts.map Prod.snd))).encode
      (parts.map Prod.fst) = .ok (MovieFragment.moof seq parts).encode := by
  have hboxes : (unplaced (parts.map Prod.snd)).map (fun part =>
      MovieFragment.traf part.1 part.2) = parts.map fun part => MovieFragment.traf 0 part.2 := by
    rw [unplaced, List.map_map, List.map_map]
    rfl
  have htraf : ∀ part ∈ parts, 64 + 12 * part.2.samples.length < 2 ^ 32 := fun part hpart => by
    have := size_traf_le_indexed (List.mem_map_of_mem (f := Prod.snd) hpart)
    omega
  have hmoof := MovieFragment.size_moof seq (unplaced (parts.map Prod.snd))
  rw [map_snd_unplaced, MovieFragment.moof, Box.size_mk, hboxes] at hmoof
  have hchildren : childBoxes (MovieFragment.moof seq (unplaced (parts.map Prod.snd))).encode 0 =
      .ok (boxStarts (0 + 8)
        (MovieFragment.mfhd seq :: parts.map fun part => MovieFragment.traf 0 part.2)) := by
    rw [MovieFragment.moof, hboxes]
    exact childBoxes_ok (List.append_nil _).symm (lt_of_eq_of_lt hmoof hsize)
  have hmfhd : masked (MovieFragment.mfhd seq).type ≠ .traf := show masked .mfhd ≠ .traf by decide
  set front := uint32BE (24 + MovieFragment.indexed (parts.map Prod.snd)) ++ FourCC.moof.bytes ++
    (MovieFragment.mfhd seq).encode with hfront
  have hlength : front.length = 0 + 8 + (MovieFragment.mfhd seq).size := rfl
  have hcount : ¬0 + parts.length ≠ (parts.map Prod.fst).length := by
    rw [List.length_map, Nat.zero_add]
    exact fun h => h rfl
  have hpatched := @patchTrafs_ok [] front parts htraf hoffset
  rw [List.nil_append, List.length_nil, hlength] at hpatched
  rw [patchTrunDataOffsets, hchildren, ok_bind, boxStarts, patchTrafs, if_pos hmfhd, encode_moof,
    encode_moof, map_snd_unplaced, hboxes, ← hfront, hpatched, ok_bind]
  change (if 0 + parts.length ≠ (parts.map Prod.fst).length then _ else _) = _
  rw [if_neg hcount]
  rfl

/-- **The bytes of a fragment** are the movie fragment of its queues. -/
theorem fragmentBytes_ok {s : Fmp4Muxer} {seq videoTime audioTime : ℕ}
    {samples audioSamples : List Sample}
    (hvideo : s.baseDecodeTime = videoTime) (hvideoTime : videoTime < 2 ^ 64)
    (haudio : audioSamples ≠ [] → s.audioBaseDecodeTime = audioTime ∧ audioTime < 2 ^ 64)
    (htrack : audioSamples ≠ [] → s.hasAudioTrack = true)
    (hsize : (MovieFragment.encode seq
      (writtenRuns videoTime audioTime samples audioSamples)).length < 2 ^ 31) :
    s.fragmentBytes seq samples audioSamples =
      .ok (MovieFragment.encode seq (writtenRuns videoTime audioTime samples audioSamples)) := by
  set runs := writtenRuns videoTime audioTime samples audioSamples with hruns
  set start := MovieFragment.dataStart seq runs with hstart
  have hindex := MovieFragment.dataStart_eq seq runs
  rw [MovieFragment.length_encode] at hsize
  have hmoof := @moof_ok s seq _ _ samples audioSamples hvideo hvideoTime haudio htrack
    (by rw [← hruns]; omega)
  have hlength : (MovieFragment.moof seq (unplaced runs)).encode.length + 8 = start := by
    rw [Box.length_encode, MovieFragment.size_moof, map_snd_unplaced, hstart, hindex]
    omega
  have hdata : samples.flatMap Sample.data ++ audioSamples.flatMap Sample.data =
      runs.flatMap MovieFragment.Run.data := by
    rw [hruns, writtenRuns, List.flatMap_cons, data_writtenRun]
    split
    · next h =>
      rw [h]
      rfl
    · rw [List.flatMap_cons, data_writtenRun, List.flatMap_nil, List.append_nil]
  have hmdat : box .mdat (samples.flatMap Sample.data ++ audioSamples.flatMap Sample.data) =
      .ok (MovieFragment.mdat runs).encode := by
    rw [hdata]
    exact box_ok (by omega)
  have hoffsets : (if audioSamples ≠ [] then
      [start, start + (samples.flatMap Sample.data).length] else [start]) =
      (MovieFragment.placed start runs).map Prod.fst := by
    rw [hruns, writtenRuns]
    by_cases h : audioSamples = []
    · rw [if_neg (not_not.mpr h), if_pos h]
      rfl
    · rw [if_pos h, if_neg h, ← data_writtenRun 1 videoTime]
      rfl
  have hplaces : ∀ part ∈ MovieFragment.placed start runs, part.1 < 2 ^ 31 := by
    intro part hpart
    have := MovieFragment.offset_le_of_mem_placed hpart
    omega
  have hpatched := @patchTrunDataOffsets_ok seq (MovieFragment.placed start runs)
    (by rw [MovieFragment.map_snd_placed]; omega) hplaces
  rw [MovieFragment.map_snd_placed] at hpatched
  rw [Fmp4Muxer.fragmentBytes, hmoof, ok_bind]
  dsimp only
  rw [hmdat, ok_bind, hlength, hoffsets, hpatched, ok_bind]
  change Except.ok _ = Except.ok _
  rw [MovieFragment.encode, encodeAll_cons, encodeAll_cons, encodeAll_nil, List.append_nil]

end EufySdk
