import Mathlib.Tactic
import EufySdk.Lib.Bytes

/-!
# Length-prefixed frames cut into chunks

A frame is a fixed-size header that names the length of the payload after it.
A receiver gets a stream of such frames in chunks: it keeps the header and the
payload bytes of a frame that is not complete yet, and scans for headers where
a frame begins.

Main definitions:

- `Format` — how a header is recognised and how much payload it announces
- `Format.scan`, `Format.feed` — the frames a chunk completes and what stays pending
- `Packet` — one frame as it is sent, its header bytes known to parse
- `pendingAt`, `completed` — what the receiver holds and has handed over after the
  first `o` bytes of a stream, computed from the stream alone
- `CleanCut` — byte `o` of the stream does not lie inside a header
- `feed_stream` — feeding the bytes between two clean cuts takes `pendingAt` of the
  first to `pendingAt` of the second and hands over what is completed in between
-/

namespace Framing

open Bytes

/-- How a header is recognised at the start of a byte string, and the number of
payload bytes it announces. -/
structure Format (H : Type*) where
  /-- Bytes in a header. -/
  size : ℕ
  size_pos : 0 < size
  /-- The header at the start of a string of at least `size` bytes, if there is one. -/
  parse : Buffer → Option H
  /-- The payload length a header announces. -/
  need : H → ℕ

variable {H : Type*}

namespace Format

variable (fmt : Format H)

/-- The frames that lie complete at the start of `body`, and the header and payload
bytes of the frame that `body` ends inside of. The first argument bounds the number
of frames; the length of `body` is always enough. -/
def scan : ℕ → Buffer → List (H × Buffer) × Option (H × Buffer)
  | 0, _ => ([], none)
  | fuel + 1, body =>
    if fmt.size ≤ body.length then
      match fmt.parse body with
      | none => ([], none)
      | some h =>
        let payload := body.drop fmt.size
        if payload.length < fmt.need h then ([], some (h, payload))
        else
          let r := scan fuel (payload.drop (fmt.need h))
          ((h, payload.take (fmt.need h)) :: r.1, r.2)
    else ([], none)

/-- Feed one chunk to a receiver that holds `pending`. -/
def feed : Option (H × Buffer) → Buffer → List (H × Buffer) × Option (H × Buffer)
  | none, chunk => fmt.scan chunk.length chunk
  | some (h, buf), chunk =>
    let body := buf ++ chunk
    if body.length < fmt.need h then ([], some (h, body))
    else
      let rest := body.drop (fmt.need h)
      let r := fmt.scan rest.length rest
      ((h, body.take (fmt.need h)) :: r.1, r.2)

theorem feed_some_of_lt {h : H} {b chunk : Buffer}
    (hlt : (b ++ chunk).length < fmt.need h) :
    fmt.feed (some (h, b)) chunk = ([], some (h, b ++ chunk)) := if_pos hlt

theorem feed_some_of_not_lt {h : H} {b chunk : Buffer}
    (hlt : ¬(b ++ chunk).length < fmt.need h) :
    fmt.feed (some (h, b)) chunk =
      ((h, (b ++ chunk).take (fmt.need h)) ::
          (fmt.feed none ((b ++ chunk).drop (fmt.need h))).1,
        (fmt.feed none ((b ++ chunk).drop (fmt.need h))).2) := if_neg hlt

/-- A string shorter than a header holds nothing. -/
theorem scan_of_short {fuel : ℕ} {body : Buffer} (h : body.length < fmt.size) :
    fmt.scan fuel body = ([], none) := by
  cases fuel with
  | zero => rfl
  | succ fuel => simp only [scan, if_neg (by omega : ¬fmt.size ≤ body.length)]

/-- A string with no header at its start holds nothing. -/
theorem scan_of_parse_none {fuel : ℕ} {body : Buffer} (h : fmt.parse body = none) :
    fmt.scan fuel body = ([], none) := by
  cases fuel with
  | zero => rfl
  | succ fuel => simp only [scan, h, ite_self]

/-- Every fuel that covers the string gives the same result. -/
theorem scan_fuel {body : Buffer} {m n : ℕ} (hm : body.length ≤ m) (hn : body.length ≤ n) :
    fmt.scan m body = fmt.scan n body := by
  induction m generalizing body n with
  | zero =>
    have hshort : body.length < fmt.size := by have := fmt.size_pos; omega
    rw [fmt.scan_of_short hshort, fmt.scan_of_short hshort]
  | succ m ih =>
    cases n with
    | zero =>
      have hshort : body.length < fmt.size := by have := fmt.size_pos; omega
      rw [fmt.scan_of_short hshort, fmt.scan_of_short hshort]
    | succ n =>
      by_cases hsize : fmt.size ≤ body.length
      · simp only [scan, if_pos hsize]
        cases hp : fmt.parse body with
        | none => rfl
        | some h =>
          have hpos := fmt.size_pos
          have hlen : ((body.drop fmt.size).drop (fmt.need h)).length < body.length := by
            simp only [List.length_drop]
            omega
          have hm' : ((body.drop fmt.size).drop (fmt.need h)).length ≤ m := by omega
          have hn' : ((body.drop fmt.size).drop (fmt.need h)).length ≤ n := by omega
          simp only [ih hm' hn']
      · simp only [scan, if_neg hsize]

end Format

/-- One frame as it is sent: header bytes that parse to `header` whatever follows
them, and a payload of the length the header announces. -/
structure Packet (fmt : Format H) where
  head : Buffer
  header : H
  payload : Buffer
  head_length : head.length = fmt.size
  parse_head : ∀ rest, fmt.parse (head ++ rest) = some header
  payload_length : payload.length = fmt.need header

namespace Packet

variable {fmt : Format H}

/-- The bytes a packet occupies on the stream. -/
def bytes (p : Packet fmt) : Buffer := p.head ++ p.payload

/-- What a receiver hands over for a packet. -/
def frame (p : Packet fmt) : H × Buffer := (p.header, p.payload)

theorem length_bytes (p : Packet fmt) : p.bytes.length = fmt.size + p.payload.length := by
  rw [bytes, List.length_append, p.head_length]

end Packet

variable {fmt : Format H}

/-- The byte stream of a list of packets. -/
def stream (ps : List (Packet fmt)) : Buffer := ps.flatMap Packet.bytes

@[simp] theorem stream_nil : stream ([] : List (Packet fmt)) = [] := rfl

@[simp] theorem stream_cons (p : Packet fmt) (ps : List (Packet fmt)) :
    stream (p :: ps) = p.bytes ++ stream ps := rfl

/-- What a receiver holds after the first `o` bytes of a stream: the header of the
packet that byte `o` lies inside of and the payload bytes before `o`. -/
def pendingAt : List (Packet fmt) → ℕ → Option (H × Buffer)
  | [], _ => none
  | p :: ps, o =>
    if p.bytes.length ≤ o then pendingAt ps (o - p.bytes.length)
    else if fmt.size ≤ o then some (p.header, p.payload.take (o - fmt.size))
    else none

/-- The packets that end within the first `o` bytes of a stream. -/
def completed : List (Packet fmt) → ℕ → List (Packet fmt)
  | [], _ => []
  | p :: ps, o => if p.bytes.length ≤ o then p :: completed ps (o - p.bytes.length) else []

/-- Byte `o` of the stream does not lie strictly inside a header. -/
def CleanCut (ps : List (Packet fmt)) (o : ℕ) : Prop :=
  ∀ pre p post, ps = pre ++ p :: post →
    o ≤ (stream pre).length ∨ (stream pre).length + fmt.size ≤ o

/-- A clean cut at or after the end of the first packet is one of the rest. -/
theorem CleanCut.tail {p : Packet fmt} {ps : List (Packet fmt)} {o : ℕ}
    (h : CleanCut (p :: ps) o) (ho : p.bytes.length ≤ o) :
    CleanCut ps (o - p.bytes.length) := by
  intro pre q post hps
  have hcut := h (p :: pre) q post (by rw [hps]; rfl)
  rw [stream_cons, List.length_append] at hcut
  omega

/-- A clean cut is at the first packet's start or past its header. -/
theorem CleanCut.head {p : Packet fmt} {ps : List (Packet fmt)} {o : ℕ}
    (h : CleanCut (p :: ps) o) : o = 0 ∨ fmt.size ≤ o := by
  have hcut := h [] p ps rfl
  simpa using hcut

theorem cleanCut_nil (o : ℕ) : CleanCut ([] : List (Packet fmt)) o := by
  intro pre p post h
  simp at h

theorem cleanCut_cons {p : Packet fmt} {ps : List (Packet fmt)} {o : ℕ} :
    CleanCut (p :: ps) o ↔
      (o = 0 ∨ fmt.size ≤ o) ∧ (p.bytes.length ≤ o → CleanCut ps (o - p.bytes.length)) := by
  refine ⟨fun h => ⟨h.head, h.tail⟩, ?_⟩
  rintro ⟨hhead, htail⟩ pre q post hps
  match pre, hps with
  | [], hps => simpa using hhead
  | p' :: pre, hps =>
    obtain ⟨rfl, rfl⟩ := List.cons.inj hps
    rw [stream_cons, List.length_append]
    by_cases hp : p.bytes.length ≤ o
    · have hrest := htail hp pre q post rfl
      omega
    · omega

@[simp] theorem pendingAt_zero (ps : List (Packet fmt)) : pendingAt ps 0 = none := by
  cases ps with
  | nil => rfl
  | cons p ps =>
    have hpos := fmt.size_pos
    have hlen := p.length_bytes
    rw [pendingAt, if_neg (by omega), if_neg (by omega)]

@[simp] theorem completed_zero (ps : List (Packet fmt)) : completed ps 0 = [] := by
  cases ps with
  | nil => rfl
  | cons p ps =>
    have hpos := fmt.size_pos
    have hlen := p.length_bytes
    rw [completed, if_neg (by omega)]

/-- The whole stream completes every packet. -/
theorem completed_length (ps : List (Packet fmt)) :
    completed ps (stream ps).length = ps := by
  induction ps with
  | nil => rfl
  | cons p ps ih =>
    rw [stream_cons, List.length_append, completed, if_pos (by omega),
      Nat.add_sub_cancel_left, ih]

theorem completed_subset (ps : List (Packet fmt)) (o : ℕ) : completed ps o ⊆ ps := by
  induction ps generalizing o with
  | nil => exact fun _ h => h
  | cons p ps ih =>
    rw [completed]
    split
    · exact List.cons_subset_cons p (ih _)
    · exact List.nil_subset _

/-- Scanning a string that begins with a packet's header looks at its payload next. -/
theorem scan_head (p : Packet fmt) (rest : Buffer) :
    fmt.scan (p.head ++ rest).length (p.head ++ rest) =
      fmt.feed (some (p.header, [])) rest := by
  have hpos := fmt.size_pos
  have hhead := p.head_length
  have hdrop : (p.head ++ rest).drop fmt.size = rest := by
    rw [← hhead, List.drop_left]
  obtain ⟨fuel, hfuel⟩ : ∃ fuel, (p.head ++ rest).length = fuel + 1 :=
    ⟨(p.head ++ rest).length - 1, by rw [List.length_append]; omega⟩
  have hsize : fmt.size ≤ (p.head ++ rest).length := by
    rw [List.length_append]
    omega
  rw [hfuel, Format.scan, if_pos hsize, p.parse_head]
  simp only [hdrop]
  by_cases hshort : rest.length < fmt.need p.header
  · rw [if_pos hshort, fmt.feed_some_of_lt (b := []) hshort]
    rfl
  · have hlen : (rest.drop (fmt.need p.header)).length ≤ fuel := by
      rw [List.length_append] at hfuel
      rw [List.length_drop]
      omega
    rw [if_neg hshort, fmt.scan_fuel hlen le_rfl, fmt.feed_some_of_not_lt (b := []) hshort]
    rfl

/-- Feeding the missing payload bytes and a tail hands the packet over and goes on with
the tail. -/
theorem feed_payload (p : Packet fmt) {buf rest tail : Buffer}
    (h : buf ++ rest = p.payload ++ tail) :
    fmt.feed (some (p.header, buf)) rest =
      (p.frame :: (fmt.feed none tail).1, (fmt.feed none tail).2) := by
  have hneed := p.payload_length
  rw [fmt.feed_some_of_not_lt (by rw [h, List.length_append]; omega), h, ← hneed,
    List.drop_left, List.take_left]
  rfl

/-- Feeding fewer payload bytes than are missing only extends what is held. -/
theorem feed_short (p : Packet fmt) {buf rest : Buffer}
    (h : (buf ++ rest).length < p.payload.length) :
    fmt.feed (some (p.header, buf)) rest = ([], some (p.header, buf ++ rest)) := by
  have hneed := p.payload_length
  exact fmt.feed_some_of_lt (by omega)

/-- Feeding a chunk from inside a packet's payload on: the payload is held or handed
over, and the stream behind it follows. -/
theorem feed_inside (p : Packet fmt) (ps : List (Packet fmt)) {k o : ℕ} (hk : k ≤ o)
    (ih : fmt.feed none ((stream ps).take (o - p.payload.length)) =
      ((completed ps (o - p.payload.length)).map Packet.frame,
        pendingAt ps (o - p.payload.length)))
    (hkp : k ≤ p.payload.length) :
    fmt.feed (some (p.header, p.payload.take k))
        (((p.payload ++ stream ps).take o).drop k) =
      ((completed (p :: ps) (fmt.size + o)).map Packet.frame,
        pendingAt (p :: ps) (fmt.size + o)) := by
  have hlen := p.length_bytes
  have hjoin : p.payload.take k ++ ((p.payload ++ stream ps).take o).drop k =
      (p.payload ++ stream ps).take o := by
    have htake : p.payload.take k = ((p.payload ++ stream ps).take o).take k := by
      rw [List.take_take, min_eq_left hk, List.take_append_of_le_length hkp]
    rw [htake, List.take_append_drop]
  by_cases ho : p.payload.length ≤ o
  · have hsplit : (p.payload ++ stream ps).take o =
        p.payload ++ (stream ps).take (o - p.payload.length) := by
      rw [List.take_append, List.take_of_length_le ho]
    have hsub : fmt.size + o - p.bytes.length = o - p.payload.length := by omega
    rw [feed_payload p (hjoin.trans hsplit), ih, completed, pendingAt, if_pos (by omega),
      if_pos (by omega), hsub, List.map_cons]
  · have hshort : ((p.payload ++ stream ps).take o).length < p.payload.length := by
      rw [List.length_take]
      omega
    rw [feed_short p (by rw [hjoin]; exact hshort), hjoin, completed, pendingAt,
      if_neg (by omega), if_neg (by omega), if_pos (by omega), Nat.add_sub_cancel_left,
      List.take_append_of_le_length (by omega)]
    rfl

/-- What follows a packet is fed as its own stream, also when the cut lies before it. -/
theorem feed_behind (p : Packet fmt) (ps : List (Packet fmt)) {o : ℕ}
    (h : p.bytes.length ≤ o → fmt.feed none ((stream ps).take (o - p.bytes.length)) =
      ((completed ps (o - p.bytes.length)).map Packet.frame, pendingAt ps (o - p.bytes.length))) :
    fmt.feed none ((stream ps).take (o - fmt.size - p.payload.length)) =
      ((completed ps (o - fmt.size - p.payload.length)).map Packet.frame,
        pendingAt ps (o - fmt.size - p.payload.length)) := by
  have hlen := p.length_bytes
  by_cases ho : p.bytes.length ≤ o
  · rw [show o - fmt.size - p.payload.length = o - p.bytes.length by omega]
    exact h ho
  · rw [show o - fmt.size - p.payload.length = 0 by omega]
    simp [Format.feed, Format.scan]

/-- Feeding the first `o` bytes of a stream to a receiver that holds nothing. -/
theorem feed_take (ps : List (Packet fmt)) {o : ℕ} (h : CleanCut ps o) :
    fmt.feed none ((stream ps).take o) =
      ((completed ps o).map Packet.frame, pendingAt ps o) := by
  induction ps generalizing o with
  | nil => simp [Format.feed, Format.scan, completed, pendingAt]
  | cons p ps ih =>
    obtain rfl | hsize := h.head
    · simp [Format.feed, Format.scan]
    · have hlen := p.length_bytes
      have hhead := p.head_length
      have hcut : (stream (p :: ps)).take o =
          p.head ++ (p.payload ++ stream ps).take (o - fmt.size) := by
        rw [stream_cons, Packet.bytes, List.append_assoc, List.take_append, hhead,
          List.take_of_length_le (by omega)]
      have htail := feed_behind p ps fun ho => ih (h.tail ho)
      have hinside := feed_inside p ps (Nat.zero_le (o - fmt.size)) htail (Nat.zero_le _)
      rw [List.take_zero, List.drop_zero, Nat.add_sub_cancel' hsize] at hinside
      rw [hcut]
      exact (scan_head p _).trans hinside

/-- **Feeding the bytes between two clean cuts** hands over the packets completed in
between and leaves pending what the later cut lies inside of. -/
theorem feed_stream (ps : List (Packet fmt)) {a b : ℕ} (hab : a ≤ b)
    (ha : CleanCut ps a) (hb : CleanCut ps b) :
    ∃ done, completed ps b = completed ps a ++ done ∧
      fmt.feed (pendingAt ps a) (((stream ps).take b).drop a) =
        (done.map Packet.frame, pendingAt ps b) := by
  induction ps generalizing a b with
  | nil => exact ⟨[], rfl, by simp [Format.feed, Format.scan, pendingAt]⟩
  | cons p ps ih =>
    have hlen := p.length_bytes
    have hhead := p.head_length
    by_cases hpa : p.bytes.length ≤ a
    · obtain ⟨done, hdone, hfeed⟩ :=
        ih (a := a - p.bytes.length) (b := b - p.bytes.length) (by omega) (ha.tail hpa)
          (hb.tail (by omega))
      refine ⟨done, ?_, ?_⟩
      · simp only [completed, if_pos hpa, if_pos (hpa.trans hab), hdone, List.cons_append]
      · have hbytes : ((stream (p :: ps)).take b).drop a =
            ((stream ps).take (b - p.bytes.length)).drop (a - p.bytes.length) := by
          rw [stream_cons, List.take_append, List.take_of_length_le (hpa.trans hab),
            List.drop_append, List.drop_of_length_le hpa, List.nil_append]
        simp only [pendingAt, if_pos hpa, if_pos (hpa.trans hab), hbytes, hfeed]
    · refine ⟨completed (p :: ps) b, by simp only [completed, if_neg hpa, List.nil_append], ?_⟩
      obtain rfl | hsize := ha.head
      · rw [pendingAt_zero, List.drop_zero]
        exact feed_take (p :: ps) hb
      · have hbytes : ((stream (p :: ps)).take b).drop a =
            ((p.payload ++ stream ps).take (b - fmt.size)).drop (a - fmt.size) := by
          rw [stream_cons, Packet.bytes, List.append_assoc, List.take_append, hhead,
            List.take_of_length_le (by omega), List.drop_append, hhead,
            List.drop_of_length_le (by omega), List.nil_append]
        have htail := feed_behind p ps fun hpb => feed_take ps (hb.tail hpb)
        rw [pendingAt, if_neg hpa, if_pos hsize, hbytes,
          feed_inside p ps (by omega) htail (by omega), Nat.add_sub_cancel' (hsize.trans hab)]

end Framing
