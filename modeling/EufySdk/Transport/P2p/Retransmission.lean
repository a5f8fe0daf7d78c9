import Mathlib.Tactic
import EufySdk.Core.Thrown
import EufySdk.Lib.LiveMap

/-!
# Sweeps over retained datagrams

`retransmitUnacked` of `transport/p2p/p2p-session.ts`: one loop over the datagrams that await their
acknowledgement, for outbound audio and for live starts. What is due is given up, or sent once more
and put behind the others in the map the loop goes over.

- `RetransmitPolicy` — what the caller decides
- `retransmitUnacked` — the sweep
- `retransmitUnacked_isSome` — it ends
-/

namespace EufySdk

open Bytes LiveMap

structure RetainedDatagram where
  data : Buffer
  firstSentAt : ℕ
  sentAt : ℕ
  sends : ℕ
  deriving DecidableEq, Repr

/-- What the caller of a sweep decides, for datagrams it retains as `τ`, over a state. -/
structure RetransmitPolicy (σ τ : Type) where
  retransmitMs : ℕ
  datagram : τ → RetainedDatagram
  /-- The entry with its datagram changed. -/
  withDatagram : τ → RetainedDatagram → τ
  spent : τ → Bool
  onAbandoned : σ → ℕ → τ → σ
  /-- `onResent` and `send`, and whether this returns. -/
  resend : σ → ℕ → τ → σ × Bool

namespace RetransmitPolicy

variable {σ τ : Type} (policy : RetransmitPolicy σ τ) (now : ℕ)

def due (held : τ) : Bool := policy.retransmitMs ≤ now - (policy.datagram held).sentAt

/-- `held.sends++` and the time of it. -/
def again (held : τ) : τ :=
  policy.withDatagram held
    { policy.datagram held with sends := (policy.datagram held).sends + 1, sentAt := now }

/-- A turn of the loop. -/
def turn (s : σ) (e : ℕ × τ) (c : Cursor ℕ τ) : Turned σ ℕ τ :=
  if policy.due now e.2 then
    let rest := c.delete e.1
    if policy.spent e.2 then { state := policy.onAbandoned s e.1 e.2, cursor := rest }
    else
      let held := policy.again now e.2
      let r := policy.resend s e.1 held
      { state := r.1, cursor := rest.set e.1 held, threw := !r.2 }
  else { state := s, cursor := c }

end RetransmitPolicy

/-- A sweep that has come back. -/
structure Swept (σ τ : Type) where
  state : σ
  retained : List (ℕ × τ)
  /-- Whether any datagram is outstanding; nothing where `send` threw. -/
  outstanding : Option Bool

/-- `retransmitUnacked`; nothing where the loop takes more turns than twice the entries. -/
def retransmitUnacked {σ τ : Type} (policy : RetransmitPolicy σ τ) (connectAddress : Bool)
    (now : ℕ) (s : σ) (retained : List (ℕ × τ)) : Option (Swept σ τ) :=
  if !connectAddress then some { state := s, retained, outstanding := some false }
  else
    (iterate (policy.turn now) (2 * retained.length + 1) s ⟨[], retained⟩).map fun r =>
      { state := r.state
        retained := r.cursor.entries
        outstanding := if r.threw then none else some !r.cursor.entries.isEmpty }

/-- A policy whose entries can be repeated: what is sent again has just been sent. -/
structure RetransmitPolicy.Lawful {σ τ : Type} (policy : RetransmitPolicy σ τ) : Prop where
  pos : 0 < policy.retransmitMs
  datagram_with : ∀ held d, policy.datagram (policy.withDatagram held d) = d

variable {σ τ : Type} {policy : RetransmitPolicy σ τ}

theorem RetransmitPolicy.Lawful.not_due_again (h : policy.Lawful) (now : ℕ) (held : τ) :
    policy.due now (policy.again now held) = false := by
  rw [due, again, h.datagram_with, Nat.sub_self]
  exact decide_eq_false (not_le.mpr h.pos)

/-- What a loop has ahead of it: an entry that is due may come up twice. -/
def RetransmitPolicy.measure (policy : RetransmitPolicy σ τ) (now : ℕ) (ahead : List (ℕ × τ)) : ℕ :=
  (ahead.map fun e => if policy.due now e.2 then 2 else 1).sum

theorem measure_cons (policy : RetransmitPolicy σ τ) (now : ℕ) (e : ℕ × τ)
    (ahead : List (ℕ × τ)) :
    policy.measure now (e :: ahead) =
      (if policy.due now e.2 then 2 else 1) + policy.measure now ahead := by
  rw [RetransmitPolicy.measure, List.map_cons, List.sum_cons]
  rfl

theorem measure_append (policy : RetransmitPolicy σ τ) (now : ℕ) (ahead more : List (ℕ × τ)) :
    policy.measure now (ahead ++ more) = policy.measure now ahead + policy.measure now more := by
  rw [RetransmitPolicy.measure, List.map_append, List.sum_append]
  rfl

theorem measure_delete_le (policy : RetransmitPolicy σ τ) (now : ℕ) (ahead : List (ℕ × τ))
    (key : ℕ) : policy.measure now (OrderedMap.delete ahead key) ≤ policy.measure now ahead :=
  (List.filter_sublist.map _).sum_le_sum fun _ _ => Nat.zero_le _

theorem measure_le (policy : RetransmitPolicy σ τ) (now : ℕ) (ahead : List (ℕ × τ)) :
    policy.measure now ahead ≤ 2 * ahead.length := by
  induction ahead with
  | nil => exact Nat.zero_le _
  | cons e ahead ih =>
    rw [measure_cons, List.length_cons]
    split_ifs <;> omega

/-- What a turn leaves ahead of the loop. -/
theorem ahead_turn (policy : RetransmitPolicy σ τ) (now : ℕ) (s : σ) (e : ℕ × τ)
    (c : Cursor ℕ τ) :
    (policy.turn now s e c).cursor.ahead =
      if policy.due now e.2 then
        if policy.spent e.2 then OrderedMap.delete c.ahead e.1
        else OrderedMap.delete c.ahead e.1 ++ [(e.1, policy.again now e.2)]
      else c.ahead := by
  rw [RetransmitPolicy.turn]
  split_ifs
  · rfl
  · dsimp only
    rw [Cursor.delete_set]
  · rfl

/-- **A sweep ends**, although it sets entries of the map it goes over. -/
theorem retransmitUnacked_isSome (h : policy.Lawful) (connectAddress : Bool) (now : ℕ) (s : σ)
    (retained : List (ℕ × τ)) :
    (retransmitUnacked policy connectAddress now s retained).isSome := by
  rw [retransmitUnacked]
  split_ifs
  · rfl
  rw [Option.isSome_map]
  refine iterate_isSome (policy.measure now) ?_ (Nat.lt_succ_of_le (measure_le policy now retained))
  intro s e c rest hahead
  have hdelete := measure_delete_le policy now rest e.1
  rw [hahead, ahead_turn, measure_cons, show (c.pass e rest).ahead = rest from rfl]
  split_ifs with hdue hspent
  · omega
  · have hagain : policy.measure now [(e.1, policy.again now e.2)] = 1 := by
      rw [measure_cons, h.not_due_again, if_neg Bool.false_ne_true]
      rfl
    rw [measure_append, hagain]
    omega
  · omega

end EufySdk
