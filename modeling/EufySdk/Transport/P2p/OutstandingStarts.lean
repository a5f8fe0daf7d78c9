import Mathlib.Tactic
import EufySdk.Lib.Ledger
import EufySdk.Transport.P2p.LiveStart

/-!
# Outstanding live starts

A ledger of the starts that a session retains, each numbered as it is retained. The session keeps
no more than their sequence numbers and channels; the ledger says of every start when and for what
it was dropped.

- `Book` — a session with the ledger of its starts
- `Book.step` — a call, or a turn of the loop of a sweep by itself
- `Booked` — what holds behind every run
- `one_start_per_channel` — the runs of a session
-/

namespace EufySdk.LiveStart

open Machine OrderedMap

/-- What a retained start is dropped for. -/
inductive Cause
  | acknowledged
  | abandoned
  | stopped
  /-- A later start takes its channel, or its sequence number. -/
  | replaced
  | closed
  deriving DecidableEq, Repr

namespace Session

/-- Whether `startLiveMedia` retains a start. -/
def retains (s : Session) (channel : ℤ) (homeBaseAttached force fits : Bool) : Bool :=
  !homeBaseAttached && !s.yields channel force &&
    decide (get (s.forgetIf channel force).liveStartedChannels channel ≠ some s.want) &&
      s.connectAddress.isSome && fits

/-- Whether the start under a sequence number is of a channel. -/
def holdsFor (s : Session) (channel : ℤ) (sequence : ℕ) : Bool :=
  (get s.unackedLiveStarts sequence).any fun e => e.channel = channel

end Session

/-- A start that a sweep gives up. -/
def Retained.spent (now : ℕ) (e : Retained) : Bool :=
  LIVE_START_RETRANSMIT_MS ≤ now - e.sentAt && LIVE_START_ACK_DEADLINE_MS ≤ now - e.firstSentAt

abbrev Starts := Ledger ℕ Cause

/-- What a turn of the loop of a sweep drops. -/
def followTurn (now : ℕ) (ledger : Starts) (e : ℕ × Retained) : Starts :=
  if e.2.spent now then ledger.leave .abandoned (· = e.1) else ledger

/-- What a call retains and drops. -/
def follow (s : Session) (ledger : Starts) : Label → Starts
  | .startLiveMedia channel homeBaseAttached force _ fits =>
    if s.retains channel homeBaseAttached force fits then
      (ledger.leave .replaced fun n => s.holdsFor channel n || n = s.seqNumber).enter s.seqNumber
    else ledger
  | .stopLiveMedia channel => ledger.leave .stopped (s.holdsFor channel)
  | .ack sequences => ledger.leave .acknowledged (· ∈ sequences)
  | .sweep now =>
    if s.connectAddress.isNone then ledger else s.unackedLiveStarts.foldl (followTurn now) ledger
  | .close => if s.closed then ledger else ledger.leave .closed fun _ => true
  | _ => ledger

/-- A session and the ledger of its starts. -/
structure Book where
  session : Session := {}
  ledger : Starts := {}
  deriving DecidableEq

inductive Move
  | call (l : Label)
  /-- A turn of the loop of a sweep by itself, with the calls that a listener makes between it and
  the next. -/
  | turn (sequence now : ℕ)
  deriving DecidableEq, Repr

def Book.step (b : Book) : Move → Option Book
  | .call l => (LiveStart.step b.session l).map fun t => ⟨t, follow b.session b.ledger l⟩
  | .turn sequence now =>
    (get b.session.unackedLiveStarts sequence).map fun e =>
      ⟨Session.retransmit now b.session (sequence, e), followTurn now b.ledger (sequence, e)⟩

/-- The ledger changes nothing about the session. -/
theorem exec_calls (b : Book) (ls : List Label) :
    (exec Book.step b (ls.map .call)).map Book.session = exec step b.session ls := by
  induction ls generalizing b with
  | nil => rfl
  | cons l ls ih =>
    rw [List.map_cons, exec, exec, Book.step]
    cases LiveStart.step b.session l with
    | none => rfl
    | some t => exact ih ⟨t, follow b.session b.ledger l⟩

/-! ### The retained starts -/

/-- No sequence number is there twice, and no channel. -/
structure Distinct (m : List (ℕ × Retained)) : Prop where
  keys : (m.map Prod.fst).Nodup
  channels : (m.map fun e => e.2.channel).Nodup

namespace Distinct

variable {m m' : List (ℕ × Retained)}

theorem nil : Distinct [] := ⟨List.nodup_nil, List.nodup_nil⟩

theorem sublist (h : Distinct m) (hsub : m'.Sublist m) : Distinct m' :=
  ⟨h.keys.sublist (hsub.map _), h.channels.sublist (hsub.map _)⟩

theorem perm (h : Distinct m) (hperm : m.Perm m') : Distinct m' :=
  ⟨(hperm.map _).nodup_iff.mp h.keys, (hperm.map _).nodup_iff.mp h.channels⟩

/-- A start of a channel that none is retained of, under a sequence number of its own. -/
theorem cons (h : Distinct m) {e : ℕ × Retained} (hkey : e.1 ∉ m.map Prod.fst)
    (hchannel : ∀ f ∈ m, f.2.channel ≠ e.2.channel) : Distinct (e :: m) := by
  refine ⟨List.nodup_cons.mpr ⟨hkey, h.keys⟩, List.nodup_cons.mpr ⟨fun hmem => ?_, h.channels⟩⟩
  obtain ⟨f, hf, heq⟩ := List.mem_map.mp hmem
  exact hchannel f hf heq

end Distinct

/-- Dropping entries by their key is dropping their keys. -/
theorem map_fst_filter {m : List (ℕ × Retained)} (p : ℕ → Bool) :
    (m.filter fun e => p e.1).map Prod.fst = (m.map Prod.fst).filter p :=
  (List.filter_map (p := p) (f := Prod.fst) (l := m)).symm

/-- Entries of other channels are those whose sequence number is not of the channel. -/
theorem filter_channel {s : Session} (hnodup : (s.unackedLiveStarts.map Prod.fst).Nodup)
    (channel : ℤ) :
    (s.unackedLiveStarts.filter fun e => e.2.channel ≠ channel) =
      s.unackedLiveStarts.filter fun e => !s.holdsFor channel e.1 := by
  refine List.filter_congr fun e he => ?_
  rw [Session.holdsFor, get_of_mem hnodup he, Option.any_some, decide_not]

/-! ### Turns of a sweep -/

/-- What a turn makes of the retained starts. -/
def turned (now : ℕ) (m : List (ℕ × Retained)) (e : ℕ × Retained) : List (ℕ × Retained) :=
  if now - e.2.sentAt < LIVE_START_RETRANSMIT_MS then m
  else if LIVE_START_ACK_DEADLINE_MS ≤ now - e.2.firstSentAt then delete m e.1
  else set (delete m e.1) e.1 { e.2 with sends := e.2.sends + 1, sentAt := now }

section Turns

variable {now : ℕ} {m : List (ℕ × Retained)} {e : ℕ × Retained} {ledger : Starts}

theorem send_fields (s : Session) (events : List Event) :
    (s.send events).1.unackedLiveStarts = s.unackedLiveStarts ∧
      (s.send events).1.liveStartRetransmitTimer = s.liveStartRetransmitTimer ∧
        (s.send events).1.connectAddress = s.connectAddress := by
  rw [Session.send]
  split_ifs <;> exact ⟨rfl, rfl, rfl⟩

theorem retransmit_fields (s : Session) (now : ℕ) (e : ℕ × Retained) :
    (Session.retransmit now s e).unackedLiveStarts = turned now s.unackedLiveStarts e ∧
      (Session.retransmit now s e).liveStartRetransmitTimer = s.liveStartRetransmitTimer ∧
        (Session.retransmit now s e).connectAddress = s.connectAddress := by
  rw [Session.retransmit, turned]
  split_ifs
  · exact ⟨rfl, rfl, rfl⟩
  · exact ⟨rfl, rfl, rfl⟩
  · exact send_fields _ _

/-- The starts a turn leaves: those there were, or all but the one that is spent. -/
theorem turned_perm (now : ℕ) (hm : Distinct m) (he : e ∈ m) :
    Distinct (turned now m e) ∧
      ((turned now m e).map Prod.fst).Perm
        (if e.2.spent now then (m.map Prod.fst).filter (· ≠ e.1) else m.map Prod.fst) := by
  have hothers := cons_delete_perm (k := e.1) (v := e.2) hm.keys he
  rw [turned, Retained.spent]
  by_cases hfresh : now - e.2.sentAt < LIVE_START_RETRANSMIT_MS
  · rw [if_pos hfresh, decide_eq_false (not_le.mpr hfresh)]
    exact ⟨hm, .refl _⟩
  · rw [if_neg hfresh, decide_eq_true (not_lt.mp hfresh)]
    by_cases hspent : LIVE_START_ACK_DEADLINE_MS ≤ now - e.2.firstSentAt
    · rw [if_pos hspent, decide_eq_true hspent]
      refine ⟨hm.sublist List.filter_sublist, ?_⟩
      rw [keys_delete]
      exact .refl _
    · rw [if_neg hspent, decide_eq_false hspent, set_delete_self]
      -- the entry goes behind the others, with its number and its channel
      have hmoved := List.perm_append_singleton
        (e.1, { e.2 with sends := e.2.sends + 1, sentAt := now }) (delete m e.1)
      refine ⟨⟨?_, ?_⟩, ?_⟩
      · exact ((hmoved.map Prod.fst).trans (hothers.map Prod.fst)).nodup_iff.mpr hm.keys
      · exact ((hmoved.map fun e => e.2.channel).trans
          (hothers.map fun e => e.2.channel)).nodup_iff.mpr hm.channels
      · exact (hmoved.map Prod.fst).trans (hothers.map Prod.fst)

theorem kept_turn (hm : Distinct m) (he : e ∈ m) (hkept : ledger.Kept (m.map Prod.fst)) :
    (followTurn now ledger e).Kept ((turned now m e).map Prod.fst) := by
  have hperm := (turned_perm now hm he).2
  rw [followTurn]
  split_ifs at hperm ⊢
  · have hleave := hkept.leave .abandoned (· = e.1)
    refine (hleave.perm ?_).perm hperm.symm
    simp only [decide_not]
    exact .refl _
  · exact hkept.perm hperm.symm

/-- A turn leaves the entries of the others as they are. -/
theorem mem_turned {f : ℕ × Retained} (hf : f ∈ m) (hne : f.1 ≠ e.1) : f ∈ turned now m e := by
  have hother : f ∈ delete m e.1 := List.mem_filter.mpr ⟨hf, decide_eq_true hne⟩
  rw [turned]
  split_ifs
  · exact hf
  · exact hother
  · rw [set_delete_self]
    exact List.mem_append_left _ hother

/-- The loop of a sweep, turn after turn. -/
theorem kept_turns (now : ℕ) {es : List (ℕ × Retained)} (hm : Distinct m) (hes : ∀ e ∈ es, e ∈ m)
    (hnodup : (es.map Prod.fst).Nodup) (hkept : ledger.Kept (m.map Prod.fst)) :
    Distinct (es.foldl (turned now) m) ∧
      (es.foldl (followTurn now) ledger).Kept ((es.foldl (turned now) m).map Prod.fst) := by
  induction es generalizing m ledger with
  | nil => exact ⟨hm, hkept⟩
  | cons e es ih =>
    obtain ⟨hfirst, hrest⟩ := List.nodup_cons.mp hnodup
    have he := hes e List.mem_cons_self
    refine ih (turned_perm now hm he).1 (fun f hf => ?_) hrest (kept_turn hm he hkept)
    refine mem_turned (hes f (List.mem_cons_of_mem e hf)) fun heq => hfirst ?_
    exact List.mem_map.mpr ⟨f, hf, heq⟩

theorem sweep_fields (s : Session) (now : ℕ) (es : List (ℕ × Retained)) :
    (es.foldl (Session.retransmit now) s).unackedLiveStarts =
        es.foldl (turned now) s.unackedLiveStarts ∧
      (es.foldl (Session.retransmit now) s).liveStartRetransmitTimer =
        s.liveStartRetransmitTimer ∧
      (es.foldl (Session.retransmit now) s).connectAddress = s.connectAddress := by
  induction es generalizing s with
  | nil => exact ⟨rfl, rfl, rfl⟩
  | cons e es ih =>
    obtain ⟨hstarts, htimer, haddress⟩ := retransmit_fields s now e
    have hrest := ih (Session.retransmit now s e)
    rwa [hstarts, htimer, haddress] at hrest

end Turns

/-! ### Calls -/

/-- Nothing changes that the retained starts depend on. -/
structure Same (s t : Session) : Prop where
  starts : t.unackedLiveStarts = s.unackedLiveStarts
  timer : t.liveStartRetransmitTimer = s.liveStartRetransmitTimer
  address : t.connectAddress = s.connectAddress

theorem same_send (s : Session) (events : List Event) : Same s (s.send events).1 :=
  ⟨(send_fields s events).1, (send_fields s events).2.1, (send_fields s events).2.2⟩

theorem Same.trans {s t u : Session} (h : Same s t) (h' : Same t u) : Same s u :=
  ⟨h'.starts.trans h.starts, h'.timer.trans h.timer, h'.address.trans h.address⟩

theorem same_advance (s : Session) : Same s s.advance := ⟨rfl, rfl, rfl⟩

theorem same_sendCommand (s : Session) : Same s s.sendCommand.1 := by
  rw [Session.sendCommand]
  split_ifs
  · exact ⟨rfl, rfl, rfl⟩
  · exact (same_advance s).trans (same_send s.advance [])

theorem same_sendMediaPayloadLevel2 (s : Session) : Same s s.sendMediaPayloadLevel2.1 := by
  rw [Session.sendMediaPayloadLevel2]
  split_ifs
  · exact ⟨rfl, rfl, rfl⟩
  · exact (same_advance s).trans (same_send s.advance [])

theorem same_forgetIf (s : Session) (channel : ℤ) (force : Bool) :
    Same s (s.forgetIf channel force) := by
  rw [Session.forgetIf]
  split_ifs <;> exact ⟨rfl, rfl, rfl⟩

/-- A start that is retained takes the place of any other of its channel. -/
structure Retains (s t : Session) (channel : ℤ) (now : ℕ) : Prop where
  starts : t.unackedLiveStarts =
    set (s.unackedLiveStarts.filter fun e => e.2.channel ≠ channel) s.seqNumber
      ⟨channel, now, now, 1⟩
  timer : t.liveStartRetransmitTimer = true
  address : t.connectAddress = s.connectAddress
  known : s.connectAddress.isSome = true

theorem startLiveMedia_same {s : Session} {channel : ℤ} {homeBaseAttached force fits : Bool}
    (now : ℕ) (h : s.retains channel homeBaseAttached force fits = false) :
    Same s (s.startLiveMedia channel homeBaseAttached force now fits) := by
  have hforget := same_forgetIf s channel force
  obtain ⟨hwant, -, haddress, -⟩ := Session.forgetIf_fields s channel force
  rw [Session.startLiveMedia]
  split_ifs with hattached hyields
  · exact same_sendMediaPayloadLevel2 s
  · exact ⟨rfl, rfl, rfl⟩
  rw [Session.startOwn]
  split_ifs with hstarted
  · have hsent := hforget.trans (same_sendCommand (s.forgetIf channel force))
    split
    · rename_i t heq
      rw [heq] at hsent
      exact ⟨hsent.starts, hsent.timer, hsent.address⟩
    · rename_i t heq
      rw [heq] at hsent
      exact hsent
  · rw [hwant] at hstarted
    rw [Session.sendStartLiveOwnSession, haddress]
    -- without an address or a frame it fits in the start is not retained
    cases hknown : s.connectAddress with
    | none => exact ⟨hforget.starts, hforget.timer, hforget.address⟩
    | some addr =>
      cases hfits : fits with
      | false => exact hforget
      | true =>
        exfalso
        rw [Session.retains, hknown, hfits, Bool.eq_false_iff.mpr hattached,
          Bool.eq_false_iff.mpr hyields, decide_eq_true hstarted] at h
        cases h

theorem startLiveMedia_retains {s : Session} {channel : ℤ} {homeBaseAttached force fits : Bool}
    (now : ℕ) (h : s.retains channel homeBaseAttached force fits = true) :
    Retains s (s.startLiveMedia channel homeBaseAttached force now fits) channel now := by
  simp only [Session.retains, Bool.and_eq_true, Bool.not_eq_true', decide_eq_true_eq] at h
  obtain ⟨⟨⟨⟨rfl, hyields⟩, hstarted⟩, hknown⟩, rfl⟩ := h
  have hforget := same_forgetIf s channel force
  obtain ⟨hwant, -, haddress, -⟩ := Session.forgetIf_fields s channel force
  have hnone : (s.forgetIf channel force).connectAddress.isNone = false := by
    rw [haddress, ← Option.not_isSome, hknown]
    rfl
  have hseq : (s.forgetIf channel force).seqNumber = s.seqNumber := by
    rw [Session.forgetIf]
    split_ifs <;> rfl
  have hsent := same_send ((s.forgetIf channel force).retain channel now) [.start channel]
  rw [Session.startLiveMedia, if_neg Bool.false_ne_true, hyields, if_neg Bool.false_ne_true,
    Session.startOwn, if_neg (hwant ▸ hstarted), Session.sendStartLiveOwnSession, hnone,
    if_neg Bool.false_ne_true, Bool.not_true, if_neg Bool.false_ne_true]
  have hretained : Retains s ((s.forgetIf channel force).retain channel now) channel now := by
    refine ⟨?_, rfl, hforget.address, hknown⟩
    rw [Session.retain, hseq, hforget.starts]
  split
  · rename_i t heq
    rw [heq] at hsent
    exact ⟨hsent.starts.trans hretained.starts, hsent.timer, hsent.address.trans hretained.address,
      hknown⟩
  · rename_i t heq
    rw [heq] at hsent
    exact ⟨hsent.starts.trans hretained.starts, hsent.timer, hsent.address.trans hretained.address,
      hknown⟩

/-! ### What holds behind every run -/

/-- The invariant: the ledger has the sequence numbers that are retained, no two of one channel, and
while there are any the ticker runs, on a connection that knows its peer. -/
structure Booked (s : Session) (ledger : Starts) : Prop where
  distinct : Distinct s.unackedLiveStarts
  kept : ledger.Kept (s.unackedLiveStarts.map Prod.fst)
  known : s.unackedLiveStarts ≠ [] → s.connectAddress.isSome = true
  ticks : s.unackedLiveStarts ≠ [] → s.liveStartRetransmitTimer = true

namespace Booked

variable {s t : Session} {ledger : Starts}

theorem init : Booked {} {} :=
  ⟨.nil, Ledger.kept_empty, fun h => absurd rfl h, fun h => absurd rfl h⟩

theorem of_same (h : Booked s ledger) (hsame : Same s t) : Booked t ledger := by
  obtain ⟨hstarts, htimer, haddress⟩ := hsame
  constructor
  · rw [hstarts]
    exact h.distinct
  · rw [hstarts]
    exact h.kept
  · rw [hstarts, haddress]
    exact h.known
  · rw [hstarts, htimer]
    exact h.ticks

/-- The ticker goes only where nothing is retained. -/
theorem settle (h : Booked s ledger) : Booked s.settleRetransmit ledger := by
  rw [Session.settleRetransmit]
  split_ifs with hnone
  · exact ⟨h.distinct, h.kept, h.known, fun hsome => absurd hnone hsome⟩
  · exact h

/-- Starts are dropped by their sequence numbers. -/
theorem drop (h : Booked s ledger) (cause : Cause) (p : ℕ → Bool)
    (hstarts : t.unackedLiveStarts = s.unackedLiveStarts.filter fun e => !p e.1)
    (htimer : t.liveStartRetransmitTimer = s.liveStartRetransmitTimer)
    (haddress : t.connectAddress = s.connectAddress) : Booked t (ledger.leave cause p) := by
  have hsome (hne : t.unackedLiveStarts ≠ []) : s.unackedLiveStarts ≠ [] := by
    rintro hnone
    rw [hstarts, hnone] at hne
    exact hne rfl
  constructor
  · rw [hstarts]
    exact h.distinct.sublist List.filter_sublist
  · rw [hstarts, map_fst_filter fun n => !p n]
    exact h.kept.leave cause p
  · rw [haddress]
    exact fun hne => h.known (hsome hne)
  · rw [htimer]
    exact fun hne => h.ticks (hsome hne)

/-- A start is retained, in place of the one of its channel and of the one under its number. -/
theorem retain {channel : ℤ} {now : ℕ} (h : Booked s ledger) (hretains : Retains s t channel now) :
    Booked t ((ledger.leave .replaced fun n => s.holdsFor channel n || n = s.seqNumber).enter
      s.seqNumber) := by
  have hnodup : ((s.unackedLiveStarts.filter fun e => e.2.channel ≠ channel).map
      Prod.fst).Nodup := h.distinct.keys.sublist (List.filter_sublist.map _)
  have hothers : delete (s.unackedLiveStarts.filter fun e => e.2.channel ≠ channel) s.seqNumber =
      s.unackedLiveStarts.filter fun e => !(s.holdsFor channel e.1 || e.1 = s.seqNumber) := by
    rw [delete, filter_channel h.distinct.keys, List.filter_filter]
    refine List.filter_congr fun e _ => ?_
    rw [Bool.not_or, decide_not, Bool.and_comm]
  have hperm := set_perm s.seqNumber ⟨channel, now, now, 1⟩ hnodup
  rw [← hretains.starts, hothers] at hperm
  constructor
  · refine Distinct.perm (Distinct.cons ?_ ?_ ?_) hperm.symm
    · exact h.distinct.sublist List.filter_sublist
    · intro hmem
      obtain ⟨e, he, heq⟩ := List.mem_map.mp hmem
      have hkept := (List.mem_filter.mp he).2
      rw [heq, decide_eq_true rfl, Bool.or_true] at hkept
      cases hkept
    · rw [← hothers]
      intro e he
      exact of_decide_eq_true (List.mem_filter.mp (List.mem_filter.mp he).1).2
  · have hkept := (h.kept.leave .replaced fun n => s.holdsFor channel n || n = s.seqNumber).enter
      s.seqNumber
    rw [← map_fst_filter] at hkept
    exact hkept.perm (hperm.map Prod.fst).symm
  · rw [hretains.address]
    exact fun _ => hretains.known
  · exact fun _ => hretains.timer

theorem turn {now : ℕ} {e : ℕ × Retained} (h : Booked s ledger) (he : e ∈ s.unackedLiveStarts) :
    Booked (Session.retransmit now s e) (followTurn now ledger e) := by
  obtain ⟨hstarts, htimer, haddress⟩ := retransmit_fields s now e
  have hsome : s.unackedLiveStarts ≠ [] := List.ne_nil_of_mem he
  constructor
  · rw [hstarts]
    exact (turned_perm now h.distinct he).1
  · rw [hstarts]
    exact kept_turn h.distinct he h.kept
  · rw [haddress]
    exact fun _ => h.known hsome
  · rw [htimer]
    exact fun _ => h.ticks hsome

theorem sweep (h : Booked s ledger) (now : ℕ) :
    Booked (s.sweep now) (follow s ledger (.sweep now)) := by
  rw [Session.sweep, follow]
  split_ifs with hnone
  · have hempty : s.unackedLiveStarts = [] := by
      by_contra hsome
      have hknown := h.known hsome
      rw [← Option.not_isNone, hnone] at hknown
      cases hknown
    exact ⟨h.distinct, h.kept, h.known, fun hsome => absurd hempty hsome⟩
  · refine Booked.settle ?_
    obtain ⟨hstarts, htimer, haddress⟩ := sweep_fields s now s.unackedLiveStarts
    obtain ⟨hdistinct, hkept⟩ :=
      kept_turns now h.distinct (fun e he => he) h.distinct.keys h.kept
    have hsome (hne : s.unackedLiveStarts.foldl (turned now) s.unackedLiveStarts ≠ []) :
        s.unackedLiveStarts ≠ [] := by
      rintro hnone
      rw [hnone] at hne
      exact hne rfl
    constructor
    · rwa [hstarts]
    · rwa [hstarts]
    · rw [hstarts, haddress]
      exact fun hne => h.known (hsome hne)
    · rw [hstarts, htimer]
      exact fun hne => h.ticks (hsome hne)

theorem stop (h : Booked s ledger) (channel : ℤ) :
    Booked (s.stopLiveMedia channel) (ledger.leave .stopped (s.holdsFor channel)) := by
  have hdropped : Booked
      { s with
        liveStartedChannels := delete s.liveStartedChannels channel
        unackedLiveStarts := s.unackedLiveStarts.filter fun e => e.2.channel ≠ channel
        log := .stop channel :: s.log } (ledger.leave .stopped (s.holdsFor channel)) :=
    h.drop .stopped (s.holdsFor channel) (filter_channel h.distinct.keys channel) rfl rfl
  rw [Session.stopLiveMedia]
  split_ifs
  · exact hdropped.settle.of_same (same_sendMediaPayloadLevel2 _)
  · exact hdropped.settle.of_same (same_sendCommand _)

/-- Deleting sequence numbers one after the other. -/
theorem foldl_delete (m : List (ℕ × Retained)) (sequences : List ℕ) :
    sequences.foldl delete m = m.filter fun e => !decide (e.1 ∈ sequences) := by
  induction sequences generalizing m with
  | nil => simp
  | cons sequence sequences ih =>
    rw [List.foldl_cons, ih, delete, List.filter_filter]
    refine List.filter_congr fun e _ => ?_
    rw [Bool.eq_iff_iff]
    simp [and_comm]

theorem ack (h : Booked s ledger) (sequences : List ℕ) :
    Booked (s.onAck sequences) (ledger.leave .acknowledged (· ∈ sequences)) := by
  refine Booked.settle ?_
  exact h.drop .acknowledged _ (foldl_delete s.unackedLiveStarts sequences) rfl rfl

theorem close (h : Booked s ledger) : Booked s.close (follow s ledger .close) := by
  rw [Session.close, follow]
  split_ifs
  · exact h
  · have hkept := h.kept.leave .closed fun _ => true
    rw [List.filter_eq_nil_iff.mpr (fun _ _ => Bool.not_eq_true _ ▸ rfl)] at hkept
    exact ⟨.nil, hkept, fun hsome => absurd rfl hsome, fun hsome => absurd rfl hsome⟩

theorem step (h : Booked s ledger) {l : Label} (hstep : LiveStart.step s l = some t) :
    Booked t (follow s ledger l) := by
  cases l with
  | connect =>
    obtain rfl := Option.some.inj hstep
    rw [Session.connect]
    split_ifs
    · exact h
    · exact h.of_same ⟨rfl, rfl, rfl⟩
  | camId addr =>
    simp only [LiveStart.step] at hstep
    split_ifs at hstep
    obtain rfl := Option.some.inj hstep
    rw [Session.onConnected]
    split_ifs
    · exact h
    · refine Booked.of_same ?_ (same_sendCommand _)
      exact ⟨h.distinct, h.kept, fun _ => rfl, h.ticks⟩
  | level2Ready generation =>
    obtain rfl := Option.some.inj hstep
    split_ifs
    · exact h
    · exact h.of_same ⟨rfl, rfl, rfl⟩
  | startLiveMedia channel homeBaseAttached force now fits =>
    obtain rfl := Option.some.inj hstep
    cases hretains : s.retains channel homeBaseAttached force fits with
    | true =>
      rw [follow, if_pos hretains]
      exact h.retain (startLiveMedia_retains now hretains)
    | false =>
      rw [follow, hretains, if_neg Bool.false_ne_true]
      exact h.of_same (startLiveMedia_same now hretains)
  | stopLiveMedia channel =>
    obtain rfl := Option.some.inj hstep
    exact h.stop channel
  | ack sequences =>
    obtain rfl := Option.some.inj hstep
    exact h.ack sequences
  | sweep now =>
    simp only [LiveStart.step] at hstep
    split_ifs at hstep
    obtain rfl := Option.some.inj hstep
    exact h.sweep now
  | command =>
    obtain rfl := Option.some.inj hstep
    exact h.of_same (same_sendCommand s)
  | close =>
    obtain rfl := Option.some.inj hstep
    exact h.close
  | closeBehind =>
    simp only [LiveStart.step] at hstep
    split_ifs at hstep
    obtain rfl := Option.some.inj hstep
    exact h.of_same ⟨rfl, rfl, rfl⟩

end Booked

/-- **At most one start of a channel is outstanding.** Behind every run of calls and turns of sweeps
no two retained starts are of one channel, a forced start of a channel with one changes nothing,
and the ticker runs while there is any. Every start that was retained is either still there or has
been dropped, once, for one of the causes. -/
theorem one_start_per_channel {moves : List Move} {b : Book}
    (h : exec Book.step {} moves = some b) :
    (b.session.unackedLiveStarts.map fun e => e.2.channel).Nodup ∧
      b.ledger.Kept (b.session.unackedLiveStarts.map Prod.fst) ∧
      (b.session.unackedLiveStarts ≠ [] → b.session.liveStartRetransmitTimer = true) ∧
      ∀ e ∈ b.session.unackedLiveStarts, ∀ now fits,
        b.session.startLiveMedia e.2.channel false true now fits = b.session := by
  have hbooked : Booked b.session b.ledger := by
    refine (run_of_exec h).invariant (P := fun b => Booked b.session b.ledger) .init ?_
    rintro b (l | ⟨sequence, now⟩) c hb hstep
    · obtain ⟨t, ht, rfl⟩ := Option.map_eq_some_iff.mp hstep
      exact hb.step ht
    · obtain ⟨e, he, rfl⟩ := Option.map_eq_some_iff.mp hstep
      exact hb.turn (mem_of_get he)
  refine ⟨hbooked.distinct.channels, hbooked.kept, hbooked.ticks, fun e he now fits => ?_⟩
  have hyields : b.session.yields e.2.channel true = true := by
    rw [Session.yields, Bool.true_and, List.any_eq_true]
    exact ⟨e, he, decide_eq_true rfl⟩
  rw [Session.startLiveMedia, if_neg Bool.false_ne_true, if_pos hyields]

/-- Starts of two channels, one of them twice and acknowledged late, the other given up. -/
def busyStarts : List Move :=
  [.call .connect, .call (.camId ⟨"10.0.0.2", 32108⟩),
    .call (.startLiveMedia 0 false false 0 true), .call (.startLiveMedia 1 false false 10 true),
    .call (.level2Ready 1), .call (.startLiveMedia 0 false false 100 true),
    .call (.ack [1]), .call (.ack [1, 3, 3]), .call (.sweep 200), .turn 2 3200]

theorem one_start_per_channel_busy :
    (exec Book.step {} busyStarts).map (fun b => b.ledger) =
        some ⟨[], [(1, .abandoned), (2, .acknowledged), (0, .replaced)], 3⟩ ∧
      ∀ b, exec Book.step {} busyStarts = some b →
        (b.session.unackedLiveStarts.map fun e => e.2.channel).Nodup :=
  ⟨by decide, fun _ h => (one_start_per_channel h).1⟩

/-- A start that nothing answers is still outstanding when the session is closed. -/
def closedStart : List Move :=
  [.call .connect, .call (.camId ⟨"10.0.0.2", 32108⟩),
    .call (.startLiveMedia 0 false false 0 true), .call .close]

/-- Closing drops a start that is not acknowledged, given up, stopped or replaced. -/
theorem closed_start_dropped :
    ¬∀ moves b, exec Book.step {} moves = some b → ∀ e ∈ b.ledger.left,
      e.2 = .acknowledged ∨ e.2 = .abandoned ∨ e.2 = .stopped ∨ e.2 = .replaced := by
  intro hclaim
  have hleft : (exec Book.step {} closedStart).map (fun b => b.ledger.left) =
      some [(0, .closed)] := by decide
  obtain ⟨b, hb, heq⟩ := Option.map_eq_some_iff.mp hleft
  have hcause := hclaim closedStart b hb (0, .closed) (heq ▸ List.mem_singleton_self _)
  rcases hcause with h | h | h | h <;> cases h

end EufySdk.LiveStart
