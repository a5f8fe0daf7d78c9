import Mathlib.Tactic
import EufySdk.Transport.P2p.SourceCache

/-!
# The drop a failed start leaves behind

A standalone device whose live start failed has its session closed first, and its source
dropped when the close is over. The drop goes by key: it disposes whatever is cached for the
channel by then.

- `Noted` — the router, and how many sources there were when each of its calls began
- `Noted.SparesReplacement` — a drop leaves the sources alone that were created since
- `sparesReplacement_iff` — the runs in which every drop does
-/

namespace EufySdk.P2PCommandRouter

open Machine SharedLiveSource

/-! ## Calls are only added -/

namespace Station

variable (w : Station)

theorem tasks_close : w.close.tasks = w.tasks := by
  unfold close closeSession?
  split
  · rfl
  · rfl

theorem tasks_autoClose : w.autoClose.tasks = w.tasks := by
  unfold autoClose
  split
  · rfl
  · rfl

theorem tasks_release : w.release.tasks = w.tasks := by
  unfold release
  dsimp only
  split
  · exact tasks_autoClose _
  · rfl

theorem tasks_disposeSource (i : ℕ) : (w.disposeSource i).tasks = w.tasks := by
  unfold disposeSource
  dsimp only
  split
  · exact tasks_release _
  · rfl

theorem tasks_dropLiveSource (channel : ℕ) : (w.dropLiveSource channel).tasks = w.tasks := by
  unfold dropLiveSource
  split
  · exact tasks_disposeSource w _
  · rfl

theorem tasks_dropStopped (channel : ℕ) : (w.dropStopped channel).tasks = w.tasks := by
  unfold dropStopped
  split
  · exact tasks_dropLiveSource w channel
  · rfl

theorem length_setStage (t : ℕ) (stage : Stage) :
    (w.setStage t stage).tasks.length = w.tasks.length :=
  List.length_modify ..

theorem length_acquire (t : ℕ) : (w.acquire t).tasks.length = w.tasks.length := by
  unfold acquire
  dsimp only
  split
  · split
    · exact length_setStage ..
    · split
      · exact length_setStage ..
      · exact length_setStage ..
  · rfl

theorem length_begin (purpose : Purpose) : (w.begin purpose).tasks.length = w.tasks.length + 1 := by
  rw [begin, length_acquire, spawn, List.length_append]
  rfl

theorem length_resume (t : ℕ) (task : Task) : (w.resume t task).tasks.length = w.tasks.length := by
  unfold resume
  split
  · exact length_setStage ..
  · split
    · exact length_setStage ..
    · split
      · exact (List.length_modify ..).trans (congrArg List.length (tasks_close w))
      · exact length_setStage ..

theorem length_afterClose (t : ℕ) (task : Task) :
    (w.afterClose t task).tasks.length = w.tasks.length := by
  unfold afterClose
  split
  · rw [length_setStage, tasks_dropLiveSource]
  · exact length_acquire w t

theorem tasks_handOver (device : Device) (session : ℕ) :
    (w.handOver device session).1.tasks = w.tasks := by
  unfold handOver
  dsimp only
  split
  · exact tasks_dropStopped w _
  · split
    · exact tasks_dropStopped w _
    · exact tasks_dropStopped w _

theorem tasks_replaced (source session : ℕ) : (w.replaced source session).tasks = w.tasks := by
  unfold replaced
  split
  · split
    · rfl
    · rfl
  · rfl

theorem length_proceed (t : ℕ) (purpose : Purpose) (session : ℕ) :
    (w.proceed t purpose session).tasks.length = w.tasks.length := by
  unfold proceed
  split
  · rw [length_setStage, tasks_handOver]
  · rw [length_setStage, tasks_replaced]
  · exact length_setStage ..

theorem tasks_detach (i : ℕ) (s : Source) : (w.detach i s).tasks = w.tasks := by
  unfold detach
  dsimp only
  split
  · exact tasks_release _
  · rfl

theorem tasks_attach (i : ℕ) (s : Source) : (w.attach i s).tasks = w.tasks := by
  unfold attach
  dsimp only
  split
  · rfl
  · rfl

theorem length_onLiveStartFailed (device : Device) :
    w.tasks.length ≤ (w.onLiveStartFailed device).tasks.length := by
  unfold onLiveStartFailed
  split
  · rw [spawn, List.length_append, tasks_close]
    exact Nat.le_add_right ..
  · rw [tasks_dropLiveSource]

theorem length_teardownSource (i : ℕ) : w.tasks.length ≤ (w.teardownSource i).tasks.length := by
  unfold teardownSource
  split
  · dsimp only
    split
    · exact length_onLiveStartFailed (w.modifySource i Source.teardown) _
    · exact le_rfl
  · exact le_rfl

theorem length_unacknowledged (i : ℕ) (s : LiveSource) :
    w.tasks.length ≤ (w.unacknowledged i s).tasks.length := by
  unfold unacknowledged
  split
  · dsimp only
    split
    · rw [spawn, List.length_append, tasks_close]
      exact Nat.le_add_right ..
    · exact le_rfl
  · exact le_rfl

end Station

theorem length_tasks_step {w v : Station} {label : Label} (hstep : step w label = some v) :
    w.tasks.length ≤ v.tasks.length := by
  cases transition_of_step hstep with
  | live | command | ensureStation => exact Nat.le.intro (w.length_begin _).symm
  | prewarm =>
    exact Nat.le.intro (Station.length_begin { w with manager := w.manager.hold } .open).symm
  | bound | boundLate | openFails => exact (List.length_map _).ge
  | resume => exact (w.length_resume _ _).ge
  | ready | gaveUp => exact (w.length_setStage _ _).ge
  | afterClose => exact (w.length_afterClose _ _).ge
  | proceed => exact (w.length_proceed _ _ _).ge
  | attach => rw [w.tasks_attach]
  | detach => rw [w.tasks_detach]
  | teardown => exact w.length_teardownSource _
  | unacknowledged => exact w.length_unacknowledged _ _
  | holdExpires => rw [Station.tasks_release]
  | idleCloses | resetNow => rw [Station.tasks_autoClose]
  | _ => exact le_rfl

/-! ## Drops -/

/-- The router, and for each of its calls how many sources there were when it began. -/
structure Noted where
  station : Station := {}
  born : List ℕ := []
  deriving DecidableEq

namespace Noted

def step (x : Noted) (label : Label) : Option Noted :=
  (P2PCommandRouter.step x.station label).map fun v =>
    ⟨v, x.born ++ List.replicate (v.tasks.length - x.station.tasks.length) x.station.sources.length⟩

/-- The drop of a failed start leaves the sources as they are that were created for its key
since the failure. -/
def SparesReplacement (x : Noted) (label : Label) : Prop :=
  ∀ t channel rebuilt n v, label = .afterClose t →
    x.station.tasks[t]? = some ⟨.drop channel, rebuilt, .closing⟩ → x.born[t]? = some n →
    P2PCommandRouter.step x.station label = some v →
    ∀ (j : ℕ) s, n ≤ j → x.station.sources[j]? = some s → s.device.channel = channel →
      v.sources[j]? = some s

/-- What is cached for the key when the close is over is no source created since the failure. -/
def NotReplaced (x : Noted) (label : Label) : Prop :=
  ∀ t channel rebuilt n, label = .afterClose t →
    x.station.tasks[t]? = some ⟨.drop channel, rebuilt, .closing⟩ → x.born[t]? = some n →
    ∀ i, x.station.liveSource? channel = some i → i < n

/-- Every call is noted. -/
structure Aligned (x : Noted) : Prop where
  cached : Cached x.station
  length : x.born.length = x.station.tasks.length

theorem Aligned.step {x y : Noted} {label : Label} (h : x.Aligned)
    (hstep : x.step label = some y) : y.Aligned := by
  obtain ⟨v, hv, rfl⟩ := Option.map_eq_some_iff.mp hstep
  refine ⟨h.cached.step hv, ?_⟩
  have hlength := length_tasks_step hv
  rw [List.length_append, List.length_replicate, h.length]
  exact Nat.add_sub_cancel' hlength

theorem sparesReplacement_iff_notReplaced {x : Noted} (h : x.Aligned) (label : Label) :
    x.SparesReplacement label ↔ x.NotReplaced label := by
  have hdrop : ∀ {t channel : ℕ} {rebuilt : Bool},
      x.station.tasks[t]? = some ⟨.drop channel, rebuilt, .closing⟩ →
        P2PCommandRouter.step x.station (.afterClose t) =
          some ((x.station.dropLiveSource channel).setStage t .done) := by
    intro t channel rebuilt htask
    simp only [P2PCommandRouter.step, htask, if_true, Station.afterClose]
  constructor
  · rintro hspares t channel rebuilt n rfl htask hborn i hlive
    by_contra hn
    obtain ⟨s, hs, hcached, hchannel⟩ := liveSource?_eq_some hlive
    have hkept := hspares t channel rebuilt n _ rfl htask hborn (hdrop htask) i s
      (Nat.le_of_not_lt hn) hs hchannel
    have hgone := h.cached.dropLiveSource_get hs hchannel
    rw [if_pos hlive] at hgone
    have hsame : s.drop = s := Option.some.inj (hgone.symm.trans hkept)
    rw [← hsame] at hcached
    cases hcached
  · rintro hnot t channel rebuilt n v rfl htask hborn hstep j s hj hs hchannel
    obtain rfl := Option.some.inj ((hdrop htask).symm.trans hstep)
    refine (h.cached.dropLiveSource_get hs hchannel).trans ?_
    rw [if_neg fun hlive => (hnot t channel rebuilt n rfl htask hborn j hlive).not_ge hj]

/-- **A failed start disposes only itself, in exactly the runs in which no source has taken the
place of the failed one by the time its session is closed.** -/
theorem sparesReplacement_iff (labels : List Label) :
    StepsMeet step SparesReplacement {} labels ↔ StepsMeet step NotReplaced {} labels := by
  refine stepsMeet_congr (J := Aligned) ⟨.start, rfl⟩ ?_ ?_
  · exact fun x label h => sparesReplacement_iff_notReplaced h label
  · exact fun x label y h _ hstep => h.step hstep

/-- A live start of a standalone camera fails while another call for it has its session, which
builds the source anew before the close of the failed one is over. -/
def replacedBeforeDrop : List Label :=
  [.live sampleCamera, .register 0, .bound 0, .resume 0, .connects 0, .ready 0, .proceed 0,
    .attach 0, .live sampleCamera, .resume 1, .ready 1, .teardown 0, .proceed 1, .attach 1]

/-- The drop of the first source disposes the second one, and its consumer is stopped. -/
theorem drop_disposes_replacement :
    ∃ x v, exec step {} replacedBeforeDrop = some x ∧
      P2PCommandRouter.step x.station (.afterClose 2) = some v ∧ x.born[2]? = some 1 ∧
      (x.station.sources[1]?).map (fun s => s.source.consumers) = some 1 ∧
      (v.sources[1]?).map (fun s => (s.source.consumers, s.source.disposed)) = some (0, true) ∧
      ¬StepsMeet step SparesReplacement {} (replacedBeforeDrop ++ [.afterClose 2]) := by
  refine ⟨_, _, rfl, rfl, rfl, rfl, rfl, fun h => ?_⟩
  have hkept := h.meets rfl 2 _ _ _ _ rfl rfl rfl rfl 1 _ le_rfl rfl rfl
  cases hkept

end Noted

end EufySdk.P2PCommandRouter
