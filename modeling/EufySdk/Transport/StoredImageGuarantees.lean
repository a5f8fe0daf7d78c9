import Mathlib.Tactic
import EufySdk.Lib.Lists
import EufySdk.Lib.Machine
import EufySdk.Transport.StoredImageCache

/-!
# What the stored-image cache guarantees

The invariants of the cache over every interleaving of observed URLs, ends of downloads and
clears.

- `Sound` — what holds between any two operations
- `Filled` — no device waits while a slot is free for it, behind every `pump`
- `stored_images` — the guarantees over whole runs
-/

namespace EufySdk.StoredImages

open Bytes Machine

/-- What has happened since the last clear. -/
def sinceClear (log : List Event) : List Event := log.takeWhile fun e => e ≠ .cleared

@[simp] theorem sinceClear_cleared (log : List Event) : sinceClear (.cleared :: log) = [] := by
  simp [sinceClear]

theorem sinceClear_cons {e : Event} (h : e ≠ .cleared) (log : List Event) :
    sinceClear (e :: log) = e :: sinceClear log :=
  List.takeWhile_cons_of_pos (by simpa using h)

theorem mem_sinceClear_cons {d e : Event} {log : List Event} (he : e ≠ .cleared)
    (h : d ∈ sinceClear log) : d ∈ sinceClear (e :: log) := by
  rw [sinceClear_cons he]
  exact List.mem_cons_of_mem _ h

variable {ε : Type} {isLifecycleError : ε → Bool}

/-- The devices as a lookup finds them, each under its own key. -/
structure Keyed (s : Cache ε) : Prop where
  keys : (s.devices.map Prod.fst).Nodup
  deviceKey : ∀ {k : String} {state : DeviceState ε}, OrderedMap.get s.devices k = some state →
    state.deviceKey = k
  queued : ∀ {k : String} {state : DeviceState ε} {c : Candidate},
    OrderedMap.get s.devices k = some state → state.queued = some c →
    c.deviceKey = k ∧ c.generation = s.generation

/-- The slots as the downloads under way take them. -/
structure Slotted (s : Cache ε) : Prop where
  counted : s.activeDownloads = s.downloads.length
  active : ∀ k, k ∈ s.activeDevices ↔ k ∈ s.downloads.map Candidate.deviceKey
  alone : (s.downloads.map Candidate.deviceKey).Nodup
  two : s.downloads.length ≤ 2

/-- What the log tells of the images and the downloads of this generation. -/
structure Logged (s : Cache ε) : Prop where
  began : ∀ c ∈ s.downloads, c.generation ≤ s.generation ∧
    (c.generation = s.generation → .began c ∈ sinceClear s.log)
  retained : ∀ {k : String} {state : DeviceState ε} {r : Retained},
    OrderedMap.get s.devices k = some state → state.retained = some r →
    ∃ c, .stored c r.image ∈ sinceClear s.log ∧ .began c ∈ sinceClear s.log ∧
      c.deviceKey = k ∧ c.sequence = r.sequence
  stored : ∀ {c : Candidate} {image : Buffer} {after before : List Event},
    s.log = after ++ .stored c image :: before → .began c ∈ sinceClear before

structure Sound (s : Cache ε) : Prop extends Keyed s, Slotted s, Logged s

/-- Whoever waits, waits for a slot. -/
def Filled (s : Cache ε) : Prop :=
  ∀ {k : String} {state : DeviceState ε}, OrderedMap.get s.devices k = some state →
    state.queued.isSome → 2 ≤ s.activeDownloads ∨ k ∈ s.activeDevices

/-! ## Starting downloads -/

/-- The device that comes next waits for its own slot no more. -/
theorem next_eq_some {s : Cache ε} (h : Keyed s) {c : Candidate} {state : DeviceState ε}
    (hnext : s.next = some (c, state)) :
    OrderedMap.get s.devices c.deviceKey = some state ∧ state.deviceKey = c.deviceKey ∧
      state.queued = some c ∧ c.deviceKey ∉ s.activeDevices := by
  obtain ⟨⟨k, st⟩, hmem, hentry⟩ := List.exists_of_findSome?_eq_some hnext
  have hget := OrderedMap.get_of_mem h.keys hmem
  dsimp only at hentry
  split at hentry
  · rename_i candidate hqueued
    split at hentry
    · cases hentry
    · rename_i hidle
      cases hentry
      have hkey := (h.queued hget hqueued).1
      have hdevice := h.deviceKey hget
      rw [hkey]
      exact ⟨hget, hdevice, hqueued, hdevice ▸ hidle⟩
  · cases hentry

theorem next_eq_none {s : Cache ε} (h : Keyed s) (hnext : s.next = none) {k : String}
    {state : DeviceState ε} (hget : OrderedMap.get s.devices k = some state)
    (hqueued : state.queued.isSome) : k ∈ s.activeDevices := by
  have hentry := List.findSome?_eq_none_iff.mp hnext _ (OrderedMap.mem_of_get hget)
  obtain ⟨c, hc⟩ := Option.isSome_iff_exists.mp hqueued
  dsimp only at hentry
  rw [hc] at hentry
  by_contra hidle
  rw [← h.deviceKey hget] at hidle
  simp [hidle] at hentry

theorem sound_start {s : Cache ε} (h : Sound s) (hfree : s.activeDownloads < 2) {c : Candidate}
    {state : DeviceState ε} (hnext : s.next = some (c, state)) : Sound (s.start c state) := by
  obtain ⟨hget, hdevice, hqueued, hidle⟩ := next_eq_some h.toKeyed hnext
  have hlookup : ∀ {k : String} {st : DeviceState ε},
      OrderedMap.get (s.start c state).devices k = some st →
      (k = c.deviceKey ∧ st = { state with queued := none, inFlight := some c }) ∨
        OrderedMap.get s.devices k = some st := by
    intro k st hst
    rw [Cache.start, OrderedMap.get_set] at hst
    split at hst
    · rename_i hk
      exact .inl ⟨hk.symm.trans hdevice, (Option.some.inj hst).symm⟩
    · exact .inr hst
  have hgone : c.deviceKey ∉ s.downloads.map Candidate.deviceKey :=
    fun hmem => hidle ((h.active _).mpr hmem)
  constructor
  · refine ⟨OrderedMap.nodup_set h.keys, fun hst => ?_, fun hst hq => ?_⟩
    · obtain ⟨rfl, rfl⟩ | hold := hlookup hst
      · exact hdevice
      · exact h.deviceKey hold
    · obtain ⟨rfl, rfl⟩ | hold := hlookup hst
      · cases hq
      · exact h.queued hold hq
  · refine ⟨?_, fun k => ?_, ?_, ?_⟩
    · rw [Cache.start, List.length_append, h.counted]
      rfl
    · rw [Cache.start, List.mem_insert_iff, h.active k, List.map_append, List.mem_append, or_comm]
      simp
    · rw [Cache.start, List.map_append]
      exact h.alone.append (List.nodup_singleton _) (by simpa using hgone)
    · rw [Cache.start, List.length_append, ← h.counted]
      exact hfree
  · refine ⟨fun d hd => ?_, fun {k st r} hst hr => ?_, fun {d image after before} hlog => ?_⟩
    · rw [Cache.start, List.mem_append, List.mem_singleton] at hd
      obtain hd | rfl := hd
      · obtain ⟨hle, hbegan⟩ := h.began d hd
        exact ⟨hle, fun heq => mem_sinceClear_cons nofun (hbegan heq)⟩
      · refine ⟨(h.queued hget hqueued).2.le, fun _ => ?_⟩
        have hlog : sinceClear (s.start d state).log = .began d :: sinceClear s.log :=
          sinceClear_cons (by exact nofun) s.log
        rw [hlog]
        exact List.mem_cons_self
    · obtain ⟨st', hst', hr'⟩ :
          ∃ st', OrderedMap.get s.devices k = some st' ∧ st'.retained = some r := by
        obtain ⟨rfl, rfl⟩ | hold := hlookup hst
        · exact ⟨state, hget, hr⟩
        · exact ⟨_, hold, hr⟩
      obtain ⟨d, hstored, hbegan, hd⟩ := h.retained hst' hr'
      exact ⟨d, mem_sinceClear_cons nofun hstored, mem_sinceClear_cons nofun hbegan, hd⟩
    · cases after with
      | nil => cases hlog
      | cons e after =>
        obtain ⟨-, hlog⟩ := List.cons.inj hlog
        exact h.stored hlog

/-- The loop ends with every free slot offered around. -/
theorem sound_fill (slots : ℕ) {s : Cache ε} (h : Sound s)
    (hslots : slots = 2 - s.activeDownloads) :
    Sound (Cache.fill slots s) ∧ Filled (Cache.fill slots s) := by
  induction slots generalizing s with
  | zero =>
    rw [Cache.fill]
    exact ⟨h, fun _ _ => .inl (by omega)⟩
  | succ slots ih =>
    rw [Cache.fill]
    cases hnext : s.next with
    | none => exact ⟨h, fun hget hqueued => .inr (next_eq_none h.toKeyed hnext hget hqueued)⟩
    | some entry =>
      obtain ⟨c, state⟩ := entry
      refine ih (sound_start h (by omega) hnext) ?_
      have hcount : (s.start c state).activeDownloads = s.activeDownloads + 1 := rfl
      omega

theorem sound_pump {s : Cache ε} (h : Sound s) : Sound s.pump ∧ Filled s.pump :=
  sound_fill _ h rfl

/-! ## Images -/

/-- What a device keeps. -/
def retainedOf (s : Cache ε) (k : String) : Option Retained :=
  (OrderedMap.get s.devices k).bind DeviceState.retained

theorem retainedOf_start {s : Cache ε} (h : Keyed s) {c : Candidate} {state : DeviceState ε}
    (hnext : s.next = some (c, state)) (k : String) :
    retainedOf (s.start c state) k = retainedOf s k := by
  obtain ⟨hget, hdevice, -, -⟩ := next_eq_some h hnext
  rw [retainedOf, Cache.start, OrderedMap.get_set]
  by_cases hk : state.deviceKey = k
  · rw [if_pos hk, retainedOf, ← hk, hdevice, hget]
    rfl
  · rw [if_neg hk, retainedOf]

theorem retainedOf_fill (slots : ℕ) {s : Cache ε} (h : Sound s)
    (hslots : slots = 2 - s.activeDownloads) (k : String) :
    retainedOf (Cache.fill slots s) k = retainedOf s k := by
  induction slots generalizing s with
  | zero => rfl
  | succ slots ih =>
    rw [Cache.fill]
    cases hnext : s.next with
    | none => rfl
    | some entry =>
      obtain ⟨c, state⟩ := entry
      have hcount : (s.start c state).activeDownloads = s.activeDownloads + 1 := rfl
      exact (ih (sound_start h (by omega) hnext) (by omega)).trans
        (retainedOf_start h.toKeyed hnext k)

theorem retainedOf_pump {s : Cache ε} (h : Sound s) (k : String) :
    retainedOf s.pump k = retainedOf s k :=
  retainedOf_fill _ h rfl k

theorem diagnose_eq (state : DeviceState ε) (c : Candidate)
    (failure : StoredSnapshotUnavailableReason) (now : ℤ) :
    ∃ logged, (state.diagnose c failure now).1 = { state with loggedFailures := logged } := by
  rw [DeviceState.diagnose]
  split
  · exact ⟨state.loggedFailures, rfl⟩
  · exact ⟨_, rfl⟩

/-- The end of a download keeps what its device has, or puts a newer image in its place. -/
theorem settle_spec (isLifecycleError : ε → Bool) (state : DeviceState ε) (c : Candidate) (now : ℤ)
    (download : Download ε) :
    (state.settle isLifecycleError c now download).1.deviceKey = state.deviceKey ∧
      (state.settle isLifecycleError c now download).1.queued = state.queued ∧
      ((state.settle isLifecycleError c now download).1.retained = state.retained ∨
        ∃ image, (state.settle isLifecycleError c now download).1.retained =
          some ⟨c.sequence, image⟩ ∧ ∀ r, state.retained = some r → r.sequence < c.sequence) := by
  have hfail : ∀ failure, (state.fail c failure now).1.deviceKey = state.deviceKey ∧
      (state.fail c failure now).1.queued = state.queued ∧
      (state.fail c failure now).1.retained = state.retained := by
    intro failure
    obtain ⟨logged, heq⟩ := diagnose_eq
      { state with lifecycleError := none, reason := some failure } c failure now
    rw [DeviceState.fail, heq]
    exact ⟨rfl, rfl, rfl⟩
  cases download with
  | rejected error =>
    cases error with
    | none => exact ⟨(hfail _).1, (hfail _).2.1, .inl (hfail _).2.2⟩
    | some error =>
      rw [DeviceState.settle]
      split
      · exact ⟨rfl, rfl, .inl rfl⟩
      · exact ⟨(hfail _).1, (hfail _).2.1, .inl (hfail _).2.2⟩
  | image image =>
    rw [DeviceState.settle]
    split
    · exact ⟨(hfail _).1, (hfail _).2.1, .inl (hfail _).2.2⟩
    split
    · rename_i hnewer
      refine ⟨rfl, rfl, .inr ⟨image, rfl, fun r hr => ?_⟩⟩
      simpa [hr] using hnewer
    · exact ⟨rfl, rfl, .inl rfl⟩

theorem storedBy_self (c : Candidate) (kept : Option Retained) :
    Cache.storedBy c kept kept = [] := by
  cases kept with
  | none => rfl
  | some r => exact if_pos rfl

theorem storedBy_of_newer {c : Candidate} {kept : Option Retained} (image : Buffer)
    (hnewer : ∀ r, kept = some r → r.sequence < c.sequence) :
    Cache.storedBy c kept (some ⟨c.sequence, image⟩) = [.stored c image] :=
  if_neg fun hsame => lt_irrefl _ (hnewer _ hsame)

/-- Setting a device that was found leaves the devices in order. -/
theorem keyed_set {s t : Cache ε} (h : Keyed s) {k : String} {state state' : DeviceState ε}
    (hget : OrderedMap.get s.devices k = some state)
    (hdevices : t.devices = OrderedMap.set s.devices k state')
    (hgeneration : t.generation = s.generation) (hdevice : state'.deviceKey = state.deviceKey)
    (hqueued : state'.queued = state.queued) : Keyed t where
  keys := by
    rw [hdevices]
    exact OrderedMap.nodup_set h.keys
  deviceKey := fun {k' st} hst => by
    rw [hdevices, OrderedMap.get_set] at hst
    split at hst
    · rename_i hk
      obtain rfl := Option.some.inj hst
      rw [hdevice, ← hk]
      exact h.deviceKey hget
    · exact h.deviceKey hst
  queued := fun {k' st c} hst hq => by
    rw [hgeneration]
    rw [hdevices, OrderedMap.get_set] at hst
    split at hst
    · rename_i hk
      obtain rfl := Option.some.inj hst
      rw [← hk]
      exact h.queued hget (hqueued ▸ hq)
    · exact h.queued hst hq

/-- The device of a download that ends, with what it keeps from it. -/
theorem sound_completed (isLifecycleError : ε → Bool) {s : Cache ε} (h : Sound s) (c : Candidate)
    (download : Download ε) (now : ℤ)
    (hbegan : c.generation = s.generation → .began c ∈ sinceClear s.log) :
    Sound (s.completed isLifecycleError c download now) ∧
      ∀ k r, retainedOf s k = some r →
        ∃ r', retainedOf (s.completed isLifecycleError c download now) k = some r' ∧
          (r' = r ∨ r.sequence < r'.sequence) := by
  have hsame : ∀ k r, retainedOf s k = some r →
      ∃ r', retainedOf s k = some r' ∧ (r' = r ∨ r.sequence < r'.sequence) :=
    fun k r hr => ⟨r, hr, .inl rfl⟩
  rw [Cache.completed]
  split
  · exact ⟨h, hsame⟩
  rename_i state hget
  split
  · rename_i hlive
    obtain ⟨hdevice, hqueued, hretained⟩ :=
      settle_spec isLifecycleError { state with inFlight := none } c now download
    dsimp only at hdevice hqueued hretained ⊢
    generalize DeviceState.settle isLifecycleError { state with inFlight := none } c now
      download = settled at hdevice hqueued hretained ⊢
    refine ⟨⟨keyed_set h.toKeyed hget rfl rfl hdevice hqueued, ⟨h.counted, h.active, h.alone,
      h.two⟩, ?_⟩, ?_⟩
    · obtain hkept | ⟨image, himage, hnewer⟩ := hretained
      · rw [hkept, storedBy_self]
        refine ⟨h.began, fun {k st r} hst hr => ?_, h.stored⟩
        rw [OrderedMap.get_set] at hst
        split at hst
        · rename_i hk
          obtain rfl := Option.some.inj hst
          rw [← hk]
          exact h.retained hget (hkept ▸ hr)
        · exact h.retained hst hr
      · rw [himage, storedBy_of_newer image hnewer]
        refine ⟨fun d hd => ?_, fun {k st r} hst hr => ?_, fun {d image' after before} hlog => ?_⟩
        · exact ⟨(h.began d hd).1, fun hd' => mem_sinceClear_cons nofun ((h.began d hd).2 hd')⟩
        · rw [OrderedMap.get_set] at hst
          split at hst
          · rename_i hk
            obtain rfl := Option.some.inj hst
            obtain rfl := Option.some.inj (himage.symm.trans hr)
            refine ⟨c, ?_, mem_sinceClear_cons nofun (hbegan hlive.1), hk, rfl⟩
            rw [List.singleton_append, sinceClear_cons (by exact nofun)]
            exact List.mem_cons_self
          · obtain ⟨d, hstored, hbegan', hd⟩ := h.retained hst hr
            exact ⟨d, mem_sinceClear_cons nofun hstored, mem_sinceClear_cons nofun hbegan', hd⟩
        · cases after with
          | nil =>
            obtain ⟨hfirst, rfl⟩ := List.cons.inj hlog
            cases hfirst
            exact hbegan hlive.1
          | cons e after =>
            obtain ⟨-, hlog⟩ := List.cons.inj hlog
            exact h.stored hlog
    · intro k r hr
      rw [retainedOf, OrderedMap.get_set]
      by_cases hk : c.deviceKey = k
      · subst hk
        rw [retainedOf, hget] at hr
        rw [if_pos rfl]
        obtain hkept | ⟨image, himage, hnewer⟩ := hretained
        · exact ⟨r, hkept.trans hr, .inl rfl⟩
        · exact ⟨_, himage, .inr (hnewer r hr)⟩
      · rw [if_neg hk]
        exact hsame k r hr
  · exact ⟨h, hsame⟩

/-! ## Operations -/

theorem sound_fresh : Sound ({} : Cache ε) where
  keys := List.nodup_nil
  deviceKey := nofun
  queued := nofun
  counted := rfl
  active := fun k => by simp
  alone := List.nodup_nil
  two := Nat.zero_le 2
  began := nofun
  retained := nofun
  stored := fun {c image after before} h => by
    cases after with
    | nil => cases h
    | cons e after => cases h

/-- A new candidate takes the place of the one that waits. -/
theorem sound_queue {s : Cache ε} (h : Sound s) {k : String} {state : DeviceState ε}
    (hstate : OrderedMap.get s.devices k = some state ∨
      OrderedMap.get s.devices k = none ∧ state = { deviceKey := k })
    {c : Candidate} (hkey : c.deviceKey = k) (hgeneration : c.generation = s.generation)
    (seenUrls : List String) (nextSequence : ℕ) :
    Sound { s with
      devices := OrderedMap.set s.devices k
        { state with seenUrls, nextSequence, queued := some c } } := by
  have hdevice : state.deviceKey = k := by
    obtain hget | ⟨-, rfl⟩ := hstate
    · exact h.deviceKey hget
    · rfl
  have hlookup : ∀ {k' : String} {st : DeviceState ε},
      OrderedMap.get (OrderedMap.set s.devices k
        { state with seenUrls, nextSequence, queued := some c }) k' = some st →
      (k = k' ∧ st = { state with seenUrls, nextSequence, queued := some c }) ∨
        OrderedMap.get s.devices k' = some st := by
    intro k' st hst
    rw [OrderedMap.get_set] at hst
    split at hst
    · rename_i hk
      exact .inl ⟨hk, (Option.some.inj hst).symm⟩
    · exact .inr hst
  refine ⟨⟨OrderedMap.nodup_set h.keys, fun {k' st} hst => ?_, fun {k' st d} hst hq => ?_⟩,
    ⟨h.counted, h.active, h.alone, h.two⟩, ⟨h.began, fun {k' st r} hst hr => ?_, h.stored⟩⟩
  · obtain ⟨rfl, rfl⟩ | hold := hlookup hst
    · exact hdevice
    · exact h.deviceKey hold
  · obtain ⟨rfl, rfl⟩ | hold := hlookup hst
    · obtain rfl := Option.some.inj hq
      exact ⟨hkey, hgeneration⟩
    · exact h.queued hold hq
  · obtain ⟨rfl, rfl⟩ | hold := hlookup hst
    · obtain hget | ⟨-, rfl⟩ := hstate
      · exact h.retained hget hr
      · cases hr
    · exact h.retained hold hr

theorem sound_observe {s : Cache ε} (h : Sound s) (hfilled : Filled s) (k url : String) (now : ℤ) :
    Sound (s.observe k url now) ∧ Filled (s.observe k url now) ∧
      ∀ k', retainedOf (s.observe k url now) k' = retainedOf s k' := by
  rw [Cache.observe]
  have hstate : OrderedMap.get s.devices k =
        some ((OrderedMap.get s.devices k).getD { deviceKey := k }) ∨
      OrderedMap.get s.devices k = none ∧
        (OrderedMap.get s.devices k).getD { deviceKey := k } = { deviceKey := k } := by
    cases OrderedMap.get s.devices k with
    | none => exact .inr ⟨rfl, rfl⟩
    | some state => exact .inl rfl
  generalize (OrderedMap.get s.devices k).getD { deviceKey := k } = state at hstate ⊢
  dsimp only
  split
  · exact ⟨h, hfilled, fun _ => rfl⟩
  · have hqueue := sound_queue h hstate
      (c := ⟨k, url, state.nextSequence + 1, now, s.generation⟩) rfl rfl
      (state.seenUrls ++ [url]) (state.nextSequence + 1)
    refine ⟨(sound_pump hqueue).1, (sound_pump hqueue).2, fun k' => ?_⟩
    rw [retainedOf_pump hqueue, retainedOf, OrderedMap.get_set, retainedOf]
    by_cases hk : k = k'
    · subst hk
      rw [if_pos rfl]
      obtain hget | ⟨hnone, rfl⟩ := hstate
      · rw [hget]
        rfl
      · rw [hnone]
        rfl
    · rw [if_neg hk]

theorem sound_clear {s : Cache ε} (h : Sound s) : Sound s.clear ∧ Filled s.clear := by
  refine ⟨⟨⟨List.nodup_nil, nofun, nofun⟩, ⟨h.counted, h.active, h.alone, h.two⟩,
    ⟨fun c hc => ?_, nofun, fun {c image after before} hlog => ?_⟩⟩, nofun⟩
  · have hle := (h.began c hc).1
    have hgeneration : s.clear.generation = s.generation + 1 := rfl
    exact ⟨by omega, fun heq => by omega⟩
  · cases after with
    | nil => cases hlog
    | cons e after =>
      obtain ⟨-, hlog⟩ := List.cons.inj hlog
      exact h.stored hlog

/-- The slot of a download that ends is free again, and no other. -/
theorem slotted_eraseIdx {s : Cache ε} (h : Slotted s) {i : ℕ} {c : Candidate}
    (hc : s.downloads[i]? = some c) :
    Slotted { s with
      activeDownloads := s.activeDownloads - 1
      activeDevices := s.activeDevices.filter fun key => key ≠ c.deviceKey
      downloads := s.downloads.eraseIdx i } := by
  have hi : i < s.downloads.length := (List.getElem?_eq_some_iff.mp hc).1
  have hkey : (s.downloads.map Candidate.deviceKey)[i]? = some c.deviceKey := by
    rw [List.getElem?_map, hc]
    rfl
  have hmap : (s.downloads.eraseIdx i).map Candidate.deviceKey =
      (s.downloads.map Candidate.deviceKey).eraseIdx i := by
    rw [List.eraseIdx_map]
  refine ⟨?_, fun k => ?_, ?_, ?_⟩
  · rw [List.length_eraseIdx_of_lt hi, h.counted]
  · rw [List.mem_filter, h.active k, hmap, Lists.mem_eraseIdx_of_nodup h.alone hkey]
    simp
  · rw [hmap]
    exact h.alone.sublist (List.eraseIdx_sublist _ _)
  · rw [List.length_eraseIdx_of_lt hi]
    have htwo := h.two
    omega

theorem sound_complete {s : Cache ε} (h : Sound s) {i : ℕ} {c : Candidate}
    (hc : s.downloads[i]? = some c) (download : Download ε) (now : ℤ) :
    Sound (s.complete isLifecycleError i c download now) ∧
      Filled (s.complete isLifecycleError i c download now) ∧
      ∀ k r, retainedOf s k = some r →
        ∃ r', retainedOf (s.complete isLifecycleError i c download now) k = some r' ∧
          (r' = r ∨ r.sequence < r'.sequence) := by
  have hfreed : Sound { s with
      activeDownloads := s.activeDownloads - 1
      activeDevices := s.activeDevices.filter fun key => key ≠ c.deviceKey
      downloads := s.downloads.eraseIdx i } :=
    ⟨⟨h.keys, h.deviceKey, h.queued⟩, slotted_eraseIdx h.toSlotted hc,
      ⟨fun d hd => h.began d (List.mem_of_mem_eraseIdx hd), h.retained, h.stored⟩⟩
  have hbegan := (h.began c (List.mem_of_getElem? hc)).2
  obtain ⟨hcompleted, hkept⟩ :=
    sound_completed isLifecycleError hfreed c download now hbegan
  refine ⟨(sound_pump hcompleted).1, (sound_pump hcompleted).2, fun k r hr => ?_⟩
  obtain ⟨r', hr', hnewer⟩ := hkept k r hr
  exact ⟨r', (retainedOf_pump hcompleted k).trans hr', hnewer⟩

theorem sound_step {s t : Cache ε} {a : Label ε} (h : Sound s) (hfilled : Filled s)
    (hstep : step isLifecycleError s a = some t) : Sound t ∧ Filled t := by
  cases a with
  | observe k url now =>
    cases hstep
    exact ⟨(sound_observe h hfilled k url now).1, (sound_observe h hfilled k url now).2.1⟩
  | complete i download now =>
    obtain ⟨c, hc, rfl⟩ := Option.map_eq_some_iff.mp hstep
    exact ⟨(sound_complete h hc download now).1, (sound_complete h hc download now).2.1⟩
  | clear =>
    cases hstep
    exact sound_clear h

/-- What a device keeps gives way to a newer sequence, or to a clear. -/
theorem retained_step {s t : Cache ε} {a : Label ε} (h : Sound s) (hfilled : Filled s)
    (hstep : step isLifecycleError s a = some t) {k : String} {r : Retained}
    (hr : retainedOf s k = some r) :
    a = .clear ∨ ∃ r', retainedOf t k = some r' ∧ (r' = r ∨ r.sequence < r'.sequence) := by
  cases a with
  | observe k' url now =>
    cases hstep
    exact .inr ⟨r, ((sound_observe h hfilled k' url now).2.2 k).trans hr, .inl rfl⟩
  | complete i download now =>
    obtain ⟨c, hc, rfl⟩ := Option.map_eq_some_iff.mp hstep
    exact .inr ((sound_complete h hc download now).2.2 k r hr)
  | clear => exact .inl rfl

/-- What is returned is what the device keeps. -/
theorem retainedOf_of_snapshotStored {s : Cache ε} {k : String} {image : Buffer}
    (h : s.snapshotStored k = .image image) :
    ∃ state r, OrderedMap.get s.devices k = some state ∧ state.retained = some r ∧
      r.image = image := by
  rw [Cache.snapshotStored] at h
  split at h
  · cases h
  · rename_i state hget
    dsimp only at h
    split at h
    · cases h
    · rename_i r _ hr
      cases h
      exact ⟨state, r, hget, hr, rfl⟩
    · cases h

/-! ## Runs -/

/-- The guarantees of a cache between two steps. -/
structure Guaranteed (isLifecycleError : ε → Bool) (s : Cache ε) : Prop where
  two : s.downloads.length ≤ 2
  perDevice : (s.downloads.map Candidate.deviceKey).Nodup
  ordered : ∀ {a : Label ε} {t : Cache ε}, step isLifecycleError s a = some t → a ≠ .clear →
    ∀ {k : String} {r : Retained}, retainedOf s k = some r →
      ∃ r', retainedOf t k = some r' ∧ (r' = r ∨ r.sequence < r'.sequence)
  stored : ∀ {c : Candidate} {image : Buffer} {after before : List Event},
    s.log = after ++ .stored c image :: before → .began c ∈ sinceClear before
  returned : ∀ {k : String} {image : Buffer}, s.snapshotStored k = .image image →
    ∃ c, c.deviceKey = k ∧ .stored c image ∈ sinceClear s.log ∧ .began c ∈ sinceClear s.log
  started : ∀ {k : String} {state : DeviceState ε}, OrderedMap.get s.devices k = some state →
    state.queued.isSome → 2 ≤ s.downloads.length ∨ k ∈ s.downloads.map Candidate.deviceKey

/-- Two downloads at most and one per device, newer images for older ones, no image across a
clear, and no candidate that waits beside a free slot. -/
theorem stored_images {as : List (Label ε)} {s : Cache ε}
    (hrun : exec (step isLifecycleError) {} as = some s) : Guaranteed isLifecycleError s := by
  obtain ⟨h, hfilled⟩ : Sound s ∧ Filled s :=
    @Run.invariant _ _ _ (fun s => Sound s ∧ Filled s) _ _ _ (run_of_exec hrun)
      ⟨sound_fresh, nofun⟩ fun t a u ht hstep => sound_step ht.1 ht.2 hstep
  constructor
  case two => exact h.two
  case perDevice => exact h.alone
  case ordered =>
    intro a t hstep hclear k r hr
    exact (retained_step h hfilled hstep hr).resolve_left hclear
  case stored => exact h.stored
  case returned =>
    intro k image himage
    obtain ⟨state, r, hget, hr, rfl⟩ := retainedOf_of_snapshotStored himage
    obtain ⟨c, hstored, hbegan, hkey, -⟩ := h.retained hget hr
    exact ⟨c, hkey, hstored, hbegan⟩
  case started =>
    intro k state hget hqueued
    have hwaits := hfilled hget hqueued
    rwa [h.counted, h.active] at hwaits

/-- The shortest image `isValidJpeg` accepts. -/
def smallJpeg : Buffer := [0xff, 0xd8, 0xff, 0xff, 0xd9]

/-- Two images of a device, one after the other. -/
def twoImages : List (Label Empty) :=
  [.observe "T8410" "a" 0, .complete 0 (.image smallJpeg) 1, .observe "T8410" "b" 2,
    .complete 0 (.image smallJpeg) 3]

theorem stored_images_two :
    ∃ s, exec (step fun _ : Empty => false) {} twoImages = some s ∧
      Guaranteed (fun _ : Empty => false) s := by
  obtain ⟨s, hs⟩ := Option.isSome_iff_exists.mp
    (by decide : (exec (step fun _ : Empty => false) {} twoImages).isSome)
  exact ⟨s, hs, stored_images hs⟩

/-- A cleared cache counts its sequences from the start. -/
theorem sequence_restarts :
    ¬∀ (as bs : List (Label Empty)) (s t : Cache Empty) (k : String) (r r' : Retained),
      exec (step fun _ : Empty => false) {} as = some s →
      exec (step fun _ : Empty => false) s bs = some t →
      retainedOf s k = some r → retainedOf t k = some r' → r' = r ∨ r.sequence < r'.sequence := by
  intro hclaim
  have hrun : ((exec (step fun _ : Empty => false) {} twoImages).bind fun s =>
      (exec (step fun _ : Empty => false) s
        [.clear, .observe "T8410" "c" 4, .complete 0 (.image smallJpeg) 5]).map fun t =>
        (retainedOf s "T8410", retainedOf t "T8410")) =
      some (some ⟨2, smallJpeg⟩, some ⟨1, smallJpeg⟩) := by
    decide
  obtain ⟨s, hs, hrest⟩ := Option.bind_eq_some_iff.mp hrun
  obtain ⟨t, ht, hkept⟩ := Option.map_eq_some_iff.mp hrest
  obtain ⟨hbefore, hbehind⟩ := Prod.mk.inj hkept
  have hnewer := hclaim _ _ s t "T8410" _ _ hs ht hbefore hbehind
  exact absurd hnewer (by decide)

end EufySdk.StoredImages
