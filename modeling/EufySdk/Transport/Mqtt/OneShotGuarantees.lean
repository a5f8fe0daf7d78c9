import Mathlib.Tactic
import EufySdk.Lib.Lists
import EufySdk.Transport.Mqtt.CommandRouter

/-!
# What a one-shot command does

Whatever the broker, the lock and the clock do, and in whatever order.

- `Carrier` — a connection to an instance that granted the probe, with topics of the device
- `Script` — what a command may have published: one actuation at most
- `OneShot.Inv` — the invariant, a part for each phase
- `oneShot_of_run` — connections, publications and outcomes of every run
-/

namespace EufySdk.Mqtt

open Ff09 Machine

/-- A probe, over, whose SUBSCRIBE to the device's reply topic was granted. -/
structure Client.Grants (device : TopicDevice) (c : Client) : Prop where
  topics : c.topics = [secureTopic device .res]
  granted : c.grants.head?.any (· ≠ SUBACK_FAILURE) = true
  ended : c.ended = true

/-- A connection to the instance of a probe that was granted. -/
def Pinned (device : TopicDevice) (init : List Client) (own : Client) : Prop :=
  ∃ c ∈ init, c.Grants device ∧ c.ip = own.ip

/-- Not every topic was denied. -/
def SomeGranted (device : TopicDevice) (grants : List ℕ) : Prop :=
  (grants.filter (· = SUBACK_FAILURE)).length ≠ (subscribeTopics device).length

/-- A connection to the instance of a probe that was granted, on which the device's own topics were
asked for and not all of them denied. -/
structure Carrier (device : TopicDevice) (init : List Client) (own : Client) : Prop where
  pinned : Pinned device init own
  topics : own.topics = subscribeTopics device
  granted : SomeGranted device own.grants

/-- What a command may have published, up to its end. -/
inductive Script (call : Call) : List Ff09Frame → Prop
  | nothing : Script call []
  | onOff (engage : Bool) (username : Units) (shortUserId : List Char) (clock : Clock)
      (frame : Ff09Frame) (hjob : call.job = .actuate engage username shortUserId)
      (hframe : call.build (.onOff engage (some (username, shortUserId))) clock = .ok frame) :
      Script call [frame]
  | get (clock : Clock) (query : Ff09Frame)
      (hjob : ∀ engage username shortUserId, call.job ≠ .actuate engage username shortUserId)
      (hquery : call.build .getSettings clock = .ok query) : Script call [query]
  /-- The SET is built from a reply that carries the time of the GET. -/
  | set (enabled : Bool) (delaySeconds : Option ℕ) (clock clock' : Clock)
      (query frame : Ff09Frame) (lockPayload : List Char)
      (hjob : call.job = .autolock enabled delaySeconds)
      (hquery : call.build .getSettings clock = .ok query)
      (hframe : call.buildSet enabled delaySeconds ⟨lockPayload, query.time⟩ clock' = .ok frame) :
      Script call [query, frame]

/-- What a job may ask of a lock. -/
def Job.MayAsk : Job → LockRequest → Prop
  | .actuate engage username shortUserId, request =>
    request = .onOff engage (some (ascii username, Hex.decode shortUserId))
  | .autolock enabled delaySeconds, request =>
    request = .getSettings ∨ ∃ delay a7 a8,
      request = .setSettings enabled (delaySeconds.getD delay % 65536) a7 a8
  | .getAutoLockState, request => request = .getSettings

/-- How many frames a command publishes in all. -/
def Job.frames : Job → ℕ
  | .autolock _ _ => 2
  | _ => 1

namespace OneShot

variable {call : Call} {s t : OneShot} {client i : ℕ} {init : List Client} {own : Client}

def frames (s : OneShot) : List Ff09Frame := s.published.map Publication.frame

/-- What a command has come to. -/
structure Done (call : Call) (s : OneShot) (outcome : Outcome) : Prop where
  ended : ∀ c ∈ s.clients, c.ended = true
  script : Script call s.frames
  resolved : outcome = .resolved → s.published.length = call.job.frames ∧ s.acks.length = 1
  state : ∀ snapshot, outcome = .state snapshot →
    s.acks = [] ∧ ∃ query lockPayload, s.frames = [query] ∧
      call.readSnapshot ⟨lockPayload, query.time⟩ = .ok snapshot
  rejected : ∀ e, outcome = .rejected e → s.acks = []
  offline : ∀ n, outcome = .rejected (.noInstance n) →
    n = s.candidates.length ∧ s.results.map ProbeResult.ip = s.candidates ∧
      ∀ r ∈ s.results, r.granted = false

/-- The last connection is the one in use, and the others are ended. -/
structure Dialled (clients : List Client) (client : ℕ) (init : List Client) (own : Client) :
    Prop where
  eq : clients = init ++ [own]
  last : client = init.length
  running : own.ended = false
  ended : ∀ c ∈ init, c.ended = true

/-- Nothing is published yet, and what an actuation publishes is built. -/
structure Ready (call : Call) (s : OneShot) : Prop where
  published : s.published = []
  acks : s.acks = []
  built : ∀ engage username shortUserId, call.job = .actuate engage username shortUserId →
    ∃ clock frame, s.trans = some frame ∧
      call.build (.onOff engage (some (username, shortUserId))) clock = .ok frame

/-- Probes of the candidates up to `rest`, of which none was granted. -/
def Refused (s : OneShot) (rest : List String) : Prop :=
  (∀ r ∈ s.results, r.granted = false) ∧ s.results.map ProbeResult.ip ++ rest = s.candidates

/-- What is published while an exchange is under way. -/
def Said (call : Call) (s : OneShot) : Exchange → Wait → Prop
  | .actuate, _ => ∃ engage username shortUserId clock frame,
    call.job = .actuate engage username shortUserId ∧
      call.build (.onOff engage (some (username, shortUserId))) clock = .ok frame ∧
      s.frames = [frame]
  | .get, wait =>
    (∀ engage username shortUserId, call.job ≠ .actuate engage username shortUserId) ∧
      ∃ clock query, call.build .getSettings clock = .ok query ∧ s.frames = [query] ∧
        ∀ reply, wait = .heard (some reply) → reply.keyTime = query.time
  | .set, _ => ∃ enabled delaySeconds clock clock' query frame lockPayload,
    call.job = .autolock enabled delaySeconds ∧ call.build .getSettings clock = .ok query ∧
      call.buildSet enabled delaySeconds ⟨lockPayload, query.time⟩ clock' = .ok frame ∧
      s.frames = [query, frame]

/-- The invariant, by the phase. -/
def PhaseInv (call : Call) (s : OneShot) : Phase → Prop
  | .device => s.clients = [] ∧ s.results = [] ∧ s.published = [] ∧ s.acks = []
  | .credentials => s.clients = [] ∧ s.results = [] ∧ Ready call s
  | .resolving => s.clients = [] ∧ s.results = [] ∧ Ready call s
  | .probing client subscribed rest => ∃ init own, Dialled s.clients client init own ∧
    (subscribed = true → own.topics = [secureTopic s.device .res]) ∧ Refused s (own.ip :: rest) ∧
    Ready call s
  | .connecting client => ∃ init own, Dialled s.clients client init own ∧
    Pinned s.device init own ∧ Ready call s
  | .subscribing client => ∃ init own, Dialled s.clients client init own ∧
    Pinned s.device init own ∧ own.topics = subscribeTopics s.device ∧ Ready call s
  | .exchange client x _ wait => ∃ init own, Dialled s.clients client init own ∧
    Carrier s.device init own ∧ Said call s x wait ∧ s.acks = []
  | .disconnecting _ outcome => Done call s outcome
  | .settled outcome => Done call s outcome

/-- What was published went to the command topic, over a connection that carries it. -/
def Carried (call : Call) (s : OneShot) : Prop :=
  ∀ p ∈ s.published, p.topic = ff09MqttTopic s.device.model call.sn ∧
    ∃ init own, s.clients = init ++ [own] ∧ p.client = init.length ∧ Carrier s.device init own

def Inv (call : Call) (s : OneShot) : Prop := PhaseInv call s s.phase ∧ Carried call s

/-! ## Connections -/

theorem modify_last (init : List Client) (own : Client) (f : Client → Client) :
    (init ++ [own]).modify init.length f = init ++ [f own] := by
  induction init with
  | nil => rfl
  | cons c init ih =>
    rw [List.cons_append, List.length_cons, List.modify_succ_cons, ih]
    rfl

theorem Dialled.modify (h : Dialled s.clients client init own) (f : Client → Client)
    (hf : (f own).ended = false) : Dialled (s.clients.modify client f) client init (f own) where
  eq := by rw [h.eq, h.last, modify_last]
  last := h.last
  running := hf
  ended := h.ended

theorem Dialled.clients_endClient (h : Dialled s.clients client init own) :
    (s.endClient client).clients = init ++ [{ own with ended := true }] := by
  rw [endClient, h.eq, h.last, modify_last]

theorem Dialled.ended_endClient (h : Dialled s.clients client init own) :
    ∀ c ∈ (s.endClient client).clients, c.ended = true := by
  rw [h.clients_endClient]
  intro c hc
  rcases List.mem_append.mp hc with hc | hc
  · exact h.ended c hc
  · rw [List.mem_singleton.mp hc]

theorem dialled_append {ip : String} (h : ∀ c ∈ s.clients, c.ended = true) :
    Dialled (s.openClient ip).clients s.clients.length s.clients { ip } :=
  ⟨rfl, rfl, rfl, h⟩

theorem carried_of_none (h : s.published = []) : Carried call s := by
  intro p hp
  rw [h] at hp
  cases hp

/-- The connection that a publication went over is ended, and is otherwise what it was. -/
theorem Carried.endClient (h : Carried call s) (hd : Dialled s.clients client init own) :
    Carried call (s.endClient client) := by
  intro p hp
  obtain ⟨htopic, init', own', hclients, hlast, hcarrier⟩ := h p hp
  obtain ⟨rfl, hown⟩ := List.append_inj' (hd.eq.symm.trans hclients) rfl
  obtain rfl := List.singleton_inj.mp hown
  exact ⟨htopic, init, { own with ended := true }, hd.clients_endClient, hlast,
    ⟨hcarrier.pinned, hcarrier.topics, hcarrier.granted⟩⟩

/-! ## Operations -/

theorem Ready.mono (h : Ready call s) (hpublished : t.published = s.published)
    (hacks : t.acks = s.acks) (htrans : t.trans = s.trans) : Ready call t := by
  refine ⟨hpublished.trans h.published, hacks.trans h.acks, ?_⟩
  rw [htrans]
  exact h.built

/-- A command that is rejected before it has published anything, with its connections ended. -/
theorem Ready.reject (hpublished : s.published = []) (hacks : s.acks = [])
    (hended : ∀ c ∈ s.clients, c.ended = true) {e : CommandError}
    (honline : ∀ n, e ≠ .noInstance n) : Inv call (s.reject e) := by
  refine ⟨⟨hended, ?_, nofun, nofun, fun _ _ => hacks, ?_⟩, carried_of_none hpublished⟩
  · rw [frames, show (s.reject e).published = [] from hpublished]
    exact .nothing
  · intro n hn
    exact absurd (Outcome.rejected.inj hn) (honline n)

theorem inv_finishDiscovery (hready : Ready call s) (hended : ∀ c ∈ s.clients, c.ended = true)
    (hgranted : ∀ r ∈ s.results, r.granted = true →
      ∃ c ∈ s.clients, c.Grants s.device ∧ c.ip = r.ip)
    (hall : (∀ r ∈ s.results, r.granted = false) →
      s.results.map ProbeResult.ip = s.candidates) : Inv call s.finishDiscovery := by
  rw [finishDiscovery]
  split
  · rename_i hnone
    have hrefused : ∀ r ∈ s.results, r.granted = false := fun r hr =>
      Bool.eq_false_iff.mpr (List.find?_eq_none.mp hnone r ((List.mem_insertionSort _).mpr hr))
    refine ⟨⟨hended, ?_, nofun, nofun, fun _ _ => hready.acks, ?_⟩,
      carried_of_none hready.published⟩
    · rw [frames, show (s.reject _).published = [] from hready.published]
      exact .nothing
    · intro n hn
      obtain rfl := CommandError.noInstance.inj (Outcome.rejected.inj hn)
      refine ⟨?_, hall hrefused, hrefused⟩
      rw [show (s.reject _).candidates = s.candidates from rfl, ← hall hrefused, List.length_map]
  · rename_i winner hwinner
    have hmem := (List.mem_insertionSort _).mp (List.mem_of_find?_eq_some hwinner)
    obtain ⟨c, hc, hgrants, hip⟩ := hgranted winner hmem (List.find?_some hwinner)
    exact ⟨⟨s.clients, _, dialled_append hended, ⟨c, hc, hgrants, hip⟩,
      hready.mono rfl rfl rfl⟩, carried_of_none hready.published⟩

theorem inv_probe {rest : List String} (hready : Ready call s)
    (hended : ∀ c ∈ s.clients, c.ended = true) (hrefused : Refused s rest) :
    Inv call (s.probe rest) := by
  cases rest with
  | nil =>
    refine inv_finishDiscovery hready hended ?_ fun _ => ?_
    · intro r hr hgranted
      rw [hrefused.1 r hr] at hgranted
      cases hgranted
    · rw [← hrefused.2, List.append_nil]
  | cons ip rest =>
    exact ⟨⟨s.clients, _, dialled_append hended, nofun, hrefused, hready.mono rfl rfl rfl⟩,
      carried_of_none hready.published⟩

/-- A probe that is over is one of the results, and its client is ended. -/
theorem inv_finishProbe {rest : List String} {granted : Bool} (hready : Ready call s)
    (hd : Dialled s.clients client init own) (hrefused : Refused s (own.ip :: rest))
    (hgrants : granted = true → own.topics = [secureTopic s.device .res] ∧
      own.grants.head?.any (· ≠ SUBACK_FAILURE) = true) :
    Inv call (s.finishProbe client rest granted) := by
  have hip : ((s.clients[client]?).map Client.ip).getD "" = own.ip := by
    rw [hd.eq, hd.last, List.getElem?_concat_length]
    rfl
  rw [finishProbe, hip]
  dsimp only
  have hresults : ∀ r ∈ s.results ++ [ProbeResult.mk own.ip granted],
      r ∈ s.results ∨ r = ⟨own.ip, granted⟩ := fun r hr =>
    (List.mem_append.mp hr).imp_right List.mem_singleton.mp
  cases granted with
  | true =>
    rw [if_pos rfl]
    obtain ⟨htopics, hhead⟩ := hgrants rfl
    refine inv_finishDiscovery (hready.mono rfl rfl rfl) hd.ended_endClient ?_ fun hnone => ?_
    · intro r hr hgranted
      rcases hresults r hr with hr | rfl
      · rw [hrefused.1 r hr] at hgranted
        cases hgranted
      · refine ⟨{ own with ended := true }, ?_, ⟨htopics, hhead, rfl⟩, rfl⟩
        rw [show _ = _ from hd.clients_endClient]
        exact List.mem_append_right _ List.mem_cons_self
    · exact absurd (hnone _ (List.mem_append_right _ List.mem_cons_self)) Bool.true_eq_false.mp
  | false =>
    rw [if_neg Bool.false_ne_true]
    refine inv_probe (hready.mono rfl rfl rfl) hd.ended_endClient ⟨?_, ?_⟩
    · intro r hr
      rcases hresults r hr with hr | rfl
      · exact hrefused.1 r hr
      · rfl
    · rw [List.map_append, List.append_assoc]
      exact hrefused.2

/-- The connection is ended behind an exchange. -/
theorem inv_disconnect {outcome : Outcome} (hcarried : Carried call s)
    (hd : Dialled s.clients client init own) (hscript : Script call s.frames)
    (hresolved : outcome = .resolved →
      s.published.length = call.job.frames ∧ s.acks.length = 1)
    (hstate : ∀ snapshot, outcome = .state snapshot →
      s.acks = [] ∧ ∃ query lockPayload, s.frames = [query] ∧
        call.readSnapshot ⟨lockPayload, query.time⟩ = .ok snapshot)
    (hrejected : ∀ e, outcome = .rejected e → s.acks = [] ∧ ∀ n, e ≠ .noInstance n) :
    Inv call (s.disconnect client outcome) :=
  ⟨{ ended := hd.ended_endClient
     script := hscript
     resolved := hresolved
     state := hstate
     rejected := fun e he => (hrejected e he).1
     offline := fun n hn => absurd rfl ((hrejected _ hn).2 n) },
    hcarried.endClient hd⟩

theorem frames_exchange (x : Exchange) (frame : Ff09Frame) :
    (s.exchange call client x frame).frames = s.frames ++ [frame] := List.map_append

/-- A frame is published over the connection in use. -/
theorem inv_exchange {x : Exchange} {frame : Ff09Frame} (hd : Dialled s.clients client init own)
    (hcarrier : Carrier s.device init own) (hcarried : Carried call s) (hacks : s.acks = [])
    (hsaid : Said call (s.exchange call client x frame) x .listening) :
    Inv call (s.exchange call client x frame) := by
  refine ⟨⟨init, own, hd, hcarrier, hsaid, hacks⟩, fun p hp => ?_⟩
  rcases List.mem_append.mp hp with hp | hp
  · exact hcarried p hp
  · obtain rfl := List.mem_singleton.mp hp
    exact ⟨rfl, init, own, hd.eq, hd.last, hcarrier⟩

theorem Said.script {x : Exchange} {wait : Wait} (h : Said call s x wait) :
    Script call s.frames := by
  cases x with
  | actuate =>
    obtain ⟨engage, username, shortUserId, clock, frame, hjob, hframe, hframes⟩ := h
    rw [hframes]
    exact .onOff engage username shortUserId clock frame hjob hframe
  | get =>
    obtain ⟨hjob, clock, query, hquery, hframes, -⟩ := h
    rw [hframes]
    exact .get clock query hjob hquery
  | set =>
    obtain ⟨enabled, delaySeconds, clock, clock', query, frame, payload, hjob, hquery, hframe,
      hframes⟩ := h
    rw [hframes]
    exact .set enabled delaySeconds clock clock' query frame payload hjob hquery hframe

/-- An actuation and a SET are the last that a command publishes. -/
theorem Said.length_published {x : Exchange} {wait : Wait} (h : Said call s x wait)
    (hx : x ≠ .get) : s.published.length = call.job.frames := by
  rw [← List.length_map Publication.frame]
  cases x with
  | actuate =>
    obtain ⟨engage, username, shortUserId, clock, frame, hjob, -, hframes⟩ := h
    rw [hjob, show s.published.map Publication.frame = [frame] from hframes]
    rfl
  | get => exact absurd rfl hx
  | set =>
    obtain ⟨enabled, delaySeconds, clock, clock', query, frame, payload, hjob, -, -, hframes⟩ := h
    rw [hjob, show s.published.map Publication.frame = [query, frame] from hframes]
    rfl

/-- What a listener comes to is no matter, unless it is a reply to the GET. -/
theorem Said.waited {x : Exchange} {wait wait' : Wait} (h : Said call s x wait)
    (hreply : x = .get → ∀ reply, wait' = .heard (some reply) →
      wait = wait' ∨ reply.keyTime = s.queryTime) : Said call s x wait' := by
  cases x with
  | actuate => exact h
  | get =>
    obtain ⟨hjob, clock, query, hquery, hframes, hheard⟩ := h
    refine ⟨hjob, clock, query, hquery, hframes, fun reply hwait => ?_⟩
    obtain hsame | htime := hreply rfl reply hwait
    · exact hheard reply (hsame.trans hwait)
    rw [htime, queryTime]
    have hlast := congrArg List.getLast? hframes
    rw [frames, List.getLast?_map] at hlast
    obtain ⟨p, hp, rfl⟩ := Option.map_eq_some_iff.mp hlast
    rw [hp]
    rfl
  | set => exact h

/-! ## Steps -/

theorem inv_onDevice (hclients : s.clients = []) (hresults : s.results = [])
    (hpublished : s.published = []) (hacks : s.acks = []) (found : Option TopicDevice)
    (clock : Clock) : Inv call (s.onDevice call found clock) := by
  have hended : ∀ c ∈ s.clients, c.ended = true := by
    rw [hclients]
    nofun
  cases found with
  | none => exact Ready.reject hpublished hacks hended nofun
  | some device =>
    rw [onDevice]
    split
    · exact Ready.reject hpublished hacks hended nofun
    · split
      · rename_i engage username shortUserId hjob
        split
        · exact Ready.reject hpublished hacks hended nofun
        · rename_i frame hframe
          refine ⟨⟨hclients, hresults, hpublished, hacks, fun e u short hsame => ?_⟩,
            carried_of_none hpublished⟩
          obtain ⟨rfl, rfl, rfl⟩ := Job.actuate.inj (hjob.symm.trans hsame)
          exact ⟨clock, frame, rfl, hframe⟩
      · rename_i hjob
        exact ⟨⟨hclients, hresults, hpublished, hacks,
          fun e u short hsame => absurd hsame (hjob e u short)⟩, carried_of_none hpublished⟩

theorem inv_subscribed (hready : Ready call s) (hd : Dialled s.clients client init own)
    (hcarrier : Carrier s.device init own) (clock : Clock) :
    Inv call (s.subscribed call client clock) := by
  have hnone : s.frames = [] := by
    rw [frames, hready.published]
    rfl
  have hcarried : Carried call s := carried_of_none hready.published
  rw [subscribed]
  split
  · rename_i engage username shortUserId hjob
    obtain ⟨clock, frame, htrans, hframe⟩ := hready.built _ _ _ hjob
    rw [htrans]
    refine inv_exchange hd hcarrier hcarried hready.acks
      ⟨engage, username, shortUserId, clock, frame, hjob, hframe, ?_⟩
    rw [frames_exchange, hnone]
    rfl
  · rename_i hjob
    split
    · rename_i e he
      refine inv_disconnect hcarried hd ?_ nofun nofun
        fun e' he' => ⟨hready.acks, fun n hn => ?_⟩
      · rw [hnone]
        exact .nothing
      · rw [hn] at he'
        cases he'
    · rename_i query hquery
      refine inv_exchange hd hcarrier hcarried hready.acks
        ⟨hjob, clock, query, hquery, ?_, nofun⟩
      rw [frames_exchange, hnone]
      rfl

theorem inv_onSubscribed (hready : Ready call s) (hd : Dialled s.clients client init own)
    (hpinned : Pinned s.device init own) (htopics : own.topics = subscribeTopics s.device)
    (grants : Option (List ℕ)) (clock : Clock) :
    Inv call (s.onSubscribed call client grants clock) := by
  have hscript (t : OneShot) (ht : t.published = []) : Script call t.frames := by
    rw [frames, ht]
    exact .nothing
  have hreject {e : CommandError} (he : ∀ n, e ≠ .noInstance n) (e' : CommandError)
      (hsame : Outcome.rejected e = .rejected e') : s.acks = [] ∧ ∀ n, e' ≠ .noInstance n := by
    obtain rfl := Outcome.rejected.inj hsame
    exact ⟨hready.acks, he⟩
  cases grants with
  | none =>
    exact inv_disconnect (carried_of_none hready.published) hd (hscript _ hready.published) nofun
      nofun (hreject nofun)
  | some grants =>
    have hgranted := hd.modify (fun c => { c with grants }) hd.running
    rw [onSubscribed]
    split
    · exact inv_disconnect (s := s.grant client grants) (carried_of_none hready.published) hgranted
        (hscript _ hready.published) nofun nofun (hreject nofun)
    · rename_i hsome
      exact inv_subscribed (s := s.grant client grants) (hready.mono rfl rfl rfl) hgranted
        ⟨hpinned, htopics, hsome⟩ clock

/-- A listener comes to something, or a publication is accepted. -/
theorem inv_wait {x : Exchange} {published published' : Bool} {wait wait' : Wait}
    (h : Inv call s) (hphase : s.phase = .exchange client x published wait)
    (hreply : x = .get → ∀ reply, wait' = .heard (some reply) →
      wait = wait' ∨ reply.keyTime = s.queryTime) :
    Inv call { s with phase := .exchange client x published' wait' } := by
  obtain ⟨hphaseInv, hcarried⟩ := h
  rw [hphase] at hphaseInv
  obtain ⟨init, own, hd, hcarrier, hsaid, hacks⟩ := hphaseInv
  exact ⟨⟨init, own, hd, hcarrier, hsaid.waited hreply, hacks⟩, hcarried⟩

theorem inv_onMessage {x : Exchange} {published : Bool} (h : Inv call s)
    (hphase : s.phase = .exchange client x published .listening) (topic : String) (raw : Json) :
    Inv call (s.onMessage call client x published topic raw) := by
  have hack : Inv call
      (if matchAck call.sn topic then s.hear client x published none else s) := by
    split
    · exact inv_wait h hphase nofun
    · exact h
  cases x with
  | actuate => exact hack
  | set => exact hack
  | get =>
    unfold onMessage
    dsimp only
    split
    · exact h
    · rename_i reply hmatch
      refine inv_wait h hphase fun _ reply' hsame => .inr ?_
      obtain rfl := Option.some.inj (Wait.heard.inj hsame)
      rw [matchGetReply] at hmatch
      split at hmatch
      · cases hmatch
      · split_ifs at hmatch
        obtain rfl := Option.some.inj hmatch
        rfl

theorem inv_onReply {wait : Wait} {reply : GetReply} (hd : Dialled s.clients client init own)
    (hcarrier : Carrier s.device init own) (hcarried : Carried call s) (hacks : s.acks = [])
    (hsaid : Said call s .get wait) (hwait : wait = .heard (some reply)) (clock : Clock) :
    Inv call (s.onReply call client reply clock) := by
  have hreject {e : Ff09Error} (e' : CommandError)
      (hsame : Outcome.rejected (.frame e) = .rejected e') :
      s.acks = [] ∧ ∀ n, e' ≠ .noInstance n := by
    obtain rfl := Outcome.rejected.inj hsame
    exact ⟨hacks, nofun⟩
  obtain ⟨hjob, queryClock, query, hquery, hframes, hheard⟩ := id hsaid
  have htime := hheard reply hwait
  obtain ⟨payload, keyTime⟩ := reply
  obtain rfl : keyTime = query.time := htime
  rw [onReply]
  split
  · rename_i enabled delaySeconds hset
    split
    · exact inv_disconnect hcarried hd hsaid.script nofun nofun hreject
    · rename_i frame hframe
      refine inv_exchange hd hcarrier hcarried hacks
        ⟨enabled, delaySeconds, queryClock, clock, query, frame, payload, hset, hquery, hframe, ?_⟩
      rw [frames_exchange, hframes]
      rfl
  · split
    · exact inv_disconnect hcarried hd hsaid.script nofun nofun hreject
    · rename_i snapshot hsnapshot
      refine inv_disconnect hcarried hd hsaid.script nofun (fun snapshot' hsame => ?_) nofun
      obtain rfl := Outcome.state.inj hsame
      exact ⟨hacks, query, payload, hframes, hsnapshot⟩

theorem inv_proceed {x : Exchange} {wait : Wait} (hd : Dialled s.clients client init own)
    (hcarrier : Carrier s.device init own) (hcarried : Carried call s) (hacks : s.acks = [])
    (hsaid : Said call s x wait) (clock : Clock) :
    Inv call (s.proceed call client x wait clock) := by
  have hacked (hx : x ≠ .get) : Inv call ((s.acked wait).disconnect client .resolved) := by
    refine inv_disconnect (s := s.acked wait) hcarried hd hsaid.script (fun _ => ?_) nofun nofun
    refine ⟨hsaid.length_published hx, ?_⟩
    rw [acked, hacks]
    rfl
  cases x with
  | actuate => exact hacked nofun
  | set => exact hacked nofun
  | get =>
    have hsilent : Inv call (s.disconnect client (.rejected .noReply)) := by
      refine inv_disconnect hcarried hd hsaid.script nofun nofun fun e he => ?_
      obtain rfl := Outcome.rejected.inj he
      exact ⟨hacks, nofun⟩
    cases wait with
    | listening => exact hsilent
    | timedOut => exact hsilent
    | heard reply =>
      cases reply with
      | none => exact hsilent
      | some reply => exact inv_onReply hd hcarrier hcarried hacks hsaid rfl clock

/-- **Every step keeps the invariant.** -/
theorem Inv.step (h : Inv call s) {e : Event} (hstep : s.step call e = some t) : Inv call t := by
  obtain ⟨hphase, hcarried⟩ := id h
  cases e with
  | device found clock =>
    rw [OneShot.step] at hstep
    split at hstep
    · rename_i hat
      obtain rfl := Option.some.inj hstep
      rw [hat] at hphase
      obtain ⟨hclients, hresults, hpublished, hacks⟩ := hphase
      exact inv_onDevice hclients hresults hpublished hacks found clock
    · cases hstep
  | credentials granted =>
    rw [OneShot.step] at hstep
    split at hstep
    · rename_i hat
      obtain rfl := Option.some.inj hstep
      rw [hat] at hphase
      obtain ⟨hclients, hresults, hready⟩ := hphase
      split
      · exact ⟨⟨hclients, hresults, hready.mono rfl rfl rfl⟩, hcarried⟩
      · refine Ready.reject hready.published hready.acks ?_ nofun
        rw [hclients]
        nofun
    · cases hstep
  | resolved dnsIps =>
    rw [OneShot.step] at hstep
    split at hstep
    · rename_i hat
      obtain rfl := Option.some.inj hstep
      rw [hat] at hphase
      obtain ⟨hclients, hresults, hready⟩ := hphase
      refine inv_probe (hready.mono rfl rfl rfl) ?_ ⟨?_, ?_⟩
      · rw [show _ = _ from hclients]
        nofun
      · rw [show _ = _ from hresults]
        nofun
      · rw [show _ = _ from hresults]
        rfl
    · cases hstep
  | connected client =>
    rw [OneShot.step] at hstep
    split at hstep
    · rename_i c subscribed rest hat
      rw [hat] at hphase
      obtain ⟨init, own, hd, -, hrefused, hready⟩ := hphase
      split_ifs at hstep with hclient
      · obtain rfl := Option.some.inj hstep
        subst hclient
        exact ⟨⟨init, _, hd.modify _ hd.running, fun _ => rfl, hrefused, hready.mono rfl rfl rfl⟩,
          carried_of_none hready.published⟩
      · exact Option.some.inj hstep ▸ h
    · rename_i c hat
      rw [hat] at hphase
      obtain ⟨init, own, hd, hpinned, hready⟩ := hphase
      split_ifs at hstep with hclient
      · obtain rfl := Option.some.inj hstep
        subst hclient
        exact ⟨⟨init, _, hd.modify _ hd.running, hpinned, rfl, hready.mono rfl rfl rfl⟩,
          carried_of_none hready.published⟩
      · exact Option.some.inj hstep ▸ h
    · exact Option.some.inj hstep ▸ h
  | suback client grants clock =>
    rw [OneShot.step] at hstep
    split at hstep
    · rename_i c subscribed rest hat
      rw [hat] at hphase
      obtain ⟨init, own, hd, htopics, hrefused, hready⟩ := hphase
      split_ifs at hstep with hclient hsubscribed
      · obtain rfl := Option.some.inj hstep
        subst hclient
        cases grants with
        | none => exact inv_finishProbe hready hd hrefused nofun
        | some grants =>
          exact inv_finishProbe (s := s.grant c grants) (hready.mono rfl rfl rfl)
            (hd.modify (fun own => { own with grants }) hd.running) hrefused
            fun hgranted => ⟨htopics hsubscribed, hgranted⟩
      · exact Option.some.inj hstep ▸ h
    · rename_i c hat
      rw [hat] at hphase
      obtain ⟨init, own, hd, hpinned, htopics, hready⟩ := hphase
      split_ifs at hstep with hclient
      · obtain rfl := Option.some.inj hstep
        subst hclient
        exact inv_onSubscribed hready hd hpinned htopics grants clock
      · exact Option.some.inj hstep ▸ h
    · exact Option.some.inj hstep ▸ h
  | failed client =>
    rw [OneShot.step] at hstep
    split at hstep
    · rename_i c subscribed rest hat
      rw [hat] at hphase
      obtain ⟨init, own, hd, -, hrefused, hready⟩ := hphase
      split_ifs at hstep with hclient
      · obtain rfl := Option.some.inj hstep
        subst hclient
        exact inv_finishProbe hready hd hrefused nofun
      · exact Option.some.inj hstep ▸ h
    · rename_i c hat
      rw [hat] at hphase
      obtain ⟨init, own, hd, -, hready⟩ := hphase
      split_ifs at hstep with hclient
      · obtain rfl := Option.some.inj hstep
        subst hclient
        exact Ready.reject (s := s.endClient c) hready.published hready.acks hd.ended_endClient
          nofun
      · exact Option.some.inj hstep ▸ h
    · exact Option.some.inj hstep ▸ h
  | timeout client =>
    rw [OneShot.step] at hstep
    split at hstep
    · rename_i c subscribed rest hat
      rw [hat] at hphase
      obtain ⟨init, own, hd, -, hrefused, hready⟩ := hphase
      split_ifs at hstep with hclient
      · obtain rfl := Option.some.inj hstep
        subst hclient
        exact inv_finishProbe hready hd hrefused nofun
      · exact Option.some.inj hstep ▸ h
    · rename_i c x published hat
      split_ifs at hstep with hclient
      · obtain rfl := Option.some.inj hstep
        exact inv_wait h hat nofun
      · exact Option.some.inj hstep ▸ h
    · exact Option.some.inj hstep ▸ h
  | puback client delivered =>
    rw [OneShot.step] at hstep
    split at hstep
    · rename_i c x published wait hat
      split_ifs at hstep with hclient hdelivered
      · obtain rfl := Option.some.inj hstep
        exact inv_wait h hat fun _ _ _ => .inl rfl
      · obtain rfl := Option.some.inj hstep
        subst hclient
        rw [hat] at hphase
        obtain ⟨init, own, hd, -, hsaid, hacks⟩ := hphase
        refine inv_disconnect hcarried hd hsaid.script nofun nofun fun e he => ?_
        obtain rfl := Outcome.rejected.inj he
        exact ⟨hacks, nofun⟩
      · exact Option.some.inj hstep ▸ h
    · exact Option.some.inj hstep ▸ h
  | message client topic raw =>
    rw [OneShot.step] at hstep
    split at hstep
    · rename_i c x published hat
      split_ifs at hstep with hclient
      · obtain rfl := Option.some.inj hstep
        exact inv_onMessage h (hclient ▸ hat) topic raw
      · exact Option.some.inj hstep ▸ h
    · exact Option.some.inj hstep ▸ h
  | proceed clock =>
    rw [OneShot.step] at hstep
    split at hstep
    · cases hstep
    · rename_i c x wait hlistening hat
      obtain rfl := Option.some.inj hstep
      rw [hat] at hphase
      obtain ⟨init, own, hd, hcarrier, hsaid, hacks⟩ := hphase
      exact inv_proceed hd hcarrier hcarried hacks hsaid clock
    · cases hstep
  | ended =>
    rw [OneShot.step] at hstep
    split at hstep
    · rename_i c outcome hat
      obtain rfl := Option.some.inj hstep
      rw [hat] at hphase
      exact ⟨⟨hphase.ended, hphase.script, hphase.resolved, hphase.state, hphase.rejected,
        hphase.offline⟩, hcarried⟩
    · cases hstep

theorem inv_start : Inv call {} := ⟨⟨rfl, rfl, rfl, rfl⟩, nofun⟩

theorem inv_of_run {es : List Event} (hrun : Run (step call) {} es s) : Inv call s :=
  hrun.invariant inv_start fun _ _ _ h hstep => h.step hstep

/-! ## Every run -/

theorem Inv.script (h : Inv call s) : Script call s.frames := by
  have hnone (hpublished : s.published = []) : Script call s.frames := by
    rw [frames, hpublished]
    exact .nothing
  obtain ⟨hphase, -⟩ := h
  cases hat : s.phase with
  | device =>
    rw [hat] at hphase
    exact hnone hphase.2.2.1
  | credentials =>
    rw [hat] at hphase
    exact hnone hphase.2.2.published
  | resolving =>
    rw [hat] at hphase
    exact hnone hphase.2.2.published
  | probing client subscribed rest =>
    rw [hat] at hphase
    obtain ⟨init, own, -, -, -, hready⟩ := hphase
    exact hnone hready.published
  | connecting client =>
    rw [hat] at hphase
    obtain ⟨init, own, -, -, hready⟩ := hphase
    exact hnone hready.published
  | subscribing client =>
    rw [hat] at hphase
    obtain ⟨init, own, -, -, -, hready⟩ := hphase
    exact hnone hready.published
  | exchange client x published wait =>
    rw [hat] at hphase
    obtain ⟨init, own, -, -, hsaid, -⟩ := hphase
    exact hsaid.script
  | disconnecting client outcome =>
    rw [hat] at hphase
    exact hphase.script
  | settled outcome =>
    rw [hat] at hphase
    exact hphase.script

theorem Dialled.last_of_running {c : Client} (h : Dialled s.clients client init own)
    (hc : s.clients[i]? = some c) (hrunning : c.ended = false) : i + 1 = s.clients.length := by
  rw [h.eq] at hc ⊢
  rcases Lists.getElem?_append_cases hc with ⟨rfl, -⟩ | hc
  · rw [List.length_append, List.length_singleton]
  · rw [h.ended c (List.mem_of_getElem? hc)] at hrunning
    cases hrunning

/-- A connection that is open is the last, of a command that has not settled. -/
theorem Inv.running {c : Client} (h : Inv call s) (hc : s.clients[i]? = some c)
    (hrunning : c.ended = false) :
    i + 1 = s.clients.length ∧ ∀ outcome, s.phase ≠ .settled outcome := by
  have hempty (hclients : s.clients = []) : False := by
    rw [hclients] at hc
    cases hc
  have hended (h : ∀ c ∈ s.clients, c.ended = true) : False := by
    rw [h c (List.mem_of_getElem? hc)] at hrunning
    cases hrunning
  obtain ⟨hphase, -⟩ := h
  cases hat : s.phase with
  | device =>
    rw [hat] at hphase
    exact (hempty hphase.1).elim
  | credentials =>
    rw [hat] at hphase
    exact (hempty hphase.1).elim
  | resolving =>
    rw [hat] at hphase
    exact (hempty hphase.1).elim
  | probing client subscribed rest =>
    rw [hat] at hphase
    obtain ⟨init, own, hd, -⟩ := hphase
    exact ⟨hd.last_of_running hc hrunning, nofun⟩
  | connecting client =>
    rw [hat] at hphase
    obtain ⟨init, own, hd, -⟩ := hphase
    exact ⟨hd.last_of_running hc hrunning, nofun⟩
  | subscribing client =>
    rw [hat] at hphase
    obtain ⟨init, own, hd, -⟩ := hphase
    exact ⟨hd.last_of_running hc hrunning, nofun⟩
  | exchange client x published wait =>
    rw [hat] at hphase
    obtain ⟨init, own, hd, -⟩ := hphase
    exact ⟨hd.last_of_running hc hrunning, nofun⟩
  | disconnecting client outcome =>
    rw [hat] at hphase
    exact (hended hphase.ended).elim
  | settled outcome =>
    rw [hat] at hphase
    exact (hended hphase.ended).elim

/-- A settings write is the frame of what a reply reports. -/
theorem build_of_buildSet {enabled : Bool} {delaySeconds : Option ℕ} {reply : GetReply}
    {clock : Clock} {frame : Ff09Frame}
    (h : call.buildSet enabled delaySeconds reply clock = .ok frame) :
    ∃ delay a7 a8,
      call.build (.setSettings enabled (delaySeconds.getD delay) a7 a8) clock = .ok frame := by
  obtain ⟨plain, -, h⟩ := bind_eq_ok.mp h
  obtain ⟨parsed, -, h⟩ := bind_eq_ok.mp h
  obtain ⟨delay, -, h⟩ := bind_eq_ok.mp h
  obtain ⟨a7, -, h⟩ := bind_eq_ok.mp h
  obtain ⟨a8, -, h⟩ := bind_eq_ok.mp h
  exact ⟨delay, a7, a8, mapError_eq_ok.mpr h⟩

/-- Every frame of a script is a command that the job may ask for. -/
theorem asks_of_script {frames : List Ff09Frame} (h : Script call frames) {frame : Ff09Frame}
    (hframe : frame ∈ frames) :
    ∃ cmd clock, call.build cmd clock = .ok frame ∧ call.job.MayAsk cmd.asks := by
  cases h with
  | nothing => cases hframe
  | onOff engage username shortUserId clock frame hjob hbuilt =>
    obtain rfl := List.mem_singleton.mp hframe
    refine ⟨_, clock, hbuilt, ?_⟩
    rw [hjob]
    exact rfl
  | get clock query hjob hquery =>
    obtain rfl := List.mem_singleton.mp hframe
    refine ⟨_, clock, hquery, ?_⟩
    cases hcase : call.job with
    | actuate engage username shortUserId => exact absurd hcase (hjob _ _ _)
    | autolock enabled delaySeconds => exact .inl rfl
    | getAutoLockState => exact rfl
  | set enabled delaySeconds clock clock' query frame payload hjob hquery hset =>
    rw [hjob]
    rcases List.mem_cons.mp hframe with rfl | hframe
    · exact ⟨_, clock, hquery, .inl rfl⟩
    · obtain rfl := List.mem_singleton.mp hframe
      obtain ⟨delay, a7, a8, hbuilt⟩ := build_of_buildSet hset
      exact ⟨_, clock', hbuilt, .inr ⟨delay, a7 % 65536, a8 % 65536, rfl⟩⟩

/-- **A command over a connection of its own**, whatever happens in what order: at most one
connection is open at a time, and none once the command has settled; it publishes its script and no
more, to the command topic, over a connection to an instance that granted its probe and with some
of the device's topics granted; what the lock reads there is what the command may ask for; and it
settles with everything published, or rejected, as offline only where every candidate was probed and
none granted. -/
theorem oneShot_of_run (hC : call.cipher.Inverts) {es : List Event}
    (hrun : Run (step call) {} es s) :
    (∀ (i : ℕ) (c : Client), s.clients[i]? = some c → c.ended = false →
      i + 1 = s.clients.length ∧ ∀ outcome, s.phase ≠ .settled outcome) ∧
    Script call s.frames ∧
    (∀ p ∈ s.published, p.topic = ff09MqttTopic s.device.model call.sn ∧
      (∃ init own, s.clients = init ++ [own] ∧ p.client = init.length ∧
        Carrier s.device init own) ∧
      ∃ read, readRequest call.cipher p.frame call.adminUserId call.deviceSn = .ok read ∧
        call.job.MayAsk read.request) ∧
    (∀ outcome, s.phase = .settled outcome → Done call s outcome) := by
  have h := inv_of_run hrun
  refine ⟨fun i c hc hrunning => h.running hc hrunning, h.script, fun p hp => ?_,
    fun outcome hat => ?_⟩
  · obtain ⟨htopic, hcarrier⟩ := h.2 p hp
    obtain ⟨cmd, clock, hbuilt, hmay⟩ :=
      asks_of_script h.script (List.mem_map_of_mem (f := Publication.frame) hp)
    exact ⟨htopic, hcarrier, _, readRequest_build hC hbuilt, hmay⟩
  · have hphase := h.1
    rw [hat] at hphase
    exact hphase

/-! ### An unlock -/

/-- `ana` unlocks. -/
def unlockCall : Call where
  cipher := knownAt unlockUses
  texts := ⟨fun _ => none, id⟩
  sn := "T85D0K0000000000"
  adminUserId := sampleUserId
  deviceSn := sampleSn
  job := .actuate false [0x61, 0x6e, 0x61] ['0', '0', '0', '3']

/-- The first instance denies the probe, the second grants it, and the lock answers. -/
def unlockRun : List Event :=
  let clock : Clock := ⟨1700000010, 1⟩
  [.device (some ⟨"T85D0K0000000000", "T85D0", "eufy_security", "garage"⟩) clock, .credentials true,
    .resolved [], .connected 0, .suback 0 (some [128]) clock, .connected 1,
    .suback 1 (some [1]) clock, .connected 2, .suback 2 (some [1]) clock,
    .message 2 "cmd/eufy_security/T85D0/T85D0K0000000000/res" .null, .puback 2 true,
    .proceed clock, .ended]

theorem oneShot_of_run_unlock :
    ∃ s, exec (step unlockCall) {} unlockRun = some s ∧ Script unlockCall s.frames ∧
      s.published.length = 1 ∧ s.acks = [true] ∧
      s.clients.map (fun c => (c.ip, c.ended)) =
        [("3.139.229.186", true), ("18.224.90.2", true), ("18.224.90.2", true)] := by
  obtain ⟨s, hs⟩ := Option.isSome_iff_exists.mp
    (by decide +kernel : (exec (step unlockCall) {} unlockRun).isSome = true)
  have hseen : (exec (step unlockCall) {} unlockRun).map
      (fun s => (s.published.length, s.acks, s.clients.map fun c => (c.ip, c.ended))) =
        some (1, [true],
          [("3.139.229.186", true), ("18.224.90.2", true), ("18.224.90.2", true)]) := by
    decide +kernel
  rw [hs] at hseen
  obtain ⟨hpublished, hacks, hclients⟩ := Prod.mk.inj (Option.some.inj hseen) |>.imp_right
    Prod.mk.inj
  obtain ⟨-, hscript, -⟩ :=
    oneShot_of_run (inverts_knownAt consistent_unlockUses : unlockCall.cipher.Inverts)
      (run_of_exec hs)
  exact ⟨s, hs, hscript, hpublished, hacks, hclients⟩

end OneShot

end EufySdk.Mqtt
