import Msgtrans.Delivery
import Msgtrans.Lib.Indexed
import Msgtrans.Lib.Relay
import Msgtrans.Lib.Run
import Msgtrans.Pump

/-!
# The events of all sessions of a server (`transport/transport.rs`, `transport/transport_server.rs`)

Each accepted connection has a channel of its adapter, the consumer task of its `Transport` (`set_connection`,
`on_event`), the channel of that `Transport` and the session task of the server (`add_session`,
`handle_transport_event`); all session tasks send into the server's one channel, as the listeners and the closing calls
do with their announcements, and any number of applications read it. Every task subscribes when it is first polled, and
any of them may fall behind.

The traffic of a session is what only its task publishes: `MessageReceived`, `MessageSent`, `TransportError`.
`law_of_sessions`: whatever the interleaving, an application sees of the traffic of one session one contiguous piece of
what its adapter published, in order, nothing twice and nothing of another session; a session whose tasks
have caught up is all there. A channel that is closed only stops its readers, as if they were not polled any more.
-/

namespace Msgtrans

/-- What only the task of session `id` publishes. -/
def ServerEvent.isTraffic (id : SessionId) : ServerEvent → Bool
  | .messageReceived sessionId _ => sessionId == id
  | .messageSent sessionId _ => sessionId == id
  | .transportError (some sessionId) _ => sessionId == id
  | _ => false

/-- What the listeners and the closing calls publish. -/
def ServerEvent.isAnnouncement : ServerEvent → Bool
  | .connectionEstablished .. => true
  | .connectionClosed .. => true
  | _ => false

namespace EventRouting

open Broadcast

variable (lib : CompressionLib)

structure Session where
  id : SessionId
  adapter : Channel TransportEvent
  consumer : Option (Relay TransportEvent)
  transport : Channel TransportEvent
  task : Option (Relay TransportEvent)

structure State where
  /-- `session_id_generator` -/
  nextId : UInt64
  sessions : List Session
  server : Channel ServerEvent
  /-- the responses the server's own `request_tracker` was completed with -/
  completed : List Packet
  applications : List (Relay ServerEvent)

inductive Label where
  | accept (protocol : Protocol)
  /-- the adapter of a session -/
  | publish (i : ℕ) (event : TransportEvent)
  /-- the consumer task: `event_stream`, `recv`, `on_event` -/
  | listen (i : ℕ)
  | recvConsumer (i : ℕ)
  | onEvent (i : ℕ)
  /-- the session task: `get_event_stream`, `recv`, `handle_transport_event` -/
  | attach (i : ℕ)
  | recvTask (i : ℕ)
  | handle (i : ℕ) (pending : UInt32 → Bool)
  | announce (event : ServerEvent)
  /-- an application: `subscribe_events`, `recv`, its own work -/
  | subscribe
  | recv (k : ℕ)
  | work (k : ℕ)

def start : State := ⟨1, [], .new 1000, [], []⟩

def Session.new (id : SessionId) (protocol : Protocol) : Session :=
  ⟨id, .new protocol.eventCapacity, none, .new EventPump.serverSession.capacity, none⟩

def State.update (s : State) (i : ℕ) (f : Session → Option Session) : Option State :=
  s.sessions[i]?.bind fun x => (f x).map fun y => { s with sessions := s.sessions.set i y }

def State.application (s : State) (k : ℕ) (f : Relay ServerEvent → Option (Relay ServerEvent)) : Option State :=
  s.applications[k]?.bind fun r => (f r).map fun r' => { s with applications := s.applications.set k r' }

def step (s : State) : Label → Option State
  | .accept protocol =>
    some { s with nextId := s.nextId + 1, sessions := s.sessions ++ [.new s.nextId protocol] }
  | .publish i event => s.update i fun x => some { x with adapter := x.adapter.send event }
  | .listen i => s.update i fun x =>
    match x.consumer with
    | none => some { x with consumer := some (.subscribe x.adapter) }
    | some _ => none
  | .recvConsumer i => s.update i fun x => x.consumer.map fun r => { x with consumer := some (r.poll x.adapter) }
  | .onEvent i => s.update i fun x =>
    (x.consumer.bind Relay.finish).map fun (event, r) =>
      { x with consumer := some r, transport := x.transport.sendAll (Transport.onEvent lib event).published }
  | .attach i => s.update i fun x =>
    match x.task with
    | none => some { x with task := some (.subscribe x.transport) }
    | some _ => none
  | .recvTask i => s.update i fun x => x.task.map fun r => { x with task := some (r.poll x.transport) }
  | .handle i pending =>
    s.sessions[i]?.bind fun x => (x.task.bind Relay.finish).map fun (event, r) =>
      let handled := TransportServer.handleTransportEvent pending x.id event
      { s with
        sessions := s.sessions.set i { x with task := some r }
        server := s.server.sendAll handled.published
        completed := s.completed ++ handled.completed.toList }
  | .announce event => if event.isAnnouncement then some { s with server := s.server.send event } else none
  | .subscribe => some { s with applications := s.applications ++ [.subscribe s.server] }
  | .recv k => s.application k fun r => some (r.poll s.server)
  | .work k => s.application k fun r => r.finish.map Prod.snd

/-! ### The law -/

/-- The traffic `handle_transport_event` makes of one event. -/
def traffic (id : SessionId) (event : TransportEvent) : List ServerEvent :=
  (TransportServer.handleTransportEvent (fun _ => false) id event).published.filter (ServerEvent.isTraffic id)

/-- What the adapter has published since the consumer task subscribed. -/
def Session.heard (x : Session) : List TransportEvent :=
  x.consumer.elim [] fun r => x.adapter.sent.drop r.start

/-- What of it, after `on_event`, the session task has to handle. -/
def Session.passed (x : Session) : List TransportEvent :=
  x.task.elim [] fun r => (x.heard.flatMap fun event => (Transport.onEvent lib event).published).drop r.start

def Session.CaughtUp (x : Session) : Prop :=
  (∃ r, x.consumer = some r ∧ r.CaughtUp x.adapter) ∧ ∃ r, x.task = some r ∧ r.CaughtUp x.transport

structure Law (s : State) : Prop where
  distinct : (s.sessions.map (·.id)).Nodup
  session : ∀ x ∈ s.sessions, s.server.sent.filter (ServerEvent.isTraffic x.id) <+: (x.passed lib).flatMap (traffic x.id)
  complete : ∀ x ∈ s.sessions, x.CaughtUp →
    s.server.sent.filter (ServerEvent.isTraffic x.id) = (x.passed lib).flatMap (traffic x.id)
  known : ∀ event ∈ s.server.sent, ∀ id, event.isTraffic id = true → ∃ x ∈ s.sessions, x.id = id
  application : ∀ r ∈ s.applications, r.reader.got <+: s.server.sent.drop r.start
  piece : ∀ r ∈ s.applications, ∀ x ∈ s.sessions,
    r.reader.got.filter (ServerEvent.isTraffic x.id) <:+: (x.passed lib).flatMap (traffic x.id)
  /-- responses never come so far: the server's own tracker is not asked -/
  untouched : s.completed = []

/-! ### One event -/

variable {lib} {s s' : State} {l : Label} {x y : Session} {i : ℕ}

def NotResponse (event : TransportEvent) : Prop := ∀ p, event = .messageReceived p → p.header.packetType ≠ .response

theorem notResponse_of_onEvent {event published : TransportEvent} (h : published ∈ (Transport.onEvent lib event).published) :
    NotResponse published := by
  rintro p rfl hp
  cases event with
  | messageReceived packet =>
    cases ht : packet.header.packetType with
    | response =>
      simp only [Transport.onEvent, ht] at h
      cases h
    | request | oneWay =>
      rw [Transport.onEvent_forwards (by rw [ht]; decide), List.mem_singleton] at h
      cases h
      rw [ht] at hp
      cases hp
  | connectionEstablished | connectionClosed | messageSent | transportError | serverStarted | serverStopped
    | clientConnected | clientDisconnected | requestReceived =>
    cases List.mem_singleton.1 h

theorem handle_of_notResponse {event : TransportEvent} (h : NotResponse event) (pending : UInt32 → Bool) (id : SessionId) :
    TransportServer.handleTransportEvent pending id event =
        TransportServer.handleTransportEvent (fun _ => false) id event ∧
      (TransportServer.handleTransportEvent pending id event).completed = none := by
  cases event with
  | messageReceived packet =>
    cases ht : packet.header.packetType with
    | response => exact absurd ht (h packet rfl)
    | request | oneWay => simp only [TransportServer.handleTransportEvent, ht, and_self]
  | connectionEstablished | connectionClosed | messageSent | transportError | serverStarted | serverStopped
    | clientConnected | clientDisconnected | requestReceived => exact ⟨rfl, rfl⟩

/-- A task publishes traffic of its own session only. -/
theorem id_of_isTraffic {event : TransportEvent} {pending : UInt32 → Bool} {id id' : SessionId} {e : ServerEvent}
    (he : e ∈ (TransportServer.handleTransportEvent pending id event).published) (ht : e.isTraffic id' = true) : id' = id := by
  cases event with
  | messageReceived packet =>
    simp only [TransportServer.handleTransportEvent] at he
    split at he
    · rw [List.mem_singleton.1 he] at ht
      exact (beq_iff_eq.1 ht).symm
    · split at he
      · cases he
      · rw [List.mem_singleton.1 he] at ht
        exact (beq_iff_eq.1 ht).symm
    · rw [List.mem_singleton.1 he] at ht
      exact (beq_iff_eq.1 ht).symm
  | messageSent | transportError =>
    rw [List.mem_singleton.1 he] at ht
    exact (beq_iff_eq.1 ht).symm
  | connectionClosed =>
    rw [List.mem_singleton.1 he] at ht
    cases ht
  | connectionEstablished | serverStarted | serverStopped | clientConnected | clientDisconnected | requestReceived => cases he

theorem not_isTraffic_of_isAnnouncement {e : ServerEvent} (h : e.isAnnouncement = true) (id : SessionId) : e.isTraffic id = false := by
  cases e with
  | connectionEstablished | connectionClosed => rfl
  | messageReceived | messageSent | transportError | serverStarted | serverStopped => cases h

/-! ### One session -/

def Session.forwarded (x : Session) : List TransportEvent := x.consumer.elim [] Relay.handled

def Session.done (x : Session) : List TransportEvent := x.task.elim [] Relay.handled

structure Session.Inv (lib : CompressionLib) (x : Session) : Prop where
  consumer : ∀ r, x.consumer = some r → r.On x.adapter
  transport : x.transport.sent = x.forwarded.flatMap fun event => (Transport.onEvent lib event).published
  task : ∀ r, x.task = some r → r.On x.transport

theorem Session.Inv.new (id : SessionId) (protocol : Protocol) : (Session.new id protocol).Inv lib :=
  ⟨fun _ h => (nomatch h), rfl, fun _ h => (nomatch h)⟩

/-- What a session does without the server. -/
inductive Moves (lib : CompressionLib) (x : Session) : Session → Prop
  | publish (event : TransportEvent) : Moves lib x { x with adapter := x.adapter.send event }
  | listen (h : x.consumer = none) : Moves lib x { x with consumer := some (.subscribe x.adapter) }
  | recvConsumer (r : Relay TransportEvent) (h : x.consumer = some r) :
    Moves lib x { x with consumer := some (r.poll x.adapter) }
  | onEvent (r r' : Relay TransportEvent) (event : TransportEvent) (h : x.consumer = some r)
    (hf : r.finish = some (event, r')) :
    Moves lib x { x with consumer := some r', transport := x.transport.sendAll (Transport.onEvent lib event).published }
  | attach (h : x.task = none) : Moves lib x { x with task := some (.subscribe x.transport) }
  | recvTask (r : Relay TransportEvent) (h : x.task = some r) : Moves lib x { x with task := some (r.poll x.transport) }

theorem Moves.id_eq (h : Moves lib x y) : y.id = x.id := by cases h <;> rfl

theorem Moves.done_eq (h : Moves lib x y) : y.done = x.done := by
  cases h with
  | publish | listen | recvConsumer | onEvent => rfl
  | attach h => rw [Session.done, Session.done, h]; rfl
  | recvTask r h => rw [Session.done, Session.done, h]; exact Relay.handled_poll ..

theorem Session.Inv.moves (h : x.Inv lib) (hm : Moves lib x y) : y.Inv lib := by
  cases hm with
  | publish event => exact ⟨fun r hr => (h.consumer r hr).sendAll _, h.transport, h.task⟩
  | listen hnone =>
    refine ⟨fun r hr => ?_, ?_, h.task⟩
    · cases hr
      exact .subscribe _
    · have := h.transport
      rw [Session.forwarded, hnone] at this
      exact this
  | recvConsumer r hr =>
    refine ⟨fun r' hr' => ?_, ?_, h.task⟩
    · cases hr'
      exact (h.consumer r hr).poll
    · have := h.transport
      rw [Session.forwarded, hr] at this
      exact this.trans (congrArg (List.flatMap _) (Relay.handled_poll ..).symm)
  | onEvent r r' event hr hf =>
    obtain ⟨hon, hhandled, -⟩ := (h.consumer r hr).finish hf
    refine ⟨fun q hq => ?_, ?_, fun q hq => (h.task q hq).sendAll _⟩
    · cases hq
      exact hon
    · have := h.transport
      rw [Session.forwarded, hr] at this
      show x.transport.sent ++ _ = r'.handled.flatMap _
      rw [this, hhandled, List.flatMap_append, List.flatMap_singleton]
      rfl
  | attach hnone =>
    refine ⟨h.consumer, h.transport, fun r hr => ?_⟩
    cases hr
    exact .subscribe _
  | recvTask r hr =>
    refine ⟨h.consumer, h.transport, fun r' hr' => ?_⟩
    cases hr'
    exact (h.task r hr).poll

theorem Session.Inv.finish (h : x.Inv lib) {r r' : Relay TransportEvent} {event : TransportEvent} (hr : x.task = some r)
    (hf : r.finish = some (event, r')) : Session.Inv lib { x with task := some r' } ∧
      Session.done { x with task := some r' } = x.done ++ [event] ∧ NotResponse event := by
  have hon := h.task r hr
  obtain ⟨hon', hhandled, -⟩ := hon.finish hf
  refine ⟨⟨h.consumer, h.transport, fun q hq => ?_⟩, ?_, ?_⟩
  · cases hq
    exact hon'
  · rw [Session.done, Session.done, hr]
    exact hhandled
  · have hmem := hon.mem_of_working (Relay.finish_eq_some.1 hf).1
    rw [h.transport] at hmem
    obtain ⟨e, -, he⟩ := List.mem_flatMap.1 hmem
    exact notResponse_of_onEvent he

/-- What the session task has handled is a prefix of what was passed on to it. -/
theorem Session.Inv.done_isPrefix (h : x.Inv lib) : x.done <+: x.passed lib := by
  unfold Session.done Session.passed Session.heard
  cases hr : x.task with
  | none => exact List.nil_prefix
  | some r =>
    refine (h.task r hr).handled_isPrefix.trans (List.IsPrefix.drop ?_ r.start)
    rw [h.transport, Session.forwarded]
    cases hc : x.consumer with
    | none => exact List.nil_prefix
    | some c => exact (h.consumer c hc).handled_isPrefix.flatMap _

theorem Session.Inv.done_of_caughtUp (h : x.Inv lib) (hc : x.CaughtUp) : x.done = x.passed lib := by
  obtain ⟨⟨c, hc, hcup⟩, r, hr, hrup⟩ := hc
  unfold Session.done Session.passed Session.heard
  rw [hr, hc]
  show r.handled = _
  rw [(h.task r hr).handled_of_caughtUp hrup, h.transport, Session.forwarded, hc]
  show (c.handled.flatMap _).drop r.start = _
  rw [(h.consumer c hc).handled_of_caughtUp hcup]
  rfl

/-! ### Runs -/

/-- A step is a move of one session, a task's event for the server, or one of the server's own. -/
theorem step_cases (h : step lib s l = some s') :
    (∃ protocol, s' = { s with nextId := s.nextId + 1, sessions := s.sessions ++ [.new s.nextId protocol] }) ∨
    (∃ i x y, s.sessions[i]? = some x ∧ Moves lib x y ∧ s' = { s with sessions := s.sessions.set i y }) ∨
    (∃ i x r r' event pending, s.sessions[i]? = some x ∧ x.task = some r ∧ r.finish = some (event, r') ∧
      s' = { s with
        sessions := s.sessions.set i { x with task := some r' }
        server := s.server.sendAll (TransportServer.handleTransportEvent pending x.id event).published
        completed := s.completed ++ (TransportServer.handleTransportEvent pending x.id event).completed.toList }) ∨
    (∃ event, event.isAnnouncement = true ∧ s' = { s with server := s.server.send event }) ∨
    (s' = { s with applications := s.applications ++ [.subscribe s.server] }) ∨
    ∃ k r r', s.applications[k]? = some r ∧ (r.On s.server → r'.On s.server) ∧
      s' = { s with applications := s.applications.set k r' } := by
  have hupdate : ∀ {i f}, s.update i f = some s' →
      ∃ x y, s.sessions[i]? = some x ∧ f x = some y ∧ s' = { s with sessions := s.sessions.set i y } := by
    intro i f hs
    obtain ⟨x, hx, hs⟩ := Option.bind_eq_some_iff.1 hs
    obtain ⟨y, hy, rfl⟩ := Option.map_eq_some_iff.1 hs
    exact ⟨x, y, hx, hy, rfl⟩
  have happlication : ∀ {k f}, s.application k f = some s' → ∃ r r', s.applications[k]? = some r ∧ f r = some r' ∧
      s' = { s with applications := s.applications.set k r' } := by
    intro k f hs
    obtain ⟨r, hr, hs⟩ := Option.bind_eq_some_iff.1 hs
    obtain ⟨r', hr', rfl⟩ := Option.map_eq_some_iff.1 hs
    exact ⟨r, r', hr, hr', rfl⟩
  cases l with
  | accept protocol => exact .inl ⟨protocol, (Option.some.inj h).symm⟩
  | publish i event =>
    obtain ⟨x, y, hx, hy, rfl⟩ := hupdate h
    cases hy
    exact .inr (.inl ⟨i, x, _, hx, .publish event, rfl⟩)
  | listen i =>
    obtain ⟨x, y, hx, hy, rfl⟩ := hupdate h
    split at hy
    · next hnone =>
      cases hy
      exact .inr (.inl ⟨i, x, _, hx, .listen hnone, rfl⟩)
    · cases hy
  | recvConsumer i =>
    obtain ⟨x, y, hx, hy, rfl⟩ := hupdate h
    obtain ⟨r, hr, rfl⟩ := Option.map_eq_some_iff.1 hy
    exact .inr (.inl ⟨i, x, _, hx, .recvConsumer r hr, rfl⟩)
  | onEvent i =>
    obtain ⟨x, y, hx, hy, rfl⟩ := hupdate h
    obtain ⟨⟨event, r'⟩, hf, rfl⟩ := Option.map_eq_some_iff.1 hy
    obtain ⟨r, hr, hf⟩ := Option.bind_eq_some_iff.1 hf
    exact .inr (.inl ⟨i, x, _, hx, .onEvent r r' event hr hf, rfl⟩)
  | attach i =>
    obtain ⟨x, y, hx, hy, rfl⟩ := hupdate h
    split at hy
    · next hnone =>
      cases hy
      exact .inr (.inl ⟨i, x, _, hx, .attach hnone, rfl⟩)
    · cases hy
  | recvTask i =>
    obtain ⟨x, y, hx, hy, rfl⟩ := hupdate h
    obtain ⟨r, hr, rfl⟩ := Option.map_eq_some_iff.1 hy
    exact .inr (.inl ⟨i, x, _, hx, .recvTask r hr, rfl⟩)
  | handle i pending =>
    obtain ⟨x, hx, h⟩ := Option.bind_eq_some_iff.1 h
    obtain ⟨⟨event, r'⟩, hf, rfl⟩ := Option.map_eq_some_iff.1 h
    obtain ⟨r, hr, hf⟩ := Option.bind_eq_some_iff.1 hf
    exact .inr (.inr (.inl ⟨i, x, r, r', event, pending, hx, hr, hf, rfl⟩))
  | announce event =>
    obtain ⟨he, h⟩ := Option.ite_none_right_eq_some.1 h
    exact .inr (.inr (.inr (.inl ⟨event, he, (Option.some.inj h).symm⟩)))
  | subscribe => exact .inr (.inr (.inr (.inr (.inl (Option.some.inj h).symm))))
  | recv k =>
    obtain ⟨r, r', hr, hr', rfl⟩ := happlication h
    cases hr'
    exact .inr (.inr (.inr (.inr (.inr ⟨k, r, _, hr, fun hon => hon.poll, rfl⟩))))
  | work k =>
    obtain ⟨r, r', hr, hr', rfl⟩ := happlication h
    obtain ⟨⟨e, q⟩, hf, rfl⟩ := Option.map_eq_some_iff.1 hr'
    exact .inr (.inr (.inr (.inr (.inr ⟨k, r, _, hr, fun hon => (hon.finish hf).1, rfl⟩))))

/-- The ids `session_id_generator` gives out from 1 on. -/
def idAt (i : ℕ) : SessionId := UInt64.ofNat (i + 1)

theorem idAt_inj {i j : ℕ} (hi : i < 2 ^ 64) (hj : j < 2 ^ 64) (h : idAt i = idAt j) : i = j := by
  have := congrArg UInt64.toNat h
  rw [idAt, idAt, UInt64.toNat_ofNat', UInt64.toNat_ofNat'] at this
  omega

theorem idAt_succ (i : ℕ) : idAt i + 1 = idAt (i + 1) := by
  refine UInt64.toNat_inj.1 ?_
  rw [UInt64.toNat_add, idAt, idAt, UInt64.toNat_ofNat', UInt64.toNat_ofNat']
  show ((i + 1) % 2 ^ 64 + 1) % 2 ^ 64 = (i + 1 + 1) % 2 ^ 64
  omega

structure Inv (lib : CompressionLib) (s : State) : Prop where
  nextId : s.nextId = idAt s.sessions.length
  ids : ∀ (i : ℕ) (x : Session), s.sessions[i]? = some x → x.id = idAt i
  session : ∀ (i : ℕ) (x : Session), s.sessions[i]? = some x → x.Inv lib
  routed : ∀ (i : ℕ) (x : Session), s.sessions[i]? = some x →
    s.server.sent.filter (ServerEvent.isTraffic x.id) = x.done.flatMap (traffic x.id)
  known : ∀ event ∈ s.server.sent, ∀ id, event.isTraffic id = true → ∃ (i : ℕ) (x : Session), s.sessions[i]? = some x ∧ x.id = id
  application : ∀ r ∈ s.applications, r.On s.server
  untouched : s.completed = []

theorem Inv.start (lib : CompressionLib) : Inv lib start :=
  ⟨rfl, fun _ _ h => (nomatch h), fun _ _ h => (nomatch h), fun _ _ h => (nomatch h), fun _ h => absurd h List.not_mem_nil,
    fun _ h => absurd h List.not_mem_nil, rfl⟩

/-- An index of the sessions after a change of one that keeps its id. -/
theorem exists_set_of_id {id : SessionId} (hx : s.sessions[i]? = some x) (hid : y.id = x.id)
    (h : ∃ (j : ℕ) (z : Session), s.sessions[j]? = some z ∧ z.id = id) :
    ∃ (j : ℕ) (z : Session), (s.sessions.set i y)[j]? = some z ∧ z.id = id := by
  obtain ⟨j, z, hz, hzid⟩ := h
  by_cases hj : j = i
  · subst hj
    rw [hx] at hz
    cases hz
    exact ⟨j, y, Indexed.getElem?_set_self_of_some hx, hid.trans hzid⟩
  · refine ⟨j, z, ?_, hzid⟩
    rw [Indexed.getElem?_set_of_some hx, if_neg hj]
    exact hz

theorem Inv.move (h : Inv lib s) (hx : s.sessions[i]? = some x) (hm : Moves lib x y) :
    Inv lib { s with sessions := s.sessions.set i y } := by
  have hcases : ∀ (j : ℕ) (z : Session), (s.sessions.set i y)[j]? = some z → j = i ∧ z = y ∨ s.sessions[j]? = some z :=
    fun j z hz => (Indexed.of_getElem?_set hx hz).imp_right And.right
  refine ⟨?_, fun j z hz => ?_, fun j z hz => ?_, fun j z hz => ?_, fun e he id ht => ?_, h.application, h.untouched⟩
  · rw [List.length_set]
    exact h.nextId
  · rcases hcases j z hz with ⟨rfl, rfl⟩ | hz
    · exact hm.id_eq.trans (h.ids _ x hx)
    · exact h.ids j z hz
  · rcases hcases j z hz with ⟨rfl, rfl⟩ | hz
    · exact (h.session _ x hx).moves hm
    · exact h.session j z hz
  · rcases hcases j z hz with ⟨rfl, rfl⟩ | hz
    · rw [hm.id_eq, hm.done_eq]
      exact h.routed _ x hx
    · exact h.routed j z hz
  · exact exists_set_of_id hx hm.id_eq (h.known e he id ht)

theorem filter_eq_nil_of_ne {event : TransportEvent} {pending : UInt32 → Bool} {id id' : SessionId} (hne : id' ≠ id) :
    (TransportServer.handleTransportEvent pending id event).published.filter (ServerEvent.isTraffic id') = [] := by
  refine List.filter_eq_nil_iff.2 fun e he ht => ?_
  exact hne (id_of_isTraffic he ht)

/-- The task of one session hands an event over; with distinct ids it is no traffic of another. -/
theorem Inv.handle (h : Inv lib s) (hfew : s.sessions.length ≤ 2 ^ 64) (hx : s.sessions[i]? = some x)
    {r r' : Relay TransportEvent} {event : TransportEvent} (pending : UInt32 → Bool) (hr : x.task = some r)
    (hf : r.finish = some (event, r')) : Inv lib { s with
      sessions := s.sessions.set i { x with task := some r' }
      server := s.server.sendAll (TransportServer.handleTransportEvent pending x.id event).published
      completed := s.completed ++ (TransportServer.handleTransportEvent pending x.id event).completed.toList } := by
  obtain ⟨hinv, hdone, hnot⟩ := (h.session i x hx).finish hr hf
  obtain ⟨hsame, hcompleted⟩ := handle_of_notResponse hnot pending x.id
  have hcases : ∀ (j : ℕ) (z : Session), (s.sessions.set i { x with task := some r' })[j]? = some z →
      j = i ∧ z = { x with task := some r' } ∨ j ≠ i ∧ s.sessions[j]? = some z :=
    fun j z hz => Indexed.of_getElem?_set hx hz
  have hlt : ∀ {j : ℕ} {z : Session}, s.sessions[j]? = some z → j < 2 ^ 64 :=
    fun hz => Nat.lt_of_lt_of_le (List.getElem?_eq_some_iff.1 hz).1 hfew
  refine ⟨?_, fun j z hz => ?_, fun j z hz => ?_, fun j z hz => ?_, fun e he id ht => ?_, fun q hq => ?_, ?_⟩
  · show s.nextId = idAt (s.sessions.set i _).length
    rw [List.length_set]
    exact h.nextId
  · rcases hcases j z hz with ⟨rfl, rfl⟩ | ⟨-, hz⟩
    · exact h.ids _ x hx
    · exact h.ids j z hz
  · rcases hcases j z hz with ⟨rfl, rfl⟩ | ⟨-, hz⟩
    · exact hinv
    · exact h.session j z hz
  · show (s.server.sent ++ _).filter _ = _
    rw [List.filter_append]
    rcases hcases j z hz with ⟨rfl, rfl⟩ | ⟨hj, hz⟩
    · rw [h.routed _ x hx, hdone, List.flatMap_append, List.flatMap_singleton, traffic, ← hsame]
    · rw [h.routed j z hz, filter_eq_nil_of_ne, List.append_nil]
      rw [h.ids j z hz, h.ids i x hx]
      exact fun heq => hj (idAt_inj (hlt hz) (hlt hx) heq)
  · rcases List.mem_append.1 he with he | he
    · exact exists_set_of_id (y := { x with task := some r' }) hx rfl (h.known e he id ht)
    · exact ⟨i, _, Indexed.getElem?_set_self_of_some hx, (id_of_isTraffic he ht).symm⟩
  · exact (h.application q hq).sendAll _
  · show s.completed ++ _ = []
    rw [h.untouched, hcompleted]
    rfl

theorem Inv.step (h : Inv lib s) (hs : step lib s l = some s') (hfew : s'.sessions.length ≤ 2 ^ 64) : Inv lib s' := by
  rcases step_cases hs with ⟨protocol, rfl⟩ | ⟨i, x, y, hx, hm, rfl⟩ | ⟨i, x, r, r', event, pending, hx, hr, hf, rfl⟩ |
    ⟨event, he, rfl⟩ | rfl | ⟨k, r, r', hr, hon, rfl⟩
  · -- a new session, with an id of its own
    rw [List.length_append] at hfew
    have hlt : ∀ {j : ℕ} {z : Session}, s.sessions[j]? = some z → j < s.sessions.length :=
      fun hz => (List.getElem?_eq_some_iff.1 hz).1
    have hfresh : ∀ event ∈ s.server.sent, event.isTraffic s.nextId = false := by
      intro event he
      rw [← Bool.not_eq_true]
      intro ht
      obtain ⟨j, z, hz, hid⟩ := h.known event he _ ht
      rw [h.ids j z hz, h.nextId] at hid
      have hj := hlt hz
      have := idAt_inj (i := j) (j := s.sessions.length) (by omega) (by simp at hfew; omega) hid
      omega
    have hcases : ∀ (j : ℕ) (z : Session), (s.sessions ++ [Session.new s.nextId protocol])[j]? = some z →
        s.sessions[j]? = some z ∨ j = s.sessions.length ∧ z = .new s.nextId protocol :=
      fun j z hz => Indexed.getElem?_concat_eq_some.1 hz
    refine ⟨?_, fun j z hz => ?_, fun j z hz => ?_, fun j z hz => ?_, fun e he id ht => ?_, h.application, h.untouched⟩
    · rw [List.length_append, h.nextId, idAt_succ]
      rfl
    · rcases hcases j z hz with hz | ⟨rfl, rfl⟩
      · exact h.ids j z hz
      · exact h.nextId
    · rcases hcases j z hz with hz | ⟨rfl, rfl⟩
      · exact h.session j z hz
      · exact .new _ _
    · rcases hcases j z hz with hz | ⟨rfl, rfl⟩
      · exact h.routed j z hz
      · exact List.filter_eq_nil_iff.2 fun event he ht => Bool.noConfusion ((hfresh event he).symm.trans ht)
    · obtain ⟨j, z, hz, hid⟩ := h.known e he id ht
      exact ⟨j, z, Indexed.getElem?_concat_of_some hz, hid⟩
  · exact h.move hx hm
  · refine h.handle ?_ hx pending hr hf
    rwa [List.length_set] at hfew
  · refine ⟨h.nextId, h.ids, h.session, fun j z hz => ?_, fun e he' id ht => ?_, fun q hq => (h.application q hq).sendAll _,
      h.untouched⟩
    · show (s.server.sent ++ [event]).filter _ = _
      rw [List.filter_append, h.routed j z hz, List.filter_singleton, not_isTraffic_of_isAnnouncement he]
      exact List.append_nil _
    · rcases List.mem_append.1 he' with he' | he'
      · exact h.known e he' id ht
      · rw [List.mem_singleton.1 he', not_isTraffic_of_isAnnouncement he] at ht
        cases ht
  · refine ⟨h.nextId, h.ids, h.session, h.routed, h.known, fun q hq => ?_, h.untouched⟩
    rcases List.mem_append.1 hq with hq | hq
    · exact h.application q hq
    · rw [List.mem_singleton.1 hq]
      exact .subscribe _
  · refine ⟨h.nextId, h.ids, h.session, h.routed, h.known, fun q hq => ?_, h.untouched⟩
    rcases List.mem_or_eq_of_mem_set hq with hq | rfl
    · exact h.application q hq
    · exact hon (h.application r (List.mem_of_getElem? hr))

theorem length_le_of_step (hs : step lib s l = some s') : s.sessions.length ≤ s'.sessions.length := by
  rcases step_cases hs with ⟨protocol, rfl⟩ | ⟨i, x, y, hx, hm, rfl⟩ | ⟨i, x, r, r', event, pending, hx, hr, hf, rfl⟩ |
    ⟨event, he, rfl⟩ | rfl | ⟨k, r, r', hr, hon, rfl⟩
  · simp
  · simp
  · simp
  · exact Nat.le_refl _
  · exact Nat.le_refl _
  · exact Nat.le_refl _

theorem inv_of_run {ls : List Label} (hr : StepSystem.run (step lib) start ls = some s)
    (hfew : s.sessions.length ≤ 2 ^ 64) : Inv lib s := by
  have hkeep : ∀ s l s', step lib s l = some s' → (s.sessions.length ≤ 2 ^ 64 → Inv lib s) →
      s'.sessions.length ≤ 2 ^ 64 → Inv lib s' := by
    intro s l s' hs h hfew
    exact (h (Nat.le_trans (length_le_of_step hs) hfew)).step hs hfew
  exact StepSystem.run_invariant (I := fun s => s.sessions.length ≤ 2 ^ 64 → Inv lib s) hkeep hr (fun _ => .start lib) hfew

theorem Inv.law (h : Inv lib s) (hfew : s.sessions.length ≤ 2 ^ 64) : Law lib s := by
  have hindex : ∀ x ∈ s.sessions, ∃ i : ℕ, s.sessions[i]? = some x := fun x hx => List.mem_iff_getElem?.1 hx
  have hsession : ∀ x ∈ s.sessions,
      s.server.sent.filter (ServerEvent.isTraffic x.id) <+: (x.passed lib).flatMap (traffic x.id) := by
    intro x hx
    obtain ⟨i, hi⟩ := hindex x hx
    rw [h.routed i x hi]
    exact (h.session i x hi).done_isPrefix.flatMap _
  refine ⟨?_, hsession, fun x hx hc => ?_, fun e he id ht => ?_, fun r hr => (h.application r hr).got, fun r hr x hx => ?_,
    h.untouched⟩
  · refine List.nodup_iff_getElem?_ne_getElem?.2 fun i j hij hj heq => ?_
    rw [List.length_map] at hj
    have hi : i < s.sessions.length := Nat.lt_trans hij hj
    rw [List.getElem?_map, List.getElem?_map, List.getElem?_eq_getElem hi, List.getElem?_eq_getElem hj] at heq
    have hid : s.sessions[i].id = s.sessions[j].id := Option.some.inj heq
    rw [h.ids i _ (List.getElem?_eq_getElem hi), h.ids j _ (List.getElem?_eq_getElem hj)] at hid
    have := idAt_inj (by omega) (by omega) hid
    omega
  · obtain ⟨i, hi⟩ := hindex x hx
    rw [h.routed i x hi, (h.session i x hi).done_of_caughtUp hc]
  · obtain ⟨i, x, hx, hid⟩ := h.known e he id ht
    exact ⟨x, List.mem_of_getElem? hx, hid⟩
  · -- a prefix of a part of the end of a prefix
    have hgot := (h.application r hr).got.filter (ServerEvent.isTraffic x.id)
    have hdrop : (s.server.sent.drop r.start).filter (ServerEvent.isTraffic x.id) <:+
        s.server.sent.filter (ServerEvent.isTraffic x.id) := (List.drop_suffix ..).filter _
    exact (hgot.isInfix.trans hdrop.isInfix).trans (hsession x hx).isInfix

/-- The law of the events of a server: over every run, with fewer sessions than ids. -/
theorem law_of_sessions {ls : List Label} (hr : StepSystem.run (step lib) start ls = some s)
    (hfew : s.sessions.length ≤ 2 ^ 64) : Law lib s :=
  (inv_of_run hr hfew).law hfew

/-- Two sessions, the second one overtakes the first on its way to the application. -/
theorem law_of_sessions_two :
    let ls : List Label := [.accept .tcp, .subscribe, .accept .quic, .listen 0, .attach 0, .listen 1, .attach 1,
      .publish 0 (.messageReceived (.oneWay 1 [7])), .publish 1 (.messageSent 4), .recvConsumer 0, .recvConsumer 1, .onEvent 1,
      .onEvent 0, .recvTask 1, .recvTask 0, .handle 1 fun _ => true, .announce (.connectionClosed 1 .normal),
      .handle 0 fun _ => true, .recv 0, .work 0, .recv 0]
    ∃ s, StepSystem.run (step ⟨none, none⟩) start ls = some s ∧ Law ⟨none, none⟩ s := by
  intro ls
  have hrun : (StepSystem.run (step ⟨none, none⟩) start ls).map (fun s => s.sessions.length) = some 2 := by decide
  obtain ⟨s, hs, hlen⟩ := Option.map_eq_some_iff.1 hrun
  exact ⟨s, hs, law_of_sessions hs (by omega)⟩

end EventRouting

end Msgtrans
