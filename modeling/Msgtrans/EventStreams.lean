import Msgtrans.Conversions
import Msgtrans.Lib.Stream

/-!
# Event streams (`stream.rs`)

The streams over the events of a `Transport`: `EventStream` with its calls for one kind of event each, `PacketStream` and
`ConnectionStream` on top of it, and the `ClientEventStream` of `TransportClient::events`. All of them go on after a lag. A call
for one kind of event drops the others it comes by, and no event has a session id, so that a session filter drops nothing:
`events_of_run`.
-/

namespace Msgtrans

open Broadcast (Calls Channel Outcome Stream)

namespace TransportEvent

def sessionId : TransportEvent → Option SessionId
  | .connectionEstablished _ => none
  | .connectionClosed _ => none
  | .messageReceived _ => none
  | .messageSent _ => none
  | .transportError _ => none
  | .serverStarted _ => none
  | .serverStopped => none
  | .clientConnected _ => none
  | .clientDisconnected => none
  | .requestReceived _ => none

def isConnectionEvent : TransportEvent → Bool
  | .connectionEstablished _ => true
  | .connectionClosed _ => true
  | _ => false

def isDataEvent : TransportEvent → Bool
  | .messageReceived _ => true
  | .requestReceived _ => true
  | _ => false

def isErrorEvent : TransportEvent → Bool
  | .transportError _ => true
  | _ => false

end TransportEvent

/-! ### The streams -/

namespace EventStream

inductive Method where
  /-- `Stream::poll_next` -/
  | next
  | nextConnectionEvent
  | nextDataEvent
  | nextErrorEvent
deriving DecidableEq

def shouldEmitEvent (sessionFilter : Option SessionId) (event : TransportEvent) : Bool :=
  match sessionFilter with
  | some filterSessionId =>
    match event.sessionId with
    | some eventSessionId => eventSessionId == filterSessionId
    | none => true
  | none => true

def Method.wants : Method → TransportEvent → Bool
  | .next, _ => true
  | .nextConnectionEvent, event => event.isConnectionEvent
  | .nextDataEvent, event => event.isDataEvent
  | .nextErrorEvent, event => event.isErrorEvent

def calls (sessionFilter : Option SessionId) : Calls Method TransportEvent TransportEvent where
  accept m event := if shouldEmitEvent sessionFilter event && m.wants event then some event else none
  waits _ := true

end EventStream

inductive ConnectionEvent where
  | established (info : ConnectionInfo)
  | closed (reason : CloseReason)

def ConnectionEvent.ofTransportEvent : TransportEvent → Option ConnectionEvent
  | .connectionEstablished info => some (.established info)
  | .connectionClosed reason => some (.closed reason)
  | _ => none

/-- `next_packet` and `Stream::poll_next`, and `StreamCombinator::events_to_packets` of an `EventStream`. -/
def PacketStream.calls (sessionFilter : Option SessionId) : Calls Unit TransportEvent Packet where
  accept _ event := ((EventStream.calls sessionFilter).accept .next event).bind TransportEvent.packet?
  waits _ := true

/-- `next_connection` and `Stream::poll_next`, and `StreamCombinator::events_to_connections` of an `EventStream`. -/
def ConnectionStream.calls (sessionFilter : Option SessionId) : Calls Unit TransportEvent ConnectionEvent where
  accept _ event := ((EventStream.calls sessionFilter).accept .next event).bind ConnectionEvent.ofTransportEvent
  waits _ := true

namespace ClientEventStream

inductive Method where
  | next
  | tryNext
deriving DecidableEq

def calls : Calls Method TransportEvent ClientEvent where
  accept _ event := ClientEvent.fromTransportEvent event
  waits
    | .next => true
    | .tryNext => false

/-- What `try_next` returns; `next` returns the same without the `Option`. -/
def result : Outcome ClientEvent → Except TransportError (Option ClientEvent)
  | .item event => .ok (some event)
  | .empty => .ok none
  | .closed => .error (.connection "Event stream closed" false)

end ClientEventStream

/-! ### A session filter drops nothing -/

theorem TransportEvent.sessionId_eq_none (event : TransportEvent) : event.sessionId = none := by
  cases event <;> rfl

theorem EventStream.shouldEmitEvent_eq_true (sessionFilter : Option SessionId) (event : TransportEvent) :
    shouldEmitEvent sessionFilter event = true := by
  rcases sessionFilter with _ | id
  · rfl
  · rw [shouldEmitEvent, event.sessionId_eq_none]

theorem EventStream.accept_eq (sessionFilter : Option SessionId) (m : Method) (event : TransportEvent) :
    (calls sessionFilter).accept m event = if m.wants event then some event else none := by
  simp only [calls, shouldEmitEvent_eq_true, Bool.true_and]

theorem EventStream.accept_next (sessionFilter : Option SessionId) (event : TransportEvent) :
    (calls sessionFilter).accept .next event = some event := by
  rw [accept_eq]
  rfl

theorem PacketStream.accept_eq (sessionFilter : Option SessionId) :
    (calls sessionFilter).accept () = TransportEvent.packet? := by
  funext event
  simp only [calls, EventStream.accept_next, Option.bind_some]

theorem ConnectionStream.accept_eq (sessionFilter : Option SessionId) :
    (calls sessionFilter).accept () = ConnectionEvent.ofTransportEvent := by
  funext event
  simp only [calls, EventStream.accept_next, Option.bind_some]

/-! ### Every run of a stream -/

namespace EventStreams

open Broadcast.Stream (Accounts Label Room)

variable {μ β : Type} {c c' : Channel TransportEvent}

/-- What holds of every stream: the values received are events sent since the subscription, each once and in order, and all that
are missing were lost to lags, none of them retained to the last. -/
structure Received (c : Channel TransportEvent) (s : Stream μ TransportEvent β) : Prop where
  order : (s.read.map Prod.snd).Sublist (c.sent.drop s.start)
  /-- of the events sent up to where the stream stands, all but those lost to lags have been received -/
  count : s.start + s.read.length + s.missed = s.next ∧ s.next ≤ c.sent.length
  complete : s.missed = 0 → s.read.map Prod.snd = (c.sent.take s.next).drop s.start
  ended : ∀ m, (m, Outcome.closed) ∈ s.returned → c.closed = true ∧ s.start + s.read.length + s.missed = c.sent.length ∧
    c.sent.drop (max s.start c.oldest) <:+ s.read.map Prod.snd

theorem received_of_accounts {k : Calls μ TransportEvent β} {s : Stream μ TransportEvent β} (h : Accounts k c s) : Received c s := by
  refine ⟨h.order.trans ((List.take_prefix ..).drop _).sublist, ⟨h.count, h.next_le⟩, h.read_eq, fun m hm => ?_⟩
  obtain ⟨hrecent, hcount⟩ := h.read_of_ended hm
  exact ⟨(h.ended m hm).1, hcount, hrecent⟩

/-- What an `EventStream` returns: each event to the call that came by it, if that is one for such events. -/
structure Events (c : Channel TransportEvent) (s : Stream EventStream.Method TransportEvent TransportEvent) : Prop
    extends Received c s where
  items : s.items = s.read.filter fun r => r.1.wants r.2

/-- What a `ClientEventStream` returns. -/
structure ClientEvents (c : Channel TransportEvent) (s : Stream ClientEventStream.Method TransportEvent ClientEvent) : Prop
    extends Received c s where
  items : s.items.map Prod.snd = TransportClient.events (s.read.map Prod.snd)
  waited : ∀ m o, (m, o) ∈ s.returned → ClientEventStream.result o = .ok none → m = .tryNext
  /-- the next call, left alone, returns the first client event among the retained events it has not received; without one an
  error when the channel is closed, and else `tryNext` returns nothing and `next` waits -/
  call : ∀ m, s.calling = some m → ∃ n, ((Stream.turn ClientEventStream.calls c)^[n] s).returned = s.returned ++
    (match (TransportClient.events (c.unread s.next)).head? with
      | some event => [(m, .item event)]
      | none => if c.closed then [(m, .closed)] else if m = .tryNext then [(m, .empty)] else [])

theorem items_eq_filter (sessionFilter : Option SessionId) (read : List (EventStream.Method × TransportEvent)) :
    Stream.passed (EventStream.calls sessionFilter) read = read.filter fun r => r.1.wants r.2 := by
  rw [Stream.passed, ← List.filterMap_eq_filter]
  refine List.filterMap_congr fun r _ => ?_
  rw [EventStream.accept_eq, Option.guard]
  split <;> rfl

/-- Any calls in any order, with any session filter. -/
theorem events_of_run {sessionFilter : Option SessionId} {ls : List (Label EventStream.Method TransportEvent)}
    {s : Stream EventStream.Method TransportEvent TransportEvent}
    (hr : StepSystem.run (Stream.step (EventStream.calls sessionFilter)) (c, .subscribe c) ls = some (c', s)) :
    Events c' s ∧ (StepSystem.Meets (Stream.step (EventStream.calls sessionFilter)) Room (c, .subscribe c) ls → s.missed = 0) := by
  have hacc := Accounts.of_run hr
  refine ⟨⟨received_of_accounts hacc, ?_⟩, Stream.missed_of_room hr⟩
  rw [hacc.items, items_eq_filter]

/-- A data event is taken off the channel by a call for connection events, which returns the event after it; the filter is for
another session. -/
theorem events_of_run_mixed :
    let c : Channel TransportEvent := .new 2
    let ls : List (Label EventStream.Method TransportEvent) := [.send (.clientConnected "a"), .send .serverStopped,
      .send (.connectionClosed .normal), .call .nextConnectionEvent, .turn, .turn, .turn, .close, .call .nextDataEvent, .turn]
    ∃ c' s, StepSystem.run (Stream.step (EventStream.calls (some 7))) (c, .subscribe c) ls = some (c', s) ∧ s.missed = 1 ∧
      Events c' s := by
  intro c ls
  have hrun : (StepSystem.run (Stream.step (EventStream.calls (some 7))) (c, .subscribe c) ls).map (·.2.missed) = some 1 := by
    rfl
  obtain ⟨⟨c', s⟩, hs, hmissed⟩ := Option.map_eq_some_iff.1 hrun
  exact ⟨c', s, hs, hmissed, (events_of_run hs).1⟩

/-- The streams of one kind of call: `k` accepts what `f` does. -/
theorem items_of_accepts {k : Calls Unit TransportEvent β} {f : TransportEvent → Option β} (hk : k.accept () = f)
    {ls : List (Label Unit TransportEvent)} {s : Stream Unit TransportEvent β}
    (hr : StepSystem.run (Stream.step k) (c, .subscribe c) ls = some (c', s)) :
    Received c' s ∧ s.items.map Prod.snd = (s.read.map Prod.snd).filterMap f := by
  have hacc := Accounts.of_run hr
  refine ⟨received_of_accounts hacc, ?_⟩
  rw [hacc.items, Stream.passed_of_forall (m := ()) k s.read fun _ _ => rfl, hk]

theorem packets_of_run {sessionFilter : Option SessionId} {ls : List (Label Unit TransportEvent)}
    {s : Stream Unit TransportEvent Packet}
    (hr : StepSystem.run (Stream.step (PacketStream.calls sessionFilter)) (c, .subscribe c) ls = some (c', s)) :
    Received c' s ∧ s.items.map Prod.snd = received (s.read.map Prod.snd) :=
  items_of_accepts (PacketStream.accept_eq sessionFilter) hr

theorem connections_of_run {sessionFilter : Option SessionId} {ls : List (Label Unit TransportEvent)}
    {s : Stream Unit TransportEvent ConnectionEvent}
    (hr : StepSystem.run (Stream.step (ConnectionStream.calls sessionFilter)) (c, .subscribe c) ls = some (c', s)) :
    Received c' s ∧ s.items.map Prod.snd = (s.read.map Prod.snd).filterMap ConnectionEvent.ofTransportEvent :=
  items_of_accepts (ConnectionStream.accept_eq sessionFilter) hr

/-! ### The client's stream -/

theorem passed_client (read : List (ClientEventStream.Method × TransportEvent)) :
    (Stream.passed ClientEventStream.calls read).map Prod.snd = TransportClient.events (read.map Prod.snd) := by
  rw [Stream.passed, List.map_filterMap, TransportClient.events, List.filterMap_map]
  refine List.filterMap_congr fun r _ => ?_
  rw [Option.map_map]
  exact Option.map_id_apply

theorem found_client (c : Channel TransportEvent) (m : ClientEventStream.Method) (unread : List TransportEvent) :
    ((Stream.found ClientEventStream.calls c m unread).map (m, ·)).toList =
      match (TransportClient.events unread).head? with
      | some event => [(m, .item event)]
      | none => if c.closed then [(m, .closed)] else if m = .tryNext then [(m, .empty)] else [] := by
  have haccept : ClientEventStream.calls.accept m = ClientEvent.fromTransportEvent := rfl
  rw [Stream.found, TransportClient.events, List.head?_filterMap, haccept]
  rcases unread.findSome? ClientEvent.fromTransportEvent with _ | event
  · rcases c.closed <;> rcases m <;> rfl
  · rfl

/-- Any calls of `next` and `try_next` in any order. -/
theorem clientEvents_of_run {ls : List (Label ClientEventStream.Method TransportEvent)}
    {s : Stream ClientEventStream.Method TransportEvent ClientEvent}
    (hr : StepSystem.run (Stream.step ClientEventStream.calls) (c, .subscribe c) ls = some (c', s)) : ClientEvents c' s := by
  have hacc := Accounts.of_run hr
  refine ⟨received_of_accounts hacc, ?_, fun m o hm ho => ?_, fun m hm => ?_⟩
  · rw [hacc.items, passed_client]
  · rcases o with event | _ | _
    · cases ho
    · have hwaits := hacc.waited m hm
      rcases m
      · cases hwaits
      · rfl
    · cases ho
  · obtain ⟨n, hn⟩ := Stream.turns_find (k := ClientEventStream.calls) (c := c') hm
    rw [found_client] at hn
    exact ⟨n, hn⟩

/-- A lag, an event that is none of the client's, and the end. -/
theorem clientEvents_of_run_ends :
    let c : Channel TransportEvent := .new 2
    let ls : List (Label ClientEventStream.Method TransportEvent) := [.call .tryNext, .turn, .send (.messageSent 1), .send .serverStopped,
      .send (.messageSent 2), .call .next, .turn, .turn, .turn, .close, .call .next, .turn]
    ∃ c' s, StepSystem.run (Stream.step ClientEventStream.calls) (c, .subscribe c) ls = some (c', s) ∧
      s.missed = 1 ∧ s.returned.map (·.1) = [.tryNext, .next, .next] ∧ ClientEvents c' s := by
  intro c ls
  have hrun : (StepSystem.run (Stream.step ClientEventStream.calls) (c, .subscribe c) ls).map (fun x =>
      (x.2.missed, x.2.returned.map (·.1))) = some (1, [.tryNext, .next, .next]) := by
    rfl
  obtain ⟨⟨c', s⟩, hs, heq⟩ := Option.map_eq_some_iff.1 hrun
  obtain ⟨hmissed, hreturned⟩ := Prod.mk.inj heq
  exact ⟨c', s, hs, hmissed, hreturned, clientEvents_of_run hs⟩

end EventStreams

end Msgtrans
