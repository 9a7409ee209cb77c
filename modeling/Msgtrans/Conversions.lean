import Msgtrans.Delivery

/-!
# From transport events to the application's events

Five paths turn a received packet into an event of the application: `ClientEvent::from_transport_event`, the
stream of `TransportClient::events` over it, the forwarding task behind `subscribe_events`,
`ServerEvent::from_transport_event_with_session` and `TransportServer::handle_transport_event`. On two of them a
request can be answered; the others drop it or show it as a one-way message: `yields_iff`.
-/

namespace Msgtrans

def ServerEvent.fromTransportEventWithSession (event : TransportEvent) (sessionId : SessionId) : Option ServerEvent :=
  match event with
  | .connectionEstablished info => some (.connectionEstablished sessionId info)
  | .connectionClosed reason => some (.connectionClosed sessionId reason)
  | .messageReceived packet =>
    let context := TransportContext.newOneway (some sessionId) packet.header.messageId packet.header.bizType
      packet.extHeader? packet.payload
    some (.messageReceived sessionId context)
  | .messageSent packetId => some (.messageSent sessionId packetId)
  | .transportError error => some (.transportError (some sessionId) error)
  | .requestReceived ctx =>
    let transportCtx := TransportContext.newRequest (some sessionId) ctx.requestId ctx.bizType none ctx.data ctx.responder
    some (.messageReceived sessionId transportCtx)
  | .serverStarted address => some (.serverStarted address)
  | .serverStopped => some .serverStopped
  | _ => none

/-- What `ClientEventStream::next` returns, one after the other, over what the connection publishes. -/
def TransportClient.events (events : List TransportEvent) : List ClientEvent :=
  events.filterMap ClientEvent.fromTransportEvent

namespace Conversions

inductive Path where
  | clientFromTransportEvent
  | clientEvents
  | clientForwarding
  | serverFromTransportEvent
  | serverHandle
deriving DecidableEq

inductive UserEvent where
  | client (event : ClientEvent)
  | server (event : ServerEvent)

def UserEvent.context? : UserEvent → Option TransportContext
  | .client event => event.context?
  | .server event => event.context?

/-- What the path makes of one event, with `pending` the ids in the server's tracker. -/
def Path.userEvents (pending : UInt32 → Bool) (sessionId : SessionId) (event : TransportEvent) : Path → List UserEvent
  | .clientFromTransportEvent => (ClientEvent.fromTransportEvent event).toList.map .client
  | .clientEvents => (TransportClient.events [event]).map .client
  | .clientForwarding => (TransportClient.forward event).toList.map .client
  | .serverFromTransportEvent => (ServerEvent.fromTransportEventWithSession event sessionId).toList.map .server
  | .serverHandle => (TransportServer.handleTransportEvent pending sessionId event).published.map .server

/-- The context shows the packet, and as a request exactly when it is one. -/
structure Represents (context : TransportContext) (packet : Packet) : Prop where
  isRequest : context.isRequest = (packet.header.packetType == .request)
  messageId : context.messageId = packet.header.messageId
  bizType : context.bizType = packet.header.bizType
  extHeader : context.extHeader.getD [] = packet.extHeader
  data : context.data = packet.payload

/-- The path makes exactly one event of the packet, a `MessageReceived` that represents it. -/
def Yields (pending : UInt32 → Bool) (sessionId : SessionId) (packet : Packet) (path : Path) : Prop :=
  ∃ event context, path.userEvents pending sessionId (.messageReceived packet) = [event] ∧
    event.context? = some context ∧ Represents context packet

/-- The two paths that build a context with a responder. -/
def Path.KeepsRequests (path : Path) : Prop := path = .clientForwarding ∨ path = .serverHandle

variable {pending : UInt32 → Bool} {sessionId : SessionId} {packet : Packet}

theorem represents_oneway (peer : Option SessionId) (h : packet.header.packetType = .oneWay) :
    Represents (.newOneway peer packet.header.messageId packet.header.bizType packet.extHeader? packet.payload) packet :=
  ⟨by rw [h]; rfl, rfl, rfl, Delivery.getD_extHeader? packet, rfl⟩

theorem represents_request (peer : Option SessionId) (responder : Bytes → Packet) (responded isPrimary : Bool)
    (h : packet.header.packetType = .request) :
    Represents ⟨peer, packet.header.messageId, packet.header.bizType, packet.extHeader?, packet.payload,
      .request responder responded isPrimary⟩ packet :=
  ⟨by rw [h]; rfl, rfl, rfl, Delivery.getD_extHeader? packet, rfl⟩

/-- A context without a responder represents no request. -/
theorem not_represents_oneway (peer : Option SessionId) (h : packet.header.packetType = .request) :
    ¬ Represents (.newOneway peer packet.header.messageId packet.header.bizType packet.extHeader? packet.payload) packet := by
  intro hr
  have hrequest := hr.isRequest
  rw [h] at hrequest
  cases hrequest

theorem yields_client {path : Path} {context : TransportContext} (hr : Represents context packet)
    (h : path.userEvents pending sessionId (.messageReceived packet) = [.client (.messageReceived context)]) :
    Yields pending sessionId packet path := ⟨_, context, h, rfl, hr⟩

theorem yields_server {path : Path} {context : TransportContext} (hr : Represents context packet)
    (h : path.userEvents pending sessionId (.messageReceived packet) = [.server (.messageReceived sessionId context)]) :
    Yields pending sessionId packet path := ⟨_, context, h, rfl, hr⟩

theorem yields_of_oneWay (h : packet.header.packetType = .oneWay) (path : Path) : Yields pending sessionId packet path := by
  have hne : ¬ PacketType.oneWay = .request := by decide
  cases path with
  | clientFromTransportEvent =>
    refine yields_client (represents_oneway none h) ?_
    simp only [Path.userEvents, ClientEvent.fromTransportEvent, h, Option.toList_some, List.map_cons, List.map_nil]
  | clientEvents =>
    refine yields_client (represents_oneway none h) ?_
    simp only [Path.userEvents, TransportClient.events, ClientEvent.fromTransportEvent, h, List.filterMap_cons,
      List.filterMap_nil, List.map_cons, List.map_nil]
  | clientForwarding =>
    refine yields_client (represents_oneway none h) ?_
    simp only [Path.userEvents, TransportClient.forward, ClientEvent.fromTransportEvent, h, if_neg hne,
      Option.toList_some, List.map_cons, List.map_nil]
  | serverFromTransportEvent => exact yields_server (represents_oneway (some sessionId) h) rfl
  | serverHandle =>
    refine yields_server (represents_oneway (some sessionId) h) ?_
    simp only [Path.userEvents, TransportServer.handleTransportEvent, h, List.map_cons, List.map_nil]

theorem yields_iff_of_request (h : packet.header.packetType = .request) (path : Path) :
    Yields pending sessionId packet path ↔ path.KeepsRequests := by
  cases path with
  | clientFromTransportEvent =>
    refine iff_of_false ?_ (by rintro (h | h) <;> cases h)
    rintro ⟨event, context, hevents, -⟩
    simp only [Path.userEvents, ClientEvent.fromTransportEvent, h] at hevents
    cases hevents
  | clientEvents =>
    refine iff_of_false ?_ (by rintro (h | h) <;> cases h)
    rintro ⟨event, context, hevents, -⟩
    simp only [Path.userEvents, TransportClient.events, ClientEvent.fromTransportEvent, h, List.filterMap_cons] at hevents
    cases hevents
  | clientForwarding =>
    refine iff_of_true (yields_client (represents_request none (responsePacket packet.header.messageId) false false h) ?_) (.inl rfl)
    simp only [Path.userEvents, TransportClient.forward, h, if_true, Option.toList_some, List.map_cons, List.map_nil]
    rfl
  | serverFromTransportEvent =>
    refine iff_of_false ?_ (by rintro (h | h) <;> cases h)
    rintro ⟨event, context, hevents, hcontext, hr⟩
    cases hevents
    cases hcontext
    exact not_represents_oneway _ h hr
  | serverHandle =>
    refine iff_of_true (yields_server (represents_request (some sessionId)
      (responsePacket packet.header.messageId) false true h) ?_) (.inr rfl)
    simp only [Path.userEvents, TransportServer.handleTransportEvent, h, List.map_cons, List.map_nil]
    rfl

/-- A received request or one-way packet reaches the application as what it is on every path exactly when it is
a one-way packet; a request does on the two paths that give it a responder. -/
theorem yields_iff (pending : UInt32 → Bool) (sessionId : SessionId) {packet : Packet} (h : packet.header.packetType ≠ .response) :
    ((∀ path, Yields pending sessionId packet path) ↔ packet.header.packetType = .oneWay) ∧
      ∀ path, Yields pending sessionId packet path ↔ packet.header.packetType = .oneWay ∨ path.KeepsRequests := by
  cases ht : packet.header.packetType with
  | response => exact absurd ht h
  | oneWay => exact ⟨iff_of_true (yields_of_oneWay ht) rfl, fun path => iff_of_true (yields_of_oneWay ht path) (.inl rfl)⟩
  | request =>
    refine ⟨iff_of_false (fun hall => ?_) (by decide), fun path => ?_⟩
    · rcases (yields_iff_of_request ht .clientEvents).1 (hall .clientEvents) with hpath | hpath <;> cases hpath
    · rw [yields_iff_of_request ht]
      exact (or_iff_right (by decide)).symm

theorem yields_iff_request : ((∀ path, Yields (fun _ => false) 7 (.request 2 [63]) path) ↔
      (Packet.request 2 [63]).header.packetType = .oneWay) ∧
    ∀ path, Yields (fun _ => false) 7 (.request 2 [63]) path ↔
      (Packet.request 2 [63]).header.packetType = .oneWay ∨ path.KeepsRequests :=
  yields_iff _ 7 (by decide)

/-- The request `?` gets lost in the stream of `events`, and is a one-way message after `from_transport_event_with_session`. -/
theorem request_dropped :
    Path.userEvents (fun _ => false) 7 (.messageReceived (.request 2 [63])) .clientEvents = [] ∧
      (Path.userEvents (fun _ => false) 7 (.messageReceived (.request 2 [63])) .serverFromTransportEvent).filterMap
        (fun e => e.context?.map TransportContext.isRequest) = [false] ∧
      ¬ ∀ path, Yields (fun _ => false) 7 (.request 2 [63]) path := by
  refine ⟨rfl, rfl, fun hall => ?_⟩
  obtain ⟨event, context, hevents, -⟩ := hall .clientEvents
  cases hevents

end Conversions

end Msgtrans
