import Msgtrans.AdapterLink
import Msgtrans.EventRouting

/-!
# From a client's adapter to a server's application

A WebSocket link (`AdapterLink`) whose one end is the adapter of a session of a server (`EventRouting`). What an
application is shown of the packets of that session is one contiguous piece of the packets the other end's send queue took,
less the responses, which end at the session's own request tracker: nothing is changed, doubled, overtaken or left out in between
(`application_receives`). When nothing is under way any more, it is all of them.
-/

namespace Msgtrans

/-- What an application is shown of a packet. -/
structure Seen where
  messageId : UInt32
  bizType : UInt8
  extHeader : Bytes
  data : Bytes
deriving DecidableEq

def Packet.seen (p : Packet) : Seen := ⟨p.header.messageId, p.header.bizType, p.extHeader, p.payload⟩

def ServerEvent.seen? : ServerEvent → Option Seen
  | .messageReceived _ context => some ⟨context.messageId, context.bizType, context.extHeader.getD [], context.data⟩
  | _ => none

namespace EndToEnd

open EventRouting Broadcast

def isMessage (p : Packet) : Bool := p.header.packetType != .response

/-- What the application behind `r` is shown of session `id`. -/
def seen (r : Relay ServerEvent) (id : SessionId) : List Seen :=
  (r.reader.got.filter (ServerEvent.isTraffic id)).filterMap ServerEvent.seen?

variable {lib : CompressionLib} {id : SessionId} {event : TransportEvent} {events : List TransportEvent}

/-! ### One event -/

theorem seen_traffic (h : NotResponse event) :
    (traffic id event).filterMap ServerEvent.seen? = (event.packet?.map Packet.seen).toList := by
  unfold traffic
  cases event with
  | messageReceived packet =>
    have hext := Delivery.getD_extHeader? packet
    cases ht : packet.header.packetType with
    | response => exact absurd ht (h packet rfl)
    | request | oneWay =>
      simp [TransportServer.handleTransportEvent, ht, ServerEvent.isTraffic, ServerEvent.seen?, TransportEvent.packet?,
        Packet.seen, TransportContext.newOneway, TransportContext.newRequest, TransportContext.setPrimary, hext]
  | messageSent | transportError =>
    simp [TransportServer.handleTransportEvent, ServerEvent.seen?, TransportEvent.packet?, ServerEvent.isTraffic]
  | connectionClosed | connectionEstablished | serverStarted | serverStopped | clientConnected | clientDisconnected
    | requestReceived => rfl

theorem seen_flatMap_traffic (h : ∀ event ∈ events, NotResponse event) :
    (events.flatMap (traffic id)).filterMap ServerEvent.seen? = (received events).map Packet.seen := by
  induction events with
  | nil => rfl
  | cons event events ih =>
    rw [List.flatMap_cons, List.filterMap_append, seen_traffic (h event List.mem_cons_self),
      ih fun e he => h e (List.mem_cons_of_mem _ he), received, received, List.filterMap_cons]
    cases event.packet? <;> rfl

theorem received_onEvent (lib : CompressionLib) (events : List TransportEvent) :
    received (events.flatMap fun event => (Transport.onEvent lib event).published) = (received events).filter isMessage := by
  induction events with
  | nil => rfl
  | cons event events ih =>
    rw [List.flatMap_cons, received_append, ih]
    cases event with
    | messageReceived packet =>
      show _ = (packet :: received events).filter isMessage
      cases ht : packet.header.packetType with
      | response =>
        rw [List.filter_cons_of_neg (by rw [isMessage, ht]; decide)]
        simp only [Transport.onEvent, ht]
        rfl
      | request | oneWay =>
        rw [List.filter_cons_of_pos (by rw [isMessage, ht]; decide), Transport.onEvent_forwards (by rw [ht]; decide)]
        rfl
    | connectionEstablished | connectionClosed | messageSent | transportError | serverStarted | serverStopped
      | clientConnected | clientDisconnected | requestReceived => rfl

/-! ### One session -/

variable {x : Session}

theorem heard_isSuffix (x : Session) : x.heard <:+ x.adapter.sent := by
  unfold Session.heard
  cases x.consumer with
  | none => exact List.nil_suffix
  | some r => exact List.drop_suffix ..

theorem passed_isSuffix (lib : CompressionLib) (x : Session) :
    x.passed lib <:+ x.heard.flatMap fun event => (Transport.onEvent lib event).published := by
  unfold Session.passed
  cases x.task with
  | none => exact List.nil_suffix
  | some r => exact List.drop_suffix ..

theorem notResponse_of_passed : ∀ event ∈ x.passed lib, NotResponse event := by
  intro event he
  obtain ⟨e, -, he⟩ := List.mem_flatMap.1 ((passed_isSuffix lib x).subset he)
  exact notResponse_of_onEvent he

/-- The packets passed on to the application are the last of those the adapter published, less the responses. -/
theorem received_passed_isSuffix (lib : CompressionLib) (x : Session) :
    received (x.passed lib) <:+ (received x.adapter.sent).filter isMessage := by
  have hpassed := (passed_isSuffix lib x).filterMap TransportEvent.packet?
  have hheard := ((heard_isSuffix x).filterMap TransportEvent.packet?).filter isMessage
  exact (received_onEvent lib x.heard ▸ hpassed : _ <:+ (received x.heard).filter isMessage).trans hheard

/-- The tasks subscribed before anything was published. -/
def FromTheStart (x : Session) : Prop :=
  (∃ c, x.consumer = some c ∧ c.start = 0) ∧ ∃ t, x.task = some t ∧ t.start = 0

theorem passed_of_fromTheStart (h : FromTheStart x) :
    x.passed lib = x.adapter.sent.flatMap fun event => (Transport.onEvent lib event).published := by
  obtain ⟨⟨c, hc, hc0⟩, t, ht, ht0⟩ := h
  rw [Session.passed, Session.heard, hc, ht]
  show (List.flatMap _ (x.adapter.sent.drop c.start)).drop t.start = _
  rw [hc0, ht0]
  rfl

/-! ### The whole way -/

variable (next : Message → Except TungsteniteError Message)

/-- From the end `d` of a link to an application `r` of the server whose session `x` is the other end. -/
structure Delivers (s : WebSocketLink.Ends) (d : Link.Side) (t : State) (x : Session) (r : Relay ServerEvent) : Prop where
  piece : seen r x.id <:+: ((s d).accepted.filter isMessage).map Packet.seen
  /-- every packet fits one frame, nothing is queued or on the wire, every task was there from the start and has caught up -/
  all : (∀ p ∈ (s d).accepted, WebSocketLink.Fits p) → (s d).queue = [] → (s d.peer).inbox = [] →
    x.adapter.sent = WebSocketLink.events next s d.peer → FromTheStart x → x.CaughtUp → r.start = 0 → r.CaughtUp t.server →
      seen r x.id = ((s d).accepted.filter isMessage).map Packet.seen

variable {next}

theorem delivers_of_laws {s : WebSocketLink.Ends} {d : Link.Side} {t : State} {r : Relay ServerEvent}
    (hlink : WebSocketLink.Law next s d) (hroute : Inv lib t) (hlaw : Law lib t) (hx : x ∈ t.sessions) (hr : r ∈ t.applications)
    (hadapter : x.adapter.sent <+: WebSocketLink.events next s d.peer) : Delivers next s d t x r := by
  constructor
  · have hseen := (hlaw.piece r hr x hx).filterMap ServerEvent.seen?
    rw [seen_flatMap_traffic notResponse_of_passed] at hseen
    have hreceived : received x.adapter.sent <+: (s d).accepted :=
      ((hadapter.filterMap _).trans hlink.received).trans hlink.written
    have hpassed := (received_passed_isSuffix lib x).isInfix.trans (hreceived.filter isMessage).isInfix
    exact hseen.trans (hpassed.map Packet.seen)
  · intro hfits hqueue hinbox hsame hstart hcaught hr0 hrcaught
    have hgot : r.reader.got = t.server.sent := by
      have hon := hroute.application r hr
      have hworked := hon.worked
      rw [hrcaught.2.2, Option.toList_none, List.append_nil] at hworked
      rw [hworked, hon.handled_of_caughtUp hrcaught, hr0]
      rfl
    have haccepted : received x.adapter.sent = (s d).accepted := by
      rw [hlink.kept fun p hp => hfits p (hlink.written.subset hp), hqueue, Link.End.coming, hinbox, hsame]
      simp
    rw [seen, hgot, hlaw.complete x hx hcaught, seen_flatMap_traffic notResponse_of_passed, passed_of_fromTheStart hstart,
      received_onEvent, haccepted]

/-- Over every run of a WebSocket link and every run of the server whose session is at one end of it. -/
theorem application_receives {ls : List (Link.Label Packet Message WebSocketLoop.Outcome)} {ms : List Label}
    {s : WebSocketLink.Ends} {d : Link.Side} {t : State} {r : Relay ServerEvent} (hnext : WebSocketLink.Limits next)
    (hok : ∀ d p, Link.Label.accept d p ∈ ls → p.WellFormed)
    (hlink : StepSystem.run (Link.step (WebSocketLink.kind next)) Link.start ls = some s)
    (hroute : StepSystem.run (step lib) start ms = some t) (hfew : t.sessions.length ≤ 2 ^ 64) (hx : x ∈ t.sessions)
    (hr : r ∈ t.applications) (hadapter : x.adapter.sent <+: WebSocketLink.events next s d.peer) : Delivers next s d t x r := by
  have hinv : Inv lib t := inv_of_run hroute hfew
  exact delivers_of_laws (WebSocketLink.law_of_inv hnext (.of_run hlink) (Link.accepted_of_run hlink hok) d) hinv (hinv.law hfew)
    hx hr hadapter

/-- One packet all the way, a response that ends on it, and a packet still in the queue. -/
theorem application_receives_hi :
    let ls : List (Link.Label Packet Message WebSocketLoop.Outcome) := [.accept .left (.oneWay 1 [104, 105]), .write .left,
      .read .right, .accept .left (responsePacket 4 []), .write .left, .read .right, .accept .left (.oneWay 2 [])]
    let ms : List Label := [.accept .webSocket, .subscribe, .listen 0, .attach 0, .publish 0 (.messageReceived (.oneWay 1 [104, 105])),
      .publish 0 (.messageReceived (responsePacket 4 [])), .recvConsumer 0, .onEvent 0, .recvTask 0, .handle 0 fun _ => false,
      .recvConsumer 0, .onEvent 0, .recv 0]
    ∃ s t x r, StepSystem.run (Link.step (WebSocketLink.kind WebSocketLink.nextOf)) Link.start ls = some s ∧
      StepSystem.run (step ⟨none, none⟩) start ms = some t ∧ x ∈ t.sessions ∧ r ∈ t.applications ∧
        Delivers WebSocketLink.nextOf s .left t x r := by
  intro ls ms
  let published : List TransportEvent :=
    [.messageReceived (.oneWay 1 [104, 105]), .messageReceived (responsePacket 4 [])]
  have hlink : (StepSystem.run (Link.step (WebSocketLink.kind WebSocketLink.nextOf)) Link.start ls).map
    (fun s => WebSocketLink.events WebSocketLink.nextOf s .right) = some published := rfl
  have hroute : (StepSystem.run (step ⟨none, none⟩) start ms).map
    (fun t => (t.sessions.map fun x => x.adapter.sent, t.applications.map fun r => r.start)) = some ([published], [0]) := rfl
  obtain ⟨s, hs, hevents⟩ := Option.map_eq_some_iff.1 hlink
  obtain ⟨t, ht, heq⟩ := Option.map_eq_some_iff.1 hroute
  obtain ⟨hsessions, happlications⟩ := Prod.mk.inj heq
  obtain ⟨x, hx, hsent⟩ := List.map_eq_singleton_iff.1 hsessions
  obtain ⟨r, hr, -⟩ := List.map_eq_singleton_iff.1 happlications
  have hx' : x ∈ t.sessions := by rw [hx]; exact List.mem_cons_self
  have hr' : r ∈ t.applications := by rw [hr]; exact List.mem_cons_self
  refine ⟨s, t, x, r, hs, ht, hx', hr', application_receives WebSocketLink.limits_nextOf (fun d p hp => ?_) hs ht ?_ hx' hr' ?_⟩
  · simp only [ls, List.mem_cons, List.not_mem_nil, Link.Label.accept.injEq, reduceCtorEq, or_false, false_or] at hp
    rcases hp with ⟨-, rfl⟩ | ⟨-, rfl⟩ | ⟨-, rfl⟩ <;> exact ⟨rfl, rfl, rfl⟩
  · rw [hx]
    exact Nat.one_le_two_pow
  · rw [hsent]
    exact ⟨[], (List.append_nil _).trans hevents.symm⟩

end EndToEnd

end Msgtrans
