import Msgtrans.Transport

/-!
# From a connection to the application

`TransportServer::handle_transport_event` and the forwarding task of `TransportClient` turn what
`Transport::on_event` publishes into the application's events. Both build the context from the packet's
payload as it came over the wire, so the application gets the bytes that were sent exactly when the
sender's compression step changed nothing: `receives_data_iff`.
-/

namespace Msgtrans

/-- The packet both responders put on the connection. -/
def responsePacket (messageId : UInt32) (responseData : Bytes) : Packet where
  header := {
    version := 1
    compression := .none
    packetType := .response
    bizType := 0
    messageId := messageId
    extHeaderLen := 0
    payloadLen := .ofNat responseData.length
    reserved := .new }
  extHeader := []
  payload := responseData

namespace TransportServer

/-- What handling one event does: the events published, the response that completed a request of the
server's own tracker, and whether the session is removed. -/
structure Handled where
  published : List ServerEvent
  completed : Option Packet
  removed : Bool

/-- `handle_transport_event`, with `pending` the ids in the server's tracker. -/
def handleTransportEvent (pending : UInt32 → Bool) (sessionId : SessionId) : TransportEvent → Handled
  | .messageReceived packet =>
    let context := TransportContext.newOneway (some sessionId) packet.header.messageId packet.header.bizType
      packet.extHeader? packet.payload
    match packet.header.packetType with
    | .request =>
      let context := (TransportContext.newRequest (some sessionId) packet.header.messageId packet.header.bizType
        packet.extHeader? packet.payload (responsePacket packet.header.messageId)).setPrimary
      ⟨[.messageReceived sessionId context], none, false⟩
    | .response =>
      if pending packet.header.messageId then ⟨[], some packet, false⟩
      else ⟨[.messageReceived sessionId context], none, false⟩
    | _ => ⟨[.messageReceived sessionId context], none, false⟩
  | .messageSent packetId => ⟨[.messageSent sessionId packetId], none, false⟩
  | .connectionClosed reason => ⟨[.connectionClosed sessionId reason], none, true⟩
  | .transportError error => ⟨[.transportError (some sessionId) error], none, false⟩
  | _ => ⟨[], none, false⟩

end TransportServer

namespace TransportClient

/-- One turn of the forwarding task (`start_event_forwarding`): the event it publishes, if any. -/
def forward (event : TransportEvent) : Option ClientEvent :=
  match event with
  | .messageReceived packet =>
    if packet.header.packetType = .request then
      some (.messageReceived (.newRequest none packet.header.messageId packet.header.bizType
        packet.extHeader? packet.payload (responsePacket packet.header.messageId)))
    else ClientEvent.fromTransportEvent event
  | event => ClientEvent.fromTransportEvent event

end TransportClient

def ServerEvent.context? : ServerEvent → Option TransportContext
  | .messageReceived _ context => some context
  | _ => none

def ClientEvent.context? : ClientEvent → Option TransportContext
  | .messageReceived context => some context
  | _ => none

namespace Delivery

variable (lib : CompressionLib)

inductive Call where
  | sendWithOptions
  | requestWithOptions

def Call.packet (nextId : UInt32) (data : Bytes) (options : TransportOptions) : Call → Packet
  | .sendWithOptions => (Transport.sendWithOptions lib nextId data options).1
  | .requestWithOptions => (Transport.requestWithOptions lib nextId data options).1

/-- The contexts a server's application receives for one packet that arrives. -/
def serverContexts (pending : UInt32 → Bool) (sessionId : SessionId) (packet : Packet) : List TransportContext :=
  ((Transport.onEvent lib (.messageReceived packet)).published.flatMap fun event =>
    (TransportServer.handleTransportEvent pending sessionId event).published).filterMap ServerEvent.context?

def clientContexts (packet : Packet) : List TransportContext :=
  ((Transport.onEvent lib (.messageReceived packet)).published.filterMap
    TransportClient.forward).filterMap ClientEvent.context?

/-- The context carries what the call was given. An absent business type is 0 on the wire, an absent
extension header an empty one. -/
structure Carries (context : TransportContext) (data : Bytes) (options : TransportOptions) : Prop where
  data : context.data = data
  bizType : context.bizType = options.bizType.getD 0
  extHeader : context.extHeader.getD [] = options.extHeader.getD []

theorem getD_extHeader? (packet : Packet) : packet.extHeader?.getD [] = packet.extHeader := by
  unfold Packet.extHeader?
  cases packet.extHeader <;> rfl

structure Shows (context : TransportContext) (packet : Packet) : Prop where
  data : context.data = packet.payload
  bizType : context.bizType = packet.header.bizType
  extHeader : context.extHeader = packet.extHeader?
  isRequest : context.isRequest = (packet.header.packetType == .request)

variable {packet : Packet}

theorem serverContexts_eq (pending : UInt32 → Bool) (sessionId : SessionId) (h : packet.header.packetType ≠ .response) :
    ∃ context, serverContexts lib pending sessionId packet = [context] ∧ Shows context packet := by
  unfold serverContexts
  rw [Transport.onEvent_forwards h]
  cases ht : packet.header.packetType with
  | response => exact absurd ht h
  | request =>
    simp only [List.flatMap_cons, List.flatMap_nil, TransportServer.handleTransportEvent, ht]
    exact ⟨_, rfl, rfl, rfl, rfl, by rw [ht]; rfl⟩
  | oneWay =>
    simp only [List.flatMap_cons, List.flatMap_nil, TransportServer.handleTransportEvent, ht]
    exact ⟨_, rfl, rfl, rfl, rfl, by rw [ht]; rfl⟩

theorem clientContexts_eq (h : packet.header.packetType ≠ .response) :
    ∃ context, clientContexts lib packet = [context] ∧ Shows context packet := by
  unfold clientContexts
  rw [Transport.onEvent_forwards h]
  cases ht : packet.header.packetType with
  | response => exact absurd ht h
  | request =>
    simp only [List.filterMap_cons, List.filterMap_nil, TransportClient.forward, ht, if_true]
    exact ⟨_, rfl, rfl, rfl, rfl, by rw [ht]; rfl⟩
  | oneWay =>
    simp only [List.filterMap_cons, List.filterMap_nil, TransportClient.forward, ht,
      ClientEvent.fromTransportEvent, if_neg (show ¬ PacketType.oneWay = .request by decide)]
    exact ⟨_, rfl, rfl, rfl, rfl, by rw [ht]; rfl⟩

variable {data : Bytes} {options : TransportOptions} {context : TransportContext}

theorem carries_iff {packetType : PacketType} (hs : Shows context packet)
    (hd : Transport.Describes packet packetType options) :
    Carries context data options ↔ packet.payload = data := by
  constructor
  · intro h
    rw [← hs.data, h.data]
  · intro h
    refine ⟨hs.data.trans h, hs.bizType.trans hd.bizType, ?_⟩
    rw [hs.extHeader, getD_extHeader?, hd.extHeader]

theorem call_spec (call : Call) (nextId : UInt32) (data : Bytes) (options : TransportOptions) : ∃ packetType, packetType ≠ .response ∧
    Transport.Describes (call.packet lib nextId data options) packetType options ∧
    ((call.packet lib nextId data options).payload = data ↔ Transport.Inert lib data options) := by
  cases call with
  | sendWithOptions => exact ⟨.oneWay, by decide, Transport.optionsPacket_spec⟩
  | requestWithOptions => exact ⟨.request, by decide, Transport.optionsPacket_spec⟩

/-- Either application receives one context for a packet sent with options, and it carries what was
sent exactly when compression was inert. -/
theorem receives_data_iff (call : Call) (nextId : UInt32) (data : Bytes)
    (options : TransportOptions) (pending : UInt32 → Bool) (sessionId : SessionId) :
    (∃ context, serverContexts lib pending sessionId (call.packet lib nextId data options) = [context] ∧
        Carries context data options) ∧
      (∃ context, clientContexts lib (call.packet lib nextId data options) = [context] ∧
        Carries context data options) ↔
    Transport.Inert lib data options := by
  obtain ⟨packetType, hne, hdesc, hinert⟩ := call_spec lib call nextId data options
  rw [← hinert]
  have hne' := hdesc.packetType.symm ▸ hne
  obtain ⟨sctx, hserver, hsShows⟩ := serverContexts_eq lib pending sessionId hne'
  obtain ⟨cctx, hclient, hcShows⟩ := clientContexts_eq lib hne'
  constructor
  · rintro ⟨⟨context, hc, hcarries⟩, -⟩
    rw [hserver] at hc
    cases hc
    exact (carries_iff hsShows hdesc).1 hcarries
  · intro h
    exact ⟨⟨sctx, hserver, (carries_iff hsShows hdesc).2 h⟩, ⟨cctx, hclient, (carries_iff hcShows hdesc).2 h⟩⟩

/-- What zlib makes of the two bytes `hi`, and back; on other data it is left failing. -/
def zlibHi : CompressionLib where
  flate2 := some {
    encode := fun data => if data = [0x68, 0x69] then
        .ok [0x78, 0x9c, 0xcb, 0xc8, 0x04, 0x00, 0x01, 0x3b, 0x00, 0xd2] else .error "unknown data"
    decode := fun data => if data = [0x78, 0x9c, 0xcb, 0xc8, 0x04, 0x00, 0x01, 0x3b, 0x00, 0xd2] then
        .ok [0x68, 0x69] else .error "corrupt deflate stream" }
  zstd := none

theorem zlibHi_lossless : zlibHi.Lossless := by
  intro c data out _ h
  cases c with
  | none =>
    cases h
    rfl
  | zstd => cases h
  | zlib =>
    by_cases hd : data = [0x68, 0x69]
    · subst hd
      cases h
      rfl
    · have hfail : Packet.compressData zlibHi data .zlib = .error (.compressionError "unknown data") := by
        simp only [Packet.compressData, zlibHi, if_neg hd, Except.mapError]
      rw [hfail] at h
      cases h

/-- `hi` sent with zlib: the server's application is handed the ten compressed bytes. -/
theorem compressed_bytes_received :
    let options : TransportOptions := ⟨some .zlib, none, none, none⟩
    zlibHi.Lossless ∧ ¬ ∃ context,
      serverContexts zlibHi (fun _ => false) 1 (Call.sendWithOptions.packet zlibHi 1 [0x68, 0x69] options) =
        [context] ∧ Carries context [0x68, 0x69] options := by
  refine ⟨zlibHi_lossless, ?_⟩
  rintro ⟨context, hc, hcarries⟩
  have hdata := hcarries.data
  cases hc
  revert hdata
  decide

end Delivery

end Msgtrans
