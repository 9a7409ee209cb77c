import Msgtrans.Packet

/-!
# Events (`event.rs`, `error.rs`)

What the three layers publish: `TransportEvent` by an adapter and by a `Transport`, `ClientEvent` and
`ServerEvent` by the two ends, and the conversions between them. A responder closure is the packet it
puts on its connection for the bytes it is given; addresses are their texts. Reception timestamps, and
the times and counters of `ConnectionInfo`, are left out.
-/

namespace Msgtrans

abbrev SessionId := UInt64

inductive CloseReason where
  | normal
  | timeout
  | error (msg : String)
  | forced
deriving DecidableEq, Repr

inductive TransportError where
  | connection (reason : String) (retryable : Bool)
  | protocol (protocol reason : String)
  | configuration (field reason : String)
  | resource (resource : String) (current limit : Nat)
  | timeout (operation : String) (duration : Nat)
deriving DecidableEq, Repr

inductive ConnectionState where
  | connecting | connected | closing | closed | paused | error
deriving DecidableEq, Repr

structure ConnectionInfo where
  sessionId : SessionId
  localAddr : String
  peerAddr : String
  protocol : String
  state : ConnectionState
deriving DecidableEq, Repr

structure RequestContext where
  peer : Option SessionId
  data : Bytes
  requestId : UInt32
  bizType : UInt8
  responder : Bytes → Packet

inductive TransportEvent where
  | connectionEstablished (info : ConnectionInfo)
  | connectionClosed (reason : CloseReason)
  | messageReceived (packet : Packet)
  | messageSent (packetId : UInt32)
  | transportError (error : TransportError)
  | serverStarted (address : String)
  | serverStopped
  | clientConnected (address : String)
  | clientDisconnected
  | requestReceived (context : RequestContext)

namespace TransportEvent

def packet? : TransportEvent → Option Packet
  | .messageReceived packet => some packet
  | _ => none

def isConnectionClosed : TransportEvent → Bool
  | .connectionClosed _ => true
  | _ => false

end TransportEvent

/-- The packets of the `MessageReceived` events. -/
def received (events : List TransportEvent) : List Packet := events.filterMap TransportEvent.packet?

theorem received_append (xs ys : List TransportEvent) : received (xs ++ ys) = received xs ++ received ys :=
  List.filterMap_append

inductive TransportContextKind where
  | oneWay
  | request (responder : Bytes → Packet) (responded isPrimary : Bool)

structure TransportContext where
  peer : Option SessionId
  messageId : UInt32
  bizType : UInt8
  extHeader : Option Bytes
  data : Bytes
  kind : TransportContextKind

namespace TransportContext

variable (peer : Option SessionId) (messageId : UInt32) (bizType : UInt8) (extHeader : Option Bytes)
  (data : Bytes)

def newOneway : TransportContext := ⟨peer, messageId, bizType, extHeader, data, .oneWay⟩

def newRequest (responder : Bytes → Packet) : TransportContext :=
  ⟨peer, messageId, bizType, extHeader, data, .request responder false false⟩

def setPrimary (c : TransportContext) : TransportContext :=
  match c.kind with
  | .request responder responded _ => { c with kind := .request responder responded true }
  | .oneWay => c

def isRequest (c : TransportContext) : Bool :=
  match c.kind with
  | .request .. => true
  | .oneWay => false

/-- What `respond` puts on the connection: only the first one goes out. -/
def respond (c : TransportContext) (response : Bytes) : Option Packet × TransportContext :=
  match c.kind with
  | .request responder false isPrimary => (some (responder response), { c with kind := .request responder true isPrimary })
  | _ => (none, c)

end TransportContext

/-- `if packet.ext_header.is_empty() { None } else { Some(packet.ext_header.clone()) }`. -/
def Packet.extHeader? (packet : Packet) : Option Bytes :=
  if packet.extHeader.isEmpty then none else some packet.extHeader

inductive ClientEvent where
  | connected (info : ConnectionInfo)
  | disconnected (reason : CloseReason)
  | messageReceived (context : TransportContext)
  | messageSent (messageId : UInt32)
  | error (error : TransportError)

def ClientEvent.fromTransportEvent : TransportEvent → Option ClientEvent
  | .connectionEstablished info => some (.connected info)
  | .connectionClosed reason => some (.disconnected reason)
  | .messageReceived packet =>
    match packet.header.packetType with
    | .request => none
    | _ => some (.messageReceived (.newOneway none packet.header.messageId packet.header.bizType
        packet.extHeader? packet.payload))
  | .messageSent packetId => some (.messageSent packetId)
  | .transportError e => some (.error e)
  | _ => none

inductive ServerEvent where
  | connectionEstablished (sessionId : SessionId) (info : ConnectionInfo)
  | connectionClosed (sessionId : SessionId) (reason : CloseReason)
  | messageReceived (sessionId : SessionId) (context : TransportContext)
  | messageSent (sessionId : SessionId) (messageId : UInt32)
  | transportError (sessionId : Option SessionId) (error : TransportError)
  | serverStarted (address : String)
  | serverStopped

end Msgtrans
