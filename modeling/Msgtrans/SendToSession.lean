import Mathlib.Data.List.DropRight
import Mathlib.Data.List.Infix
import Msgtrans.AdapterErrors
import Msgtrans.ConnectionState
import Msgtrans.Pump

/-!
# Sending to a dead session (`TransportServer::send_to_session`)

An adapter's `send` only puts the packet into the queue of its event loop, so its one error is the
`ConnectionClosed` of a loop that has ended. On its way up that error becomes a `TransportError`, and
`send_to_session` searches the debug text of that for five patterns to decide whether the session is
gone. `cleanedUp_iff`: the session is removed exactly when a pattern is found. None is found in what the
three adapters give, so the session always stays: `not_cleanedUp`.
-/

namespace Msgtrans

/-! ### Error texts -/

/-- A duration in nanoseconds, in the largest unit that fits. -/
def debugDuration (nanos : Nat) : String :=
  let decimal (digits : Nat) (unit : String) : String :=
    let fraction := (toString (nanos % 10 ^ digits)).toList
    let fraction := (List.replicate (digits - fraction.length) '0' ++ fraction).rdropWhile (· = '0')
    toString (nanos / 10 ^ digits) ++ .ofList (if fraction = [] then [] else '.' :: fraction) ++ unit
  if 10 ^ 9 ≤ nanos then decimal 9 "s"
  else if 10 ^ 6 ≤ nanos then decimal 6 "ms"
  else if 10 ^ 3 ≤ nanos then decimal 3 "µs"
  else decimal 0 "ns"

/-- `{:?}`. -/
def TransportError.debug : TransportError → String
  | .connection reason retryable =>
    "Connection \x7b reason: " ++ debugString reason ++ ", retryable: " ++ toString retryable ++ " \x7d"
  | .protocol name reason =>
    "Protocol \x7b protocol: " ++ debugString name ++ ", reason: " ++ debugString reason ++ " \x7d"
  | .configuration field reason =>
    "Configuration \x7b field: " ++ debugString field ++ ", reason: " ++ debugString reason ++ " \x7d"
  | .resource name current limit =>
    "Resource \x7b resource: " ++ debugString name ++ ", current: " ++ toString current ++ ", limit: " ++
      toString limit ++ " \x7d"
  | .timeout operation duration =>
    "Timeout \x7b operation: " ++ debugString operation ++ ", duration: " ++ debugDuration duration ++ " \x7d"

namespace SendToSession

/-- `str::contains`. -/
def contains (text pattern : String) : Bool := decide (pattern.toList <:+: text.toList)

/-- The test of `send_to_session` for an error of a connection that is gone. -/
def isConnectionGone (e : TransportError) : Bool :=
  let errorMsg := e.debug
  contains errorMsg "Broken pipe" || contains errorMsg "Connection reset" || contains errorMsg "Connection closed" ||
    contains errorMsg "ECONNRESET" || contains errorMsg "EPIPE"

/-! ### Adapter, transport, server -/

/-- An adapter, as far as sending goes. -/
structure Adapter where
  protocol : Protocol
  /-- the event loop holds the receiver of `send_queue` -/
  loopRunning : Bool
  sendQueue : List Packet

/-- The `ConnectionClosed` of an adapter, converted by the connection around it. -/
def closedError : Protocol → TransportError
  | .tcp => TcpError.connectionClosed.toTransportError
  | .webSocket => WebSocketError.connectionClosed.toTransportError
  | .quic => QuicError.connectionClosed.toTransportError

def Adapter.send (a : Adapter) (packet : Packet) : Except TransportError Unit × Adapter :=
  if a.loopRunning then (.ok (), { a with sendQueue := a.sendQueue ++ [packet] })
  else (.error (closedError a.protocol), a)

structure Transport where
  sessionId : Option SessionId
  connectionAdapter : Option Adapter

namespace Transport

def isConnected (t : Transport) : Bool := t.sessionId.isSome

def send (t : Transport) (packet : Packet) : Except TransportError Unit × Transport :=
  match t.sessionId with
  | some _ =>
    match t.connectionAdapter with
    | some a =>
      let (result, a) := a.send packet
      (result, { t with connectionAdapter := some a })
    | none => (.error (.connection "No connection adapter available" false), t)
  | none => (.error (.connection "Not connected" false), t)

end Transport

/-- The three tables of a server; `σ` is the type of the statistics. -/
structure Server (σ : Type) where
  transports : SessionId → Option Transport
  stats : SessionId → Option σ
  stateManager : ConnectionStateManager

variable {σ : Type}

namespace Server

def setTransport (s : Server σ) (sessionId : SessionId) (t : Transport) : Server σ :=
  { s with transports := fun id => if id = sessionId then some t else s.transports id }

def removeSession (s : Server σ) (sessionId : SessionId) : Server σ where
  transports := fun id => if id = sessionId then none else s.transports id
  stats := fun id => if id = sessionId then none else s.stats id
  stateManager := s.stateManager.removeConnection sessionId

def sendToSession (s : Server σ) (sessionId : SessionId) (packet : Packet) : Except TransportError Unit × Server σ :=
  match s.transports sessionId with
  | some transport =>
    if transport.isConnected then
      let (result, transport) := transport.send packet
      let s := s.setTransport sessionId transport
      match result with
      | .ok () => (.ok (), s)
      | .error e =>
        if isConnectionGone e then
          (.error (.connection "Connection closed during send" false), s.removeSession sessionId)
        else (.error e, s)
    else (.error (.connection "Connection closed" false), s.removeSession sessionId)
  | none => (.error (.connection "Session not found" false), s)

end Server

/-- The session is in none of the tables. -/
structure Gone (s : Server σ) (sessionId : SessionId) : Prop where
  transports : s.transports sessionId = none
  stats : s.stats sessionId = none
  states : s.stateManager.states sessionId = none

/-- Sending ends with the session removed and the error that says so. -/
def CleanedUp (s : Server σ) (sessionId : SessionId) (packet : Packet) : Prop :=
  Gone (s.sendToSession sessionId packet).2 sessionId ∧
    (s.sendToSession sessionId packet).1 = .error (.connection "Connection closed during send" false)

/-! ### The clean-up -/

variable {s : Server σ} {sessionId : SessionId} {packet : Packet} {transport transport' : Transport} {e : TransportError}

theorem gone_removeSession (s : Server σ) (sessionId : SessionId) : Gone (s.removeSession sessionId) sessionId :=
  ⟨if_pos rfl, if_pos rfl, if_pos rfl⟩

/-- What becomes of the error when the send of a connected session fails. -/
theorem sendToSession_of_error (hfound : s.transports sessionId = some transport) (hconn : transport.isConnected = true)
    (hsend : transport.send packet = (.error e, transport')) : s.sendToSession sessionId packet =
      if isConnectionGone e then (.error (.connection "Connection closed during send" false),
        (s.setTransport sessionId transport').removeSession sessionId)
      else (.error e, s.setTransport sessionId transport') := by
  simp only [Server.sendToSession, hfound, hconn, hsend, if_true]

/-- The session is removed exactly when a pattern is in the error. -/
theorem cleanedUp_iff (hfound : s.transports sessionId = some transport) (hconn : transport.isConnected = true)
    (hsend : transport.send packet = (.error e, transport')) :
    CleanedUp s sessionId packet ↔ isConnectionGone e = true := by
  unfold CleanedUp
  rw [sendToSession_of_error hfound hconn hsend]
  constructor
  · rintro ⟨-, herror⟩
    by_contra hgone
    rw [if_neg hgone] at herror
    have he : e = .connection "Connection closed during send" false := Except.error.inj herror
    exact hgone (he ▸ by decide +kernel)
  · intro hgone
    rw [if_pos hgone]
    exact ⟨gone_removeSession .., rfl⟩

/-- No adapter's `ConnectionClosed` is recognised: their texts have a small `c`. -/
theorem isConnectionGone_closedError (protocol : Protocol) : isConnectionGone (closedError protocol) = false := by
  cases protocol <;> decide +kernel

example : (closedError .tcp).debug = "Connection \x7b reason: \"TCP connection closed\", retryable: true \x7d" := by
  decide +kernel

theorem send_of_ended {a : Adapter} (hconn : transport.isConnected = true) (hadapter : transport.connectionAdapter = some a)
    (hended : a.loopRunning = false) (packet : Packet) :
    transport.send packet = (.error (closedError a.protocol), transport) := by
  obtain ⟨id, hid⟩ := Option.isSome_iff_exists.1 hconn
  obtain ⟨session, adapter⟩ := transport
  cases hid
  cases hadapter
  simp [Transport.send, Adapter.send, hended]

/-- The error of a session whose event loop has ended is handed on as it is, and the session stays. -/
theorem sendToSession_of_ended {a : Adapter} (hfound : s.transports sessionId = some transport)
    (hconn : transport.isConnected = true) (hadapter : transport.connectionAdapter = some a)
    (hended : a.loopRunning = false) :
    s.sendToSession sessionId packet = (.error (closedError a.protocol), s.setTransport sessionId transport) := by
  rw [sendToSession_of_error hfound hconn (send_of_ended hconn hadapter hended packet), isConnectionGone_closedError]
  exact if_neg Bool.false_ne_true

/-- A session whose event loop has ended is never cleaned up by sending to it, whatever its protocol. -/
theorem not_cleanedUp {a : Adapter} (hfound : s.transports sessionId = some transport)
    (hconn : transport.isConnected = true) (hadapter : transport.connectionAdapter = some a)
    (hended : a.loopRunning = false) : ¬ CleanedUp s sessionId packet := by
  rw [cleanedUp_iff hfound hconn (send_of_ended hconn hadapter hended packet), isConnectionGone_closedError]
  exact Bool.false_ne_true

/-- A server with a TCP session 1 whose event loop has ended. -/
def deadServer : Server Unit where
  transports := fun id => if id = 1 then some ⟨some 1, some ⟨.tcp, false, []⟩⟩ else none
  stats := fun id => if id = 1 then some () else none
  stateManager := ConnectionStateManager.new.addConnection 1

theorem not_cleanedUp_tcp : ¬ CleanedUp deadServer 1 (.oneWay 1 [104, 105]) := not_cleanedUp rfl rfl rfl rfl

/-- The error is handed on as it is, and the session stays in all tables. -/
theorem dead_session_stays : ¬ CleanedUp deadServer 1 (.oneWay 1 [104, 105]) ∧
    (deadServer.sendToSession 1 (.oneWay 1 [104, 105])).1 = .error (.connection "TCP connection closed" true) ∧
    ((deadServer.sendToSession 1 (.oneWay 1 [104, 105])).2.stats 1).isSome = true := by
  have hresult : deadServer.sendToSession 1 (.oneWay 1 [104, 105]) = (.error (closedError .tcp), _) :=
    sendToSession_of_ended (a := ⟨.tcp, false, []⟩) rfl rfl rfl rfl
  refine ⟨fun h => ?_, ?_, ?_⟩
  · have herror := h.2
    rw [hresult] at herror
    exact absurd (Except.error.inj herror) (by decide)
  · rw [hresult]
    rfl
  · rw [hresult]
    rfl

end SendToSession

end Msgtrans
