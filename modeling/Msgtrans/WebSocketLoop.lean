import Msgtrans.Lib.TurnLoop
import Msgtrans.Event
import Msgtrans.SendToSession

/-!
# The WebSocket event loop (`WebSocketAdapter::start_event_loop`)

One turn of the loop per outcome of its `select!`. Every turn that publishes `ConnectionClosed` also clears
`is_connected` and ends the loop, so the flag is down exactly when the event is out: `isConnected_iff`.
-/

namespace Msgtrans

/-- A message of the stream; what the loop does not look at is left out. -/
inductive Message where
  | text (text : String)
  | binary (data : Bytes)
  | ping
  | pong
  | close
  | frame

/-- The errors of the stream the loop tells apart, the others by their debug texts. -/
inductive TungsteniteError where
  /-- `Protocol(ResetWithoutClosingHandshake)` -/
  | resetWithoutClosingHandshake
  | connectionClosed
  | other (debug : String)

def TungsteniteError.debug : TungsteniteError → String
  | .resetWithoutClosingHandshake => "Protocol(ResetWithoutClosingHandshake)"
  | .connectionClosed => "ConnectionClosed"
  | .other debug => debug

namespace WebSocketLoop

inductive MessageProcessResult where
  | packet (packet : Packet)
  | heartbeat
  | peerClosed
  | error (error : WebSocketError)

def processWebsocketMessage : Message → MessageProcessResult
  | .binary data =>
    if data.length < 16 then .packet (.oneWay 0 data)
    else match Packet.fromBytes data with
      | .ok packet => .packet packet
      | .error _ => .packet (.oneWay 0 data)
  | .text text => .packet (.oneWay 0 text.toUTF8.toList)
  | .close => .peerClosed
  | .ping => .heartbeat
  | .pong => .heartbeat
  | .frame => .error .invalidMessageType

/-- What completed first in one `select!`, with what it returned. -/
inductive Outcome where
  /-- `stream.next()` -/
  | next (result : Option (Except TungsteniteError Message))
  /-- `send_queue.recv()`, and what `stream.send` of the packet returned -/
  | queue (packet : Option Packet) (send : Except TungsteniteError Unit)
  /-- the signal, or its sender was dropped with the adapter -/
  | shutdown

structure Turn where
  events : List TransportEvent
  /-- `is_connected` was set to false -/
  disconnected : Bool
  goesOn : Bool

def Turn.publish (event : TransportEvent) : Turn := ⟨[event], false, true⟩

def Turn.close (reason : CloseReason) : Turn := ⟨[.connectionClosed reason], true, false⟩

def select : Outcome → Turn
  | .next (some (.ok message)) =>
    match processWebsocketMessage message with
    | .packet packet => .publish (.messageReceived packet)
    | .heartbeat => ⟨[], false, true⟩
    | .peerClosed => .close .normal
    | .error e => .close (.error e.debug)
  | .next (some (.error e)) =>
    match e with
    | .resetWithoutClosingHandshake => .close .normal
    | .connectionClosed => .close .normal
    | .other debug => .close (.error debug)
  | .next none => .close .normal
  | .queue (some packet) send =>
    match send with
    | .ok _ => .publish (.messageSent packet.header.messageId)
    | .error e => .close (.error e.debug)
  | .queue none _ => ⟨[], false, true⟩
  -- sends a Close frame, whose failure is only logged
  | .shutdown => ⟨[], false, false⟩

def turn (o : Outcome) : List TransportEvent × Bool := ((select o).events, (select o).goesOn)

/-- The adapter's `is_connected` after the outcomes. -/
def isConnected : List Outcome → Bool
  | [] => true
  | o :: os => !(select o).disconnected && (!(select o).goesOn || isConnected os)

theorem select_cases (o : Outcome) :
    (∃ event, select o = .publish event ∧ event.isConnectionClosed = false) ∨ select o = ⟨[], false, true⟩ ∨
      (∃ reason, select o = .close reason) ∨ o = .shutdown := by
  rcases o with (_ | (e | message)) | ⟨(_ | packet), (e | _)⟩ | _
  · exact .inr (.inr (.inl ⟨_, rfl⟩))
  · rcases e with _ | _ | debug
    · exact .inr (.inr (.inl ⟨_, rfl⟩))
    · exact .inr (.inr (.inl ⟨_, rfl⟩))
    · exact .inr (.inr (.inl ⟨_, rfl⟩))
  · simp only [select]
    split
    · exact .inl ⟨_, rfl, rfl⟩
    · exact .inr (.inl rfl)
    · exact .inr (.inr (.inl ⟨_, rfl⟩))
    · exact .inr (.inr (.inl ⟨_, rfl⟩))
  · exact .inr (.inl rfl)
  · exact .inr (.inl rfl)
  · exact .inr (.inr (.inl ⟨_, rfl⟩))
  · exact .inl ⟨_, rfl, rfl⟩
  · exact .inr (.inr (.inr rfl))

/-- The flag is down exactly when a `ConnectionClosed` was published. -/
theorem isConnected_iff (os : List Outcome) :
    isConnected os = true ↔ ∀ e ∈ TurnLoop.emitted turn os, e.isConnectionClosed = false := by
  induction os with
  | nil => exact iff_of_true rfl fun e he => absurd he List.not_mem_nil
  | cons o os ih =>
    rw [TurnLoop.emitted, List.forall_mem_append]
    rcases select_cases o with ⟨event, ho, hevent⟩ | ho | ⟨reason, ho⟩ | rfl
    · simp only [isConnected, turn, ho, Turn.publish, List.forall_mem_singleton, hevent, if_true, ← ih]
      simp
    · simp only [isConnected, turn, ho, if_true, ← ih]
      simp
    · simp [isConnected, turn, ho, Turn.close, TransportEvent.isConnectionClosed]
    · simp [isConnected, turn, select]

end WebSocketLoop

end Msgtrans
