import Msgtrans.Lib.TurnLoop
import Msgtrans.Event

/-!
# The QUIC event loop (`QuicAdapter::start_event_loop`)

One turn of the loop per outcome of its `select!`: a stream the peer opened, read to its end, or a packet of
the send queue, written to a stream of its own. A failed `open_uni` or `write_all` ends the loop
without an event.
-/

namespace Msgtrans

namespace QuicLoop

/-- The errors the loop tells apart, the others by their debug texts. -/
inductive ConnectionError where
  | timedOut
  | connectionClosed
  | applicationClosed
  | reset
  | locallyClosed
  | other (debug : String)
deriving DecidableEq

inductive ReadError where
  | connectionLost (e : ConnectionError)
  | reset
  | other (debug : String)
deriving DecidableEq

inductive ReadToEndError where
  | read (e : ReadError)
  | tooLong
deriving DecidableEq

inductive WriteError where
  | connectionLost (e : ConnectionError)
  | other (debug : String)
deriving DecidableEq

/-- How far sending a packet came: `open_uni`, `write_all`, `finish`. -/
inductive Sending where
  | openFailed (e : ConnectionError)
  | writeFailed (e : WriteError)
  | written (finished : Bool)

/-- What completed first in one `select!`, with what it returned. -/
inductive Outcome where
  /-- `accept_uni()`, and what `read_to_end` of the stream returned -/
  | accept (result : Except ConnectionError (Except ReadToEndError Bytes))
  /-- `send_queue.recv()`, and how sending the packet went -/
  | queue (packet : Option Packet) (sending : Sending)
  /-- the signal, or its sender was dropped with the adapter -/
  | shutdown

/-- The limit `read_to_end` is called with. -/
def readLimit : Nat := 1024 * 1024

def receivedPacket (buf : Bytes) : Packet :=
  if buf.length < 16 then .oneWay 0 buf
  else match Packet.fromBytes buf with
    | .ok packet => packet
    | .error _ => .oneWay 0 buf

def ReadToEndError.reason : ReadToEndError → CloseReason
  | .read (.connectionLost _) => .normal
  | .read .reset => .normal
  | .tooLong => .error "QUIC stream too long"
  | .read (.other debug) => .error ("QUIC stream error: Read(" ++ debug ++ ")")

/-- The reason the loop gives for an error of the connection; none for its own close. -/
def ConnectionError.reason : ConnectionError → Option CloseReason
  | .timedOut => some .timeout
  | .connectionClosed => some .normal
  | .applicationClosed => some .normal
  | .reset => some .normal
  | .locallyClosed => none
  | .other debug => some (.error ("QUIC connection error: " ++ debug))

/-- One turn: the events published and whether the loop goes on. -/
def turn : Outcome → List TransportEvent × Bool
  | .accept (.ok (.ok buf)) => ([.messageReceived (receivedPacket buf)], true)
  | .accept (.ok (.error e)) => ([.connectionClosed e.reason], false)
  | .accept (.error e) => (e.reason.toList.map .connectionClosed, false)
  | .queue (some packet) sending =>
    match sending with
    | .written true => ([.messageSent packet.header.messageId], true)
    -- the error of `finish` is only logged
    | .written false => ([], true)
    | .writeFailed _ => ([], false)
    | .openFailed _ => ([], false)
  | .queue none _ => ([], true)
  | .shutdown => ([], false)

/-- The connection was closed on this side. -/
def Outcome.LocalClose : Outcome → Prop
  | .accept (.error e) => e = .locallyClosed
  | .accept (.ok (.error e)) => e = .read (.connectionLost .locallyClosed)
  | .queue (some _) (.openFailed e) => e = .locallyClosed
  | .queue (some _) (.writeFailed e) => e = .connectionLost .locallyClosed
  | _ => False

/-- A packet could not be written, and not because of a local close. -/
def Outcome.SendFails : Outcome → Prop
  | .queue (some _) (.openFailed e) => e ≠ .locallyClosed
  | .queue (some _) (.writeFailed e) => e ≠ .connectionLost .locallyClosed
  | _ => False

end QuicLoop

end Msgtrans
