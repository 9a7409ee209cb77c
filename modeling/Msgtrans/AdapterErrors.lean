import Msgtrans.Event
import Msgtrans.ReadBuffer

/-!
# The adapters' errors (`adapters/tcp.rs`, `adapters/websocket.rs`, `adapters/quic.rs`)

Their conversions into a `TransportError` and the texts of `Display` and `Debug` that the callers use.
-/

namespace Msgtrans

/-- The `Display` text. -/
def PacketError.display : PacketError → String
  | .invalidHeader msg => "Invalid header: " ++ msg
  | .invalidPacket msg => "Invalid packet: " ++ msg
  | .unsupportedVersion version => "Unsupported version: " ++ toString version
  | .compressionError msg => "Compression error: " ++ msg
  | .unsupportedCompression msg => "Unsupported compression: " ++ msg
  | .serializationError msg => "Serialization error: " ++ msg

/-- Errors of other libraries are the texts the conversion to `TransportError` takes of them. -/
inductive WebSocketError where
  | tungstenite (error : String)
  | io (error : String)
  | connectionClosed
  | invalidMessageType
  | config (msg : String)

inductive QuicError where
  | connect (error : String)
  | connection (error : String)
  | read (error : String)
  | write (error : String)
  | closedStream (error : String)
  | readToEnd (error : String)
  | io (error : String)
  | tls (error : String)
  | connectionClosed
  | config (msg : String)
  | serialization (msg : String)

def TcpError.toTransportError : TcpError → TransportError
  | .io error => .connection ("TCP IO error: " ++ error) true
  | .timeout => .connection "TCP connection timeout" true
  | .connectionClosed => .connection "TCP connection closed" true
  | .packet error => .protocol "packet" ("TCP packet error: " ++ error.display)
  | .bufferOverflow => .protocol "generic" "TCP buffer overflow"
  | .config msg => .configuration "tcp" msg

def WebSocketError.toTransportError : WebSocketError → TransportError
  | .tungstenite error => .connection ("WebSocket protocol error: " ++ error) true
  | .io error => .connection ("WebSocket IO error: " ++ error) true
  | .connectionClosed => .connection "WebSocket connection closed" false
  | .invalidMessageType => .protocol "websocket" "Invalid message type"
  | .config msg => .configuration "websocket" msg

def QuicError.toTransportError : QuicError → TransportError
  | .connect error => .connection ("QUIC connection failed: " ++ error) true
  | .connection error => .connection ("QUIC connection error: " ++ error) true
  | .read error => .connection ("QUIC read error: " ++ error) false
  | .write error => .connection ("QUIC write error: " ++ error) false
  | .closedStream error => .connection ("QUIC stream closed: " ++ error) false
  | .readToEnd error => .connection ("QUIC read to end error: " ++ error) false
  | .io error => .connection ("QUIC IO error: " ++ error) true
  | .tls error => .configuration "quic" ("TLS error: " ++ error)
  | .connectionClosed => .connection "QUIC connection closed" true
  | .config msg => .configuration "quic" msg
  | .serialization msg => .protocol "quic" msg

/-- A string in quotes, with its escapes; those of characters that do not print are left out. -/
def debugString (s : String) : String :=
  let escape : Char → List Char
    | '"' => ['\\', '"']
    | '\\' => ['\\', '\\']
    | '\n' => ['\\', 'n']
    | '\r' => ['\\', 'r']
    | '\t' => ['\\', 't']
    | c => [c]
  .ofList ('"' :: s.toList.flatMap escape ++ ['"'])

/-- The `Display` text. -/
def QuicError.display : QuicError → String
  | .connect error => "Quinn connection error: " ++ error
  | .connection error => "Quinn connection error: " ++ error
  | .read error => "Quinn read error: " ++ error
  | .write error => "Quinn write error: " ++ error
  | .closedStream error => "Quinn stream closed: " ++ error
  | .readToEnd error => "Quinn read to end error: " ++ error
  | .io error => "IO error: " ++ error
  | .tls error => "TLS error: " ++ error
  | .connectionClosed => "Connection closed"
  | .config msg => "Configuration error: " ++ msg
  | .serialization msg => "Serialization error: " ++ msg

/-- The `Display` text. -/
def WebSocketError.display : WebSocketError → String
  | .tungstenite error => "Tungstenite error: " ++ error
  | .io error => "IO error: " ++ error
  | .connectionClosed => "Connection closed"
  | .invalidMessageType => "Invalid message type"
  | .config msg => "Configuration error: " ++ msg

/-- `{:?}`, up to the texts of other libraries. -/
def WebSocketError.debug : WebSocketError → String
  | .tungstenite error => "Tungstenite(" ++ error ++ ")"
  | .io error => "Io(" ++ error ++ ")"
  | .connectionClosed => "ConnectionClosed"
  | .invalidMessageType => "InvalidMessageType"
  | .config msg => "Config(" ++ debugString msg ++ ")"

end Msgtrans
