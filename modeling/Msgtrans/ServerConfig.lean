import Msgtrans.ClientConfig

/-!
# The server configurations (`protocol/server_config.rs`)

`merge` here has a few of the fields only: what it does not name stays as it was in the first configuration.
-/

namespace Msgtrans
open Net

/-! ### TCP -/

structure TcpServerConfig where
  bindAddress : SocketAddr
  maxConnections : UInt64
  nodelay : Bool
  keepalive : Option Duration
  readBufferSize : UInt64
  writeBufferSize : UInt64
  acceptTimeout : Duration
  idleTimeout : Option Duration
  reusePort : Bool
  reuseAddr : Bool
  deriving DecidableEq

namespace TcpServerConfig

def default : TcpServerConfig where
  bindAddress := localhost 8080
  maxConnections := 1000
  nodelay := true
  keepalive := some (.fromSecs 60)
  readBufferSize := 8192
  writeBufferSize := 8192
  acceptTimeout := .fromSecs 30
  idleTimeout := some (.fromSecs 300)
  reusePort := false
  reuseAddr := true

def merge (self other : TcpServerConfig) : TcpServerConfig :=
  { self with
    bindAddress := if other.bindAddress.display ≠ "127.0.0.1:8080" then other.bindAddress else self.bindAddress
    maxConnections := if other.maxConnections ≠ 1000 then other.maxConnections else self.maxConnections
    nodelay := other.nodelay
    keepalive := if other.keepalive.isSome then other.keepalive else self.keepalive }

def fields : List (Overlay.Field TcpServerConfig) :=
  [⟨SocketAddr, bindAddress, (·.display ≠ "127.0.0.1:8080")⟩,
   ⟨UInt64, maxConnections, (· ≠ 1000)⟩,
   ⟨Bool, nodelay, fun _ => True⟩,
   ⟨Option Duration, keepalive, (·.isSome)⟩,
   ⟨UInt64, readBufferSize, fun _ => False⟩,
   ⟨UInt64, writeBufferSize, fun _ => False⟩,
   ⟨Duration, acceptTimeout, fun _ => False⟩,
   ⟨Option Duration, idleTimeout, fun _ => False⟩,
   ⟨Bool, reusePort, fun _ => False⟩,
   ⟨Bool, reuseAddr, fun _ => False⟩]

def merging : Overlay.Merge TcpServerConfig where
  default := default
  merge := merge
  fields := fields
  ext := by rintro ⟨⟩ ⟨⟩ h; simpa [fields] using h
  taken := by simp +contextual [fields, merge]
  kept := by simp +contextual [fields, merge]

end TcpServerConfig

/-! ### WebSocket -/

structure WebSocketServerConfig where
  bindAddress : SocketAddr
  path : String
  subprotocols : List String
  maxFrameSize : UInt64
  maxMessageSize : UInt64
  pingInterval : Option Duration
  pongTimeout : Duration
  maxConnections : UInt64
  idleTimeout : Option Duration
  deriving DecidableEq

namespace WebSocketServerConfig

def default : WebSocketServerConfig where
  bindAddress := localhost 8080
  path := "/"
  subprotocols := []
  maxFrameSize := 16 * 1024 * 1024
  maxMessageSize := 64 * 1024 * 1024
  pingInterval := some (.fromSecs 30)
  pongTimeout := .fromSecs 10
  maxConnections := 1000
  idleTimeout := some (.fromSecs 300)

def merge (self other : WebSocketServerConfig) : WebSocketServerConfig :=
  { self with
    bindAddress := if other.bindAddress.display ≠ "127.0.0.1:8080" then other.bindAddress else self.bindAddress
    path := if other.path ≠ "/" then other.path else self.path
    subprotocols := if !other.subprotocols.isEmpty then other.subprotocols else self.subprotocols }

def fields : List (Overlay.Field WebSocketServerConfig) :=
  [⟨SocketAddr, bindAddress, (·.display ≠ "127.0.0.1:8080")⟩,
   ⟨String, path, (· ≠ "/")⟩,
   ⟨List String, subprotocols, (!·.isEmpty)⟩,
   ⟨UInt64, maxFrameSize, fun _ => False⟩,
   ⟨UInt64, maxMessageSize, fun _ => False⟩,
   ⟨Option Duration, pingInterval, fun _ => False⟩,
   ⟨Duration, pongTimeout, fun _ => False⟩,
   ⟨UInt64, maxConnections, fun _ => False⟩,
   ⟨Option Duration, idleTimeout, fun _ => False⟩]

def merging : Overlay.Merge WebSocketServerConfig where
  default := default
  merge := merge
  fields := fields
  ext := by rintro ⟨⟩ ⟨⟩ h; simpa [fields] using h
  taken := by simp +contextual [fields, merge]
  kept := by simp +contextual [fields, merge]

end WebSocketServerConfig

/-! ### QUIC -/

structure QuicServerConfig where
  bindAddress : SocketAddr
  certPem : Option String
  keyPem : Option String
  maxConcurrentStreams : UInt64
  maxIdleTimeout : Duration
  keepAliveInterval : Option Duration
  initialRtt : Duration
  maxConnections : UInt64
  receiveWindow : UInt32
  sendWindow : UInt32
  deriving DecidableEq

namespace QuicServerConfig

def default : QuicServerConfig where
  bindAddress := localhost 8080
  certPem := none
  keyPem := none
  maxConcurrentStreams := 100
  maxIdleTimeout := .fromSecs 30
  keepAliveInterval := some (.fromSecs 15)
  initialRtt := .fromMillis 100
  maxConnections := 1000
  receiveWindow := 1024 * 1024
  sendWindow := 1024 * 1024

def merge (self other : QuicServerConfig) : QuicServerConfig :=
  { self with
    bindAddress := if other.bindAddress.display ≠ "127.0.0.1:8080" then other.bindAddress else self.bindAddress
    certPem := if other.certPem.isSome then other.certPem else self.certPem
    keyPem := if other.keyPem.isSome then other.keyPem else self.keyPem }

def fields : List (Overlay.Field QuicServerConfig) :=
  [⟨SocketAddr, bindAddress, (·.display ≠ "127.0.0.1:8080")⟩,
   ⟨Option String, certPem, (·.isSome)⟩,
   ⟨Option String, keyPem, (·.isSome)⟩,
   ⟨UInt64, maxConcurrentStreams, fun _ => False⟩,
   ⟨Duration, maxIdleTimeout, fun _ => False⟩,
   ⟨Option Duration, keepAliveInterval, fun _ => False⟩,
   ⟨Duration, initialRtt, fun _ => False⟩,
   ⟨UInt64, maxConnections, fun _ => False⟩,
   ⟨UInt32, receiveWindow, fun _ => False⟩,
   ⟨UInt32, sendWindow, fun _ => False⟩]

def merging : Overlay.Merge QuicServerConfig where
  default := default
  merge := merge
  fields := fields
  ext := by rintro ⟨⟩ ⟨⟩ h; simpa [fields] using h
  taken := by simp +contextual [fields, merge]
  kept := by simp +contextual [fields, merge]

end QuicServerConfig

end Msgtrans
