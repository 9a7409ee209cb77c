import Mathlib.Data.Finmap
import Msgtrans.Lib.Overlay
import Msgtrans.Lib.SocketAddr

/-!
# The client configurations (`protocol/client_config.rs`)

`merge` lays the second configuration over the first. Each field has a test of its own for "was set", and most of
them are not "differs from the default": a port, `is_some` of an option whose default is a value, one component
of the retry configuration, a negated flag.
-/

namespace Msgtrans
open Net

structure Duration where
  secs : UInt64
  nanos : UInt32
  deriving DecidableEq, Repr

def Duration.fromSecs (secs : UInt64) : Duration := ⟨secs, 0⟩

def Duration.fromMillis (millis : UInt64) : Duration := ⟨millis / 1000, (millis % 1000).toUInt32 * 1000000⟩

/-- The address that the source writes as `127.0.0.1:port`. -/
def localhost (port : UInt16) : SocketAddr := .v4 ⟨127, 0, 0, 1⟩ port

example : SocketAddr.parse "127.0.0.1:80" = some (localhost 80) := rfl

structure RetryConfig where
  maxRetries : UInt32
  retryInterval : Duration
  /-- The bits of the `f64`. -/
  backoffMultiplier : UInt64
  maxRetryInterval : Duration
  jitter : Bool
  deriving DecidableEq, Repr

def RetryConfig.default : RetryConfig where
  maxRetries := 3
  retryInterval := .fromMillis 500
  backoffMultiplier := 0x4000000000000000
  maxRetryInterval := .fromSecs 30
  jitter := true

/-! ### TCP -/

structure TcpClientConfig where
  targetAddress : SocketAddr
  connectTimeout : Duration
  nodelay : Bool
  keepalive : Option Duration
  readBufferSize : UInt64
  writeBufferSize : UInt64
  readTimeout : Option Duration
  writeTimeout : Option Duration
  retryConfig : RetryConfig
  localBindAddress : Option SocketAddr
  deriving DecidableEq

namespace TcpClientConfig

def default : TcpClientConfig where
  targetAddress := localhost 80
  connectTimeout := .fromSecs 10
  nodelay := true
  keepalive := some (.fromSecs 60)
  readBufferSize := 8192
  writeBufferSize := 8192
  readTimeout := some (.fromSecs 30)
  writeTimeout := some (.fromSecs 30)
  retryConfig := .default
  localBindAddress := none

def merge (self other : TcpClientConfig) : TcpClientConfig where
  targetAddress := if other.targetAddress.port ≠ 80 then other.targetAddress else self.targetAddress
  connectTimeout := if other.connectTimeout ≠ .fromSecs 10 then other.connectTimeout else self.connectTimeout
  nodelay := if !other.nodelay then other.nodelay else self.nodelay
  keepalive := if other.keepalive.isSome then other.keepalive else self.keepalive
  readBufferSize := if other.readBufferSize ≠ 8192 then other.readBufferSize else self.readBufferSize
  writeBufferSize := if other.writeBufferSize ≠ 8192 then other.writeBufferSize else self.writeBufferSize
  readTimeout := if other.readTimeout.isSome then other.readTimeout else self.readTimeout
  writeTimeout := if other.writeTimeout.isSome then other.writeTimeout else self.writeTimeout
  retryConfig := if other.retryConfig.maxRetries ≠ 3 then other.retryConfig else self.retryConfig
  localBindAddress := if other.localBindAddress.isSome then other.localBindAddress else self.localBindAddress

def fields : List (Overlay.Field TcpClientConfig) :=
  [⟨SocketAddr, targetAddress, (·.port ≠ 80)⟩,
   ⟨Duration, connectTimeout, (· ≠ .fromSecs 10)⟩,
   ⟨Bool, nodelay, (!·)⟩,
   ⟨Option Duration, keepalive, (·.isSome)⟩,
   ⟨UInt64, readBufferSize, (· ≠ 8192)⟩,
   ⟨UInt64, writeBufferSize, (· ≠ 8192)⟩,
   ⟨Option Duration, readTimeout, (·.isSome)⟩,
   ⟨Option Duration, writeTimeout, (·.isSome)⟩,
   ⟨RetryConfig, retryConfig, (·.maxRetries ≠ 3)⟩,
   ⟨Option SocketAddr, localBindAddress, (·.isSome)⟩]

def merging : Overlay.Merge TcpClientConfig where
  default := default
  merge := merge
  fields := fields
  ext := by rintro ⟨⟩ ⟨⟩ h; simpa [fields] using h
  taken := by simp +contextual [fields, merge]
  kept := by simp +contextual [fields, merge]

end TcpClientConfig

/-! ### WebSocket -/

structure WebSocketClientConfig where
  targetUrl : String
  connectTimeout : Duration
  headers : Finmap fun _ : String => String
  subprotocols : List String
  maxFrameSize : UInt64
  maxMessageSize : UInt64
  pingInterval : Option Duration
  pongTimeout : Duration
  retryConfig : RetryConfig
  verifyTls : Bool
  deriving DecidableEq

namespace WebSocketClientConfig

def default : WebSocketClientConfig where
  targetUrl := "ws://localhost:80/"
  connectTimeout := .fromSecs 10
  headers := ∅
  subprotocols := []
  maxFrameSize := 64 * 1024
  maxMessageSize := 1024 * 1024
  pingInterval := some (.fromSecs 30)
  pongTimeout := .fromSecs 10
  retryConfig := .default
  verifyTls := true

def merge (self other : WebSocketClientConfig) : WebSocketClientConfig where
  targetUrl := if other.targetUrl ≠ "ws://localhost:80/" then other.targetUrl else self.targetUrl
  connectTimeout := if other.connectTimeout ≠ .fromSecs 10 then other.connectTimeout else self.connectTimeout
  headers := if other.headers ≠ ∅ then other.headers else self.headers
  subprotocols := if !other.subprotocols.isEmpty then other.subprotocols else self.subprotocols
  maxFrameSize := if other.maxFrameSize ≠ 64 * 1024 then other.maxFrameSize else self.maxFrameSize
  maxMessageSize := if other.maxMessageSize ≠ 1024 * 1024 then other.maxMessageSize else self.maxMessageSize
  pingInterval := if other.pingInterval.isSome then other.pingInterval else self.pingInterval
  pongTimeout := if other.pongTimeout ≠ .fromSecs 10 then other.pongTimeout else self.pongTimeout
  retryConfig := if other.retryConfig.maxRetries ≠ 3 then other.retryConfig else self.retryConfig
  verifyTls := if !other.verifyTls then other.verifyTls else self.verifyTls

def fields : List (Overlay.Field WebSocketClientConfig) :=
  [⟨String, targetUrl, (· ≠ "ws://localhost:80/")⟩,
   ⟨Duration, connectTimeout, (· ≠ .fromSecs 10)⟩,
   ⟨Finmap fun _ : String => String, headers, (· ≠ ∅)⟩,
   ⟨List String, subprotocols, (!·.isEmpty)⟩,
   ⟨UInt64, maxFrameSize, (· ≠ 64 * 1024)⟩,
   ⟨UInt64, maxMessageSize, (· ≠ 1024 * 1024)⟩,
   ⟨Option Duration, pingInterval, (·.isSome)⟩,
   ⟨Duration, pongTimeout, (· ≠ .fromSecs 10)⟩,
   ⟨RetryConfig, retryConfig, (·.maxRetries ≠ 3)⟩,
   ⟨Bool, verifyTls, (!·)⟩]

def merging : Overlay.Merge WebSocketClientConfig where
  default := default
  merge := merge
  fields := fields
  ext := by rintro ⟨⟩ ⟨⟩ h; simpa [fields] using h
  taken := by simp +contextual [fields, merge]
  kept := by simp +contextual [fields, merge]

end WebSocketClientConfig

/-! ### QUIC -/

structure QuicClientConfig where
  targetAddress : SocketAddr
  serverName : Option String
  connectTimeout : Duration
  verifyCertificate : Bool
  caCertPem : Option String
  maxConcurrentStreams : UInt64
  maxIdleTimeout : Duration
  keepAliveInterval : Option Duration
  initialRtt : Duration
  retryConfig : RetryConfig
  localBindAddress : Option SocketAddr
  deriving DecidableEq

namespace QuicClientConfig

def default : QuicClientConfig where
  targetAddress := localhost 443
  serverName := none
  connectTimeout := .fromSecs 10
  verifyCertificate := false
  caCertPem := none
  maxConcurrentStreams := 100
  maxIdleTimeout := .fromSecs 30
  keepAliveInterval := some (.fromSecs 15)
  initialRtt := .fromMillis 100
  retryConfig := .default
  localBindAddress := none

def merge (self other : QuicClientConfig) : QuicClientConfig where
  targetAddress := if other.targetAddress.port ≠ 443 then other.targetAddress else self.targetAddress
  serverName := if other.serverName.isSome then other.serverName else self.serverName
  connectTimeout := if other.connectTimeout ≠ .fromSecs 10 then other.connectTimeout else self.connectTimeout
  -- the test of `verifyTls`, over a default that is `false`
  verifyCertificate := if !other.verifyCertificate then other.verifyCertificate else self.verifyCertificate
  caCertPem := if other.caCertPem.isSome then other.caCertPem else self.caCertPem
  maxConcurrentStreams :=
    if other.maxConcurrentStreams ≠ 100 then other.maxConcurrentStreams else self.maxConcurrentStreams
  maxIdleTimeout := if other.maxIdleTimeout ≠ .fromSecs 30 then other.maxIdleTimeout else self.maxIdleTimeout
  keepAliveInterval := if other.keepAliveInterval.isSome then other.keepAliveInterval else self.keepAliveInterval
  initialRtt := if other.initialRtt ≠ .fromMillis 100 then other.initialRtt else self.initialRtt
  retryConfig := if other.retryConfig.maxRetries ≠ 3 then other.retryConfig else self.retryConfig
  localBindAddress := if other.localBindAddress.isSome then other.localBindAddress else self.localBindAddress

def fields : List (Overlay.Field QuicClientConfig) :=
  [⟨SocketAddr, targetAddress, (·.port ≠ 443)⟩,
   ⟨Option String, serverName, (·.isSome)⟩,
   ⟨Duration, connectTimeout, (· ≠ .fromSecs 10)⟩,
   ⟨Bool, verifyCertificate, (!·)⟩,
   ⟨Option String, caCertPem, (·.isSome)⟩,
   ⟨UInt64, maxConcurrentStreams, (· ≠ 100)⟩,
   ⟨Duration, maxIdleTimeout, (· ≠ .fromSecs 30)⟩,
   ⟨Option Duration, keepAliveInterval, (·.isSome)⟩,
   ⟨Duration, initialRtt, (· ≠ .fromMillis 100)⟩,
   ⟨RetryConfig, retryConfig, (·.maxRetries ≠ 3)⟩,
   ⟨Option SocketAddr, localBindAddress, (·.isSome)⟩]

def merging : Overlay.Merge QuicClientConfig where
  default := default
  merge := merge
  fields := fields
  ext := by rintro ⟨⟩ ⟨⟩ h; simpa [fields] using h
  taken := by simp +contextual [fields, merge]
  kept := by simp +contextual [fields, merge]

end QuicClientConfig

end Msgtrans
