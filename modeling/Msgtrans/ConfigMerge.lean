import Msgtrans.Lib.Ipv6Text
import Msgtrans.ServerConfig

/-!
# Merging configurations

`Told a b` lists, for each type, what is left to ask of two configurations for their merge to be the overlay
of the second one over the first: no field of `b` may look unset while it differs from the default, or look
set while it is the default, unless both configurations agree on it.
-/

namespace Msgtrans
open Net

/-! ### Tests that are not "differs from the default" -/

theorem told_of_weaker {E Q R : Prop} (h : R → Q) : (E ∨ (¬ Q ↔ ¬ R)) ↔ (Q → R ∨ E) := by tauto

theorem told_port {x y : SocketAddr} {port : UInt16} :
    (x = y ∨ (¬ y.port = port ↔ ¬ y = localhost port)) ↔ (y.port = port → y = localhost port ∨ x = y) :=
  told_of_weaker fun h => h ▸ rfl

theorem told_retry {x y : RetryConfig} :
    (x = y ∨ (¬ y.maxRetries = 3 ↔ ¬ y = .default)) ↔ (y.maxRetries = 3 → y = .default ∨ x = y) :=
  told_of_weaker fun h => h ▸ rfl

theorem told_isSome {α : Type} {x y : Option α} {d : α} :
    (x = y ∨ (y.isSome = true ↔ ¬ y = some d)) ↔ (y = none ∨ y = some d → x = y) := by
  cases y with
  | none => simp
  | some v => by_cases hv : v = d <;> simp [hv]

theorem told_none {α : Type} {x y : Option α} : x = y ∨ (y.isSome = true ↔ ¬ y = none) :=
  .inr Option.isSome_iff_ne_none

theorem display_localhost {addr : SocketAddr} : addr.display = "127.0.0.1:8080" ↔ addr = localhost 8080 :=
  @display_eq_v4_iff addr ⟨127, 0, 0, 1⟩ 8080

/-! ### The six types -/

def TcpClientConfig.Told (a b : TcpClientConfig) : Prop :=
  (b.targetAddress.port = 80 → b.targetAddress = default.targetAddress ∨ a.targetAddress = b.targetAddress) ∧
  (b.keepalive = none ∨ b.keepalive = default.keepalive → a.keepalive = b.keepalive) ∧
  (b.readTimeout = none ∨ b.readTimeout = default.readTimeout → a.readTimeout = b.readTimeout) ∧
  (b.writeTimeout = none ∨ b.writeTimeout = default.writeTimeout → a.writeTimeout = b.writeTimeout) ∧
  (b.retryConfig.maxRetries = 3 → b.retryConfig = .default ∨ a.retryConfig = b.retryConfig)

theorem TcpClientConfig.told_iff {a b : TcpClientConfig} : merging.Over a b ↔ a.Told b := by
  rw [Overlay.Merge.over_iff]
  simp [merging, fields, Overlay.Merge.Told, Told, default, told_port, told_isSome, told_retry, told_none]

def WebSocketClientConfig.Told (a b : WebSocketClientConfig) : Prop :=
  (b.pingInterval = none ∨ b.pingInterval = default.pingInterval → a.pingInterval = b.pingInterval) ∧
  (b.retryConfig.maxRetries = 3 → b.retryConfig = .default ∨ a.retryConfig = b.retryConfig)

theorem WebSocketClientConfig.told_iff {a b : WebSocketClientConfig} : merging.Over a b ↔ a.Told b := by
  rw [Overlay.Merge.over_iff]
  simp [merging, fields, Overlay.Merge.Told, Told, default, told_isSome, told_retry]

def QuicClientConfig.Told (a b : QuicClientConfig) : Prop :=
  (b.targetAddress.port = 443 → b.targetAddress = default.targetAddress ∨ a.targetAddress = b.targetAddress) ∧
  a.verifyCertificate = b.verifyCertificate ∧
  (b.keepAliveInterval = none ∨ b.keepAliveInterval = default.keepAliveInterval →
    a.keepAliveInterval = b.keepAliveInterval) ∧
  (b.retryConfig.maxRetries = 3 → b.retryConfig = .default ∨ a.retryConfig = b.retryConfig)

theorem QuicClientConfig.told_iff {a b : QuicClientConfig} : merging.Over a b ↔ a.Told b := by
  rw [Overlay.Merge.over_iff]
  simp [merging, fields, Overlay.Merge.Told, Told, default, told_port, told_isSome, told_retry, told_none]

def TcpServerConfig.Told (a b : TcpServerConfig) : Prop :=
  (a.nodelay = b.nodelay ∨ b.nodelay ≠ default.nodelay) ∧
  (b.keepalive = none ∨ b.keepalive = default.keepalive → a.keepalive = b.keepalive) ∧
  (a.readBufferSize = b.readBufferSize ∨ b.readBufferSize = default.readBufferSize) ∧
  (a.writeBufferSize = b.writeBufferSize ∨ b.writeBufferSize = default.writeBufferSize) ∧
  (a.acceptTimeout = b.acceptTimeout ∨ b.acceptTimeout = default.acceptTimeout) ∧
  (a.idleTimeout = b.idleTimeout ∨ b.idleTimeout = default.idleTimeout) ∧
  (a.reusePort = b.reusePort ∨ b.reusePort = default.reusePort) ∧
  (a.reuseAddr = b.reuseAddr ∨ b.reuseAddr = default.reuseAddr)

theorem TcpServerConfig.told_iff {a b : TcpServerConfig} : merging.Over a b ↔ a.Told b := by
  rw [Overlay.Merge.over_iff]
  simp [merging, fields, Overlay.Merge.Told, Told, default, told_isSome, display_localhost]

def WebSocketServerConfig.Told (a b : WebSocketServerConfig) : Prop :=
  (a.maxFrameSize = b.maxFrameSize ∨ b.maxFrameSize = default.maxFrameSize) ∧
  (a.maxMessageSize = b.maxMessageSize ∨ b.maxMessageSize = default.maxMessageSize) ∧
  (a.pingInterval = b.pingInterval ∨ b.pingInterval = default.pingInterval) ∧
  (a.pongTimeout = b.pongTimeout ∨ b.pongTimeout = default.pongTimeout) ∧
  (a.maxConnections = b.maxConnections ∨ b.maxConnections = default.maxConnections) ∧
  (a.idleTimeout = b.idleTimeout ∨ b.idleTimeout = default.idleTimeout)

theorem WebSocketServerConfig.told_iff {a b : WebSocketServerConfig} : merging.Over a b ↔ a.Told b := by
  rw [Overlay.Merge.over_iff]
  simp [merging, fields, Overlay.Merge.Told, Told, default, display_localhost]

def QuicServerConfig.Told (a b : QuicServerConfig) : Prop :=
  (a.maxConcurrentStreams = b.maxConcurrentStreams ∨ b.maxConcurrentStreams = default.maxConcurrentStreams) ∧
  (a.maxIdleTimeout = b.maxIdleTimeout ∨ b.maxIdleTimeout = default.maxIdleTimeout) ∧
  (a.keepAliveInterval = b.keepAliveInterval ∨ b.keepAliveInterval = default.keepAliveInterval) ∧
  (a.initialRtt = b.initialRtt ∨ b.initialRtt = default.initialRtt) ∧
  (a.maxConnections = b.maxConnections ∨ b.maxConnections = default.maxConnections) ∧
  (a.receiveWindow = b.receiveWindow ∨ b.receiveWindow = default.receiveWindow) ∧
  (a.sendWindow = b.sendWindow ∨ b.sendWindow = default.sendWindow)

theorem QuicServerConfig.told_iff {a b : QuicServerConfig} : merging.Over a b ↔ a.Told b := by
  rw [Overlay.Merge.over_iff]
  simp [merging, fields, Overlay.Merge.Told, Told, default, display_localhost, told_none]

/-! ### All of them -/

inductive ConfigType
  | tcpClient | webSocketClient | quicClient | tcpServer | webSocketServer | quicServer

namespace ConfigType

def Config : ConfigType → Type
  | tcpClient => TcpClientConfig
  | webSocketClient => WebSocketClientConfig
  | quicClient => QuicClientConfig
  | tcpServer => TcpServerConfig
  | webSocketServer => WebSocketServerConfig
  | quicServer => QuicServerConfig

def merging : (t : ConfigType) → Overlay.Merge t.Config
  | tcpClient => TcpClientConfig.merging
  | webSocketClient => WebSocketClientConfig.merging
  | quicClient => QuicClientConfig.merging
  | tcpServer => TcpServerConfig.merging
  | webSocketServer => WebSocketServerConfig.merging
  | quicServer => QuicServerConfig.merging

def Told : (t : ConfigType) → t.Config → t.Config → Prop
  | tcpClient => TcpClientConfig.Told
  | webSocketClient => WebSocketClientConfig.Told
  | quicClient => QuicClientConfig.Told
  | tcpServer => TcpServerConfig.Told
  | webSocketServer => WebSocketServerConfig.Told
  | quicServer => QuicServerConfig.Told

theorem told_iff {t : ConfigType} {a b : t.Config} : t.merging.Over a b ↔ t.Told a b := by
  cases t with
  | tcpClient => exact TcpClientConfig.told_iff
  | webSocketClient => exact WebSocketClientConfig.told_iff
  | quicClient => exact QuicClientConfig.told_iff
  | tcpServer => exact TcpServerConfig.told_iff
  | webSocketServer => exact WebSocketServerConfig.told_iff
  | quicServer => exact QuicServerConfig.told_iff

end ConfigType

/-- A merge with a configuration that leaves it at the default does not turn verification off. -/
def QuicClientConfig.KeepsVerification (x y : QuicClientConfig) : Prop :=
  y.verifyCertificate = default.verifyCertificate → x.verifyCertificate = true →
    (x.merge y).verifyCertificate = true

theorem QuicClientConfig.keepsVerification_iff {x y : QuicClientConfig} :
    x.KeepsVerification y ↔ ¬ (x.verifyCertificate = true ∧ y.verifyCertificate = false) := by
  unfold KeepsVerification
  cases hx : x.verifyCertificate <;> cases hy : y.verifyCertificate <;> simp [merge, default, hx, hy]

/-- What is asked of a merge, part by part, and when it holds. Later configurations win over earlier ones however
they are grouped. -/
theorem mergeLaw_iff (t : ConfigType) (a b c : t.Config) (x y : QuicClientConfig) :
    (t.merging.Over a b ↔ t.Told a b) ∧
    (t.merging.merge a t.merging.default = a ↔ t.Told a t.merging.default) ∧
    (t.merging.merge t.merging.default b = b ↔ t.Told t.merging.default b) ∧
    t.merging.merge (t.merging.merge a b) c = t.merging.merge a (t.merging.merge b c) ∧
    (x.KeepsVerification y ↔ ¬ (x.verifyCertificate = true ∧ y.verifyCertificate = false)) :=
  ⟨ConfigType.told_iff, Overlay.Merge.merge_default_iff.trans ConfigType.told_iff,
    Overlay.Merge.default_merge_iff.trans ConfigType.told_iff, Overlay.Merge.merge_assoc,
    QuicClientConfig.keepsVerification_iff⟩

def verifying : QuicClientConfig := { QuicClientConfig.default with verifyCertificate := true }

/-- Verification cannot be turned on by a merge, and any merge with a configuration that says nothing turns it off. -/
theorem verification_lost : verifying.merge .default = .default ∧ QuicClientConfig.default.merge verifying = .default ∧
    ¬ QuicClientConfig.merging.Over verifying .default ∧ ¬ verifying.KeepsVerification .default := by
  refine ⟨by decide, by decide, ?_, ?_⟩
  · rw [QuicClientConfig.told_iff]
    rintro ⟨-, h, -⟩
    simp [verifying, QuicClientConfig.default] at h
  · rw [QuicClientConfig.keepsVerification_iff]
    simp [verifying, QuicClientConfig.default]

end Msgtrans
