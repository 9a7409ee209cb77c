import Msgtrans.ConfigMerge
import Msgtrans.Lib.Checks

/-!
# Checking configurations (`protocol/client_config.rs`, `protocol/server_config.rs`)

`validate` of each configuration, its constructors and its presets. Merging keeps what is valid valid, and a merge of any
number of configurations is refused, with the error it is refused with, according to the last ones that set the checked fields
(`validate_merged`). Where a field is tested for "differs from the default" a refused value stays until it is set to another
value than the default.
-/

namespace Msgtrans
open Net

inductive ConfigError where
  | invalidAddress (address reason : String)
  | invalidValue (field value reason suggestion : String)
deriving DecidableEq, Repr

def notPositive (field suggestion : String) : ConfigError := .invalidValue field "0" "must be > 0" suggestion

/-- `addr.parse()` with the error it is mapped to; `what` is "target" or "bind". -/
def parseAddress (what address : String) : Except ConfigError SocketAddr :=
  match SocketAddr.parse address with
  | some addr => .ok addr
  | none => .error (.invalidAddress address ("Invalid " ++ what ++ " address: invalid socket address syntax"))

def isWebSocketUrl (url : String) : Bool := "ws://".isPrefixOf url || "wss://".isPrefixOf url

/-! ### TCP -/

namespace TcpClientConfig

def validate (c : TcpClientConfig) : Except ConfigError Unit := do
  if c.readBufferSize = 0 then
    throw (notPositive "read_buffer_size" "set a positive value")
  if c.writeBufferSize = 0 then
    throw (notPositive "write_buffer_size" "set a positive value")
  if c.retryConfig.maxRetries > 100 then
    throw (.invalidValue "max_retries" (toString c.retryConfig.maxRetries.toNat)
      "excessive retry count may cause resource exhaustion" "use a reasonable value (< 100)")

def new (targetAddress : String) : Except ConfigError TcpClientConfig := do
  let addr ← parseAddress "target" targetAddress
  return { default with targetAddress := addr }

def highPerformance (targetAddress : String) : Except ConfigError TcpClientConfig := do
  let c ← new targetAddress
  return { c with
    nodelay := true
    readBufferSize := 65536
    writeBufferSize := 65536
    connectTimeout := .fromSecs 5
    keepalive := some (.fromSecs 30) }

def lowLatency (targetAddress : String) : Except ConfigError TcpClientConfig := do
  let c ← new targetAddress
  return { c with nodelay := true, readBufferSize := 4096, writeBufferSize := 4096, connectTimeout := .fromSecs 3 }

def reliable (targetAddress : String) : Except ConfigError TcpClientConfig := do
  let c ← new targetAddress
  return { c with
    retryConfig := ⟨10, .fromSecs 1, 0x3FF8000000000000, .fromSecs 60, true⟩
    connectTimeout := .fromSecs 30
    keepalive := some (.fromSecs 120) }

def checks : List (Overlay.Check TcpClientConfig ConfigError) :=
  [⟨⟨UInt64, readBufferSize, (· ≠ 8192)⟩, fun size =>
      if size = 0 then some (notPositive "read_buffer_size" "set a positive value") else none⟩,
   ⟨⟨UInt64, writeBufferSize, (· ≠ 8192)⟩, fun size =>
      if size = 0 then some (notPositive "write_buffer_size" "set a positive value") else none⟩,
   ⟨⟨RetryConfig, retryConfig, (·.maxRetries ≠ 3)⟩, fun retry =>
      if retry.maxRetries > 100 then some (.invalidValue "max_retries" (toString retry.maxRetries.toNat)
        "excessive retry count may cause resource exhaustion" "use a reasonable value (< 100)") else none⟩]

theorem validate_eq (c : TcpClientConfig) : c.validate = Overlay.verdict (Overlay.firstError checks c) := by
  by_cases hread : c.readBufferSize = 0 <;> by_cases hwrite : c.writeBufferSize = 0 <;>
    by_cases hretry : c.retryConfig.maxRetries > 100 <;>
    simp [validate, checks, Overlay.firstError, Overlay.verdict, hread, hwrite, hretry] <;> rfl

end TcpClientConfig

namespace TcpServerConfig

def validate (c : TcpServerConfig) : Except ConfigError Unit := do
  if c.maxConnections = 0 then
    throw (notPositive "max_connections" "set a positive value like 1000")

def new (bindAddress : String) : Except ConfigError TcpServerConfig := do
  let addr ← parseAddress "bind" bindAddress
  return { default with bindAddress := addr }

def checks : List (Overlay.Check TcpServerConfig ConfigError) :=
  [⟨⟨UInt64, maxConnections, (· ≠ 1000)⟩, fun n =>
      if n = 0 then some (notPositive "max_connections" "set a positive value like 1000") else none⟩]

theorem validate_eq (c : TcpServerConfig) : c.validate = Overlay.verdict (Overlay.firstError checks c) := by
  by_cases h : c.maxConnections = 0 <;> simp [validate, checks, Overlay.firstError, Overlay.verdict, h] <;> rfl

end TcpServerConfig

/-! ### WebSocket -/

namespace WebSocketClientConfig

def validate (c : WebSocketClientConfig) : Except ConfigError Unit := do
  if !isWebSocketUrl c.targetUrl then
    throw (.invalidValue "target_url" c.targetUrl "must start with 'ws://' or 'wss://'" "use a valid WebSocket URL")
  if c.maxFrameSize = 0 then
    throw (notPositive "max_frame_size" "set a positive value")
  if c.maxMessageSize = 0 then
    throw (notPositive "max_message_size" "set a positive value")

def new (targetUrl : String) : Except ConfigError WebSocketClientConfig := do
  if !isWebSocketUrl targetUrl then
    throw (.invalidValue "target_url" targetUrl "must start with 'ws://' or 'wss://'"
      "use a valid WebSocket URL like 'ws://127.0.0.1:8080/path'")
  return { default with targetUrl := targetUrl }

def jsonApi (targetUrl : String) : Except ConfigError WebSocketClientConfig := do
  let c ← new targetUrl
  return { c with
    headers := Finmap.singleton "Content-Type" "application/json"
    subprotocols := ["json"]
    maxFrameSize := 16 * 1024
    maxMessageSize := 512 * 1024 }

def realtime (targetUrl : String) : Except ConfigError WebSocketClientConfig := do
  let c ← new targetUrl
  return { c with
    pingInterval := some (.fromSecs 10)
    pongTimeout := .fromSecs 5
    maxFrameSize := 8 * 1024
    connectTimeout := .fromSecs 5 }

def fileTransfer (targetUrl : String) : Except ConfigError WebSocketClientConfig := do
  let c ← new targetUrl
  return { c with
    maxFrameSize := 1024 * 1024
    maxMessageSize := 100 * 1024 * 1024
    pingInterval := none
    connectTimeout := .fromSecs 30 }

def checks : List (Overlay.Check WebSocketClientConfig ConfigError) :=
  [⟨⟨String, targetUrl, (· ≠ "ws://localhost:80/")⟩, fun url =>
      if !isWebSocketUrl url then some (.invalidValue "target_url" url "must start with 'ws://' or 'wss://'"
        "use a valid WebSocket URL") else none⟩,
   ⟨⟨UInt64, maxFrameSize, (· ≠ 64 * 1024)⟩, fun size =>
      if size = 0 then some (notPositive "max_frame_size" "set a positive value") else none⟩,
   ⟨⟨UInt64, maxMessageSize, (· ≠ 1024 * 1024)⟩, fun size =>
      if size = 0 then some (notPositive "max_message_size" "set a positive value") else none⟩]

theorem validate_eq (c : WebSocketClientConfig) : c.validate = Overlay.verdict (Overlay.firstError checks c) := by
  by_cases hurl : isWebSocketUrl c.targetUrl <;> by_cases hframe : c.maxFrameSize = 0 <;>
    by_cases hmessage : c.maxMessageSize = 0 <;>
    simp [validate, checks, Overlay.firstError, Overlay.verdict, hurl, hframe, hmessage] <;> rfl

end WebSocketClientConfig

namespace WebSocketServerConfig

def validate (c : WebSocketServerConfig) : Except ConfigError Unit := do
  if c.maxConnections = 0 then
    throw (notPositive "max_connections" "set a positive value like 1000")

def new (bindAddress : String) : Except ConfigError WebSocketServerConfig := do
  let addr ← parseAddress "bind" bindAddress
  return { default with bindAddress := addr }

/-- `merge` never touches the field. -/
def checks : List (Overlay.Check WebSocketServerConfig ConfigError) :=
  [⟨⟨UInt64, maxConnections, fun _ => False⟩, fun n =>
      if n = 0 then some (notPositive "max_connections" "set a positive value like 1000") else none⟩]

theorem validate_eq (c : WebSocketServerConfig) : c.validate = Overlay.verdict (Overlay.firstError checks c) := by
  by_cases h : c.maxConnections = 0 <;> simp [validate, checks, Overlay.firstError, Overlay.verdict, h] <;> rfl

end WebSocketServerConfig

/-! ### QUIC -/

namespace QuicClientConfig

def validate (c : QuicClientConfig) : Except ConfigError Unit := do
  if c.maxConcurrentStreams = 0 then
    throw (notPositive "max_concurrent_streams" "set a positive value")

def new (targetAddress : String) : Except ConfigError QuicClientConfig := do
  let addr ← parseAddress "target" targetAddress
  return { default with targetAddress := addr }

def highPerformance (targetAddress : String) : Except ConfigError QuicClientConfig := do
  let c ← new targetAddress
  return { c with maxConcurrentStreams := 1000, initialRtt := .fromMillis 20, connectTimeout := .fromSecs 5 }

def lowLatency (targetAddress : String) : Except ConfigError QuicClientConfig := do
  let c ← new targetAddress
  return { c with initialRtt := .fromMillis 10, keepAliveInterval := some (.fromSecs 5), maxIdleTimeout := .fromSecs 10 }

def insecure (targetAddress : String) : Except ConfigError QuicClientConfig := do
  let c ← new targetAddress
  return { c with verifyCertificate := false, serverName := some "localhost" }

def checks : List (Overlay.Check QuicClientConfig ConfigError) :=
  [⟨⟨UInt64, maxConcurrentStreams, (· ≠ 100)⟩, fun n =>
      if n = 0 then some (notPositive "max_concurrent_streams" "set a positive value") else none⟩]

theorem validate_eq (c : QuicClientConfig) : c.validate = Overlay.verdict (Overlay.firstError checks c) := by
  by_cases h : c.maxConcurrentStreams = 0 <;> simp [validate, checks, Overlay.firstError, Overlay.verdict, h] <;> rfl

end QuicClientConfig

namespace QuicServerConfig

def validate (c : QuicServerConfig) : Except ConfigError Unit := do
  if c.maxConnections = 0 then
    throw (notPositive "max_connections" "set a positive value like 1000")

def new (bindAddress : String) : Except ConfigError QuicServerConfig := do
  let addr ← parseAddress "bind" bindAddress
  return { default with bindAddress := addr }

def insecure (bindAddress : String) : Except ConfigError QuicServerConfig := do
  let c ← new bindAddress
  return { c with certPem := some "", keyPem := some "" }

def checks : List (Overlay.Check QuicServerConfig ConfigError) :=
  [⟨⟨UInt64, maxConnections, fun _ => False⟩, fun n =>
      if n = 0 then some (notPositive "max_connections" "set a positive value like 1000") else none⟩]

theorem validate_eq (c : QuicServerConfig) : c.validate = Overlay.verdict (Overlay.firstError checks c) := by
  by_cases h : c.maxConnections = 0 <;> simp [validate, checks, Overlay.firstError, Overlay.verdict, h] <;> rfl

end QuicServerConfig

/-! ### All of them -/

namespace ConfigType

def validate : (t : ConfigType) → t.Config → Except ConfigError Unit
  | tcpClient => TcpClientConfig.validate
  | webSocketClient => WebSocketClientConfig.validate
  | quicClient => QuicClientConfig.validate
  | tcpServer => TcpServerConfig.validate
  | webSocketServer => WebSocketServerConfig.validate
  | quicServer => QuicServerConfig.validate

/-- `build`, the last method of a chain of setters. -/
def build (t : ConfigType) (c : t.Config) : Except ConfigError t.Config := do
  t.validate c
  return c

def checks : (t : ConfigType) → List (Overlay.Check t.Config ConfigError)
  | tcpClient => TcpClientConfig.checks
  | webSocketClient => WebSocketClientConfig.checks
  | quicClient => QuicClientConfig.checks
  | tcpServer => TcpServerConfig.checks
  | webSocketServer => WebSocketServerConfig.checks
  | quicServer => QuicServerConfig.checks

theorem validate_eq (t : ConfigType) (c : t.Config) : t.validate c = Overlay.verdict (Overlay.firstError t.checks c) := by
  cases t with
  | tcpClient => exact TcpClientConfig.validate_eq c
  | webSocketClient => exact WebSocketClientConfig.validate_eq c
  | quicClient => exact QuicClientConfig.validate_eq c
  | tcpServer => exact TcpServerConfig.validate_eq c
  | webSocketServer => exact WebSocketServerConfig.validate_eq c
  | quicServer => exact QuicServerConfig.validate_eq c

/-- What a check reads is what `merge` treats as one field. -/
theorem field_mem (t : ConfigType) : ∀ k ∈ t.checks, k.field ∈ t.merging.fields := by
  cases t with
  | tcpClient =>
    refine List.forall_mem_cons.2 ⟨List.mem_of_getElem? (i := 4) rfl, ?_⟩
    refine List.forall_mem_cons.2 ⟨List.mem_of_getElem? (i := 5) rfl, ?_⟩
    exact List.forall_mem_singleton.2 (List.mem_of_getElem? (i := 8) rfl)
  | webSocketClient =>
    refine List.forall_mem_cons.2 ⟨List.mem_of_getElem? (i := 0) rfl, ?_⟩
    refine List.forall_mem_cons.2 ⟨List.mem_of_getElem? (i := 4) rfl, ?_⟩
    exact List.forall_mem_singleton.2 (List.mem_of_getElem? (i := 5) rfl)
  | quicClient => exact List.forall_mem_singleton.2 (List.mem_of_getElem? (i := 5) rfl)
  | tcpServer => exact List.forall_mem_singleton.2 (List.mem_of_getElem? (i := 1) rfl)
  | webSocketServer => exact List.forall_mem_singleton.2 (List.mem_of_getElem? (i := 7) rfl)
  | quicServer => exact List.forall_mem_singleton.2 (List.mem_of_getElem? (i := 7) rfl)

theorem validate_eq_ok {t : ConfigType} {c : t.Config} : t.validate c = .ok () ↔ Overlay.firstError t.checks c = none := by
  rw [t.validate_eq, Overlay.verdict_eq_ok]

theorem build_eq_ok {t : ConfigType} {c c' : t.Config} : t.build c = .ok c' ↔ c' = c ∧ t.validate c = .ok () := by
  unfold build
  cases hc : t.validate c with
  | error e => exact iff_of_false nofun fun h => nomatch h.2
  | ok u => exact ⟨fun h => ⟨(Except.ok.inj h).symm, rfl⟩, fun h => congrArg Except.ok h.1.symm⟩

end ConfigType

/-- The constructors and presets, with the address or url they are given. -/
inductive Preset : ConfigType → Type
  | tcpClient : Preset .tcpClient
  | tcpClientHighPerformance : Preset .tcpClient
  | tcpClientLowLatency : Preset .tcpClient
  | tcpClientReliable : Preset .tcpClient
  | webSocketClient : Preset .webSocketClient
  | webSocketClientJsonApi : Preset .webSocketClient
  | webSocketClientRealtime : Preset .webSocketClient
  | webSocketClientFileTransfer : Preset .webSocketClient
  | quicClient : Preset .quicClient
  | quicClientHighPerformance : Preset .quicClient
  | quicClientLowLatency : Preset .quicClient
  | quicClientInsecure : Preset .quicClient
  | tcpServer : Preset .tcpServer
  | webSocketServer : Preset .webSocketServer
  | quicServer : Preset .quicServer
  | quicServerInsecure : Preset .quicServer

def Preset.config {t : ConfigType} (preset : Preset t) (address : String) : Except ConfigError t.Config :=
  match preset with
  | tcpClient => TcpClientConfig.new address
  | tcpClientHighPerformance => TcpClientConfig.highPerformance address
  | tcpClientLowLatency => TcpClientConfig.lowLatency address
  | tcpClientReliable => TcpClientConfig.reliable address
  | webSocketClient => WebSocketClientConfig.new address
  | webSocketClientJsonApi => WebSocketClientConfig.jsonApi address
  | webSocketClientRealtime => WebSocketClientConfig.realtime address
  | webSocketClientFileTransfer => WebSocketClientConfig.fileTransfer address
  | quicClient => QuicClientConfig.new address
  | quicClientHighPerformance => QuicClientConfig.highPerformance address
  | quicClientLowLatency => QuicClientConfig.lowLatency address
  | quicClientInsecure => QuicClientConfig.insecure address
  | tcpServer => TcpServerConfig.new address
  | webSocketServer => WebSocketServerConfig.new address
  | quicServer => QuicServerConfig.new address
  | quicServerInsecure => QuicServerConfig.insecure address

theorem ok_of_bind_eq_ok {α β : Type} {x : Except ConfigError α} {f : α → Except ConfigError β} {b : β} (h : (x >>= f) = .ok b) :
    ∃ a, x = .ok a ∧ f a = .ok b := by
  cases x with
  | error e => cases h
  | ok a => exact ⟨a, rfl, h⟩

theorem WebSocketClientConfig.new_eq_ok {url : String} {c : WebSocketClientConfig} (h : new url = .ok c) :
    isWebSocketUrl url = true ∧ c = { default with targetUrl := url } := by
  unfold new at h
  cases hurl : isWebSocketUrl url with
  | true =>
    rw [hurl] at h
    exact ⟨rfl, (Except.ok.inj h).symm⟩
  | false =>
    rw [hurl] at h
    cases h

theorem WebSocketClientConfig.validate_of_url {c : WebSocketClientConfig} (hurl : isWebSocketUrl c.targetUrl = true)
    (hframe : c.maxFrameSize ≠ 0) (hmessage : c.maxMessageSize ≠ 0) : c.validate = .ok () := by
  simp only [validate, hurl, hframe, hmessage]
  rfl

/-- Whatever address a constructor or preset accepts. -/
theorem Preset.valid {t : ConfigType} {preset : Preset t} {address : String} {c : t.Config} (h : preset.config address = .ok c) :
    t.validate c = .ok () := by
  cases preset with
  | webSocketClient =>
    obtain ⟨hurl, rfl⟩ := WebSocketClientConfig.new_eq_ok h
    exact WebSocketClientConfig.validate_of_url hurl (by simp [WebSocketClientConfig.default])
      (by simp [WebSocketClientConfig.default])
  | webSocketClientJsonApi | webSocketClientRealtime | webSocketClientFileTransfer =>
    obtain ⟨b, hb, h⟩ := ok_of_bind_eq_ok h
    obtain ⟨hurl, rfl⟩ := WebSocketClientConfig.new_eq_ok hb
    cases h
    exact WebSocketClientConfig.validate_of_url hurl (by simp) (by simp [WebSocketClientConfig.default])
  | tcpClient | quicClient | tcpServer | webSocketServer | quicServer =>
    obtain ⟨addr, -, h⟩ := ok_of_bind_eq_ok h
    cases h
    rfl
  | _ =>
    obtain ⟨b, hb, h⟩ := ok_of_bind_eq_ok h
    obtain ⟨addr, -, hb⟩ := ok_of_bind_eq_ok hb
    cases hb
    cases h
    rfl

/-- The merge of any number of configurations, checked: the verdict is about the last ones that set what is checked. What was
built, or comes from a constructor or a preset, passes however it is merged. -/
theorem validate_merged (t : ConfigType) (c : t.Config) (cs : List t.Config) :
    t.validate (t.merging.chain c cs) =
      Overlay.verdict (t.checks.findSome? fun k => k.rejects (k.field.lastSet c cs)) ∧
    ((∀ b ∈ c :: cs, t.build b = .ok b ∨ ∃ (preset : Preset t) (address : String), preset.config address = .ok b) →
      t.build (t.merging.chain c cs) = .ok (t.merging.chain c cs)) := by
  constructor
  · rw [t.validate_eq, Overlay.Merge.firstError_chain t.field_mem]
  · intro h
    have hvalid : ∀ b ∈ c :: cs, t.validate b = .ok () := by
      intro b hb
      obtain hbuild | ⟨preset, address, hpreset⟩ := h b hb
      · exact (ConfigType.build_eq_ok.1 hbuild).2
      · exact preset.valid hpreset
    refine ConfigType.build_eq_ok.2 ⟨rfl, ConfigType.validate_eq_ok.2 (Overlay.Merge.accepts_chain t.field_mem fun b hb => ?_)⟩
    exact ConfigType.validate_eq_ok.1 (hvalid b hb)

/-- A refused value stays when the next configuration has the default. -/
example (c : TcpServerConfig) : TcpServerConfig.validate ({ c with maxConnections := 0 }.merge .default) =
    .error (notPositive "max_connections" "set a positive value like 1000") := rfl

end Msgtrans
