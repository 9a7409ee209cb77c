import Msgtrans.AdapterErrors
import Msgtrans.Registry
import Msgtrans.ServerConfig

/-!
# The protocol factories (`adapters/factories.rs`, `protocol/protocol.rs`)

`createConnection` and `createServer` up to the call into the network: a `Dial` is the connect call that is made
and with what, a `Server` is what has been bound. What becomes of the call is not part of the model.

The TCP and the QUIC factory parse the address out of the URI. The WebSocket builders take the URI and the address
that they are given and drop them.
-/

namespace Msgtrans
open Net

/-! ### What is outside -/

inductive Verifier (Cert : Type)
  | skip
  | systemRoots
  | roots (certs : List Cert)

/-- The libraries that the factories call before they connect or bind; an error is its text. -/
structure Outside where
  Cert : Type
  Key : Type
  /-- The address that `connect_async` connects to for a URL. -/
  connectAsync : String → Option SocketAddr
  certs : String → Except String (List Cert)
  privateKey : String → Except String (Option Key)
  addRoot : Cert → Except String Unit
  clientCrypto : Verifier Cert → Except String Unit
  idleTimeout : Duration → Except String Unit
  endpointClient : SocketAddr → Except String Unit
  singleCert : List Cert → Key → Except String Unit
  serverCrypto : List Cert → Key → Except String Unit

/-- `Box<dyn Any>`: what it may be downcast to. -/
inductive AnyConfig
  | tcpClient (config : TcpClientConfig)
  | webSocketClient (config : WebSocketClientConfig)
  | quicClient (config : QuicClientConfig)
  | tcpServer (config : TcpServerConfig)
  | webSocketServer (config : WebSocketServerConfig)
  | quicServer (config : QuicServerConfig)
  | other

inductive Failure
  | error (error : TransportError)
  | panic
  deriving DecidableEq

/-! ### TCP -/

inductive Dial
  | tcp (addr : SocketAddr) (config : TcpClientConfig)
  | webSocket (url : String) (config : WebSocketClientConfig)
  | quic (addr : SocketAddr) (serverName : String) (config : QuicClientConfig)

structure TcpServer where
  listener : SocketAddr
  config : TcpServerConfig

structure TcpServerBuilder where
  config : TcpServerConfig
  bindAddress : Option SocketAddr

namespace TcpServerBuilder

def new : TcpServerBuilder := ⟨.default, none⟩

def withBindAddress (b : TcpServerBuilder) (addr : SocketAddr) : TcpServerBuilder := { b with bindAddress := some addr }

def withConfig (b : TcpServerBuilder) (config : TcpServerConfig) : TcpServerBuilder := { b with config := config }

def build (b : TcpServerBuilder) : TcpServer := ⟨b.bindAddress.getD b.config.bindAddress, b.config⟩

end TcpServerBuilder

def stripPrefix (pre text : String) : Option String :=
  if pre.toList <+: text.toList then some (String.ofList (text.toList.drop pre.toList.length)) else none

abbrev Params := Finmap fun _ : String => String

namespace TcpFactory

def parseUri (uri : String) : Except TransportError (SocketAddr × Params) :=
  let invalid := .error (.configuration "general" s!"Invalid TCP URI: {uri}")
  match stripPrefix "tcp://" uri with
  | some stripped =>
    match SocketAddr.parse stripped with
    | some addr => .ok (addr, ∅)
    | none => invalid
  | none =>
    match SocketAddr.parse uri with
    | some addr => .ok (addr, ∅)
    | none => invalid

/-- A configuration of another type counts as none. -/
def clientConfig : Option AnyConfig → TcpClientConfig
  | some (.tcpClient config) => config
  | _ => .default

def serverConfig : Option AnyConfig → TcpServerConfig
  | some (.tcpServer config) => config
  | _ => .default

def createConnection (uri : String) (config : Option AnyConfig) : Except TransportError Dial := do
  let (addr, _) ← parseUri uri
  return .tcp addr (clientConfig config)

def createServer (bindAddr : String) (config : Option AnyConfig) : Except TransportError TcpServer :=
  match SocketAddr.parse bindAddr with
  | some addr => .ok ((TcpServerBuilder.new.withBindAddress addr).withConfig (serverConfig config)).build
  | none => .error (.configuration "protocol" s!"Invalid bind address: {bindAddr}")

end TcpFactory

/-! ### WebSocket -/

structure WebSocketClientBuilder where
  config : Option WebSocketClientConfig

namespace WebSocketClientBuilder

def new : WebSocketClientBuilder := ⟨none⟩

def targetUrl (b : WebSocketClientBuilder) (_url : String) : WebSocketClientBuilder := b

def withConfig (_ : WebSocketClientBuilder) (config : WebSocketClientConfig) : WebSocketClientBuilder := ⟨some config⟩

/-- The URL comes from the configuration. -/
def connect (b : WebSocketClientBuilder) : Except WebSocketError Dial :=
  match b.config with
  | some config => .ok (.webSocket config.targetUrl config)
  | none => .error (.config "Missing WebSocket client config")

end WebSocketClientBuilder

structure WebSocketServer where
  config : WebSocketServerConfig
  listener : Option SocketAddr

/-- `accept` up to the wait for a peer: the first one binds the address of the configuration, as text. -/
def WebSocketServer.listen (server : WebSocketServer) : WebSocketServer :=
  match server.listener with
  | some _ => server
  | none => { server with listener := SocketAddr.parse server.config.bindAddress.display }

structure WebSocketServerBuilder where
  config : Option WebSocketServerConfig

namespace WebSocketServerBuilder

def new : WebSocketServerBuilder := ⟨none⟩

def bindAddress (b : WebSocketServerBuilder) (_addr : SocketAddr) : WebSocketServerBuilder := b

def withConfig (_ : WebSocketServerBuilder) (config : WebSocketServerConfig) : WebSocketServerBuilder := ⟨some config⟩

def build (b : WebSocketServerBuilder) : Except WebSocketError WebSocketServer :=
  match b.config with
  | some config => .ok ⟨config, none⟩
  | none => .error (.config "Missing WebSocket server config")

end WebSocketServerBuilder

namespace WebSocketFactory

def clientConfig : Option AnyConfig → WebSocketClientConfig
  | some (.webSocketClient config) => config
  | _ => .default

def serverConfig : Option AnyConfig → WebSocketServerConfig
  | some (.webSocketServer config) => config
  | _ => .default

def createConnection (uri : String) (config : Option AnyConfig) : Except TransportError Dial :=
  Except.mapError (fun e => .connection ("WebSocket connection failed: " ++ e.debug) true)
    ((WebSocketClientBuilder.new.targetUrl uri).withConfig (clientConfig config)).connect

def createServer (bindAddr : String) (config : Option AnyConfig) : Except TransportError WebSocketServer :=
  match SocketAddr.parse bindAddr with
  | some addr =>
    Except.mapError (fun e => .configuration "websocket" e.display)
      ((WebSocketServerBuilder.new.bindAddress addr).withConfig (serverConfig config)).build
  | none => .error (.configuration "websocket" s!"Invalid bind address: {bindAddr}")

end WebSocketFactory

/-! ### QUIC -/

def configureClientWithConfig (o : Outside) (config : QuicClientConfig) : Except QuicError Unit := do
  let verifier ← if config.verifyCertificate then
      match config.caCertPem with
      | some pem => do
        let certs ← (o.certs pem).mapError fun e => .config s!"Failed to parse CA certificate: {e}"
        certs.forM fun cert => (o.addRoot cert).mapError fun e => .config s!"Failed to add CA certificate to store: {e}"
        pure (.roots certs)
      | none => pure .systemRoots
    else pure .skip
  (o.clientCrypto verifier).mapError fun e => .config s!"QUIC client config error: {e}"
  (o.idleTimeout config.maxIdleTimeout).mapError fun e => .config s!"Invalid idle timeout: {e}"

/-- `QuicAdapter::connect`, to the call of `Endpoint::connect`. -/
def quicConnect (o : Outside) (addr : SocketAddr) (config : QuicClientConfig) : Except QuicError Dial := do
  configureClientWithConfig o config
  (o.endpointClient (config.localBindAddress.getD (.v4 ⟨0, 0, 0, 0⟩ 0))).mapError .io
  return .quic addr (config.serverName.getD "localhost") config

/-- The certificate is a pair of texts, both of them not empty. -/
def pemPair (config : QuicServerConfig) : Option (String × String) :=
  match config.certPem, config.keyPem with
  | some certPem, some keyPem => if certPem ≠ "" ∧ keyPem ≠ "" then some (certPem, keyPem) else none
  | _, _ => none

def configureServerWithPem (o : Outside) (certPem keyPem : String) : Except QuicError Unit := do
  let key ← (o.privateKey keyPem).mapError fun e => .config s!"Failed to parse private key: {e}"
  match key with
  | none => .error (.config "No private key found in PEM data")
  | some key =>
    let certs ← (o.certs certPem).mapError fun e => .config s!"Failed to parse certificates: {e}"
    if certs.isEmpty then .error (.config "No certificates found in PEM data")
    (o.singleCert certs key).mapError fun e => .config s!"TLS configuration error: {e}"
    (o.serverCrypto certs key).mapError fun e => .config s!"QUIC configuration error: {e}"

structure QuicServer where
  config : QuicServerConfig
  endpoint : SocketAddr

structure QuicServerBuilder where
  config : QuicServerConfig
  bindAddress : Option SocketAddr

namespace QuicServerBuilder

def new : QuicServerBuilder := ⟨.default, none⟩

def withBindAddress (b : QuicServerBuilder) (addr : SocketAddr) : QuicServerBuilder := { b with bindAddress := some addr }

def withConfig (b : QuicServerBuilder) (config : QuicServerConfig) : QuicServerBuilder := { b with config := config }

/-- An idle timeout that QUIC cannot hold is unwrapped. -/
def build (o : Outside) (b : QuicServerBuilder) : Except Failure QuicServer := do
  match pemPair b.config with
  | some (certPem, keyPem) =>
    (configureServerWithPem o certPem keyPem).mapError fun e => .error (.configuration "quic" e.display)
  | none => pure ()
  (o.idleTimeout b.config.maxIdleTimeout).mapError fun _ => .panic
  return ⟨b.config, b.bindAddress.getD (.v4 ⟨127, 0, 0, 1⟩ 0)⟩

end QuicServerBuilder

namespace QuicFactory

def parseUri (uri : String) : Except TransportError (SocketAddr × Params) :=
  match stripPrefix "quic://" uri with
  | some stripped =>
    match SocketAddr.parse stripped with
    | some addr => .ok (addr, ∅)
    | none => .error (.configuration "quic" "Invalid QUIC URI format")
  | none => .error (.configuration "quic" "URI must start with quic://")

def clientConfig : Option AnyConfig → Except TransportError QuicClientConfig
  | some (.quicClient config) => .ok config
  | some _ => .error (.configuration "quic" "Invalid QUIC client config type")
  | none => .ok .default

def serverConfig : Option AnyConfig → Except TransportError QuicServerConfig
  | some (.quicServer config) => .ok config
  | some _ => .error (.configuration "quic" "Invalid QUIC server config type")
  | none => .error (.configuration "quic" "QUIC server config is required")

def createConnection (o : Outside) (uri : String) (config : Option AnyConfig) : Except TransportError Dial := do
  let config ← clientConfig config
  let (addr, _) ← parseUri uri
  (quicConnect o addr config).mapError fun e => .connection e.display true

def createServer (o : Outside) (bindAddr : String) (config : Option AnyConfig) : Except Failure QuicServer := do
  let config ← (serverConfig config).mapError .error
  match SocketAddr.parse bindAddr with
  | some addr => ((QuicServerBuilder.new.withBindAddress addr).withConfig config).build o
  | none => .error (.error (.configuration "quic" "Invalid bind address format"))

end QuicFactory

/-! ### The registry -/

inductive StandardFactory
  | tcp
  | webSocket
  | quic
  deriving DecidableEq, Repr

instance : ProtocolFactory StandardFactory where
  protocolName
    | .tcp => "tcp"
    | .webSocket => "websocket"
    | .quic => "quic"
  supportedSchemes
    | .tcp => ["tcp", "tcp4", "tcp6"]
    | .webSocket => ["ws", "wss"]
    | .quic => ["quic", "quic+tls"]

inductive Server
  | tcp (server : TcpServer)
  | webSocket (server : WebSocketServer)
  | quic (server : QuicServer)

namespace StandardFactory

def createConnection (o : Outside) (factory : StandardFactory) (uri : String) (config : Option AnyConfig) :
    Except TransportError Dial :=
  match factory with
  | .tcp => TcpFactory.createConnection uri config
  | .webSocket => WebSocketFactory.createConnection uri config
  | .quic => QuicFactory.createConnection o uri config

def createServer (o : Outside) (factory : StandardFactory) (bindAddr : String) (config : Option AnyConfig) :
    Except Failure Server :=
  match factory with
  | .tcp => ((TcpFactory.createServer bindAddr config).mapError .error).map .tcp
  | .webSocket => ((WebSocketFactory.createServer bindAddr config).mapError .error).map .webSocket
  | .quic => (QuicFactory.createServer o bindAddr config).map .quic

end StandardFactory

/-- The text before the first `://`. -/
def findScheme : List Char → Option (List Char)
  | [] => none
  | c :: s => if "://".toList <+: c :: s then some [] else (findScheme s).map (c :: ·)

namespace ProtocolRegistry

/-- Without a scheme, the text may be a bare address, which is dialled by TCP. -/
def extractScheme (uri : String) : Except TransportError String :=
  match findScheme uri.toList with
  | some scheme => .ok (String.ofList scheme)
  | none =>
    if (SocketAddr.parse uri).isSome then .ok "tcp"
    else .error (.configuration "uri" s!"Invalid URI format: {uri}")

def createConnection (o : Outside) (r : ProtocolRegistry StandardFactory) (uri : String) (config : Option AnyConfig) :
    Except TransportError Dial := do
  let scheme ← extractScheme uri
  match r.getFactoryByScheme scheme with
  | some factory => factory.createConnection o uri config
  | none => .error (.protocol "unknown" s!"Unsupported protocol scheme: {scheme}")

def createServer (o : Outside) (r : ProtocolRegistry StandardFactory) (bindAddr protocol : String)
    (config : Option AnyConfig) : Except Failure Server :=
  match r.getFactory protocol with
  | some factory => factory.createServer o bindAddr config
  | none => .error (.error (.protocol "unknown" s!"Unsupported protocol: {protocol}"))

end ProtocolRegistry

/-- `register(..)?`. -/
def registerNext (r : ProtocolRegistry StandardFactory) (factory : StandardFactory) :
    Except TransportError (ProtocolRegistry StandardFactory) :=
  match r.register factory with
  | (.ok _, r) => .ok r
  | (.error e, _) => .error e

def createStandardRegistry : Except TransportError (ProtocolRegistry StandardFactory) := do
  let r ← registerNext .new .tcp
  let r ← registerNext r .webSocket
  registerNext r .quic

end Msgtrans
