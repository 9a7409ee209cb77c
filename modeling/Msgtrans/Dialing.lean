import Msgtrans.Factories
import Msgtrans.Lib.Ipv6Text

/-!
# Which address is dialled, and which one is bound

`addressed_iff`: for every factory of the standard registry, every scheme that it advertises and every text of an
address, when the address is the one that is dialled, and when a server of its protocol is bound to it, on its
creation or by the time of its first `accept`.
-/

namespace Msgtrans
open Net

/-- The address that the call connects to. -/
def Dial.addr (o : Outside) : Dial → Option SocketAddr
  | .tcp addr _ => some addr
  | .webSocket url _ => o.connectAsync url
  | .quic addr _ _ => some addr

def Dials (o : Outside) (result : Except TransportError Dial) (addr : SocketAddr) : Prop :=
  ∃ dial, result = .ok dial ∧ dial.addr o = some addr

def Server.bound : Server → Option SocketAddr
  | .tcp server => some server.listener
  | .webSocket server => server.listener
  | .quic server => some server.endpoint

/-- What `accept` binds first. -/
def Server.accept : Server → Server
  | .webSocket server => .webSocket server.listen
  | server => server

def Binds (result : Except Failure Server) (addr : SocketAddr) : Prop :=
  ∃ server, result = .ok server ∧ server.bound = some addr

def BindsByAccept (result : Except Failure Server) (addr : SocketAddr) : Prop :=
  ∃ server, result = .ok server ∧ server.accept.bound = some addr

/-! ### The conditions -/

/-- The TLS client and the local endpoint can be set up. -/
def ClientReady (o : Outside) (config : QuicClientConfig) : Prop :=
  configureClientWithConfig o config = .ok () ∧
    o.endpointClient (config.localBindAddress.getD (.v4 ⟨0, 0, 0, 0⟩ 0)) = .ok ()

def ServerReady (o : Outside) (config : QuicServerConfig) : Prop :=
  (∀ pems ∈ pemPair config, configureServerWithPem o pems.1 pems.2 = .ok ()) ∧
    o.idleTimeout config.maxIdleTimeout = .ok ()

def DialsWhen (o : Outside) (factory : StandardFactory) (scheme : String) (config : Option AnyConfig)
    (addr : SocketAddr) : Prop :=
  match factory with
  | .tcp => scheme = "tcp"
  | .webSocket => o.connectAsync (WebSocketFactory.clientConfig config).targetUrl = some addr
  | .quic => scheme = "quic" ∧ ∃ c, QuicFactory.clientConfig config = .ok c ∧ ClientReady o c

def BindsWhen (o : Outside) (factory : StandardFactory) (config : Option AnyConfig) : Prop :=
  match factory with
  | .tcp => True
  | .webSocket => False
  | .quic => ∃ c, QuicFactory.serverConfig config = .ok c ∧ ServerReady o c

def BindsByAcceptWhen (o : Outside) (factory : StandardFactory) (config : Option AnyConfig) (addr : SocketAddr) : Prop :=
  match factory with
  | .webSocket => (WebSocketFactory.serverConfig config).bindAddress.written = addr
  | factory => BindsWhen o factory config

/-! ### The registry -/

theorem bind_eq_ok {ε α β : Type} {x : Except ε α} {f : α → Except ε β} {b : β} :
    x >>= f = .ok b ↔ ∃ a, x = .ok a ∧ f a = .ok b := by
  cases x <;> simp [bind, Except.bind]

theorem map_eq_ok {ε α β : Type} {x : Except ε α} {f : α → β} {b : β} : x.map f = .ok b ↔ ∃ a, x = .ok a ∧ f a = b := by
  cases x <;> simp [Except.map]

theorem mapError_eq_ok {ε ε' α : Type} {x : Except ε α} {f : ε → ε'} {a : α} :
    x.mapError f = .ok a ↔ x = .ok a := by
  cases x <;> simp [Except.mapError]

theorem added_of_registerNext {r r' : ProtocolRegistry StandardFactory} {factory : StandardFactory}
    (h : registerNext r factory = .ok r') : r.Added factory r' := by
  unfold registerNext at h
  split at h
  next u r'' heq =>
    obtain rfl := Except.ok.inj h
    have hfresh := (ProtocolRegistry.register_ok_iff.1 (congrArg Prod.fst heq)).2
    have hatomic := (ProtocolRegistry.atomic_iff r factory).2 (.inr hfresh)
    unfold ProtocolRegistry.Atomic at hatomic
    rwa [heq] at hatomic
  next => cases h

variable {registry : ProtocolRegistry StandardFactory} {factory : StandardFactory} {scheme text : String}
  {addr : SocketAddr} {o : Outside} {config : Option AnyConfig}

theorem added_of_standard (hreg : createStandardRegistry = .ok registry) : ∃ r₁ r₂,
    ProtocolRegistry.new.Added .tcp r₁ ∧ r₁.Added .webSocket r₂ ∧ r₂.Added .quic registry := by
  obtain ⟨r₁, h₁, hreg⟩ := bind_eq_ok.1 hreg
  obtain ⟨r₂, h₂, h₃⟩ := bind_eq_ok.1 hreg
  exact ⟨r₁, r₂, added_of_registerNext h₁, added_of_registerNext h₂, added_of_registerNext h₃⟩

theorem getFactoryByScheme_standard (hreg : createStandardRegistry = .ok registry)
    (hs : scheme ∈ supportedSchemes factory) : registry.getFactoryByScheme scheme = some factory := by
  obtain ⟨r₁, r₂, ⟨-, h₁, -⟩, ⟨-, h₂, -⟩, ⟨-, h₃, -⟩⟩ := added_of_standard hreg
  rw [ProtocolRegistry.getFactoryByScheme, h₃, h₂, h₁]
  cases factory
  all_goals
    simp only [supportedSchemes, List.mem_cons, List.not_mem_nil, or_false] at hs
    rcases hs with rfl | rfl | rfl <;> simp [supportedSchemes]

theorem getFactory_standard (hreg : createStandardRegistry = .ok registry) (factory : StandardFactory) :
    registry.getFactory (protocolName factory) = some factory := by
  obtain ⟨r₁, r₂, ⟨h₁, -⟩, ⟨h₂, -⟩, ⟨h₃, -⟩⟩ := added_of_standard hreg
  rw [ProtocolRegistry.getFactory, h₃, h₂, h₁]
  cases factory <;> simp [protocolName]

/-! ### The URI -/

theorem findScheme_append {scheme : List Char} (t : List Char) (hs : ':' ∉ scheme) :
    findScheme (scheme ++ "://".toList ++ t) = some scheme := by
  induction scheme with
  | nil => simp [findScheme]
  | cons c scheme ih =>
    have hc : ¬ ':' = c := fun h => hs (h ▸ List.mem_cons_self)
    have hrest := ih fun h => hs (List.mem_cons_of_mem _ h)
    simp only [List.cons_append, findScheme]
    rw [if_neg (by simp [hc]), hrest]
    rfl

theorem extractScheme_uri (text : String) (hs : scheme ∈ supportedSchemes factory) :
    ProtocolRegistry.extractScheme (scheme ++ "://" ++ text) = .ok scheme := by
  have hcolon : ':' ∉ scheme.toList := by
    cases factory
    all_goals
      simp only [supportedSchemes, List.mem_cons, List.not_mem_nil, or_false] at hs
      rcases hs with rfl | rfl | rfl <;> simp
  have hfind := findScheme_append text.toList hcolon
  simp only [ProtocolRegistry.extractScheme, String.toList_append, hfind, String.ofList_toList]

theorem createConnection_uri (hreg : createStandardRegistry = .ok registry) (text : String)
    (hs : scheme ∈ supportedSchemes factory) : registry.createConnection o (scheme ++ "://" ++ text) config =
      factory.createConnection o (scheme ++ "://" ++ text) config := by
  have hfactory := getFactoryByScheme_standard hreg hs
  simp [ProtocolRegistry.createConnection, extractScheme_uri text hs, hfactory, bind, Except.bind]

theorem stripPrefix_append (pre text : String) : stripPrefix pre (pre ++ text) = some text := by
  simp [stripPrefix]

/-! ### The three factories -/

theorem tcp_dials_iff (ht : SocketAddr.parse text = some addr)
    (hs : scheme ∈ supportedSchemes StandardFactory.tcp) :
    Dials o (TcpFactory.createConnection (scheme ++ "://" ++ text) config) addr ↔ scheme = "tcp" := by
  simp only [supportedSchemes, List.mem_cons, List.not_mem_nil, or_false] at hs
  rcases hs with rfl | hs
  · have hparse : TcpFactory.parseUri ("tcp" ++ "://" ++ text) = .ok (addr, ∅) := by
      simp only [TcpFactory.parseUri, show "tcp" ++ "://" = "tcp://" from rfl, stripPrefix_append, ht]
    refine iff_of_true ⟨.tcp addr (TcpFactory.clientConfig config), ?_, rfl⟩ rfl
    rw [TcpFactory.createConnection, hparse]
    rfl
  · -- the prefix is another one, and no address starts with a letter
    have hparse : ∃ e, TcpFactory.parseUri (scheme ++ "://" ++ text) = .error e := by
      have hstrip : stripPrefix "tcp://" (scheme ++ "://" ++ text) = none := by
        rcases hs with rfl | rfl <;> simp [stripPrefix]
      have haddr : SocketAddr.parse (scheme ++ "://" ++ text) = none := by
        rcases hs with rfl | rfl <;> exact parse_eq_none (c := 't') (by simp) (by decide) (by decide)
      unfold TcpFactory.parseUri
      rw [hstrip, haddr]
      exact ⟨_, rfl⟩
    obtain ⟨e, he⟩ := hparse
    refine iff_of_false ?_ (by rcases hs with rfl | rfl <;> decide)
    rintro ⟨dial, h, -⟩
    rw [TcpFactory.createConnection, he] at h
    cases h

theorem webSocket_dials_iff (uri : String) : Dials o (WebSocketFactory.createConnection uri config) addr ↔
    o.connectAsync (WebSocketFactory.clientConfig config).targetUrl = some addr := by
  constructor
  · rintro ⟨dial, h, haddr⟩
    cases h
    exact haddr
  · intro h
    exact ⟨_, rfl, h⟩

theorem quicConnect_eq_ok {config : QuicClientConfig} {dial : Dial} : quicConnect o addr config = .ok dial ↔
    ClientReady o config ∧ dial = .quic addr (config.serverName.getD "localhost") config := by
  simp only [quicConnect, bind_eq_ok, mapError_eq_ok, ClientReady]
  constructor
  · rintro ⟨_, hclient, _, hendpoint, h⟩
    exact ⟨⟨hclient, hendpoint⟩, (Except.ok.inj h).symm⟩
  · rintro ⟨⟨hclient, hendpoint⟩, rfl⟩
    exact ⟨(), hclient, (), hendpoint, rfl⟩

theorem quic_dials_iff (ht : SocketAddr.parse text = some addr)
    (hs : scheme ∈ supportedSchemes StandardFactory.quic) :
    Dials o (QuicFactory.createConnection o (scheme ++ "://" ++ text) config) addr ↔
      scheme = "quic" ∧ ∃ c, QuicFactory.clientConfig config = .ok c ∧ ClientReady o c := by
  simp only [supportedSchemes, List.mem_cons, List.not_mem_nil, or_false] at hs
  simp only [Dials, QuicFactory.createConnection, bind_eq_ok, mapError_eq_ok, quicConnect_eq_ok]
  rcases hs with rfl | rfl
  · have hparse : QuicFactory.parseUri ("quic" ++ "://" ++ text) = .ok (addr, ∅) := by
      simp only [QuicFactory.parseUri, show "quic" ++ "://" = "quic://" from rfl, stripPrefix_append, ht]
    rw [hparse]
    constructor
    · rintro ⟨dial, ⟨c, hc, _, _, hready, _⟩, -⟩
      exact ⟨rfl, c, hc, hready⟩
    · rintro ⟨-, c, hc, hready⟩
      exact ⟨_, ⟨c, hc, _, rfl, hready, rfl⟩, rfl⟩
  · have hparse : QuicFactory.parseUri ("quic+tls" ++ "://" ++ text) =
        .error (.configuration "quic" "URI must start with quic://") := by
      simp [QuicFactory.parseUri, stripPrefix]
    rw [hparse]
    refine iff_of_false ?_ (by simp)
    rintro ⟨dial, ⟨c, _, _, h, _⟩, -⟩
    cases h

theorem dials_iff (ht : SocketAddr.parse text = some addr) (hs : scheme ∈ supportedSchemes factory) :
    Dials o (factory.createConnection o (scheme ++ "://" ++ text) config) addr ↔
      DialsWhen o factory scheme config addr := by
  cases factory with
  | tcp => exact tcp_dials_iff ht hs
  | webSocket => exact webSocket_dials_iff _
  | quic => exact quic_dials_iff ht hs

/-! ### The servers -/

theorem build_eq_ok {b : QuicServerBuilder} {server : QuicServer} : b.build o = .ok server ↔
    ServerReady o b.config ∧ server = ⟨b.config, b.bindAddress.getD (.v4 ⟨127, 0, 0, 1⟩ 0)⟩ := by
  unfold QuicServerBuilder.build ServerReady
  cases hpems : pemPair b.config with
  | none =>
    simp only [bind_eq_ok, mapError_eq_ok]
    constructor
    · rintro ⟨_, hidle, h⟩
      exact ⟨⟨nofun, hidle⟩, (Except.ok.inj h).symm⟩
    · rintro ⟨⟨-, hidle⟩, rfl⟩
      exact ⟨(), hidle, rfl⟩
  | some pems =>
    simp only [bind_eq_ok, mapError_eq_ok]
    constructor
    · rintro ⟨_, hpem, _, hidle, h⟩
      exact ⟨⟨fun _ heq => Option.some.inj heq ▸ hpem, hidle⟩, (Except.ok.inj h).symm⟩
    · rintro ⟨⟨hpem, hidle⟩, rfl⟩
      exact ⟨(), hpem pems rfl, (), hidle, rfl⟩

theorem quic_createServer_eq_ok (ht : SocketAddr.parse text = some addr) {server : QuicServer} :
    QuicFactory.createServer o text config = .ok server ↔
      ∃ c, QuicFactory.serverConfig config = .ok c ∧ ServerReady o c ∧ server = ⟨c, addr⟩ := by
  simp only [QuicFactory.createServer, ht, bind_eq_ok, mapError_eq_ok, build_eq_ok]
  rfl

/-- What is created for an address: only the WebSocket server has not been bound to it. -/
theorem createServer_eq_ok (ht : SocketAddr.parse text = some addr) {server : Server} :
    factory.createServer o text config = .ok server ↔
      match factory with
      | .tcp => server = .tcp ⟨addr, TcpFactory.serverConfig config⟩
      | .webSocket => server = .webSocket ⟨WebSocketFactory.serverConfig config, none⟩
      | .quic => ∃ c, QuicFactory.serverConfig config = .ok c ∧ ServerReady o c ∧ server = .quic ⟨c, addr⟩ := by
  cases factory with
  | tcp =>
    simp only [StandardFactory.createServer, TcpFactory.createServer, ht]
    exact ⟨fun h => (Except.ok.inj h).symm, fun h => h ▸ rfl⟩
  | webSocket =>
    simp only [StandardFactory.createServer, WebSocketFactory.createServer, ht]
    exact ⟨fun h => (Except.ok.inj h).symm, fun h => h ▸ rfl⟩
  | quic =>
    simp only [StandardFactory.createServer, map_eq_ok, quic_createServer_eq_ok ht]
    constructor
    · rintro ⟨_, ⟨c, hc, hready, rfl⟩, rfl⟩
      exact ⟨c, hc, hready, rfl⟩
    · rintro ⟨c, hc, hready, rfl⟩
      exact ⟨_, ⟨c, hc, hready, rfl⟩, rfl⟩

theorem binds_iff (ht : SocketAddr.parse text = some addr) :
    Binds (factory.createServer o text config) addr ↔ BindsWhen o factory config := by
  simp only [Binds, createServer_eq_ok ht]
  cases factory with
  | tcp => simp [BindsWhen, Server.bound]
  | webSocket => simp [BindsWhen, Server.bound]
  | quic =>
    constructor
    · rintro ⟨_, ⟨c, hc, hready, rfl⟩, -⟩
      exact ⟨c, hc, hready⟩
    · rintro ⟨c, hc, hready⟩
      exact ⟨_, ⟨c, hc, hready, rfl⟩, rfl⟩

/-- The first `accept` binds what the configuration says, whatever address the server was created for. -/
theorem bound_listen (config : WebSocketServerConfig) :
    (WebSocketServer.listen ⟨config, none⟩).listener = some config.bindAddress.written :=
  parse_display config.bindAddress

theorem bindsByAccept_of_accept {result : Except Failure Server}
    (h : ∀ server, result = .ok server → server.accept = server) : BindsByAccept result addr ↔ Binds result addr := by
  constructor
  · rintro ⟨server, hok, hbound⟩
    exact ⟨server, hok, h server hok ▸ hbound⟩
  · rintro ⟨server, hok, hbound⟩
    exact ⟨server, hok, (h server hok).symm ▸ hbound⟩

theorem bindsByAccept_iff (ht : SocketAddr.parse text = some addr) :
    BindsByAccept (factory.createServer o text config) addr ↔ BindsByAcceptWhen o factory config addr := by
  cases factory with
  | tcp =>
    refine (bindsByAccept_of_accept fun server h => ?_).trans (binds_iff ht)
    rw [(createServer_eq_ok ht).1 h]
    rfl
  | webSocket =>
    simp only [BindsByAccept, createServer_eq_ok ht]
    constructor
    · rintro ⟨_, rfl, h⟩
      exact Option.some.inj ((bound_listen _).symm.trans h)
    · intro h
      exact ⟨_, rfl, (bound_listen _).trans (congrArg some h)⟩
  | quic =>
    refine (bindsByAccept_of_accept fun server h => ?_).trans (binds_iff ht)
    obtain ⟨c, -, -, rfl⟩ := (createServer_eq_ok ht).1 h
    rfl

/-- Which factory a URI reaches, when it dials the address that the URI names, and when a server is bound to the
address that it is created for. -/
theorem addressed_iff (o : Outside) (hreg : createStandardRegistry = .ok registry) (factory : StandardFactory)
    (hs : scheme ∈ supportedSchemes factory) (ht : SocketAddr.parse text = some addr)
    (config serverConfig : Option AnyConfig) :
    registry.getFactoryByScheme scheme = some factory ∧
    registry.createConnection o (scheme ++ "://" ++ text) config =
      factory.createConnection o (scheme ++ "://" ++ text) config ∧
    (Dials o (registry.createConnection o (scheme ++ "://" ++ text) config) addr ↔
      DialsWhen o factory scheme config addr) ∧
    (Binds (registry.createServer o text (protocolName factory) serverConfig) addr ↔
      BindsWhen o factory serverConfig) ∧
    (BindsByAccept (registry.createServer o text (protocolName factory) serverConfig) addr ↔
      BindsByAcceptWhen o factory serverConfig addr) := by
  have hserver : registry.createServer o text (protocolName factory) serverConfig =
      factory.createServer o text serverConfig := by
    simp only [ProtocolRegistry.createServer, getFactory_standard hreg factory]
  rw [hserver, createConnection_uri hreg text hs]
  exact ⟨getFactoryByScheme_standard hreg hs, rfl, dials_iff ht hs, binds_iff ht, bindsByAccept_iff ht⟩

/-! ### An advertised scheme, a configured URL and a default address -/

/-- URLs that name an address, and set-ups that succeed. -/
def plainOutside : Outside where
  Cert := Unit
  Key := Unit
  connectAsync url := (stripPrefix "ws://" url).bind fun rest =>
    SocketAddr.parse (String.ofList (rest.toList.takeWhile (· ≠ '/')))
  certs _ := .ok [()]
  privateKey _ := .ok (some ())
  addRoot _ := .ok ()
  clientCrypto _ := .ok ()
  idleTimeout _ := .ok ()
  endpointClient _ := .ok ()
  singleCert _ _ := .ok ()
  serverCrypto _ _ := .ok ()

def standardRegistry : ProtocolRegistry StandardFactory :=
  ProtocolRegistry.registerAll .new [.tcp, .webSocket, .quic]

theorem createStandardRegistry_eq : createStandardRegistry = .ok standardRegistry := rfl

/-- The URL in the configuration is on port 9001. -/
def otherUrl : AnyConfig :=
  .webSocketClient { WebSocketClientConfig.default with targetUrl := "ws://127.0.0.1:9001/" }

theorem addressed_elsewhere :
    "ws" ∈ supportedSchemes StandardFactory.webSocket ∧ SocketAddr.parse "127.0.0.1:9000" = some (localhost 9000) ∧
    ¬ Dials plainOutside (standardRegistry.createConnection plainOutside ("ws" ++ "://" ++ "127.0.0.1:9000") (some otherUrl))
      (localhost 9000) ∧
    ¬ Binds (standardRegistry.createServer plainOutside "127.0.0.1:9000" "websocket" none) (localhost 9000) := by
  have hs : "ws" ∈ supportedSchemes StandardFactory.webSocket := by decide
  have ht : SocketAddr.parse "127.0.0.1:9000" = some (localhost 9000) := by decide
  obtain ⟨-, -, hdials, hbinds, -⟩ :=
    addressed_iff plainOutside createStandardRegistry_eq .webSocket hs ht (some otherUrl) none
  refine ⟨hs, ht, fun h => ?_, hbinds.1⟩
  have h : some (localhost 9001) = some (localhost 9000) := hdials.1 h
  exact absurd h (by decide)

/-- Two advertised schemes are refused, a URL is replaced by the configured one, and a server listens elsewhere. -/
theorem advertised_schemes_refused :
    ("tcp4" ∈ supportedSchemes StandardFactory.tcp ∧ "quic+tls" ∈ supportedSchemes StandardFactory.quic ∧
      SocketAddr.parse "127.0.0.1:9000" = some (localhost 9000)) ∧
    standardRegistry.createConnection plainOutside "tcp4://127.0.0.1:9000" none =
      .error (.configuration "general" "Invalid TCP URI: tcp4://127.0.0.1:9000") ∧
    standardRegistry.createConnection plainOutside "quic+tls://127.0.0.1:9000" none =
      .error (.configuration "quic" "URI must start with quic://") ∧
    (standardRegistry.createConnection plainOutside "ws://127.0.0.1:9000" (some otherUrl)).map (Dial.addr plainOutside) =
      .ok (some (localhost 9001)) ∧
    (standardRegistry.createServer plainOutside "127.0.0.1:9000" "websocket" none).map (·.accept.bound) =
      .ok (some (localhost 8080)) :=
  ⟨by decide, rfl, rfl, rfl, rfl⟩

end Msgtrans
