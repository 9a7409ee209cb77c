import Msgtrans.Lib.Run
import Msgtrans.Packet
import Msgtrans.PacketWire
import Msgtrans.PacketBuild
import Msgtrans.Lib.Framing
import Msgtrans.Event
import Msgtrans.ReadBuffer
import Msgtrans.TcpLoop
import Msgtrans.Compression
import Msgtrans.Transport
import Msgtrans.Delivery
import Msgtrans.PayloadTrip
import Msgtrans.OptionsPacket
import Msgtrans.Lib.Broadcast
import Msgtrans.Pump
import Msgtrans.Startup
import Msgtrans.ConnectionState
import Msgtrans.Lifecycle
import Msgtrans.RequestTracker
import Msgtrans.ClientIds
import Msgtrans.Exchange
import Msgtrans.Lib.CopyOnWrite
import Msgtrans.LockFreeMap
import Msgtrans.Lib.Indexed
import Msgtrans.ServerSession
import Msgtrans.ExclusiveClose
import Msgtrans.SessionEvents
import Msgtrans.PendingTable
import Msgtrans.ConnectionEnd
import Msgtrans.HandleIds
import Msgtrans.CloseTarget
import Msgtrans.Replacement
import Msgtrans.SendToSession
import Msgtrans.Lib.TurnLoop
import Msgtrans.QuicLoop
import Msgtrans.WebSocketLoop
import Msgtrans.Conversions
import Msgtrans.LoopEnd
import Msgtrans.Responders
import Msgtrans.SessionTables
import Msgtrans.ConnectionPool
import Msgtrans.PoolReturns
import Msgtrans.PoolClones
import Msgtrans.LockFreeConnection
import Msgtrans.CloseStatus
import Msgtrans.FrameLimits
import Msgtrans.DecodeOverflow
import Msgtrans.MemoryPool
import Msgtrans.MemoryCounters
import Msgtrans.Registry
import Msgtrans.AddSession
import Msgtrans.CloseAll
import Msgtrans.Actor
import Msgtrans.ActorClose
import Msgtrans.ClientConfig
import Msgtrans.Lib.Overlay
import Msgtrans.Lib.SocketAddr
import Msgtrans.Lib.Ipv6Text
import Msgtrans.ServerConfig
import Msgtrans.ConfigMerge
import Msgtrans.AdapterErrors
import Msgtrans.Factories
import Msgtrans.Dialing
import Msgtrans.PoolGrowth
import Msgtrans.BinaryMessages
import Msgtrans.MessageIds
import Msgtrans.LockFreeQueue
import Msgtrans.Lib.Link
import Msgtrans.AdapterLink
import Msgtrans.Lib.Relay
import Msgtrans.EventRouting
import Msgtrans.ClientReconnect
import Msgtrans.EndToEnd
import Msgtrans.LockFreeWalk
import Msgtrans.ServerBroadcast
import Msgtrans.EventStreams
import Msgtrans.Serving
import Msgtrans.PacketEdits
import Msgtrans.FlumeAdapter
import Msgtrans.ConfigChecks
import Msgtrans.RequestsOverLink
