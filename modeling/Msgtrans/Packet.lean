import Msgtrans.Lib.BigEndian

/-!
# Packets (`packet.rs`)

The fixed header, `Packet`, `SharedPacket` and the six hand-written wire functions. `Vec<u8>`,
`&[u8]` and `Bytes` are all byte lists; `usize` is `Nat` (on a 64-bit target no offset of the
decoders can wrap: 16, a 16-bit and a 32-bit length).
-/

namespace Msgtrans

abbrev Bytes := List UInt8

def slice (bytes : Bytes) (start stop : Nat) : Bytes := (bytes.take stop).drop start

def u16ToBeBytes (x : UInt16) : Bytes := BigEndian.encode 2 x.toNat

def u32ToBeBytes (x : UInt32) : Bytes := BigEndian.encode 4 x.toNat

def u16FromBeBytes (bytes : Bytes) : UInt16 := .ofNat (BigEndian.decode bytes)

def u32FromBeBytes (bytes : Bytes) : UInt32 := .ofNat (BigEndian.decode bytes)

inductive PacketType where
  | oneWay | request | response
deriving DecidableEq, Repr

namespace PacketType

/-- `From<u8>`: every unknown value reads as a one-way message. -/
def ofU8 : UInt8 → PacketType
  | 0 => .oneWay
  | 1 => .request
  | 2 => .response
  | _ => .oneWay

def toU8 : PacketType → UInt8
  | .oneWay => 0
  | .request => 1
  | .response => 2

end PacketType

inductive CompressionType where
  | none | zstd | zlib
deriving DecidableEq, Repr

namespace CompressionType

/-- `From<u8>`: every unknown value reads as no compression. -/
def ofU8 : UInt8 → CompressionType
  | 0 => .none
  | 1 => .zstd
  | 2 => .zlib
  | _ => .none

def toU8 : CompressionType → UInt8
  | .none => 0
  | .zstd => 1
  | .zlib => 2

end CompressionType

structure ReservedFlags where
  raw : UInt16
deriving DecidableEq, Repr

namespace ReservedFlags

def new : ReservedFlags := ⟨0⟩

/-- The three `with_*` setters: set or clear the bits of `mask`. -/
def withFlag (r : ReservedFlags) (mask : UInt16) (on : Bool) : ReservedFlags :=
  if on then ⟨r.raw ||| mask⟩ else ⟨r.raw &&& ~~~mask⟩

def withFragmented (r : ReservedFlags) (fragmented : Bool) : ReservedFlags := r.withFlag 0x0001 fragmented

def withPriority (r : ReservedFlags) (highPriority : Bool) : ReservedFlags := r.withFlag 0x0002 highPriority

def withRouteTag (r : ReservedFlags) (hasRoute : Bool) : ReservedFlags := r.withFlag 0x0004 hasRoute

end ReservedFlags

inductive PacketError where
  | invalidHeader (msg : String)
  | invalidPacket (msg : String)
  | unsupportedVersion (version : UInt8)
  | compressionError (msg : String)
  | unsupportedCompression (msg : String)
  | serializationError (msg : String)
deriving DecidableEq, Repr

/-- The 16-byte header, in wire order. -/
structure FixedHeader where
  version : UInt8
  compression : CompressionType
  packetType : PacketType
  bizType : UInt8
  messageId : UInt32
  extHeaderLen : UInt16
  payloadLen : UInt32
  reserved : ReservedFlags
deriving DecidableEq, Repr

namespace FixedHeader

def new (packetType : PacketType) (messageId : UInt32) : FixedHeader where
  version := 1
  compression := .none
  packetType := packetType
  bizType := 0
  messageId := messageId
  extHeaderLen := 0
  payloadLen := 0
  reserved := .new

def toBytes (h : FixedHeader) : Bytes :=
  [h.version, h.compression.toU8, h.packetType.toU8, h.bizType] ++ u32ToBeBytes h.messageId ++
    u16ToBeBytes h.extHeaderLen ++ u32ToBeBytes h.payloadLen ++ u16ToBeBytes h.reserved.raw

def fromBytes (bytes : Bytes) : Except PacketError FixedHeader := do
  if bytes.length < 16 then
    throw (.invalidHeader "Header too short")
  let version := bytes[0]!
  if version ≠ 1 then
    throw (.unsupportedVersion version)
  return {
    version := version
    compression := .ofU8 bytes[1]!
    packetType := .ofU8 bytes[2]!
    bizType := bytes[3]!
    messageId := u32FromBeBytes [bytes[4]!, bytes[5]!, bytes[6]!, bytes[7]!]
    extHeaderLen := u16FromBeBytes [bytes[8]!, bytes[9]!]
    payloadLen := u32FromBeBytes [bytes[10]!, bytes[11]!, bytes[12]!, bytes[13]!]
    reserved := ⟨u16FromBeBytes [bytes[14]!, bytes[15]!]⟩ }

end FixedHeader

/-- The body of the three encoders (`to_bytes` and the two `to_bytes_zerocopy`): header, extension
header when there is one, payload. -/
def toWire (header : FixedHeader) (extHeader payload : Bytes) : Bytes :=
  let bytes := header.toBytes
  let bytes := if extHeader.isEmpty then bytes else bytes ++ extHeader
  bytes ++ payload

def readPart (bytes : Bytes) (offset len : Nat) (incomplete : String) : Except PacketError (Bytes × Nat) :=
  if len > 0 then
    let stop := offset + len
    if bytes.length < stop then .error (.invalidPacket incomplete) else .ok (slice bytes offset stop, stop)
  else .ok ([], offset)

/-- The body of the three decoders (`from_bytes` and the two `from_bytes_zerocopy`). They differ in
the packet type `mk` builds and in whether a section is copied out of `bytes` or is a view of it. -/
def fromWire {α : Type} (mk : FixedHeader → Bytes → Bytes → α) (bytes : Bytes) : Except PacketError α := do
  if bytes.length < 16 then
    throw (.invalidPacket "Packet too short")
  let header ← FixedHeader.fromBytes (slice bytes 0 16)
  let (extHeader, offset) ← readPart bytes 16 header.extHeaderLen.toNat "Extended header incomplete"
  let (payload, _) ← readPart bytes offset header.payloadLen.toNat "Payload incomplete"
  return mk header extHeader payload

structure Packet where
  header : FixedHeader
  extHeader : Bytes
  payload : Bytes
deriving DecidableEq, Repr

namespace Packet

def new (packetType : PacketType) (messageId : UInt32) : Packet := ⟨.new packetType messageId, [], []⟩

/-- `payload.len() as u32` truncates. -/
def setPayload (p : Packet) (payload : Bytes) : Packet :=
  { p with payload := payload, header := { p.header with payloadLen := .ofNat payload.length } }

/-- `ext_header.len() as u16` truncates. -/
def setExtHeader (p : Packet) (extHeader : Bytes) : Packet :=
  { p with extHeader := extHeader, header := { p.header with extHeaderLen := .ofNat extHeader.length } }

def setMessageId (p : Packet) (messageId : UInt32) : Packet :=
  { p with header := { p.header with messageId := messageId } }

def setPacketType (p : Packet) (packetType : PacketType) : Packet :=
  { p with header := { p.header with packetType := packetType } }

def setCompression (p : Packet) (compression : CompressionType) : Packet :=
  { p with header := { p.header with compression := compression } }

def setBizType (p : Packet) (bizType : UInt8) : Packet :=
  { p with header := { p.header with bizType := bizType } }

def setFragmented (p : Packet) (fragmented : Bool) : Packet :=
  { p with header := { p.header with reserved := p.header.reserved.withFragmented fragmented } }

def setPriority (p : Packet) (highPriority : Bool) : Packet :=
  { p with header := { p.header with reserved := p.header.reserved.withPriority highPriority } }

def setRouteTag (p : Packet) (hasRoute : Bool) : Packet :=
  { p with header := { p.header with reserved := p.header.reserved.withRouteTag hasRoute } }

def oneWay (messageId : UInt32) (payload : Bytes) : Packet := (new .oneWay messageId).setPayload payload

def request (messageId : UInt32) (payload : Bytes) : Packet := (new .request messageId).setPayload payload

def response (messageId : UInt32) (payload : Bytes) : Packet := (new .response messageId).setPayload payload

def toBytes (p : Packet) : Bytes := toWire p.header p.extHeader p.payload

def fromBytes (bytes : Bytes) : Except PacketError Packet := fromWire Packet.mk bytes

def toBytesZerocopy (p : Packet) : Bytes := toWire p.header p.extHeader p.payload

def fromBytesZerocopy (bytes : Bytes) : Except PacketError Packet := fromWire Packet.mk bytes

end Packet

/-- A packet whose two variable parts are views of the received buffer. -/
structure SharedPacket where
  header : FixedHeader
  extHeader : Bytes
  payload : Bytes
deriving DecidableEq, Repr

namespace SharedPacket

def toBytesZerocopy (p : SharedPacket) : Bytes := toWire p.header p.extHeader p.payload

def fromBytesZerocopy (bytes : Bytes) : Except PacketError SharedPacket := fromWire SharedPacket.mk bytes

end SharedPacket

end Msgtrans
