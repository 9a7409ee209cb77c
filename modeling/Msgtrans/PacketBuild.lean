import Msgtrans.PacketWire

/-!
# Packets built through the public API

A packet starts from one of the four constructors and goes through any sequence of setters. The two
length fields are casts (`as u16`, `as u32`), so they are the real lengths, and the packet survives
the wire, exactly when the last extension header and the last payload it was given fit them.
-/

namespace Msgtrans

/-- `Packet::new`, `one_way`, `request`, `response`. -/
inductive Start where
  | new (packetType : PacketType) (messageId : UInt32)
  | oneWay (messageId : UInt32) (payload : Bytes)
  | request (messageId : UInt32) (payload : Bytes)
  | response (messageId : UInt32) (payload : Bytes)

inductive Setter where
  | setPayload (payload : Bytes)
  | setExtHeader (extHeader : Bytes)
  | setMessageId (messageId : UInt32)
  | setPacketType (packetType : PacketType)
  | setCompression (compression : CompressionType)
  | setBizType (bizType : UInt8)
  | setFragmented (fragmented : Bool)
  | setPriority (highPriority : Bool)
  | setRouteTag (hasRoute : Bool)

namespace Start

def packet : Start → Packet
  | .new packetType messageId => .new packetType messageId
  | .oneWay messageId payload => .oneWay messageId payload
  | .request messageId payload => .request messageId payload
  | .response messageId payload => .response messageId payload

def payload : Start → Bytes
  | .new .. => []
  | .oneWay _ payload => payload
  | .request _ payload => payload
  | .response _ payload => payload

end Start

namespace Setter

def apply (p : Packet) : Setter → Packet
  | .setPayload payload => p.setPayload payload
  | .setExtHeader extHeader => p.setExtHeader extHeader
  | .setMessageId messageId => p.setMessageId messageId
  | .setPacketType packetType => p.setPacketType packetType
  | .setCompression compression => p.setCompression compression
  | .setBizType bizType => p.setBizType bizType
  | .setFragmented fragmented => p.setFragmented fragmented
  | .setPriority highPriority => p.setPriority highPriority
  | .setRouteTag hasRoute => p.setRouteTag hasRoute

def payload? : Setter → Option Bytes
  | .setPayload payload => some payload
  | _ => none

def extHeader? : Setter → Option Bytes
  | .setExtHeader extHeader => some extHeader
  | _ => none

end Setter

def build (start : Start) (setters : List Setter) : Packet := setters.foldl Setter.apply start.packet

/-- The argument of the last `set_payload`, or the constructor's. -/
def lastPayload (start : Start) (setters : List Setter) : Bytes :=
  ((setters.filterMap Setter.payload?).getLast?).getD start.payload

def lastExtHeader (setters : List Setter) : Bytes := ((setters.filterMap Setter.extHeader?).getLast?).getD []

/-- What every packet of the API satisfies: its length fields are the casts of its lengths. -/
structure Packet.Built (ext pay : Bytes) (p : Packet) : Prop where
  version : p.header.version = 1
  extHeader : p.extHeader = ext
  payload : p.payload = pay
  extHeaderLen : p.header.extHeaderLen = .ofNat ext.length
  payloadLen : p.header.payloadLen = .ofNat pay.length

namespace Packet.Built

variable {ext pay : Bytes} {p : Packet}

theorem start (s : Start) : s.packet.Built [] s.payload := by
  cases s <;> exact ⟨rfl, rfl, rfl, rfl, rfl⟩

theorem apply (h : p.Built ext pay) (s : Setter) :
    (Setter.apply p s).Built (s.extHeader?.getD ext) (s.payload?.getD pay) := by
  cases s with
  | setPayload payload => exact ⟨h.version, h.extHeader, rfl, h.extHeaderLen, rfl⟩
  | setExtHeader extHeader => exact ⟨h.version, rfl, h.payload, rfl, h.payloadLen⟩
  | _ => exact ⟨h.version, h.extHeader, h.payload, h.extHeaderLen, h.payloadLen⟩

theorem build (start : Start) (setters : List Setter) :
    (build start setters).Built (lastExtHeader setters) (lastPayload start setters) := by
  induction setters using List.reverseRecOn with
  | nil => exact .start start
  | append_singleton setters s ih =>
    have h := ih.apply s
    rw [Msgtrans.build, List.foldl_append]
    have hext : lastExtHeader (setters ++ [s]) = s.extHeader?.getD (lastExtHeader setters) := by
      cases s <;> simp [lastExtHeader, Setter.extHeader?]
    have hpay : lastPayload start (setters ++ [s]) = s.payload?.getD (lastPayload start setters) := by
      cases s <;> simp [lastPayload, Setter.payload?]
    rw [hext, hpay]
    exact h

/-- The length fields are real exactly when the lengths fit 16 and 32 bits. -/
theorem wellFormed_iff (h : p.Built ext pay) :
    p.WellFormed ↔ ext.length < 2 ^ 16 ∧ pay.length < 2 ^ 32 := by
  constructor
  · rintro ⟨-, hext, hpay⟩
    rw [h.extHeader] at hext
    rw [h.payload] at hpay
    have := p.header.extHeaderLen.toNat_lt
    have := p.header.payloadLen.toNat_lt
    omega
  · rintro ⟨hext, hpay⟩
    refine ⟨h.version, ?_, ?_⟩
    · rw [h.extHeaderLen, h.extHeader, UInt16.toNat_ofNat_of_lt' hext]
    · rw [h.payloadLen, h.payload, UInt32.toNat_ofNat_of_lt' hpay]

end Packet.Built

/-- The fields of `header` that announce lengths agree with the two parts. -/
def Packet.LengthsReal (p : Packet) : Prop :=
  p.header.extHeaderLen.toNat = p.extHeader.length ∧ p.header.payloadLen.toNat = p.payload.length

theorem build_round_trip_iff (start : Start) (setters : List Setter) :
    (build start setters).LengthsReal ∧
        Packet.fromBytes (build start setters).toBytes = .ok (build start setters) ↔
      (lastExtHeader setters).length < 2 ^ 16 ∧ (lastPayload start setters).length < 2 ^ 32 := by
  have h := Packet.Built.build start setters
  rw [← h.wellFormed_iff]
  constructor
  · rintro ⟨⟨hext, hpay⟩, -⟩
    exact ⟨h.version, hext, hpay⟩
  · rintro hwf
    exact ⟨⟨hwf.extHeaderLen, hwf.payloadLen⟩, hwf.fromWire_toBytes Packet.mk⟩

/-- An extension header of 2^16 bytes: the length field wraps to 0 and the decoder finds no
extension header at all. -/
theorem build_wraps :
    ¬ ((build (.new .oneWay 0) [.setExtHeader (List.replicate (2 ^ 16) 0)]).LengthsReal ∧
      Packet.fromBytes (build (.new .oneWay 0) [.setExtHeader (List.replicate (2 ^ 16) 0)]).toBytes =
        .ok (build (.new .oneWay 0) [.setExtHeader (List.replicate (2 ^ 16) 0)])) := by
  generalize hp : build (.new .oneWay 0) [.setExtHeader (List.replicate (2 ^ 16) 0)] = p
  rintro ⟨⟨hext, -⟩, -⟩
  have hlen : p.extHeader.length = 2 ^ 16 := by
    rw [← hp]
    exact List.length_replicate
  have := p.header.extHeaderLen.toNat_lt
  omega

end Msgtrans
