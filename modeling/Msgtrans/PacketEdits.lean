import Msgtrans.Lib.LastWrite
import Msgtrans.Lib.Run
import Msgtrans.PacketBuild

/-!
# Packets edited on their way (`packet.rs`)

A packet may be turned into a `SharedPacket` and back, go over the wire by any of the encoders and decoders, and be edited by
the setters of what it is at the moment, any number of times. It stays the packet that the same setters make of a `Packet` at
one place, as long as its two parts fit their length fields whenever it travels (`edited_of_run`). So what its getters say is
what was set last, and the bits of the reserved field that are no flag of this version are passed on.
-/

namespace Msgtrans

/-! ### The flags -/

namespace ReservedFlags

def hasFlag (r : ReservedFlags) (mask : UInt16) : Bool := r.raw &&& mask != 0

def isFragmented (r : ReservedFlags) : Bool := r.hasFlag 0x0001

def isHighPriority (r : ReservedFlags) : Bool := r.hasFlag 0x0002

def hasRouteTag (r : ReservedFlags) : Bool := r.hasFlag 0x0004

theorem or_and_distrib (a b c : UInt16) : (a ||| b) &&& c = a &&& c ||| b &&& c :=
  UInt16.toBitVec_inj.1 BitVec.and_or_distrib_right

theorem not_and_of_disjoint {mask rest : UInt16} (h : mask &&& rest = 0) : ~~~mask &&& rest = rest := by
  calc ~~~mask &&& rest = mask &&& rest ||| ~~~mask &&& rest := by rw [h, UInt16.zero_or]
    _ = (mask ||| ~~~mask) &&& rest := (or_and_distrib ..).symm
    _ = rest := by simp

variable {r : ReservedFlags} {mask rest : UInt16} {on : Bool}

theorem raw_withFlag_self : (r.withFlag mask on).raw &&& mask = if on then mask else 0 := by
  cases on with
  | false => exact (UInt16.and_assoc ..).trans (by simp)
  | true =>
    refine (or_and_distrib ..).trans (UInt16.toBitVec_inj.1 ?_)
    ext i hi
    simp +contextual

theorem raw_withFlag_of_disjoint (h : mask &&& rest = 0) : (r.withFlag mask on).raw &&& rest = r.raw &&& rest := by
  cases on with
  | false => exact (UInt16.and_assoc ..).trans (by rw [not_and_of_disjoint h])
  | true => exact (or_and_distrib ..).trans (by rw [h, UInt16.or_zero])

theorem hasFlag_withFlag (h : mask ≠ 0) : (r.withFlag mask on).hasFlag mask = on := by
  rw [hasFlag, raw_withFlag_self]
  cases on <;> simp [h]

theorem hasFlag_withFlag_of_disjoint (h : mask &&& rest = 0) : (r.withFlag mask on).hasFlag rest = r.hasFlag rest := by
  rw [hasFlag, raw_withFlag_of_disjoint h, hasFlag]

/-- The bits that are none of the three flags. -/
def unknown (r : ReservedFlags) : UInt16 := r.raw &&& 0xfff8

end ReservedFlags

/-! ### The getters -/

namespace Packet

def bizType (p : Packet) : UInt8 := p.header.bizType

def compression (p : Packet) : CompressionType := p.header.compression

def isFragmented (p : Packet) : Bool := p.header.reserved.isFragmented

def isHighPriority (p : Packet) : Bool := p.header.reserved.isHighPriority

def hasRouteTag (p : Packet) : Bool := p.header.reserved.hasRouteTag

def packetType (p : Packet) : PacketType := p.header.packetType

def messageId (p : Packet) : UInt32 := p.header.messageId

def payloadLen (p : Packet) : ℕ := p.payload.length

def totalLen (p : Packet) : ℕ := 16 + p.extHeader.length + p.payload.length

end Packet

namespace Setter

def messageId? : Setter → Option UInt32
  | .setMessageId messageId => some messageId
  | _ => none

def packetType? : Setter → Option PacketType
  | .setPacketType packetType => some packetType
  | _ => none

def compression? : Setter → Option CompressionType
  | .setCompression compression => some compression
  | _ => none

def bizType? : Setter → Option UInt8
  | .setBizType bizType => some bizType
  | _ => none

def fragmented? : Setter → Option Bool
  | .setFragmented fragmented => some fragmented
  | _ => none

def priority? : Setter → Option Bool
  | .setPriority highPriority => some highPriority
  | _ => none

def routeTag? : Setter → Option Bool
  | .setRouteTag hasRoute => some hasRoute
  | _ => none

open LastWrite ReservedFlags

theorem reads_messageId : Reads apply Packet.messageId messageId? := by rintro p ⟨⟩ <;> rfl

theorem reads_packetType : Reads apply Packet.packetType packetType? := by rintro p ⟨⟩ <;> rfl

theorem reads_compression : Reads apply Packet.compression compression? := by rintro p ⟨⟩ <;> rfl

theorem reads_bizType : Reads apply Packet.bizType bizType? := by rintro p ⟨⟩ <;> rfl

theorem reads_payload : Reads apply Packet.payload payload? := by rintro p ⟨⟩ <;> rfl

theorem reads_extHeader : Reads apply Packet.extHeader extHeader? := by rintro p ⟨⟩ <;> rfl

/-- The three flags share a word with each other. -/
theorem reads_fragmented : Reads apply Packet.isFragmented fragmented? := by
  rintro p (_ | _ | _ | _ | _ | _ | _ | _ | _)
  case setFragmented => exact hasFlag_withFlag (by decide)
  case setPriority => exact hasFlag_withFlag_of_disjoint (by decide)
  case setRouteTag => exact hasFlag_withFlag_of_disjoint (by decide)
  all_goals rfl

theorem reads_priority : Reads apply Packet.isHighPriority priority? := by
  rintro p (_ | _ | _ | _ | _ | _ | _ | _ | _)
  case setFragmented => exact hasFlag_withFlag_of_disjoint (by decide)
  case setPriority => exact hasFlag_withFlag (by decide)
  case setRouteTag => exact hasFlag_withFlag_of_disjoint (by decide)
  all_goals rfl

theorem reads_routeTag : Reads apply Packet.hasRouteTag routeTag? := by
  rintro p (_ | _ | _ | _ | _ | _ | _ | _ | _)
  case setFragmented => exact hasFlag_withFlag_of_disjoint (by decide)
  case setPriority => exact hasFlag_withFlag_of_disjoint (by decide)
  case setRouteTag => exact hasFlag_withFlag (by decide)
  all_goals rfl

theorem reads_unknown : Reads apply (fun p => p.header.reserved.unknown) fun _ => none := by
  rintro p (_ | _ | _ | _ | _ | _ | _ | _ | _)
  case setFragmented => exact raw_withFlag_of_disjoint (by decide)
  case setPriority => exact raw_withFlag_of_disjoint (by decide)
  case setRouteTag => exact raw_withFlag_of_disjoint (by decide)
  all_goals rfl

end Setter

/-- Every getter of `q` says what the last of `setters` to set it said, or what it said of `p`. -/
structure Packet.SetLast (p : Packet) (setters : List Setter) (q : Packet) : Prop where
  messageId : q.messageId = LastWrite.last Setter.messageId? p.messageId setters
  packetType : q.packetType = LastWrite.last Setter.packetType? p.packetType setters
  compression : q.compression = LastWrite.last Setter.compression? p.compression setters
  bizType : q.bizType = LastWrite.last Setter.bizType? p.bizType setters
  isFragmented : q.isFragmented = LastWrite.last Setter.fragmented? p.isFragmented setters
  isHighPriority : q.isHighPriority = LastWrite.last Setter.priority? p.isHighPriority setters
  hasRouteTag : q.hasRouteTag = LastWrite.last Setter.routeTag? p.hasRouteTag setters
  unknown : q.header.reserved.unknown = p.header.reserved.unknown
  extHeader : q.extHeader = LastWrite.last Setter.extHeader? p.extHeader setters
  payload : q.payload = LastWrite.last Setter.payload? p.payload setters
  payloadLen : q.payloadLen = (LastWrite.last Setter.payload? p.payload setters).length
  totalLen : q.totalLen = 16 + (LastWrite.last Setter.extHeader? p.extHeader setters).length +
    (LastWrite.last Setter.payload? p.payload setters).length

theorem Packet.setLast_foldl (p : Packet) (setters : List Setter) : p.SetLast setters (setters.foldl Setter.apply p) := by
  have hext := Setter.reads_extHeader.foldl p setters
  have hpay := Setter.reads_payload.foldl p setters
  refine ⟨Setter.reads_messageId.foldl p setters, Setter.reads_packetType.foldl p setters,
    Setter.reads_compression.foldl p setters, Setter.reads_bizType.foldl p setters, Setter.reads_fragmented.foldl p setters,
    Setter.reads_priority.foldl p setters, Setter.reads_routeTag.foldl p setters,
    Setter.reads_unknown.foldl_of_never p setters, hext, hpay, ?_, ?_⟩
  · rw [payloadLen, hpay]
  · rw [totalLen, hext, hpay]

/-! ### Shared packets -/

namespace SharedPacket

def new (packetType : PacketType) (messageId : UInt32) : SharedPacket := ⟨.new packetType messageId, [], []⟩

def setPayloadZerocopy (p : SharedPacket) (payload : Bytes) : SharedPacket :=
  { p with payload := payload, header := { p.header with payloadLen := .ofNat payload.length } }

def setExtHeaderZerocopy (p : SharedPacket) (extHeader : Bytes) : SharedPacket :=
  { p with extHeader := extHeader, header := { p.header with extHeaderLen := .ofNat extHeader.length } }

def setMessageId (p : SharedPacket) (messageId : UInt32) : SharedPacket :=
  { p with header := { p.header with messageId := messageId } }

def setPacketType (p : SharedPacket) (packetType : PacketType) : SharedPacket :=
  { p with header := { p.header with packetType := packetType } }

def setCompression (p : SharedPacket) (compression : CompressionType) : SharedPacket :=
  { p with header := { p.header with compression := compression } }

def setBizType (p : SharedPacket) (bizType : UInt8) : SharedPacket := { p with header := { p.header with bizType := bizType } }

def oneWay (messageId : UInt32) (payload : Bytes) : SharedPacket := (new .oneWay messageId).setPayloadZerocopy payload

def request (messageId : UInt32) (payload : Bytes) : SharedPacket := (new .request messageId).setPayloadZerocopy payload

def response (messageId : UInt32) (payload : Bytes) : SharedPacket := (new .response messageId).setPayloadZerocopy payload

/-- The setter of the same name; a shared packet has none for the flags. -/
def set? (p : SharedPacket) : Setter → Option SharedPacket
  | .setPayload payload => some (p.setPayloadZerocopy payload)
  | .setExtHeader extHeader => some (p.setExtHeaderZerocopy extHeader)
  | .setMessageId messageId => some (p.setMessageId messageId)
  | .setPacketType packetType => some (p.setPacketType packetType)
  | .setCompression compression => some (p.setCompression compression)
  | .setBizType bizType => some (p.setBizType bizType)
  | .setFragmented _ | .setPriority _ | .setRouteTag _ => none

end SharedPacket

/-- `to_shared`, and `From<Packet>`. -/
def Packet.toShared (p : Packet) : SharedPacket := ⟨p.header, p.extHeader, p.payload⟩

/-- `from_shared`, and `From<SharedPacket>`. -/
def Packet.fromShared (shared : SharedPacket) : Packet := ⟨shared.header, shared.extHeader, shared.payload⟩

/-- `arc_packet::new`. The packet type is not used. -/
def ArcPacket.new (_packetType : PacketType) (messageId : UInt32) (payload : Bytes) : SharedPacket := .oneWay messageId payload

/-- The constructors of `SharedPacket`. -/
def Start.shared : Start → SharedPacket
  | .new packetType messageId => .new packetType messageId
  | .oneWay messageId payload => .oneWay messageId payload
  | .request messageId payload => .request messageId payload
  | .response messageId payload => .response messageId payload

/-! ### On the way -/

inductive Form where
  | packet (p : Packet)
  | shared (p : SharedPacket)
deriving DecidableEq, Repr

inductive Encoder where
  | toBytes
  | toBytesZerocopy
deriving DecidableEq, Repr

inductive Decoder where
  | fromBytes
  | fromBytesZerocopy
  /-- `SharedPacket::from_bytes_zerocopy`, and `arc_packet::from_bytes_zerocopy` -/
  | sharedFromBytesZerocopy
deriving DecidableEq, Repr

inductive Edit where
  | set (setter : Setter)
  | toShared
  | toPacket
  | travel (encoder : Encoder) (decoder : Decoder)

def Form.asPacket : Form → Packet
  | .packet p => p
  | .shared p => .fromShared p

def Encoder.encode : Encoder → Form → Option Bytes
  | .toBytes, .packet p => some p.toBytes
  | .toBytes, .shared _ => none
  | .toBytesZerocopy, .packet p => some p.toBytesZerocopy
  | .toBytesZerocopy, .shared p => some p.toBytesZerocopy

def Decoder.decode : Decoder → Bytes → Except PacketError Form
  | .fromBytes, bytes => (Packet.fromBytes bytes).map .packet
  | .fromBytesZerocopy, bytes => (Packet.fromBytesZerocopy bytes).map .packet
  | .sharedFromBytesZerocopy, bytes => (SharedPacket.fromBytesZerocopy bytes).map .shared

/-- Where packets come from. -/
inductive Source where
  | packet (start : Start)
  | shared (start : Start)
  | arc (packetType : PacketType) (messageId : UInt32) (payload : Bytes)
  | received (decoder : Decoder) (bytes : Bytes)

def Source.form : Source → Option Form
  | .packet start => some (.packet start.packet)
  | .shared start => some (.shared start.shared)
  | .arc packetType messageId payload => some (.shared (ArcPacket.new packetType messageId payload))
  | .received decoder bytes => (decoder.decode bytes).toOption

/-- `none` where there is no such method, or the decoder refuses. -/
def Form.step : Form → Edit → Option Form
  | .packet p, .set setter => some (.packet (setter.apply p))
  | .shared p, .set setter => (p.set? setter).map .shared
  | .packet p, .toShared => some (.shared p.toShared)
  | .shared _, .toShared => none
  | .packet _, .toPacket => none
  | .shared p, .toPacket => some (.packet (.fromShared p))
  | f, .travel encoder decoder => (encoder.encode f).bind fun bytes => (decoder.decode bytes).toOption

def Edit.setter? : Edit → Option Setter
  | .set setter => some setter
  | _ => none

/-- There is such a method. -/
def Form.Has : Form → Edit → Prop
  | .packet _, .toPacket => False
  | .shared _, .toShared => False
  | .shared p, .set setter => (p.set? setter).isSome = true
  | f, .travel encoder _ => (encoder.encode f).isSome = true
  | _, _ => True

instance : (f : Form) → (edit : Edit) → Decidable (f.Has edit)
  | .packet _, .set _ => .isTrue trivial
  | .shared p, .set setter => inferInstanceAs (Decidable ((p.set? setter).isSome = true))
  | .packet _, .toShared => .isTrue trivial
  | .shared _, .toShared => .isFalse id
  | .packet _, .toPacket => .isFalse id
  | .shared _, .toPacket => .isTrue trivial
  | .packet p, .travel encoder _ => inferInstanceAs (Decidable ((encoder.encode (.packet p)).isSome = true))
  | .shared p, .travel encoder _ => inferInstanceAs (Decidable ((encoder.encode (.shared p)).isSome = true))

/-- What travels fits the two length fields. -/
def Form.Fits (f : Form) : Edit → Prop
  | .travel _ _ => f.asPacket.extHeader.length < 2 ^ 16 ∧ f.asPacket.payload.length < 2 ^ 32
  | _ => True

/-- The version is 1 and the length fields are the casts of the lengths. -/
def Packet.Cast (p : Packet) : Prop := p.Built p.extHeader p.payload

namespace Packet.Cast

variable {p : Packet}

theorem of_start (start : Start) : start.packet.Cast := by
  have h := Packet.Built.start start
  unfold Packet.Cast
  rw [h.extHeader, h.payload]
  exact h

theorem of_wellFormed (h : p.WellFormed) : p.Cast := by
  refine ⟨h.version, rfl, rfl, ?_, ?_⟩
  · rw [← h.extHeaderLen, UInt16.ofNat_toNat]
  · rw [← h.payloadLen, UInt32.ofNat_toNat]

theorem apply (h : p.Cast) (setter : Setter) : (setter.apply p).Cast := by
  have h' := Packet.Built.apply h setter
  unfold Packet.Cast
  rw [h'.extHeader, h'.payload]
  exact h'

/-- The cast lengths are the real ones when they fit. -/
theorem wellFormed_iff (h : p.Cast) : p.WellFormed ↔ p.extHeader.length < 2 ^ 16 ∧ p.payload.length < 2 ^ 32 :=
  Packet.Built.wellFormed_iff h

end Packet.Cast

theorem Decoder.decode_eq (decoder : Decoder) (bytes : Bytes) : ∃ mk : FixedHeader → Bytes → Bytes → Form,
    decoder.decode bytes = fromWire mk bytes ∧ ∀ header extHeader payload,
      (mk header extHeader payload).asPacket = ⟨header, extHeader, payload⟩ := by
  have hmap : ∀ {α : Type} (make : FixedHeader → Bytes → Bytes → α) (form : α → Form),
      (fromWire make bytes).map form = fromWire (fun header extHeader payload => form (make header extHeader payload)) bytes := by
    intro α make form
    by_cases hw : Whole bytes
    · rw [fromWire_whole hw, fromWire_whole hw]
      rfl
    · obtain ⟨e, he⟩ := fromWire_not_whole hw
      rw [he, he]
      rfl
  cases decoder with
  | fromBytes => exact ⟨_, hmap Packet.mk .packet, fun _ _ _ => rfl⟩
  | fromBytesZerocopy => exact ⟨_, hmap Packet.mk .packet, fun _ _ _ => rfl⟩
  | sharedFromBytesZerocopy => exact ⟨_, hmap SharedPacket.mk .shared, fun _ _ _ => rfl⟩

/-- What a decoder returns has real lengths. -/
theorem Decoder.wellFormed {decoder : Decoder} {bytes : Bytes} {f : Form} (h : decoder.decode bytes = .ok f) :
    f.asPacket.WellFormed := by
  obtain ⟨mk, hdecode, hmk⟩ := decoder.decode_eq bytes
  rw [hdecode] at h
  by_cases hw : Whole bytes
  · rw [fromWire_whole hw] at h
    cases h
    rw [hmk]
    exact hw.wellFormed
  · obtain ⟨e, he⟩ := fromWire_not_whole hw
    rw [he] at h
    cases h

theorem Encoder.encode_eq {encoder : Encoder} {f : Form} (h : (encoder.encode f).isSome = true) :
    encoder.encode f = some f.asPacket.toBytes := by
  cases encoder <;> cases f
  case toBytes.shared => cases h
  all_goals rfl

theorem SharedPacket.fromShared_set? {p q : SharedPacket} {setter : Setter} (h : p.set? setter = some q) :
    Packet.fromShared q = setter.apply (.fromShared p) := by
  cases setter <;> cases h <;> rfl

namespace Form

variable {f f' : Form} {edit : Edit} {edits : List Edit}

theorem travel_iff {encoder : Encoder} {decoder : Decoder} (hf : f.asPacket.Cast) (hhas : f.Has (.travel encoder decoder)) :
    (∃ f', step f (.travel encoder decoder) = some f' ∧ f'.asPacket = f.asPacket) ↔ f.Fits (.travel encoder decoder) := by
  have hencode : encoder.encode f = some f.asPacket.toBytes := Encoder.encode_eq (by cases f <;> exact hhas)
  have hstep : step f (.travel encoder decoder) = (decoder.decode f.asPacket.toBytes).toOption := by
    have : step f (.travel encoder decoder) = (encoder.encode f).bind fun bytes => (decoder.decode bytes).toOption := by
      cases f <;> rfl
    rw [this, hencode]
    rfl
  have hfits : f.Fits (.travel encoder decoder) ↔ f.asPacket.WellFormed := hf.wellFormed_iff.symm
  rw [hstep, hfits]
  constructor
  · rintro ⟨f', hf', heq⟩
    cases hdecode : decoder.decode f.asPacket.toBytes with
    | error e => rw [hdecode] at hf'; cases hf'
    | ok g =>
      rw [hdecode] at hf'
      cases hf'
      rw [← heq]
      exact Decoder.wellFormed hdecode
  · intro hwf
    obtain ⟨mk, hdecode, hmk⟩ := decoder.decode_eq f.asPacket.toBytes
    refine ⟨mk f.asPacket.header f.asPacket.extHeader f.asPacket.payload, ?_, hmk ..⟩
    rw [hdecode, hwf.fromWire_toBytes mk]
    rfl

/-- What a step makes of the packet, when it does not lose anything. -/
def Keeps (f : Form) (edit : Edit) : Prop :=
  ∃ f', step f edit = some f' ∧ f'.asPacket = edit.setter?.elim f.asPacket fun setter => setter.apply f.asPacket

theorem keeps_iff (hf : f.asPacket.Cast) (hhas : f.Has edit) : f.Keeps edit ↔ f.Fits edit := by
  cases edit with
  | travel encoder decoder => exact travel_iff hf hhas
  | set setter =>
    refine iff_of_true ?_ (by cases f <;> trivial)
    cases f with
    | packet p => exact ⟨_, rfl, rfl⟩
    | shared p =>
      obtain ⟨q, hq⟩ := Option.isSome_iff_exists.1 hhas
      refine ⟨.shared q, ?_, SharedPacket.fromShared_set? hq⟩
      show (p.set? setter).map _ = _
      rw [hq]
      rfl
  | toShared =>
    refine iff_of_true ?_ (by cases f <;> trivial)
    cases f with
    | packet p => exact ⟨_, rfl, rfl⟩
    | shared p => cases hhas
  | toPacket =>
    refine iff_of_true ?_ (by cases f <;> trivial)
    cases f with
    | packet p => cases hhas
    | shared p => exact ⟨_, rfl, rfl⟩

theorem cast_of_kept {g : Form} (hf : f.asPacket.Cast)
    (h : g.asPacket = edit.setter?.elim f.asPacket fun setter => setter.apply f.asPacket) : g.asPacket.Cast := by
  rw [h]
  cases edit.setter? with
  | none => exact hf
  | some setter => exact hf.apply setter

/-- The setters among the edits make the same packet of a `Packet` in one place, after every edit. -/
def EditedInPlace (f : Form) (edits : List Edit) : Prop := ∀ ms, ms <+: edits →
  ∃ f', StepSystem.run step f ms = some f' ∧ f'.asPacket = (ms.filterMap Edit.setter?).foldl Setter.apply f.asPacket

theorem foldl_cons {p : Packet} (edit : Edit) (edits : List Edit) :
    ((edit :: edits).filterMap Edit.setter?).foldl Setter.apply p =
      (edits.filterMap Edit.setter?).foldl Setter.apply (edit.setter?.elim p fun setter => setter.apply p) := by
  cases h : edit.setter? with
  | none => rw [List.filterMap_cons_none h]; rfl
  | some setter => rw [List.filterMap_cons_some h]; rfl

theorem editedInPlace_cons {g : Form} (hg : step f edit = some g)
    (hkeeps : g.asPacket = edit.setter?.elim f.asPacket fun setter => setter.apply f.asPacket) :
    f.EditedInPlace (edit :: edits) ↔ g.EditedInPlace edits := by
  constructor
  · intro h ms hms
    obtain ⟨f', hr, hf'⟩ := h (edit :: ms) (List.cons_prefix_cons.2 ⟨rfl, hms⟩)
    obtain ⟨t, ht, hr⟩ := StepSystem.run_cons_eq_some.1 hr
    rw [hg] at ht
    cases ht
    refine ⟨f', hr, ?_⟩
    rw [hf', foldl_cons, hkeeps]
  · intro h ms hms
    cases ms with
    | nil => exact ⟨f, rfl, rfl⟩
    | cons e ms =>
      obtain ⟨rfl, hms'⟩ := List.cons_prefix_cons.1 hms
      obtain ⟨f', hr, hf'⟩ := h ms hms'
      refine ⟨f', StepSystem.run_cons_eq_some.2 ⟨g, hg, hr⟩, ?_⟩
      rw [hf', foldl_cons, hkeeps]

theorem EditedInPlace.keeps (h : f.EditedInPlace (edit :: edits)) : f.Keeps edit := by
  obtain ⟨f', hr, hf'⟩ := h [edit] (List.cons_prefix_cons.2 ⟨rfl, List.nil_prefix⟩)
  obtain ⟨t, ht, hr⟩ := StepSystem.run_cons_eq_some.1 hr
  cases hr
  exact ⟨f', ht, hf'.trans (foldl_cons edit [])⟩

theorem editedInPlace_iff (hf : f.asPacket.Cast) (hhas : StepSystem.Meets step Has f edits) :
    f.EditedInPlace edits ↔ StepSystem.Meets step Fits f edits := by
  induction edits generalizing f with
  | nil =>
    refine iff_of_true (fun ms hms => ?_) trivial
    rw [List.prefix_nil.1 hms]
    exact ⟨f, rfl, rfl⟩
  | cons edit edits ih =>
    by_cases hfits : f.Fits edit
    · obtain ⟨g, hg, hkeeps⟩ := (keeps_iff hf hhas.1).2 hfits
      rw [editedInPlace_cons hg hkeeps, StepSystem.meets_cons hg, ih (cast_of_kept hf hkeeps) (hhas.2 g hg)]
      exact (and_iff_right hfits).symm
    · exact iff_of_false (fun h => hfits ((keeps_iff hf hhas.1).1 h.keeps)) fun h => hfits h.1

end Form

/-- The constructors of the two types agree. -/
theorem Start.fromShared_shared (start : Start) : Packet.fromShared start.shared = start.packet := by cases start <;> rfl

theorem Source.cast {source : Source} {f : Form} (h : source.form = some f) : f.asPacket.Cast := by
  cases source with
  | packet start => cases h; exact .of_start start
  | shared start =>
    cases h
    show (Packet.fromShared start.shared).Cast
    rw [start.fromShared_shared]
    exact .of_start start
  | arc packetType messageId payload => cases h; exact .of_start (.oneWay messageId payload)
  | received decoder bytes =>
    change (decoder.decode bytes).toOption = some f at h
    cases hdecode : decoder.decode bytes with
    | error e => rw [hdecode] at h; cases h
    | ok g =>
      rw [hdecode] at h
      cases h
      exact .of_wellFormed (Decoder.wellFormed hdecode)

/-- However the packet came about, and whatever methods it goes through. -/
theorem edited_of_run {source : Source} {f : Form} {edits : List Edit} (hsource : source.form = some f)
    (hhas : StepSystem.Meets Form.step Form.Has f edits) :
    (f.EditedInPlace edits ↔ StepSystem.Meets Form.step Form.Fits f edits) ∧
    (StepSystem.Meets Form.step Form.Fits f edits → ∃ f', StepSystem.run Form.step f edits = some f' ∧
      f.asPacket.SetLast (edits.filterMap Edit.setter?) f'.asPacket) := by
  have hiff := Form.editedInPlace_iff (Source.cast hsource) hhas
  refine ⟨hiff, fun hfits => ?_⟩
  obtain ⟨f', hr, hf'⟩ := hiff.2 hfits edits (List.prefix_refl edits)
  refine ⟨f', hr, ?_⟩
  rw [hf']
  exact f.asPacket.setLast_foldl _

/-- A request with all reserved bits set comes in as a shared packet, is made an owned one, loses its priority, gets a new
payload, and goes out again. -/
theorem edited_of_run_received :
    let source : Source := .received .sharedFromBytesZerocopy [1, 0, 1, 0, 0, 0, 0, 7, 0, 0, 0, 0, 0, 2, 255, 255, 1, 2]
    let edits : List Edit := [.toPacket, .set (.setPriority false), .set (.setPayload [3]), .travel .toBytes .fromBytesZerocopy]
    ∃ f f', source.form = some f ∧ StepSystem.run Form.step f edits = some f' ∧ f'.asPacket.payload = [3] ∧
      f'.asPacket.isHighPriority = false ∧ f'.asPacket.hasRouteTag = true ∧ f'.asPacket.header.reserved.unknown = 0xfff8 := by
  intro source edits
  let f : Form := .shared ⟨{ FixedHeader.new .request 7 with payloadLen := 2, reserved := ⟨0xffff⟩ }, [], [1, 2]⟩
  have hsource : source.form = some f := by decide
  have hfits : StepSystem.Meets Form.step Form.Fits f edits := by
    refine (StepSystem.meets_cons rfl).2 ⟨trivial, (StepSystem.meets_cons rfl).2 ⟨trivial, ?_⟩⟩
    exact (StepSystem.meets_cons rfl).2 ⟨trivial, ⟨by decide, by decide⟩, fun _ _ => trivial⟩
  obtain ⟨f', hr, hlast⟩ := (edited_of_run hsource (by decide)).2 hfits
  exact ⟨f, f', hsource, hr, hlast.payload, hlast.isHighPriority, hlast.hasRouteTag.trans (by decide),
    hlast.unknown.trans (by decide)⟩

end Msgtrans
