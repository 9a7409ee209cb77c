import Msgtrans.Packet
import Mathlib.Tactic.Common

/-!
# The wire format

`fromWire_eq` is the decoder in closed form, `Packet.WellFormed.fromWire_toBytes` and `Whole.toWire` are the two
round trips. Decoding is canonical up to the two enum bytes, which `normalize` rewrites.
-/

namespace Msgtrans

/-! ### Numerals -/

theorem u16FromBeBytes_toBeBytes (x : UInt16) : u16FromBeBytes (u16ToBeBytes x) = x := by
  rw [u16FromBeBytes, u16ToBeBytes, BigEndian.decode_encode, UInt16.ofNat_toNat]

theorem u32FromBeBytes_toBeBytes (x : UInt32) : u32FromBeBytes (u32ToBeBytes x) = x := by
  rw [u32FromBeBytes, u32ToBeBytes, BigEndian.decode_encode, UInt32.ofNat_toNat]

theorem toNat_u16FromBeBytes {bs : Bytes} (h : bs.length = 2) :
    (u16FromBeBytes bs).toNat = BigEndian.decode bs := by
  have : BigEndian.decode bs < 256 ^ bs.length := BigEndian.decode_lt
  rw [h] at this
  exact UInt16.toNat_ofNat_of_lt' this

theorem toNat_u32FromBeBytes {bs : Bytes} (h : bs.length = 4) :
    (u32FromBeBytes bs).toNat = BigEndian.decode bs := by
  have : BigEndian.decode bs < 256 ^ bs.length := BigEndian.decode_lt
  rw [h] at this
  exact UInt32.toNat_ofNat_of_lt' this

theorem u16ToBeBytes_fromBeBytes {bs : Bytes} (h : bs.length = 2) : u16ToBeBytes (u16FromBeBytes bs) = bs := by
  rw [u16ToBeBytes, toNat_u16FromBeBytes h, BigEndian.encode_decode h]

theorem u32ToBeBytes_fromBeBytes {bs : Bytes} (h : bs.length = 4) : u32ToBeBytes (u32FromBeBytes bs) = bs := by
  rw [u32ToBeBytes, toNat_u32FromBeBytes h, BigEndian.encode_decode h]

theorem exists_u16ToBeBytes (x : UInt16) : ∃ a b, u16ToBeBytes x = [a, b] :=
  List.length_eq_two.1 (BigEndian.length_encode x.toNat_lt)

theorem exists_u32ToBeBytes (x : UInt32) : ∃ a b c d, u32ToBeBytes x = [a, b, c, d] := by
  have h : (u32ToBeBytes x).length = 4 := BigEndian.length_encode x.toNat_lt
  match hl : u32ToBeBytes x, h with
  | [a, b, c, d], _ => exact ⟨a, b, c, d, rfl⟩

/-! ### The fixed header -/

namespace FixedHeader

/-- The header that the 16 bytes `bs` spell, whatever the version byte. -/
def read (bs : Bytes) : FixedHeader where
  version := bs[0]!
  compression := .ofU8 bs[1]!
  packetType := .ofU8 bs[2]!
  bizType := bs[3]!
  messageId := u32FromBeBytes [bs[4]!, bs[5]!, bs[6]!, bs[7]!]
  extHeaderLen := u16FromBeBytes [bs[8]!, bs[9]!]
  payloadLen := u32FromBeBytes [bs[10]!, bs[11]!, bs[12]!, bs[13]!]
  reserved := ⟨u16FromBeBytes [bs[14]!, bs[15]!]⟩

theorem fromBytes_eq {bs : Bytes} (h : bs.length = 16) : fromBytes bs =
    if (read bs).version = 1 then .ok (read bs) else .error (.unsupportedVersion (read bs).version) := by
  rw [fromBytes, if_neg (by omega : ¬ bs.length < 16)]
  show (if bs[0]! ≠ 1 then _ else _) = if bs[0]! = 1 then _ else _
  by_cases hv : bs[0]! = 1
  · rw [if_neg (not_not.2 hv), if_pos hv]
    rfl
  · rw [if_pos hv, if_neg hv]
    rfl

theorem length_toBytes (h : FixedHeader) : h.toBytes.length = 16 := by
  obtain ⟨_, _, _, _, hid⟩ := exists_u32ToBeBytes h.messageId
  obtain ⟨_, _, hext⟩ := exists_u16ToBeBytes h.extHeaderLen
  obtain ⟨_, _, _, _, hpay⟩ := exists_u32ToBeBytes h.payloadLen
  obtain ⟨_, _, hres⟩ := exists_u16ToBeBytes h.reserved.raw
  rw [toBytes, hid, hext, hpay, hres]
  rfl

theorem read_toBytes (h : FixedHeader) : read h.toBytes = h := by
  obtain ⟨m0, m1, m2, m3, hid⟩ := exists_u32ToBeBytes h.messageId
  obtain ⟨e0, e1, hext⟩ := exists_u16ToBeBytes h.extHeaderLen
  obtain ⟨n0, n1, n2, n3, hpay⟩ := exists_u32ToBeBytes h.payloadLen
  obtain ⟨r0, r1, hres⟩ := exists_u16ToBeBytes h.reserved.raw
  have hbytes : h.toBytes = [h.version, h.compression.toU8, h.packetType.toU8, h.bizType, m0, m1, m2, m3,
      e0, e1, n0, n1, n2, n3, r0, r1] := by
    rw [toBytes, hid, hext, hpay, hres]
    rfl
  have hc : CompressionType.ofU8 h.compression.toU8 = h.compression := by cases h.compression <;> rfl
  have ht : PacketType.ofU8 h.packetType.toU8 = h.packetType := by cases h.packetType <;> rfl
  rw [hbytes]
  show FixedHeader.mk h.version (.ofU8 h.compression.toU8) (.ofU8 h.packetType.toU8) h.bizType
    (u32FromBeBytes [m0, m1, m2, m3]) (u16FromBeBytes [e0, e1]) (u32FromBeBytes [n0, n1, n2, n3])
    ⟨u16FromBeBytes [r0, r1]⟩ = h
  rw [hc, ht, ← hid, ← hext, ← hpay, ← hres, u32FromBeBytes_toBeBytes, u16FromBeBytes_toBeBytes,
    u32FromBeBytes_toBeBytes, u16FromBeBytes_toBeBytes]

end FixedHeader

def enumByte (x : UInt8) : UInt8 := if x > 2 then 0 else x

theorem CompressionType.toU8_ofU8 (x : UInt8) : (CompressionType.ofU8 x).toU8 = enumByte x := by
  unfold CompressionType.ofU8
  split
  · rfl
  · rfl
  · rfl
  · have : x > 2 := by grind
    rw [enumByte, if_pos this]
    rfl

theorem PacketType.toU8_ofU8 (x : UInt8) : (PacketType.ofU8 x).toU8 = enumByte x := by
  unfold PacketType.ofU8
  split
  · rfl
  · rfl
  · rfl
  · have : x > 2 := by grind
    rw [enumByte, if_pos this]
    rfl

/-- What re-encoding a decoded string does to it. -/
def normalize (b : Bytes) : Bytes := (b.modify 1 enumByte).modify 2 enumByte

/-- The bytes of the extension header, as bytes 8 and 9 announce them. -/
def extLen (b : Bytes) : Nat := BigEndian.decode (slice b 8 10)

/-- The bytes of the payload, as bytes 10 to 13 announce them. -/
def payLen (b : Bytes) : Nat := BigEndian.decode (slice b 10 14)

theorem exists_sixteen {b : Bytes} (h : b.length = 16) :
    ∃ b0 b1 b2 b3 b4 b5 b6 b7 b8 b9 b10 b11 b12 b13 b14 b15, b = [b0, b1, b2, b3, b4, b5, b6, b7, b8, b9, b10, b11, b12, b13, b14, b15] := by
  match b, h with
  | [b0, b1, b2, b3, b4, b5, b6, b7, b8, b9, b10, b11, b12, b13, b14, b15], _ =>
    exact ⟨b0, b1, b2, b3, b4, b5, b6, b7, b8, b9, b10, b11, b12, b13, b14, b15, rfl⟩

theorem exists_header {b : Bytes} (h : 16 ≤ b.length) : ∃ b0 b1 b2 b3 b4 b5 b6 b7 b8 b9 b10 b11 b12 b13 b14 b15 tl,
    b = [b0, b1, b2, b3, b4, b5, b6, b7, b8, b9, b10, b11, b12, b13, b14, b15] ++ tl := by
  obtain ⟨b0, b1, b2, b3, b4, b5, b6, b7, b8, b9, b10, b11, b12, b13, b14, b15, hb⟩ :=
    exists_sixteen (b := b.take 16) (by rw [List.length_take]; omega)
  refine ⟨b0, b1, b2, b3, b4, b5, b6, b7, b8, b9, b10, b11, b12, b13, b14, b15, b.drop 16, ?_⟩
  rw [← hb, List.take_append_drop]

namespace FixedHeader

theorem toBytes_read {b : Bytes} (h : b.length = 16) : (read b).toBytes = normalize b := by
  obtain ⟨b0, b1, b2, b3, b4, b5, b6, b7, b8, b9, b10, b11, b12, b13, b14, b15, rfl⟩ := exists_sixteen h
  show [b0, (CompressionType.ofU8 b1).toU8, (PacketType.ofU8 b2).toU8, b3] ++
    u32ToBeBytes (u32FromBeBytes [b4, b5, b6, b7]) ++ u16ToBeBytes (u16FromBeBytes [b8, b9]) ++
    u32ToBeBytes (u32FromBeBytes [b10, b11, b12, b13]) ++ u16ToBeBytes (u16FromBeBytes [b14, b15]) = _
  rw [CompressionType.toU8_ofU8, PacketType.toU8_ofU8, u32ToBeBytes_fromBeBytes rfl,
    u16ToBeBytes_fromBeBytes rfl, u32ToBeBytes_fromBeBytes rfl, u16ToBeBytes_fromBeBytes rfl]
  rfl

theorem extHeaderLen_read {b : Bytes} (h : 16 ≤ b.length) :
    (read (slice b 0 16)).extHeaderLen.toNat = extLen b := by
  obtain ⟨b0, b1, b2, b3, b4, b5, b6, b7, b8, b9, b10, b11, b12, b13, b14, b15, tl, rfl⟩ := exists_header h
  exact toNat_u16FromBeBytes rfl

theorem payloadLen_read {b : Bytes} (h : 16 ≤ b.length) :
    (read (slice b 0 16)).payloadLen.toNat = payLen b := by
  obtain ⟨b0, b1, b2, b3, b4, b5, b6, b7, b8, b9, b10, b11, b12, b13, b14, b15, tl, rfl⟩ := exists_header h
  exact toNat_u32FromBeBytes rfl

theorem version_read {b : Bytes} (h : 16 ≤ b.length) : (read (slice b 0 16)).version = b[0]! := by
  obtain ⟨b0, b1, b2, b3, b4, b5, b6, b7, b8, b9, b10, b11, b12, b13, b14, b15, tl, rfl⟩ := exists_header h
  rfl

end FixedHeader

theorem length_slice {b : Bytes} {i j : Nat} (hj : j ≤ b.length) : (slice b i j).length = j - i := by
  rw [slice, List.length_drop, List.length_take, Nat.min_eq_left hj]

theorem slice_self (b : Bytes) (i : Nat) : slice b i i = [] :=
  List.drop_eq_nil_of_le (List.length_take_le ..)

/-! ### The decoder in closed form -/

section fromWire

variable {α : Type} {mk : FixedHeader → Bytes → Bytes → α} {b : Bytes}

/-- `b` starts with a whole packet of version 1. -/
structure Whole (b : Bytes) : Prop where
  header : 16 ≤ b.length
  version : b[0]! = 1
  parts : 16 + extLen b + payLen b ≤ b.length

/-- The extension header of the packet `b` starts with. -/
def extPart (b : Bytes) : Bytes := slice b 16 (16 + extLen b)

/-- The payload of the packet `b` starts with. -/
def payPart (b : Bytes) : Bytes := slice b (16 + extLen b) (16 + extLen b + payLen b)

theorem fromWire_short (h : b.length < 16) : fromWire mk b = .error (.invalidPacket "Packet too short") := by
  rw [fromWire, if_pos h]
  rfl

theorem readPart_eq {offset len : Nat} {msg : String} (h : offset ≤ b.length) : readPart b offset len msg =
    if b.length < offset + len then .error (.invalidPacket msg)
    else .ok (slice b offset (offset + len), offset + len) := by
  unfold readPart
  rcases Nat.eq_zero_or_pos len with rfl | hlen
  · rw [if_neg (Nat.lt_irrefl 0), if_neg (by omega), Nat.add_zero, slice_self]
  · rw [if_pos hlen]

/-- With a whole header the decoder checks the version, the extension header, the payload. The guards
`> 0` of the source only skip checks that would pass. -/
theorem fromWire_eq (h : 16 ≤ b.length) : fromWire mk b =
    if b[0]! ≠ 1 then .error (.unsupportedVersion b[0]!)
    else if b.length < 16 + extLen b then .error (.invalidPacket "Extended header incomplete")
    else if b.length < 16 + extLen b + payLen b then .error (.invalidPacket "Payload incomplete")
    else .ok (mk (.read (slice b 0 16)) (extPart b) (payPart b)) := by
  have hlen : (slice b 0 16).length = 16 := length_slice h
  have hext := FixedHeader.extHeaderLen_read h
  have hpay := FixedHeader.payloadLen_read h
  rw [fromWire, if_neg (by omega : ¬ b.length < 16), FixedHeader.fromBytes_eq hlen, FixedHeader.version_read h]
  by_cases hv : b[0]! = 1
  · rw [if_pos hv, if_neg (not_not.2 hv)]
    generalize FixedHeader.read (slice b 0 16) = hd at hext hpay ⊢
    show (readPart b 16 hd.extHeaderLen.toNat _ >>= _ : Except PacketError α) = _
    rw [readPart_eq h, hext]
    split
    · rfl
    · show (readPart b (16 + extLen b) hd.payloadLen.toNat _ >>= _ : Except PacketError α) = _
      rw [readPart_eq (by omega), hpay]
      split <;> rfl
  · rw [if_neg hv, if_pos hv]
    rfl

theorem fromWire_whole (h : Whole b) :
    fromWire mk b = .ok (mk (.read (slice b 0 16)) (extPart b) (payPart b)) := by
  have := h.parts
  rw [fromWire_eq h.header, if_neg (not_not.2 h.version), if_neg (by omega), if_neg (by omega)]

theorem fromWire_not_whole (h : ¬ Whole b) : ∃ e, ∀ {α : Type} (mk : FixedHeader → Bytes → Bytes → α),
    fromWire mk b = .error e := by
  by_cases hlen : b.length < 16
  · exact ⟨_, fun mk => fromWire_short hlen⟩
  have hlen' : 16 ≤ b.length := Nat.le_of_not_lt hlen
  by_cases hv : b[0]! = 1
  · have hparts : ¬ 16 + extLen b + payLen b ≤ b.length := fun hp => h ⟨hlen', hv, hp⟩
    by_cases hext : b.length < 16 + extLen b
    · exact ⟨_, fun mk => by rw [fromWire_eq hlen', if_neg (not_not.2 hv), if_pos hext]⟩
    · exact ⟨_, fun mk => by
        rw [fromWire_eq hlen', if_neg (not_not.2 hv), if_neg hext, if_pos (Nat.lt_of_not_le hparts)]⟩
  · exact ⟨_, fun mk => by rw [fromWire_eq hlen', if_pos hv]⟩

end fromWire

/-! ### Round trips -/

theorem toWire_eq (header : FixedHeader) (extHeader payload : Bytes) :
    toWire header extHeader payload = header.toBytes ++ extHeader ++ payload := by
  cases extHeader <;> simp [toWire]

/-- The length fields are the real lengths and the version is the one the decoders accept. -/
structure Packet.WellFormed (p : Packet) : Prop where
  version : p.header.version = 1
  extHeaderLen : p.header.extHeaderLen.toNat = p.extHeader.length
  payloadLen : p.header.payloadLen.toNat = p.payload.length

namespace Packet

variable {p : Packet}

theorem toBytes_eq (p : Packet) : p.toBytes = p.header.toBytes ++ p.extHeader ++ p.payload :=
  toWire_eq ..

theorem length_toBytes (p : Packet) : p.toBytes.length = 16 + p.extHeader.length + p.payload.length := by
  rw [toBytes_eq, List.length_append, List.length_append, FixedHeader.length_toBytes]

theorem toBytes_ne_nil (p : Packet) : p.toBytes ≠ [] := by
  intro h
  have := length_toBytes p
  rw [h, List.length_nil] at this
  omega

theorem slice_header (p : Packet) (tl : Bytes) : slice (p.toBytes ++ tl) 0 16 = p.header.toBytes := by
  rw [slice, List.drop_zero, toBytes_eq, List.append_assoc, List.append_assoc]
  exact List.take_left' (FixedHeader.length_toBytes _)

theorem WellFormed.lens (h : p.WellFormed) (tl : Bytes) :
    extLen (p.toBytes ++ tl) = p.extHeader.length ∧ payLen (p.toBytes ++ tl) = p.payload.length := by
  have hlen : 16 ≤ (p.toBytes ++ tl).length := by rw [List.length_append, length_toBytes]; omega
  rw [← FixedHeader.extHeaderLen_read hlen, ← FixedHeader.payloadLen_read hlen, slice_header,
    FixedHeader.read_toBytes]
  exact ⟨h.extHeaderLen, h.payloadLen⟩

theorem WellFormed.whole (h : p.WellFormed) (tl : Bytes) : Whole (p.toBytes ++ tl) := by
  obtain ⟨hext, hpay⟩ := h.lens tl
  have hlen := length_toBytes p
  refine ⟨?_, ?_, ?_⟩
  · rw [List.length_append]; omega
  · have hver := FixedHeader.version_read (b := p.toBytes ++ tl) (by rw [List.length_append]; omega)
    rw [← hver, slice_header, FixedHeader.read_toBytes, h.version]
  · rw [hext, hpay, List.length_append]; omega

/-- Decoding an encoding, whatever follows it and into whichever packet type. -/
theorem WellFormed.fromWire_append (h : p.WellFormed) {α : Type} (mk : FixedHeader → Bytes → Bytes → α)
    (tl : Bytes) : fromWire mk (p.toBytes ++ tl) = .ok (mk p.header p.extHeader p.payload) := by
  obtain ⟨hext, hpay⟩ := h.lens tl
  have h1 : extPart (p.toBytes ++ tl) = p.extHeader := by
    rw [extPart, hext, toBytes_eq, List.append_assoc, List.append_assoc, slice,
      ← FixedHeader.length_toBytes p.header, List.take_length_add_append, List.drop_left, List.take_left]
  have h2 : payPart (p.toBytes ++ tl) = p.payload := by
    rw [payPart, hext, hpay, toBytes_eq, slice, ← FixedHeader.length_toBytes p.header,
      ← List.length_append, List.append_assoc, List.take_length_add_append, List.drop_left, List.take_left]
  rw [fromWire_whole (h.whole tl), slice_header, FixedHeader.read_toBytes, h1, h2]

theorem WellFormed.fromWire_toBytes (h : p.WellFormed) {α : Type} (mk : FixedHeader → Bytes → Bytes → α) :
    fromWire mk p.toBytes = .ok (mk p.header p.extHeader p.payload) := by
  have := h.fromWire_append mk []
  rwa [List.append_nil] at this

end Packet

theorem slice_append_slice (b : Bytes) {i j k : Nat} (hij : i ≤ j) (hjk : j ≤ k) :
    slice b i j ++ slice b j k = slice b i k := by
  have hj : b.take j = (b.take k).take j := by rw [List.take_take, Nat.min_eq_left hjk]
  unfold slice
  rw [hj, List.drop_take]
  have hd : (b.take k).drop j = ((b.take k).drop i).drop (j - i) := by
    rw [List.drop_drop, Nat.add_sub_cancel' hij]
  rw [hd, List.take_append_drop]

theorem normalize_append {x y : Bytes} (h : x.length = 16) : normalize (x ++ y) = normalize x ++ y := by
  obtain ⟨b0, b1, b2, b3, b4, b5, b6, b7, b8, b9, b10, b11, b12, b13, b14, b15, rfl⟩ := exists_sixteen h
  rfl

namespace Whole

variable {b : Bytes}

theorem toWire (h : Whole b) : toWire (.read (slice b 0 16)) (extPart b) (payPart b) =
    normalize (b.take (16 + extLen b + payLen b)) := by
  have hlen : (slice b 0 16).length = 16 := length_slice h.header
  have hparts : extPart b ++ payPart b = slice b 16 (16 + extLen b + payLen b) :=
    slice_append_slice b (Nat.le_add_right ..) (Nat.le_add_right ..)
  rw [toWire_eq, FixedHeader.toBytes_read hlen, List.append_assoc, ← normalize_append hlen, hparts,
    slice_append_slice b (Nat.zero_le _) (by omega)]
  rfl

theorem wellFormed (h : Whole b) :
    Packet.WellFormed ⟨.read (slice b 0 16), extPart b, payPart b⟩ := by
  have := h.parts
  refine ⟨?_, ?_, ?_⟩
  · exact (FixedHeader.version_read h.header).trans h.version
  · show (FixedHeader.read (slice b 0 16)).extHeaderLen.toNat = (extPart b).length
    rw [FixedHeader.extHeaderLen_read h.header, extPart, length_slice (by omega), Nat.add_sub_cancel_left]
  · show (FixedHeader.read (slice b 0 16)).payloadLen.toNat = (payPart b).length
    rw [FixedHeader.payloadLen_read h.header, payPart, length_slice (by omega), Nat.add_sub_cancel_left]

end Whole

theorem Packet.length_le_of_fromBytes {b : Bytes} {p : Packet} (h : Packet.fromBytes b = .ok p) :
    p.toBytes.length ≤ b.length := by
  by_cases hw : Whole b
  · have hp : (.ok _ : Except PacketError Packet) = .ok p := (fromWire_whole hw).symm.trans h
    cases hp
    show (Msgtrans.toWire _ _ _).length ≤ b.length
    rw [hw.toWire, normalize, List.length_modify, List.length_modify]
    exact List.length_take_le' ..
  · obtain ⟨e, he⟩ := fromWire_not_whole hw
    have hp := (he Packet.mk).symm.trans h
    cases hp

/-- The wire language, in both directions and for all three decoders and encoders: exactly the strings
that start with a whole version-1 packet are accepted, and re-encoding gives that packet's bytes with
the unknown enum values replaced. -/
theorem wire_language (b : Bytes) :
    (Whole b ∧ ∃ header again,
      Packet.fromBytes b = .ok ⟨header, extPart b, payPart b⟩ ∧
      Packet.fromBytesZerocopy b = .ok ⟨header, extPart b, payPart b⟩ ∧
      SharedPacket.fromBytesZerocopy b = .ok ⟨header, extPart b, payPart b⟩ ∧
      again = normalize (b.take (16 + extLen b + payLen b)) ∧
      Packet.toBytes ⟨header, extPart b, payPart b⟩ = again ∧
      Packet.toBytesZerocopy ⟨header, extPart b, payPart b⟩ = again ∧
      SharedPacket.toBytesZerocopy ⟨header, extPart b, payPart b⟩ = again ∧
      Packet.fromBytes again = .ok ⟨header, extPart b, payPart b⟩ ∧
      Packet.fromBytesZerocopy again = .ok ⟨header, extPart b, payPart b⟩ ∧
      SharedPacket.fromBytesZerocopy again = .ok ⟨header, extPart b, payPart b⟩) ∨
    (¬ Whole b ∧ ∃ e, Packet.fromBytes b = .error e ∧ Packet.fromBytesZerocopy b = .error e ∧
      SharedPacket.fromBytesZerocopy b = .error e) := by
  by_cases h : Whole b
  · refine .inl ⟨h, .read (slice b 0 16), _, fromWire_whole h, fromWire_whole h, fromWire_whole h, rfl,
      h.toWire, h.toWire, h.toWire, ?_⟩
    have hagain : ∀ {α : Type} (mk : FixedHeader → Bytes → Bytes → α),
        fromWire mk (normalize (b.take (16 + extLen b + payLen b))) =
          .ok (mk (.read (slice b 0 16)) (extPart b) (payPart b)) := by
      intro α mk
      rw [← h.toWire]
      exact h.wellFormed.fromWire_toBytes mk
    exact ⟨hagain _, hagain _, hagain _⟩
  · obtain ⟨e, he⟩ := fromWire_not_whole h
    exact .inr ⟨h, e, he _, he _, he _⟩

end Msgtrans
