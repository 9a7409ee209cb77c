import Msgtrans.Lib.MachineWord
import Msgtrans.PacketWire

/-!
# The decoders on machine words (`packet.rs`)

The three decoders again, this time with `usize` as the target has it: the sum of an offset and a length may
overflow, which panics or wraps around depending on the build, and a slice out of bounds panics. The bound test comes
after the sum. On 64 bits no sum overflows. On 32 bits `16 + ext_header_len + payload_len` does for the largest payload
lengths, and then the decoders never return, in either build: `fromWire_eq_ite`.
-/

namespace Msgtrans

namespace DecodeOverflow

inductive Width where
  | w32
  | w64
deriving DecidableEq, Repr

def Width.bits : Width → Nat
  | .w32 => 32
  | .w64 => 64

/-- What a build decides: the width of `usize` and whether sums are checked. -/
structure Target where
  usize : Width
  overflowChecks : Bool
deriving DecidableEq, Repr

def Target.words (t : Target) : WordArith := ⟨t.usize.bits, t.overflowChecks⟩

variable {α : Type} {t : Target} {mk : FixedHeader → Bytes → Bytes → α} {b : Bytes}

def readPart (t : Target) (bytes : Bytes) (offset len : Nat) (incomplete : String) :
    Option (Except PacketError (Bytes × Nat)) := do
  if len > 0 then
    let stop ← t.words.add offset len
    if bytes.length < stop then
      return .error (.invalidPacket incomplete)
    let part ← range? bytes offset stop
    return .ok (part, stop)
  return .ok ([], offset)

/-- The body of the three decoders. `FixedHeader::from_bytes` adds nothing, and its indices are below 16. -/
def fromWire (t : Target) (mk : FixedHeader → Bytes → Bytes → α) (bytes : Bytes) :
    Option (Except PacketError α) := ExceptT.run do
  if bytes.length < 16 then
    throw (.invalidPacket "Packet too short")
  let first ← ExceptT.lift (range? bytes 0 16)
  let header ← ExceptT.mk (some (FixedHeader.fromBytes first))
  let (extHeader, offset) ←
    ExceptT.mk (readPart t bytes 16 header.extHeaderLen.toNat "Extended header incomplete")
  let (payload, _) ← ExceptT.mk (readPart t bytes offset header.payloadLen.toNat "Payload incomplete")
  return mk header extHeader payload

/-- `Packet::from_bytes`. -/
def fromBytes (t : Target) (bytes : Bytes) : Option (Except PacketError Packet) := fromWire t Packet.mk bytes

/-- `Packet::from_bytes_zerocopy`. -/
def fromBytesZerocopy (t : Target) (bytes : Bytes) : Option (Except PacketError Packet) := fromWire t Packet.mk bytes

/-- `SharedPacket::from_bytes_zerocopy`. -/
def sharedFromBytesZerocopy (t : Target) (bytes : Bytes) : Option (Except PacketError SharedPacket) :=
  fromWire t SharedPacket.mk bytes

/-- The peer announces a payload whose end has no `usize`. -/
def Overflows (t : Target) (b : Bytes) : Prop :=
  16 ≤ b.length ∧ b[0]! = 1 ∧ 16 + extLen b ≤ b.length ∧ 2 ^ t.usize.bits ≤ 16 + extLen b + payLen b

instance : Decidable (Overflows t b) := by
  unfold Overflows
  infer_instance

theorem two_pow_le_bits (t : Target) : 2 ^ 32 ≤ 2 ^ t.usize.bits := by
  cases t.usize <;> decide

theorem extLen_lt (h : 16 ≤ b.length) : extLen b < 2 ^ 16 := by
  rw [← FixedHeader.extHeaderLen_read h]
  exact UInt16.toNat_lt _

theorem payLen_lt (h : 16 ≤ b.length) : payLen b < 2 ^ 32 := by
  rw [← FixedHeader.payloadLen_read h]
  exact UInt32.toNat_lt _

theorem not_overflows_w64 (ht : t.usize = .w64) : ¬ Overflows t b := by
  rintro ⟨hlen, -, -, hle⟩
  have := extLen_lt hlen
  have := payLen_lt hlen
  rw [ht, Width.bits] at hle
  omega

/-- A section is read as on unbounded words, or the end of it has no word. When the sum wraps, its end lies before
its start: the bound test passes and the slice is out of bounds. -/
theorem readPart_eq {offset len : Nat} {msg : String} (hoff : offset ≤ b.length)
    (hoff' : offset < 2 ^ t.usize.bits) (hlen : len < 2 ^ t.usize.bits) :
    readPart t b offset len msg =
      if 2 ^ t.usize.bits ≤ offset + len then none else some (Msgtrans.readPart b offset len msg) := by
  unfold readPart Msgtrans.readPart
  by_cases hpos : len > 0
  · rw [if_pos hpos, if_pos hpos]
    split
    · next hle =>
      cases hs : t.words.add offset len with
      | none => rfl
      | some stop =>
        have hlt : stop < offset := WordArith.lt_of_add_overflow hlen hle hs hoff'
        show (if b.length < stop then _ else _) = none
        rw [if_neg (by omega), range?_of_lt hlt]
        rfl
    · next hlt =>
      rw [WordArith.add_of_lt (Nat.lt_of_not_le hlt)]
      show (if b.length < offset + len then _ else _) = _
      split
      · next hshort => rw [if_pos hshort]; rfl
      · next hshort =>
        rw [if_neg hshort, range?_of_le (Nat.le_add_right ..) (Nat.le_of_not_lt hshort)]
        rfl
  · rw [if_neg hpos, if_neg hpos, if_neg (by omega)]
    rfl

/-- The decoders return what they return on unbounded words, or they do not return. -/
theorem fromWire_eq_ite (t : Target) (mk : FixedHeader → Bytes → Bytes → α) (b : Bytes) :
    fromWire t mk b = if Overflows t b then none else some (Msgtrans.fromWire mk b) := by
  by_cases hshort : b.length < 16
  · have hno : ¬ Overflows t b := fun h => Nat.not_le_of_lt hshort h.1
    rw [if_neg hno, fromWire, fromWire_short hshort, if_pos hshort]
    rfl
  have h16 : 16 ≤ b.length := Nat.le_of_not_lt hshort
  have h32 := two_pow_le_bits t
  have hext := extLen_lt h16
  have hpay := payLen_lt h16
  have hlen : (slice b 0 16).length = 16 := length_slice h16
  have hextHd := FixedHeader.extHeaderLen_read h16
  have hpayHd := FixedHeader.payloadLen_read h16
  rw [fromWire_eq h16, fromWire, if_neg hshort, range?_of_le (Nat.zero_le _) h16]
  show ExceptT.run (ExceptT.mk (some (FixedHeader.fromBytes (slice b 0 16))) >>= _) = _
  rw [FixedHeader.fromBytes_eq hlen, FixedHeader.version_read h16]
  by_cases hv : b[0]! = 1
  · rw [if_pos hv, if_neg (not_not.2 hv)]
    generalize FixedHeader.read (slice b 0 16) = hd at hextHd hpayHd ⊢
    show ExceptT.run (ExceptT.mk (readPart t b 16 hd.extHeaderLen.toNat _) >>= _) = _
    rw [readPart_eq h16 (by omega) (by omega), hextHd, if_neg (by omega), Msgtrans.readPart_eq h16]
    by_cases hext' : b.length < 16 + extLen b
    · have hno : ¬ Overflows t b := fun h => Nat.not_le_of_lt hext' h.2.2.1
      rw [if_pos hext', if_pos hext', if_neg hno]
      rfl
    · rw [if_neg hext', if_neg hext']
      show ExceptT.run (ExceptT.mk (readPart t b (16 + extLen b) hd.payloadLen.toNat _) >>= _) = _
      rw [readPart_eq (by omega) (by omega) (by omega), hpayHd, Msgtrans.readPart_eq (by omega)]
      by_cases hover : 2 ^ t.usize.bits ≤ 16 + extLen b + payLen b
      · rw [if_pos hover, if_pos ⟨h16, hv, by omega, hover⟩]
        rfl
      · have hno : ¬ Overflows t b := fun h => hover h.2.2.2
        rw [if_neg hover, if_neg hno]
        split <;> rfl
  · have hno : ¬ Overflows t b := fun h => hv h.2.1
    rw [if_neg hv, if_pos hv, if_neg hno]
    rfl

theorem fromWire_isSome_iff (t : Target) (mk : FixedHeader → Bytes → Bytes → α) (b : Bytes) :
    (fromWire t mk b).isSome ↔ ¬ Overflows t b := by
  rw [fromWire_eq_ite]
  split
  · next h => exact ⟨nofun, fun hno => absurd h hno⟩
  · next h => exact ⟨fun _ => h, fun _ => rfl⟩

/-- On every target and for every string: the decoders return, and return what they do on unbounded words, unless the
end of the announced payload overflows. -/
theorem return_iff_not_overflows (t : Target) (b : Bytes) :
    ((fromBytes t b).isSome ↔ ¬ Overflows t b) ∧
      ((fromBytesZerocopy t b).isSome ↔ ¬ Overflows t b) ∧
      ((sharedFromBytesZerocopy t b).isSome ↔ ¬ Overflows t b) ∧
      (¬ Overflows t b → fromBytes t b = some (Packet.fromBytes b) ∧
        fromBytesZerocopy t b = some (Packet.fromBytesZerocopy b) ∧
        sharedFromBytesZerocopy t b = some (SharedPacket.fromBytesZerocopy b)) ∧
      (t.usize = .w64 → ¬ Overflows t b) := by
  refine ⟨fromWire_isSome_iff .., fromWire_isSome_iff .., fromWire_isSome_iff .., ?_, not_overflows_w64⟩
  intro hno
  have hret : ∀ {α : Type} (mk : FixedHeader → Bytes → Bytes → α),
      fromWire t mk b = some (Msgtrans.fromWire mk b) := by
    intro α mk
    rw [fromWire_eq_ite, if_neg hno]
  exact ⟨hret _, hret _, hret _⟩

/-- Sixteen bytes that announce a payload of 2^32 - 1: no 32-bit build decodes them. -/
theorem largest_payload_panics :
    let b : Bytes := [1, 0, 0, 0, 0, 0, 0, 1, 0, 0, 255, 255, 255, 255, 0, 0]
    ∀ overflowChecks, fromBytes ⟨.w32, overflowChecks⟩ b = none ∧
      fromBytesZerocopy ⟨.w32, overflowChecks⟩ b = none ∧
      sharedFromBytesZerocopy ⟨.w32, overflowChecks⟩ b = none := by
  intro b overflowChecks
  have hover : Overflows ⟨.w32, overflowChecks⟩ b := by
    cases overflowChecks <;> decide
  have hnone : ∀ {α : Type} (mk : FixedHeader → Bytes → Bytes → α),
      fromWire ⟨.w32, overflowChecks⟩ mk b = none := by
    intro α mk
    rw [fromWire_eq_ite, if_pos hover]
  exact ⟨hnone _, hnone _, hnone _⟩

end DecodeOverflow

end Msgtrans
