import Msgtrans.Delivery
import Msgtrans.PacketBuild

/-!
# What a packet sent with options says of itself

`send_with_options` and `request_with_options` fill in the header first and compress afterwards; when the compressor
fails the payload stays raw and the header keeps its name. The length fields are casts. `truthful_iff` says when
compression field and both lengths are right.
-/

namespace Msgtrans

theorem toNat_ofNat_eq_iff_16 {n : ℕ} : (UInt16.ofNat n).toNat = n ↔ n < 2 ^ 16 := by
  rw [UInt16.toNat_ofNat']
  exact Nat.mod_eq_iff_lt (by decide)

theorem toNat_ofNat_eq_iff_32 {n : ℕ} : (UInt32.ofNat n).toNat = n ↔ n < 2 ^ 32 := by
  rw [UInt32.toNat_ofNat']
  exact Nat.mod_eq_iff_lt (by decide)

namespace Delivery

variable {lib : CompressionLib} {data : Bytes} {options : TransportOptions} {packetType : PacketType} {messageId : UInt32}

/-- Every packet of a call: the header names the compressor asked for, and the payload is its output, or the data when
there is none. -/
structure FromOptions (lib : CompressionLib) (data : Bytes) (options : TransportOptions) (p : Packet) : Prop where
  compression : p.header.compression = options.compression.getD .none
  payload : Packet.compressData lib data p.header.compression = .ok p.payload ∨
    p.header.compression ≠ .none ∧ (∃ e, Packet.compressData lib data p.header.compression = .error e) ∧ p.payload = data
  payloadLen : p.header.payloadLen = .ofNat p.payload.length
  extHeader : p.extHeader = options.extHeader.getD []
  extHeaderLen : p.header.extHeaderLen = .ofNat p.extHeader.length

theorem fromOptions_compressPayload {p : Packet} (hc : p.header.compression = options.compression.getD .none)
    (hne : p.header.compression ≠ .none) (hpay : p.payload = data) (hlen : p.header.payloadLen = .ofNat p.payload.length)
    (hext : p.extHeader = options.extHeader.getD []) (hextLen : p.header.extHeaderLen = .ofNat p.extHeader.length) :
    FromOptions lib data options (p.compressPayload lib).2 := by
  subst hpay
  unfold Packet.compressPayload Packet.recode
  rw [if_neg hne]
  cases hd : Packet.compressData lib p.payload p.header.compression with
  | error e => exact ⟨hc, .inr ⟨hne, ⟨e, hd⟩, rfl⟩, hlen, hext, hextLen⟩
  | ok out => exact ⟨hc, .inl hd, rfl, hext, hextLen⟩

theorem fromOptions_optionsPacket :
    FromOptions lib data options (Transport.optionsPacket lib packetType messageId data options) := by
  have hext : (options.extHeader.elim 0 fun h => UInt16.ofNat h.length) = .ofNat (options.extHeader.getD []).length := by
    cases options.extHeader <;> rfl
  unfold Transport.optionsPacket
  simp only
  split
  · next hask =>
    refine fromOptions_compressPayload rfl ?_ rfl rfl rfl hext
    obtain ⟨c, hc⟩ := Option.isSome_iff_exists.1 hask.1
    show options.compression.getD .none ≠ .none
    rw [hc, Option.getD_some]
    rintro rfl
    exact hask.2 hc
  · next hask =>
    have hnone : options.compression.getD .none = .none := by
      cases hc : options.compression with
      | none => rfl
      | some c =>
        by_contra hne
        refine hask ⟨by rw [hc]; rfl, fun h => hne ?_⟩
        rw [← hc, h]
        rfl
    exact ⟨rfl, .inl (by rw [hnone]; rfl), rfl, rfl, hext⟩

/-- Raw data under no compressor's name or the named one's output, and lengths that are the real ones. -/
structure Truthful (lib : CompressionLib) (data : Bytes) (p : Packet) : Prop where
  payload : p.header.compression = .none ∧ p.payload = data ∨
    ∃ c, p.header.compression = c ∧ Packet.compressData lib data c = .ok p.payload
  lengths : p.LengthsReal

theorem FromOptions.truthful {p : Packet} (h : FromOptions lib data options p) : Truthful lib data p ↔
    ∃ out, Packet.compressData lib data (options.compression.getD .none) = .ok out ∧ out.length < 2 ^ 32 ∧
      (options.extHeader.getD []).length < 2 ^ 16 := by
  have hlengths : p.LengthsReal ↔ p.payload.length < 2 ^ 32 ∧ (options.extHeader.getD []).length < 2 ^ 16 := by
    rw [Packet.LengthsReal, h.extHeaderLen, h.payloadLen, toNat_ofNat_eq_iff_16, toNat_ofNat_eq_iff_32, h.extHeader,
      and_comm]
  rw [← h.compression]
  constructor
  · rintro ⟨hpay, hreal⟩
    have hout : Packet.compressData lib data p.header.compression = .ok p.payload := by
      rcases hpay with ⟨hc, hd⟩ | ⟨c, rfl, hout⟩
      · rw [hc, hd]
        rfl
      · exact hout
    exact ⟨p.payload, hout, hlengths.1 hreal⟩
  · rintro ⟨out, hout, hlen⟩
    rcases h.payload with hok | ⟨-, ⟨e, he⟩, -⟩
    · rw [hok] at hout
      cases hout
      exact ⟨.inr ⟨_, rfl, hok⟩, hlengths.2 hlen⟩
    · rw [he] at hout
      cases hout

theorem fromOptions_call (lib : CompressionLib) (call : Call) (nextId : UInt32) (data : Bytes) (options : TransportOptions) :
    FromOptions lib data options (call.packet lib nextId data options) := by
  cases call <;> exact fromOptions_optionsPacket

/-- A packet is truthful exactly when the compressor asked for succeeds and both parts fit their length fields. -/
theorem truthful_iff (lib : CompressionLib) (call : Call) (nextId : UInt32) (data : Bytes) (options : TransportOptions) :
    Truthful lib data (call.packet lib nextId data options) ↔
      ∃ out, Packet.compressData lib data (options.compression.getD .none) = .ok out ∧ out.length < 2 ^ 32 ∧
        (options.extHeader.getD []).length < 2 ^ 16 :=
  (fromOptions_call lib call nextId data options).truthful

/-- In a build without compressors `hi` goes out as it is, marked as zlib; and an extension header of 2^16 bytes is
announced as empty. -/
theorem raw_data_marked :
    ¬ Truthful ⟨none, none⟩ [0x68, 0x69] (Call.sendWithOptions.packet ⟨none, none⟩ 1 [0x68, 0x69] ⟨some .zlib, none, none, none⟩) ∧
      ¬ Truthful ⟨none, none⟩ [0x68, 0x69] (Call.sendWithOptions.packet ⟨none, none⟩ 1 [0x68, 0x69]
        ⟨none, none, some (List.replicate (2 ^ 16) 0), none⟩) := by
  constructor
  · intro h
    obtain ⟨out, hout, -⟩ := (fromOptions_call ..).truthful.1 h
    cases hout
  · intro h
    obtain ⟨out, -, -, hext⟩ := (fromOptions_call ..).truthful.1 h
    rw [Option.getD_some, List.length_replicate] at hext
    omega

end Delivery

end Msgtrans
