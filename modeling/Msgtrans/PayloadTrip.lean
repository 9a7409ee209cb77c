import Msgtrans.Compression
import Msgtrans.PacketBuild

/-!
# Compressed payloads over the wire

`compress_payload`, `to_bytes`, `from_bytes`, `decompress_payload`, one after the other. The compressor takes any
payload, but zstd is given room for 1 MiB when it decompresses; and a part that does not fit its length field is
read back cut elsewhere. `payloadLaw_iff` says when the payload comes back.
-/

namespace Msgtrans

/-- Both features are on; what is compressed decompresses to itself, in zstd as far as there is room for it. -/
structure CompressionLib.Documented (lib : CompressionLib) : Prop where
  flate2 : ∃ zlib, lib.flate2 = some zlib ∧ ∀ data out, zlib.encode data = .ok out → zlib.decode out = .ok data
  zstd : ∃ zstd, lib.zstd = some zstd ∧ ∀ data level out capacity, zstd.compress data level = .ok out →
    (data.length ≤ capacity → zstd.decompress out capacity = .ok data) ∧
    (capacity < data.length → ∃ e, zstd.decompress out capacity = .error e)

namespace Packet

variable {lib : CompressionLib} {f : Bytes → CompressionType → Except PacketError Bytes} {p p' : Packet}
  {c : CompressionType} {data out ext pay wire : Bytes}

theorem decompressData_iff (h : lib.Documented) (hc : compressData lib data c = .ok out) :
    decompressData lib out c = .ok data ↔ (c = .zstd → data.length ≤ 1024 * 1024) := by
  cases c with
  | none =>
    cases hc
    exact iff_of_true rfl fun hz => by cases hz
  | zlib =>
    obtain ⟨zlib, hlib, hpair⟩ := h.flate2
    refine iff_of_true ?_ fun hz => by cases hz
    simp only [compressData, decompressData, hlib] at hc ⊢
    cases he : zlib.encode data with
    | error e => rw [he] at hc; cases hc
    | ok out' =>
      rw [he] at hc
      cases hc
      rw [hpair data out he]
      rfl
  | zstd =>
    obtain ⟨zstd, hlib, hpair⟩ := h.zstd
    simp only [compressData, decompressData, hlib, forall_const] at hc ⊢
    cases he : zstd.compress data 3 with
    | error e => rw [he] at hc; cases hc
    | ok out' =>
      rw [he] at hc
      cases hc
      obtain ⟨hroom, hfull⟩ := hpair data 3 out (1024 * 1024) he
      constructor
      · intro hd
        by_contra hlen
        obtain ⟨e, hd'⟩ := hfull (Nat.lt_of_not_le hlen)
        rw [hd'] at hd
        cases hd
      · intro hlen
        rw [hroom hlen]
        rfl

/-! ### One packet -/

/-- What succeeds has set the payload to what `f` makes of it. -/
theorem recode_ok_iff (hf : ∀ data, f data .none = .ok data) (hlen : p.header.payloadLen = .ofNat p.payload.length) :
    p.recode f = (.ok (), p') ↔ ∃ out, f p.payload p.header.compression = .ok out ∧ p' = p.setPayload out := by
  unfold recode
  by_cases hc : p.header.compression = .none
  · have hsame : p.setPayload p.payload = p := by rw [setPayload, ← hlen]
    rw [if_pos hc, hc, hf]
    constructor
    · rintro ⟨⟩
      exact ⟨p.payload, rfl, hsame.symm⟩
    · rintro ⟨out, hout, rfl⟩
      cases hout
      rw [hsame]
  · rw [if_neg hc]
    cases hd : f p.payload p.header.compression with
    | error e => simp
    | ok out => simp [eq_comm]

theorem eq_of_recode_error {e : PacketError} (h : (p.recode f).1 = .error e) : (p.recode f).2 = p := by
  rcases recode_cases (f := f) (p := p) with ⟨hsame, -⟩ | ⟨out, hc, hf, -⟩
  · exact hsame
  · rw [recode, if_neg hc, hf] at h
    cases h

/-- The bytes `from_bytes` takes for the payload, where the lengths are announced modulo 2^16 and 2^32. -/
def readPayload (ext wire : Bytes) : Bytes := ((ext ++ wire).drop (ext.length % 2 ^ 16)).take (wire.length % 2 ^ 32)

theorem readPayload_of_lt (hext : ext.length < 2 ^ 16) (hwire : wire.length < 2 ^ 32) : readPayload ext wire = wire := by
  rw [readPayload, Nat.mod_eq_of_lt hext, Nat.mod_eq_of_lt hwire, List.drop_left, List.take_length]

/-- A packet of the API is read back with its own header, whatever its parts are cut to. -/
theorem Built.fromBytes_toBytes (h : p.Built ext pay) :
    ∃ ext', Packet.fromBytes p.toBytes = .ok ⟨p.header, ext', readPayload ext pay⟩ := by
  have hlen := length_toBytes p
  have h16 : 16 ≤ p.toBytes.length := by omega
  have hheader : slice p.toBytes 0 16 = p.header.toBytes := by
    have := slice_header p []
    rwa [List.append_nil] at this
  have hext : extLen p.toBytes = ext.length % 2 ^ 16 := by
    rw [← FixedHeader.extHeaderLen_read h16, hheader, FixedHeader.read_toBytes, h.extHeaderLen, UInt16.toNat_ofNat']
  have hpay : payLen p.toBytes = pay.length % 2 ^ 32 := by
    rw [← FixedHeader.payloadLen_read h16, hheader, FixedHeader.read_toBytes, h.payloadLen, UInt32.toNat_ofNat']
  have hversion : p.toBytes[0]! = 1 := by
    rw [← FixedHeader.version_read h16, hheader, FixedHeader.read_toBytes, h.version]
  have hle := Nat.mod_le ext.length (2 ^ 16)
  have hle' := Nat.mod_le pay.length (2 ^ 32)
  rw [h.extHeader, h.payload] at hlen
  have hwhole : Whole p.toBytes := ⟨h16, hversion, by omega⟩
  have hpart : payPart p.toBytes = readPayload ext pay := by
    rw [payPart, hext, hpay, slice, readPayload, toBytes_eq, h.extHeader, h.payload, List.append_assoc, Nat.add_assoc,
      ← FixedHeader.length_toBytes p.header, List.take_length_add_append, List.drop_length_add_append, List.drop_take,
      Nat.add_sub_cancel_left]
  refine ⟨extPart p.toBytes, ?_⟩
  rw [Packet.fromBytes, fromWire_whole hwhole, hheader, FixedHeader.read_toBytes, hpart]

/-! ### The law -/

/-- Where compressing succeeds, the packet that is received can be decompressed, to the payload and length of before. -/
def Restored (lib : CompressionLib) (p : Packet) : Prop :=
  ∀ p₁, p.compressPayload lib = (.ok (), p₁) → ∃ q q', Packet.fromBytes p₁.toBytes = .ok q ∧
    q.decompressPayload lib = (.ok (), q') ∧ q'.payload = p.payload ∧ q'.header.payloadLen = p.header.payloadLen

/-- `p` comes back, and a call that fails leaves its packet alone. -/
structure PayloadLaw (lib : CompressionLib) (p : Packet) : Prop where
  restored : Restored lib p
  compress : ∀ q e, (compressPayload lib q).1 = .error e → (q.compressPayload lib).2 = q
  decompress : ∀ q e, (decompressPayload lib q).1 = .error e → (q.decompressPayload lib).2 = q

/-- With parts that fit their length fields zstd is to decompress no more than 1 MiB; with others, what is then read
for the payload happens to decompress to it. -/
def Restorable (lib : CompressionLib) (ext data : Bytes) (c : CompressionType) : Prop :=
  ∀ wire, compressData lib data c = .ok wire →
    if ext.length < 2 ^ 16 ∧ wire.length < 2 ^ 32 then c = .zstd → data.length ≤ 1024 * 1024
    else decompressData lib (readPayload ext wire) c = .ok data

theorem Built.restored_iff (h : p.Built ext data) (hc : p.header.compression = c) : Restored lib p ↔
    ∀ wire, compressData lib data c = .ok wire → decompressData lib (readPayload ext wire) c = .ok data := by
  have hlen : p.header.payloadLen = .ofNat p.payload.length := by rw [h.payloadLen, h.payload]
  have hread (wire : Bytes) : ∃ ext', Packet.fromBytes (p.setPayload wire).toBytes =
      .ok ⟨(p.setPayload wire).header, ext', readPayload ext wire⟩ :=
    Built.fromBytes_toBytes ⟨h.version, h.extHeader, rfl, h.extHeaderLen, rfl⟩
  have hreadLen (wire : Bytes) : UInt32.ofNat (readPayload ext wire).length = .ofNat wire.length := by
    have hle := Nat.mod_le wire.length (2 ^ 32)
    have hle' := Nat.mod_le ext.length (2 ^ 16)
    rw [readPayload, List.length_take, List.length_drop, List.length_append, Nat.min_eq_left (by omega)]
    exact UInt32.toNat.inj (by simp)
  constructor
  · intro hr wire hw
    obtain ⟨q, q', hq, hq', hpay, -⟩ := hr _ ((recode_ok_iff (fun _ => rfl) hlen).2 ⟨wire, by rw [h.payload, hc, hw], rfl⟩)
    obtain ⟨ext', hext'⟩ := hread wire
    rw [hext'] at hq
    cases hq
    obtain ⟨out, hout, rfl⟩ := (recode_ok_iff (fun _ => rfl) (hreadLen wire).symm).1 hq'
    rw [← h.payload, ← hpay, ← hc]
    exact hout
  · intro hr p₁ hp₁
    obtain ⟨wire, hw, rfl⟩ := (recode_ok_iff (fun _ => rfl) hlen).1 hp₁
    rw [h.payload, hc] at hw
    obtain ⟨ext', hext'⟩ := hread wire
    have hd := hr wire hw
    rw [← hc] at hd
    refine ⟨_, _, hext', (recode_ok_iff (fun _ => rfl) (hreadLen wire).symm).2 ⟨data, hd, rfl⟩, h.payload.symm, ?_⟩
    exact h.payloadLen.symm

theorem payloadLaw_iff (h : lib.Documented) (start : Start) (setters : List Setter) (c : CompressionType) :
    PayloadLaw lib ((build start setters).setCompression c) ↔
      Restorable lib (lastExtHeader setters) (lastPayload start setters) c := by
  have hbuilt : Built (lastExtHeader setters) (lastPayload start setters) ((build start setters).setCompression c) :=
    (Built.build start setters).apply (.setCompression c)
  have hiff : Restored lib ((build start setters).setCompression c) ↔ ∀ wire,
      compressData lib (lastPayload start setters) c = .ok wire →
        decompressData lib (readPayload (lastExtHeader setters) wire) c = .ok (lastPayload start setters) :=
    hbuilt.restored_iff rfl
  constructor
  · intro hlaw wire hw
    have hd := hiff.1 hlaw.restored wire hw
    split
    · next hfit =>
      rw [readPayload_of_lt hfit.1 hfit.2] at hd
      exact (decompressData_iff h hw).1 hd
    · exact hd
  · intro hr
    refine ⟨hiff.2 fun wire hw => ?_, fun _ _ => eq_of_recode_error, fun _ _ => eq_of_recode_error⟩
    have hd := hr wire hw
    split at hd
    · next hfit =>
      rw [readPayload_of_lt hfit.1 hfit.2]
      exact (decompressData_iff h hw).2 hd
    · exact hd

end Packet

/-! ### Two payloads the libraries were run on -/

/-- `flate2` where only `data` is known, to give `out`. -/
def ZlibLib.only (data out : Bytes) : ZlibLib where
  encode x := if x = data then .ok out else .error "unknown data"
  decode x := if x = out then .ok data else .error "corrupt deflate stream"

/-- `zstd::bulk` where only `data` is known, to give `out`. -/
def ZstdLib.only (data out : Bytes) : ZstdLib where
  compress x _ := if x = data then .ok out else .error "unknown data"
  decompress x capacity :=
    if x = out then
      if data.length ≤ capacity then .ok data else .error "Destination buffer is too small"
    else .error "Unknown frame descriptor"

theorem documented_only (data out data' out' : Bytes) :
    CompressionLib.Documented ⟨some (.only data out), some (.only data' out')⟩ := by
  constructor
  · refine ⟨_, rfl, fun x y hx => ?_⟩
    simp only [ZlibLib.only] at hx ⊢
    split at hx
    · next hd =>
      cases hx
      rw [if_pos rfl, hd]
    · cases hx
  · refine ⟨_, rfl, fun x level y capacity hx => ?_⟩
    simp only [ZstdLib.only] at hx ⊢
    split at hx
    · next hd =>
      cases hx
      subst hd
      rw [if_pos rfl]
      exact ⟨fun hle => if_pos hle, fun hlt => ⟨_, if_neg (Nat.not_le_of_lt hlt)⟩⟩
    · cases hx

namespace Packet

/-- One byte more than 1 MiB. -/
def zeros : Bytes := List.replicate (1024 * 1024 + 1) 0

/-- What zstd makes of `zeros` at level 3. -/
def zerosFrame : Bytes := [0x28, 0xb5, 0x2f, 0xfd, 0xa0, 0x01, 0x00, 0x10, 0x00, 0x54, 0x00, 0x00, 0x10, 0x00, 0x00, 0x01,
  0x00, 0xfb, 0xff, 0x39, 0xc0, 0x02, 0x02, 0x00, 0x10, 0x00, 0x02, 0x00, 0x10, 0x00, 0x02, 0x00, 0x10, 0x00, 0x02, 0x00,
  0x10, 0x00, 0x02, 0x00, 0x10, 0x00, 0x02, 0x00, 0x10, 0x00, 0x02, 0x00, 0x10, 0x00, 0x09, 0x00, 0x00, 0x00]

/-- zlib on `hi`, zstd on `zeros`. -/
def hiAndZeros : CompressionLib where
  flate2 := some (.only [0x68, 0x69] [0x78, 0x9c, 0xcb, 0xc8, 0x04, 0x00, 0x01, 0x3b, 0x00, 0xd2])
  zstd := some (.only zeros zerosFrame)

theorem payloadLaw_iff_hi :
    PayloadLaw hiAndZeros ((build (.oneWay 1 [0x68, 0x69]) []).setCompression .zlib) ↔
      Restorable hiAndZeros (lastExtHeader []) (lastPayload (.oneWay 1 [0x68, 0x69]) []) .zlib :=
  payloadLaw_iff (documented_only ..) (.oneWay 1 [0x68, 0x69]) [] .zlib

/-- The zeros are compressed to 54 bytes, which zstd is then not given the room to decompress. -/
theorem large_payload_lost : hiAndZeros.Documented ∧ ¬ PayloadLaw hiAndZeros ((oneWay 1 zeros).setCompression .zstd) := by
  refine ⟨documented_only .., fun hlaw => ?_⟩
  have hbuilt : Built [] zeros ((oneWay 1 zeros).setCompression .zstd) := (Built.start (.oneWay 1 zeros)).apply (.setCompression .zstd)
  have hw : compressData hiAndZeros zeros .zstd = .ok zerosFrame := by
    simp only [compressData, hiAndZeros, ZstdLib.only, if_true]
    rfl
  have hd := (hbuilt.restored_iff rfl).1 hlaw.restored zerosFrame hw
  rw [readPayload_of_lt (by decide) (by decide)] at hd
  have hle := (decompressData_iff (documented_only ..) hw).1 hd rfl
  rw [zeros, List.length_replicate] at hle
  omega

end Packet

end Msgtrans
