import Msgtrans.Packet

/-!
# Payload compression (`Packet::compress_payload`, `Packet::decompress_payload`)

The two compressors are optional features and third-party code: `CompressionLib` is what a build links.
-/

namespace Msgtrans

/-- `flate2`: `ZlibEncoder` at the default level and `ZlibDecoder`. -/
structure ZlibLib where
  encode : Bytes → Except String Bytes
  decode : Bytes → Except String Bytes

/-- `zstd::bulk`: `compress` takes a level, `decompress` the capacity of its output. -/
structure ZstdLib where
  compress : Bytes → Nat → Except String Bytes
  decompress : Bytes → Nat → Except String Bytes

/-- The compressors of a build, `none` for a feature that is off. -/
structure CompressionLib where
  flate2 : Option ZlibLib
  zstd : Option ZstdLib

namespace Packet

def compressData (lib : CompressionLib) (data : Bytes) : CompressionType → Except PacketError Bytes
  | .none => .ok data
  | .zlib =>
    match lib.flate2 with
    | some zlib => (zlib.encode data).mapError .compressionError
    | none => .error (.unsupportedCompression "flate2 feature not enabled")
  | .zstd =>
    match lib.zstd with
    | some zstd => (zstd.compress data 3).mapError .compressionError
    | none => .error (.unsupportedCompression "zstd feature not enabled")

def decompressData (lib : CompressionLib) (data : Bytes) : CompressionType → Except PacketError Bytes
  | .none => .ok data
  | .zlib =>
    match lib.flate2 with
    | some zlib => (zlib.decode data).mapError .compressionError
    | none => .error (.unsupportedCompression "flate2 feature not enabled")
  | .zstd =>
    match lib.zstd with
    | some zstd => (zstd.decompress data (1024 * 1024)).mapError .compressionError
    | none => .error (.unsupportedCompression "zstd feature not enabled")

/-- The body of `compress_payload` and `decompress_payload`: `?` leaves before the packet changes. -/
def recode (f : Bytes → CompressionType → Except PacketError Bytes) (p : Packet) :
    Except PacketError Unit × Packet :=
  if p.header.compression = .none then (.ok (), p) else
  match f p.payload p.header.compression with
  | .error e => (.error e, p)
  | .ok payload => (.ok (), p.setPayload payload)

def compressPayload (lib : CompressionLib) (p : Packet) : Except PacketError Unit × Packet :=
  p.recode (compressData lib)

def decompressPayload (lib : CompressionLib) (p : Packet) : Except PacketError Unit × Packet :=
  p.recode (decompressData lib)

variable {f : Bytes → CompressionType → Except PacketError Bytes} {p : Packet}

theorem recode_cases : (p.recode f).2 = p ∧
      (∀ payload, p.header.compression ≠ .none → f p.payload p.header.compression ≠ .ok payload) ∨
    ∃ payload, p.header.compression ≠ .none ∧ f p.payload p.header.compression = .ok payload ∧
      (p.recode f).2 = p.setPayload payload := by
  unfold recode
  by_cases hc : p.header.compression = .none
  · rw [if_pos hc]
    exact .inl ⟨rfl, fun _ h => absurd hc h⟩
  · rw [if_neg hc]
    cases hf : f p.payload p.header.compression with
    | error e => exact .inl ⟨rfl, fun _ _ h => nomatch h⟩
    | ok payload => exact .inr ⟨payload, hc, rfl, rfl⟩

end Packet

/-- What the compressors promise: decompressing a compressed payload of at most 1 MiB gives it back. -/
def CompressionLib.Lossless (lib : CompressionLib) : Prop :=
  ∀ c data out, data.length ≤ 1024 * 1024 → Packet.compressData lib data c = .ok out →
    Packet.decompressData lib out c = .ok data

end Msgtrans
