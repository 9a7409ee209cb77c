import Msgtrans.PacketWire
import Msgtrans.Lib.Framing

/-!
# The TCP read buffer (`OptimizedReadBuffer`, `adapters/tcp.rs`)

A `BytesMut` is its contents and its capacity. The buffer is a receiver of self-delimiting frames:
`tryParseNextPacket` `Decodes` the encodings of well-formed packets of at most 1 MiB, and
`Framing.Decodes.feed_spec` gives whole streams.
-/

namespace Msgtrans

inductive TcpError where
  | io (error : String)
  | timeout
  | connectionClosed
  | packet (error : PacketError)
  | bufferOverflow
  | config (msg : String)
deriving DecidableEq, Repr

structure ReadBufferStats where
  reads : Nat
  packetsParsed : Nat
  reallocations : Nat
  bytesRead : Nat
deriving DecidableEq, Repr

structure OptimizedReadBuffer where
  buffer : Bytes
  capacity : Nat
  targetCapacity : Nat
  stats : ReadBufferStats
deriving DecidableEq, Repr

namespace OptimizedReadBuffer

def new (initialCapacity : Nat) : OptimizedReadBuffer where
  buffer := []
  capacity := initialCapacity
  targetCapacity := initialCapacity
  stats := ⟨0, 0, 0, 0⟩

def tryParseNextPacket (b : OptimizedReadBuffer) : Except TcpError (Option Packet) × OptimizedReadBuffer :=
  if b.buffer.length < 16 then (.ok none, b) else
  let headerBytes := slice b.buffer 0 16
  let extHeaderLen := (u16FromBeBytes [headerBytes[8]!, headerBytes[9]!]).toNat
  let payloadLen :=
    (u32FromBeBytes [headerBytes[10]!, headerBytes[11]!, headerBytes[12]!, headerBytes[13]!]).toNat
  if payloadLen > 1024 * 1024 ∨ extHeaderLen > 64 * 1024 then (.error .bufferOverflow, b) else
  let totalPacketLen := 16 + extHeaderLen + payloadLen
  if b.buffer.length < totalPacketLen then (.ok none, b) else
  -- `split_to` takes the bytes off before they are decoded: an error leaves the buffer without them
  let packetBytes := b.buffer.take totalPacketLen
  let b := { b with buffer := b.buffer.drop totalPacketLen, capacity := b.capacity - totalPacketLen }
  match Packet.fromBytes packetBytes with
  | .error e => (.error (.packet e), b)
  | .ok packet => (.ok (some packet), { b with stats.packetsParsed := b.stats.packetsParsed + 1 })

/-- `fill_from_stream`, with `read` what `read_buf` returned: the bytes it appended or its error. -/
def fillFromStream (b : OptimizedReadBuffer) (read : Except String Bytes) :
    Except TcpError Nat × OptimizedReadBuffer :=
  let b := if b.capacity - b.buffer.length < 4096 then
      { b with
        capacity := max b.capacity (b.buffer.length + b.targetCapacity)
        stats.reallocations := b.stats.reallocations + 1 }
    else b
  match read with
  | .error e => (.error (.io e), b)
  | .ok bytes => (.ok bytes.length, { b with
      buffer := b.buffer ++ bytes
      stats.reads := b.stats.reads + 1
      stats.bytesRead := b.stats.bytesRead + bytes.length })

theorem fillFromStream_ok (b : OptimizedReadBuffer) (bytes : Bytes) :
    (b.fillFromStream (.ok bytes)).1 = .ok bytes.length ∧
      (b.fillFromStream (.ok bytes)).2.buffer = b.buffer ++ bytes := by
  unfold fillFromStream
  split <;> exact ⟨rfl, rfl⟩

theorem tryParseNextPacket_short {b : OptimizedReadBuffer} (h : b.buffer.length < 16) :
    b.tryParseNextPacket = (.ok none, b) := if_pos h

theorem tryParseNextPacket_eq {b : OptimizedReadBuffer} (h : 16 ≤ b.buffer.length) :
    b.tryParseNextPacket =
      if payLen b.buffer > 1024 * 1024 ∨ extLen b.buffer > 64 * 1024 then (.error .bufferOverflow, b) else
      if b.buffer.length < 16 + extLen b.buffer + payLen b.buffer then (.ok none, b) else
      let rest := { b with
        buffer := b.buffer.drop (16 + extLen b.buffer + payLen b.buffer)
        capacity := b.capacity - (16 + extLen b.buffer + payLen b.buffer) }
      match Packet.fromBytes (b.buffer.take (16 + extLen b.buffer + payLen b.buffer)) with
      | .error e => (.error (.packet e), rest)
      | .ok packet => (.ok (some packet), { rest with stats.packetsParsed := rest.stats.packetsParsed + 1 }) := by
  have hext := FixedHeader.extHeaderLen_read h
  have hpay := FixedHeader.payloadLen_read h
  rw [← hext, ← hpay]
  exact if_neg (Nat.not_lt.2 h)

/-- The receiver the event loop's buffer implements. -/
def receiver : Framing.Receiver OptimizedReadBuffer UInt8 Packet TcpError where
  buf := buffer
  append b bytes := (b.fillFromStream (.ok bytes)).2
  call := tryParseNextPacket

end OptimizedReadBuffer

/-- The packets the safety check of the buffer lets through. -/
structure Packet.Receivable (p : Packet) : Prop extends p.WellFormed where
  payload_le : p.payload.length ≤ 1024 * 1024

theorem slice_append_left {b : Bytes} (tl : Bytes) {i j : Nat} (h : j ≤ b.length) :
    slice (b ++ tl) i j = slice b i j := by
  rw [slice, slice, List.take_append_of_le_length h]

namespace OptimizedReadBuffer

variable {b : OptimizedReadBuffer} {p : Packet}

theorem extHeader_length_lt (h : p.WellFormed) : p.extHeader.length < 64 * 1024 := by
  have := p.header.extHeaderLen.toNat_lt
  rw [h.extHeaderLen] at this
  omega

theorem tryParseNextPacket_whole (h : p.Receivable) {tl : Bytes} (hb : b.buffer = p.toBytes ++ tl) :
    b.tryParseNextPacket.1 = .ok (some p) ∧ b.tryParseNextPacket.2.buffer = tl := by
  obtain ⟨hext, hpay⟩ := h.lens tl
  have hlen := Packet.length_toBytes p
  have hle := h.payload_le
  have hlt := extHeader_length_lt h.toWellFormed
  have h16 : 16 ≤ b.buffer.length := by
    rw [hb, List.length_append]
    omega
  have htake : (p.toBytes ++ tl).take (16 + p.extHeader.length + p.payload.length) = p.toBytes :=
    List.take_left' hlen
  have hdrop : (p.toBytes ++ tl).drop (16 + p.extHeader.length + p.payload.length) = tl :=
    List.drop_left' hlen
  have hdec : Packet.fromBytes p.toBytes = .ok p := h.fromWire_toBytes Packet.mk
  rw [tryParseNextPacket_eq h16, hb, hext, hpay, if_neg (by omega), htake, hdrop, hdec,
    if_neg (by rw [List.length_append]; omega)]
  exact ⟨rfl, rfl⟩

/-- A cut inside the header, the extension header or the payload: nothing is taken. -/
theorem tryParseNextPacket_part (h : p.Receivable) (hpre : b.buffer <+: p.toBytes)
    (hlt : b.buffer.length < p.toBytes.length) : b.tryParseNextPacket = (.ok none, b) := by
  rcases Nat.lt_or_ge b.buffer.length 16 with hshort | h16
  · exact tryParseNextPacket_short hshort
  obtain ⟨tl, htl⟩ := hpre
  have hlens := h.lens []
  rw [List.append_nil, ← htl, extLen, payLen, slice_append_left tl (by omega),
    slice_append_left tl (by omega)] at hlens
  obtain ⟨hext, hpay⟩ : extLen b.buffer = p.extHeader.length ∧ payLen b.buffer = p.payload.length := hlens
  have hlen := Packet.length_toBytes p
  have hle := h.payload_le
  have hext' := extHeader_length_lt h.toWellFormed
  rw [tryParseNextPacket_eq h16, hext, hpay, if_neg (by omega), if_pos (by omega)]

theorem length_le_of_tryParseNextPacket (h : b.tryParseNextPacket.1 = .ok (some p)) :
    p.toBytes.length ≤ b.buffer.length := by
  rcases Nat.lt_or_ge b.buffer.length 16 with hshort | h16
  · rw [tryParseNextPacket_short hshort] at h
    cases h
  rw [tryParseNextPacket_eq h16] at h
  split at h
  · cases h
  split at h
  · cases h
  · cases hdec : Packet.fromBytes (b.buffer.take (16 + extLen b.buffer + payLen b.buffer)) with
    | error e =>
      rw [hdec] at h
      cases h
    | ok q =>
      rw [hdec] at h
      cases h
      exact Nat.le_trans (Packet.length_le_of_fromBytes hdec) (List.length_take_le' ..)

theorem decodes : Framing.Decodes receiver Packet.Receivable Packet.toBytes where
  enc_ne_nil := Packet.toBytes_ne_nil
  buf_append b bytes := (b.fillFromStream_ok bytes).2
  whole _ _ _ h hb := tryParseNextPacket_whole h hb
  part b _ h hpre hlt := by
    have := tryParseNextPacket_part (b := b) h hpre hlt
    exact ⟨congrArg Prod.fst this, congrArg (·.2.buffer) this⟩
  empty b hb := by
    have hb : b.buffer = [] := hb
    have := tryParseNextPacket_short (b := b) (by rw [hb]; exact Nat.zero_lt_succ 15)
    exact ⟨congrArg Prod.fst this, (congrArg (·.2.buffer) this).trans hb⟩

/-- However the encodings of `packets` are cut into `chunks`, appending them one by one and parsing
after each until nothing comes gives the packets in order and no error; after every call the buffer is
what was received minus what was parsed, and every parsing loop ends. -/
theorem feed_packets {packets : List Packet} {chunks : List Bytes} (hok : ∀ p ∈ packets, p.Receivable)
    (hcut : chunks.flatten = packets.flatMap Packet.toBytes) (initialCapacity : Nat) :
    ∃ rounds, (∀ fuel, chunks.flatten.length < fuel →
        receiver.feed fuel (new initialCapacity) chunks = some rounds) ∧
      rounds.flatten.filterMap Framing.Call.frame? = packets ∧
      (∀ c ∈ rounds.flatten, ∃ r, c.result = .ok r) ∧
      receiver.TallyRounds Packet.toBytes [] [] chunks rounds := by
  have hstart : ([] : Bytes) = packets.flatMap Packet.toBytes → packets = [] := by
    intro hnil
    cases packets with
    | nil => rfl
    | cons p ps => exact absurd (List.append_eq_nil_iff.1 hnil.symm).1 p.toBytes_ne_nil
  exact decodes.feed_spec hok (s := new initialCapacity) hcut hstart [] [] rfl

/-- Two packets, the first one cut inside its header and the second one coalesced with its rest. -/
theorem feed_packets_cut_header :
    let packets := [Packet.oneWay 1 [104, 105], (Packet.request 2 []).setExtHeader [7]]
    let stream := packets.flatMap Packet.toBytes
    ∃ rounds, (∀ fuel, 35 < fuel →
        receiver.feed fuel (new 8192) [stream.take 5, stream.drop 5] = some rounds) ∧
      rounds.flatten.filterMap Framing.Call.frame? = packets ∧
      (∀ c ∈ rounds.flatten, ∃ r, c.result = .ok r) ∧
      receiver.TallyRounds Packet.toBytes [] [] [stream.take 5, stream.drop 5] rounds := by
  intro packets stream
  have hok : ∀ p ∈ packets, p.Receivable := by
    intro p hp
    rcases List.mem_pair.1 hp with rfl | rfl
    · exact ⟨⟨rfl, rfl, rfl⟩, by decide⟩
    · exact ⟨⟨rfl, rfl, rfl⟩, by decide⟩
  have hcut : [stream.take 5, stream.drop 5].flatten = stream := by
    rw [List.flatten_cons, List.flatten_cons, List.flatten_nil, List.append_nil, List.take_append_drop]
  obtain ⟨rounds, hfeed, h⟩ := feed_packets hok hcut 8192
  rw [hcut] at hfeed
  exact ⟨rounds, hfeed, h⟩

end OptimizedReadBuffer

end Msgtrans
