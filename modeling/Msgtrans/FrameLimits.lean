import Msgtrans.PacketBuild
import Msgtrans.QuicLoop
import Msgtrans.TcpLoop

/-!
# The sizes the adapters send and receive (`adapters/tcp.rs`, `adapters/quic.rs`)

Both adapters write whatever packet they are given, but receive only some sizes. A TCP receiver parses what one
read returns, at most the 8192 bytes of its buffer; the buffer on its own would take payloads of up to 1 MiB. A QUIC
receiver reads streams of up to 1 MiB, so there the whole frame counts. `received_iff_fits`: where one packet
is written by one adapter, the other can get it exactly when it fits the receiver.
-/

namespace Msgtrans

/-- The room `fill_from_stream` leaves for `read_buf`, which appends no more than that. -/
def OptimizedReadBuffer.room (b : OptimizedReadBuffer) : Nat :=
  (b.fillFromStream (.ok [])).2.capacity - b.buffer.length

namespace FrameLimits

inductive Adapter where
  | tcp
  | quic
deriving DecidableEq

variable {p : Packet} {readToEnd : Nat → Bytes → Except QuicLoop.ReadToEndError Bytes}

/-- The sender takes the packet off its queue, and writing its bytes to the stream succeeds: it goes on and says
that it has sent the packet. -/
def Sends (p : Packet) : Adapter → Prop
  | .tcp => TcpLoop.turn (.queue (some p) (.ok ())) = ([.messageSent p.header.messageId], true)
  | .quic => QuicLoop.turn (.queue (some p) (.written true)) = ([.messageSent p.header.messageId], true)

/-- The bytes of one packet, in reads that fill at most the room of the read buffer. -/
structure TcpReads (p : Packet) (os : List TcpLoop.Outcome) : Prop where
  quiet : ∀ o ∈ os, o.Quiet
  room : ∀ bytes ∈ os.filterMap TcpLoop.Outcome.bytes?, bytes.length ≤ (OptimizedReadBuffer.new 8192).room
  bytes : (os.filterMap TcpLoop.Outcome.bytes?).flatten = p.toBytes

/-- The receiver of the same protocol can get what was written: it publishes the packet and goes on. -/
def Receives (readToEnd : Nat → Bytes → Except QuicLoop.ReadToEndError Bytes) (p : Packet) : Adapter → Prop
  | .tcp => ∃ os, TcpReads p os ∧ TcpLoop.Delivers [p] os []
  | .quic => QuicLoop.turn (.accept (.ok (readToEnd QuicLoop.readLimit p.toBytes))) = ([.messageReceived p], true)

def Fits (p : Packet) : Adapter → Prop
  | .tcp => p.toBytes.length ≤ 8192
  | .quic => p.toBytes.length ≤ 1024 * 1024

theorem sends (p : Packet) (a : Adapter) : Sends p a := by
  cases a <;> rfl

theorem room_eq : (OptimizedReadBuffer.new 8192).room = 8192 := rfl

/-- The read buffer has a limit of its own, which the loop never comes to. -/
theorem parses_iff (h : p.WellFormed) {b : OptimizedReadBuffer} (hb : b.buffer = p.toBytes) :
    b.tryParseNextPacket.1 = .ok (some p) ↔ p.payload.length ≤ 1024 * 1024 := by
  constructor
  · intro hparse
    by_contra hbig
    obtain ⟨-, hpay⟩ := h.lens []
    rw [List.append_nil] at hpay
    have hlen := Packet.length_toBytes p
    have h16 : 16 ≤ b.buffer.length := by
      rw [hb]
      omega
    rw [OptimizedReadBuffer.tryParseNextPacket_eq h16, hb, hpay, if_pos (.inl (Nat.lt_of_not_le hbig))] at hparse
    cases hparse
  · intro hle
    exact (OptimizedReadBuffer.tryParseNextPacket_whole ⟨h, hle⟩ (hb.trans (List.append_nil _).symm)).1

/-- A loop that publishes one packet and goes on has read once. -/
theorem reads_of_delivers {os : List TcpLoop.Outcome} (hq : ∀ o ∈ os, o.Quiet) (hd : TcpLoop.Delivers [p] os []) :
    ∃ bytes, os.filterMap TcpLoop.Outcome.bytes? = [bytes] := by
  obtain ⟨hrec, hopen⟩ := hd
  obtain ⟨ps, hps⟩ := TcpLoop.parses_of_open hq hopen
  have hrun := (TcpLoop.run_of_parses hq hps []).1
  have hps' : ps = [p] := by
    rw [hrec, TcpLoop.eventLoop] at hrun
    simpa [received] using hrun.symm
  rw [hps', List.forall₂_cons_right_iff] at hps
  obtain ⟨bytes, rest, -, hnil, hreads⟩ := hps
  cases List.forall₂_nil_right_iff.1 hnil
  exact ⟨bytes, hreads⟩

theorem TcpReads.length_le {os : List TcpLoop.Outcome} (hr : TcpReads p os)
    (hreads : os.filterMap TcpLoop.Outcome.bytes? = [p.toBytes]) : p.toBytes.length ≤ 8192 := by
  have hle := hr.room p.toBytes (by rw [hreads]; exact List.mem_cons_self)
  rwa [room_eq] at hle

/-- The reads of one packet deliver it only as a single read of the whole frame. -/
theorem delivers_iff_one_read (h : p.WellFormed) {os : List TcpLoop.Outcome} (hr : TcpReads p os) :
    TcpLoop.Delivers [p] os [] ↔ os.filterMap TcpLoop.Outcome.bytes? = [p.toBytes] := by
  constructor
  · intro hd
    obtain ⟨bytes, hreads⟩ := reads_of_delivers hr.quiet hd
    have hbytes := hr.bytes
    rw [hreads, List.flatten_singleton] at hbytes
    rw [hreads, hbytes]
  · intro hreads
    have hle := hr.length_le hreads
    have := Packet.length_toBytes p
    have hps : List.Forall₂ TcpLoop.Parses (os.filterMap TcpLoop.Outcome.bytes?) [p] := by
      rw [hreads]
      exact .cons (TcpLoop.parses_toBytes ⟨h, by omega⟩) .nil
    exact TcpLoop.run_of_parses hr.quiet hps []

theorem tcp_receives_iff (h : p.WellFormed) :
    (∃ os, TcpReads p os ∧ TcpLoop.Delivers [p] os []) ↔ p.toBytes.length ≤ 8192 := by
  constructor
  · rintro ⟨os, hr, hd⟩
    exact hr.length_le ((delivers_iff_one_read h hr).1 hd)
  · intro hle
    have hr : TcpReads p [.read (.ok p.toBytes)] := by
      refine ⟨fun o ho => ?_, fun bytes hb => ?_, List.flatten_singleton⟩
      · rw [List.mem_singleton.1 ho]
        exact Packet.toBytes_ne_nil p
      · rw [List.mem_singleton.1 hb, room_eq]
        exact hle
    exact ⟨_, hr, (delivers_iff_one_read h hr).2 rfl⟩

theorem receivedPacket_toBytes (h : p.WellFormed) : QuicLoop.receivedPacket p.toBytes = p := by
  have hlen := Packet.length_toBytes p
  have hdec : Packet.fromBytes p.toBytes = .ok p := h.fromWire_toBytes Packet.mk
  rw [QuicLoop.receivedPacket, if_neg (by omega), hdec]

theorem quic_receives_iff (h : p.WellFormed)
    (hread : ∀ limit stream, readToEnd limit stream = if stream.length ≤ limit then .ok stream else .error .tooLong) :
    QuicLoop.turn (.accept (.ok (readToEnd QuicLoop.readLimit p.toBytes))) = ([.messageReceived p], true) ↔
      p.toBytes.length ≤ 1024 * 1024 := by
  rw [hread, QuicLoop.readLimit]
  split
  · next hle => simp [QuicLoop.turn, receivedPacket_toBytes h, hle]
  · next hle => simp [QuicLoop.turn, hle]

/-- Every size is sent; it is received exactly when it fits the receiver, on TCP only by a read that returns the
whole frame. The TCP read buffer alone would take any payload of at most 1 MiB. -/
theorem received_iff_fits (h : p.WellFormed)
    (hread : ∀ limit stream, readToEnd limit stream = if stream.length ≤ limit then .ok stream else .error .tooLong)
    (a : Adapter) :
    Sends p a ∧ (Receives readToEnd p a ↔ Fits p a) ∧
      (∀ os, TcpReads p os →
        (TcpLoop.Delivers [p] os [] ↔ os.filterMap TcpLoop.Outcome.bytes? = [p.toBytes])) ∧
      ∀ b : OptimizedReadBuffer, b.buffer = p.toBytes →
        (b.tryParseNextPacket.1 = .ok (some p) ↔ p.payload.length ≤ 1024 * 1024) := by
  refine ⟨sends p a, ?_, fun os hr => delivers_iff_one_read h hr, fun b hb => parses_iff h hb⟩
  cases a with
  | tcp => exact tcp_receives_iff h
  | quic => exact quic_receives_iff h hread

/-- `read_to_end` as quinn documents it. -/
def readToEndOf (limit : Nat) (stream : Bytes) : Except QuicLoop.ReadToEndError Bytes :=
  if stream.length ≤ limit then .ok stream else .error .tooLong

theorem received_iff_fits_hi :
    let p := Packet.oneWay 1 [104, 105]
    ∀ a, Sends p a ∧ (Receives readToEndOf p a ↔ Fits p a) ∧
      (∀ os, TcpReads p os →
        (TcpLoop.Delivers [p] os [] ↔ os.filterMap TcpLoop.Outcome.bytes? = [p.toBytes])) ∧
      ∀ b : OptimizedReadBuffer, b.buffer = p.toBytes →
        (b.tryParseNextPacket.1 = .ok (some p) ↔ p.payload.length ≤ 1024 * 1024) := by
  intro p a
  exact received_iff_fits ⟨rfl, rfl, rfl⟩ (fun _ _ => rfl) a

theorem wellFormed_zeros {n : Nat} (hn : n < 2 ^ 32) : (Packet.oneWay 1 (List.replicate n 0)).WellFormed := by
  have hbuilt := Packet.Built.start (.oneWay 1 (List.replicate n 0))
  refine hbuilt.wellFormed_iff.2 ⟨by decide, ?_⟩
  exact (List.length_replicate (a := (0 : UInt8)) (n := n)).trans_lt hn

theorem length_zeros (n : Nat) : (Packet.oneWay 1 (List.replicate n 0)).toBytes.length = 16 + n := by
  rw [Packet.length_toBytes]
  show 16 + 0 + (List.replicate n (0 : UInt8)).length = 16 + n
  rw [List.length_replicate]

/-- 9000 bytes are too many for one read, and with its header a payload of 1 MiB is too long for the stream. -/
theorem sent_and_refused :
    let large := Packet.oneWay 1 (List.replicate 9000 0)
    let huge := Packet.oneWay 1 (List.replicate (1024 * 1024) 0)
    (large.WellFormed ∧ Sends large .tcp ∧ ¬ Receives readToEndOf large .tcp) ∧
      huge.WellFormed ∧ Sends huge .quic ∧ ¬ Receives readToEndOf huge .quic := by
  intro large huge
  have hlarge : large.WellFormed := wellFormed_zeros (by omega)
  have hhuge : huge.WellFormed := wellFormed_zeros (by omega)
  refine ⟨⟨hlarge, sends .., fun hr => ?_⟩, hhuge, sends .., fun hr => ?_⟩
  · have hle := (tcp_receives_iff hlarge).1 hr
    rw [length_zeros] at hle
    omega
  · have hle := (quic_receives_iff hhuge fun _ _ => rfl).1 hr
    rw [length_zeros] at hle
    omega

end FrameLimits

end Msgtrans
