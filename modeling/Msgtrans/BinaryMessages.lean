import Msgtrans.FrameLimits
import Msgtrans.WebSocketLoop

/-!
# Binary messages on WebSocket and QUIC

Both adapters first look at the length, then try the decoder, then fall back to a packet of their own, each in code of
its own. `decoded` is what both come to: the length check changes nothing, as the decoder refuses what is short.
-/

namespace Msgtrans

/-- The packet that `b` is, or a one-way message with `b` for its payload. -/
def decoded (b : Bytes) : Packet :=
  match Packet.fromBytes b with
  | .ok packet => packet
  | .error _ => .oneWay 0 b

namespace BinaryMessages

variable {b : Bytes} {p : Packet} {e : PacketError} {readToEnd : Nat → Bytes → Except QuicLoop.ReadToEndError Bytes}

theorem decoded_of_ok (h : Packet.fromBytes b = .ok p) : decoded b = p := by rw [decoded, h]

theorem decoded_of_error (h : Packet.fromBytes b = .error e) : decoded b = .oneWay 0 b := by rw [decoded, h]

theorem decoded_short (h : b.length < 16) : decoded b = .oneWay 0 b := decoded_of_error (fromWire_short h)

theorem processWebsocketMessage_binary (b : Bytes) :
    WebSocketLoop.processWebsocketMessage (.binary b) = .packet (decoded b) := by
  unfold WebSocketLoop.processWebsocketMessage
  by_cases hshort : b.length < 16
  · rw [decoded_short hshort]
    exact if_pos hshort
  · cases hd : Packet.fromBytes b with
    | ok p => simp only [if_neg hshort, hd, decoded_of_ok hd]
    | error e => simp only [if_neg hshort, hd, decoded_of_error hd]

theorem receivedPacket_eq (b : Bytes) : QuicLoop.receivedPacket b = decoded b := by
  unfold QuicLoop.receivedPacket
  by_cases hshort : b.length < 16
  · rw [if_pos hshort, decoded_short hshort]
  · rw [if_neg hshort]
    rfl

/-- What either adapter makes of `b`. -/
structure BinaryLaw (readToEnd : Nat → Bytes → Except QuicLoop.ReadToEndError Bytes) (b : Bytes) : Prop where
  websocket : WebSocketLoop.processWebsocketMessage (.binary b) = .packet (decoded b)
  websocket_turn : WebSocketLoop.turn (.next (some (.ok (.binary b)))) = ([.messageReceived (decoded b)], true)
  quic_turn : QuicLoop.turn (.accept (.ok (readToEnd QuicLoop.readLimit b))) = ([.messageReceived (decoded b)], true)
  packet : ∀ p, Packet.fromBytes b = .ok p → decoded b = p
  wellFormed : ∀ p : Packet, p.WellFormed → p.toBytes = b → decoded b = p
  /-- what is no packet is all there, with its real length -/
  other : ∀ e, Packet.fromBytes b = .error e → decoded b = .oneWay 0 b ∧ (decoded b).payload = b ∧
    (decoded b).header.payloadLen.toNat = b.length

theorem websocket_turn (b : Bytes) :
    WebSocketLoop.turn (.next (some (.ok (.binary b)))) = ([.messageReceived (decoded b)], true) := by
  simp only [WebSocketLoop.turn, WebSocketLoop.select, processWebsocketMessage_binary, WebSocketLoop.Turn.publish]

theorem quic_turn (hread : ∀ limit stream, readToEnd limit stream = if stream.length ≤ limit then .ok stream else .error .tooLong)
    (hb : b.length ≤ 1024 * 1024) :
    QuicLoop.turn (.accept (.ok (readToEnd QuicLoop.readLimit b))) = ([.messageReceived (decoded b)], true) := by
  rw [hread, QuicLoop.readLimit, if_pos hb, QuicLoop.turn, receivedPacket_eq]

theorem binaryLaw_of_le
    (hread : ∀ limit stream, readToEnd limit stream = if stream.length ≤ limit then .ok stream else .error .tooLong)
    (hb : b.length ≤ 1024 * 1024) : BinaryLaw readToEnd b := by
  refine ⟨processWebsocketMessage_binary b, websocket_turn b, quic_turn hread hb, fun _ => decoded_of_ok, ?_, ?_⟩
  · rintro p hp rfl
    exact decoded_of_ok (hp.fromWire_toBytes Packet.mk)
  · intro e he
    rw [decoded_of_error he]
    refine ⟨rfl, rfl, ?_⟩
    show (UInt32.ofNat b.length).toNat = b.length
    exact UInt32.toNat_ofNat_of_lt' (Nat.lt_of_le_of_lt hb (by decide))

/-- A packet of 16 bytes, its first 15 bytes, and the packet of another version. -/
theorem binaryLaw_of_le_frames : let bytes := (Packet.oneWay 7 []).toBytes
    BinaryLaw FrameLimits.readToEndOf bytes ∧ BinaryLaw FrameLimits.readToEndOf (bytes.take 15) ∧
      BinaryLaw FrameLimits.readToEndOf (bytes.set 0 2) :=
  ⟨binaryLaw_of_le (fun _ _ => rfl) (by decide), binaryLaw_of_le (fun _ _ => rfl) (by decide),
    binaryLaw_of_le (fun _ _ => rfl) (by decide)⟩

/-- Both loops publish the same packets for the same messages, and go on. -/
theorem emitted_binaries
    (hread : ∀ limit stream, readToEnd limit stream = if stream.length ≤ limit then .ok stream else .error .tooLong)
    {bs : List Bytes} (hbs : ∀ b ∈ bs, b.length ≤ 1024 * 1024) :
    TurnLoop.emitted WebSocketLoop.turn (bs.map fun b => .next (some (.ok (.binary b)))) =
        bs.map (fun b => .messageReceived (decoded b)) ∧
      TurnLoop.emitted QuicLoop.turn (bs.map fun b => .accept (.ok (readToEnd QuicLoop.readLimit b))) =
        bs.map (fun b => .messageReceived (decoded b)) := by
  induction bs with
  | nil => exact ⟨rfl, rfl⟩
  | cons b bs ih =>
    obtain ⟨hb, hbs⟩ := List.forall_mem_cons.1 hbs
    obtain ⟨hws, hquic⟩ := ih hbs
    constructor
    · simp only [List.map_cons, TurnLoop.emitted, websocket_turn, hws]
      rfl
    · simp only [List.map_cons, TurnLoop.emitted, quic_turn hread hb, hquic]
      rfl

end BinaryMessages

end Msgtrans
