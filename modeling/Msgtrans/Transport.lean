import Msgtrans.Compression
import Msgtrans.Event

/-!
# One connection (`transport/transport.rs`)

The packets `send_with_options` and `request_with_options` hand to the connection, and `on_event`, the
single entry of what arrives. `next_id` is the counter of the `RequestTracker`.
-/

namespace Msgtrans

structure TransportOptions where
  compression : Option CompressionType
  bizType : Option UInt8
  extHeader : Option Bytes
  messageId : Option UInt32

namespace Transport

variable (lib : CompressionLib)

def messageIdOf (options : TransportOptions) (nextId : UInt32) : UInt32 × UInt32 :=
  match options.messageId with
  | some id => (id, nextId)
  | none => (nextId, nextId + 1)

/-- The packet both calls with options build; when the compressor fails it stays as it is. -/
def optionsPacket (packetType : PacketType) (messageId : UInt32) (data : Bytes) (options : TransportOptions) :
    Packet :=
  let packet : Packet := {
    header := {
      version := 1
      compression := options.compression.getD .none
      packetType := packetType
      bizType := options.bizType.getD 0
      messageId := messageId
      extHeaderLen := options.extHeader.elim 0 fun h => .ofNat h.length
      payloadLen := .ofNat data.length
      reserved := .new }
    extHeader := options.extHeader.getD []
    payload := data }
  if options.compression.isSome ∧ options.compression ≠ some .none then (packet.compressPayload lib).2
  else packet

def sendWithOptions (nextId : UInt32) (data : Bytes) (options : TransportOptions) : Packet × UInt32 :=
  let (messageId, nextId) := messageIdOf options nextId
  (optionsPacket lib .oneWay messageId data options, nextId)

def requestWithOptions (nextId : UInt32) (data : Bytes) (options : TransportOptions) : Packet × UInt32 :=
  let (messageId, nextId) := messageIdOf options nextId
  (optionsPacket lib .request messageId data options, nextId)

def decodePayload (packet : Packet) : Except TransportError Bytes :=
  if packet.header.compression ≠ .none then
    match packet.decompressPayload lib with
    | (.ok _, packetCopy) => .ok packetCopy.payload
    | (.error _, _) => .ok packet.payload
  else .ok packet.payload

/-- What `on_event` does with one event: the response it passes to `request_tracker.complete`, and
what it publishes. -/
structure Reaction where
  completed : Option Packet
  published : List TransportEvent

def onEvent (event : TransportEvent) : Reaction :=
  match event with
  | .messageReceived packet =>
    match packet.header.packetType with
    | .response => ⟨some packet, []⟩
    | .request => ⟨none, [.messageReceived packet]⟩
    | .oneWay =>
      match decodePayload lib packet with
      -- the decoded bytes only go into a `Message` that nothing reads
      | .ok _ => ⟨none, [.messageReceived packet]⟩
      | .error e => ⟨none, [.transportError e]⟩
  | event => ⟨none, [event]⟩

/-! ### The packet that is sent -/

/-- The compressor asked for, if any, fails on `data` or gives `data` back. -/
def Inert (data : Bytes) (options : TransportOptions) : Prop :=
  ∀ c out, options.compression = some c → c ≠ .none → Packet.compressData lib data c = .ok out → out = data

/-- `p` says what the call was given, up to its payload. -/
structure Describes (p : Packet) (packetType : PacketType) (options : TransportOptions) : Prop where
  packetType : p.header.packetType = packetType
  bizType : p.header.bizType = options.bizType.getD 0
  extHeader : p.extHeader = options.extHeader.getD []

theorem Describes.setPayload {p : Packet} {packetType : PacketType} {options : TransportOptions}
    (h : Describes p packetType options) (payload : Bytes) : Describes (p.setPayload payload) packetType options :=
  ⟨h.packetType, h.bizType, h.extHeader⟩

variable {lib} {packetType : PacketType} {messageId : UInt32} {data : Bytes} {options : TransportOptions}

/-- The packet of a call with options: its payload is the data exactly when compression is inert. -/
theorem optionsPacket_spec : Describes (optionsPacket lib packetType messageId data options) packetType options ∧
    ((optionsPacket lib packetType messageId data options).payload = data ↔ Inert lib data options) := by
  unfold optionsPacket
  generalize hp : Packet.mk _ _ _ = packet
  have hdesc : Describes packet packetType options := by
    subst hp
    exact ⟨rfl, rfl, rfl⟩
  have hpay : packet.payload = data := by rw [← hp]
  have hcomp : packet.header.compression = options.compression.getD .none := by rw [← hp]
  by_cases hask : options.compression.isSome ∧ options.compression ≠ some .none
  · obtain ⟨c, hc⟩ := Option.isSome_iff_exists.1 hask.1
    have hne : c ≠ .none := fun h => hask.2 (by rw [hc, h])
    rw [hc, Option.getD_some] at hcomp
    show Describes (if _ then _ else _) _ _ ∧ ((if _ then _ else _ : Packet).payload = data ↔ _)
    rw [if_pos hask]
    rcases Packet.recode_cases (f := Packet.compressData lib) (p := packet) with ⟨hsame, hfail⟩ | ⟨out, -, hout, hset⟩
    · -- the compressor failed: the packet goes out as it is
      rw [Packet.compressPayload, hsame]
      refine ⟨hdesc, iff_of_true hpay fun c' out hc' hne' hok => ?_⟩
      rw [hc] at hc'
      cases hc'
      rw [hpay, hcomp] at hfail
      exact absurd hok (hfail out hne)
    · rw [Packet.compressPayload, hset]
      rw [hpay, hcomp] at hout
      refine ⟨hdesc.setPayload out, ?_, fun h => h c out hc hne hout⟩
      intro h c' out' hc' _ hok
      rw [hc] at hc'
      cases hc'
      rw [hout] at hok
      cases hok
      exact h
  · show Describes (if _ then _ else _) _ _ ∧ ((if _ then _ else _ : Packet).payload = data ↔ _)
    rw [if_neg hask]
    refine ⟨hdesc, iff_of_true hpay fun c out hc hne _ => absurd ⟨?_, ?_⟩ hask⟩
    · rw [hc, Option.isSome_some]
    · rw [hc]
      exact fun h => hne (Option.some.inj h)

/-- Decoding never fails: what cannot be decompressed is handed on as it is. -/
theorem decodePayload_ok (lib : CompressionLib) (packet : Packet) : ∃ data, decodePayload lib packet = .ok data := by
  unfold decodePayload
  split
  · split <;> exact ⟨_, rfl⟩
  · exact ⟨_, rfl⟩

theorem onEvent_forwards {packet : Packet} (h : packet.header.packetType ≠ .response) :
    onEvent lib (.messageReceived packet) = ⟨none, [.messageReceived packet]⟩ := by
  cases ht : packet.header.packetType with
  | response => exact absurd ht h
  | request => simp only [onEvent, ht]
  | oneWay =>
    obtain ⟨data, hd⟩ := decodePayload_ok lib packet
    simp only [onEvent, ht, hd]

end Transport

end Msgtrans
