import Msgtrans.ReadBuffer
import Msgtrans.Event

/-!
# The TCP event loop (`TcpAdapter::start_event_loop`)

One turn of the loop per outcome of its `select!`. Every turn parses what one read returned with a read
buffer of its own, and takes "no complete packet" for the end of the connection. So the packets of a
stream come out, and the loop goes on, exactly when every read returned one whole packet:
`delivers_iff`.
-/

namespace Msgtrans

/-- `{:?}` of an error, as `ConnectionClosed` carries it. An `io::Error` is its own debug text. -/
def PacketError.debug : PacketError → String
  | .invalidHeader msg => s!"InvalidHeader({msg.quote})"
  | .invalidPacket msg => s!"InvalidPacket({msg.quote})"
  | .unsupportedVersion version => s!"UnsupportedVersion({version})"
  | .compressionError msg => s!"CompressionError({msg.quote})"
  | .unsupportedCompression msg => s!"UnsupportedCompression({msg.quote})"
  | .serializationError msg => s!"SerializationError({msg.quote})"

def TcpError.debug : TcpError → String
  | .io error => s!"Io({error})"
  | .timeout => "Timeout"
  | .connectionClosed => "ConnectionClosed"
  | .packet error => s!"Packet({error.debug})"
  | .bufferOverflow => "BufferOverflow"
  | .config msg => s!"Config({msg.quote})"

namespace TcpLoop

/-- What completed first in one `select!`, with what it returned. -/
inductive Outcome where
  /-- `read_buf`: the bytes it appended, none at the end of the stream -/
  | read (result : Except String Bytes)
  /-- `send_queue.recv()`, and what writing the packet returned -/
  | queue (packet : Option Packet) (write : Except String Unit)
  | shutdown

/-- The `async` block of the receive branch. -/
def readPacket (result : Except String Bytes) : Except TcpError (Option Packet) :=
  let (filled, tempBuffer) := (OptimizedReadBuffer.new 8192).fillFromStream result
  match filled with
  | .ok 0 => .ok none
  | .ok _ => tempBuffer.tryParseNextPacket.1
  | .error e => .error e

/-- One turn: the events published and whether the loop goes on. -/
def turn : Outcome → List TransportEvent × Bool
  | .read result =>
    match readPacket result with
    | .ok (some packet) => ([.messageReceived packet], true)
    | .ok none => ([.connectionClosed .normal], false)
    | .error e => ([.connectionClosed (.error e.debug)], false)
  | .queue (some packet) write =>
    match write with
    | .ok _ => ([.messageSent packet.header.messageId], true)
    | .error e => ([.connectionClosed (.error (TcpError.io e).debug)], false)
  | .queue none _ => ([], true)
  | .shutdown => ([], false)

/-- The events a loop publishes over its outcomes; those behind the end of the loop are not taken. -/
def eventLoop : List Outcome → List TransportEvent
  | [] => []
  | o :: os => (turn o).1 ++ if (turn o).2 then eventLoop os else []

/-- No `ConnectionClosed` among the events. -/
def Open (events : List TransportEvent) : Prop := ∀ e ∈ events, e.isConnectionClosed = false

def Outcome.bytes? : Outcome → Option Bytes
  | .read (.ok bytes) => some bytes
  | _ => none

/-- A non-empty read, or a successful send (or an idle queue). -/
def Outcome.Quiet : Outcome → Prop
  | .read (.ok bytes) => bytes ≠ []
  | .read (.error _) => False
  | .queue packet write => packet = none ∨ write = .ok ()
  | .shutdown => False

/-- A read of 0 bytes, an I/O error or the shutdown signal: the ends of a loop. -/
def Outcome.Ends : Outcome → Prop
  | .read (.ok bytes) => bytes = []
  | .read (.error _) => True
  | .queue packet write => packet ≠ none ∧ write ≠ .ok ()
  | .shutdown => True

/-- The loop, over the outcomes `os` and then `rest`, publishes one `MessageReceived` per packet, in
order and with equal contents, and no `ConnectionClosed` within `os`. -/
def Delivers (packets : List Packet) (os rest : List Outcome) : Prop :=
  received (eventLoop (os ++ rest)) = packets ∧ Open (eventLoop os)

/-! ### One turn -/

def Parses (bytes : Bytes) (p : Packet) : Prop := readPacket (.ok bytes) = .ok (some p)

theorem readPacket_ok {bytes : Bytes} (h : bytes ≠ []) : readPacket (.ok bytes) =
    ((OptimizedReadBuffer.new 8192).fillFromStream (.ok bytes)).2.tryParseNextPacket.1 := by
  cases bytes with
  | nil => exact absurd rfl h
  | cons x xs => rfl

theorem turn_read {result : Except String Bytes} {p : Packet} (h : readPacket result = .ok (some p)) :
    turn (.read result) = ([.messageReceived p], true) := by
  rw [turn, h]

theorem turn_read_closed {result : Except String Bytes} (h : ∀ p, readPacket result ≠ .ok (some p)) :
    ∃ reason, turn (.read result) = ([.connectionClosed reason], false) := by
  rw [turn]
  cases hr : readPacket result with
  | error e => exact ⟨_, rfl⟩
  | ok r =>
    cases r with
    | none => exact ⟨_, rfl⟩
    | some p => exact absurd hr (h p)

theorem turn_queue {packet : Option Packet} {write : Except String Unit}
    (h : packet = none ∨ write = .ok ()) : (turn (.queue packet write)).2 = true ∧
      received (turn (.queue packet write)).1 = [] ∧ Open (turn (.queue packet write)).1 := by
  rcases h with rfl | rfl
  · exact ⟨rfl, rfl, fun e he => absurd he List.not_mem_nil⟩
  · cases packet with
    | none => exact ⟨rfl, rfl, fun e he => absurd he List.not_mem_nil⟩
    | some p => exact ⟨rfl, rfl, fun e he => by rw [List.mem_singleton.1 he]; rfl⟩

theorem turn_ends {o : Outcome} (h : o.Ends) : (turn o).2 = false ∧ received (turn o).1 = [] := by
  rcases o with (e | bytes) | ⟨packet, write⟩ | _
  · exact ⟨rfl, rfl⟩
  · have : bytes = [] := h
    subst this
    exact ⟨rfl, rfl⟩
  · obtain ⟨hp, hw⟩ := h
    cases packet with
    | none => exact absurd rfl hp
    | some p =>
      cases write with
      | error e => exact ⟨rfl, rfl⟩
      | ok u => exact absurd rfl hw
  · exact ⟨rfl, rfl⟩

theorem received_eventLoop_ends {rest : List Outcome} (h : ∀ o ∈ rest.head?, o.Ends) :
    received (eventLoop rest) = [] := by
  cases rest with
  | nil => rfl
  | cons o os =>
    obtain ⟨hgo, hrec⟩ := turn_ends (h o rfl)
    rw [eventLoop, hgo, received_append, hrec]
    rfl

theorem Parses.length_le {bytes : Bytes} {p : Packet} (h : Parses bytes p) (hne : bytes ≠ []) :
    p.toBytes.length ≤ bytes.length := by
  rw [Parses, readPacket_ok hne] at h
  have hbuf : ((OptimizedReadBuffer.new 8192).fillFromStream (.ok bytes)).2.buffer = bytes :=
    (OptimizedReadBuffer.fillFromStream_ok _ bytes).2
  have hle := OptimizedReadBuffer.length_le_of_tryParseNextPacket h
  rwa [hbuf] at hle

theorem parses_toBytes {p : Packet} (h : p.Receivable) : Parses p.toBytes p := by
  have hbuf : ((OptimizedReadBuffer.new 8192).fillFromStream (.ok p.toBytes)).2.buffer = p.toBytes ++ [] := by
    rw [(OptimizedReadBuffer.fillFromStream_ok _ _).2, List.append_nil]
    rfl
  rw [Parses, readPacket_ok p.toBytes_ne_nil]
  exact (OptimizedReadBuffer.tryParseNextPacket_whole h hbuf).1

/-! ### Whole runs -/

variable {os : List Outcome}

theorem parses_of_open (hq : ∀ o ∈ os, o.Quiet) (ho : Open (eventLoop os)) :
    ∃ ps, List.Forall₂ Parses (os.filterMap Outcome.bytes?) ps := by
  induction os with
  | nil => exact ⟨[], .nil⟩
  | cons o os ih =>
    have hq' : ∀ o ∈ os, o.Quiet := fun o ho => hq o (List.mem_cons_of_mem _ ho)
    have hrest : (turn o).2 = true → ∃ ps, List.Forall₂ Parses (os.filterMap Outcome.bytes?) ps := by
      intro hgo
      refine ih hq' fun e he => ho e ?_
      rw [eventLoop, hgo]
      exact List.mem_append_right _ he
    rcases o with (e | bytes) | ⟨packet, write⟩ | _
    · exact (hq _ List.mem_cons_self).elim
    · by_cases hp : ∃ p, Parses bytes p
      · obtain ⟨p, hp⟩ := hp
        obtain ⟨ps, hps⟩ := hrest (by rw [turn_read hp])
        exact ⟨p :: ps, .cons hp hps⟩
      · -- the read gave no packet, so the loop closed
        obtain ⟨reason, hturn⟩ := turn_read_closed fun p h => hp ⟨p, h⟩
        have hmem : TransportEvent.connectionClosed reason ∈ eventLoop (.read (.ok bytes) :: os) := by
          rw [eventLoop, hturn]
          exact List.mem_cons_self
        exact Bool.noConfusion (ho _ hmem : true = false)
    · exact hrest (turn_queue (hq _ List.mem_cons_self)).1
    · exact (hq _ List.mem_cons_self).elim

/-- A quiet run whose reads parse publishes their packets, stays open and goes on with `rest`. -/
theorem run_of_parses (hq : ∀ o ∈ os, o.Quiet) {ps : List Packet}
    (hps : List.Forall₂ Parses (os.filterMap Outcome.bytes?) ps) (rest : List Outcome) :
    received (eventLoop (os ++ rest)) = ps ++ received (eventLoop rest) ∧ Open (eventLoop os) := by
  induction os generalizing ps with
  | nil =>
    cases hps
    exact ⟨rfl, fun e he => absurd he List.not_mem_nil⟩
  | cons o os ih =>
    have hq' : ∀ o ∈ os, o.Quiet := fun o ho => hq o (List.mem_cons_of_mem _ ho)
    rcases o with (e | bytes) | ⟨packet, write⟩ | _
    · exact (hq _ List.mem_cons_self).elim
    · obtain ⟨p, ps, hp, hps', rfl⟩ : ∃ p ps', Parses bytes p ∧
          List.Forall₂ Parses (os.filterMap Outcome.bytes?) ps' ∧ ps = p :: ps' := by
        cases hps with
        | cons hp hps => exact ⟨_, _, hp, hps, rfl⟩
      obtain ⟨hrec, hopen⟩ := ih hq' hps'
      refine ⟨?_, ?_⟩
      · rw [List.cons_append, eventLoop, turn_read hp, received_append, if_pos rfl, hrec]
        rfl
      · rw [eventLoop, turn_read hp, if_pos rfl]
        exact List.forall_mem_cons.2 ⟨rfl, hopen⟩
    · obtain ⟨hgo, hnone, hopen'⟩ := turn_queue (hq _ List.mem_cons_self)
      obtain ⟨hrec, hopen⟩ := ih hq' hps
      refine ⟨?_, ?_⟩
      · rw [List.cons_append, eventLoop, hgo, received_append, hnone, if_pos rfl, hrec]
        rfl
      · rw [eventLoop, hgo, if_pos rfl]
        exact List.forall_mem_append.2 ⟨hopen', hopen⟩
    · exact (hq _ List.mem_cons_self).elim

theorem reads_eq {reads : List Bytes} {ps : List Packet}
    (h : List.Forall₂ (fun bytes p => p.toBytes.length ≤ bytes.length) reads ps)
    (hcut : reads.flatten = ps.flatMap Packet.toBytes) : reads = ps.map Packet.toBytes := by
  have hlen : ∀ {rs : List Bytes} {qs : List Packet},
      List.Forall₂ (fun bytes p => p.toBytes.length ≤ bytes.length) rs qs →
      (qs.flatMap Packet.toBytes).length ≤ rs.flatten.length := by
    intro rs qs h
    induction h with
    | nil => exact Nat.le_refl _
    | cons hle _ ih =>
      rw [List.flatMap_cons, List.flatten_cons, List.length_append, List.length_append]
      omega
  induction h with
  | nil => rfl
  | @cons bytes p reads ps hle hrest ih =>
    rw [List.flatten_cons, List.flatMap_cons] at hcut
    have htotal := congrArg List.length hcut
    rw [List.length_append, List.length_append] at htotal
    have := hlen hrest
    obtain ⟨rfl, hcut'⟩ := List.append_inj hcut (by omega)
    rw [List.map_cons, ← ih hcut']

/-- The law of the receiving loop. A run reads the encodings of `packets`, cut into non-empty reads and
interleaved with successful sends; after it, nothing or the end of the loop. -/
theorem delivers_iff {packets : List Packet} {rest : List Outcome} (hok : ∀ p ∈ packets, p.Receivable)
    (hq : ∀ o ∈ os, o.Quiet) (hcut : (os.filterMap Outcome.bytes?).flatten = packets.flatMap Packet.toBytes)
    (hrest : ∀ o ∈ rest.head?, o.Ends) :
    Delivers packets os rest ↔ os.filterMap Outcome.bytes? = packets.map Packet.toBytes := by
  constructor
  · rintro ⟨hrec, hopen⟩
    obtain ⟨ps, hps⟩ := parses_of_open hq hopen
    have hpackets := (run_of_parses hq hps rest).1
    rw [hrec, received_eventLoop_ends hrest, List.append_nil] at hpackets
    subst hpackets
    refine reads_eq ?_ hcut
    have hne : ∀ bytes ∈ os.filterMap Outcome.bytes?, bytes ≠ [] := by
      intro bytes hb
      obtain ⟨o, ho, hbytes⟩ := List.mem_filterMap.1 hb
      rcases o with (e | bytes') | ⟨packet, write⟩ | _ <;> cases hbytes
      exact hq _ ho
    exact ((List.forall₂_and_left ..).2 ⟨hne, hps⟩).imp fun bytes p h => h.2.length_le h.1
  · rintro hreads
    have hps : List.Forall₂ Parses (os.filterMap Outcome.bytes?) packets := by
      rw [hreads, List.forall₂_map_left_iff, List.forall₂_same]
      exact fun p hp => parses_toBytes (hok p hp)
    obtain ⟨hrec, hopen⟩ := run_of_parses hq hps rest
    rw [received_eventLoop_ends hrest, List.append_nil] at hrec
    exact ⟨hrec, hopen⟩

theorem delivers_iff_two_reads :
    let packets := [Packet.oneWay 1 [104, 105], Packet.request 2 []]
    let os := [Outcome.read (.ok (Packet.oneWay 1 [104, 105]).toBytes), .queue (some (.oneWay 9 [])) (.ok ()),
      .read (.ok (Packet.request 2 []).toBytes)]
    Delivers packets os [.read (.ok [])] ↔ os.filterMap Outcome.bytes? = packets.map Packet.toBytes := by
  refine delivers_iff ?_ ?_ rfl ?_
  · intro p hp
    rcases List.mem_pair.1 hp with rfl | rfl <;> exact ⟨⟨rfl, rfl, rfl⟩, by decide⟩
  · intro o ho
    simp only [List.mem_cons, List.not_mem_nil, or_false] at ho
    rcases ho with rfl | rfl | rfl
    · exact Packet.toBytes_ne_nil _
    · exact .inr rfl
    · exact Packet.toBytes_ne_nil _
  · rintro o ⟨⟩
    exact rfl

/-- Two packets coalesced in one read: the second one is lost with the read's buffer. -/
theorem coalesced_packets_lost :
    let first := Packet.oneWay 1 [104, 105]
    let second := Packet.oneWay 2 []
    (∀ p ∈ [first, second], p.Receivable) ∧ (first.toBytes ++ second.toBytes).length ≤ 8192 ∧
      ¬ Delivers [first, second] [.read (.ok (first.toBytes ++ second.toBytes))] [] := by
  intro first second
  refine ⟨?_, by decide, fun h => ?_⟩
  · intro p hp
    rcases List.mem_pair.1 hp with rfl | rfl <;> exact ⟨⟨rfl, rfl, rfl⟩, by decide⟩
  · have hrec : received (eventLoop [.read (.ok (first.toBytes ++ second.toBytes))]) = [first] := by decide
    have := hrec.symm.trans h.1
    cases this

end TcpLoop

end Msgtrans
