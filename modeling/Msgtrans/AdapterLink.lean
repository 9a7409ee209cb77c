import Msgtrans.BinaryMessages
import Msgtrans.Lib.Link
import Msgtrans.LoopEnd

/-!
# Two adapters at the ends of one connection (`adapters/websocket.rs`, `adapters/quic.rs`)

The event loops of `WebSocketLoop` and `QuicLoop` as the two ends of a `Link`. A WebSocket carries one binary message a
packet and ends with a Close frame; the library below may add pings and pongs. A QUIC connection carries one
unidirectional stream a packet, accepted in the order they were opened, and ends without a word of the loop. A
failure of the connection may come at any time; a packet whose write fails stays in the model's queue.

Both take packets of any length to write, and read only some: the WebSocket library has a limit for frames, and the QUIC
adapter one for streams. A longer one ends the loop that reads it.
-/

namespace Msgtrans

open Link

def TransportEvent.sentId? : TransportEvent → Option UInt32
  | .messageSent packetId => some packetId
  | _ => none

namespace WebSocketLink

open WebSocketLoop

def isControl : Message → Bool
  | .ping => true
  | .pong => true
  | _ => false

def idles (head : Option Packet) : Outcome → Bool
  | .next none => true
  | .next (some (.error _)) => true
  | .queue none _ => true
  | .queue (some p) (.error _) => head == some p
  | _ => false

/-- The library's limit for one frame; `accept_async` and `connect_async` leave it as it is. -/
def maxFrameSize : Nat := 16 * 1024 * 1024

/-- What `stream.next()` gives of a message on the wire. -/
structure Limits (next : Message → Except TungsteniteError Message) : Prop where
  binary : ∀ data, data.length ≤ maxFrameSize → next (.binary data) = .ok (.binary data)
  /-- `Capacity(MessageTooLong)` -/
  tooLong : ∀ data, ¬ data.length ≤ maxFrameSize → ∃ debug, next (.binary data) = .error (.other debug)
  control : ∀ m, isControl m = true → next m = .ok m
  close : next .close = .ok .close

def kind (next : Message → Except TungsteniteError Message) : Kind Packet Message Outcome TransportEvent where
  turn := turn
  encode p := .binary p.toBytes
  read m := .next (some (next m))
  wrote p := .queue (some p) (.ok ())
  stop := .shutdown
  bye := some .close
  isControl := isControl
  idles := idles
  stop_ends := rfl

abbrev Ends := State Packet Message Outcome

/-- What a receiver takes in one frame. -/
def Fits (p : Packet) : Prop := p.toBytes.length ≤ maxFrameSize

variable (next : Message → Except TungsteniteError Message)

/-- What the adapter of end `d` has published. -/
def events (s : Ends) (d : Side) : List TransportEvent := (s d).published (kind next)

/-- Nothing that end `d` met besides frames and packets ended its loop. -/
def Undisturbed (s : Ends) (d : Side) : Prop := ∀ o, Act.idle o ∈ (s d).acts → (turn o).2 = true

/-- From end `d` to the other one. -/
structure Law (s : Ends) (d : Side) : Prop where
  sent : (events next s d).filterMap TransportEvent.sentId? = (s d).written.map fun p => p.header.messageId
  written : (s d).written <+: (s d).accepted
  received : received (events next s d.peer) <+: (s d).written
  /-- all that was read came out, or the last of it did not fit and ended the loop with an error -/
  refused : Msgtrans.received (events next s d.peer) = (s d.peer).arrived ∨ ∃ p, ¬ Fits p ∧
    Msgtrans.received (events next s d.peer) ++ [p] <+: (s d).written ∧ (s d.peer).running = false ∧
    ∃ before debug, events next s d.peer = before ++ [.connectionClosed (.error debug)]
  kept : (∀ p ∈ (s d).written, Fits p) →
    (s d).accepted = Msgtrans.received (events next s d.peer) ++ (s d.peer).coming ++ (s d).queue
  /-- while both loops run, everything accepted can still come over -/
  deliverable : (∀ p ∈ (s d).accepted, Fits p) → (s d).running = true → (s d.peer).running = true → ∃ ls t,
    StepSystem.run (step (kind next)) s ls = some t ∧ Msgtrans.received (events next t d.peer) = (s d).accepted
  silent : Act.stop ∈ (s d).acts → ∀ e ∈ events next s d, ¬ e.Closes
  announced : (s d).running = false → Act.stop ∉ (s d).acts → TurnLoop.OnceAtEnd TransportEvent.Closes (events next s d)
  /-- who hears of a normal close on a connection that did not fail has received all that was written before it -/
  graceful : Undisturbed s d.peer → .connectionClosed .normal ∈ events next s d.peer →
    Act.stop ∈ (s d).acts ∧ Msgtrans.received (events next s d.peer) = (s d).written ∧
      ∃ before, events next s d.peer = before ++ [.connectionClosed .normal]

variable {next} {s t : Ends} {ls : List (Label Packet Message Outcome)} {d : Side} {p : Packet} {m : Message} {o : Outcome}

/-! ### The turns -/

theorem turn_control (h : isControl m = true) : turn (.next (some (.ok m))) = ([], true) := by
  cases m with
  | ping | pong => rfl
  | text | binary | close | frame => cases h

theorem turn_idle {head : Option Packet} (h : idles head o = true) :
    turn o = ([], true) ∨ ∃ reason, turn o = ([.connectionClosed reason], false) := by
  rcases o with (_ | (e | message)) | ⟨(_ | packet), (e | _)⟩ | _
  · exact .inr ⟨_, rfl⟩
  · cases e with
    | resetWithoutClosingHandshake | connectionClosed | other => exact .inr ⟨_, rfl⟩
  · cases h
  · exact .inl rfl
  · exact .inl rfl
  · exact .inr ⟨_, rfl⟩
  · cases h
  · cases h

theorem not_closes_of_goesOn (h : (turn o).2 = true) : ∀ e ∈ (turn o).1, ¬ e.Closes := by
  intro e he
  unfold turn at h he
  rcases select_cases o with ⟨event, ho, hevent⟩ | ho | ⟨reason, ho⟩ | rfl
  · rw [ho] at he
    rw [List.mem_singleton.1 he]
    exact fun hc => Bool.noConfusion (hc.symm.trans hevent)
  · rw [ho] at he
    cases he
  · rw [ho] at h
    cases h
  · cases h

section Limits

variable (hnext : Limits next)
include hnext

theorem turn_fits (h : Fits p) : turn (.next (some (next (.binary p.toBytes)))) = ([.messageReceived (decoded p.toBytes)], true) := by
  rw [hnext.binary _ h, BinaryMessages.websocket_turn]

theorem turn_tooLong (h : ¬ Fits p) :
    ∃ debug, turn (.next (some (next (.binary p.toBytes)))) = ([.connectionClosed (.error debug)], false) := by
  obtain ⟨debug, hdebug⟩ := hnext.tooLong _ h
  rw [hdebug]
  exact ⟨debug, rfl⟩

theorem turn_read_control (h : isControl m = true) : turn (.next (some (next m))) = ([], true) := by
  rw [hnext.control m h, turn_control h]

theorem turn_close : turn (.next (some (next .close))) = ([.connectionClosed .normal], false) := by
  rw [hnext.close]
  rfl

/-- What a turn publishes that reads no packet. -/
theorem events_cases {x : Act Packet Message Outcome} (hx : (kind next).Meets x) :
    (∃ p, x = .wrote p ∧ (kind next).events x = [.messageSent p.header.messageId]) ∨
      (x = .read (.bye .close) ∧ (kind next).events x = [.connectionClosed .normal] ∧ (kind next).goesOn x = false) ∨
      (∃ o reason, x = .idle o ∧ (kind next).events x = [.connectionClosed reason] ∧ (kind next).goesOn x = false) ∨
      x.wrote? = none ∧ (kind next).events x = [] := by
  rcases x with (p | m | m) | p | o | _
  · exact hx.elim
  · exact .inr (.inr (.inr ⟨rfl, congrArg Prod.fst (turn_read_control hnext hx)⟩))
  · cases hx
    exact .inr (.inl ⟨rfl, congrArg Prod.fst (turn_close hnext), congrArg Prod.snd (turn_close hnext)⟩)
  · exact .inl ⟨p, rfl, rfl⟩
  · obtain ⟨head, hidle⟩ := hx
    rcases turn_idle hidle with ho | ⟨reason, ho⟩
    · exact .inr (.inr (.inr ⟨rfl, congrArg Prod.fst ho⟩))
    · exact .inr (.inr (.inl ⟨o, reason, rfl, congrArg Prod.fst ho, congrArg Prod.snd ho⟩))
  · exact .inr (.inr (.inr ⟨rfl, rfl⟩))

theorem receives : (kind next).Receives TransportEvent.packet? Packet.WellFormed Fits where
  takes p hp hfits := by
    rw [show (kind next).events (.read (.packet p)) = _ from congrArg Prod.fst (turn_fits hnext hfits),
      BinaryMessages.decoded_of_ok (hp.fromWire_toBytes Packet.mk)]
    rfl
  goesOn p hfits := congrArg Prod.snd (turn_fits hnext hfits)
  refuses p hnot := by
    obtain ⟨debug, hturn⟩ := turn_tooLong hnext hnot
    rw [show (kind next).events (.read (.packet p)) = _ from congrArg Prod.fst hturn]
    rfl
  ends p hnot := by
    obtain ⟨debug, hturn⟩ := turn_tooLong hnext hnot
    exact congrArg Prod.snd hturn
  quiet x hx := by
    rcases events_cases hnext hx with ⟨p, rfl, he⟩ | ⟨rfl, he, -⟩ | ⟨o, reason, rfl, he, -⟩ | ⟨-, he⟩ <;> rw [he] <;> rfl
  wrote _ := rfl
  control _ hm := congrArg Prod.snd (turn_read_control hnext hm)

/-! ### What the two sides see -/

theorem sent_eq (h : Inv (kind next) s) (d : Side) :
    (events next s d).filterMap TransportEvent.sentId? = (s d).written.map fun p => p.header.messageId := by
  have hevents : ∀ x ∈ (s d).acts, ((kind next).events x).filterMap TransportEvent.sentId? =
      (x.wrote?.map fun p => [p.header.messageId]).getD [] := by
    intro x hx
    obtain ⟨p, rfl⟩ | hx := h.meets hx
    · by_cases hfits : Fits p
      · rw [show (kind next).events (.read (.packet p)) = _ from congrArg Prod.fst (turn_fits hnext hfits)]
        rfl
      · obtain ⟨debug, hturn⟩ := turn_tooLong hnext hfits
        rw [show (kind next).events (.read (.packet p)) = _ from congrArg Prod.fst hturn]
        rfl
    · rcases events_cases hnext hx with ⟨p, rfl, he⟩ | ⟨rfl, he, -⟩ | ⟨o, reason, rfl, he, -⟩ | ⟨hw, he⟩
      · rw [he]; rfl
      · rw [he]; rfl
      · rw [he]; rfl
      · rw [he, hw]; rfl
  rw [events, (h.ran d).filterMap_published hevents, End.written]
  exact List.flatMap_pure_eq_map ..

omit hnext in
/-- A loop that stopped by itself has published no close. -/
theorem not_closes_of_stop (h : Inv (kind next) s) (hstop : Act.stop ∈ (s d).acts) : ∀ e ∈ events next s d, ¬ e.Closes := by
  obtain ⟨before, heq, hbefore⟩ := (h.ran d).last_of_ends hstop rfl
  intro e he
  rw [events, (h.ran d).published_eq, heq, List.flatMap_append, List.mem_append] at he
  rcases he with he | he
  · obtain ⟨x, hx, he⟩ := List.mem_flatMap.1 he
    exact not_closes_of_goesOn (hbefore x hx) e he
  · cases he

omit hnext in
theorem onceAtEnd_of_ended (h : Inv (kind next) s) (hrun : (s d).running = false) (hstop : Act.stop ∉ (s d).acts) :
    TurnLoop.OnceAtEnd TransportEvent.Closes (events next s d) := by
  obtain ⟨x, hx, -, hending⟩ := (h.ran d).ending_eq hrun
  refine (closesOnce _).owed _ hending fun hshut => ?_
  cases x with
  | read f => cases hshut
  | wrote p => cases hshut
  | idle o =>
    obtain ⟨head, hidle⟩ := (h.ran d).idled o hx
    have : o = .shutdown := hshut
    rw [this] at hidle
    cases hidle
  | stop => exact hstop hx

/-- On a connection that did not fail, a normal close that is heard of is the other side's goodbye. -/
theorem bye_of_closes (h : Inv (kind next) s) (hcalm : Undisturbed s d)
    (hclosed : .connectionClosed .normal ∈ events next s d) :
    Frame.bye .close ∈ (s d).got ∧ ∃ before, events next s d = before ++ [.connectionClosed .normal] := by
  rw [events, (h.ran d).published_eq] at hclosed ⊢
  obtain ⟨x, hx, he⟩ := List.mem_flatMap.1 hclosed
  obtain ⟨p, rfl⟩ | hmeets := h.meets hx
  · by_cases hfits : Fits p
    · rw [show (kind next).events (.read (.packet p)) = _ from congrArg Prod.fst (turn_fits hnext hfits)] at he
      cases List.mem_singleton.1 he
    · obtain ⟨debug, hturn⟩ := turn_tooLong hnext hfits
      rw [show (kind next).events (.read (.packet p)) = _ from congrArg Prod.fst hturn] at he
      cases List.mem_singleton.1 he
  · rcases events_cases hnext hmeets with ⟨p, rfl, hev⟩ | ⟨rfl, hev, hend⟩ | ⟨o, reason, rfl, -, hend⟩ | ⟨-, hev⟩
    · rw [hev] at he
      cases List.mem_singleton.1 he
    · obtain ⟨before, heq, -⟩ := (h.ran d).last_of_ends hx hend
      refine ⟨End.mem_got.2 hx, before.flatMap (kind next).events, ?_⟩
      rw [heq, List.flatMap_append, List.flatMap_singleton, hev]
    · rw [Kind.goesOn, Kind.outcome] at hend
      rw [show ((kind next).turn o).2 = true from hcalm o hx] at hend
      cases hend
    · rw [hev] at he
      cases he

theorem law_of_inv (h : Inv (kind next) s) (hok : ∀ d, ∀ p ∈ (s d).accepted, p.WellFormed) (d : Side) : Law next s d := by
  have hflow := h.flow d
  have hok' : ∀ p ∈ (s d.peer).arrived, p.WellFormed := fun p hp =>
    hok d p ((hflow.arrived_isPrefix.trans hflow.written_isPrefix).subset hp)
  have hreceives := receives hnext
  refine ⟨sent_eq hnext h d, hflow.written_isPrefix, (hreceives.isPrefix h hok').trans hflow.arrived_isPrefix, ?_, fun hfits => ?_,
    hreceives.delivers h (hok d), not_closes_of_stop h, onceAtEnd_of_ended h, fun hcalm hclosed => ?_⟩
  · refine (hreceives.filterMap_published h hok').imp_right ?_
    rintro ⟨before, p, hacts, hnot, heq, hrun⟩
    obtain ⟨debug, hturn⟩ := turn_tooLong hnext hnot
    refine ⟨p, hnot, heq ▸ hflow.arrived_isPrefix, hrun, before.flatMap (kind next).events, debug, ?_⟩
    rw [events, (h.ran d.peer).published_eq, hacts, List.flatMap_append, List.flatMap_singleton]
    exact congrArg (_ ++ ·) (congrArg Prod.fst hturn)
  · have hrec := hreceives.of_fits h hok' fun p hp => hfits p (hflow.arrived_isPrefix.subset hp)
    rw [hflow.accepted_eq, ← hrec]
    rfl
  · obtain ⟨hbye, hend⟩ := bye_of_closes hnext h hcalm hclosed
    obtain ⟨harrived, hstop, -⟩ := hflow.arrived_of_bye hbye
    refine ⟨hstop, ?_, hend⟩
    obtain hrec | ⟨before, p, hacts, -⟩ := hreceives.filterMap_published h hok'
    · exact hrec.trans harrived
    · -- its last turn has read the goodbye
      obtain ⟨before', hacts', -⟩ :=
        (h.ran d.peer).last_of_ends (End.mem_got.1 hbye) (congrArg Prod.snd (turn_close hnext))
      cases (List.append_inj' (hacts.symm.trans hacts') rfl).2

end Limits

/-- Two WebSocket adapters over any run: nothing is lost, doubled, invented or overtaken on the way up to the first packet that
does not fit one frame, and a close that is heard of came after everything that was written. -/
theorem webSocket_delivers (hnext : Limits next) (hok : ∀ d p, Label.accept d p ∈ ls → p.WellFormed)
    (hr : StepSystem.run (step (kind next)) start ls = some s) (d : Side) : Law next s d :=
  law_of_inv hnext (Inv.of_run hr) (accepted_of_run hr hok) d

/-- The library, but for the text of the error. -/
def nextOf : Message → Except TungsteniteError Message
  | .binary data => if data.length ≤ maxFrameSize then .ok (.binary data) else .error (.other "Capacity(MessageTooLong)")
  | m => .ok m

theorem limits_nextOf : Limits nextOf where
  binary data h := if_pos h
  tooLong data h := ⟨_, if_neg h⟩
  control m h := by
    cases m with
    | ping | pong => rfl
    | text | binary | close | frame => cases h
  close := rfl

/-- A packet each way, one more on its way, a ping, and a stop. -/
theorem webSocket_delivers_closed :
    let ls : List (Label Packet Message Outcome) := [.accept .left (.oneWay 1 [7]), .write .left, .accept .left (.oneWay 2 []),
      .control .left .ping, .read .right, .accept .right (.request 9 []), .write .left, .stop .left, .read .right,
      .read .right, .read .right, .accept .right (.oneWay 3 [])]
    ∃ s, StepSystem.run (step (kind nextOf)) start ls = some s ∧ ∀ d, Law nextOf s d := by
  intro ls
  have hrun : (StepSystem.run (step (kind nextOf)) start ls).isSome := by decide
  obtain ⟨s, hs⟩ := Option.isSome_iff_exists.1 hrun
  refine ⟨s, hs, webSocket_delivers limits_nextOf (fun d p hp => ?_) hs⟩
  simp only [ls, List.mem_cons, List.not_mem_nil, Label.accept.injEq, reduceCtorEq, or_false, false_or] at hp
  rcases hp with ⟨-, rfl⟩ | ⟨-, rfl⟩ | ⟨-, rfl⟩ | ⟨-, rfl⟩ <;> exact ⟨rfl, rfl, rfl⟩

end WebSocketLink

namespace QuicLink

open QuicLoop

def idles (head : Option Packet) : Outcome → Bool
  | .accept (.error _) => true
  | .accept (.ok (.error (.read _))) => true
  | .queue none _ => true
  | .queue (some p) (.openFailed _) => head == some p
  | .queue (some p) (.writeFailed _) => head == some p
  | _ => false

/-- What is written to a stream of its own is read to its end by `readToEnd`. -/
def kind (readToEnd : Nat → Bytes → Except ReadToEndError Bytes) : Kind Packet Bytes Outcome TransportEvent where
  turn := turn
  encode := Packet.toBytes
  read b := .accept (.ok (readToEnd readLimit b))
  wrote p := .queue (some p) (.written true)
  stop := .shutdown
  bye := none
  isControl _ := false
  idles := idles
  stop_ends := rfl

abbrev Ends := State Packet Bytes Outcome

/-- What a receiver takes in one stream. -/
def Fits (p : Packet) : Prop := p.toBytes.length ≤ 1024 * 1024

variable (readToEnd : Nat → Bytes → Except ReadToEndError Bytes)

def events (s : Ends) (d : Side) : List TransportEvent := (s d).published (kind readToEnd)

/-- From end `d` to the other one. -/
structure Law (s : Ends) (d : Side) : Prop where
  sent : (events readToEnd s d).filterMap TransportEvent.sentId? = (s d).written.map fun p => p.header.messageId
  written : (s d).written <+: (s d).accepted
  received : received (events readToEnd s d.peer) <+: (s d).written
  /-- all that was read came out, or the last of it did not fit: it and what comes behind it are lost, and this
  is the one end of the reading loop that says so -/
  refused : Msgtrans.received (events readToEnd s d.peer) = (s d.peer).arrived ∨ ∃ p, ¬ Fits p ∧
    Msgtrans.received (events readToEnd s d.peer) ++ [p] <+: (s d).written ∧ (s d.peer).running = false ∧
    ∃ before, events readToEnd s d.peer = before ++ [.connectionClosed (.error "QUIC stream too long")]
  kept : (∀ p ∈ (s d).written, Fits p) →
    (s d).accepted = Msgtrans.received (events readToEnd s d.peer) ++ (s d.peer).coming ++ (s d).queue
  deliverable : (∀ p ∈ (s d).accepted, Fits p) → (s d).running = true → (s d.peer).running = true → ∃ ls t,
    StepSystem.run (step (kind readToEnd)) s ls = some t ∧
      Msgtrans.received (events readToEnd t d.peer) = (s d).accepted
  silent : Act.stop ∈ (s d).acts → ∀ e ∈ events readToEnd s d, ¬ e.Closes

variable {readToEnd} {s t : Ends} {ls : List (Label Packet Bytes Outcome)} {d : Side} {p : Packet} {o : Outcome}

/-! ### The turns -/

theorem turn_idle {head : Option Packet} (h : idles head o = true) :
    ∀ e ∈ (turn o).1, e.packet? = none ∧ e.sentId? = none := by
  have hclosed : ∀ {reason : Option CloseReason}, ∀ e ∈ reason.toList.map TransportEvent.connectionClosed,
      e.packet? = none ∧ e.sentId? = none := by
    intro reason e he
    obtain ⟨r, -, rfl⟩ := List.mem_map.1 he
    exact ⟨rfl, rfl⟩
  rcases o with (e | (e | buf)) | ⟨(_ | packet), sending⟩ | _
  · exact hclosed
  · exact @hclosed (some e.reason)
  · cases h
  · exact fun e he => absurd he List.not_mem_nil
  · cases sending with
    | openFailed | writeFailed => exact fun e he => absurd he List.not_mem_nil
    | written => cases h
  · cases h

section Reads

variable (hread : ∀ limit stream, readToEnd limit stream = if stream.length ≤ limit then .ok stream else .error .tooLong)
include hread

theorem turn_tooLong (h : ¬ Fits p) : turn (.accept (.ok (readToEnd readLimit p.toBytes))) =
    ([.connectionClosed (.error "QUIC stream too long")], false) := by
  rw [hread, readLimit, if_neg (show ¬ p.toBytes.length ≤ 1024 * 1024 from h)]
  rfl

theorem turn_fits (h : Fits p) :
    turn (.accept (.ok (readToEnd readLimit p.toBytes))) = ([.messageReceived (decoded p.toBytes)], true) :=
  BinaryMessages.quic_turn hread h

theorem receives : (kind readToEnd).Receives TransportEvent.packet? Packet.WellFormed Fits where
  takes p hp hfits := by
    rw [show (kind readToEnd).events (.read (.packet p)) = _ from congrArg Prod.fst (turn_fits hread hfits),
      BinaryMessages.decoded_of_ok (hp.fromWire_toBytes Packet.mk)]
    rfl
  goesOn p hfits := congrArg Prod.snd (turn_fits hread hfits)
  refuses p hnot := by
    rw [show (kind readToEnd).events (.read (.packet p)) = _ from congrArg Prod.fst (turn_tooLong hread hnot)]
    rfl
  ends p hnot := congrArg Prod.snd (turn_tooLong hread hnot)
  quiet x hx := by
    rcases x with (p | m | m) | p | o | _
    · exact hx.elim
    · cases hx
    · cases hx
    · rfl
    · obtain ⟨head, hidle⟩ := hx
      exact List.filterMap_eq_nil_iff.2 fun e he => (turn_idle hidle e he).1
    · rfl
  wrote _ := rfl
  control _ hm := nomatch hm

/-! ### What the two sides see -/

theorem sent_eq (h : Inv (kind readToEnd) s) (d : Side) :
    (events readToEnd s d).filterMap TransportEvent.sentId? = (s d).written.map fun p => p.header.messageId := by
  have hevents : ∀ x ∈ (s d).acts, ((kind readToEnd).events x).filterMap TransportEvent.sentId? =
      (x.wrote?.map fun p => [p.header.messageId]).getD [] := by
    intro x hx
    obtain ⟨p, rfl⟩ | hmeets := h.meets hx
    · by_cases hfits : Fits p
      · rw [show (kind readToEnd).events (.read (.packet p)) = _ from congrArg Prod.fst (turn_fits hread hfits)]
        rfl
      · rw [show (kind readToEnd).events (.read (.packet p)) = _ from congrArg Prod.fst (turn_tooLong hread hfits)]
        rfl
    · rcases x with (p | m | m) | p | o | _
      · exact hmeets.elim
      · cases hmeets
      · cases hmeets
      · rfl
      · obtain ⟨head, hidle⟩ := hmeets
        exact List.filterMap_eq_nil_iff.2 fun e he => (turn_idle hidle e he).2
      · rfl
  rw [events, (h.ran d).filterMap_published hevents, End.written]
  exact List.flatMap_pure_eq_map ..

omit hread in
theorem not_closes_of_stop (h : Inv (kind readToEnd) s) (hstop : Act.stop ∈ (s d).acts) :
    ∀ e ∈ events readToEnd s d, ¬ e.Closes := by
  obtain ⟨before, heq, hbefore⟩ := (h.ran d).last_of_ends hstop rfl
  intro e he
  rw [events, (h.ran d).published_eq, heq, List.flatMap_append, List.mem_append] at he
  rcases he with he | he
  · obtain ⟨x, hx, he⟩ := List.mem_flatMap.1 he
    exact turn_goesOn (hbefore x hx) e he
  · cases he

theorem law_of_inv (h : Inv (kind readToEnd) s) (hok : ∀ d, ∀ p ∈ (s d).accepted, p.WellFormed) (d : Side) :
    Law readToEnd s d := by
  have hflow := h.flow d
  have hok' : ∀ p ∈ (s d.peer).arrived, p.WellFormed := fun p hp =>
    hok d p ((hflow.arrived_isPrefix.trans hflow.written_isPrefix).subset hp)
  have hreceives := receives hread
  refine ⟨sent_eq hread h d, hflow.written_isPrefix, (hreceives.isPrefix h hok').trans hflow.arrived_isPrefix, ?_,
    fun hfits => ?_, hreceives.delivers h (hok d), not_closes_of_stop h⟩
  · refine (hreceives.filterMap_published h hok').imp_right ?_
    rintro ⟨before, p, hacts, hnot, heq, hrun⟩
    refine ⟨p, hnot, heq ▸ hflow.arrived_isPrefix, hrun, before.flatMap (kind readToEnd).events, ?_⟩
    rw [events, (h.ran d.peer).published_eq, hacts, List.flatMap_append, List.flatMap_singleton]
    exact congrArg (_ ++ ·) (congrArg Prod.fst (turn_tooLong hread hnot))
  · have hrec := hreceives.of_fits h hok' fun p hp => hfits p (hflow.arrived_isPrefix.subset hp)
    rw [hflow.accepted_eq, ← hrec]
    rfl

end Reads

/-- Two QUIC adapters over any run: what comes out is a prefix of what was written, up to the first packet that does
not fit one stream of the receiver. -/
theorem quic_delivers
    (hread : ∀ limit stream, readToEnd limit stream = if stream.length ≤ limit then .ok stream else .error .tooLong)
    (hok : ∀ d p, Label.accept d p ∈ ls → p.WellFormed)
    (hr : StepSystem.run (step (kind readToEnd)) start ls = some s) (d : Side) : Law readToEnd s d :=
  law_of_inv hread (Inv.of_run hr) (accepted_of_run hr hok) d

/-- A packet each way, another still in the queue when the reading side stops. -/
theorem quic_delivers_stopped :
    let ls : List (Label Packet Bytes Outcome) := [.accept .left (.oneWay 1 [7]), .write .left, .accept .left (.oneWay 2 []),
      .read .right, .accept .right (.request 9 []), .write .right, .read .left, .stop .right,
      .idle .left (.accept (.error .applicationClosed))]
    ∃ s, StepSystem.run (step (kind FrameLimits.readToEndOf)) start ls = some s ∧ ∀ d, Law FrameLimits.readToEndOf s d := by
  intro ls
  have hrun : (StepSystem.run (step (kind FrameLimits.readToEndOf)) start ls).isSome := by decide
  obtain ⟨s, hs⟩ := Option.isSome_iff_exists.1 hrun
  refine ⟨s, hs, quic_delivers (fun _ _ => rfl) (fun d p hp => ?_) hs⟩
  simp only [ls, List.mem_cons, List.not_mem_nil, Label.accept.injEq, reduceCtorEq, or_false, false_or] at hp
  rcases hp with ⟨-, rfl⟩ | ⟨-, rfl⟩ | ⟨-, rfl⟩ <;> exact ⟨rfl, rfl, rfl⟩

end QuicLink

end Msgtrans
