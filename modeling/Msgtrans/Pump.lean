import Msgtrans.Lib.Run
import Msgtrans.Lib.Broadcast
import Msgtrans.Event

/-!
# The event pumps

Three tasks carry events from one layer to the next, all with `while let Ok(event) = recv().await`: the
consumer task of `Transport::set_connection` (into `on_event`), the session task of
`TransportServer::add_session` (into `handle_transport_event`) and the forwarding task of
`TransportClient`. The loop ends at a lag error too, so a pump keeps forwarding in every state of a run
exactly when its producer never gets a full capacity ahead: `keepsForwarding_iff`.
-/

namespace Msgtrans

inductive Protocol where
  | tcp | webSocket | quic
deriving DecidableEq, Repr

/-- The capacity each adapter asks for its event channel. -/
def Protocol.eventCapacity : Protocol → Nat
  | .tcp => 16
  | .webSocket => 1000
  | .quic => 1000

inductive EventPump where
  | transportConsumer (protocol : Protocol)
  | serverSession
  | clientForwarding
deriving DecidableEq, Repr

namespace EventPump

def capacity : EventPump → Nat
  | .transportConsumer protocol => protocol.eventCapacity
  | .serverSession => 1024
  | .clientForwarding => 1024

structure State where
  channel : Broadcast.Channel TransportEvent
  pump : Broadcast.Reader TransportEvent

inductive Label where
  | publish (event : TransportEvent)
  | close
  /-- the pump's `recv`, and its body when it got an event -/
  | poll

/-- A pump that has just subscribed; `earlier` was published before. -/
def start (p : EventPump) (earlier : List TransportEvent) : State :=
  let channel := (Broadcast.Channel.new p.capacity).sendAll earlier
  ⟨channel, .subscribe channel⟩

def step (s : State) : Label → Option State
  | .publish event => if s.channel.closed then none else some { s with channel := s.channel.send event }
  | .close => some { s with channel := { s.channel with closed := true } }
  | .poll => some { s with pump := s.pump.turn s.channel }

theorem step_publish {s s' : State} {event : TransportEvent} (h : step s (.publish event) = some s') :
    s.channel.closed = false ∧ s' = { s with channel := s.channel.send event } := by
  simp only [step] at h
  split at h
  · cases h
  · next hopen => exact ⟨Bool.eq_false_iff.2 hopen, (Option.some.inj h).symm⟩

/-- While the channel is open the pump runs, and polling it gets every event that is still retained and
not yet received. -/
def KeepsForwarding (s : State) : Prop :=
  s.channel.closed = false → s.pump.running = true ∧
    ∃ n, ((Broadcast.Reader.turn s.channel)^[n] s.pump).got = s.pump.got ++ s.channel.unread s.pump.next

/-- An event is published only while fewer events than the channel holds wait for the pump. -/
def HasRoom (s : State) (l : Label) : Prop :=
  ∀ event, l = .publish event → s.channel.sent.length < s.pump.next + s.channel.cap

structure Inv (s : State) : Prop where
  cap_pos : 0 < s.channel.cap
  follows : s.channel.closed = false → Broadcast.Follows s.channel s.pump

theorem Inv.start (p : EventPump) (earlier : List TransportEvent) : Inv (start p earlier) where
  cap_pos := Broadcast.Channel.cap_new_pos (α := TransportEvent) p.capacity
  follows _ := .subscribe _

theorem Inv.keepsForwarding {s : State} (h : Inv s) : KeepsForwarding s := by
  intro hopen
  have hf := h.follows hopen
  exact ⟨hf.running, Broadcast.Reader.turns_unread hf.running hf.oldest_le⟩

theorem Inv.step {s s' : State} {l : Label} (hs : step s l = some s') (hroom : HasRoom s l) (h : Inv s) :
    Inv s' := by
  cases l with
  | publish event =>
    obtain ⟨hopen, rfl⟩ := step_publish hs
    exact ⟨h.cap_pos, fun _ => (h.follows hopen).sendAll (hroom event rfl)⟩
  | close =>
    cases hs
    exact ⟨h.cap_pos, fun hopen => Bool.noConfusion (hopen : true = false)⟩
  | poll =>
    cases hs
    refine ⟨h.cap_pos, fun hopen => ?_⟩
    have hf := h.follows hopen
    show Broadcast.Follows s.channel (s.pump.turn s.channel)
    rcases hf.turn hopen with ⟨a, -, -, -, hf'⟩ | ⟨-, -, hsame⟩
    · exact hf'
    · rw [hsame]
      exact hf

/-- A pump that is behind never catches up: its next `recv` ends it. -/
theorem not_keepsForwarding_of_lagged {s : State} (hopen : s.channel.closed = false) (hcap : 0 < s.channel.cap)
    (hlag : s.pump.next < s.channel.oldest) : ¬ KeepsForwarding s := by
  intro hkeep
  obtain ⟨-, n, hn⟩ := hkeep hopen
  rw [Broadcast.Reader.got_of_lagged hlag] at hn
  exact Broadcast.Channel.unread_ne_nil_of_lagged hcap hlag (List.self_eq_append_right.1 hn)

/-- Publishing with a full channel ahead of the pump puts it behind. -/
theorem not_keepsForwarding_of_full {s s' : State} {event : TransportEvent}
    (hs : step s (.publish event) = some s') (hcap : 0 < s.channel.cap)
    (hfull : s.pump.next + s.channel.cap ≤ s.channel.sent.length) : ¬ KeepsForwarding s' := by
  obtain ⟨hopen, rfl⟩ := step_publish hs
  refine not_keepsForwarding_of_lagged hopen hcap ?_
  show s.pump.next < (s.channel.sent ++ [event]).length - s.channel.cap
  rw [List.length_append, List.length_singleton]
  omega

open StepSystem

/-- The pump keeps forwarding in every state of a run exactly when every publish of the run had room. -/
theorem keepsForwarding_iff {p : EventPump} {earlier : List TransportEvent} {ls : List Label} {s : State}
    (hr : run step (start p earlier) ls = some s) :
    Always step KeepsForwarding (start p earlier) ls ↔ Meets step HasRoom (start p earlier) ls := by
  refine always_iff_meets_of_step (I := Inv) (fun t => Inv.keepsForwarding) ?_ ?_ hr (.start p earlier)
  · exact fun t l t' hs hroom h => h.step hs hroom
  · rintro t l t' hs h hkeep event rfl
    -- otherwise this publish would put the pump behind
    by_contra hfull
    exact not_keepsForwarding_of_full hs h.cap_pos (Nat.le_of_not_lt hfull) hkeep

theorem keepsForwarding_iff_one_event :
    let ls := [Label.publish (.messageSent 7), .poll, .close, .poll]
    ∃ s, run step (start .serverSession []) ls = some s ∧
      (Always step KeepsForwarding (start .serverSession []) ls ↔
        Meets step HasRoom (start .serverSession []) ls) :=
  ⟨_, rfl, keepsForwarding_iff rfl⟩

/-- Seventeen events of a TCP adapter before the consumer's first `recv`. -/
theorem consumer_dies_behind :
    ∃ s, run step (start (.transportConsumer .tcp) [])
        (List.replicate 17 (.publish (.messageSent 0))) = some s ∧
      s.channel.closed = false ∧ ¬ KeepsForwarding s :=
  ⟨_, rfl, rfl, not_keepsForwarding_of_lagged rfl (by decide) (by decide)⟩

end EventPump

end Msgtrans
