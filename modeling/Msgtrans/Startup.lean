import Msgtrans.Lib.Run
import Msgtrans.Lib.Broadcast
import Msgtrans.Transport

/-!
# Starting a server session

A TCP connection of a server has its event loop running from `TcpAdapter::new` on. The accepting task
then installs it (`Transport::set_connection`, which spawns the consumer task) and spawns the session
task (`TransportServer::add_session`); each of the two tasks subscribes when it is first scheduled, and
a subscription sees only later events. So no packet is lost exactly when the event loop publishes its
first packet after the consumer has subscribed, and the consumer hands on its first one-way or request
packet after the session task has: `nothingLost_iff`.

Receiving an event and running the loop's body on it is one step.
-/

namespace Msgtrans

namespace Startup

inductive Stage where
  | accepted | connectionSet | sessionSpawned
deriving DecidableEq, Repr

structure State where
  stage : Stage
  adapter : Broadcast.Channel TransportEvent
  consumer : Option (Broadcast.Reader TransportEvent)
  transport : Broadcast.Channel TransportEvent
  session : Option (Broadcast.Reader TransportEvent)

inductive Label where
  | publish (event : TransportEvent)
  | setConnection
  | consumerStart
  | spawnSession
  | sessionStart
  | consumerPoll
  | sessionPoll

/-- A connection just accepted: the channels of `TcpServer::accept` and `Transport::new`. -/
def start : State := ⟨.accepted, .new 16, none, .new 1024, none⟩

def step (lib : CompressionLib) (s : State) : Label → Option State
  | .publish event => some { s with adapter := s.adapter.send event }
  | .setConnection => if s.stage = .accepted then some { s with stage := .connectionSet } else none
  | .consumerStart =>
    if s.stage ≠ .accepted ∧ s.consumer.isNone then some { s with consumer := some (.subscribe s.adapter) }
    else none
  | .spawnSession => if s.stage = .connectionSet then some { s with stage := .sessionSpawned } else none
  | .sessionStart =>
    if s.stage = .sessionSpawned ∧ s.session.isNone then
      some { s with session := some (.subscribe s.transport) }
    else none
  | .consumerPoll => s.consumer.map fun r =>
    let published := (r.taken s.adapter).toList.flatMap fun event => (Transport.onEvent lib event).published
    { s with consumer := some (r.turn s.adapter), transport := s.transport.sendAll published }
  | .sessionPoll => s.session.map fun r => { s with session := some (r.turn s.transport) }

/-- The packets a task has received, in order. -/
def taken (task : Option (Broadcast.Reader TransportEvent)) : List Packet :=
  received ((task.map Broadcast.Reader.got).getD [])

/-- The packets in the channel that the task will still receive: none before it has subscribed. -/
def waiting (c : Broadcast.Channel TransportEvent) (task : Option (Broadcast.Reader TransportEvent)) :
    List Packet :=
  received ((task.map fun r => c.unread r.next).getD [])

def parsed (s : State) : List Packet := received s.adapter.sent

/-- The packets of `ps` that `on_event` passes on. -/
def forwarded (ps : List Packet) : List Packet := ps.filter fun p => p.header.packetType ≠ .response

/-- Every packet parsed was passed to `on_event` exactly once or waits for the consumer, and every
one-way or request packet passed was handled by the session task exactly once or waits for it. -/
structure NothingLost (s : State) : Prop where
  passed : parsed s = taken s.consumer ++ waiting s.adapter s.consumer
  handled : forwarded (taken s.consumer) = taken s.session ++ waiting s.transport s.session

/-- Fewer events than the channel holds are outstanding at each subscriber. -/
def HasRoom (s : State) : Label → Prop
  | .publish _ => ∀ r, s.consumer = some r → s.adapter.sent.length < r.next + s.adapter.cap
  | .consumerPoll => ∀ r, s.session = some r → s.transport.sent.length < r.next + s.transport.cap
  | _ => True

/-- A packet is published, or passed on by `on_event`, only to a task that has subscribed. -/
def Subscribed (s : State) : Label → Prop
  | .publish event => received [event] ≠ [] → s.consumer.isSome
  | .consumerPoll => ∀ r, s.consumer = some r → forwarded (received (r.taken s.adapter).toList) ≠ [] →
      s.session.isSome
  | _ => True

instance (s : State) : DecidablePred (HasRoom s)
  | .publish _ => inferInstanceAs (Decidable (∀ r ∈ s.consumer, s.adapter.sent.length < r.next + s.adapter.cap))
  | .consumerPoll => inferInstanceAs (Decidable (∀ r ∈ s.session, s.transport.sent.length < r.next + s.transport.cap))
  | .setConnection | .consumerStart | .spawnSession | .sessionStart | .sessionPoll => .isTrue trivial

instance (s : State) : DecidablePred (Subscribed s)
  | .publish event => inferInstanceAs (Decidable (received [event] ≠ [] → s.consumer.isSome))
  | .consumerPoll => inferInstanceAs (Decidable (∀ r ∈ s.consumer,
      forwarded (received (r.taken s.adapter).toList) ≠ [] → s.session.isSome))
  | .setConnection | .consumerStart | .spawnSession | .sessionStart | .sessionPoll => .isTrue trivial

/-- The task follows the channel, and `ps` is what it has received and what waits for it; a task that
has not subscribed has missed nothing yet. -/
def Carried (c : Broadcast.Channel TransportEvent) (task : Option (Broadcast.Reader TransportEvent))
    (ps : List Packet) : Prop :=
  match task with
  | none => ps = []
  | some r => Broadcast.Follows c r ∧ ps = received r.got ++ received (c.sent.drop r.next)

structure Inv (s : State) : Prop where
  adapter_open : s.adapter.closed = false
  transport_open : s.transport.closed = false
  consumer : Carried s.adapter s.consumer (parsed s)
  session : Carried s.transport s.session (forwarded (taken s.consumer))

/-! ### One task and its channel -/

namespace Carried

variable {c : Broadcast.Channel TransportEvent} {task : Option (Broadcast.Reader TransportEvent)}
  {ps : List Packet}

theorem eq (h : Carried c task ps) : ps = taken task ++ waiting c task := by
  cases task with
  | none => exact h
  | some r =>
    show ps = received r.got ++ received (c.unread r.next)
    rw [Broadcast.Channel.unread_eq h.1.oldest_le]
    exact h.2

theorem subscribe (h : Carried c none ps) : Carried c (some (.subscribe c)) ps := by
  refine ⟨.subscribe c, ?_⟩
  show ps = received [] ++ received (c.sent.drop c.sent.length)
  rw [List.drop_length]
  exact h

theorem sendAll (h : Carried c task ps) {es : List TransportEvent}
    (hroom : ∀ r, task = some r → c.sent.length + es.length ≤ r.next + c.cap)
    (hsub : received es ≠ [] → task.isSome) : Carried (c.sendAll es) task (ps ++ received es) := by
  cases task with
  | none =>
    have hnil : received es = [] := by
      by_contra hne
      exact Bool.false_ne_true (hsub hne)
    rw [hnil, List.append_nil]
    exact h
  | some r =>
    obtain ⟨hf, hps⟩ := h
    refine ⟨hf.sendAll (hroom r rfl), ?_⟩
    show _ = received r.got ++ received ((c.sent ++ es).drop r.next)
    rw [List.drop_append_of_le_length hf.next_le, received_append, hps, List.append_assoc]

theorem turn {r : Broadcast.Reader TransportEvent} (h : Carried c (some r) ps) (ho : c.closed = false) :
    Carried c (some (r.turn c)) ps ∧
      received (r.turn c).got = received r.got ++ received (r.taken c).toList := by
  obtain ⟨hf, hps⟩ := h
  rcases hf.turn ho with ⟨a, hdrop, htaken, hturn, hf'⟩ | ⟨hdrop, htaken, hturn⟩
  · rw [htaken, hturn]
    rw [hturn] at hf'
    refine ⟨⟨hf', ?_⟩, received_append _ _⟩
    show ps = received (r.got ++ [a]) ++ received (c.sent.drop (r.next + 1))
    rw [hps, hdrop, received_append, List.append_assoc, ← received_append [a]]
    rfl
  · rw [htaken, hturn]
    exact ⟨⟨hf, hps⟩, (List.append_nil _).symm⟩

end Carried

/-! ### `on_event` -/

theorem forwarded_append (xs ys : List Packet) : forwarded (xs ++ ys) = forwarded xs ++ forwarded ys :=
  List.filter_append ..

/-- `on_event` publishes one event at most, and of the packets exactly those that are no responses. -/
theorem received_published (lib : CompressionLib) (event : TransportEvent) :
    received (Transport.onEvent lib event).published = forwarded (received [event]) ∧
      (Transport.onEvent lib event).published.length ≤ 1 := by
  cases event with
  | messageReceived packet =>
    by_cases hresp : packet.header.packetType = .response
    · simp [Transport.onEvent, forwarded, received, TransportEvent.packet?, hresp]
    · rw [Transport.onEvent_forwards hresp]
      simp [forwarded, received, TransportEvent.packet?, hresp]
  | _ => exact ⟨rfl, Nat.le_refl _⟩

theorem received_flatMap_published (lib : CompressionLib) (taken : Option TransportEvent) :
    received (taken.toList.flatMap fun event => (Transport.onEvent lib event).published) =
        forwarded (received taken.toList) ∧
      (taken.toList.flatMap fun event => (Transport.onEvent lib event).published).length ≤ 1 := by
  cases taken with
  | none => exact ⟨rfl, Nat.zero_le _⟩
  | some event =>
    rw [Option.toList_some, List.flatMap_singleton]
    exact received_published lib event

/-! ### The law -/

theorem Inv.start : Inv start := ⟨rfl, rfl, rfl, rfl⟩

theorem Inv.nothingLost {s : State} (h : Inv s) : NothingLost s := ⟨h.consumer.eq, h.session.eq⟩

variable {lib : CompressionLib} {s s' : State} {l : Label}

theorem Inv.step (hs : step lib s l = some s') (hroom : HasRoom s l) (hsub : Subscribed s l) (h : Inv s) :
    Inv s' := by
  cases l with
  | publish event =>
    cases hs
    refine ⟨h.adapter_open, h.transport_open, ?_, h.session⟩
    show Carried (s.adapter.sendAll [event]) s.consumer (received (s.adapter.sent ++ [event]))
    rw [received_append]
    exact h.consumer.sendAll (fun r hr => hroom r hr) hsub
  | setConnection =>
    simp only [Startup.step] at hs
    split at hs
    · cases hs
      exact ⟨h.adapter_open, h.transport_open, h.consumer, h.session⟩
    · cases hs
  | spawnSession =>
    simp only [Startup.step] at hs
    split at hs
    · cases hs
      exact ⟨h.adapter_open, h.transport_open, h.consumer, h.session⟩
    · cases hs
  | consumerStart =>
    simp only [Startup.step] at hs
    split at hs
    · next hnew =>
      cases hs
      have hnone := Option.isNone_iff_eq_none.1 hnew.2
      have hconsumer := h.consumer
      have hsession := h.session
      rw [hnone] at hconsumer hsession
      exact ⟨h.adapter_open, h.transport_open, hconsumer.subscribe, hsession⟩
    · cases hs
  | sessionStart =>
    simp only [Startup.step] at hs
    split at hs
    · next hnew =>
      cases hs
      have hsession := h.session
      rw [Option.isNone_iff_eq_none.1 hnew.2] at hsession
      exact ⟨h.adapter_open, h.transport_open, h.consumer, hsession.subscribe⟩
    · cases hs
  | consumerPoll =>
    obtain ⟨r, hr, rfl⟩ := Option.map_eq_some_iff.1 hs
    have hconsumer := h.consumer
    have hsession := h.session
    rw [hr] at hconsumer hsession
    obtain ⟨hcarried, hgot⟩ := hconsumer.turn h.adapter_open
    obtain ⟨hpub, hlen⟩ := received_flatMap_published lib (r.taken s.adapter)
    refine ⟨h.adapter_open, h.transport_open, hcarried, ?_⟩
    show Carried (s.transport.sendAll _) s.session (forwarded (received (r.turn s.adapter).got))
    rw [hgot, forwarded_append, ← hpub]
    refine hsession.sendAll (fun q hq => ?_) (fun hne => hsub r hr (by rwa [← hpub]))
    have := hroom q hq
    omega
  | sessionPoll =>
    obtain ⟨r, hr, rfl⟩ := Option.map_eq_some_iff.1 hs
    have hsession := h.session
    rw [hr] at hsession
    exact ⟨h.adapter_open, h.transport_open, h.consumer, (hsession.turn h.transport_open).1⟩

theorem subscribed_of_nothingLost (hs : step lib s l = some s') (h : Inv s) (hlost : NothingLost s') :
    Subscribed s l := by
  cases l with
  | publish event =>
    cases hs
    intro hne
    by_contra hnone
    have hpassed := hlost.passed
    rw [show s.consumer = none from Option.not_isSome_iff_eq_none.1 hnone] at hpassed
    have hnil : received (s.adapter.sent ++ [event]) = [] := hpassed
    rw [received_append] at hnil
    exact hne (List.append_eq_nil_iff.1 hnil).2
  | consumerPoll =>
    obtain ⟨r, hr, rfl⟩ := Option.map_eq_some_iff.1 hs
    intro r' hr' hne
    cases hr.symm.trans hr'
    by_contra hnone
    have hconsumer := h.consumer
    rw [hr] at hconsumer
    have hhandled := hlost.handled
    rw [show s.session = none from Option.not_isSome_iff_eq_none.1 hnone] at hhandled
    have hnil : forwarded (received (r.turn s.adapter).got) = [] := hhandled
    rw [(hconsumer.turn h.adapter_open).2, forwarded_append] at hnil
    exact hne (List.append_eq_nil_iff.1 hnil).2
  | _ => trivial

open StepSystem

/-- In a run in which fewer events than the channels hold are outstanding, no packet is ever lost
exactly when every packet is sent to a task that has subscribed. -/
theorem nothingLost_iff {ls : List Label} (hr : run (step lib) start ls = some s)
    (hroom : Meets (step lib) HasRoom start ls) :
    Always (step lib) NothingLost start ls ↔ Meets (step lib) Subscribed start ls :=
  always_iff_meets (fun _ => Inv.nothingLost) (fun _ _ _ hs hroom hsub h => h.step hs hroom hsub)
    (fun _ _ _ hs _ h hlost => subscribed_of_nothingLost hs h hlost) hr hroom .start

/-- Both tasks have subscribed before a one-way packet comes, and the session task gets it. -/
theorem nothingLost_iff_subscribed_first :
    let lib : CompressionLib := ⟨none, none⟩
    let ls := [Label.setConnection, .consumerStart, .spawnSession, .sessionStart,
      .publish (.messageReceived (.oneWay 1 [104, 105])), .consumerPoll, .sessionPoll]
    (Always (step lib) NothingLost start ls ↔ Meets (step lib) Subscribed start ls) ∧ Meets (step lib) Subscribed start ls ∧
      (run (step lib) start ls).map (fun s => taken s.session) = some [.oneWay 1 [104, 105]] := by
  intro lib ls
  have hsome : (run (step lib) start ls).isSome := by decide
  obtain ⟨s, hr⟩ := Option.isSome_iff_exists.1 hsome
  exact ⟨nothingLost_iff hr (by decide), by decide, by decide⟩

/-- A packet parsed before the consumer task is scheduled: both tasks run, and it is never passed on. -/
theorem early_packet_lost :
    ∃ s, run (step ⟨none, none⟩) start [.setConnection, .publish (.messageReceived (.oneWay 1 [104, 105])),
        .consumerStart, .spawnSession, .sessionStart, .consumerPoll, .sessionPoll] = some s ∧
      ¬ NothingLost s := by
  refine ⟨_, rfl, fun h => ?_⟩
  have hpassed := h.passed
  revert hpassed
  decide

end Startup

end Msgtrans
