import Mathlib.Algebra.Order.Group.Multiset
import Msgtrans.Event
import Msgtrans.Lib.Indexed
import Msgtrans.Lib.Run

/-!
# The batching adapter (`transport/protocol_adapter.rs`)

Clones of a `FlumePoweredProtocolAdapter` share two queues, the statistics and the event channel, and any number of calls run on
them at once. A call takes packets off a queue one at a time, so that two batches may be collected in turns, and it counts
what it did afterwards, one counter at a time. `todo` is what a call has still to count or to report.

The channels are unbounded, and a send fails only when all their receivers are gone. Counters are in `ℕ`; a load sees the
remainder. The cache counters are not used by the adapter.
-/

namespace Msgtrans

namespace FlumeAdapter

inductive Counter where
  | packetsSent
  | bytesSent
  | sendErrors
  | packetsReceived
  | bytesReceived
  | receiveErrors
  | batchOperations
  | totalBatchSize
  | totalLatencyNs
  | operationCount
deriving DecidableEq, Repr

inductive ProtocolEvent where
  | packetSent (bytes : ℕ)
  | batchProcessed (size : ℕ)
  | connectionStatus (connected : Bool)
deriving DecidableEq, Repr

/-- One atomic update of the statistics, or one event. -/
inductive Effect where
  | add (counter : Counter) (n : ℕ)
  | maxBatchSize (size : ℕ)
  | event (e : ProtocolEvent)
deriving DecidableEq, Repr

def recordSend (bytes : ℕ) : List Effect := [.add .packetsSent 1, .add .bytesSent bytes]

def recordReceive (bytes : ℕ) : List Effect := [.add .packetsReceived 1, .add .bytesReceived bytes]

def recordBatch (batchSize : ℕ) : List Effect :=
  [.add .batchOperations 1, .add .totalBatchSize batchSize, .maxBatchSize batchSize]

def recordOperationLatency (latencyNs : ℕ) : List Effect := [.add .totalLatencyNs latencyNs, .add .operationCount 1]

inductive Side where
  | send
  | receive
deriving DecidableEq, Repr

def bytes (packets : List Packet) : ℕ := (packets.map fun p => p.payload.length).sum

/-- What a call has come to, with the time it took. -/
inductive Result where
  | sent (packet : Packet)
  | failed (error : TransportError)
  | batch (side : Side) (maxBatch : ℕ) (batch : List Packet)
  | stored (connected : Bool)
deriving DecidableEq, Repr

/-- What a call does next, when it has nothing to count. -/
inductive Next where
  | trySend (packet : Packet)
  | tryRecv (side : Side) (maxBatch : ℕ) (batch : List Packet)
  | store (connected : Bool)
  | finished (result : Result) (latencyNs : ℕ)
deriving DecidableEq, Repr

/-- A call on the clone `handle`. -/
structure Call where
  handle : ℕ
  todo : List Effect
  next : Next
deriving DecidableEq, Repr

structure State where
  queue : Side → List Packet
  counters : Counter → ℕ
  maxBatchSize : ℕ
  events : List ProtocolEvent
  /-- the receiver of the events is there -/
  listening : Bool
  /-- `is_connected` of each clone, until it is dropped -/
  handles : List (Option Bool)
  calls : List Call
  /-- the packets that came into each queue, and those that left it, in order -/
  entered : Side → List Packet
  taken : Side → List Packet
  /-- the events that nobody was there to receive -/
  unheard : List ProtocolEvent

/-- `FlumePoweredProtocolAdapter::new` -/
def new : State where
  queue := fun _ => []
  counters := fun _ => 0
  maxBatchSize := 0
  events := []
  listening := true
  handles := [some true]
  calls := []
  entered := fun _ => []
  taken := fun _ => []
  unheard := []

namespace State

def apply (s : State) : Effect → State
  | .add counter n => { s with counters := Function.update s.counters counter (s.counters counter + n) }
  | .maxBatchSize size => { s with maxBatchSize := max s.maxBatchSize size }
  | .event e => if s.listening then { s with events := s.events ++ [e] } else { s with unheard := s.unheard ++ [e] }

def push (s : State) (side : Side) (packet : Packet) : State :=
  { s with
    queue := Function.update s.queue side (s.queue side ++ [packet])
    entered := Function.update s.entered side (s.entered side ++ [packet]) }

def pop (s : State) (side : Side) (packet : Packet) (rest : List Packet) : State :=
  { s with
    queue := Function.update s.queue side rest
    taken := Function.update s.taken side (s.taken side ++ [packet]) }

def put (s : State) (i : ℕ) (c : Call) : State := { s with calls := s.calls.set i c }

/-- Every clone owns both ends of both queues. -/
def hasReceiver (s : State) : Bool := s.handles.any Option.isSome

/-- What a load of a counter returns. -/
def load (s : State) (counter : Counter) : ℕ := s.counters counter % 2 ^ 64

end State

/-- What a call does about a packet that it has taken. -/
def takenEffects : Side → Packet → List Effect
  | .send, _ => []
  | .receive, packet => recordReceive packet.payload.length

/-- What it does when it has collected its batch. A send batch that is empty is not counted at all. -/
def batchEffects (side : Side) (batch : List Packet) (latencyNs : ℕ) : List Effect :=
  match side with
  | .send =>
    if batch.isEmpty then []
    else recordBatch batch.length ++ [.add .bytesSent (bytes batch)] ++ recordOperationLatency latencyNs ++
      [.event (.batchProcessed batch.length)]
  | .receive =>
    (if batch.isEmpty then [] else recordBatch batch.length ++ [.event (.batchProcessed batch.length)]) ++
      recordOperationLatency latencyNs

def sentEffects (size latencyNs : ℕ) : List Effect :=
  recordSend size ++ [.event (.packetSent size)] ++ recordOperationLatency latencyNs

def channelFull : TransportError := .connection "Channel full: protocol_send" false

def fullEffects (latencyNs : ℕ) : List Effect := .add .sendErrors 1 :: recordOperationLatency latencyNs

/-- The next step of a call: an effect, or what it does next. -/
def exec (s : State) (latencyNs : ℕ) (c : Call) : Option (Call × State) :=
  match c.todo with
  | e :: todo => some ({ c with todo := todo }, s.apply e)
  | [] =>
    match c.next with
    | .trySend packet =>
      if s.hasReceiver then
        some (⟨c.handle, sentEffects packet.payload.length latencyNs, .finished (.sent packet) latencyNs⟩, s.push .send packet)
      else some (⟨c.handle, fullEffects latencyNs, .finished (.failed channelFull) latencyNs⟩, s)
    | .tryRecv side maxBatch batch =>
      let ended : Call := ⟨c.handle, batchEffects side batch latencyNs, .finished (.batch side maxBatch batch) latencyNs⟩
      if batch.length < maxBatch then
        match s.queue side with
        | packet :: rest => some (⟨c.handle, takenEffects side packet, .tryRecv side maxBatch (batch ++ [packet])⟩,
            s.pop side packet rest)
        | [] => some (ended, s)
      else some (ended, s)
    | .store connected =>
      some (⟨c.handle, [.event (.connectionStatus connected)], .finished (.stored connected) latencyNs⟩,
        { s with handles := s.handles.set c.handle (some connected) })
    | .finished _ _ => none

inductive Method where
  | sendNowait (packet : Packet)
  | processSendBatch (maxBatch : ℕ)
  | processReceiveBatch (maxBatch : ℕ)
  | setConnected (connected : Bool)

def Method.first : Method → Next
  | .sendNowait packet => .trySend packet
  | .processSendBatch maxBatch => .tryRecv .send maxBatch []
  | .processReceiveBatch maxBatch => .tryRecv .receive maxBatch []
  | .setConnected connected => .store connected

def Call.returned (c : Call) : Bool :=
  match c.todo, c.next with
  | [], .finished _ _ => true
  | _, _ => false

def State.alive (s : State) (handle : ℕ) : Bool := (s.handles[handle]?.getD none).isSome

inductive Label where
  | call (handle : ℕ) (method : Method)
  | run (i : ℕ) (latencyNs : ℕ)
  /-- `simulate_receive` -/
  | simulateReceive (handle : ℕ) (packet : Packet)
  | clone (handle : ℕ)
  /-- no call holds a reference to the clone any more -/
  | drop (handle : ℕ)
  | stopListening

def step (s : State) : Label → Option State
  | .call handle method =>
    if s.alive handle then some { s with calls := s.calls ++ [⟨handle, [], method.first⟩] } else none
  | .run i latencyNs => s.calls[i]?.bind fun c => (exec s latencyNs c).map fun x => x.2.put i x.1
  | .simulateReceive handle packet =>
    if s.alive handle then some (if s.hasReceiver then s.push .receive packet else s) else none
  | .clone handle => if s.alive handle then some { s with handles := s.handles ++ [s.handles[handle]?.getD none] } else none
  | .drop handle =>
    if s.alive handle ∧ s.calls.all (fun c => c.returned || c.handle != handle) then
      some { s with handles := s.handles.set handle none }
    else none
  | .stopListening => some { s with listening := false }

/-! ### What is kept -/

def State.sum {M : Type} [AddCommMonoid M] (s : State) (f : Call → M) : M := (s.calls.map f).sum

def Effect.amount (counter : Counter) : Effect → ℕ
  | .add c n => if c = counter then n else 0
  | _ => 0

def amount (counter : Counter) (effects : List Effect) : ℕ := (effects.map (Effect.amount counter)).sum

def Effect.event? : Effect → Option ProtocolEvent
  | .event e => some e
  | _ => none

def eventsOf (effects : List Effect) : Multiset ProtocolEvent := (effects.filterMap Effect.event? : List ProtocolEvent)

namespace Next

/-- All that a call has decided to count or report so far. -/
def effects : Next → List Effect
  | .trySend _ | .store _ => []
  | .tryRecv side _ batch => batch.flatMap (takenEffects side)
  | .finished (.sent packet) latencyNs => sentEffects packet.payload.length latencyNs
  | .finished (.failed _) latencyNs => fullEffects latencyNs
  | .finished (.batch side _ batch) latencyNs => batch.flatMap (takenEffects side) ++ batchEffects side batch latencyNs
  | .finished (.stored connected) _ => [.event (.connectionStatus connected)]

def sent : Next → Multiset Packet
  | .finished (.sent packet) _ => {packet}
  | _ => 0

/-- The packets a call has taken from a queue, and the most it may take. -/
def batch? : Next → Option (Side × ℕ × List Packet)
  | .tryRecv side maxBatch batch => some (side, maxBatch, batch)
  | .finished (.batch side maxBatch batch) _ => some (side, maxBatch, batch)
  | _ => none

def batchOf (side : Side) (n : Next) : Multiset Packet :=
  match n.batch? with
  | some (side', _, batch) => if side' = side then batch else 0
  | none => 0

def fails : Next → Bool
  | .finished (.failed _) _ => true
  | _ => false

end Next

/-- What a call does when it has nothing to count, with what it then has to count. -/
inductive Acts (s : State) (handle latencyNs : ℕ) : Next → List Effect → Next → State → Prop
  | sent (packet : Packet) : s.hasReceiver = true → Acts s handle latencyNs (.trySend packet)
      (sentEffects packet.payload.length latencyNs) (.finished (.sent packet) latencyNs) (s.push .send packet)
  | failed (packet : Packet) : s.hasReceiver = false → Acts s handle latencyNs (.trySend packet) (fullEffects latencyNs)
      (.finished (.failed channelFull) latencyNs) s
  | took (side : Side) (maxBatch : ℕ) (batch : List Packet) (packet : Packet) (rest : List Packet) :
      batch.length < maxBatch → s.queue side = packet :: rest → Acts s handle latencyNs (.tryRecv side maxBatch batch)
        (takenEffects side packet) (.tryRecv side maxBatch (batch ++ [packet])) (s.pop side packet rest)
  | ended (side : Side) (maxBatch : ℕ) (batch : List Packet) : Acts s handle latencyNs (.tryRecv side maxBatch batch)
      (batchEffects side batch latencyNs) (.finished (.batch side maxBatch batch) latencyNs) s
  | stored (connected : Bool) : Acts s handle latencyNs (.store connected) [.event (.connectionStatus connected)]
      (.finished (.stored connected) latencyNs) { s with handles := s.handles.set handle (some connected) }

variable {s s' s₁ : State} {c c' : Call} {i latencyNs : ℕ} {l : Label} {ls : List Label}

theorem exec_cases (h : exec s latencyNs c = some (c', s₁)) :
    (∃ e todo, c.todo = e :: todo ∧ c' = ⟨c.handle, todo, c.next⟩ ∧ s₁ = s.apply e) ∨
    (c.todo = [] ∧ c'.handle = c.handle ∧ Acts s c.handle latencyNs c.next c'.todo c'.next s₁) := by
  obtain ⟨handle, todo, next⟩ := c
  cases todo with
  | cons e todo =>
    cases h
    exact .inl ⟨e, todo, rfl, rfl, rfl⟩
  | nil =>
    refine .inr ⟨rfl, ?_⟩
    cases next with
    | trySend packet =>
      change (if s.hasReceiver then _ else _) = some (c', s₁) at h
      split at h
      · next hr => cases h; exact ⟨rfl, .sent packet hr⟩
      · next hr => cases h; exact ⟨rfl, .failed packet (Bool.eq_false_of_not_eq_true hr)⟩
    | tryRecv side maxBatch batch =>
      change (if batch.length < maxBatch then _ else _) = some (c', s₁) at h
      split at h
      · next hlt =>
        split at h
        · next packet rest hq => cases h; exact ⟨rfl, .took side maxBatch batch packet rest hlt hq⟩
        · cases h; exact ⟨rfl, .ended side maxBatch batch⟩
      · cases h; exact ⟨rfl, .ended side maxBatch batch⟩
    | store connected => cases h; exact ⟨rfl, .stored connected⟩
    | finished result latencyNs => cases h

theorem Acts.effects {handle : ℕ} {n n' : Next} {todo : List Effect} (h : Acts s handle latencyNs n todo n' s₁) :
    n'.effects = n.effects ++ todo := by
  cases h with
  | took side maxBatch batch packet rest => simp [Next.effects]
  | _ => rfl

theorem amount_append (counter : Counter) (xs ys : List Effect) :
    amount counter (xs ++ ys) = amount counter xs + amount counter ys := by
  rw [amount, List.map_append, List.sum_append]
  rfl

theorem amount_cons (counter : Counter) (e : Effect) (es : List Effect) :
    amount counter (e :: es) = e.amount counter + amount counter es := by
  rw [amount, List.map_cons, List.sum_cons]
  rfl

theorem eventsOf_append (xs ys : List Effect) : eventsOf (xs ++ ys) = eventsOf xs + eventsOf ys := by
  rw [eventsOf, List.filterMap_append]
  rfl

theorem counters_apply (e : Effect) (counter : Counter) :
    (s.apply e).counters counter = s.counters counter + e.amount counter := by
  cases e with
  | add c n =>
    show Function.update s.counters c (s.counters c + n) counter = s.counters counter + if c = counter then n else 0
    by_cases hc : c = counter
    · rw [hc, Function.update_self, if_pos rfl]
    · rw [Function.update_of_ne (Ne.symm hc), if_neg hc]
      rfl
  | maxBatchSize size => rfl
  | event e => rw [State.apply]; split <;> rfl

/-- The events, and those that nobody heard. -/
def State.allEvents (s : State) : Multiset ProtocolEvent :=
  (s.events : Multiset ProtocolEvent) + (s.unheard : Multiset ProtocolEvent)

theorem allEvents_apply (e : Effect) : (s.apply e).allEvents = s.allEvents + eventsOf [e] := by
  cases e with
  | event e =>
    rw [State.apply]
    split
    · show ((s.events ++ [e] : List ProtocolEvent) : Multiset ProtocolEvent) + s.unheard = _
      rw [← Multiset.coe_add, State.allEvents, add_right_comm]
      rfl
    · show (s.events : Multiset ProtocolEvent) + ((s.unheard ++ [e] : List ProtocolEvent) : Multiset ProtocolEvent) = _
      rw [← Multiset.coe_add, State.allEvents, add_assoc]
      rfl
  | _ => exact (add_zero _).symm

/-- An effect changes the statistics and the events only. -/
theorem frame_apply (e : Effect) : (s.apply e).queue = s.queue ∧ (s.apply e).entered = s.entered ∧ (s.apply e).taken = s.taken ∧
    (s.apply e).handles = s.handles ∧ (s.apply e).calls = s.calls := by
  cases e with
  | event e => rw [State.apply]; split <;> exact ⟨rfl, rfl, rfl, rfl, rfl⟩
  | _ => exact ⟨rfl, rfl, rfl, rfl, rfl⟩

theorem sum_put {M : Type} [AddCommMonoid M] {f : Call → M} (hcalls : s₁.calls = s.calls) (hc : s.calls[i]? = some c) :
    (s₁.put i c').sum f + f c = s.sum f + f c' := by
  rw [State.sum, State.put, hcalls]
  exact Indexed.sum_map_set_add hc

/-- A call that pays an effect stays where it is. -/
theorem sum_pay {M : Type} [AddCommMonoid M] (f : Next → M) (hcalls : s₁.calls = s.calls) (hc : s.calls[i]? = some c)
    (todo : List Effect) : (s₁.put i ⟨c.handle, todo, c.next⟩).sum (fun c => f c.next) = s.sum fun c => f c.next := by
  have hmap : (s.calls.set i ⟨c.handle, todo, c.next⟩).map (fun c => f c.next) = s.calls.map fun c => f c.next :=
    Indexed.map_set_of_eq hc rfl
  rw [State.sum, State.put, hcalls]
  exact congrArg List.sum hmap

theorem mem_put (hcalls : s₁.calls = s.calls) {d : Call} (hd : d ∈ (s₁.put i c').calls) : d ∈ s.calls ∨ d = c' := by
  rw [State.put, hcalls] at hd
  exact List.mem_or_eq_of_mem_set hd

theorem sum_begin {M : Type} [AddCommMonoid M] {f : Call → M} :
    State.sum { s with calls := s.calls ++ [c] } f = s.sum f + f c := by
  rw [State.sum, List.map_append, List.sum_append, List.map_singleton, List.sum_singleton]
  rfl

/-- Where the packets are. -/
structure Flow (s : State) : Prop where
  fifo : ∀ side, s.entered side = s.taken side ++ s.queue side
  sent : s.sum (fun c => c.next.sent) = (s.entered .send : Multiset Packet)
  batches : ∀ side, s.sum (fun c => c.next.batchOf side) = (s.taken side : Multiset Packet)
  each : ∀ c ∈ s.calls, ∀ side maxBatch batch, c.next.batch? = some (side, maxBatch, batch) →
    List.Sublist batch (s.taken side) ∧ batch.length ≤ maxBatch

/-- What has been counted, and what is to be. -/
structure Books (s : State) : Prop where
  counters : ∀ counter, s.counters counter + s.sum (fun c => amount counter c.todo) =
    s.sum fun c => amount counter c.next.effects
  events : s.allEvents + s.sum (fun c => eventsOf c.todo) = s.sum fun c => eventsOf c.next.effects
  heard : s.listening = true → s.unheard = []
  suffix : ∀ c ∈ s.calls, c.todo <:+ c.next.effects
  largest : ∀ c ∈ s.calls, ∀ n, .maxBatchSize n ∈ c.next.effects → n ≤ s.maxBatchSize ∨ .maxBatchSize n ∈ c.todo
  attained : s.maxBatchSize = 0 ∨ ∃ c ∈ s.calls, .maxBatchSize s.maxBatchSize ∈ c.next.effects

/-- The clone of a call that runs is there, so that no send finds its queue without a receiver. -/
structure Held (s : State) : Prop where
  alive : ∀ c ∈ s.calls, c.returned = false → s.alive c.handle = true
  succeed : ∀ c ∈ s.calls, c.next.fails = false

structure Inv (s : State) : Prop where
  flow : Flow s
  books : Books s
  held : Held s

theorem Flow.pay {e : Effect} {todo : List Effect} (h : Flow s) (hc : s.calls[i]? = some c) :
    Flow ((s.apply e).put i ⟨c.handle, todo, c.next⟩) := by
  obtain ⟨hqueue, hentered, htaken, -, hcalls⟩ := frame_apply (s := s) e
  refine ⟨fun side => ?_, ?_, fun side => ?_, fun d hd => ?_⟩
  · show (s.apply e).entered side = (s.apply e).taken side ++ (s.apply e).queue side
    rw [hqueue, hentered, htaken]
    exact h.fifo side
  · refine (sum_pay Next.sent hcalls hc todo).trans (h.sent.trans ?_)
    rw [← hentered]
    rfl
  · refine (sum_pay (Next.batchOf side) hcalls hc todo).trans ((h.batches side).trans ?_)
    rw [← htaken]
    rfl
  · show ∀ side maxBatch batch, _ → List.Sublist batch ((s.apply e).taken side) ∧ _
    rw [htaken]
    obtain hd | rfl := mem_put hcalls hd
    · exact h.each d hd
    · exact h.each c (List.mem_of_getElem? hc)

theorem Books.pay {e : Effect} {todo : List Effect} (h : Books s) (hc : s.calls[i]? = some c) (htodo : c.todo = e :: todo) :
    Books ((s.apply e).put i ⟨c.handle, todo, c.next⟩) := by
  have hmem := List.mem_of_getElem? hc
  have hcalls := (frame_apply (s := s) e).2.2.2.2
  have hle : s.maxBatchSize ≤ (s.apply e).maxBatchSize := by
    cases e with
    | maxBatchSize size => exact Nat.le_max_left ..
    | event e => rw [State.apply]; split <;> exact Nat.le_refl _
    | _ => exact Nat.le_refl _
  refine ⟨fun counter => ?_, ?_, ?_, fun d hd => ?_, fun d hd n hn => ?_, ?_⟩
  · have hbooks := h.counters counter
    have hsum : ((s.apply e).put i ⟨c.handle, todo, c.next⟩).sum (fun c => amount counter c.todo) + amount counter c.todo =
        s.sum (fun c => amount counter c.todo) + amount counter todo := sum_put hcalls hc
    rw [htodo, amount_cons] at hsum
    refine Eq.trans ?_ (sum_pay (fun n => amount counter n.effects) hcalls hc todo).symm
    show (s.apply e).counters counter + _ = _
    rw [counters_apply]
    omega
  · have hsum : ((s.apply e).put i ⟨c.handle, todo, c.next⟩).sum (fun c => eventsOf c.todo) + eventsOf c.todo =
        s.sum (fun c => eventsOf c.todo) + eventsOf todo := sum_put hcalls hc
    rw [htodo, show eventsOf (e :: todo) = eventsOf [e] + eventsOf todo from eventsOf_append [e] todo, ← add_assoc] at hsum
    refine Eq.trans ?_ (h.events.trans (sum_pay (fun n => eventsOf n.effects) hcalls hc todo).symm)
    rw [← add_right_cancel hsum]
    show (s.apply e).allEvents + _ = _
    rw [allEvents_apply, add_assoc, add_comm (eventsOf [e])]
  · intro hl
    cases e with
    | event e =>
      have hlisten : s.listening = true := by
        revert hl
        show (s.apply (.event e)).listening = true → _
        rw [State.apply]
        split <;> exact id
      show (s.apply (.event e)).unheard = []
      rw [State.apply, if_pos hlisten]
      exact h.heard hlisten
    | _ => exact h.heard hl
  · obtain hd | rfl := mem_put hcalls hd
    · exact h.suffix d hd
    · refine List.IsSuffix.trans ?_ (h.suffix c hmem)
      rw [htodo]
      exact List.suffix_cons e todo
  · obtain hd | rfl := mem_put hcalls hd
    · exact (h.largest d hd n hn).imp_left hle.trans'
    · obtain hn | hn := h.largest c hmem n hn
      · exact .inl (hle.trans' hn)
      · rw [htodo] at hn
        obtain heq | hn := List.mem_cons.1 hn
        · refine .inl ?_
          rw [← heq]
          exact Nat.le_max_right ..
        · exact .inr hn
  · have hkeep : ∀ n, (∃ d ∈ s.calls, Effect.maxBatchSize n ∈ d.next.effects) →
        ∃ d ∈ ((s.apply e).put i ⟨c.handle, todo, c.next⟩).calls, Effect.maxBatchSize n ∈ d.next.effects := by
      rintro n ⟨d, hd, hn⟩
      rw [State.put, hcalls]
      by_cases heq : d = c
      · exact ⟨_, Indexed.mem_set_self_of_some hc, heq ▸ hn⟩
      · exact ⟨d, Indexed.mem_set_of_ne hc hd heq, hn⟩
    have hin : e ∈ c.next.effects := (h.suffix c hmem).subset (by rw [htodo]; exact List.mem_cons_self)
    show (s.apply e).maxBatchSize = 0 ∨ ∃ d ∈ _, Effect.maxBatchSize (s.apply e).maxBatchSize ∈ _
    have hsame : (s.apply e).maxBatchSize = s.maxBatchSize ∨ e = .maxBatchSize (s.apply e).maxBatchSize := by
      cases e with
      | maxBatchSize size =>
        obtain hmax | hmax := Nat.le_total size s.maxBatchSize
        · exact .inl (Nat.max_eq_left hmax)
        · exact .inr (congrArg Effect.maxBatchSize (Nat.max_eq_right hmax).symm)
      | event e => refine .inl ?_; rw [State.apply]; split <;> rfl
      | _ => exact .inl rfl
    obtain hsame | hsame := hsame
    · rw [hsame]
      exact h.attained.imp_right (hkeep _)
    · exact .inr (hkeep _ ⟨c, hmem, hsame ▸ hin⟩)

section act

variable {handle : ℕ} {n n' : Next} {todo : List Effect}

theorem Acts.calls (ha : Acts s handle latencyNs n todo n' s₁) : s₁.calls = s.calls := by cases ha <;> rfl

/-- The statistics and the events are left for later. -/
theorem Acts.frame (ha : Acts s handle latencyNs n todo n' s₁) : s₁.counters = s.counters ∧ s₁.maxBatchSize = s.maxBatchSize ∧
    s₁.allEvents = s.allEvents ∧ s₁.listening = s.listening ∧ s₁.unheard = s.unheard := by
  cases ha <;> exact ⟨rfl, rfl, rfl, rfl, rfl⟩

theorem coe_concat (ps : List Packet) (packet : Packet) : ((ps ++ [packet] : List Packet) : Multiset Packet) = ps + {packet} :=
  (Multiset.coe_add ps [packet]).symm

theorem Acts.fifo (ha : Acts s handle latencyNs n todo n' s₁) (h : ∀ side, s.entered side = s.taken side ++ s.queue side)
    (side : Side) : s₁.entered side = s₁.taken side ++ s₁.queue side := by
  cases ha with
  | sent packet hr =>
    cases side with
    | send => simp [State.push, h .send]
    | receive => exact h .receive
  | took side' maxBatch batch packet rest hlt hq =>
    by_cases hside : side = side'
    · rw [hside]
      simp [State.pop, h side', hq]
    · simp [State.pop, hside, h side]
  | _ => exact h side

theorem Acts.sent_eq (ha : Acts s handle latencyNs n todo n' s₁) :
    (s₁.entered .send : Multiset Packet) + n.sent = s.entered .send + n'.sent := by
  cases ha with
  | sent packet hr =>
    show ((Function.update s.entered .send (s.entered .send ++ [packet]) .send : List Packet) : Multiset Packet) + 0 = _
    rw [Function.update_self, add_zero, coe_concat]
    rfl
  | _ => rfl

theorem Acts.batch_eq (ha : Acts s handle latencyNs n todo n' s₁) (side : Side) :
    (s₁.taken side : Multiset Packet) + n.batchOf side = s.taken side + n'.batchOf side := by
  cases ha with
  | took side' maxBatch batch packet rest hlt hq =>
    show ((Function.update s.taken side' (s.taken side' ++ [packet]) side : List Packet) : Multiset Packet) +
      (if side' = side then (batch : Multiset Packet) else 0) =
      s.taken side + if side' = side then ((batch ++ [packet] : List Packet) : Multiset Packet) else 0
    by_cases hside : side' = side
    · rw [hside, Function.update_self, if_pos rfl, if_pos rfl, coe_concat, coe_concat, add_assoc,
        add_comm ({packet} : Multiset Packet)]
    · rw [Function.update_of_ne (Ne.symm hside), if_neg hside, if_neg hside]
  | _ => rfl

theorem Acts.sublist (ha : Acts s handle latencyNs n todo n' s₁) (side : Side) : List.Sublist (s.taken side) (s₁.taken side) := by
  cases ha with
  | took side' maxBatch batch packet rest hlt hq =>
    show List.Sublist _ (Function.update s.taken side' (s.taken side' ++ [packet]) side)
    by_cases hside : side = side'
    · rw [hside, Function.update_self]
      exact List.sublist_append_left ..
    · rw [Function.update_of_ne hside]
  | _ => exact List.Sublist.refl _

theorem Acts.batch (ha : Acts s handle latencyNs n todo n' s₁)
    (h : ∀ side maxBatch batch, n.batch? = some (side, maxBatch, batch) →
      List.Sublist batch (s.taken side) ∧ batch.length ≤ maxBatch)
    (side : Side) (maxBatch : ℕ) (batch : List Packet) (hbatch : n'.batch? = some (side, maxBatch, batch)) :
    List.Sublist batch (s₁.taken side) ∧ batch.length ≤ maxBatch := by
  cases ha with
  | took side' maxBatch' batch' packet rest hlt hq =>
    cases hbatch
    refine ⟨?_, by rw [List.length_append]; exact hlt⟩
    show List.Sublist _ (Function.update s.taken side (s.taken side ++ [packet]) side)
    rw [Function.update_self]
    exact (h side maxBatch batch' rfl).1.append (List.Sublist.refl _)
  | ended => exact h side maxBatch batch hbatch
  | sent => cases hbatch
  | failed => cases hbatch
  | stored => cases hbatch

theorem Flow.act (h : Flow s) (hc : s.calls[i]? = some ⟨handle, [], n⟩) (ha : Acts s handle latencyNs n todo n' s₁) :
    Flow (s₁.put i ⟨handle, todo, n'⟩) := by
  refine ⟨ha.fifo h.fifo, ?_, fun side => ?_, fun d hd => ?_⟩
  · have hsum : (s₁.put i ⟨handle, todo, n'⟩).sum (fun c => c.next.sent) + n.sent = s.sum (fun c => c.next.sent) + n'.sent :=
      sum_put ha.calls hc
    rw [h.sent, ← ha.sent_eq] at hsum
    exact add_right_cancel hsum
  · have hsum : (s₁.put i ⟨handle, todo, n'⟩).sum (fun c => c.next.batchOf side) + n.batchOf side =
        s.sum (fun c => c.next.batchOf side) + n'.batchOf side := sum_put ha.calls hc
    rw [h.batches, ← ha.batch_eq] at hsum
    exact add_right_cancel hsum
  · obtain hd | rfl := mem_put ha.calls hd
    · intro side maxBatch batch hbatch
      obtain ⟨hsub, hle⟩ := h.each d hd side maxBatch batch hbatch
      exact ⟨hsub.trans (ha.sublist side), hle⟩
    · exact ha.batch (h.each _ (List.mem_of_getElem? hc))

theorem Books.act (h : Books s) (hc : s.calls[i]? = some ⟨handle, [], n⟩) (ha : Acts s handle latencyNs n todo n' s₁) :
    Books (s₁.put i ⟨handle, todo, n'⟩) := by
  have hmem := List.mem_of_getElem? hc
  obtain ⟨hcounters, hmax, hevents, hlistening, hunheard⟩ := ha.frame
  refine ⟨fun counter => ?_, ?_, ?_, fun d hd => ?_, fun d hd m hm => ?_, ?_⟩
  · have hbooks := h.counters counter
    have howed : (s₁.put i ⟨handle, todo, n'⟩).sum (fun c => amount counter c.todo) + 0 =
        s.sum (fun c => amount counter c.todo) + amount counter todo := sum_put ha.calls hc
    have hall : (s₁.put i ⟨handle, todo, n'⟩).sum (fun c => amount counter c.next.effects) + amount counter n.effects =
        s.sum (fun c => amount counter c.next.effects) + amount counter n'.effects := sum_put ha.calls hc
    rw [ha.effects, amount_append] at hall
    show s₁.counters counter + _ = _
    rw [hcounters]
    omega
  · have howed : (s₁.put i ⟨handle, todo, n'⟩).sum (fun c => eventsOf c.todo) + 0 =
        s.sum (fun c => eventsOf c.todo) + eventsOf todo := sum_put ha.calls hc
    have hall : (s₁.put i ⟨handle, todo, n'⟩).sum (fun c => eventsOf c.next.effects) + eventsOf n.effects =
        s.sum (fun c => eventsOf c.next.effects) + eventsOf n'.effects := sum_put ha.calls hc
    rw [ha.effects, eventsOf_append, ← h.events, ← add_assoc, add_right_comm, add_assoc s.allEvents] at hall
    show s₁.allEvents + _ = _
    rw [hevents, add_right_cancel hall, ← howed, add_zero]
  · show s₁.listening = true → s₁.unheard = []
    rw [hlistening, hunheard]
    exact h.heard
  · obtain hd | rfl := mem_put ha.calls hd
    · exact h.suffix d hd
    · show todo <:+ n'.effects
      rw [ha.effects]
      exact List.suffix_append ..
  · show m ≤ s₁.maxBatchSize ∨ _
    rw [hmax]
    obtain hd | rfl := mem_put ha.calls hd
    · exact h.largest d hd m hm
    · change _ ∈ n'.effects at hm
      rw [ha.effects] at hm
      obtain hm | hm := List.mem_append.1 hm
      · exact (h.largest _ hmem m hm).imp_right nofun
      · exact .inr hm
  · show s₁.maxBatchSize = 0 ∨ ∃ d ∈ s₁.calls.set i _, Effect.maxBatchSize s₁.maxBatchSize ∈ _
    rw [hmax, ha.calls]
    refine h.attained.imp_right ?_
    rintro ⟨d, hd, hm⟩
    by_cases heq : d = ⟨handle, [], n⟩
    · refine ⟨_, Indexed.mem_set_self_of_some hc, ?_⟩
      rw [heq] at hm
      show _ ∈ n'.effects
      rw [ha.effects]
      exact List.mem_append_left _ hm
    · exact ⟨d, Indexed.mem_set_of_ne hc hd heq, hm⟩

theorem alive_set {s : State} {k : ℕ} {connected : Bool} {hs : List (Option Bool)}
    (hh : hs = s.handles.set handle (some connected)) (h : s.alive k = true) : State.alive { s with handles := hs } k = true := by
  show (hs[k]?.getD none).isSome = true
  change (s.handles[k]?.getD none).isSome = true at h
  rw [hh, List.getElem?_set]
  by_cases hk : handle = k
  · rw [if_pos hk]
    split
    · rfl
    · next hlt =>
      rw [hk] at hlt
      rw [List.getElem?_eq_none (Nat.le_of_not_lt hlt)] at h
      cases h
  · rwa [if_neg hk]

theorem Acts.alive (ha : Acts s handle latencyNs n todo n' s₁) {k : ℕ} (h : s.alive k = true) : s₁.alive k = true := by
  cases ha with
  | stored connected => exact alive_set rfl h
  | _ => exact h

theorem hasReceiver_of_alive {k : ℕ} (h : s.alive k = true) : s.hasReceiver = true := by
  cases hk : s.handles[k]? with
  | none => rw [State.alive, hk] at h; cases h
  | some flag =>
    rw [State.alive, hk] at h
    exact List.any_eq_true.2 ⟨flag, List.mem_of_getElem? hk, h⟩

theorem Held.act (h : Held s) (hc : s.calls[i]? = some ⟨handle, [], n⟩) (ha : Acts s handle latencyNs n todo n' s₁) :
    Held (s₁.put i ⟨handle, todo, n'⟩) := by
  have hmem := List.mem_of_getElem? hc
  have hrun : Call.returned ⟨handle, [], n⟩ = false := by cases ha <;> rfl
  have halive := h.alive _ hmem hrun
  refine ⟨fun d hd hret => ?_, fun d hd => ?_⟩
  · show s₁.alive d.handle = true
    obtain hd | rfl := mem_put ha.calls hd
    · exact ha.alive (h.alive d hd hret)
    · exact ha.alive halive
  · obtain hd | rfl := mem_put ha.calls hd
    · exact h.succeed d hd
    · cases ha with
      | failed packet hr =>
        rw [hasReceiver_of_alive halive] at hr
        cases hr
      | _ => rfl

end act

theorem Held.pay {e : Effect} {todo : List Effect} (h : Held s) (hc : s.calls[i]? = some c) (htodo : c.todo = e :: todo) :
    Held ((s.apply e).put i ⟨c.handle, todo, c.next⟩) := by
  obtain ⟨-, -, -, hhandles, hcalls⟩ := frame_apply (s := s) e
  have hmem := List.mem_of_getElem? hc
  have hrun : c.returned = false := by rw [Call.returned, htodo]
  refine ⟨fun d hd hret => ?_, fun d hd => ?_⟩
  · show (((s.apply e).handles)[d.handle]?.getD none).isSome = true
    rw [hhandles]
    obtain hd | rfl := mem_put hcalls hd
    · exact h.alive d hd hret
    · exact h.alive c hmem hrun
  · obtain hd | rfl := mem_put hcalls hd
    · exact h.succeed d hd
    · exact h.succeed c hmem

theorem Inv.run (h : Inv s) (hs : step s (.run i latencyNs) = some s') : Inv s' := by
  obtain ⟨c, hc, hs⟩ := Option.bind_eq_some_iff.1 hs
  obtain ⟨⟨c', s₁⟩, he, rfl⟩ := Option.map_eq_some_iff.1 hs
  obtain ⟨e, todo, htodo, rfl, rfl⟩ | ⟨htodo, hhandle, ha⟩ := exec_cases he
  · exact ⟨h.flow.pay hc, h.books.pay hc htodo, h.held.pay hc htodo⟩
  · obtain ⟨handle, todo, n⟩ := c
    obtain ⟨handle', todo', n'⟩ := c'
    cases htodo
    cases hhandle
    exact ⟨h.flow.act hc ha, h.books.act hc ha, h.held.act hc ha⟩

theorem Inv.call {handle : ℕ} {method : Method} (h : Inv s) (halive : s.alive handle = true) :
    Inv { s with calls := s.calls ++ [⟨handle, [], method.first⟩] } := by
  have hmem : ∀ d ∈ s.calls ++ [⟨handle, [], method.first⟩], d ∈ s.calls ∨ d = ⟨handle, [], method.first⟩ := by
    intro d hd
    exact (List.mem_append.1 hd).imp_right List.mem_singleton.1
  have heffects : method.first.effects = [] := by cases method <;> rfl
  refine ⟨⟨h.flow.fifo, ?_, fun side => ?_, fun d hd => ?_⟩,
    ⟨fun counter => ?_, ?_, h.books.heard, fun d hd => ?_, fun d hd m hm => ?_, ?_⟩,
    ⟨fun d hd hret => ?_, fun d hd => ?_⟩⟩
  · have hnone : method.first.sent = 0 := by cases method <;> rfl
    rw [sum_begin, hnone, add_zero]
    exact h.flow.sent
  · have hnone : method.first.batchOf side = 0 := by
      cases method with
      | processSendBatch => exact ite_self 0
      | processReceiveBatch => exact ite_self 0
      | _ => rfl
    rw [sum_begin, hnone, add_zero]
    exact h.flow.batches side
  · obtain hd | rfl := hmem d hd
    · exact h.flow.each d hd
    · intro side maxBatch batch hbatch
      cases method <;> cases hbatch
      · exact ⟨List.nil_sublist _, Nat.zero_le _⟩
      · exact ⟨List.nil_sublist _, Nat.zero_le _⟩
  · rw [sum_begin, sum_begin, heffects]
    exact h.books.counters counter
  · rw [sum_begin, sum_begin, heffects, ← add_assoc]
    exact congrArg (· + (0 : Multiset ProtocolEvent)) h.books.events
  · obtain hd | rfl := hmem d hd
    · exact h.books.suffix d hd
    · exact List.nil_suffix
  · obtain hd | rfl := hmem d hd
    · exact h.books.largest d hd m hm
    · change _ ∈ method.first.effects at hm
      rw [heffects] at hm
      cases hm
  · exact h.books.attained.imp_right fun ⟨d, hd, hm⟩ => ⟨d, List.mem_append_left _ hd, hm⟩
  · obtain hd | rfl := hmem d hd
    · exact h.held.alive d hd hret
    · exact halive
  · obtain hd | rfl := hmem d hd
    · exact h.held.succeed d hd
    · cases method <;> rfl

theorem Books.frame (h : Books s) (queue entered taken : Side → List Packet) (handles : List (Option Bool)) :
    Books { s with queue := queue, entered := entered, taken := taken, handles := handles } :=
  ⟨h.counters, h.events, h.heard, h.suffix, h.largest, h.attained⟩

theorem Inv.simulateReceive (h : Inv s) (packet : Packet) : Inv (s.push .receive packet) := by
  refine ⟨⟨fun side => ?_, h.flow.sent, h.flow.batches, h.flow.each⟩, h.books.frame .., ⟨h.held.alive, h.held.succeed⟩⟩
  cases side with
  | send => exact h.flow.fifo .send
  | receive => simp [State.push, h.flow.fifo .receive]

theorem Inv.clone (h : Inv s) (flag : Option Bool) : Inv { s with handles := s.handles ++ [flag] } := by
  refine ⟨⟨h.flow.fifo, h.flow.sent, h.flow.batches, h.flow.each⟩, h.books.frame .., ⟨fun d hd hret => ?_, h.held.succeed⟩⟩
  have halive := h.held.alive d hd hret
  show ((s.handles ++ [flag])[d.handle]?.getD none).isSome = true
  cases hk : s.handles[d.handle]? with
  | none => rw [State.alive, hk] at halive; cases halive
  | some old =>
    rw [State.alive, hk] at halive
    rw [Indexed.getElem?_concat_of_some hk]
    exact halive

theorem Inv.drop {handle : ℕ} (h : Inv s) (hfree : s.calls.all (fun c => c.returned || c.handle != handle) = true) :
    Inv { s with handles := s.handles.set handle none } := by
  refine ⟨⟨h.flow.fifo, h.flow.sent, h.flow.batches, h.flow.each⟩, h.books.frame .., ⟨fun d hd hret => ?_, h.held.succeed⟩⟩
  have hne := List.all_eq_true.1 hfree d hd
  rw [hret, Bool.false_or, bne_iff_ne] at hne
  show ((s.handles.set handle none)[d.handle]?.getD none).isSome = true
  rw [List.getElem?_set_ne (Ne.symm hne)]
  exact h.held.alive d hd hret

theorem inv_step (s : State) (l : Label) (s' : State) (hs : step s l = some s') (h : Inv s) : Inv s' := by
  cases l with
  | run i latencyNs => exact h.run hs
  | call handle method =>
    obtain ⟨halive, hs⟩ := Option.ite_none_right_eq_some.1 hs
    cases hs
    exact h.call halive
  | simulateReceive handle packet =>
    obtain ⟨halive, hs⟩ := Option.ite_none_right_eq_some.1 hs
    rw [if_pos (hasReceiver_of_alive halive)] at hs
    cases hs
    exact h.simulateReceive packet
  | clone handle =>
    obtain ⟨-, hs⟩ := Option.ite_none_right_eq_some.1 hs
    cases hs
    exact h.clone _
  | drop handle =>
    obtain ⟨⟨-, hfree⟩, hs⟩ := Option.ite_none_right_eq_some.1 hs
    cases hs
    exact h.drop hfree
  | stopListening =>
    cases hs
    exact ⟨⟨h.flow.fifo, h.flow.sent, h.flow.batches, h.flow.each⟩,
      ⟨h.books.counters, h.books.events, nofun, h.books.suffix, h.books.largest, h.books.attained⟩, h.held.alive, h.held.succeed⟩

theorem inv_new : Inv new :=
  ⟨⟨fun _ => rfl, rfl, fun _ => rfl, nofun⟩, ⟨fun _ => rfl, rfl, fun _ => rfl, nofun, nofun, .inl rfl⟩, nofun, nofun⟩

/-! ### When nothing is under way -/

/-- The packets of the batch a call has collected. -/
def Call.batchSize (c : Call) : ℕ :=
  match c.next.batch? with
  | some (_, _, batch) => batch.length
  | none => 0

/-- Whether the time is recorded. -/
def Result.timed : Result → Bool
  | .batch .send _ packets => !packets.isEmpty
  | .stored _ => false
  | _ => true

/-- The time a call that has returned has recorded. -/
def Call.latency? (c : Call) : Option ℕ :=
  match c.next with
  | .finished result latencyNs => if result.timed then some latencyNs else none
  | _ => none

/-- The events a call that has returned has sent. -/
def Call.announced (c : Call) : Multiset ProtocolEvent :=
  match c.next with
  | .finished (.sent packet) _ => {.packetSent packet.payload.length}
  | .finished (.batch _ _ batch) _ => if batch.isEmpty then 0 else {.batchProcessed batch.length}
  | .finished (.stored connected) _ => {.connectionStatus connected}
  | _ => 0

structure AtRest (s : State) : Prop where
  packetsSent : s.load .packetsSent = (s.entered .send).length % 2 ^ 64
  /-- the bytes of a packet are counted when it is sent, and again with its batch -/
  bytesSent : s.load .bytesSent = (bytes (s.entered .send) + bytes (s.taken .send)) % 2 ^ 64
  sendErrors : s.load .sendErrors = 0
  packetsReceived : s.load .packetsReceived = (s.taken .receive).length % 2 ^ 64
  bytesReceived : s.load .bytesReceived = bytes (s.taken .receive) % 2 ^ 64
  receiveErrors : s.load .receiveErrors = 0
  batchOperations : s.load .batchOperations = s.calls.countP (fun c => 0 < c.batchSize) % 2 ^ 64
  totalBatchSize : s.load .totalBatchSize = ((s.taken .send).length + (s.taken .receive).length) % 2 ^ 64
  largest : ∀ c ∈ s.calls, c.batchSize ≤ s.maxBatchSize
  attained : s.maxBatchSize = 0 ∨ ∃ c ∈ s.calls, c.batchSize = s.maxBatchSize
  totalLatencyNs : s.load .totalLatencyNs = (s.calls.filterMap Call.latency?).sum % 2 ^ 64
  operationCount : s.load .operationCount = (s.calls.filterMap Call.latency?).length % 2 ^ 64
  events : s.listening = true → (s.events : Multiset ProtocolEvent) = s.sum Call.announced

/-- What holds after every step. -/
structure Law (s : State) : Prop where
  /-- the packets leave the queues in the order in which they came -/
  fifo : ∀ side, s.taken side <+: s.entered side
  /-- each of them to one batch -/
  batches : ∀ side, s.sum (fun c => c.next.batchOf side) = (s.taken side : Multiset Packet)
  each : ∀ c ∈ s.calls, ∀ side maxBatch batch, c.next.batch? = some (side, maxBatch, batch) →
    List.Sublist batch (s.taken side) ∧ batch.length ≤ maxBatch
  sent : s.sum (fun c => c.next.sent) = (s.entered .send : Multiset Packet)
  succeed : ∀ c ∈ s.calls, c.next.fails = false
  atRest : (∀ c ∈ s.calls, c.returned = true) → AtRest s

def size : Multiset Packet →+ ℕ := Multiset.cardHom

def bytesHom : Multiset Packet →+ ℕ := Multiset.sumAddMonoidHom.comp (Multiset.mapAddMonoidHom fun p => p.payload.length)

theorem size_coe (ps : List Packet) : size (ps : Multiset Packet) = ps.length := rfl

theorem bytesHom_coe (ps : List Packet) : bytesHom (ps : Multiset Packet) = bytes ps := rfl

theorem sum_hom {M N : Type} [AddCommMonoid M] [AddCommMonoid N] (φ : M →+ N) (f : Call → M) :
    s.sum (fun c => φ (f c)) = φ (s.sum f) := by
  rw [State.sum, State.sum, map_list_sum, List.map_map]
  rfl

theorem sum_add {M : Type} [AddCommMonoid M] (f g : Call → M) : s.sum (fun c => f c + g c) = s.sum f + s.sum g :=
  List.sum_map_add

theorem amount_flatMap (counter : Counter) (f : Packet → List Effect) (batch : List Packet) :
    amount counter (batch.flatMap f) = (batch.map fun p => amount counter (f p)).sum := by
  induction batch with
  | nil => rfl
  | cons p batch ih => rw [List.flatMap_cons, amount_append, ih, List.map_cons, List.sum_cons]

/-- What a result adds to a counter. -/
def Result.worth (latencyNs : ℕ) : Counter → Result → ℕ
  | .totalLatencyNs, result => if result.timed then latencyNs else 0
  | .operationCount, result => if result.timed then 1 else 0
  | .packetsSent, .sent _ => 1
  | .bytesSent, .sent packet => packet.payload.length
  | .sendErrors, .failed _ => 1
  | .bytesSent, .batch .send _ packets => bytes packets
  | .packetsReceived, .batch .receive _ packets => packets.length
  | .bytesReceived, .batch .receive _ packets => bytes packets
  | .batchOperations, .batch _ _ packets => if packets.isEmpty then 0 else 1
  | .totalBatchSize, .batch _ _ packets => packets.length
  | _, _ => 0

theorem amount_recordReceive (counter : Counter) (batch : List Packet) :
    amount counter (batch.flatMap (takenEffects .receive)) = match counter with
      | .packetsReceived => batch.length
      | .bytesReceived => bytes batch
      | _ => 0 := by
  rw [amount_flatMap]
  cases counter <;> simp [takenEffects, recordReceive, amount, Effect.amount, bytes]

theorem amount_effects (counter : Counter) (result : Result) (latencyNs : ℕ) :
    amount counter (Next.finished result latencyNs).effects = result.worth latencyNs counter := by
  cases result with
  | sent packet =>
    cases counter <;>
      simp [Next.effects, sentEffects, recordSend, recordOperationLatency, amount, Effect.amount, Result.worth, Result.timed]
  | failed error =>
    cases counter <;>
      simp [Next.effects, fullEffects, recordOperationLatency, amount, Effect.amount, Result.worth, Result.timed]
  | stored connected => cases counter <;> rfl
  | batch side maxBatch batch =>
    rw [Next.effects, amount_append]
    cases side with
    | send =>
      rw [amount_flatMap]
      cases batch <;> cases counter <;>
        simp [takenEffects, batchEffects, recordBatch, recordOperationLatency, amount, Effect.amount, Result.worth, Result.timed, bytes]
    | receive =>
      rw [amount_recordReceive]
      cases batch <;> cases counter <;>
        simp [batchEffects, recordBatch, recordOperationLatency, amount, Effect.amount, Result.worth, Result.timed, bytes]

theorem returned_iff : c.returned = true ↔ c.todo = [] ∧ ∃ result latencyNs, c.next = .finished result latencyNs := by
  obtain ⟨handle, todo, n⟩ := c
  cases todo <;> cases n <;> simp [Call.returned]

/-- At rest a counter is the worth of all results. -/
theorem Books.load (h : Books s) (hrest : ∀ c ∈ s.calls, c.returned = true) {counter : Counter} {f : Call → ℕ}
    (hf : ∀ c ∈ s.calls, ∀ result latencyNs, c.next = .finished result latencyNs → result.worth latencyNs counter = f c) :
    s.load counter = s.sum f % 2 ^ 64 := by
  have hbooks := h.counters counter
  have howed : s.sum (fun c => amount counter c.todo) = 0 := by
    refine Indexed.sum_map_eq_zero fun c hc => ?_
    rw [(returned_iff.1 (hrest c hc)).1]
    rfl
  have hall : s.sum (fun c => amount counter c.next.effects) = s.sum f := by
    refine congrArg List.sum (List.map_congr_left fun c hc => ?_)
    obtain ⟨-, result, latencyNs, hn⟩ := returned_iff.1 (hrest c hc)
    rw [hn, amount_effects]
    exact hf c hc result latencyNs hn
  rw [howed, hall, add_zero] at hbooks
  rw [State.load, hbooks]

theorem sum_zero : s.sum (fun _ => 0) = 0 := Indexed.sum_map_eq_zero fun _ _ => rfl

theorem sum_indicator (p : Call → Bool) : s.sum (fun c => if p c = true then 1 else 0) = s.calls.countP p := by
  rw [State.sum]
  induction s.calls with
  | nil => rfl
  | cons c cs ih => rw [List.map_cons, List.sum_cons, ih, List.countP_cons, add_comm]

theorem sum_getD (f : Call → Option ℕ) (calls : List Call) : (calls.map fun c => (f c).getD 0).sum = (calls.filterMap f).sum := by
  induction calls with
  | nil => rfl
  | cons c cs ih =>
    rw [List.map_cons, List.sum_cons, ih, List.filterMap_cons]
    cases f c with
    | none => exact Nat.zero_add _
    | some n => exact List.sum_cons.symm

theorem sum_sent (h : Flow s) (φ : Multiset Packet →+ ℕ) : s.sum (fun c => φ c.next.sent) = φ (s.entered .send) := by
  rw [sum_hom, h.sent]

theorem sum_batches (h : Flow s) (φ : Multiset Packet →+ ℕ) (side : Side) :
    s.sum (fun c => φ (c.next.batchOf side)) = φ (s.taken side) := by
  rw [sum_hom, h.batches]

theorem maxBatchSize_mem {result : Result} {m : ℕ} : .maxBatchSize m ∈ (Next.finished result latencyNs).effects ↔
    ∃ side maxBatch batch, result = .batch side maxBatch batch ∧ batch.isEmpty = false ∧ m = batch.length := by
  cases result with
  | batch side maxBatch batch =>
    have hno : .maxBatchSize m ∉ batch.flatMap (takenEffects side) := by
      intro hm
      obtain ⟨p, -, hp⟩ := List.mem_flatMap.1 hm
      cases side <;> simp [takenEffects, recordReceive] at hp
    rw [Next.effects, List.mem_append, or_iff_right hno]
    cases batch <;> cases side <;> simp [batchEffects, recordBatch, recordOperationLatency]
  | sent packet => simp [Next.effects, sentEffects, recordSend, recordOperationLatency]
  | failed error => simp [Next.effects, fullEffects, recordOperationLatency]
  | stored connected => simp [Next.effects]

theorem eventsOf_effects (result : Result) (handle latencyNs : ℕ) :
    eventsOf (Next.finished result latencyNs).effects = Call.announced ⟨handle, [], .finished result latencyNs⟩ := by
  cases result with
  | batch side maxBatch batch =>
    have hno : eventsOf (batch.flatMap (takenEffects side)) = 0 := by
      induction batch with
      | nil => rfl
      | cons p batch ih =>
        rw [List.flatMap_cons, eventsOf_append, ih, add_zero]
        cases side <;> rfl
    rw [Next.effects, eventsOf_append, hno, zero_add]
    cases batch <;> cases side <;> rfl
  | _ => rfl

theorem Inv.atRest (h : Inv s) (hrest : ∀ c ∈ s.calls, c.returned = true) : AtRest s where
  packetsSent := by
    refine (h.books.load hrest (f := fun c => size c.next.sent) fun c hc result latencyNs hn => ?_).trans ?_
    · rw [hn]
      cases result with
      | batch side => cases side <;> rfl
      | _ => rfl
    · rw [sum_sent h.flow size]
      rfl
  bytesSent := by
    refine (h.books.load hrest (f := fun c => bytesHom c.next.sent + bytesHom (c.next.batchOf .send))
      fun c hc result latencyNs hn => ?_).trans ?_
    · rw [hn]
      cases result with
      | batch side => cases side <;> simp [Result.worth, Next.sent, Next.batchOf, Next.batch?, bytesHom_coe]
      | _ => rfl
    · rw [sum_add, sum_sent h.flow bytesHom, sum_batches h.flow bytesHom .send]
      rfl
  sendErrors := by
    refine (h.books.load hrest (f := fun _ => 0) fun c hc result latencyNs hn => ?_).trans (by rw [sum_zero]; rfl)
    have hok := h.held.succeed c hc
    rw [hn] at hok
    cases result with
    | failed error => cases hok
    | batch side => cases side <;> rfl
    | _ => rfl
  packetsReceived := by
    refine (h.books.load hrest (f := fun c => size (c.next.batchOf .receive)) fun c hc result latencyNs hn => ?_).trans ?_
    · rw [hn]
      cases result with
      | batch side => cases side <;> rfl
      | _ => rfl
    · rw [sum_batches h.flow size .receive]
      rfl
  bytesReceived := by
    refine (h.books.load hrest (f := fun c => bytesHom (c.next.batchOf .receive)) fun c hc result latencyNs hn => ?_).trans ?_
    · rw [hn]
      cases result with
      | batch side => cases side <;> rfl
      | _ => rfl
    · rw [sum_batches h.flow bytesHom .receive]
      rfl
  receiveErrors := by
    refine (h.books.load hrest (f := fun _ => 0) fun c hc result latencyNs hn => ?_).trans (by rw [sum_zero]; rfl)
    cases result with
    | batch side => cases side <;> rfl
    | _ => rfl
  batchOperations := by
    refine (h.books.load hrest (f := fun c => if decide (0 < c.batchSize) = true then 1 else 0)
      fun c hc result latencyNs hn => ?_).trans ?_
    · rw [Call.batchSize, hn]
      cases result with
      | batch side maxBatch batch => cases batch <;> cases side <;> rfl
      | _ => rfl
    · rw [sum_indicator]
  totalBatchSize := by
    refine (h.books.load hrest (f := fun c => size (c.next.batchOf .send) + size (c.next.batchOf .receive))
      fun c hc result latencyNs hn => ?_).trans ?_
    · rw [hn]
      cases result with
      | batch side => cases side <;> simp [Result.worth, Next.batchOf, Next.batch?, size_coe]
      | _ => rfl
    · rw [sum_add, sum_batches h.flow size .send, sum_batches h.flow size .receive]
      rfl
  largest c hc := by
    obtain ⟨htodo, result, latencyNs, hn⟩ := returned_iff.1 (hrest c hc)
    obtain hzero | hpos := Nat.eq_zero_or_pos c.batchSize
    · rw [hzero]
      exact Nat.zero_le _
    · have hmem : .maxBatchSize c.batchSize ∈ c.next.effects := by
        rw [Call.batchSize, hn] at hpos ⊢
        cases result with
        | batch side maxBatch batch =>
          exact maxBatchSize_mem.2 ⟨side, maxBatch, batch, rfl, List.isEmpty_eq_false_iff.2 (List.length_pos_iff.1 hpos), rfl⟩
        | _ => cases hpos
      refine (h.books.largest c hc _ hmem).resolve_right ?_
      rw [htodo]
      exact List.not_mem_nil
  attained := by
    refine h.books.attained.imp_right ?_
    rintro ⟨c, hc, hm⟩
    obtain ⟨-, result, latencyNs, hn⟩ := returned_iff.1 (hrest c hc)
    rw [hn] at hm
    obtain ⟨side, maxBatch, batch, rfl, -, hm⟩ := maxBatchSize_mem.1 hm
    refine ⟨c, hc, ?_⟩
    rw [hm, Call.batchSize, hn]
    rfl
  totalLatencyNs := by
    refine (h.books.load hrest (f := fun c => c.latency?.getD 0) fun c hc result latencyNs hn => ?_).trans ?_
    · simp only [Call.latency?, hn, Result.worth]
      cases result.timed <;> rfl
    · rw [State.sum, sum_getD]
  operationCount := by
    refine (h.books.load hrest (f := fun c => if c.latency?.isSome = true then 1 else 0)
      fun c hc result latencyNs hn => ?_).trans ?_
    · simp only [Call.latency?, hn, Result.worth]
      cases result.timed <;> rfl
    · rw [sum_indicator, List.length_filterMap_eq_countP]
  events hl := by
    have hevents := h.books.events
    have howed : s.sum (fun c => eventsOf c.todo) = 0 := by
      refine Indexed.sum_map_eq_zero fun c hc => ?_
      rw [(returned_iff.1 (hrest c hc)).1]
      rfl
    have hall : s.sum (fun c => eventsOf c.next.effects) = s.sum Call.announced := by
      refine congrArg List.sum (List.map_congr_left fun c hc => ?_)
      obtain ⟨-, result, latencyNs, hn⟩ := returned_iff.1 (hrest c hc)
      rw [hn, eventsOf_effects result c.handle latencyNs, Call.announced, Call.announced, hn]
    rw [howed, hall, add_zero, State.allEvents, h.books.heard hl] at hevents
    exact (add_zero _).symm.trans hevents

theorem Inv.law (h : Inv s) : Law s where
  fifo side := ⟨s.queue side, (h.flow.fifo side).symm⟩
  batches := h.flow.batches
  each := h.flow.each
  sent := h.flow.sent
  succeed := h.held.succeed
  atRest := h.atRest

theorem law_of_calls (hr : StepSystem.run step new ls = some s) : Law s :=
  (StepSystem.run_invariant inv_step hr inv_new).law

/-- A clone sends three packets while two calls on the first one collect batches of at most two in turns: one gets the first and
the third packet. All the bytes are counted twice. -/
theorem law_of_calls_interleaved :
    let p (n : ℕ) : Packet := .oneWay 0 (List.replicate n 0)
    let runs (i n : ℕ) : List Label := List.replicate n (.run i 5)
    let ls : List Label :=
      [.clone 0, .call 1 (.sendNowait (p 1)), .call 1 (.sendNowait (p 2)), .call 1 (.sendNowait (p 3))] ++
      runs 0 6 ++ runs 1 6 ++ runs 2 6 ++
      [.call 0 (.processSendBatch 2), .call 0 (.processSendBatch 2), .run 3 5, .run 4 5, .run 3 5] ++
      runs 4 1 ++ runs 3 8 ++ runs 4 7
    ∃ s, StepSystem.run step new ls = some s ∧
      (s.calls.filterMap fun c => c.next.batch?.map fun b => b.2.2) = [[p 1, p 3], [p 2]] ∧
      [Counter.bytesSent, .totalLatencyNs, .operationCount].map s.load = [12, 25, 5] ∧ Law s := by
  intro p runs ls
  have hrun : (StepSystem.run step new ls).map (fun s => (s.calls.filterMap fun c => c.next.batch?.map fun b => b.2.2,
      [Counter.bytesSent, .totalLatencyNs, .operationCount].map s.load)) = some ([[p 1, p 3], [p 2]], [12, 25, 5]) := by
    decide
  obtain ⟨s, hr, heq⟩ := Option.map_eq_some_iff.1 hrun
  obtain ⟨hbatches, hloads⟩ := Prod.mk.inj heq
  exact ⟨s, hr, hbatches, hloads, law_of_calls hr⟩

end FlumeAdapter

end Msgtrans
