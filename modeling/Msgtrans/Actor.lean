import Mathlib.Algebra.BigOperators.Group.List.Basic
import Mathlib.Data.List.Infix
import Msgtrans.Event
import Msgtrans.Lib.Run

/-!
# The actor (`transport/actor.rs`)

`run_dual_pipeline` runs three tasks that matter here. The command adapter takes the `TransportCommand`s, answers them, and
puts the packets on an internal queue; the command pipeline moves them on to the data channel, on which others may put
packets too; the data pipeline collects batches from there and passes the packets to the protocol adapter. A step is one
command taken and answered, one item moved on, or one step of the data pipeline. The actor keeps a sender and a receiver of
the data channel and a sender of the internal queue, so that only the latter is ever closed, with the command pipeline.

What the protocol adapter answers, and when, is up to the labels. The counters are `ℕ`, of which a load sees the
remainder. `trace` is the history; `DataInv` says what it tells of the data pipeline, and `dataLaw_always` is its law.
-/

namespace Msgtrans

namespace Actor

/-- A queued packet; a packet of a `Send` that was answered `Ok` carries the number of that answer. -/
structure Item where
  packet : Packet
  ticket : Option ℕ

inductive TransportCommand where
  | send (sessionId : SessionId) (packet : Packet)
  | close (sessionId : SessionId)
  | configure
  | getStats
  | getConnectionInfo (sessionId : SessionId)
  | getActiveSessions
  | forceDisconnect (sessionId : SessionId) (reason : String)
  | pauseSession (sessionId : SessionId)
  | resumeSession (sessionId : SessionId)

/-- What comes back on `response_tx`. The statistics and the connection information are the default ones. -/
inductive Answer where
  | result (r : Except TransportError Unit)
  | stats
  | info
  | sessions (ids : List SessionId)
  | dropped

inductive ActorCommand where
  | sendPacket (item : Item)
  | getStats
  | healthCheck
  | shutdown

inductive ActorEvent where
  | batchCompleted (n : ℕ)
  | shutdown
  | healthCheck

structure LockFreeActorStats where
  packetsSent : ℕ
  bytesSent : ℕ
  batchOperations : ℕ
  totalBatchPackets : ℕ
  errorCount : ℕ

namespace LockFreeActorStats

def new : LockFreeActorStats := ⟨0, 0, 0, 0, 0⟩

def recordPacketSent (stats : LockFreeActorStats) (size : ℕ) : LockFreeActorStats :=
  { stats with packetsSent := stats.packetsSent + 1, bytesSent := stats.bytesSent + size }

def recordBatchOperation (stats : LockFreeActorStats) (packetCount : ℕ) : LockFreeActorStats :=
  { stats with
    batchOperations := stats.batchOperations + 1
    totalBatchPackets := stats.totalBatchPackets + packetCount }

def recordError (stats : LockFreeActorStats) : LockFreeActorStats := { stats with errorCount := stats.errorCount + 1 }

end LockFreeActorStats

inductive DataPc where
  | recv
  | collect (batch : List Item)
  /-- `rest` is what the drain of the batch has not given out yet -/
  | process (batch rest : List Item)
  | sending (batch : List Item) (item : Item) (rest : List Item)
  /-- the rest of the batch is dropped with the task -/
  | stopped (batch rest : List Item)

structure Data where
  channel : List Item
  pc : DataPc
  stats : LockFreeActorStats

inductive Act where
  | answered (command : TransportCommand) (answer : Answer)
  | queued (item : Item)
  | collected (batch : List Item)
  /-- a call of `ProtocolAdapter::send`, and its result -/
  | passed (item : Item)
  | succeeded (item : Item)
  | failed (item : Item)
  | completed (batch : List Item)
  /-- a call of `ProtocolAdapter::close` -/
  | closed
  | published (event : TransportEvent)
  | reported (event : ActorEvent)

abbrev Trace := List Act

inductive SendResult where
  | ok
  /-- an error by its debug text, and what `is_connected` then says -/
  | error (e : String) (connected : Bool)

inductive DataLabel where
  | receive
  | tryReceive
  | check (connected : Bool)
  | result (r : SendResult)
  | complete

/-- The data pipeline. The lock of the adapter is held from the check to the event of a packet. -/
def Data.step (maxBatchSize : ℕ) (d : Data) : DataLabel → Option (Data × Trace)
  | .receive => match d.pc, d.channel with
    | .recv, item :: channel => some ({ d with channel := channel, pc := .collect [item] }, [])
    | _, _ => none
  | .tryReceive => match d.pc with
    | .collect batch =>
      if batch.length < maxBatchSize then
        match d.channel with
        | item :: channel => some ({ d with channel := channel, pc := .collect (batch ++ [item]) }, [])
        | [] => some ({ d with pc := .process batch batch }, [.collected batch])
      else some ({ d with pc := .process batch batch }, [.collected batch])
    | _ => none
  | .check connected => match d.pc with
    | .process batch (item :: rest) =>
      if connected then some ({ d with pc := .sending batch item rest }, [.passed item])
      else some ({ d with pc := .stopped batch (item :: rest) }, [])
    | _ => none
  | .result r => match d.pc with
    | .sending batch item rest =>
      match r with
      | .ok => some ({ d with
          pc := .process batch rest
          stats := d.stats.recordPacketSent item.packet.payload.length },
          [.succeeded item, .published (.messageSent item.packet.header.messageId)])
      | .error e true => some ({ d with pc := .process batch rest, stats := d.stats.recordError },
          [.failed item, .published (.transportError (.connection e false))])
      | .error _ false => some ({ d with pc := .stopped batch rest, stats := d.stats.recordError }, [.failed item])
    | _ => none
  | .complete => match d.pc with
    | .process batch [] => some ({ d with pc := .recv, stats := d.stats.recordBatchOperation batch.length },
        [.completed batch, .reported (.batchCompleted batch.length)])
    | _ => none

structure State where
  adapterRunning : Bool
  internal : List ActorCommand
  pipelineRunning : Bool
  data : Data
  /-- how many `Send`s were answered `Ok` -/
  acks : ℕ
  trace : Trace

def start : State := ⟨true, [], true, ⟨[], .recv, .new⟩, 0, []⟩

def State.record (s : State) (acts : Trace) : State := { s with trace := s.trace ++ acts }

def State.queue (s : State) (item : Item) : State :=
  { s with data := { s.data with channel := s.data.channel ++ [item] }, trace := s.trace ++ [.queued item] }

def State.answer (s : State) (command : TransportCommand) (r : Except TransportError Unit) : State :=
  s.record [.answered command (.result r)]

def invalidSession : TransportError := .connection "Invalid session" false

def channelClosed : TransportError := .connection "Internal channel closed" false

/-- `Close` and `ForceDisconnect`: the command adapter ends with it. -/
def State.shutdown (s : State) (command : TransportCommand) : State :=
  if s.pipelineRunning then
    State.answer { s with internal := s.internal ++ [.shutdown], adapterRunning := false } command (.ok ())
  else State.answer { s with adapterRunning := false } command (.error channelClosed)

/-- The command adapter takes a command. The answer comes after the push to the internal queue. -/
def State.command (sessionId : SessionId) (s : State) (command : TransportCommand) : State :=
  match command with
  | .send id packet =>
    if id ≠ sessionId then s.answer command (.error invalidSession)
    else if s.pipelineRunning then
      State.answer { s with internal := s.internal ++ [.sendPacket ⟨packet, some s.acks⟩], acks := s.acks + 1 } command
        (.ok ())
    else State.answer { s with adapterRunning := false } command (.error channelClosed)
  | .close id => if id ≠ sessionId then s.answer command (.error invalidSession) else s.shutdown command
  | .configure => s.record [.answered command .dropped]
  | .getStats => s.record [.answered command .stats]
  | .getConnectionInfo id =>
    if id ≠ sessionId then s.answer command (.error invalidSession) else s.record [.answered command .info]
  | .getActiveSessions => s.record [.answered command (.sessions [sessionId])]
  | .forceDisconnect id _ => if id ≠ sessionId then s.answer command (.error invalidSession) else s.shutdown command
  | .pauseSession id => if id ≠ sessionId then s.answer command (.error invalidSession) else s.answer command (.ok ())
  | .resumeSession id => if id ≠ sessionId then s.answer command (.error invalidSession) else s.answer command (.ok ())

/-- The command pipeline takes a command from the internal queue. -/
def State.control (s : State) : Option State :=
  match s.pipelineRunning, s.internal with
  | true, .sendPacket item :: internal => some (State.queue { s with internal := internal } item)
  | true, .getStats :: internal => some { s with internal := internal }
  | true, .healthCheck :: internal => some (State.record { s with internal := internal } [.reported .healthCheck])
  | true, .shutdown :: internal => some (State.record { s with internal := internal, pipelineRunning := false }
      [.reported .shutdown, .published (.connectionClosed .normal)])
  | _, _ => none

inductive Label where
  | command (command : TransportCommand)
  /-- every sender of commands is gone -/
  | hangUp
  | control
  /-- a packet put on the data channel from outside -/
  | external (packet : Packet)
  | data (l : DataLabel)

def step (sessionId : SessionId) (maxBatchSize : ℕ) (s : State) : Label → Option State
  | .command command => if s.adapterRunning then some (s.command sessionId command) else none
  | .hangUp => if s.adapterRunning then some { s with adapterRunning := false } else none
  | .control => s.control
  | .external packet => some (s.queue ⟨packet, none⟩)
  | .data l => (s.data.step maxBatchSize l).map fun r => State.record { s with data := r.1 } r.2

/-! ### The history by its parts -/

def Act.queued? : Act → Option Item
  | .queued item => some item
  | _ => none

def Act.collected? : Act → Option (List Item)
  | .collected batch => some batch
  | _ => none

def Act.passed? : Act → Option Item
  | .passed item => some item
  | _ => none

def Act.succeeded? : Act → Option Item
  | .succeeded item => some item
  | _ => none

def Act.failed? : Act → Option Item
  | .failed item => some item
  | _ => none

def Act.completed? : Act → Option (List Item)
  | .completed batch => some batch
  | _ => none

def Act.messageSent? : Act → Option UInt32
  | .published (.messageSent id) => some id
  | _ => none

namespace Trace
variable (tr : Trace)

abbrev queued : List Item := tr.filterMap Act.queued?

abbrev collected : List (List Item) := tr.filterMap Act.collected?

abbrev passed : List Item := tr.filterMap Act.passed?

abbrev succeeded : List Item := tr.filterMap Act.succeeded?

abbrev failed : List Item := tr.filterMap Act.failed?

abbrev completed : List (List Item) := tr.filterMap Act.completed?

abbrev messagesSent : List UInt32 := tr.filterMap Act.messageSent?

end Trace

/-- A call of `send` whose result is not there yet. -/
def DataPc.inFlight : DataPc → ℕ
  | .sending _ _ _ => 1
  | _ => 0

/-- A batch as long as it may be. -/
def Fits (maxBatchSize : ℕ) (batch : List Item) : Prop := 1 ≤ batch.length ∧ batch.length ≤ max 1 maxBatchSize

/-- The counters and the events are those of the calls of `send` and of the completed batches. -/
structure Counted (tr : Trace) (d : Data) : Prop where
  calls : d.stats.packetsSent + d.stats.errorCount + d.pc.inFlight = tr.passed.length
  packetsSent : d.stats.packetsSent = tr.succeeded.length
  errorCount : d.stats.errorCount = tr.failed.length
  bytesSent : d.stats.bytesSent = (tr.succeeded.map (·.packet.payload.length)).sum
  events : tr.messagesSent = tr.succeeded.map (·.packet.header.messageId)
  batchOperations : d.stats.batchOperations = tr.completed.length
  totalBatchPackets : d.stats.totalBatchPackets = (tr.completed.map List.length).sum

structure DataLaw (maxBatchSize : ℕ) (s : State) : Prop where
  /-- each packet is passed on once, in the order of the queue -/
  order : s.trace.passed <+: s.trace.queued
  batchSize : ∀ batch ∈ s.trace.collected, Fits maxBatchSize batch
  counted : Counted s.trace s.data
  /-- the completed batches are the first ones, and all their packets were passed on -/
  completed : s.trace.completed <+: s.trace.collected ∧ s.trace.collected.length ≤ s.trace.completed.length + 1 ∧
    s.trace.completed.flatten <+: s.trace.passed

/-! ### The invariant of the data pipeline -/

/-- What the data pipeline has taken from the channel and not passed on. -/
def DataPc.pending : DataPc → List Item
  | .recv => []
  | .collect batch => batch
  | .process _ rest | .sending _ _ rest | .stopped _ rest => rest

/-- Passed on are the completed batches and what the drain of the present one has given out. -/
def Drained (tr : Trace) : DataPc → Prop
  | .recv => tr.passed = tr.completed.flatten ∧ tr.collected = tr.completed
  | .collect _ => tr.passed = tr.completed.flatten ∧ tr.collected = tr.completed
  | .process batch rest | .sending batch _ rest | .stopped batch rest => ∃ given, batch = given ++ rest ∧
    tr.passed = tr.completed.flatten ++ given ∧ tr.collected = tr.completed ++ [batch]

structure DataInv (maxBatchSize : ℕ) (tr : Trace) (d : Data) : Prop where
  order : tr.queued = tr.passed ++ (d.pc.pending ++ d.channel)
  collecting : ∀ batch, d.pc = .collect batch → Fits maxBatchSize batch
  collected : ∀ batch ∈ tr.collected, Fits maxBatchSize batch
  drained : Drained tr d.pc
  counted : Counted tr d

variable {sessionId : SessionId} {m : ℕ} {s s' : State} {d d' : Data} {tr acts : Trace} {items batch rest : List Item}
  {item : Item}

theorem filterMap_more {α : Type} {f : Act → Option α} {xs : List α} (h : acts.filterMap f = xs) :
    (tr ++ acts).filterMap f = tr.filterMap f ++ xs := by
  rw [List.filterMap_append, h]

theorem filterMap_same {α : Type} {f : Act → Option α} (h : acts.filterMap f = []) :
    (tr ++ acts).filterMap f = tr.filterMap f := by
  rw [filterMap_more h, List.append_nil]

/-- Acts that are not of the data pipeline. -/
def Act.control : Act → Bool
  | .answered _ _ | .queued _ | .published (.connectionClosed _) | .reported _ => true
  | _ => false

theorem filterMap_control {α : Type} {f : Act → Option α} (hf : ∀ a, a.control = true → f a = none)
    (h : ∀ a ∈ acts, a.control = true) : acts.filterMap f = [] :=
  List.filterMap_eq_nil_iff.2 fun a ha => hf a (h a ha)

/-- Nothing that is counted happens. -/
theorem Counted.same (h : Counted tr d) (hstats : d'.stats = d.stats) (hpc : d'.pc.inFlight = d.pc.inFlight)
    (hp : acts.passed = []) (hs : acts.succeeded = []) (hf : acts.failed = []) (hc : acts.completed = [])
    (hm : acts.messagesSent = []) : Counted (tr ++ acts) d' := by
  obtain ⟨h₁, h₂, h₃, h₄, h₅, h₆, h₇⟩ := h
  have hp' : (tr ++ acts).passed = tr.passed := filterMap_same hp
  have hs' : (tr ++ acts).succeeded = tr.succeeded := filterMap_same hs
  have hf' : (tr ++ acts).failed = tr.failed := filterMap_same hf
  have hc' : (tr ++ acts).completed = tr.completed := filterMap_same hc
  have hm' : (tr ++ acts).messagesSent = tr.messagesSent := filterMap_same hm
  constructor <;> simp only [hstats, hpc, hp', hs', hf', hc', hm']
  · exact h₁
  · exact h₂
  · exact h₃
  · exact h₄
  · exact h₅
  · exact h₆
  · exact h₇

/-- A step of the other tasks: at most packets are added to the channel. -/
theorem DataInv.control (h : DataInv m tr d) (hq : acts.queued = items) (hc : ∀ a ∈ acts, a.control = true) :
    DataInv m (tr ++ acts) { d with channel := d.channel ++ items } := by
  have hnil {α : Type} {f : Act → Option α} (hf : ∀ a, a.control = true → f a = none) : acts.filterMap f = [] :=
    filterMap_control hf hc
  have hcollected : acts.collected = [] := hnil fun a ha => by cases a <;> trivial
  have hpassed : acts.passed = [] := hnil fun a ha => by cases a <;> trivial
  have hsucceeded : acts.succeeded = [] := hnil fun a ha => by cases a <;> trivial
  have hfailed : acts.failed = [] := hnil fun a ha => by cases a <;> trivial
  have hcompleted : acts.completed = [] := hnil fun a ha => by cases a <;> trivial
  have hsent : acts.messagesSent = [] := hnil fun a ha => by
    cases a with
    | published event => cases event <;> trivial
    | _ => trivial
  have hcollected' : (tr ++ acts).collected = tr.collected := filterMap_same hcollected
  have hpassed' : (tr ++ acts).passed = tr.passed := filterMap_same hpassed
  have hcompleted' : (tr ++ acts).completed = tr.completed := filterMap_same hcompleted
  have hqueued : (tr ++ acts).queued = tr.queued ++ items := filterMap_more hq
  refine ⟨?_, h.collecting, ?_, ?_, h.counted.same rfl rfl hpassed hsucceeded hfailed hcompleted hsent⟩
  · rw [hqueued, hpassed', h.order, List.append_assoc, List.append_assoc]
  · rw [hcollected']
    exact h.collected
  · have hdrained := h.drained
    unfold Drained at hdrained ⊢
    rw [hcollected', hpassed', hcompleted']
    exact hdrained

theorem DataInv.silent (h : DataInv m tr d) (hq : acts.queued = []) (hc : ∀ a ∈ acts, a.control = true) :
    DataInv m (tr ++ acts) d := by
  have hd := h.control hq hc
  rw [List.append_nil] at hd
  exact hd

theorem dataInv_receive (hs : d.step m .receive = some (d', acts)) (h : DataInv m tr d) : DataInv m (tr ++ acts) d' := by
  simp only [Data.step] at hs
  split at hs
  · next item channel hpc hch =>
    cases hs
    obtain ⟨horder, -, hcollected, hdrained, hcounted⟩ := h
    simp only [hpc, Drained] at hdrained
    have hcounted' : Counted (tr ++ []) ⟨channel, .collect [item], d.stats⟩ :=
      hcounted.same rfl (by rw [hpc]; rfl) rfl rfl rfl rfl rfl
    rw [List.append_nil] at hcounted' ⊢
    refine ⟨?_, fun batch hb => ?_, hcollected, hdrained, hcounted'⟩
    · simpa [hpc, hch, DataPc.pending] using horder
    · cases hb
      exact ⟨le_rfl, le_max_left _ _⟩
  · cases hs

theorem dataInv_tryReceive (hs : d.step m .tryReceive = some (d', acts)) (h : DataInv m tr d) :
    DataInv m (tr ++ acts) d' := by
  obtain ⟨horder, hcollecting, hcollected, hdrained, hcounted⟩ := h
  simp only [Data.step] at hs
  split at hs
  · next batch hpc =>
    obtain ⟨hpos, hle⟩ := hcollecting batch hpc
    simp only [hpc, Drained] at hdrained
    simp only [hpc, DataPc.pending] at horder
    -- the batch is handed over as it is, when it is full and when the channel is empty
    have hover : DataInv m (tr ++ [.collected batch]) { d with pc := .process batch batch } := by
      refine ⟨?_, nofun, fun b hb => ?_, ⟨[], rfl, ?_, ?_⟩, hcounted.same rfl (by rw [hpc]; rfl) rfl rfl rfl rfl rfl⟩
      · simpa [List.filterMap_cons, DataPc.pending, Act.queued?, Act.passed?] using horder
      · simp only [Trace.collected, List.filterMap_append, List.mem_append] at hb
        rcases hb with hb | hb
        · exact hcollected b hb
        · obtain rfl : b = batch := by simpa [List.filterMap_cons, Act.collected?] using hb
          exact ⟨hpos, hle⟩
      · simpa [List.filterMap_cons, Act.passed?, Act.completed?] using hdrained.1
      · simpa [List.filterMap_cons, Act.collected?, Act.completed?] using hdrained.2
    split at hs
    · next hlt =>
      split at hs
      · next item channel hch =>
        cases hs
        have hcounted' : Counted (tr ++ []) ⟨channel, .collect (batch ++ [item]), d.stats⟩ :=
          hcounted.same rfl (by rw [hpc]; rfl) rfl rfl rfl rfl rfl
        rw [List.append_nil] at hcounted' ⊢
        refine ⟨?_, fun b hb => ?_, hcollected, hdrained, hcounted'⟩
        · simpa [hch, DataPc.pending] using horder
        · cases hb
          have hlen : (batch ++ [item]).length = batch.length + 1 := by simp
          exact ⟨by omega, by omega⟩
      · cases hs
        exact hover
    · cases hs
      exact hover
  · cases hs

theorem dataInv_check {connected : Bool} (hs : d.step m (.check connected) = some (d', acts)) (h : DataInv m tr d) :
    DataInv m (tr ++ acts) d' := by
  obtain ⟨horder, -, hcollected, hdrained, hcounted⟩ := h
  obtain ⟨h₁, h₂, h₃, h₄, h₅, h₆, h₇⟩ := hcounted
  simp only [Data.step] at hs
  split at hs
  · next batch item rest hpc =>
    simp only [hpc, Drained] at hdrained
    simp only [hpc, DataPc.pending] at horder
    simp only [hpc, DataPc.inFlight] at h₁
    obtain ⟨given, hbatch, hpassed, hcol⟩ := hdrained
    split at hs
    · cases hs
      refine ⟨?_, nofun, ?_, ⟨given ++ [item], ?_, ?_, ?_⟩, ?_⟩
      · simpa [List.filterMap_cons, DataPc.pending, Act.queued?, Act.passed?] using horder
      · simpa [List.filterMap_cons, Act.collected?] using hcollected
      · rw [hbatch, List.append_assoc, List.singleton_append]
      · have hp : (tr ++ [Act.passed item]).passed = tr.passed ++ [item] := filterMap_more rfl
        have hc : (tr ++ [Act.passed item]).completed = tr.completed := filterMap_same rfl
        rw [hp, hc, hpassed, List.append_assoc]
      · simpa [List.filterMap_cons, Act.collected?, Act.completed?] using hcol
      · constructor <;> simpa [List.filterMap_cons, Act.passed?, Act.succeeded?, Act.failed?, Act.completed?, Act.messageSent?, DataPc.inFlight]
    · cases hs
      rw [List.append_nil]
      exact ⟨horder, nofun, hcollected, ⟨given, hbatch, hpassed, hcol⟩, ⟨h₁, h₂, h₃, h₄, h₅, h₆, h₇⟩⟩
  · cases hs

/-- The result of a call is there: one more success or failure, and the counters and the event for it. -/
theorem Counted.returned (h : Counted tr d) (hpc : d.pc = .sending batch item rest) (hpc' : d'.pc.inFlight = 0)
    (hpassed : acts.passed = []) (hcompleted : acts.completed = [])
    (hr : d'.stats = d.stats.recordPacketSent item.packet.payload.length ∧ acts.succeeded = [item] ∧ acts.failed = [] ∧
        acts.messagesSent = [item.packet.header.messageId] ∨
      d'.stats = d.stats.recordError ∧ acts.succeeded = [] ∧ acts.failed = [item] ∧ acts.messagesSent = []) :
    Counted (tr ++ acts) d' := by
  obtain ⟨h₁, h₂, h₃, h₄, h₅, h₆, h₇⟩ := h
  rw [hpc, DataPc.inFlight] at h₁
  have hp : (tr ++ acts).passed = tr.passed := filterMap_same hpassed
  have hc : (tr ++ acts).completed = tr.completed := filterMap_same hcompleted
  rcases hr with ⟨hstats, hs, hf, hm⟩ | ⟨hstats, hs, hf, hm⟩
  · have hs' : (tr ++ acts).succeeded = tr.succeeded ++ [item] := filterMap_more hs
    have hf' : (tr ++ acts).failed = tr.failed := filterMap_same hf
    have hm' : (tr ++ acts).messagesSent = tr.messagesSent ++ [item.packet.header.messageId] := filterMap_more hm
    constructor <;> simp only [hstats, hp, hc, hs', hf', hm', hpc', LockFreeActorStats.recordPacketSent]
    · omega
    · simp [h₂]
    · exact h₃
    · simp [h₄]
    · simp [h₅]
    · exact h₆
    · exact h₇
  · have hs' : (tr ++ acts).succeeded = tr.succeeded := filterMap_same hs
    have hf' : (tr ++ acts).failed = tr.failed ++ [item] := filterMap_more hf
    have hm' : (tr ++ acts).messagesSent = tr.messagesSent := filterMap_same hm
    constructor <;> simp only [hstats, hp, hc, hs', hf', hm', hpc', LockFreeActorStats.recordError]
    · omega
    · exact h₂
    · simp [h₃]
    · exact h₄
    · exact h₅
    · exact h₆
    · exact h₇

theorem dataInv_result {r : SendResult} (hs : d.step m (.result r) = some (d', acts)) (h : DataInv m tr d) :
    DataInv m (tr ++ acts) d' := by
  obtain ⟨horder, -, hcollected, hdrained, hcounted⟩ := h
  simp only [Data.step] at hs
  split at hs
  · next batch item rest hpc =>
    simp only [hpc, Drained] at hdrained
    simp only [hpc, DataPc.pending] at horder
    obtain ⟨given, hbatch, hpassed, hcol⟩ := hdrained
    -- whatever the result is, it leaves the queue and the batch as they are
    have hkeep (pc : DataPc) (stats : LockFreeActorStats) (hpc' : pc = .process batch rest ∨ pc = .stopped batch rest)
        (hq : acts.queued = []) (hp : acts.passed = []) (hc : acts.collected = []) (hm : acts.completed = [])
        (hcounted : Counted (tr ++ acts) ⟨d.channel, pc, stats⟩) : DataInv m (tr ++ acts) ⟨d.channel, pc, stats⟩ := by
      have hq' : (tr ++ acts).queued = tr.queued := filterMap_same hq
      have hp' : (tr ++ acts).passed = tr.passed := filterMap_same hp
      have hc' : (tr ++ acts).collected = tr.collected := filterMap_same hc
      have hm' : (tr ++ acts).completed = tr.completed := filterMap_same hm
      have hd : Drained (tr ++ acts) (.process batch rest) := ⟨given, hbatch, by rw [hp', hm', hpassed], by rw [hc', hm', hcol]⟩
      rw [← hq', ← hp'] at horder
      rw [← hc'] at hcollected
      rcases hpc' with rfl | rfl
      · exact ⟨horder, fun b hb => (by cases hb), hcollected, hd, hcounted⟩
      · exact ⟨horder, fun b hb => (by cases hb), hcollected, hd, hcounted⟩
    split at hs
    · cases hs
      exact hkeep _ _ (.inl rfl) rfl rfl rfl rfl (hcounted.returned hpc rfl rfl rfl (.inl ⟨rfl, rfl, rfl, rfl⟩))
    · cases hs
      exact hkeep _ _ (.inl rfl) rfl rfl rfl rfl (hcounted.returned hpc rfl rfl rfl (.inr ⟨rfl, rfl, rfl, rfl⟩))
    · cases hs
      exact hkeep _ _ (.inr rfl) rfl rfl rfl rfl (hcounted.returned hpc rfl rfl rfl (.inr ⟨rfl, rfl, rfl, rfl⟩))
  · cases hs

theorem dataInv_complete (hs : d.step m .complete = some (d', acts)) (h : DataInv m tr d) : DataInv m (tr ++ acts) d' := by
  obtain ⟨horder, -, hcollected, hdrained, hcounted⟩ := h
  obtain ⟨h₁, h₂, h₃, h₄, h₅, h₆, h₇⟩ := hcounted
  simp only [Data.step] at hs
  split at hs
  · next batch hpc =>
    cases hs
    simp only [hpc, Drained] at hdrained
    simp only [hpc, DataPc.pending, List.nil_append] at horder
    simp only [hpc, DataPc.inFlight] at h₁
    obtain ⟨given, hbatch, hpassed, hcol⟩ := hdrained
    rw [List.append_nil] at hbatch
    subst hbatch
    have hc : (tr ++ [Act.completed batch, Act.reported (.batchCompleted batch.length)]).completed = tr.completed ++ [batch] :=
      filterMap_more rfl
    refine ⟨?_, nofun, ?_, ⟨?_, ?_⟩, ?_⟩
    · simpa [List.filterMap_cons, DataPc.pending, Act.queued?, Act.passed?] using horder
    · simpa [List.filterMap_cons, Act.collected?] using hcollected
    · rw [hc, List.flatten_append, List.flatten_singleton, ← hpassed]
      simp [List.filterMap_cons, Act.passed?]
    · rw [hc, ← hcol]
      simp [List.filterMap_cons, Act.collected?]
    · constructor
      · simpa [List.filterMap_cons, LockFreeActorStats.recordBatchOperation, DataPc.inFlight, Act.passed?] using h₁
      · simpa [List.filterMap_cons, LockFreeActorStats.recordBatchOperation, Act.succeeded?] using h₂
      · simpa [List.filterMap_cons, LockFreeActorStats.recordBatchOperation, Act.failed?] using h₃
      · simpa [List.filterMap_cons, LockFreeActorStats.recordBatchOperation, Act.succeeded?] using h₄
      · simpa [List.filterMap_cons, Act.succeeded?, Act.messageSent?] using h₅
      · rw [hc]
        simp [LockFreeActorStats.recordBatchOperation, h₆]
      · rw [hc]
        simp [LockFreeActorStats.recordBatchOperation, h₇]
  · cases hs

theorem dataInv_data {l : DataLabel} (hs : d.step m l = some (d', acts)) (h : DataInv m tr d) : DataInv m (tr ++ acts) d' := by
  cases l with
  | receive => exact dataInv_receive hs h
  | tryReceive => exact dataInv_tryReceive hs h
  | check connected => exact dataInv_check hs h
  | result r => exact dataInv_result hs h
  | complete => exact dataInv_complete hs h

/-! ### The other tasks -/

def TransportCommand.closes : TransportCommand → Bool
  | .close _ | .forceDisconnect _ _ => true
  | _ => false

/-- What a command does: it is answered, and at most a packet or a shutdown goes to the internal queue. -/
theorem command_cases (sessionId : SessionId) (s : State) (command : TransportCommand) : ∃ answer running internal acks,
    s.command sessionId command = ⟨running, internal, s.pipelineRunning, s.data, acks, s.trace ++ [.answered command answer]⟩ ∧
      (internal = s.internal ∧ acks = s.acks ∨
        (∃ packet, command = .send sessionId packet ∧ s.pipelineRunning = true ∧ answer = .result (.ok ()) ∧
          internal = s.internal ++ [.sendPacket ⟨packet, some s.acks⟩] ∧ acks = s.acks + 1) ∨
        command.closes = true ∧ answer = .result (.ok ()) ∧ internal = s.internal ++ [.shutdown] ∧ acks = s.acks) := by
  unfold State.command State.shutdown
  cases command with
  | send id packet =>
    simp only
    split
    · exact ⟨_, _, _, _, rfl, .inl ⟨rfl, rfl⟩⟩
    · next hid =>
      obtain rfl := not_not.1 hid
      split
      · next hrun => exact ⟨_, _, _, _, rfl, .inr (.inl ⟨packet, rfl, hrun, rfl, rfl, rfl⟩)⟩
      · exact ⟨_, _, _, _, rfl, .inl ⟨rfl, rfl⟩⟩
  | close id | forceDisconnect id reason =>
    simp only
    split
    · exact ⟨_, _, _, _, rfl, .inl ⟨rfl, rfl⟩⟩
    · split
      · exact ⟨_, _, _, _, rfl, .inr (.inr ⟨rfl, rfl, rfl, rfl⟩)⟩
      · exact ⟨_, _, _, _, rfl, .inl ⟨rfl, rfl⟩⟩
  | getConnectionInfo id | pauseSession id | resumeSession id =>
    simp only
    split <;> exact ⟨_, _, _, _, rfl, .inl ⟨rfl, rfl⟩⟩
  | configure | getStats | getActiveSessions => exact ⟨_, _, _, _, rfl, .inl ⟨rfl, rfl⟩⟩

/-- What the command pipeline does with the head of its queue. -/
theorem control_cases (hs : s.control = some s') : s.pipelineRunning = true ∧
    ((∃ item internal, s.internal = .sendPacket item :: internal ∧ s' = State.queue { s with internal := internal } item) ∨
      (∃ (c : ActorCommand) (internal : List ActorCommand) (events : List ActorEvent), s.internal = c :: internal ∧ (c = .getStats ∨ c = .healthCheck) ∧
        s' = State.record { s with internal := internal } (events.map .reported)) ∨
      ∃ internal, s.internal = .shutdown :: internal ∧
        s' = State.record { s with internal := internal, pipelineRunning := false }
          [.reported .shutdown, .published (.connectionClosed .normal)]) := by
  unfold State.control at hs
  split at hs
  · next item internal hrun hint =>
    cases hs
    exact ⟨hrun, .inl ⟨item, internal, hint, rfl⟩⟩
  · next internal hrun hint =>
    cases hs
    exact ⟨hrun, .inr (.inl ⟨_, internal, [], hint, .inl rfl, by simp [State.record]⟩)⟩
  · next internal hrun hint =>
    cases hs
    exact ⟨hrun, .inr (.inl ⟨_, internal, [.healthCheck], hint, .inr rfl, rfl⟩)⟩
  · next internal hrun hint =>
    cases hs
    exact ⟨hrun, .inr (.inr ⟨internal, hint, rfl⟩)⟩
  · cases hs

theorem dataInv_control (hs : s.control = some s') (h : DataInv m s.trace s.data) : DataInv m s'.trace s'.data := by
  obtain ⟨-, ⟨item, internal, -, rfl⟩ | ⟨c, internal, events, -, -, rfl⟩ | ⟨internal, -, rfl⟩⟩ := control_cases hs
  · exact h.control rfl (by simp [Act.control])
  · have hc : ∀ a ∈ events.map Act.reported, a.control = true := by simp [Act.control]
    exact h.silent (List.filterMap_eq_nil_iff.2 (by simp [Act.queued?])) hc
  · exact h.silent rfl (by simp [Act.control])

theorem dataInv_step {l : Label} (hs : step sessionId m s l = some s') (h : DataInv m s.trace s.data) :
    DataInv m s'.trace s'.data := by
  cases l with
  | command command =>
    obtain ⟨answer, running, internal, acks, hc, -⟩ := command_cases sessionId s command
    simp only [step, Option.ite_none_right_eq_some, hc] at hs
    cases hs.2
    exact h.silent rfl (by simp [Act.control])
  | hangUp =>
    simp only [step, Option.ite_none_right_eq_some] at hs
    cases hs.2
    exact h
  | control => exact dataInv_control hs h
  | external packet =>
    cases hs
    exact h.control rfl (by simp [Act.control])
  | data l =>
    obtain ⟨⟨d, acts⟩, hd, rfl⟩ := Option.map_eq_some_iff.1 hs
    exact dataInv_data hd h

theorem DataInv.start : DataInv m start.trace start.data :=
  ⟨rfl, nofun, nofun, ⟨rfl, rfl⟩, ⟨rfl, rfl, rfl, rfl, rfl, rfl, rfl⟩⟩

theorem DataInv.law (h : DataInv m s.trace s.data) : DataLaw m s := by
  have hdrained := h.drained
  refine ⟨h.order ▸ List.prefix_append .., h.collected, h.counted, ?_⟩
  unfold Drained at hdrained
  split at hdrained
  · obtain ⟨hpassed, hcol⟩ := hdrained
    rw [hpassed, hcol]
    exact ⟨List.prefix_rfl, Nat.le_succ _, List.prefix_rfl⟩
  · obtain ⟨hpassed, hcol⟩ := hdrained
    rw [hpassed, hcol]
    exact ⟨List.prefix_rfl, Nat.le_succ _, List.prefix_rfl⟩
  all_goals
    obtain ⟨given, -, hpassed, hcol⟩ := hdrained
    rw [hpassed, hcol]
    exact ⟨List.prefix_append .., by simp, List.prefix_append ..⟩

/-- Whatever is put on the channel and when, and whatever the adapter answers. -/
theorem dataLaw_always (sessionId : SessionId) (maxBatchSize : ℕ) (ls : List Label) :
    StepSystem.Always (step sessionId maxBatchSize) (DataLaw maxBatchSize) start ls := by
  intro ms s _ hr
  have h : DataInv maxBatchSize s.trace s.data := StepSystem.run_invariant (I := fun s => DataInv maxBatchSize s.trace s.data)
    (fun _ _ _ => dataInv_step) hr DataInv.start
  exact h.law

end Actor

end Msgtrans
