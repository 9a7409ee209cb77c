import Mathlib.Algebra.BigOperators.Group.List.Basic
import Msgtrans.Lib.CommandQueue
import Msgtrans.Lib.Indexed
import Msgtrans.Lib.Run
import Msgtrans.Event

/-!
# The lock-free connection (`transport/lockfree_connection.rs`)

The calls on all clones of a `LockFreeConnection` send commands to one worker, which owns the underlying
connection, and each waits for the reply to its own command. A `Close` that succeeds or times out ends the worker,
and with it what is still in the queue; so does the last clone going away.

What the underlying connection does with a command is an `Outcome`. The status flag each clone has of its own is in
`CloseStatus`. The commands `IsConnected` and `GetConnectionInfo`, which nothing sends, are left out, and a spawned task is
taken to run to its end, as one does while the runtime is up.

`served_of_run`: in every interleaving commands are executed at most once and in order, and every caller gets the outcome of
its own command.
-/

namespace Msgtrans

namespace LockFreeConnection

inductive Kind where
  | send (packet : Packet)
  | close
  | flush

def Kind.isSend : Kind → Bool
  | .send _ => true
  | _ => false

/-- What an operation of the underlying connection comes to. -/
inductive Outcome where
  | ok
  | error (e : TransportError)
  | timeout

abbrev Answer := Except TransportError Unit

def Kind.timeoutError : Kind → TransportError
  | .send _ => .connection "Send operation timeout" false
  | .close => .connection "Close operation timeout" false
  | .flush => .connection "Flush operation timeout" false

/-- The reply to a command. -/
def result (kind : Kind) : Outcome → Answer
  | .ok => .ok ()
  | .error e => .error e
  | .timeout => .error kind.timeoutError

/-- A command, with the call that waits for its reply. -/
structure Command where
  call : ℕ
  kind : Kind

/-- The worker ends after a close that succeeds or times out. -/
def stops (c : Command) : Outcome → Bool
  | .error _ => false
  | _ => match c.kind with
    | .close => true
    | _ => false

/-- The `oneshot` channel of a call: its sender is with the command. -/
inductive Reply where
  | pending
  | sent (answer : Answer)
  | dropped

inductive CallPhase where
  | start
  | waiting
  | done (answer : Answer)

structure Call where
  handle : ℕ
  kind : Kind
  phase : CallPhase
  reply : Reply

/-- A `send_batch_lockfree`: the packets it was given, its tasks, and what it has collected from them. -/
structure Batch where
  handle : ℕ
  packets : List Packet
  tasks : List ℕ
  results : List Answer

/-- The batch has returned its results. -/
def Batch.Returned (b : Batch) : Prop := b.tasks.length = b.packets.length ∧ b.results.length = b.tasks.length

structure Stats where
  packetsSent : ℕ
  bytesSent : ℕ
  sendFailures : ℕ

def Stats.record (stats : Stats) (kind : Kind) (o : Outcome) : Stats :=
  match kind, o with
  | .send packet, .ok => { stats with
      packetsSent := stats.packetsSent + 1, bytesSent := stats.bytesSent + packet.payload.length }
  | .send _, _ => { stats with sendFailures := stats.sendFailures + 1 }
  | _, _ => stats

/-- A clone; it is there until it is dropped. -/
structure Handle where
  isConnected : Bool
  live : Bool

structure State where
  handles : List Handle
  calls : List Call
  batches : List Batch
  commands : CommandQueue.State Command Outcome
  stats : Stats

def start (isConnected : Bool) : State := ⟨[⟨isConnected, true⟩], [], [], .new, ⟨0, 0, 0⟩⟩

inductive Label where
  | clone (handle : ℕ)
  | drop (handle : ℕ)
  | call (handle : ℕ) (kind : Kind)
  | batch (handle : ℕ) (packets : List Packet)
  /-- batch `b` clones the connection and spawns the task of its next packet -/
  | spawn (b : ℕ)
  /-- `command_tx.send` -/
  | send (i : ℕ)
  /-- `response_rx` resolves -/
  | receive (i : ℕ)
  /-- batch `b` awaits its next task -/
  | join (b : ℕ)
  | take
  /-- the operation the worker awaits ends, and is counted -/
  | finish (o : Outcome)
  | reply
  | exit
  | hangUp

def State.handle? (s : State) (k : ℕ) : Option Handle := s.handles[k]?.bind fun h => if h.live then some h else none

def CallPhase.isDone : CallPhase → Bool
  | .done _ => true
  | _ => false

/-- Nothing borrows the clone. -/
def State.unborrowed (s : State) (k : ℕ) : Bool :=
  s.calls.all (fun c => c.handle != k || c.phase.isDone) &&
    s.batches.all fun b => b.handle != k || (b.tasks.length == b.packets.length && b.results.length == b.tasks.length)

def State.newCall (s : State) (handle : ℕ) (kind : Kind) : State :=
  { s with calls := s.calls ++ [⟨handle, kind, .start, .pending⟩] }

/-- What the call returns once its reply channel has resolved. -/
def Reply.answer : Reply → Option Answer
  | .pending => none
  | .sent answer => some answer
  | .dropped => some (.error (.connection "Response channel closed" false))

/-- After `close_lockfree` has succeeded, its handle reports the connection closed. -/
def State.noteClosed (s : State) (c : Call) (answer : Answer) : State :=
  match c.kind, answer, s.handles[c.handle]? with
  | .close, .ok _, some h => { s with handles := s.handles.set c.handle { h with isConnected := false } }
  | _, _, _ => s

/-- The queue goes, and the reply channels of the commands in it. -/
def dropReplies (queue : List Command) (calls : List Call) : List Call :=
  calls.mapIdx fun i c => if i ∈ queue.map Command.call then { c with reply := .dropped } else c

def step (s : State) : Label → Option State
  | .clone k => (s.handle? k).map fun h => { s with handles := s.handles ++ [h] }
  | .drop k => (s.handle? k).bind fun h =>
    if s.unborrowed k then some { s with handles := s.handles.set k { h with live := false } } else none
  | .call k kind => (s.handle? k).map fun _ => s.newCall k kind
  | .batch k packets => (s.handle? k).map fun _ => { s with batches := s.batches ++ [⟨k, packets, [], []⟩] }
  | .spawn b => s.batches[b]?.bind fun batch => (s.handle? batch.handle).bind fun h =>
    batch.packets[batch.tasks.length]?.map fun packet =>
      State.newCall { s with
        handles := s.handles ++ [h]
        batches := s.batches.set b { batch with tasks := batch.tasks ++ [s.calls.length] } } s.handles.length (.send packet)
  | .send i => s.calls[i]?.bind fun c => match c.phase with
    | .start => match s.commands.send ⟨i, c.kind⟩ with
      | some commands => some { s with commands := commands, calls := s.calls.set i { c with phase := .waiting } }
      | none => some { s with
          calls := s.calls.set i { c with phase := .done (.error (.connection "Connection closed" false)) } }
    | _ => none
  | .receive i => s.calls[i]?.bind fun c => match c.phase with
    | .waiting => c.reply.answer.map fun answer =>
      State.noteClosed { s with calls := s.calls.set i { c with phase := .done answer } } c answer
    | _ => none
  | .join b => s.batches[b]?.bind fun batch =>
    if batch.tasks.length = batch.packets.length then
      batch.tasks[batch.results.length]?.bind fun i => s.calls[i]?.bind fun c => match c.phase with
        | .done answer => some { s with
            batches := s.batches.set b { batch with results := batch.results ++ [answer] } }
        | _ => none
    else none
  | .take => s.commands.take.map fun commands => { s with commands := commands }
  | .finish o => (s.commands.finish o).map fun (c, commands) =>
    { s with commands := commands, stats := s.stats.record c.kind o }
  | .reply => (s.commands.reply stops).bind fun ((command, o), commands) => s.calls[command.call]?.map fun c =>
    { s with
      commands := commands
      calls := s.calls.set command.call { c with reply := .sent (result command.kind o) } }
  | .exit => s.commands.exit.map fun commands =>
    { s with commands := commands, calls := dropReplies s.commands.queue s.calls }
  | .hangUp => if s.handles.all (fun h => !h.live) then
      s.commands.hangUp.map fun commands => { s with commands := commands }
    else none

/-! ### What is promised -/

/-- The payload bytes an execution has sent. -/
def sentBytes : Command × Outcome → ℕ
  | (⟨_, .send packet⟩, .ok) => packet.payload.length
  | _ => 0

abbrev Commands := CommandQueue.State Command Outcome

/-- Call `i` got what the execution of its command came to. -/
def Got (q : Commands) (i : ℕ) (kind : Kind) (answer : Answer) : Prop :=
  ∃ o, (⟨i, kind⟩, o) ∈ q.executed ∧ answer = result kind o

def Unexecuted (q : Commands) (i : ℕ) : Prop := ∀ x ∈ q.executed, x.1.call ≠ i

/-- The answer to a caller whose command came to `o`. -/
def Outcome.Told (kind : Kind) (answer : Answer) : Outcome → Prop
  | .ok => answer = .ok ()
  | .error e => answer = .error e
  | .timeout => answer = .error (.connection (match kind with
      | .send _ => "Send operation timeout"
      | .close => "Close operation timeout"
      | .flush => "Flush operation timeout") false)

/-- The call of an executed command: its reply is on the way, there, or returned. -/
inductive Served (q : Commands) (x : Command × Outcome) (c : Call) : Prop
  | replying (hq : q.phase = .replying x.1 x.2) (hw : c.phase = .waiting) (hr : c.reply = .pending)
  | replied (answer : Answer) (hw : c.phase = .waiting) (hr : c.reply = .sent answer) (ht : x.2.Told c.kind answer)
  | returned (answer : Answer) (hd : c.phase = .done answer) (ht : x.2.Told c.kind answer)

/-- Nothing follows the close in what the worker executes, all that was sent before it is executed, and the worker is at
its end. -/
structure Closed (q : Commands) (close : Command) (o : Outcome) : Prop where
  before : ∃ before after, q.executed = before ++ [(close, o)] ∧ q.sent = before.map Prod.fst ++ close :: after
  ends : q.phase = .replying close o ∨ q.phase = .stopping ∨ q.phase = .ended

structure Law (s : State) : Prop where
  /-- the commands executed are the first ones sent, in that order -/
  order : s.commands.executed.map Prod.fst <+: s.commands.sent
  once : (s.commands.executed.map fun x => x.1.call).Nodup
  executed : ∀ x ∈ s.commands.executed, ∃ c : Call, s.calls[x.1.call]? = some c ∧ c.kind = x.1.kind ∧ Served s.commands x c
  unexecuted : ∀ (i : ℕ) (c : Call) answer, s.calls[i]? = some c → c.phase = .done answer → Unexecuted s.commands i →
    ∃ e, answer = .error e
  /-- when the worker has ended, no call waits in vain -/
  resolved : s.commands.phase = .ended → ∀ (i : ℕ) (c : Call), s.calls[i]? = some c → c.phase = .waiting → c.reply.answer.isSome
  closed : ∀ i o, (⟨i, .close⟩, o) ∈ s.commands.executed → o = .ok ∨ o = .timeout → Closed s.commands ⟨i, .close⟩ o
  batch : ∀ b ∈ s.batches, b.Returned → b.tasks.Nodup ∧ b.results.length = b.packets.length ∧
    ∀ (j : ℕ) packet, b.packets[j]? = some packet → ∃ (i : ℕ) (c : Call) (answer : Answer), b.tasks[j]? = some i ∧ s.calls[i]? = some c ∧
      c.kind = .send packet ∧ c.phase = .done answer ∧ b.results[j]? = some answer
  counted : s.stats.packetsSent + s.stats.sendFailures = s.commands.executed.countP fun x => x.1.kind.isSend
  bytes : s.stats.bytesSent = (s.commands.executed.map sentBytes).sum

/-! ### What every step keeps -/

/-- Where a call stands fits where its command does. -/
structure CallInv (q : Commands) (i : ℕ) (c : Call) : Prop where
  held : ∀ command ∈ q.holding, command.call = i → c.phase = .waiting ∧ c.reply = .pending
  pending : c.phase = .waiting → c.reply = .pending → ∃ command ∈ q.holding, command.call = i
  start : c.phase = .start → c.reply = .pending ∧ ∀ command ∈ q.sent, command.call ≠ i
  sent : ∀ answer, c.reply = .sent answer → Got q i c.kind answer
  dropped : c.reply = .dropped → Unexecuted q i
  done : ∀ answer, c.phase = .done answer → Got q i c.kind answer ∨ Unexecuted q i ∧ ∃ e, answer = .error e

structure BatchInv (calls : List Call) (b : Batch) : Prop where
  nodup : b.tasks.Nodup
  tasks_le : b.tasks.length ≤ b.packets.length
  task : ∀ (j i : ℕ), b.tasks[j]? = some i → ∃ (c : Call) (packet : Packet), calls[i]? = some c ∧ b.packets[j]? = some packet ∧ c.kind = .send packet
  results_le : b.results.length ≤ b.tasks.length
  result : ∀ (j : ℕ) answer, b.results[j]? = some answer →
    ∃ (i : ℕ) (c : Call), b.tasks[j]? = some i ∧ calls[i]? = some c ∧ c.phase = .done answer

structure Inv (s : State) : Prop where
  commands : CommandQueue.Inv stops s.commands
  nodup : (s.commands.sent.map Command.call).Nodup
  sent : ∀ command ∈ s.commands.sent, ∃ c, s.calls[command.call]? = some c ∧ c.kind = command.kind
  call : ∀ (i : ℕ) (c : Call), s.calls[i]? = some c → CallInv s.commands i c
  batch : ∀ b ∈ s.batches, BatchInv s.calls b
  counted : s.stats.packetsSent + s.stats.sendFailures = s.commands.executed.countP fun x => x.1.kind.isSend
  bytes : s.stats.bytesSent = (s.commands.executed.map sentBytes).sum

variable {s s' : State} {q q' : Commands} {calls calls' : List Call} {i k : ℕ} {c : Call} {b : Batch} {command : Command}
  {o : Outcome} {answer : Answer}

theorem inv_start (isConnected : Bool) : Inv (start isConnected) :=
  ⟨CommandQueue.inv_new, List.nodup_nil, by simp [start, CommandQueue.State.new], by simp [start], by simp [start], rfl,
    rfl⟩

theorem told_result (kind : Kind) (o : Outcome) : o.Told kind (result kind o) := by
  cases o with
  | timeout => cases kind <;> rfl
  | _ => rfl

/-- Each command is executed once, so the answer its call got is what that execution came to. -/
theorem Inv.told {x : Command × Outcome} (h : Inv s) (hx : x ∈ s.commands.executed) {kind : Kind}
    (hg : Got s.commands x.1.call kind answer) : x.2.Told kind answer := by
  obtain ⟨o, hm, rfl⟩ := hg
  have he : x = (⟨x.1.call, kind⟩, o) :=
    List.inj_on_of_nodup_map (f := fun x => x.1.call) (h.commands.executed_nodup h.nodup) hx hm rfl
  rw [he]
  exact told_result kind o

theorem Inv.served {x : Command × Outcome} (h : Inv s) (hx : x ∈ s.commands.executed) :
    ∃ c, s.calls[x.1.call]? = some c ∧ c.kind = x.1.kind ∧ Served s.commands x c := by
  obtain ⟨c, hc, hkind⟩ := h.sent x.1 (h.commands.mem_sent hx)
  have hcall := h.call _ c hc
  refine ⟨c, hc, hkind, ?_⟩
  cases hp : c.phase with
  | start => exact absurd rfl ((hcall.start hp).2 x.1 (h.commands.mem_sent hx))
  | waiting =>
    cases hr : c.reply with
    | pending =>
      obtain ⟨command, hm, he⟩ := hcall.pending hp hr
      exact .replying (h.commands.replying_of_holding h.nodup hm hx he) hp hr
    | sent answer => exact .replied answer hp hr (h.told hx (hcall.sent answer hr))
    | dropped => exact absurd rfl (hcall.dropped hr x hx)
  | done answer =>
    rcases hcall.done answer hp with hg | ⟨hu, -⟩
    · exact .returned answer hp (h.told hx hg)
    · exact absurd rfl (hu x hx)

theorem Inv.closed (h : Inv s) (hx : (⟨i, .close⟩, o) ∈ s.commands.executed) (ho : o = .ok ∨ o = .timeout) :
    Closed s.commands ⟨i, .close⟩ o := by
  have hstops : stops ⟨i, .close⟩ o := by rcases ho with rfl | rfl <;> rfl
  obtain ⟨before, hbefore⟩ := h.commands.last_of_stops hx hstops
  obtain ⟨rest, hsent⟩ := h.commands.first_sent
  refine ⟨⟨before, rest, hbefore, ?_⟩, ?_⟩
  · rw [← hsent, hbefore]
    simp
  · have hst := h.commands.stopped _ hx hstops
    cases hp : s.commands.phase with
    | replying c o' =>
      rw [hp] at hst
      obtain ⟨before', hbefore'⟩ := h.commands.last_of_stops (h.commands.replying c o' hp) hst
      cases (List.append_inj' (hbefore.symm.trans hbefore') rfl).2
      exact .inl rfl
    | stopping => exact .inr (.inl rfl)
    | ended => exact .inr (.inr rfl)
    | _ => rw [hp] at hst; exact absurd hst id

theorem Inv.law (h : Inv s) : Law s := by
  obtain ⟨hq, hnd, hsent, hcall, hbatch, hcounted, hbytes⟩ := id h
  refine ⟨hq.first_sent, hq.executed_nodup hnd, fun x hx => h.served hx, ?_, ?_, fun i o hx ho => h.closed hx ho, ?_, hcounted,
    hbytes⟩
  · intro i c answer hc hd hun
    rcases (hcall i c hc).done answer hd with ⟨o, hm, -⟩ | ⟨-, he⟩
    · exact absurd rfl (hun _ hm)
    · exact he
  · intro hended i c hc hw
    have hnone : s.commands.holding = [] := by
      rw [CommandQueue.State.holding, hended, hq.ended hended]
      rfl
    cases hr : c.reply with
    | pending =>
      obtain ⟨command, hmem, -⟩ := (hcall i c hc).pending hw hr
      rw [hnone] at hmem
      cases hmem
    | sent answer => rfl
    | dropped => rfl
  · rintro b hb ⟨hspawned, hjoined⟩
    have hinv := hbatch b hb
    refine ⟨hinv.nodup, hjoined.trans hspawned, fun j packet hj => ?_⟩
    have hlt : j < b.results.length := by
      have := (List.getElem?_eq_some_iff.1 hj).1
      omega
    have hres := List.getElem?_eq_getElem hlt
    obtain ⟨i, c, htask, hc, hdone⟩ := hinv.result j _ hres
    obtain ⟨c', packet', hc', hj', hkind⟩ := hinv.task j i htask
    cases hc.symm.trans hc'
    cases hj.symm.trans hj'
    exact ⟨i, c, _, htask, hc, hkind, hdone, hres⟩

/-- Calls stay what they are, and what is returned. -/
def Grows (calls calls' : List Call) : Prop :=
  ∀ (i : ℕ) (c : Call), calls[i]? = some c → ∃ c' : Call, calls'[i]? = some c' ∧ c'.kind = c.kind ∧
    ∀ answer, c.phase = .done answer → c'.phase = .done answer

theorem Grows.refl : Grows calls calls := fun _ c hc => ⟨c, hc, rfl, fun _ h => h⟩

theorem grows_concat : Grows calls (calls ++ [c]) := fun _ d hd =>
  ⟨d, Indexed.getElem?_concat_of_some hd, rfl, fun _ h => h⟩

theorem grows_set {c' : Call} (hc : calls[i]? = some c) (hkind : c'.kind = c.kind)
    (hphase : ∀ answer, c.phase = .done answer → c'.phase = .done answer) : Grows calls (calls.set i c') := by
  intro j d hd
  by_cases hj : j = i
  · subst hj
    cases hc.symm.trans hd
    exact ⟨c', Indexed.getElem?_set_self_of_some hc, hkind, hphase⟩
  · exact ⟨d, (Indexed.getElem?_set_of_some hc).trans ((if_neg hj).trans hd), rfl, fun _ h => h⟩

theorem BatchInv.grows (h : BatchInv calls b) (hg : Grows calls calls') : BatchInv calls' b := by
  refine ⟨h.nodup, h.tasks_le, fun j i hj => ?_, h.results_le, fun j answer hj => ?_⟩
  · obtain ⟨c, packet, hc, hp, hk⟩ := h.task j i hj
    obtain ⟨c', hc', hk', -⟩ := hg i c hc
    exact ⟨c', packet, hc', hp, hk'.trans hk⟩
  · obtain ⟨i, c, ht, hc, hd⟩ := h.result j answer hj
    obtain ⟨c', hc', -, hd'⟩ := hg i c hc
    exact ⟨i, c', ht, hc', hd' answer hd⟩

/-- A step at the queue and the calls keeps the invariant where it keeps it for each call. -/
theorem Inv.of_calls (h : Inv s) (hq : CommandQueue.Inv stops q) (hsent : q.sent = s.commands.sent)
    (hexecuted : q.executed = s.commands.executed) (hg : Grows s.calls calls)
    (hcall : ∀ (i : ℕ) (c : Call), calls[i]? = some c → CallInv q i c) : Inv { s with commands := q, calls := calls } := by
  refine ⟨hq, hsent ▸ h.nodup, fun command hcommand => ?_, hcall, fun b hb => (h.batch b hb).grows hg, ?_, ?_⟩
  · rw [hsent] at hcommand
    obtain ⟨c, hc, hk⟩ := h.sent command hcommand
    obtain ⟨c', hc', hk', -⟩ := hg command.call c hc
    exact ⟨c', hc', hk'.trans hk⟩
  · show _ = q.executed.countP _
    rw [hexecuted]
    exact h.counted
  · show _ = (q.executed.map _).sum
    rw [hexecuted]
    exact h.bytes

/-- What a call knows of the queue. -/
theorem CallInv.congr (h : CallInv q i c) (hheld : ∀ command, command ∈ q'.holding ↔ command ∈ q.holding)
    (hsent : q'.sent = q.sent) (hexecuted : q'.executed = q.executed) : CallInv q' i c := by
  obtain ⟨hh, hp, hs, hr, hd, hdone⟩ := h
  refine ⟨fun command hm => hh command ((hheld command).1 hm), fun hw hr => ?_, ?_, ?_, ?_, ?_⟩
  · obtain ⟨command, hm, hc⟩ := hp hw hr
    exact ⟨command, (hheld command).2 hm, hc⟩
  · rwa [hsent]
  · simpa only [Got, hexecuted] using hr
  · simpa only [Unexecuted, hexecuted] using hd
  · simpa only [Got, Unexecuted, hexecuted] using hdone

theorem Inv.newCall {handle : ℕ} {kind : Kind} (h : Inv s) : Inv (s.newCall handle kind) := by
  refine h.of_calls h.commands rfl rfl grows_concat fun i c hc => ?_
  rcases Indexed.getElem?_concat_eq_some.1 hc with hc | ⟨rfl, rfl⟩
  · exact h.call i c hc
  · have hnew : ∀ command ∈ s.commands.sent, command.call ≠ s.calls.length := by
      intro command hm he
      obtain ⟨c, hc, -⟩ := h.sent command hm
      rw [he, List.getElem?_eq_none (Nat.le_refl _)] at hc
      cases hc
    exact ⟨fun command hm he => absurd he (hnew command (h.commands.holding_sent hm)), nofun, fun _ => ⟨rfl, hnew⟩, nofun, nofun,
      nofun⟩

/-- The invariant does not look at the handles. -/
theorem Inv.of_eq (h : Inv s) (hq : s'.commands = s.commands) (hc : s'.calls = s.calls) (hb : s'.batches = s.batches)
    (hs : s'.stats = s.stats) : Inv s' := by
  obtain ⟨handles, calls, batches, commands, stats⟩ := s'
  subst hq hc hb hs
  exact ⟨h.commands, h.nodup, h.sent, h.call, h.batch, h.counted, h.bytes⟩

/-- One call changes, and what the others know of the queue does not. -/
theorem Inv.of_set {c' : Call} (h : Inv s) (hc : s.calls[i]? = some c) (hkind : c'.kind = c.kind)
    (hphase : ∀ answer, c.phase = .done answer → c'.phase = .done answer) (hcall : CallInv s.commands i c') :
    Inv { s with calls := s.calls.set i c' } := by
  refine h.of_calls h.commands rfl rfl (grows_set hc hkind hphase) fun j d hd => ?_
  rcases Indexed.of_getElem?_set hc hd with ⟨rfl, rfl⟩ | ⟨-, hd⟩
  · exact hcall
  · exact h.call j d hd

theorem Inv.send (h : Inv s) (hc : s.calls[i]? = some c) (hstart : c.phase = .start)
    (hs : s.commands.send ⟨i, c.kind⟩ = some q) :
    Inv { s with commands := q, calls := s.calls.set i { c with phase := .waiting } } := by
  obtain ⟨-, rfl, hq⟩ := h.commands.send hs
  obtain ⟨hpending, hnew⟩ := (h.call i c hc).start hstart
  have hgrows : Grows s.calls (s.calls.set i { c with phase := .waiting }) :=
    grows_set hc rfl fun answer hd => by rw [hstart] at hd; cases hd
  refine ⟨hq, ?_, ?_, fun j d hd => ?_, fun b hb => (h.batch b hb).grows hgrows, h.counted, h.bytes⟩
  · show ((s.commands.sent ++ [(⟨i, c.kind⟩ : Command)]).map Command.call).Nodup
    rw [List.map_append, List.nodup_append]
    refine ⟨h.nodup, List.nodup_singleton _, fun a ha b hb => ?_⟩
    obtain ⟨command, hm, rfl⟩ := List.mem_map.1 ha
    cases List.mem_singleton.1 hb
    exact hnew command hm
  · intro command hm
    rcases List.mem_append.1 hm with hm | hm
    · obtain ⟨d, hd, hk⟩ := h.sent command hm
      obtain ⟨d', hd', hk', -⟩ := hgrows command.call d hd
      exact ⟨d', hd', hk'.trans hk⟩
    · cases List.mem_singleton.1 hm
      exact ⟨_, Indexed.getElem?_set_self_of_some hc, rfl⟩
  · have hholding : CommandQueue.State.holding
        { s.commands with queue := s.commands.queue ++ [⟨i, c.kind⟩], sent := s.commands.sent ++ [⟨i, c.kind⟩] } =
        s.commands.holding ++ [⟨i, c.kind⟩] := (List.append_assoc ..).symm
    rcases Indexed.of_getElem?_set hc hd with ⟨rfl, rfl⟩ | ⟨hne, hd⟩
    · obtain ⟨-, -, -, hsent, hdropped, -⟩ := h.call j c hc
      have hmem : (⟨j, c.kind⟩ : Command) ∈ s.commands.holding ++ [⟨j, c.kind⟩] :=
        List.mem_append_right _ List.mem_cons_self
      exact ⟨fun _ _ _ => ⟨rfl, hpending⟩, fun _ _ => ⟨_, hholding ▸ hmem, rfl⟩, nofun, hsent, hdropped, nofun⟩
    · obtain ⟨hheld, hpend, hstart', hsent, hdropped, hdone⟩ := h.call j d hd
      refine ⟨fun command hm he => ?_, fun hw hr => ?_, fun hd => ?_, hsent, hdropped, hdone⟩
      · rw [hholding] at hm
        rcases List.mem_append.1 hm with hm | hm
        · exact hheld command hm he
        · cases List.mem_singleton.1 hm
          exact absurd he.symm hne
      · obtain ⟨command, hm, he⟩ := hpend hw hr
        refine ⟨command, ?_, he⟩
        rw [hholding]
        exact List.mem_append_left _ hm
      · obtain ⟨hr, hn⟩ := hstart' hd
        refine ⟨hr, fun command hm => ?_⟩
        rcases List.mem_append.1 hm with hm | hm
        · exact hn command hm
        · cases List.mem_singleton.1 hm
          exact Ne.symm hne

theorem Inv.sendClosed (h : Inv s) (hc : s.calls[i]? = some c) (hstart : c.phase = .start) (e : TransportError) :
    Inv { s with calls := s.calls.set i { c with phase := .done (.error e) } } := by
  obtain ⟨hpending, hnew⟩ := (h.call i c hc).start hstart
  refine h.of_set hc rfl (fun answer hd => by rw [hstart] at hd; cases hd) ⟨fun command hm he => ?_, nofun, nofun, ?_, ?_, ?_⟩
  · exact absurd he (hnew command (h.commands.holding_sent hm))
  · exact fun answer hr => nomatch hpending.symm.trans hr
  · exact fun hr => nomatch hpending.symm.trans hr
  · rintro answer ⟨⟩
    exact .inr ⟨fun x hx => hnew x.1 (h.commands.mem_sent hx), e, rfl⟩

theorem Inv.receive (h : Inv s) (hc : s.calls[i]? = some c) (hwaiting : c.phase = .waiting)
    (ha : c.reply.answer = some answer) : Inv { s with calls := s.calls.set i { c with phase := .done answer } } := by
  obtain ⟨hheld, -, -, hsent, hdropped, -⟩ := h.call i c hc
  have hresolved : c.reply ≠ .pending := by
    intro hr
    rw [hr] at ha
    cases ha
  refine h.of_set hc rfl (fun answer hd => by rw [hwaiting] at hd; cases hd) ⟨fun command hm he => ?_, nofun, nofun, hsent,
    hdropped, ?_⟩
  · exact absurd (hheld command hm he).2 hresolved
  · rintro answer' ⟨⟩
    cases hr : c.reply with
    | pending => exact absurd hr hresolved
    | sent a =>
      rw [hr] at ha
      cases ha
      exact .inl (hsent answer hr)
    | dropped =>
      rw [hr] at ha
      cases ha
      exact .inr ⟨hdropped hr, _, rfl⟩

theorem Inv.take (h : Inv s) (hs : s.commands.take = some q) : Inv { s with commands := q } := by
  obtain ⟨command, rest, hqueue, hphase, rfl, hq⟩ := h.commands.take hs
  refine h.of_calls hq rfl rfl .refl fun i c hc => (h.call i c hc).congr (fun command => ?_) rfl rfl
  rw [CommandQueue.State.holding, CommandQueue.State.holding, hphase, hqueue]
  rfl

theorem Inv.finish (h : Inv s) (hs : s.commands.finish o = some (command, q)) :
    Inv { s with commands := q, stats := s.stats.record command.kind o } := by
  obtain ⟨hphase, rfl, hq⟩ := h.commands.finish hs
  have hholding (d : Command) : d ∈ CommandQueue.State.holding
      { s.commands with phase := .replying command o, executed := s.commands.executed ++ [(command, o)] } ↔
      d ∈ s.commands.holding := by
    rw [CommandQueue.State.holding, CommandQueue.State.holding, hphase]
    rfl
  have hmem : command ∈ s.commands.holding := by
    rw [CommandQueue.State.holding, hphase]
    exact List.mem_cons_self
  have hgot {i kind answer} (hg : Got s.commands i kind answer) :
      Got { s.commands with phase := .replying command o, executed := s.commands.executed ++ [(command, o)] } i kind answer :=
    let ⟨o, hm, he⟩ := hg
    ⟨o, List.mem_append_left _ hm, he⟩
  -- a call that is not executed by now does not wait for this command
  have hun {i} (hne : command.call ≠ i) (hu : Unexecuted s.commands i) :
      Unexecuted { s.commands with phase := .replying command o, executed := s.commands.executed ++ [(command, o)] } i := by
    intro x hx
    rcases List.mem_append.1 hx with hx | hx
    · exact hu x hx
    · cases List.mem_singleton.1 hx
      exact hne
  refine ⟨hq, h.nodup, h.sent, fun i c hc => ?_, h.batch, ?_, ?_⟩
  · obtain ⟨hheld, hpending, hstart, hsent, hdropped, hdone⟩ := h.call i c hc
    refine ⟨fun d hd => hheld d ((hholding d).1 hd), fun hw hr => ?_, hstart, fun answer hr => hgot (hsent answer hr),
      fun hr => hun (fun he => ?_) (hdropped hr), fun answer hd => ?_⟩
    · obtain ⟨d, hd, he⟩ := hpending hw hr
      exact ⟨d, (hholding d).2 hd, he⟩
    · exact nomatch (hheld command hmem he).2.symm.trans hr
    · refine (hdone answer hd).imp hgot fun hu => ⟨hun (fun he => ?_) hu.1, hu.2⟩
      exact nomatch (hheld command hmem he).1.symm.trans hd
  · show (s.stats.record command.kind o).packetsSent + (s.stats.record command.kind o).sendFailures = _
    rw [List.countP_append, ← h.counted]
    rcases command with ⟨i, _ | _ | _⟩ <;> cases o <;> simp [Stats.record, Kind.isSend] <;> omega
  · show (s.stats.record command.kind o).bytesSent = _
    rw [List.map_append, List.sum_append, ← h.bytes]
    rcases command with ⟨i, _ | _ | _⟩ <;> cases o <;> rfl

theorem Inv.reply (h : Inv s) (hs : s.commands.reply stops = some ((command, o), q)) (hc : s.calls[command.call]? = some c) :
    Inv { s with
      commands := q
      calls := s.calls.set command.call { c with reply := .sent (result command.kind o) } } := by
  obtain ⟨hphase, rfl, hq⟩ := h.commands.reply hs
  have hheld : s.commands.holding = command :: s.commands.queue := by
    rw [CommandQueue.State.holding, hphase]
    rfl
  have hqueue : CommandQueue.State.holding
      { s.commands with phase := if stops command o then .stopping else .receiving } = s.commands.queue := by
    rw [CommandQueue.State.holding]
    split <;> rfl
  have hexec : (command, o) ∈ s.commands.executed := h.commands.replying command o hphase
  have hfresh : ∀ d ∈ s.commands.queue, d.call ≠ command.call := fun d hd =>
    (h.commands.queue_fresh h.nodup hd hexec).symm
  have hwait := (h.call _ c hc).held command (hheld ▸ List.mem_cons_self) rfl
  obtain ⟨c', hc', hkind⟩ := h.sent command (h.commands.mem_sent hexec)
  cases hc.symm.trans hc'
  refine h.of_calls hq rfl rfl (grows_set hc rfl fun _ hd => hd) fun j d hd => ?_
  rcases Indexed.of_getElem?_set hc hd with ⟨rfl, rfl⟩ | ⟨hne, hd⟩
  · refine ⟨fun d hd he => ?_, fun _ => nofun, fun hd => ?_, ?_, nofun, fun answer hd => ?_⟩
    · rw [hqueue] at hd
      exact absurd he (hfresh d hd)
    · exact nomatch hwait.1.symm.trans hd
    · rintro answer ⟨⟩
      exact ⟨o, by rw [hkind]; exact hexec, by rw [hkind]⟩
    · exact nomatch hwait.1.symm.trans hd
  · obtain ⟨hh, hpending, hstart, hsent, hdropped, hdone⟩ := h.call j d hd
    refine ⟨fun e he => ?_, fun hw hr => ?_, hstart, hsent, hdropped, hdone⟩
    · rw [hqueue] at he
      exact hh e (by rw [hheld]; exact List.mem_cons_of_mem _ he)
    · obtain ⟨e, he, hcall⟩ := hpending hw hr
      rw [hheld] at he
      rcases List.mem_cons.1 he with rfl | he
      · exact absurd hcall.symm hne
      · exact ⟨e, by rw [hqueue]; exact he, hcall⟩

theorem getElem?_dropReplies {queue : List Command} :
    (dropReplies queue calls)[i]? =
      calls[i]?.map fun c => if i ∈ queue.map Command.call then { c with reply := .dropped } else c :=
  List.getElem?_mapIdx

theorem Inv.exit (h : Inv s) (hs : s.commands.exit = some q) :
    Inv { s with commands := q, calls := dropReplies s.commands.queue s.calls } := by
  obtain ⟨hphase, rfl, hq⟩ := h.commands.exit hs
  have hheld : s.commands.holding = s.commands.queue := by
    rw [CommandQueue.State.holding, hphase]
    rfl
  refine h.of_calls hq rfl rfl (fun i c hc => ?_) fun i c hc => ?_
  · refine ⟨_, getElem?_dropReplies.trans (by rw [hc]; rfl), ?_, ?_⟩
    · split <;> rfl
    · intro answer hd
      split <;> exact hd
  · rw [getElem?_dropReplies] at hc
    obtain ⟨d, hd, rfl⟩ := Option.map_eq_some_iff.1 hc
    obtain ⟨hh, hpending, hstart, hsent, hdropped, hdone⟩ := h.call i d hd
    split
    · next hm =>
      obtain ⟨command, hcommand, rfl⟩ := List.mem_map.1 hm
      have hwait := hh command (by rw [hheld]; exact hcommand) rfl
      refine ⟨nofun, fun _ => nofun, fun hd => ?_, nofun, fun _ x hx => ?_, fun answer hd => ?_⟩
      · exact nomatch hwait.1.symm.trans hd
      · exact h.commands.queue_fresh h.nodup hcommand hx
      · exact nomatch hwait.1.symm.trans hd
    · next hm =>
      refine ⟨nofun, fun hw hr => ?_, hstart, hsent, hdropped, hdone⟩
      obtain ⟨command, hcommand, rfl⟩ := hpending hw hr
      rw [hheld] at hcommand
      exact absurd (List.mem_map_of_mem hcommand) hm

theorem Inv.hangUp (h : Inv s) (hs : s.commands.hangUp = some q) : Inv { s with commands := q } := by
  obtain ⟨hphase, -, rfl, hq⟩ := h.commands.hangUp hs
  refine h.of_calls hq rfl rfl .refl fun i c hc => (h.call i c hc).congr (fun command => ?_) rfl rfl
  rw [CommandQueue.State.holding, CommandQueue.State.holding, hphase]
  rfl

theorem Inv.addBatch (h : Inv s) (handle : ℕ) (packets : List Packet) :
    Inv { s with batches := s.batches ++ [⟨handle, packets, [], []⟩] } := by
  refine ⟨h.commands, h.nodup, h.sent, h.call, fun b hb => ?_, h.counted, h.bytes⟩
  rcases List.mem_append.1 hb with hb | hb
  · exact h.batch b hb
  · cases List.mem_singleton.1 hb
    exact ⟨List.nodup_nil, Nat.zero_le _, nofun, Nat.le_refl _, nofun⟩

theorem Inv.setBatch {b' : Batch} (h : Inv s) (hb' : BatchInv s.calls b') :
    Inv { s with batches := s.batches.set k b' } := by
  refine ⟨h.commands, h.nodup, h.sent, h.call, fun b hb => ?_, h.counted, h.bytes⟩
  rcases List.mem_or_eq_of_mem_set hb with hb | rfl
  · exact h.batch b hb
  · exact hb'

theorem BatchInv.spawn {packet : Packet} {handle : ℕ} (h : BatchInv calls b) (hp : b.packets[b.tasks.length]? = some packet) :
    BatchInv (calls ++ [⟨handle, .send packet, .start, .pending⟩]) { b with tasks := b.tasks ++ [calls.length] } := by
  have hnew : calls.length ∉ b.tasks := by
    intro hm
    obtain ⟨j, hj⟩ := List.mem_iff_getElem?.1 hm
    obtain ⟨c, -, hc, -⟩ := h.task j _ hj
    rw [List.getElem?_eq_none (Nat.le_refl _)] at hc
    cases hc
  have hg := h.grows (grows_concat (c := ⟨handle, .send packet, .start, .pending⟩))
  refine ⟨List.nodup_append.2 ⟨h.nodup, List.nodup_singleton _, fun a ha b hb hab => ?_⟩, ?_, fun j i hj => ?_, ?_,
    fun j answer hj => ?_⟩
  · exact hnew ((hab.trans (List.mem_singleton.1 hb)) ▸ ha)
  · have hlt := (List.getElem?_eq_some_iff.1 hp).1
    simp only [List.length_append, List.length_singleton]
    omega
  · rcases Indexed.getElem?_concat_eq_some.1 hj with hj | ⟨rfl, rfl⟩
    · exact hg.task j i hj
    · exact ⟨_, packet, List.getElem?_concat_length, hp, rfl⟩
  · have := h.results_le
    simp only [List.length_append, List.length_singleton]
    omega
  · obtain ⟨i, c, ht, hc, hd⟩ := hg.result j answer hj
    exact ⟨i, c, Indexed.getElem?_concat_of_some ht, hc, hd⟩

theorem BatchInv.join (h : BatchInv calls b) (hi : b.tasks[b.results.length]? = some i) (hc : calls[i]? = some c)
    (hd : c.phase = .done answer) : BatchInv calls { b with results := b.results ++ [answer] } := by
  refine ⟨h.nodup, h.tasks_le, h.task, ?_, fun j a hj => ?_⟩
  · have hlt := (List.getElem?_eq_some_iff.1 hi).1
    simp only [List.length_append, List.length_singleton]
    omega
  · rcases Indexed.getElem?_concat_eq_some.1 hj with hj | ⟨rfl, rfl⟩
    · exact h.result j a hj
    · exact ⟨i, c, hi, hc, hd⟩

theorem noteClosed_eq (s : State) (c : Call) (answer : Answer) :
    (s.noteClosed c answer).commands = s.commands ∧ (s.noteClosed c answer).calls = s.calls ∧
      (s.noteClosed c answer).batches = s.batches ∧ (s.noteClosed c answer).stats = s.stats := by
  unfold State.noteClosed
  split <;> exact ⟨rfl, rfl, rfl, rfl⟩

theorem inv_step {l : Label} (hs : step s l = some s') (h : Inv s) : Inv s' := by
  cases l with
  | clone k =>
    obtain ⟨handle, -, rfl⟩ := Option.map_eq_some_iff.1 hs
    exact h.of_eq rfl rfl rfl rfl
  | drop k =>
    obtain ⟨handle, -, hs⟩ := Option.bind_eq_some_iff.1 hs
    split at hs
    · cases hs
      exact h.of_eq rfl rfl rfl rfl
    · cases hs
  | call k kind =>
    obtain ⟨handle, -, rfl⟩ := Option.map_eq_some_iff.1 hs
    exact h.newCall
  | batch k packets =>
    obtain ⟨handle, -, rfl⟩ := Option.map_eq_some_iff.1 hs
    exact h.addBatch k packets
  | spawn k =>
    obtain ⟨b, hb, hs⟩ := Option.bind_eq_some_iff.1 hs
    obtain ⟨handle, -, hs⟩ := Option.bind_eq_some_iff.1 hs
    obtain ⟨packet, hp, rfl⟩ := Option.map_eq_some_iff.1 hs
    exact (h.newCall.setBatch ((h.batch b (List.mem_of_getElem? hb)).spawn hp)).of_eq rfl rfl rfl rfl
  | send i =>
    obtain ⟨c, hc, hs⟩ := Option.bind_eq_some_iff.1 hs
    split at hs
    · next hstart =>
      split at hs
      · next commands hq =>
        cases hs
        exact h.send hc hstart hq
      · cases hs
        exact h.sendClosed hc hstart _
    · cases hs
  | receive i =>
    obtain ⟨c, hc, hs⟩ := Option.bind_eq_some_iff.1 hs
    split at hs
    · next hwaiting =>
      obtain ⟨answer, ha, rfl⟩ := Option.map_eq_some_iff.1 hs
      obtain ⟨hq, hcalls, hb, hst⟩ := noteClosed_eq { s with calls := s.calls.set i { c with phase := .done answer } } c answer
      exact (h.receive hc hwaiting ha).of_eq hq hcalls hb hst
    · cases hs
  | join k =>
    obtain ⟨b, hb, hs⟩ := Option.bind_eq_some_iff.1 hs
    split at hs
    · obtain ⟨i, hi, hs⟩ := Option.bind_eq_some_iff.1 hs
      obtain ⟨c, hc, hs⟩ := Option.bind_eq_some_iff.1 hs
      split at hs
      · next answer hd =>
        cases hs
        exact h.setBatch ((h.batch b (List.mem_of_getElem? hb)).join hi hc hd)
      · cases hs
    · cases hs
  | take =>
    obtain ⟨commands, hq, rfl⟩ := Option.map_eq_some_iff.1 hs
    exact h.take hq
  | finish o =>
    obtain ⟨⟨command, commands⟩, hq, rfl⟩ := Option.map_eq_some_iff.1 hs
    exact h.finish hq
  | reply =>
    obtain ⟨⟨⟨command, o⟩, commands⟩, hq, hs⟩ := Option.bind_eq_some_iff.1 hs
    obtain ⟨c, hc, rfl⟩ := Option.map_eq_some_iff.1 hs
    exact h.reply hq hc
  | exit =>
    obtain ⟨commands, hq, rfl⟩ := Option.map_eq_some_iff.1 hs
    exact h.exit hq
  | hangUp =>
    simp only [step] at hs
    split at hs
    · obtain ⟨commands, hq, rfl⟩ := Option.map_eq_some_iff.1 hs
      exact h.hangUp hq
    · cases hs

theorem inv_of_run {isConnected : Bool} {ls : List Label} (hr : StepSystem.run step (start isConnected) ls = some s) :
    Inv s :=
  StepSystem.run_invariant (fun _ _ _ hs h => inv_step hs h) hr (inv_start isConnected)

/-- Whatever the interleaving and whatever the underlying connection does, the law holds. -/
theorem served_of_run {isConnected : Bool} {ls : List Label} (hr : StepSystem.run step (start isConnected) ls = some s) :
    Law s :=
  (inv_of_run hr).law

/-- A send, a batch of two and a close: one packet of the batch times out, the other is lost behind the close. -/
theorem law_of_close_in_batch :
    let ls : List Label := [.call 0 (.send (.oneWay 1 [1, 2])), .batch 0 [.oneWay 2 [3], .oneWay 3 [4]], .spawn 0, .spawn 0,
      .call 0 .close, .send 0, .send 2, .send 3, .send 1, .take, .finish .ok, .reply, .receive 0, .take, .finish .timeout,
      .reply, .receive 2, .take, .finish .ok, .reply, .receive 3, .exit, .receive 1, .join 0, .join 0]
    ∃ s, StepSystem.run step (start true) ls = some s ∧ Law s ∧
      s.calls.map Call.phase = [.done (.ok ()), .done (.error (.connection "Response channel closed" false)),
        .done (.error (.connection "Send operation timeout" false)), .done (.ok ())] ∧
      s.batches.map Batch.results = [[.error (.connection "Response channel closed" false),
        .error (.connection "Send operation timeout" false)]] ∧
      s.commands.executed.map (fun x => x.1.call) = [0, 2, 3] ∧
      s.stats = ⟨1, 2, 1⟩ := by
  intro ls
  have hsome : (StepSystem.run step (start true) ls).isSome := by decide +kernel
  obtain ⟨s, hr⟩ := Option.isSome_iff_exists.1 hsome
  have hs : s = (StepSystem.run step (start true) ls).get hsome := (Option.get_of_eq_some hsome hr).symm
  exact ⟨s, hr, served_of_run hr, by rw [hs]; rfl, by rw [hs]; rfl, by rw [hs]; rfl, by rw [hs]; rfl⟩

end LockFreeConnection

end Msgtrans
