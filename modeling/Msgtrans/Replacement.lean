import Msgtrans.Lib.Run
import Msgtrans.ConnectionState

/-!
# Replacing the connection of a `Transport` (`set_connection`)

A `Transport` stands for one socket. `set_connection` overwrites `connection_adapter` and starts a consumer
task that keeps its own reference to the connection and passes everything the connection publishes to
`on_event`. It neither closes the connection it replaces nor stops its consumer. The calls on the
`Transport` come one after the other here; event loops and consumer tasks move between them. There is one
socket as long as callers close a connection before they replace it, and its event loop has nothing more
to say: `oneSocket_iff`. An event loop that has ended is enough: `oneSocket_of_ended`.
-/

namespace Msgtrans

namespace Replacement

open StepSystem

abbrev ConnId := Nat

/-- An event on its way to the consumer task; `late` when its connection was replaced before it was
published. -/
structure Published where
  event : TransportEvent
  late : Bool

structure Connection where
  closeCalled : Bool
  /-- the event loop runs -/
  running : Bool
  /-- the consumer task has called `event_stream` -/
  subscribed : Bool
  queue : List Published

def Connection.new : Connection := ⟨false, true, false, []⟩

/-- An event without a subscriber is lost. -/
def Connection.publish (conn : Connection) (event : TransportEvent) (late : Bool) : Connection :=
  if conn.subscribed then { conn with queue := conn.queue ++ [⟨event, late⟩] } else conn

structure State where
  /-- the connections ever installed -/
  conns : ConnId → Option Connection
  connectionAdapter : Option ConnId
  sessionId : Option SessionId
  stateManager : ConnectionStateManager
  /-- the connection installed last -/
  latest : Option ConnId
  /-- what was passed to `on_event` -/
  passed : List Published

def start : State := ⟨fun _ => none, none, none, .new, none, []⟩

namespace State

def modify (s : State) (c : ConnId) (f : Connection → Connection) : State :=
  { s with conns := fun d => if d = c then (s.conns c).map f else s.conns d }

def setConnection (s : State) (c : ConnId) (sessionId : SessionId) : State where
  conns := fun d => if d = c then some .new else s.conns d
  connectionAdapter := some c
  sessionId := some sessionId
  stateManager := s.stateManager.addConnection sessionId
  latest := some c
  passed := s.passed

/-- `conn.close()` on what `connection_adapter` holds. -/
def closeAdapter (s : State) : State :=
  match s.connectionAdapter with
  | some c => s.modify c fun conn => { conn with closeCalled := true }
  | none => s

/-- What `close_session` and `force_close_session` both do; they differ in how long `close()` may take. -/
def closeSession (s : State) (sessionId : SessionId) : State :=
  let (started, stateManager) := s.stateManager.tryStartClosing sessionId
  if started then
    let s := { s.closeAdapter with stateManager := stateManager.markClosed sessionId }
    if s.sessionId = some sessionId then { s with sessionId := none, connectionAdapter := none } else s
  else s

end State

inductive Label where
  | setConnection (c : ConnId) (sessionId : SessionId)
  | closeSession (sessionId : SessionId)
  | forceCloseSession (sessionId : SessionId)
  | subscribe (c : ConnId)
  | publish (c : ConnId) (event : TransportEvent)
  | endLoop (c : ConnId)
  /-- the consumer task of a connection receives an event and passes it to `on_event` -/
  | consume (c : ConnId)

def step (s : State) : Label → Option State
  | .setConnection c sessionId => if (s.conns c).isNone then some (s.setConnection c sessionId) else none
  | .closeSession sessionId => some (s.closeSession sessionId)
  | .forceCloseSession sessionId => some (s.closeSession sessionId)
  | .subscribe c => (s.conns c).map fun _ => s.modify c fun conn => { conn with subscribed := true }
  | .publish c event => (s.conns c).bind fun conn =>
    if conn.running then some (s.modify c fun conn => conn.publish event (s.latest ≠ some c)) else none
  | .endLoop c => (s.conns c).map fun _ => s.modify c fun conn => { conn with running := false }
  | .consume c => (s.conns c).bind fun conn =>
    match conn.queue with
    | p :: rest => some { s.modify c fun conn => { conn with queue := rest } with passed := s.passed ++ [p] }
    | [] => none

/-- `close()` was never called on `c`. -/
def State.Open (s : State) (c : ConnId) : Prop := ∃ conn, s.conns c = some conn ∧ conn.closeCalled = false

/-- One connection is open at most, every replaced one was closed, and nothing that one published after it
was replaced has been passed to `on_event`. -/
structure OneSocket (s : State) : Prop where
  atMostOne : ∀ c d, s.Open c → s.Open d → c = d
  closed : ∀ c conn, s.conns c = some conn → s.latest ≠ some c → conn.closeCalled = true
  silent : ∀ p ∈ s.passed, p.late = false

/-- A connection is replaced only after it was closed, and a consumer receives nothing that its connection
published after it was replaced. -/
def Sealed (s : State) : Label → Prop
  | .setConnection _ _ => ∀ c conn, s.latest = some c → s.conns c = some conn → conn.closeCalled = true
  | .consume c => ∀ conn p rest, s.conns c = some conn → conn.queue = p :: rest → p.late = false
  | _ => True

/-- A connection is replaced only after it was closed and its event loop has ended. -/
def Ended (s : State) : Label → Prop
  | .setConnection _ _ => ∀ c conn, s.latest = some c → s.conns c = some conn →
    conn.closeCalled = true ∧ conn.running = false
  | _ => True

/-! ### What a step does to a connection -/

variable {s s' : State} {l : Label} {c d : ConnId} {conn conn' : Connection}

theorem conns_modify {f : Connection → Connection} (h : (s.modify c f).conns d = some conn') :
    ∃ conn, s.conns d = some conn ∧ (d = c ∧ conn' = f conn ∨ d ≠ c ∧ conn' = conn) := by
  by_cases hd : d = c
  · subst hd
    obtain ⟨conn, hconn, rfl⟩ := Option.map_eq_some_iff.1 ((if_pos rfl).symm.trans h)
    exact ⟨conn, hconn, .inl ⟨rfl, rfl⟩⟩
  · exact ⟨conn', (if_neg hd).symm.trans h, .inr ⟨hd, rfl⟩⟩

/-- A connection in the course of a run: `close()` is not taken back, a loop that has ended stays ended, and
what is added to its queue is late if it has been replaced. -/
structure Later (replaced : Prop) (conn conn' : Connection) : Prop where
  closeCalled : conn.closeCalled = true → conn'.closeCalled = true
  running : conn.running = false → conn'.running = false
  queue : ∀ p ∈ conn'.queue, p ∈ conn.queue ∨ conn.running = true ∧ (p.late = true → replaced)

theorem Later.of_queue_eq {replaced : Prop} (hclose : conn.closeCalled = true → conn'.closeCalled = true)
    (hrun : conn.running = false → conn'.running = false) (hqueue : conn'.queue = conn.queue) :
    Later replaced conn conn' :=
  ⟨hclose, hrun, fun _ hp => .inl (hqueue ▸ hp)⟩

theorem Later.refl (replaced : Prop) (conn : Connection) : Later replaced conn conn := .of_queue_eq id id rfl

theorem later_publish (hrun : conn.running = true) (event : TransportEvent) (late : Bool) :
    Later (late = true) conn (conn.publish event late) := by
  unfold Connection.publish
  split
  · refine ⟨id, id, fun p hp => ?_⟩
    rcases List.mem_append.1 hp with hp | hp
    · exact .inl hp
    · obtain rfl := List.mem_singleton.1 hp
      exact .inr ⟨hrun, id⟩
  · exact .refl ..

theorem closeSession_spec (s : State) (sessionId : SessionId) : (s.closeSession sessionId).latest = s.latest ∧
    (s.closeSession sessionId).passed = s.passed ∧
    ∀ d conn', (s.closeSession sessionId).conns d = some conn' →
      ∃ conn, s.conns d = some conn ∧ Later (s.latest ≠ some d) conn conn' := by
  have hadapter : s.closeAdapter.latest = s.latest ∧ s.closeAdapter.passed = s.passed ∧
      ∀ d conn', s.closeAdapter.conns d = some conn' →
        ∃ conn, s.conns d = some conn ∧ Later (s.latest ≠ some d) conn conn' := by
    unfold State.closeAdapter
    split
    · refine ⟨rfl, rfl, fun d conn' h => ?_⟩
      obtain ⟨conn, hconn, ⟨-, rfl⟩ | ⟨-, rfl⟩⟩ := conns_modify h
      · exact ⟨conn, hconn, .of_queue_eq (fun _ => rfl) id rfl⟩
      · exact ⟨_, hconn, .refl ..⟩
    · exact ⟨rfl, rfl, fun d conn' h => ⟨conn', h, .refl ..⟩⟩
  unfold State.closeSession
  split
  split
  · dsimp only
    split <;> exact hadapter
  · exact ⟨rfl, rfl, fun d conn' h => ⟨conn', h, .refl ..⟩⟩

/-- Only `set_connection` replaces, and only a consumer passes on. -/
theorem step_spec (hs : step s l = some s') :
    (∃ c sessionId, l = .setConnection c sessionId ∧ s.conns c = none ∧ s' = s.setConnection c sessionId) ∨
      s'.latest = s.latest ∧
      (s'.passed = s.passed ∨ ∃ c conn p rest, l = .consume c ∧ s.conns c = some conn ∧ conn.queue = p :: rest ∧
        s'.passed = s.passed ++ [p]) ∧
      ∀ d conn', s'.conns d = some conn' → ∃ conn, s.conns d = some conn ∧ Later (s.latest ≠ some d) conn conn' := by
  cases l with
  | setConnection c sessionId =>
    simp only [step] at hs
    split at hs
    · next hnone =>
      cases hs
      exact .inl ⟨c, sessionId, rfl, Option.isNone_iff_eq_none.1 hnone, rfl⟩
    · cases hs
  | closeSession sessionId | forceCloseSession sessionId =>
    cases hs
    obtain ⟨hlatest, hpassed, hconns⟩ := closeSession_spec s sessionId
    exact .inr ⟨hlatest, .inl hpassed, hconns⟩
  | subscribe c | endLoop c =>
    obtain ⟨-, -, rfl⟩ := Option.map_eq_some_iff.1 hs
    refine .inr ⟨rfl, .inl rfl, fun d conn' h => ?_⟩
    obtain ⟨conn, hconn, ⟨-, rfl⟩ | ⟨-, rfl⟩⟩ := conns_modify h
    · exact ⟨conn, hconn, .of_queue_eq id (by simp) rfl⟩
    · exact ⟨_, hconn, .refl ..⟩
  | publish c event =>
    obtain ⟨conn, hconn, hs⟩ := Option.bind_eq_some_iff.1 hs
    split at hs
    · next hrun =>
      cases hs
      refine .inr ⟨rfl, .inl rfl, fun d conn' h => ?_⟩
      obtain ⟨conn₀, hconn₀, ⟨rfl, rfl⟩ | ⟨-, rfl⟩⟩ := conns_modify h
      · cases hconn.symm.trans hconn₀
        have hlater := later_publish hrun event (decide (s.latest ≠ some d))
        exact ⟨conn, hconn, hlater.closeCalled, hlater.running, fun p hp =>
          (hlater.queue p hp).imp_right fun h => ⟨h.1, fun hlate => of_decide_eq_true (h.2 hlate)⟩⟩
      · exact ⟨_, hconn₀, .refl ..⟩
    · cases hs
  | consume c =>
    obtain ⟨conn, hconn, hs⟩ := Option.bind_eq_some_iff.1 hs
    split at hs
    · next p rest hqueue =>
      cases hs
      refine .inr ⟨rfl, .inr ⟨c, conn, p, rest, rfl, hconn, hqueue, rfl⟩, fun d conn' h => ?_⟩
      obtain ⟨conn₀, hconn₀, ⟨rfl, rfl⟩ | ⟨-, rfl⟩⟩ := conns_modify h
      · cases hconn.symm.trans hconn₀
        exact ⟨conn, hconn, id, id, fun p hp => .inl (hqueue ▸ List.mem_cons_of_mem _ hp)⟩
      · exact ⟨_, hconn₀, .refl ..⟩
    · cases hs

/-! ### The law -/

structure Inv (s : State) : Prop where
  closed : ∀ c conn, s.conns c = some conn → s.latest ≠ some c → conn.closeCalled = true
  silent : ∀ p ∈ s.passed, p.late = false

namespace Inv

theorem start : Inv start := ⟨fun _ _ h => (nomatch h), fun _ h => (nomatch h)⟩

theorem oneSocket (h : Inv s) : OneSocket s := by
  have hlatest : ∀ c, s.Open c → s.latest = some c := by
    rintro c ⟨conn, hconn, hopen⟩
    by_contra hne
    exact Bool.false_ne_true (hopen.symm.trans (h.closed c conn hconn hne))
  refine ⟨fun c d hc hd => ?_, h.closed, h.silent⟩
  exact Option.some.inj ((hlatest c hc).symm.trans (hlatest d hd))

theorem setConnection (h : Inv s) {sessionId : SessionId}
    (hG : ∀ c conn, s.latest = some c → s.conns c = some conn → conn.closeCalled = true) :
    Inv (s.setConnection c sessionId) := by
  refine ⟨fun d conn hconn hne => ?_, h.silent⟩
  have hdc : d ≠ c := by
    rintro rfl
    exact hne rfl
  have hconn' : s.conns d = some conn := (if_neg hdc).symm.trans hconn
  by_cases hlatest : s.latest = some d
  · exact hG d conn hlatest hconn'
  · exact h.closed d conn hconn' hlatest

theorem step (h : Inv s) (hs : Replacement.step s l = some s') (hG : Sealed s l) : Inv s' := by
  rcases step_spec hs with ⟨c, sessionId, rfl, -, rfl⟩ | ⟨hlatest, hpassed, hconns⟩
  · exact h.setConnection hG
  · refine ⟨fun d conn' hconn' hne => ?_, fun p hp => ?_⟩
    · obtain ⟨conn, hconn, hlater⟩ := hconns d conn' hconn'
      exact hlater.closeCalled (h.closed d conn hconn (hlatest ▸ hne))
    · rcases hpassed with hsame | ⟨c, conn, q, rest, rfl, hconn, hqueue, hadd⟩
      · exact h.silent p (hsame ▸ hp)
      · rcases List.mem_append.1 (hadd ▸ hp) with hp | hp
        · exact h.silent p hp
        · obtain rfl := List.mem_singleton.1 hp
          exact hG conn p rest hconn hqueue

/-- Replacing an open connection, and passing on a late event, break the law. -/
theorem isSealed (hs : Replacement.step s l = some s') (hlaw : OneSocket s') : Sealed s l := by
  cases l with
  | setConnection c sessionId =>
    simp only [Replacement.step] at hs
    split at hs
    · next hnew =>
      cases hs
      intro d conn hlatest hconn
      have hdc : d ≠ c := by
        rintro rfl
        exact nomatch (Option.isNone_iff_eq_none.1 hnew).symm.trans hconn
      exact hlaw.closed d conn ((if_neg hdc).trans hconn) fun h => hdc (Option.some.inj h).symm
    · cases hs
  | consume c =>
    intro conn p rest hconn hqueue
    simp only [Replacement.step, hconn, Option.bind_some, hqueue] at hs
    cases hs
    exact hlaw.silent p (List.mem_append_right _ (List.mem_singleton_self p))
  | _ => trivial

end Inv

/-- In every state of a run there is one socket exactly when every connection was closed before it was
replaced and nothing it published later was passed on. -/
theorem oneSocket_iff {ls : List Label} (hr : run step start ls = some s) :
    Always step OneSocket start ls ↔ Meets step Sealed start ls :=
  always_iff_meets_of_step (I := Inv) (fun _ => Inv.oneSocket) (fun _ _ _ hs hG h => h.step hs hG)
    (fun _ _ _ hs _ hlaw => Inv.isSealed hs hlaw) hr .start

theorem oneSocket_iff_close_first :
    let ls := [.setConnection 0 1, .subscribe 0, .publish 0 (.connectionClosed .normal), .closeSession 1, .endLoop 0,
      .setConnection 1 1, .consume 0]
    Always step OneSocket start ls ↔ Meets step Sealed start ls :=
  oneSocket_iff (s := _) rfl

/-- A client connects twice: its first connection stays open, and the consumer passes on the
`ConnectionClosed` that it publishes later. -/
theorem connect_twice :
    ∃ s, run step start [.setConnection 0 1, .subscribe 0, .setConnection 1 1, .subscribe 1,
        .publish 0 (.connectionClosed .normal), .consume 0] = some s ∧
      s.Open 0 ∧ s.Open 1 ∧ s.passed = [⟨.connectionClosed .normal, true⟩] ∧ ¬ OneSocket s := by
  refine ⟨_, rfl, ⟨_, rfl, rfl⟩, ⟨_, rfl, rfl⟩, rfl, fun h => ?_⟩
  exact Nat.zero_ne_one (h.atMostOne 0 1 ⟨_, rfl, rfl⟩ ⟨_, rfl, rfl⟩)

/-! ### Event loops that have ended -/

/-- A replaced connection no longer runs, so that nothing in a queue is late. -/
structure Quiet (s : State) : Prop where
  inv : Inv s
  ended : ∀ c conn, s.conns c = some conn → s.latest ≠ some c → conn.running = false
  queue : ∀ c conn p, s.conns c = some conn → p ∈ conn.queue → p.late = false

namespace Quiet

theorem start : Quiet start := ⟨.start, fun _ _ h => (nomatch h), fun _ _ _ h => (nomatch h)⟩

theorem step (h : Quiet s) (hs : Replacement.step s l = some s') (hG : Ended s l) : Quiet s' := by
  have hsealed : Sealed s l := by
    cases l with
    | setConnection c sessionId => exact fun d conn hlatest hconn => (hG d conn hlatest hconn).1
    | consume c => exact fun conn p rest hconn hqueue => h.queue c conn p hconn (hqueue ▸ List.mem_cons_self ..)
    | _ => trivial
  refine ⟨h.inv.step hs hsealed, ?_, ?_⟩ <;>
    rcases step_spec hs with ⟨c, sessionId, rfl, -, rfl⟩ | ⟨hlatest, -, hconns⟩
  · intro d conn hconn hne
    have hdc : d ≠ c := by
      rintro rfl
      exact hne rfl
    have hconn' : s.conns d = some conn := (if_neg hdc).symm.trans hconn
    by_cases hlatest : s.latest = some d
    · exact (hG d conn hlatest hconn').2
    · exact h.ended d conn hconn' hlatest
  · intro d conn' hconn' hne
    obtain ⟨conn, hconn, hlater⟩ := hconns d conn' hconn'
    exact hlater.running (h.ended d conn hconn (hlatest ▸ hne))
  · intro d conn p hconn hp
    by_cases hdc : d = c
    · cases (if_pos hdc).symm.trans hconn
      cases hp
    · exact h.queue d conn p ((if_neg hdc).symm.trans hconn) hp
  · intro d conn' p hconn' hp
    obtain ⟨conn, hconn, hlater⟩ := hconns d conn' hconn'
    rcases hlater.queue p hp with hp | ⟨hrun, hlate⟩
    · exact h.queue d conn p hconn hp
    · -- what runs was not replaced
      by_contra hne
      have hend := h.ended d conn hconn (hlate ((Bool.not_eq_false _).mp hne))
      exact Bool.false_ne_true (hend.symm.trans hrun)

end Quiet

/-- Replacing only what was closed and has ended keeps one socket, whatever else happens. -/
theorem oneSocket_of_ended {ls : List Label} (hG : Meets step Ended start ls) : Always step OneSocket start ls :=
  fun ms t hms ht =>
    (always_of_meets (fun _ _ _ hs hG (h : Quiet _) => h.step hs hG) hG .start ms t hms ht).inv.oneSocket

end Replacement

end Msgtrans
