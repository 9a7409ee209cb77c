import Msgtrans.Lib.Indexed
import Msgtrans.Lib.Run
import Msgtrans.ConnectionState
import Msgtrans.Delivery

/-!
# A session of the server (`transport/transport_server.rs`, `transport/connection_state.rs`)

The tables `transports`, `stats` and `states` of a `TransportServer` are shared by its clones, and a
session id is given to one connection; so a session is what the server does under its id. The listener
enters it into the tables, spawns its event task and announces it; the event task handles what its
`Transport` publishes; any number of `close_session` and `force_close_session` calls try to end it. A step
is one table operation, one lock of the state cell, one event sent or one call of `disconnect`. A closer
that has looked the cell up keeps it after its entry is removed.

`trace` is the history: who did what. `Inv` says what it tells of the tables, the cell and the closers.
-/

namespace Msgtrans

namespace ServerSession

abbrev CloseState := ConnectionStateManager.ConnectionState

inductive Table where
  | transports | stats | states
deriving DecidableEq, Repr

/-- The order of the insertions in `add_session` and of the removals in `remove_session`. -/
def Table.next : Table → Option Table
  | .transports => some .stats
  | .stats => some .states
  | .states => none

inductive ListenerPc where
  | insert (table : Table)
  | spawn
  | announce
  | done
deriving DecidableEq, Repr

inductive TaskPc where
  | unspawned
  | idle
  /-- in the `remove_session` that follows a `ConnectionClosed` -/
  | remove (table : Table)
deriving DecidableEq, Repr

inductive ClosePc where
  /-- `try_start_closing`: looks the cell up, then locks it -/
  | lookup
  | lock
  | report
  | getTransport
  | disconnect
  /-- `mark_closed` -/
  | markLookup
  | markLock
  | remove (table : Table)
  | done (result : Except TransportError Unit)

structure Closer where
  forced : Bool
  pc : ClosePc
  /-- the session was `Connected` when the call was made -/
  connectedAtCall : Bool

inductive Actor where
  | listener
  | eventTask
  | closer (k : ℕ)
deriving DecidableEq, Repr

inductive Act where
  /-- `try_start_closing` returned true -/
  | started
  | emitted (event : ServerEvent)
  | disconnected
  | markedClosed
  /-- a call of `remove`, and whether the entry went -/
  | removed (table : Table) (ok : Bool)

structure Action where
  actor : Actor
  act : Act

structure State where
  /-- the session has an entry in the table -/
  tables : Table → Bool
  /-- the `Arc<Mutex<ConnectionState>>` made by `add_connection` -/
  cell : CloseState
  listener : ListenerPc
  task : TaskPc
  closers : List Closer
  trace : List Action

inductive Label where
  | listenerStep
  | handle (event : TransportEvent)
  /-- a removal; `ok` is false when the table gave up after its retries, an error that is ignored -/
  | handleStep (ok : Bool)
  | close (forced : Bool)
  | closeStep (k : ℕ) (ok : Bool)

/-- A connection was accepted and given its session id. -/
def start : State := ⟨fun _ => false, .connected, .insert .transports, .unspawned, [], []⟩

namespace State

def set (s : State) (table : Table) (present : Bool) : State :=
  { s with tables := fun t => if t = table then present else s.tables t }

def remove (s : State) (table : Table) (ok : Bool) : State := if ok then s.set table false else s

def record (s : State) (actor : Actor) (act : Act) : State := { s with trace := s.trace ++ [⟨actor, act⟩] }

def goto (s : State) (k : ℕ) (c : Closer) (pc : ClosePc) : State :=
  { s with closers := s.closers.set k { c with pc := pc } }

/-- `get_state`. -/
def state (s : State) : Option CloseState := if s.tables .states then some s.cell else none

def shouldIgnoreMessages (s : State) : Bool :=
  match s.state with
  | some .connected => false
  | _ => true

end State

def Closer.reason (c : Closer) : CloseReason := if c.forced then .forced else .normal

/-- `close_session` and `force_close_session`, which differ in the reason and in how long they wait. -/
def Closer.step (sessionId : SessionId) (s : State) (k : ℕ) (c : Closer) (ok : Bool) : Option State :=
  match c.pc with
  | .lookup => some (s.goto k c (if s.tables .states then .lock else .done (.ok ())))
  | .lock =>
    match s.cell with
    | .connected => some (({ s with cell := .closing }.goto k c .report).record (.closer k) .started)
    | _ => some (s.goto k c (.done (.ok ())))
  | .report =>
    some ((s.goto k c .getTransport).record (.closer k) (.emitted (.connectionClosed sessionId c.reason)))
  | .getTransport => some (s.goto k c (if s.tables .transports then .disconnect else .markLookup))
  | .disconnect => some ((s.goto k c .markLookup).record (.closer k) .disconnected)
  | .markLookup => some (s.goto k c (if s.tables .states then .markLock else .remove .transports))
  | .markLock => some (({ s with cell := .closed }.goto k c (.remove .transports)).record (.closer k) .markedClosed)
  | .remove table => some (((s.remove table ok).goto k c (table.next.elim (.done (.ok ())) .remove)).record
      (.closer k) (.removed table ok))
  | .done _ => none

/-- Nothing registers with the tracker of the server itself. -/
def noOwnRequests : UInt32 → Bool := fun _ => false

def step (sessionId : SessionId) (info : ConnectionInfo) (s : State) : Label → Option State
  | .listenerStep =>
    match s.listener with
    | .insert table => some { s.set table true with listener := table.next.elim .spawn .insert }
    | .spawn => some { s with listener := .announce, task := .idle }
    | .announce => some ({ s with listener := .done }.record .listener (.emitted (.connectionEstablished sessionId info)))
    | .done => none
  | .handle event =>
    match s.task with
    | .idle =>
      let handled := TransportServer.handleTransportEvent noOwnRequests sessionId event
      some { s with
        trace := s.trace ++ handled.published.map fun e => ⟨.eventTask, .emitted e⟩
        task := if handled.removed then .remove .transports else .idle }
    | _ => none
  | .handleStep ok =>
    match s.task with
    | .remove table =>
      some ({ s.remove table ok with task := table.next.elim .idle .remove }.record .eventTask (.removed table ok))
    | _ => none
  | .close forced =>
    some { s with closers := s.closers ++ [⟨forced, .lookup, s.state = some .connected⟩] }
  | .closeStep k ok => s.closers[k]?.bind fun c => c.step sessionId s k ok

/-! ### Who did what -/

def ListenerPc.inserted : ListenerPc → Table → Bool
  | .insert .transports, _ => false
  | .insert .stats, table => table == .transports
  | .insert .states, table => table != .states
  | _, _ => true

def Action.isStart (a : Action) : Bool :=
  match a.act with
  | .started => true
  | _ => false

/-- A `ServerEvent::ConnectionClosed`. -/
def Action.isEnd (a : Action) : Bool :=
  match a.act with
  | .emitted (.connectionClosed ..) => true
  | _ => false

namespace State

def Registered (s : State) : Prop := s.listener.inserted .states = true

def actsOf (s : State) (actor : Actor) : List Act := (s.trace.filter fun a => a.actor = actor).map (·.act)

def starts (s : State) : List Action := s.trace.filter Action.isStart

def Removed (s : State) (table : Table) : Prop := ∃ a ∈ s.trace, a.act = .removed table true

/-- The event task has handled a `ConnectionClosed` of the peer. -/
def PeerClosed (s : State) : Prop := ∃ a ∈ s.trace, a.actor = .eventTask ∧ a.isEnd = true

instance (s : State) : Decidable s.PeerClosed := inferInstanceAs (Decidable (∃ a ∈ s.trace, _))

/-- `act` was done, or left out because somebody else had removed the entry of the table. -/
def Skips (s : State) (k : ℕ) (table : Table) (act : Act) (acts : List Act) : Prop :=
  acts = [act] ∨ acts = [] ∧ ∃ a ∈ s.trace, a.actor ≠ .closer k ∧ a.act = .removed table true

end State

def Table.removedBefore (oks : Table → Bool) : Table → List Act
  | .transports => []
  | .stats => [.removed .transports (oks .transports)]
  | .states => [.removed .transports (oks .transports), .removed .stats (oks .stats)]

/-- What a closer has done, by its next step. -/
def Closer.Did (sessionId : SessionId) (s : State) (k : ℕ) (c : Closer) : Prop :=
  let acts := s.actsOf (.closer k)
  let reported : List Act := [.started, .emitted (.connectionClosed sessionId c.reason)]
  match c.pc with
  | .lookup => acts = []
  | .lock => s.Registered ∧ acts = []
  | .report => s.Registered ∧ acts = [.started]
  | .getTransport => s.Registered ∧ acts = reported
  | .disconnect => s.Registered ∧ acts = reported
  | .markLookup => s.Registered ∧ ∃ d, s.Skips k .transports .disconnected d ∧ acts = reported ++ d
  | .markLock => s.Registered ∧ ∃ d, s.Skips k .transports .disconnected d ∧ acts = reported ++ d
  | .remove table => s.Registered ∧ ∃ d m oks, s.Skips k .transports .disconnected d ∧ s.Skips k .states .markedClosed m ∧
      acts = reported ++ d ++ m ++ table.removedBefore oks
  | .done result => result = .ok () ∧ (acts = [] ∨
      ∃ d m oks, s.Skips k .transports .disconnected d ∧ s.Skips k .states .markedClosed m ∧
        acts = reported ++ d ++ m ++ Table.states.removedBefore oks ++ [.removed .states (oks .states)])

structure Inv (sessionId : SessionId) (s : State) : Prop where
  inserted : ∀ t, s.tables t = true → s.listener.inserted t = true
  gone : ∀ t, s.listener.inserted t = true → s.tables t = false → s.Removed t
  spawned : s.task ≠ .unspawned → s.Registered
  removing : ∀ t, s.task = .remove t → s.PeerClosed
  removers : ∀ a ∈ s.trace, ∀ t ok, a.act = .removed t ok → (∃ k, a.actor = .closer k) ∨ s.PeerClosed
  /-- no entry comes back -/
  out : ∀ a ∈ s.trace, ∀ t, a.act = .removed t true → s.Registered ∧ s.tables t = false
  starts : s.starts.length = if s.cell = .connected then 0 else 1
  did : ∀ (k : ℕ) (c : Closer), s.closers[k]? = some c → c.Did sessionId s k
  actors : ∀ a ∈ s.trace, ∀ k, a.actor = .closer k → k < s.closers.length
  called : ∀ (k : ℕ) (c : Closer), s.closers[k]? = some c → c.connectedAtCall = true →
    s.Registered ∧ ((∃ r, c.pc = .done r) → s.starts ≠ [] ∨ s.PeerClosed)

section Inv

variable {sessionId : SessionId} {info : ConnectionInfo} {s s' : State} {k : ℕ} {c d : Closer} {acts : List Act}
  {ok : Bool}

theorem mem_actsOf {actor : Actor} {act : Act} : act ∈ s.actsOf actor ↔ ⟨actor, act⟩ ∈ s.trace := by
  unfold State.actsOf
  constructor
  · intro h
    obtain ⟨⟨actor', act'⟩, ha, rfl⟩ := List.mem_map.1 h
    obtain ⟨hmem, hactor⟩ := List.mem_filter.1 ha
    simp only [decide_eq_true_eq] at hactor
    exact hactor ▸ hmem
  · exact fun h => List.mem_map.2 ⟨_, List.mem_filter.2 ⟨h, by simp⟩, rfl⟩

theorem inserted_of_registered (h : s.Registered) (t : Table) : s.listener.inserted t = true := by
  unfold State.Registered at h
  cases hl : s.listener with
  | insert table => cases table <;> simp [hl, ListenerPc.inserted] at h
  | _ => rfl

/-- Nothing that was done is forgotten, and a session stays registered. -/
structure Grows (s s' : State) : Prop where
  trace : ∀ a ∈ s.trace, a ∈ s'.trace
  registered : s.Registered → s'.Registered

theorem grows_record (s : State) (actor : Actor) (act : Act) : Grows s (s.record actor act) :=
  ⟨fun _ ha => List.mem_append_left _ ha, id⟩

theorem Grows.peerClosed (hg : Grows s s') : s.PeerClosed → s'.PeerClosed := fun ⟨a, ha, h⟩ => ⟨a, hg.trace a ha, h⟩

theorem Grows.removed {t : Table} (hg : Grows s s') : s.Removed t → s'.Removed t := fun ⟨a, ha, h⟩ => ⟨a, hg.trace a ha, h⟩

theorem Grows.skips {t : Table} {act : Act} (hg : Grows s s') (h : s.Skips k t act acts) : s'.Skips k t act acts :=
  h.imp id fun ⟨hnil, a, ha, h⟩ => ⟨hnil, a, hg.trace a ha, h⟩

theorem Closer.Did.mono (h : c.Did sessionId s k) (hg : Grows s s')
    (hacts : s'.actsOf (.closer k) = s.actsOf (.closer k)) : c.Did sessionId s' k := by
  unfold Did at h ⊢
  rw [hacts]
  cases hpc : c.pc with
  | lookup => simpa [hpc] using h
  | done result =>
    simp only [hpc] at h ⊢
    refine ⟨h.1, h.2.imp id ?_⟩
    rintro ⟨d, m, oks, hd, hm, heq⟩
    exact ⟨d, m, oks, hg.skips hd, hg.skips hm, heq⟩
  | remove table =>
    simp only [hpc] at h ⊢
    obtain ⟨hreg, d, m, oks, hd, hm, heq⟩ := h
    exact ⟨hg.registered hreg, d, m, oks, hg.skips hd, hg.skips hm, heq⟩
  | markLookup =>
    simp only [hpc] at h ⊢
    obtain ⟨hreg, d, hd, heq⟩ := h
    exact ⟨hg.registered hreg, d, hg.skips hd, heq⟩
  | markLock =>
    simp only [hpc] at h ⊢
    obtain ⟨hreg, d, hd, heq⟩ := h
    exact ⟨hg.registered hreg, d, hg.skips hd, heq⟩
  | _ =>
    simp only [hpc] at h ⊢
    exact ⟨hg.registered h.1, h.2⟩

theorem actsOf_record (s : State) (actor : Actor) (act : Act) :
    (s.record actor act).actsOf actor = s.actsOf actor ++ [act] := by simp [State.actsOf, State.record]

theorem actsOf_append_of_ne {actor : Actor} {new : List Action} (htrace : s'.trace = s.trace ++ new)
    (hnew : ∀ a ∈ new, a.actor ≠ actor) : s'.actsOf actor = s.actsOf actor := by
  have hnil : (new.filter fun a => a.actor = actor) = [] := List.filter_eq_nil_iff.2 fun a ha => by simp [hnew a ha]
  rw [State.actsOf, htrace, List.filter_append, hnil, List.append_nil, State.actsOf]

theorem starts_append {new : List Action} (htrace : s'.trace = s.trace ++ new) (hnew : ∀ a ∈ new, a.isStart = false) :
    s'.starts = s.starts := by
  have hnil : new.filter Action.isStart = [] := List.filter_eq_nil_iff.2 fun a ha => by simp [hnew a ha]
  rw [State.starts, htrace, List.filter_append, hnil, List.append_nil, State.starts]

theorem remove_eq (s : State) (t : Table) (ok : Bool) :
    s.remove t ok = { s with tables := fun u => if ok = true ∧ u = t then false else s.tables u } := by
  cases ok <;> simp [State.remove, State.set]

namespace Inv

theorem start : Inv sessionId start := by
  constructor <;> simp [ServerSession.start, ListenerPc.inserted, State.starts]

/-- A step of closer `k`. -/
theorem closer (h : Inv sessionId s) (acts : List Act) (hc : s.closers[k]? = some c) (hcall : d.connectedAtCall = c.connectedAtCall)
    (hlistener : s'.listener = s.listener) (htask : s'.task = s.task) (hclosers : s'.closers = s.closers.set k d)
    (htrace : s'.trace = s.trace ++ acts.map (⟨.closer k, ·⟩))
    (htables : ∀ t, s'.tables t = true → s.tables t = true)
    (hgone : ∀ t, s.tables t = true → s'.tables t = false → .removed t true ∈ acts)
    (hout : ∀ t, .removed t true ∈ acts → s'.Registered ∧ s'.tables t = false)
    (hstarts : s'.starts.length = if s'.cell = .connected then 0 else 1) (hdid : d.Did sessionId s' k)
    (hdone : (∃ r, d.pc = .done r) → s'.starts ≠ [] ∨ s'.PeerClosed ∨ c.connectedAtCall = false) :
    Inv sessionId s' := by
  have hg : Grows s s' := by
    refine ⟨fun a ha => ?_, fun hreg => ?_⟩
    · rw [htrace]
      exact List.mem_append_left _ ha
    · rw [State.Registered, hlistener]
      exact hreg
  have hnew : ∀ a ∈ s'.trace, a ∈ s.trace ∨ a.actor = .closer k := by
    intro a ha
    rw [htrace] at ha
    refine (List.mem_append.1 ha).imp id fun ha => ?_
    obtain ⟨act, -, rfl⟩ := List.mem_map.1 ha
    rfl
  have hlt : k < s.closers.length := (List.getElem?_eq_some_iff.1 hc).1
  refine ⟨fun t ht => ?_, fun t hins ht => ?_, fun ht => ?_, fun t ht => ?_, fun a ha t ok hact => ?_, fun a ha t hact => ?_,
    hstarts, fun j e he => ?_, fun a ha j hj => ?_, fun j e he hcalled => ?_⟩
  · rw [hlistener]
    exact h.inserted t (htables t ht)
  · rw [hlistener] at hins
    cases hold : s.tables t with
    | true =>
      refine ⟨⟨.closer k, .removed t true⟩, ?_, rfl⟩
      rw [htrace]
      exact List.mem_append_right _ (List.mem_map.2 ⟨_, hgone t hold ht, rfl⟩)
    | false => exact hg.removed (h.gone t hins hold)
  · rw [htask] at ht
    exact hg.registered (h.spawned ht)
  · rw [htask] at ht
    exact hg.peerClosed (h.removing t ht)
  · rcases hnew a ha with ha | hk
    · exact (h.removers a ha t ok hact).imp id hg.peerClosed
    · exact .inl ⟨k, hk⟩
  · rw [htrace] at ha
    rcases List.mem_append.1 ha with ha | ha
    · obtain ⟨hreg, hgone⟩ := h.out a ha t hact
      exact ⟨hg.registered hreg, Bool.eq_false_iff.2 fun ht => Bool.false_ne_true (hgone.symm.trans (htables t ht))⟩
    · obtain ⟨act, hmem, rfl⟩ := List.mem_map.1 ha
      have hact : act = .removed t true := hact
      exact hout t (hact ▸ hmem)
  · rw [hclosers] at he
    rcases Indexed.of_getElem?_set hc he with ⟨rfl, rfl⟩ | ⟨hj, he⟩
    · exact hdid
    · refine (h.did j e he).mono hg (actsOf_append_of_ne htrace fun a ha => ?_)
      obtain ⟨act, -, rfl⟩ := List.mem_map.1 ha
      simp [Ne.symm hj]
  · rw [hclosers, List.length_set]
    rcases hnew a ha with ha | hk
    · exact h.actors a ha j hj
    · rw [hk] at hj
      cases hj
      exact hlt
  · rw [hclosers] at he
    have hstarts' : s.starts ≠ [] → s'.starts ≠ [] := by
      intro hne hnil
      rw [State.starts, htrace, List.filter_append] at hnil
      exact hne (List.append_eq_nil_iff.1 hnil).1
    rcases Indexed.of_getElem?_set hc he with ⟨rfl, rfl⟩ | ⟨hj, he⟩
    · rw [hcall] at hcalled
      refine ⟨hg.registered (h.called j c hc hcalled).1, fun hr => ?_⟩
      rcases hdone hr with hne | hpeer | hfalse
      · exact .inl hne
      · exact .inr hpeer
      · rw [hcalled] at hfalse
        cases hfalse
    · obtain ⟨hreg, hend⟩ := h.called j e he hcalled
      exact ⟨hg.registered hreg, fun hr => (hend hr).imp hstarts' hg.peerClosed⟩

/-- A step of the listener or of the event task. -/
theorem task {new : List Action} (h : Inv sessionId s) (hclosers : s'.closers = s.closers) (hcell : s'.cell = s.cell)
    (htrace : s'.trace = s.trace ++ new) (hnew : ∀ a ∈ new, a.isStart = false ∧ ∀ k, a.actor ≠ .closer k)
    (hreg : s.Registered → s'.Registered) (hinserted : ∀ t, s'.tables t = true → s'.listener.inserted t = true)
    (hgone : ∀ t, s'.listener.inserted t = true → s'.tables t = false → s.Removed t ∨ ∃ a ∈ new, a.act = .removed t true)
    (hkept : s.Registered → ∀ t, s.tables t = false → s'.tables t = false)
    (hout : ∀ a ∈ new, ∀ t, a.act = .removed t true → s'.Registered ∧ s'.tables t = false)
    (hspawned : s'.task ≠ .unspawned → s'.Registered) (hremoving : ∀ t, s'.task = .remove t → s'.PeerClosed)
    (hremovers : ∀ a ∈ new, ∀ t ok, a.act = .removed t ok → s'.PeerClosed) : Inv sessionId s' := by
  have hg : Grows s s' := by
    refine ⟨fun a ha => ?_, hreg⟩
    rw [htrace]
    exact List.mem_append_left _ ha
  have hstarts : s'.starts = s.starts := starts_append htrace fun a ha => (hnew a ha).1
  refine ⟨hinserted, fun t hins ht => ?_, hspawned, hremoving, fun a ha t ok hact => ?_, fun a ha t hact => ?_, ?_,
    fun j d hd => ?_, fun a ha j hj => ?_, fun j d hd hcalled => ?_⟩
  · rcases hgone t hins ht with hold | ⟨a, ha, hact⟩
    · exact hg.removed hold
    · refine ⟨a, ?_, hact⟩
      rw [htrace]
      exact List.mem_append_right _ ha
  · rw [htrace] at ha
    rcases List.mem_append.1 ha with ha | ha
    · exact (h.removers a ha t ok hact).imp id hg.peerClosed
    · exact .inr (hremovers a ha t ok hact)
  · rw [htrace] at ha
    rcases List.mem_append.1 ha with ha | ha
    · obtain ⟨hreg', hgone'⟩ := h.out a ha t hact
      exact ⟨hreg hreg', hkept hreg' t hgone'⟩
    · exact hout a ha t hact
  · rw [hstarts, hcell]
    exact h.starts
  · rw [hclosers] at hd
    exact (h.did j d hd).mono hg (actsOf_append_of_ne htrace fun a ha => (hnew a ha).2 j)
  · rw [hclosers]
    rw [htrace] at ha
    rcases List.mem_append.1 ha with ha | ha
    · exact h.actors a ha j hj
    · exact absurd hj ((hnew a ha).2 j)
  · rw [hclosers] at hd
    obtain ⟨hreg', hend⟩ := h.called j d hd hcalled
    refine ⟨hreg hreg', fun hr => (hend hr).imp (fun hne => ?_) hg.peerClosed⟩
    rw [hstarts]
    exact hne

theorem did_started (h : c.Did sessionId s k) {act : Act} (hact : act ∈ s.actsOf (.closer k)) :
    .started ∈ s.actsOf (.closer k) := by
  unfold Closer.Did at h
  cases hpc : c.pc with
  | lookup =>
    simp only [hpc] at h
    rw [h] at hact
    cases hact
  | lock =>
    simp only [hpc] at h
    rw [h.2] at hact
    cases hact
  | remove table =>
    simp only [hpc] at h
    obtain ⟨-, d, m, oks, -, -, heq⟩ := h
    simp [heq]
  | markLookup =>
    simp only [hpc] at h
    obtain ⟨-, d, -, heq⟩ := h
    simp [heq]
  | markLock =>
    simp only [hpc] at h
    obtain ⟨-, d, -, heq⟩ := h
    simp [heq]
  | done result =>
    simp only [hpc] at h
    rcases h.2 with hnil | ⟨d, m, oks, -, -, heq⟩
    · rw [hnil] at hact
      cases hact
    · simp [heq]
  | _ =>
    simp only [hpc] at h
    simp [h.2]

theorem starts_ne_nil (h : .started ∈ s.actsOf (.closer k)) : s.starts ≠ [] :=
  List.ne_nil_of_mem (List.mem_filter.2 ⟨mem_actsOf.1 h, rfl⟩)

/-- An entry is only removed once a close has started, or the peer's has been handled. -/
theorem starts_of_removed (h : Inv sessionId s) {t : Table} (hrem : s.Removed t) : s.starts ≠ [] ∨ s.PeerClosed := by
  obtain ⟨a, ha, hact⟩ := hrem
  refine (h.removers a ha t true hact).imp (fun ⟨k, hk⟩ => ?_) id
  obtain ⟨c, hc⟩ : ∃ c, s.closers[k]? = some c := ⟨_, List.getElem?_eq_getElem (h.actors a ha k hk)⟩
  have hmem : .removed t true ∈ s.actsOf (.closer k) := by
    rw [mem_actsOf, ← hk, ← hact]
    exact ha
  exact starts_ne_nil (did_started (h.did k c hc) hmem)

/-- A step of a closer that does nothing but move on. -/
theorem goto {pc : ClosePc} (h : Inv sessionId s) (hc : s.closers[k]? = some c)
    (hdid : Closer.Did sessionId (s.goto k c pc) k { c with pc := pc })
    (hdone : (∃ r, pc = .done r) → s.starts ≠ [] ∨ s.PeerClosed ∨ c.connectedAtCall = false) :
    Inv sessionId (s.goto k c pc) :=
  h.closer [] (d := { c with pc := pc }) hc rfl rfl rfl rfl (by simp [State.goto]) (fun _ => id)
    (fun _ ht hf => absurd (ht.symm.trans hf) (by decide)) (fun _ ht => absurd ht List.not_mem_nil) h.starts hdid hdone

theorem lookup (h : Inv sessionId s) (hc : s.closers[k]? = some c) (hpc : c.pc = .lookup) :
    Inv sessionId (s.goto k c (if s.tables .states then .lock else .done (.ok ()))) := by
  have hdid := h.did k c hc
  simp only [Closer.Did, hpc] at hdid
  cases ht : s.tables .states with
  | true => exact h.goto hc ⟨h.inserted _ ht, hdid⟩ fun ⟨_, hr⟩ => nomatch hr
  | false =>
    refine h.goto hc ⟨rfl, .inl hdid⟩ fun _ => ?_
    cases hcall : c.connectedAtCall with
    | true =>
      have hreg := (h.called k c hc hcall).1
      exact (h.starts_of_removed (h.gone .states hreg ht)).imp id .inl
    | false => exact .inr (.inr rfl)

theorem lock (h : Inv sessionId s) (hc : s.closers[k]? = some c) (hpc : c.pc = .lock)
    (hs : c.step sessionId s k ok = some s') : Inv sessionId s' := by
  have hdid := h.did k c hc
  simp only [Closer.Did, hpc] at hdid
  simp only [Closer.step, hpc] at hs
  have hstarts := h.starts
  split at hs
  · next hcell =>
    cases hs
    rw [hcell, if_pos rfl] at hstarts
    have hstarts' : State.starts (({ s with cell := .closing }.goto k c .report).record (.closer k) .started) =
        s.starts ++ [⟨.closer k, .started⟩] := by simp [State.starts, State.record, State.goto, Action.isStart]
    refine h.closer [.started] (d := { c with pc := .report }) hc rfl rfl rfl rfl rfl (fun _ => id)
      (fun _ ht hf => absurd (ht.symm.trans hf) (by decide)) (fun _ ht => nomatch List.mem_singleton.1 ht) ?_ ⟨hdid.1, ?_⟩
      fun ⟨_, hr⟩ => nomatch hr
    · rw [hstarts', List.length_append, hstarts]
      rfl
    · rw [actsOf_record]
      exact congrArg (· ++ [Act.started]) hdid.2
  · next hcell =>
    cases hs
    refine h.goto hc ⟨rfl, .inl hdid.2⟩ fun _ => .inl fun hnil => ?_
    rw [hnil, if_neg hcell] at hstarts
    cases hstarts

/-- A step of a closer that has started: it does `act` and moves on. -/
theorem actsOnce (h : Inv sessionId s) {cell : CloseState} {tables : Table → Bool} {act : Act} {pc : ClosePc}
    (hc : s.closers[k]? = some c) (hact : (Action.mk (.closer k) act).isStart = false)
    (hcell : cell = .connected ↔ s.cell = .connected) (htables : ∀ t, tables t = true → s.tables t = true)
    (hgone : ∀ t, s.tables t = true → tables t = false → act = .removed t true)
    (hout : ∀ t, act = .removed t true → s.Registered ∧ tables t = false)
    (hstarted : .started ∈ s.actsOf (.closer k))
    (hdid : Closer.Did sessionId (({ s with cell := cell, tables := tables }.goto k c pc).record (.closer k) act) k
      { c with pc := pc }) :
    Inv sessionId (({ s with cell := cell, tables := tables }.goto k c pc).record (.closer k) act) := by
  have hstarts : State.starts (({ s with cell := cell, tables := tables }.goto k c pc).record (.closer k) act) = s.starts :=
    starts_append rfl fun a ha => by rw [List.mem_singleton.1 ha, hact]
  refine h.closer [act] (d := { c with pc := pc }) hc rfl rfl rfl rfl rfl htables
    (fun t ht hf => List.mem_singleton.2 (hgone t ht hf).symm) (fun t ht => hout t (List.mem_singleton.1 ht).symm) ?_ hdid
    fun _ => .inl ?_
  · rw [hstarts, h.starts]
    exact if_congr hcell.symm rfl rfl
  · rw [hstarts]
    exact starts_ne_nil hstarted

theorem report (h : Inv sessionId s) (hc : s.closers[k]? = some c) (hpc : c.pc = .report) : Inv sessionId
    ((s.goto k c .getTransport).record (.closer k) (.emitted (.connectionClosed sessionId c.reason))) := by
  have hdid := h.did k c hc
  simp only [Closer.Did, hpc] at hdid
  refine h.actsOnce hc rfl Iff.rfl (fun _ => id) (fun _ ht hf => absurd (ht.symm.trans hf) (by decide))
    (fun _ ht => nomatch ht) (by simp [hdid.2])
    ⟨hdid.1, ?_⟩
  rw [actsOf_record]
  exact congrArg (· ++ _) hdid.2

/-- An entry that is gone was not removed by a closer that has not come that far. -/
theorem skips (h : Inv sessionId s) {t : Table} {act : Act} (hreg : s.Registered) (ht : s.tables t = false)
    (hnot : .removed t true ∉ s.actsOf (.closer k)) : s.Skips k t act [] := by
  obtain ⟨a, ha, hact⟩ := h.gone t (inserted_of_registered hreg t) ht
  refine .inr ⟨rfl, a, ha, fun hk => hnot (mem_actsOf.2 ?_), hact⟩
  rw [← hk, ← hact]
  exact ha

theorem getTransport (h : Inv sessionId s) (hc : s.closers[k]? = some c) (hpc : c.pc = .getTransport) :
    Inv sessionId (s.goto k c (if s.tables .transports then .disconnect else .markLookup)) := by
  have hdid := h.did k c hc
  simp only [Closer.Did, hpc] at hdid
  cases ht : s.tables .transports with
  | true => exact h.goto hc hdid fun ⟨_, hr⟩ => nomatch hr
  | false =>
    refine h.goto hc ⟨hdid.1, [], h.skips hdid.1 ht ?_, ?_⟩ fun ⟨_, hr⟩ => nomatch hr
    · simp [hdid.2]
    · exact hdid.2

theorem disconnect (h : Inv sessionId s) (hc : s.closers[k]? = some c) (hpc : c.pc = .disconnect) :
    Inv sessionId ((s.goto k c .markLookup).record (.closer k) .disconnected) := by
  have hdid := h.did k c hc
  simp only [Closer.Did, hpc] at hdid
  refine h.actsOnce hc rfl Iff.rfl (fun _ => id) (fun _ ht hf => absurd (ht.symm.trans hf) (by decide))
    (fun _ ht => nomatch ht) (by simp [hdid.2])
    ⟨hdid.1, [.disconnected], .inl rfl, ?_⟩
  rw [actsOf_record]
  exact congrArg (· ++ _) hdid.2

theorem markLookup (h : Inv sessionId s) (hc : s.closers[k]? = some c) (hpc : c.pc = .markLookup) :
    Inv sessionId (s.goto k c (if s.tables .states then .markLock else .remove .transports)) := by
  have hdid := h.did k c hc
  simp only [Closer.Did, hpc] at hdid
  obtain ⟨hreg, d, hd, heq⟩ := hdid
  cases ht : s.tables .states with
  | true => exact h.goto hc ⟨hreg, d, hd, heq⟩ fun ⟨_, hr⟩ => nomatch hr
  | false =>
    refine h.goto hc ⟨hreg, d, [], fun _ => true, hd, h.skips hreg ht ?_, ?_⟩ fun ⟨_, hr⟩ => nomatch hr
    · rcases hd with rfl | ⟨rfl, -⟩ <;> simp [heq]
    · rw [List.append_nil]
      exact heq.trans (List.append_nil _).symm

theorem markLock (h : Inv sessionId s) (hc : s.closers[k]? = some c) (hpc : c.pc = .markLock) :
    Inv sessionId (({ s with cell := .closed }.goto k c (.remove .transports)).record (.closer k) .markedClosed) := by
  have hdid := h.did k c hc
  simp only [Closer.Did, hpc] at hdid
  obtain ⟨hreg, d, hd, heq⟩ := hdid
  have hstarted : .started ∈ s.actsOf (.closer k) := by simp [heq]
  have hcell : s.cell ≠ .connected := by
    intro hcell
    have hstarts := h.starts
    rw [hcell, if_pos rfl] at hstarts
    exact starts_ne_nil hstarted (List.eq_nil_of_length_eq_zero hstarts)
  refine h.actsOnce hc rfl (iff_of_false (by decide) hcell) (fun _ => id)
    (fun _ ht hf => absurd (ht.symm.trans hf) (by decide)) (fun _ ht => nomatch ht) hstarted
    ⟨hreg, d, [.markedClosed], fun _ => true, ?_, .inl rfl, ?_⟩
  · exact hd.imp id fun ⟨hnil, a, ha, hrem⟩ => ⟨hnil, a, List.mem_append_left _ ha, hrem⟩
  · rw [actsOf_record, Table.removedBefore, List.append_nil]
    exact congrArg (· ++ _) heq

theorem remove {t : Table} (h : Inv sessionId s) (hc : s.closers[k]? = some c) (hpc : c.pc = .remove t) : Inv sessionId
    (((s.remove t ok).goto k c (t.next.elim (.done (.ok ())) .remove)).record (.closer k) (.removed t ok)) := by
  have hdid := h.did k c hc
  simp only [Closer.Did, hpc] at hdid
  obtain ⟨hreg, d, m, oks, hd, hm, heq⟩ := hdid
  rw [remove_eq]
  refine h.actsOnce hc rfl Iff.rfl (fun u hu => ?_) (fun u hu hu' => ?_) (fun u hu => ?_) (by simp [heq]) ?_
  · split at hu
    · cases hu
    · exact hu
  · split at hu'
    · next hok => rw [hok.1, hok.2]
    · rw [hu] at hu'
      cases hu'
  · cases hu
    exact ⟨hreg, if_pos ⟨rfl, rfl⟩⟩
  · generalize hs' : State.record _ _ _ = s'
    have hg : Grows s s' := by
      subst hs'
      exact ⟨fun a ha => List.mem_append_left _ ha, id⟩
    have hacts : s'.actsOf (.closer k) = s.actsOf (.closer k) ++ [.removed t ok] := by
      subst hs'
      exact actsOf_record ..
    let oks' : Table → Bool := fun u => if u = t then ok else oks u
    unfold Closer.Did
    rw [hacts, heq]
    cases t with
    | transports =>
      exact ⟨hg.registered hreg, d, m, oks', hg.skips hd, hg.skips hm, by simp [Table.removedBefore, Closer.reason, oks']⟩
    | stats =>
      exact ⟨hg.registered hreg, d, m, oks', hg.skips hd, hg.skips hm, by simp [Table.removedBefore, Closer.reason, oks']⟩
    | states => exact ⟨rfl, .inr ⟨d, m, oks', hg.skips hd, hg.skips hm, by simp [Table.removedBefore, Closer.reason, oks']⟩⟩

theorem closeStep (h : Inv sessionId s) (hc : s.closers[k]? = some c) (hs : c.step sessionId s k ok = some s') :
    Inv sessionId s' := by
  cases hpc : c.pc with
  | lock => exact h.lock hc hpc hs
  | done result =>
    simp only [Closer.step, hpc] at hs
    cases hs
  | lookup =>
    simp only [Closer.step, hpc] at hs
    cases hs
    exact h.lookup hc hpc
  | report =>
    simp only [Closer.step, hpc] at hs
    cases hs
    exact h.report hc hpc
  | getTransport =>
    simp only [Closer.step, hpc] at hs
    cases hs
    exact h.getTransport hc hpc
  | disconnect =>
    simp only [Closer.step, hpc] at hs
    cases hs
    exact h.disconnect hc hpc
  | markLookup =>
    simp only [Closer.step, hpc] at hs
    cases hs
    exact h.markLookup hc hpc
  | markLock =>
    simp only [Closer.step, hpc] at hs
    cases hs
    exact h.markLock hc hpc
  | remove t =>
    simp only [Closer.step, hpc] at hs
    cases hs
    exact h.remove hc hpc

theorem listenerStep (h : Inv sessionId s) (hs : step sessionId info s .listenerStep = some s') : Inv sessionId s' := by
  simp only [ServerSession.step] at hs
  have hnotask : ∀ t, s.listener = .insert t → s.task = .unspawned := by
    intro t hl
    by_contra hne
    have := h.spawned hne
    cases t <;> simp [State.Registered, hl, ListenerPc.inserted] at this
  split at hs
  · next t hl =>
    cases hs
    have hnot : s.task = .unspawned := hnotask t hl
    have hunregistered : ¬ s.Registered := by
      intro hreg
      cases t <;> simp [State.Registered, hl, ListenerPc.inserted] at hreg
    refine h.task rfl rfl (List.append_nil _).symm (by simp) (fun hreg => absurd hreg hunregistered) (fun u hu => ?_)
      (fun u hins hu => ?_) (fun hreg => absurd hreg hunregistered) (by simp) (fun hne => absurd hnot hne) (fun u hu => ?_)
      (by simp)
    · have hold := h.inserted u
      cases t <;> cases u <;> simp_all [State.set, ListenerPc.inserted, Table.next]
    · have hold := h.gone u
      cases t <;> cases u <;> simp_all [State.set, ListenerPc.inserted, Table.next]
    · rw [show s.task = .remove u from hu] at hnot
      cases hnot
  · next hl =>
    cases hs
    have hins : ∀ u, s.listener.inserted u = true := by simp [hl, ListenerPc.inserted]
    exact h.task rfl rfl (List.append_nil _).symm (by simp) (fun _ => rfl) (fun _ _ => rfl)
      (fun u _ hu => .inl (h.gone u (hins u) hu)) (fun _ _ => id) (by simp) (fun _ => rfl) (fun _ hu => nomatch hu) (by simp)
  · next hl =>
    cases hs
    have hins : ∀ u, s.listener.inserted u = true := by simp [hl, ListenerPc.inserted]
    exact h.task rfl rfl rfl (by simp [Action.isStart]) (fun _ => rfl) (fun _ _ => rfl)
      (fun u _ hu => .inl (h.gone u (hins u) hu)) (fun _ _ => id) (by simp) (fun _ => rfl)
      (fun u hu => (grows_record ..).peerClosed (h.removing u hu)) (by simp)
  · cases hs

theorem handle {event : TransportEvent} (h : Inv sessionId s) (hs : step sessionId info s (.handle event) = some s') :
    Inv sessionId s' := by
  simp only [ServerSession.step] at hs
  split at hs
  · next htask =>
    cases hs
    have hreg : s.Registered := h.spawned (by simp [htask])
    refine h.task rfl rfl rfl (by simp [Action.isStart]) id h.inserted (fun u hins hu => .inl (h.gone u hins hu))
      (fun _ _ => id) (by simp) (fun _ => hreg) (fun u hu => ?_) (by simp)
    -- the session is only removed after a `ConnectionClosed`
    cases event with
    | connectionClosed reason => exact ⟨⟨.eventTask, .emitted (.connectionClosed sessionId reason)⟩, by
        simp [TransportServer.handleTransportEvent], rfl, rfl⟩
    | messageReceived packet =>
      cases ht : packet.header.packetType <;> simp [TransportServer.handleTransportEvent, noOwnRequests, ht] at hu
    | _ => simp [TransportServer.handleTransportEvent] at hu
  · cases hs

theorem handleStep (h : Inv sessionId s) (hs : step sessionId info s (.handleStep ok) = some s') : Inv sessionId s' := by
  simp only [ServerSession.step] at hs
  split at hs
  · next t htask =>
    cases hs
    have hreg : s.Registered := h.spawned (by simp [htask])
    have hpeer : s.PeerClosed := h.removing t htask
    rw [remove_eq]
    refine h.task rfl rfl rfl (by simp [Action.isStart]) id (fun u hu => inserted_of_registered hreg u)
      (fun u _ hu => ?_) (fun _ u hu => ?_) (fun a ha u hact => ⟨hreg, ?_⟩) (fun _ => hreg)
      (fun u _ => (grows_record ..).peerClosed hpeer) (fun _ _ _ _ _ => (grows_record ..).peerClosed hpeer)
    · by_cases hut : ok = true ∧ u = t
      · exact .inr ⟨_, List.mem_singleton.2 rfl, by rw [hut.1, hut.2]⟩
      · exact .inl (h.gone u (inserted_of_registered hreg u) ((if_neg hut).symm.trans hu))
    · show (if ok = true ∧ u = t then false else s.tables u) = false
      split
      · rfl
      · exact hu
    · rw [List.mem_singleton.1 ha] at hact
      cases hact
      exact if_pos ⟨rfl, rfl⟩
  · cases hs

theorem close (h : Inv sessionId s) (forced : Bool) : Inv sessionId
    { s with closers := s.closers ++ [⟨forced, .lookup, s.state = some .connected⟩] } := by
  refine ⟨h.inserted, h.gone, h.spawned, h.removing, h.removers, h.out, h.starts, fun k c hc => ?_, fun a ha k hk => ?_,
    fun k c hc hcalled => ?_⟩
  · rcases Indexed.getElem?_concat_eq_some.1 hc with hc | ⟨rfl, rfl⟩
    · exact (h.did k c hc).mono ⟨fun _ => id, id⟩ rfl
    · -- nobody has acted under the new index
      refine List.eq_nil_iff_forall_not_mem.2 fun act hact => ?_
      exact absurd (h.actors _ (mem_actsOf.1 hact) _ rfl) (Nat.lt_irrefl _)
  · exact Nat.lt_of_lt_of_le (h.actors a ha k hk) (by simp)
  · rcases Indexed.getElem?_concat_eq_some.1 hc with hc | ⟨rfl, rfl⟩
    · exact h.called k c hc hcalled
    · refine ⟨h.inserted .states ?_, fun ⟨_, hr⟩ => nomatch hr⟩
      by_contra hno
      simp [State.state, hno] at hcalled

theorem step {l : Label} (h : Inv sessionId s) (hs : step sessionId info s l = some s') : Inv sessionId s' := by
  cases l with
  | listenerStep => exact h.listenerStep hs
  | handle event => exact h.handle hs
  | handleStep ok => exact h.handleStep hs
  | close forced =>
    cases hs
    exact h.close forced
  | closeStep k ok =>
    obtain ⟨c, hc, hs⟩ := Option.bind_eq_some_iff.1 hs
    exact h.closeStep hc hs

end Inv

end Inv

end ServerSession

end Msgtrans
