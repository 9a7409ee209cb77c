import Msgtrans.Lib.Run
import Msgtrans.ConnectionState
import Msgtrans.Pump
import Msgtrans.Transport

/-!
# The life of a connection in a `Transport`

A `Transport` installs connections (`set_connection`) and closes sessions (`close_session`,
`force_close_session`), each call a sequence of steps between which other calls and the event loops move.
`is_connected` is kept in four places: an adapter's `connection_info.state` (TCP), atomic flag
(WebSocket) or loop handle (QUIC), and the `Transport`'s session id, which `TransportClient` asks too. A
connection that ends by itself only tells the WebSocket flag; `on_event` forwards `ConnectionClosed`
and changes nothing. So the rest is down only where a local close came first: `allDown_iff`.
-/

namespace Msgtrans

namespace Lifecycle

abbrev ConnId := Nat

inductive LoopState where
  | running
  /-- the peer closed or an I/O error occurred; `ConnectionClosed` was published -/
  | closedByPeer
  | shutdown
deriving DecidableEq, Repr

/-- The task of `set_connection` that passes a connection's events to `on_event`. -/
inductive Consumer where
  | none | spawned | subscribed
deriving DecidableEq, Repr

/-- Where the `ConnectionClosed` event of a connection is. -/
inductive ClosedEvent where
  | unpublished
  | lost
  | queued (reason : CloseReason)
  | processed
deriving DecidableEq, Repr

structure Adapter where
  protocol : Protocol
  loop : LoopState
  /-- `connection_info.state` -/
  infoState : ConnectionState
  /-- the atomic flag of the WebSocket adapter -/
  isConnectedFlag : Bool
  /-- `event_loop_handle.is_some()` -/
  hasHandle : Bool
  /-- `set_connection` has taken ownership -/
  installed : Bool
  consumer : Consumer
  closedEvent : ClosedEvent
  closeBegun : Bool
  closeReturned : Bool
deriving DecidableEq, Repr

namespace Adapter

def new (protocol : Protocol) : Adapter where
  protocol := protocol
  loop := .running
  infoState := .connected
  isConnectedFlag := true
  hasHandle := true
  installed := false
  consumer := .none
  closedEvent := .unpublished
  closeBegun := false
  closeReturned := false

def isConnected (a : Adapter) : Bool :=
  match a.protocol with
  | .tcp => a.infoState == .connected
  | .webSocket => a.isConnectedFlag
  | .quic => a.hasHandle

/-- `close()` up to its wait for the event loop: the signal is sent, the handle taken. -/
def beginClose (a : Adapter) : Adapter := { a with hasHandle := false, closeBegun := true }

def endClose (a : Adapter) : Adapter :=
  { a with
    infoState := if a.protocol = .tcp then .closed else a.infoState
    isConnectedFlag := if a.protocol = .webSocket then false else a.isConnectedFlag
    closeReturned := true }

/-- The event loop ends by itself: it publishes `ConnectionClosed`, and the WebSocket loop clears the flag. -/
def endLoop (a : Adapter) (reason : CloseReason) : Adapter :=
  { a with
    loop := .closedByPeer
    isConnectedFlag := if a.protocol = .webSocket then false else a.isConnectedFlag
    closedEvent := if a.consumer = .subscribed then .queued reason else .lost }

end Adapter

inductive InstallPc where
  | setAdapter | setSession | addConnection | spawnConsumer | done
deriving DecidableEq, Repr

/-- A `set_connection` call and its next step. -/
structure Installer where
  conn : ConnId
  sessionId : SessionId
  pc : InstallPc
deriving DecidableEq, Repr

inductive ClosePc where
  | tryStart
  | beginClose
  | endClose (conn : ConnId)
  | markClosed
  | compare
  | clearSession
  | clearAdapter
  | done
deriving DecidableEq, Repr

/-- A `close_session` or `force_close_session` call and its next step. The two differ in how long they
wait for the event loop, which the steps of `close()` leave open. -/
structure Closer where
  sessionId : SessionId
  pc : ClosePc
deriving DecidableEq, Repr

structure State where
  adapters : ConnId → Option Adapter
  connectionAdapter : Option ConnId
  sessionId : Option SessionId
  stateManager : ConnectionStateManager
  published : List TransportEvent
  installers : List Installer
  closers : List Closer
  latest : Option ConnId

inductive Label where
  /-- an adapter is built and its event loop started -/
  | connect (conn : ConnId) (protocol : Protocol)
  /-- `set_connection` is called, and takes a step -/
  | install (conn : ConnId) (sessionId : SessionId)
  | installStep (i : Nat)
  | subscribe (conn : ConnId)
  /-- an event loop ends: by the peer or an I/O error, or through the shutdown signal -/
  | loopClosed (conn : ConnId) (reason : CloseReason)
  | loopShutdown (conn : ConnId)
  | onEvent (conn : ConnId)
  /-- `close_session` or `force_close_session` is called, and takes a step -/
  | close (sessionId : SessionId)
  | closeStep (k : Nat)

def start : State := ⟨fun _ => none, none, none, .new, [], [], [], none⟩

def State.setAdapter (s : State) (c : ConnId) (a : Adapter) : State :=
  { s with adapters := fun d => if d = c then some a else s.adapters d }

def State.isConnected (s : State) : Bool := s.sessionId.isSome

def State.clientIsConnected (s : State) : Bool := s.isConnected

def Installer.step (i : Installer) (s : State) : Option (State × InstallPc) :=
  match i.pc with
  | .setAdapter => (s.adapters i.conn).bind fun a =>
    if a.installed then none else
    let s := s.setAdapter i.conn { a with installed := true }
    some ({ s with connectionAdapter := some i.conn, latest := some i.conn }, .setSession)
  | .setSession => some ({ s with sessionId := some i.sessionId }, .addConnection)
  | .addConnection =>
    some ({ s with stateManager := s.stateManager.addConnection i.sessionId }, .spawnConsumer)
  | .spawnConsumer =>
    -- the task gets the connection that is installed now; `unwrap` panics when a close has removed it
    match s.connectionAdapter with
    | none => some (s, .done)
    | some c => (s.adapters c).map fun a =>
      (s.setAdapter c { a with consumer := if a.consumer = .none then .spawned else a.consumer }, .done)
  | .done => none

def Closer.step (k : Closer) (s : State) : Option (State × ClosePc) :=
  match k.pc with
  | .tryStart =>
    let (started, stateManager) := s.stateManager.tryStartClosing k.sessionId
    some ({ s with stateManager := stateManager }, if started then .beginClose else .done)
  | .beginClose =>
    match s.connectionAdapter with
    | none => some (s, .markClosed)
    | some c => (s.adapters c).map fun a => (s.setAdapter c a.beginClose, .endClose c)
  | .endClose c => (s.adapters c).map fun a => (s.setAdapter c a.endClose, .markClosed)
  | .markClosed => some ({ s with stateManager := s.stateManager.markClosed k.sessionId }, .compare)
  | .compare => some (s, if s.sessionId = some k.sessionId then .clearSession else .done)
  | .clearSession => some ({ s with sessionId := none }, .clearAdapter)
  | .clearAdapter => some ({ s with connectionAdapter := none }, .done)
  | .done => none

def step (lib : CompressionLib) (s : State) : Label → Option State
  | .connect c protocol => if (s.adapters c).isNone then some (s.setAdapter c (.new protocol)) else none
  | .install c sessionId =>
    some { s with installers := s.installers ++ [⟨c, sessionId, .setAdapter⟩] }
  | .installStep i => s.installers[i]?.bind fun call => (call.step s).map fun (s, pc) =>
    { s with installers := s.installers.set i { call with pc := pc } }
  | .subscribe c => (s.adapters c).bind fun a =>
    if a.consumer = .spawned then some (s.setAdapter c { a with consumer := .subscribed }) else none
  | .loopClosed c reason => (s.adapters c).bind fun a =>
    if a.loop = .running then some (s.setAdapter c (a.endLoop reason)) else none
  | .loopShutdown c => (s.adapters c).bind fun a =>
    if a.loop = .running ∧ a.closeBegun then some (s.setAdapter c { a with loop := .shutdown }) else none
  | .onEvent c => (s.adapters c).bind fun a =>
    match a.closedEvent with
    | .queued reason =>
      let s := s.setAdapter c { a with closedEvent := .processed }
      some { s with published := s.published ++ (Transport.onEvent lib (.connectionClosed reason)).published }
    | _ => none
  | .close sessionId => some { s with closers := s.closers ++ [⟨sessionId, .tryStart⟩] }
  | .closeStep k => s.closers[k]?.bind fun call => (call.step s).map fun (s, pc) =>
    { s with closers := s.closers.set k { call with pc := pc } }

/-- Once the connection installed last has ended by itself and its `ConnectionClosed` was processed,
nothing is connected: not the adapter, not the `Transport`, not the `TransportClient`. -/
def AllDown (s : State) : Prop :=
  ∀ c a, s.latest = some c → s.adapters c = some a → a.loop = .closedByPeer → a.closedEvent = .processed →
    a.isConnected = false ∧ s.isConnected = false ∧ s.clientIsConnected = false

/-- A local close has brought the adapter down; a WebSocket adapter comes down with its loop. -/
def Adapter.ClosedLocally (a : Adapter) : Prop :=
  match a.protocol with
  | .tcp => a.closeReturned = true
  | .webSocket => True
  | .quic => a.closeBegun = true

/-- `on_event` processes the `ConnectionClosed` of the connection installed last only when a local close
has closed its adapter and cleared the session id, and no `set_connection` sets the session id after. -/
def ClosedBefore (s : State) : Label → Prop
  | .onEvent c => ∀ a, s.latest = some c → s.adapters c = some a → a.ClosedLocally ∧ s.sessionId = none
  | .installStep i => ∀ call c a, s.installers[i]? = some call → call.pc = .setSession →
      s.latest = some c → s.adapters c = some a → a.closedEvent ≠ .processed
  | _ => True

instance (a : Adapter) : Decidable a.ClosedLocally :=
  match hp : a.protocol with
  | .tcp => decidable_of_iff (a.closeReturned = true) (by simp [Adapter.ClosedLocally, hp])
  | .webSocket => isTrue (by simp [Adapter.ClosedLocally, hp])
  | .quic => decidable_of_iff (a.closeBegun = true) (by simp [Adapter.ClosedLocally, hp])

instance (s : State) : (l : Label) → Decidable (ClosedBefore s l)
  | .onEvent c => decidable_of_iff (∀ a ∈ s.adapters c, s.latest = some c → a.ClosedLocally ∧ s.sessionId = none)
      ⟨fun h a hl ha => h a ha hl, fun h a ha hl => h a hl ha⟩
  | .installStep i => decidable_of_iff (∀ call ∈ s.installers[i]?, call.pc = .setSession → ∀ c ∈ s.latest,
      ∀ a ∈ s.adapters c, a.closedEvent ≠ .processed)
      ⟨fun h call c a hcall hpc hl ha => h call hcall hpc c hl a ha, fun h call hcall hpc c hl a ha => h call c a hcall hpc hl ha⟩
  | .connect .. | .install .. | .subscribe _ | .loopClosed .. | .loopShutdown _ | .close _ | .closeStep _ => isTrue trivial

/-! ### Adapters -/

namespace Adapter

/-- What the adapter's places say of its history. -/
structure Inv (a : Adapter) : Prop where
  info : a.protocol = .tcp → a.infoState = if a.closeReturned then .closed else .connected
  flag : a.protocol = .webSocket → a.loop = .closedByPeer → a.isConnectedFlag = false
  handle : a.hasHandle = !a.closeBegun
  event : a.loop ≠ .closedByPeer → a.closedEvent = .unpublished
  unheard : a.consumer = .none → a.closedEvent = .unpublished ∨ a.closedEvent = .lost
  owned : a.consumer ≠ .none → a.installed = true

theorem Inv.new (protocol : Protocol) : (new protocol).Inv :=
  ⟨fun _ => rfl, fun _ h => (nomatch h), rfl, fun _ => rfl, fun _ => .inl rfl, fun h => absurd rfl h⟩

/-- An adapter whose loop ended by itself is down exactly when a local close brought it down. -/
theorem Inv.isConnected_iff {a : Adapter} (h : a.Inv) (hloop : a.loop = .closedByPeer) :
    a.isConnected = false ↔ a.ClosedLocally := by
  unfold isConnected ClosedLocally
  cases hp : a.protocol with
  | tcp =>
    have hinfo := h.info hp
    cases hc : a.closeReturned <;> simp [hinfo, hc]
  | webSocket => simp [h.flag hp hloop]
  | quic => simp [h.handle]

theorem Inv.loop_of_event {a : Adapter} (h : a.Inv) (he : a.closedEvent ≠ .unpublished) :
    a.loop = .closedByPeer := by
  by_contra hloop
  exact he (h.event hloop)

theorem Inv.not_processed {a : Adapter} (h : a.Inv) (hnew : a.installed = false) :
    a.closedEvent ≠ .processed := by
  intro hev
  have hnone : a.consumer = .none := by
    by_contra hc
    exact Bool.false_ne_true (hnew.symm.trans (h.owned hc))
  rcases h.unheard hnone with h | h <;> rw [h] at hev <;> cases hev

/-- A step of the adapter other than the processing of its `ConnectionClosed`. -/
structure Leads (a a' : Adapter) : Prop where
  inv : a.Inv → a'.Inv
  processed : a'.closedEvent = .processed → a.closedEvent = .processed
  down : a.isConnected = false → a'.isConnected = false
  installed : a.installed = true → a'.installed = true

theorem leads_beginClose (a : Adapter) : Leads a a.beginClose := by
  refine ⟨fun h => ⟨h.info, h.flag, rfl, h.event, h.unheard, h.owned⟩, id, fun h => ?_, id⟩
  unfold isConnected at h ⊢
  cases hp : a.protocol <;> simp_all [beginClose]

theorem leads_endClose (a : Adapter) : Leads a a.endClose := by
  refine ⟨fun h => ⟨fun htcp => if_pos htcp, fun hws _ => if_pos hws, h.handle, h.event, h.unheard, h.owned⟩,
    id, fun h => ?_, id⟩
  unfold isConnected at h ⊢
  cases hp : a.protocol <;> simp_all [endClose]

theorem leads_consumer {a : Adapter} {consumer : Consumer} (howned : a.installed = true)
    (hkeep : consumer = .none → a.consumer = .none) : Leads a { a with consumer := consumer } :=
  ⟨fun h => ⟨h.info, h.flag, h.handle, h.event, fun hc => h.unheard (hkeep hc), fun _ => howned⟩, id, id, id⟩

theorem leads_installed (a : Adapter) : Leads a { a with installed := true } :=
  ⟨fun h => ⟨h.info, h.flag, h.handle, h.event, h.unheard, fun _ => rfl⟩, id, id, fun _ => rfl⟩

theorem leads_endLoop (a : Adapter) (reason : CloseReason) : Leads a (a.endLoop reason) := by
  refine ⟨fun h => ⟨h.info, fun hws _ => if_pos hws, h.handle, fun hloop => absurd rfl hloop, fun hc => ?_,
    h.owned⟩, fun h => ?_, fun h => ?_, id⟩
  · refine .inr (if_neg ?_)
    rw [show a.consumer = .none from hc]
    decide
  · have h : (if a.consumer = .subscribed then ClosedEvent.queued reason else .lost) = .processed := h
    split at h <;> cases h
  · unfold isConnected at h ⊢
    cases hp : a.protocol <;> simp_all [endLoop]

theorem leads_shutdown {a : Adapter} (hrun : a.loop = .running) : Leads a { a with loop := .shutdown } := by
  refine ⟨fun h => ⟨h.info, fun _ hloop => (nomatch hloop), h.handle, fun _ => h.event ?_, h.unheard, h.owned⟩,
    id, id, id⟩
  simp [hrun]

end Adapter

/-! ### The law -/

structure Inv (s : State) : Prop where
  adapters : ∀ c a, s.adapters c = some a → a.Inv
  current : ∀ c, s.connectionAdapter = some c → ∃ a, s.adapters c = some a ∧ a.installed = true
  allDown : AllDown s

theorem Inv.start : Inv start :=
  ⟨fun _ _ h => (nomatch h), fun _ h => (nomatch h), fun _ _ h => (nomatch h)⟩

variable {lib : CompressionLib} {s s' : State} {l : Label} {c : ConnId} {a a' : Adapter}

theorem setAdapter_self (s : State) (c : ConnId) (a : Adapter) : (s.setAdapter c a).adapters c = some a :=
  if_pos rfl

theorem setAdapter_of_ne {d : ConnId} (h : d ≠ c) : (s.setAdapter c a).adapters d = s.adapters d := if_neg h

theorem adapters_setAdapter {d : ConnId} {b : Adapter} (h : (s.setAdapter c a).adapters d = some b) :
    d = c ∧ b = a ∨ d ≠ c ∧ s.adapters d = some b := by
  by_cases hd : d = c
  · subst hd
    rw [setAdapter_self] at h
    exact .inl ⟨rfl, (Option.some.inj h).symm⟩
  · rw [setAdapter_of_ne hd] at h
    exact .inr ⟨hd, h⟩

namespace Inv

/-- The invariant reads the adapters, the installed connection, the session id and the last connection. -/
theorem of_eq (h : Inv s) (hadapters : s'.adapters = s.adapters)
    (hcurrent : s'.connectionAdapter = s.connectionAdapter ∨ s'.connectionAdapter = none)
    (hsession : s'.sessionId = s.sessionId ∨ s'.sessionId = none) (hlatest : s'.latest = s.latest) : Inv s' := by
  refine ⟨by rw [hadapters]; exact h.adapters, fun c hc => ?_, fun c a hl ha hloop hev => ?_⟩
  · rw [hadapters]
    rcases hcurrent with heq | hnone
    · rw [heq] at hc
      exact h.current c hc
    · rw [hnone] at hc
      cases hc
  · rw [hlatest] at hl
    rw [hadapters] at ha
    obtain ⟨hdown, hs, -⟩ := h.allDown c a hl ha hloop hev
    have hnone : s'.isConnected = false := by
      rcases hsession with heq | hnone
      · rw [State.isConnected, heq]
        exact hs
      · rw [State.isConnected, hnone]
        rfl
    exact ⟨hdown, hnone, hnone⟩

theorem setAdapter_of (h : Inv s) (ha' : a'.Inv) (hkept : s.connectionAdapter = some c → a'.installed = true)
    (hdown : s.latest = some c → a'.loop = .closedByPeer → a'.closedEvent = .processed →
      a'.isConnected = false ∧ s.isConnected = false) : Inv (s.setAdapter c a') := by
  refine ⟨fun d b hb => ?_, fun d hd => ?_, fun d b hl hb hloop hev => ?_⟩
  · rcases adapters_setAdapter hb with ⟨-, rfl⟩ | ⟨-, hb⟩
    · exact ha'
    · exact h.adapters d b hb
  · by_cases hdc : d = c
    · subst hdc
      exact ⟨a', setAdapter_self .., hkept hd⟩
    · rw [setAdapter_of_ne hdc]
      exact h.current d hd
  · rcases adapters_setAdapter hb with ⟨rfl, rfl⟩ | ⟨-, hb⟩
    · obtain ⟨hb, hs⟩ := hdown hl hloop hev
      exact ⟨hb, hs, hs⟩
    · exact h.allDown d b hl hb hloop hev

theorem setAdapter (h : Inv s) (ha : s.adapters c = some a) (hlead : a.Leads a') : Inv (s.setAdapter c a') := by
  refine h.setAdapter_of (hlead.inv (h.adapters c a ha)) (fun hc => ?_) (fun hl _ hev => ?_)
  · obtain ⟨b, hb, hinst⟩ := h.current c hc
    cases ha.symm.trans hb
    exact hlead.installed hinst
  · have hev' := hlead.processed hev
    have hloop' := (h.adapters c a ha).loop_of_event (by simp [hev'])
    obtain ⟨hdown, hs, -⟩ := h.allDown c a hl ha hloop' hev'
    exact ⟨hlead.down hdown, hs⟩

theorem installer {call : Installer} {pc : InstallPc} (h : Inv s) (hs : call.step s = some (s', pc))
    (hset : call.pc = .setSession → ∀ c a, s.latest = some c → s.adapters c = some a →
      a.closedEvent ≠ .processed) : Inv s' := by
  unfold Installer.step at hs
  cases hpc : call.pc with
  | setAdapter =>
    simp only [hpc] at hs
    obtain ⟨a, ha, hs⟩ := Option.bind_eq_some_iff.1 hs
    split at hs
    · cases hs
    · next hnew =>
      cases hs
      have hmid := h.setAdapter ha (Adapter.leads_installed a)
      refine ⟨hmid.adapters, fun c hc => ?_, fun c b hl hb hloop hev => ?_⟩
      · cases hc
        exact ⟨_, setAdapter_self .., rfl⟩
      · -- a connection just installed has no event processed
        cases hl
        rcases adapters_setAdapter hb with ⟨-, rfl⟩ | ⟨hne, -⟩
        · exact absurd hev ((h.adapters _ a ha).not_processed (Bool.eq_false_iff.2 hnew))
        · exact absurd rfl hne
  | setSession =>
    simp only [hpc] at hs
    cases hs
    exact ⟨h.adapters, h.current, fun c a hl ha _ hev => absurd hev (hset hpc c a hl ha)⟩
  | addConnection =>
    simp only [hpc] at hs
    cases hs
    exact h.of_eq rfl (.inl rfl) (.inl rfl) rfl
  | spawnConsumer =>
    simp only [hpc] at hs
    split at hs
    · cases hs
      exact h
    · next c hc =>
      obtain ⟨a, ha, hs⟩ := Option.map_eq_some_iff.1 hs
      cases hs
      obtain ⟨b, hb, hinst⟩ := h.current c hc
      cases ha.symm.trans hb
      refine h.setAdapter ha (Adapter.leads_consumer hinst fun hnone => ?_)
      split at hnone
      · cases hnone
      · exact hnone
  | done =>
    simp only [hpc] at hs
    cases hs

theorem closer {call : Closer} {pc : ClosePc} (h : Inv s) (hs : call.step s = some (s', pc)) : Inv s' := by
  unfold Closer.step at hs
  cases hpc : call.pc with
  | tryStart =>
    simp only [hpc] at hs
    cases hs
    exact h.of_eq rfl (.inl rfl) (.inl rfl) rfl
  | beginClose =>
    simp only [hpc] at hs
    split at hs
    · cases hs
      exact h
    · next c hc =>
      obtain ⟨a, ha, hs⟩ := Option.map_eq_some_iff.1 hs
      cases hs
      exact h.setAdapter ha (Adapter.leads_beginClose a)
  | endClose c =>
    simp only [hpc] at hs
    obtain ⟨a, ha, hs⟩ := Option.map_eq_some_iff.1 hs
    cases hs
    exact h.setAdapter ha (Adapter.leads_endClose a)
  | markClosed =>
    simp only [hpc] at hs
    cases hs
    exact h.of_eq rfl (.inl rfl) (.inl rfl) rfl
  | compare =>
    simp only [hpc] at hs
    cases hs
    exact h
  | clearSession =>
    simp only [hpc] at hs
    cases hs
    exact h.of_eq rfl (.inl rfl) (.inr rfl) rfl
  | clearAdapter =>
    simp only [hpc] at hs
    cases hs
    exact h.of_eq rfl (.inr rfl) (.inl rfl) rfl
  | done =>
    simp only [hpc] at hs
    cases hs

theorem step_onEvent (hs : step lib s (.onEvent c) = some s') : ∃ a reason,
    s.adapters c = some a ∧ a.closedEvent = .queued reason ∧
      s'.adapters = (s.setAdapter c { a with closedEvent := .processed }).adapters ∧
      s'.connectionAdapter = s.connectionAdapter ∧ s'.sessionId = s.sessionId ∧ s'.latest = s.latest := by
  simp only [Lifecycle.step] at hs
  obtain ⟨a, ha, hs⟩ := Option.bind_eq_some_iff.1 hs
  split at hs
  · next reason hev =>
    cases hs
    exact ⟨a, reason, ha, hev, rfl, rfl, rfl, rfl⟩
  · cases hs

theorem step (hs : step lib s l = some s') (hG : ClosedBefore s l) (h : Inv s) : Inv s' := by
  cases l with
  | connect c protocol =>
    simp only [Lifecycle.step] at hs
    split at hs
    · next hnone =>
      cases hs
      refine h.setAdapter_of (.new protocol) (fun hc => ?_) (fun _ hloop => nomatch hloop)
      obtain ⟨a, ha, -⟩ := h.current c hc
      rw [ha] at hnone
      cases hnone
    · cases hs
  | install c sessionId =>
    cases hs
    exact h.of_eq rfl (.inl rfl) (.inl rfl) rfl
  | installStep i =>
    simp only [Lifecycle.step] at hs
    obtain ⟨call, hcall, hs⟩ := Option.bind_eq_some_iff.1 hs
    obtain ⟨⟨t, pc⟩, ht, hs⟩ := Option.map_eq_some_iff.1 hs
    cases hs
    have hmid := h.installer ht fun hpc c a hl ha => hG call c a hcall hpc hl ha
    exact hmid.of_eq rfl (.inl rfl) (.inl rfl) rfl
  | subscribe c =>
    simp only [Lifecycle.step] at hs
    obtain ⟨a, ha, hs⟩ := Option.bind_eq_some_iff.1 hs
    split at hs
    · next hsp =>
      cases hs
      have hinst := (h.adapters c a ha).owned (by rw [hsp]; decide)
      exact h.setAdapter ha (Adapter.leads_consumer hinst fun hnone => nomatch hnone)
    · cases hs
  | loopClosed c reason =>
    simp only [Lifecycle.step] at hs
    obtain ⟨a, ha, hs⟩ := Option.bind_eq_some_iff.1 hs
    split at hs
    · cases hs
      exact h.setAdapter ha (Adapter.leads_endLoop a reason)
    · cases hs
  | loopShutdown c =>
    simp only [Lifecycle.step] at hs
    obtain ⟨a, ha, hs⟩ := Option.bind_eq_some_iff.1 hs
    split at hs
    · next hrun =>
      cases hs
      exact h.setAdapter ha (Adapter.leads_shutdown hrun.1)
    · cases hs
  | onEvent c =>
    obtain ⟨a, reason, ha, hev, hadapters, hcurrent, hsession, hlatest⟩ := step_onEvent hs
    have hinv := h.adapters c a ha
    have hloop := hinv.loop_of_event (by simp [hev])
    have hmid : Inv (s.setAdapter c { a with closedEvent := .processed }) := by
      refine h.setAdapter_of ⟨hinv.info, hinv.flag, hinv.handle, fun hne => absurd hloop hne, fun hc => ?_,
        hinv.owned⟩ (fun hc => ?_) (fun hl _ _ => ?_)
      · rcases hinv.unheard hc with h | h <;> rw [hev] at h <;> cases h
      · obtain ⟨b, hb, hinst⟩ := h.current c hc
        cases ha.symm.trans hb
        exact hinst
      · obtain ⟨hlocal, hnone⟩ := hG a hl ha
        refine ⟨(hinv.isConnected_iff hloop).2 hlocal, ?_⟩
        rw [State.isConnected, hnone]
        rfl
    exact hmid.of_eq hadapters (.inl hcurrent) (.inl hsession) hlatest
  | close sessionId =>
    cases hs
    exact h.of_eq rfl (.inl rfl) (.inl rfl) rfl
  | closeStep k =>
    simp only [Lifecycle.step] at hs
    obtain ⟨call, hcall, hs⟩ := Option.bind_eq_some_iff.1 hs
    obtain ⟨⟨t, pc⟩, ht, hs⟩ := Option.map_eq_some_iff.1 hs
    cases hs
    exact (h.closer ht).of_eq rfl (.inl rfl) (.inl rfl) rfl

theorem closedBefore (hs : Lifecycle.step lib s l = some s') (h : Inv s) (hdown : AllDown s') :
    ClosedBefore s l := by
  cases l with
  | onEvent c =>
    intro a hl ha
    obtain ⟨b, reason, hb, hev, hadapters, -, hsession, hlatest⟩ := step_onEvent hs
    cases ha.symm.trans hb
    have hinv := h.adapters c a ha
    have hloop := hinv.loop_of_event (by simp [hev])
    obtain ⟨hconn, hs', -⟩ := hdown c { a with closedEvent := .processed } (hlatest.trans hl)
      (by rw [hadapters]; exact setAdapter_self ..) hloop rfl
    refine ⟨(hinv.isConnected_iff hloop).1 hconn, ?_⟩
    rw [State.isConnected, hsession] at hs'
    exact Option.not_isSome_iff_eq_none.1 (Bool.eq_false_iff.1 hs')
  | installStep i =>
    intro call c a hcall hpc hl ha hev
    simp only [Lifecycle.step, hcall, Option.bind_some, Installer.step, hpc] at hs
    cases hs
    have hloop := (h.adapters c a ha).loop_of_event (by simp [hev])
    obtain ⟨-, hconn, -⟩ := hdown c a hl ha hloop hev
    cases hconn
  | _ => trivial

end Inv

open StepSystem

/-- In every state of a run a connection that ended by itself, its `ConnectionClosed` processed, is down
at every layer exactly when a local close always came first. -/
theorem allDown_iff {ls : List Label} (hr : run (step lib) start ls = some s) :
    Always (step lib) AllDown start ls ↔ Meets (step lib) ClosedBefore start ls :=
  always_iff_meets_of_step (I := Inv) (fun _ h => h.allDown) (fun _ _ _ hs hG h => h.step hs hG)
    (fun _ _ _ hs h hdown => h.closedBefore hs hdown) hr .start

/-- A TCP connection whose peer closes while a local close is under way: the close is through before its event is processed, and then
everything is down. -/
theorem allDown_iff_local_close :
    let ls := [Label.connect 0 .tcp, .install 0 1, .installStep 0, .installStep 0, .installStep 0, .installStep 0,
      .subscribe 0, .loopClosed 0 .normal, .close 1, .closeStep 0, .closeStep 0, .closeStep 0, .closeStep 0, .closeStep 0,
      .closeStep 0, .closeStep 0, .onEvent 0]
    ∃ s a, run (step ⟨none, none⟩) start ls = some s ∧ s.latest = some 0 ∧ s.adapters 0 = some a ∧
      a.loop = .closedByPeer ∧ a.closedEvent = .processed ∧ Meets (step ⟨none, none⟩) ClosedBefore start ls ∧
        Always (step ⟨none, none⟩) AllDown start ls := by
  intro ls
  have hmeets : Meets (step ⟨none, none⟩) ClosedBefore start ls := by decide
  exact ⟨_, _, rfl, rfl, rfl, rfl, rfl, hmeets, (allDown_iff (s := _) rfl).2 hmeets⟩

/-- A TCP connection whose peer closes: the event is processed, and everything still says connected. -/
theorem connected_after_peer_close :
    ∃ s, run (step ⟨none, none⟩) start [.connect 0 .tcp, .install 0 1, .installStep 0, .installStep 0,
        .installStep 0, .installStep 0, .subscribe 0, .loopClosed 0 .normal, .onEvent 0] = some s ∧
      ¬ AllDown s := by
  refine ⟨_, rfl, fun h => ?_⟩
  obtain ⟨-, hconn, -⟩ := h 0 _ rfl rfl rfl rfl
  revert hconn
  decide

end Lifecycle

end Msgtrans
