import Mathlib.Algebra.BigOperators.Group.Multiset.Basic
import Mathlib.Data.List.Forall2
import Msgtrans.EventRouting
import Msgtrans.Lib.Indexed
import Msgtrans.Lib.Run

/-!
# Serving several protocols (`TransportServer::serve`)

`serve` builds the server of each configured protocol and spawns a listener for it, then waits for the listeners one after the
other. A listener accepts in a loop of its own: it takes a session id, enters the session (`add_session`) and announces it, until
`accept` fails. All listeners share the id counter, the tables and the event channel.

`law_of_serving` says what any run makes of this. Neither `stop` nor a `serve` that returns an error ends a listener: `goes_on`.
-/

namespace Msgtrans

namespace Serving

open EventRouting (idAt idAt_succ idAt_inj)

inductive ListenerPc where
  | accept
  | add (sessionId : SessionId) (info : ConnectionInfo)
  | announce (sessionId : SessionId) (info : ConnectionInfo)
  /-- `accept` has failed -/
  | ended (error : TransportError)

structure Listener where
  protocol : String
  pc : ListenerPc
  /-- the task has panicked, or its runtime is gone -/
  cancelled : Bool

inductive ServePc where
  /-- the protocols whose servers are not built yet -/
  | build (rest : List String)
  /-- the listeners still to be waited for -/
  | wait (tasks : List ℕ)
  | returned (result : Except TransportError Unit)

/-- A call of `serve`. -/
structure Serve where
  /-- the protocols as the iteration over `protocol_configs` has them -/
  order : List String
  tasks : List ℕ
  pc : ServePc

structure Server where
  protocols : List String
  isRunning : Bool
  /-- `session_id_generator` -/
  nextId : UInt64
  serves : List Serve
  listeners : List Listener
  /-- the ids taken, the sessions entered and what has been sent on `event_sender` -/
  issued : List SessionId
  added : List SessionId
  events : List ServerEvent

inductive Label where
  | serve (order : List String)
  /-- what `build_server_dyn` returns for the next protocol of call `j` -/
  | build (j : ℕ) (result : Except TransportError Unit)
  | wait (j : ℕ)
  | accept (k : ℕ) (result : Except TransportError ConnectionInfo)
  | add (k : ℕ)
  | announce (k : ℕ)
  | cancel (k : ℕ)
  | stop

def start (protocols : List String) : Server := ⟨protocols, false, 1, [], [], [], [], []⟩

def noProtocols : TransportError := .configuration "protocols" "No protocols configured"

def taskCancelled : TransportError := .configuration "server" "Listener task cancelled"

namespace Server

def setServe (s : Server) (j : ℕ) (v : Serve) : Server := { s with serves := s.serves.set j v }

def setListener (s : Server) (k : ℕ) (x : Listener) : Server := { s with listeners := s.listeners.set k x }

def build (s : Server) (j : ℕ) (v : Serve) (result : Except TransportError Unit) : Option Server :=
  match v.pc with
  | .build (protocol :: rest) =>
    match result with
    | .ok _ =>
      some ({ s with listeners := s.listeners ++ [Listener.mk protocol .accept false] }.setServe j
        { v with tasks := v.tasks ++ [s.listeners.length], pc := .build rest })
    -- the tasks spawned before go on
    | .error e => some (s.setServe j { v with pc := .returned (.error e) })
  | _ => none

def wait (s : Server) (j : ℕ) (v : Serve) : Option Server :=
  match v.pc with
  | .build [] => some (s.setServe j { v with pc := .wait v.tasks })
  | .build (_ :: _) => none
  | .wait [] => some (s.setServe j { v with pc := .returned (.ok ()) })
  | .wait (k :: tasks) =>
    s.listeners[k]?.bind fun x =>
      if x.cancelled then some (s.setServe j { v with pc := .returned (.error taskCancelled) }) else
      match x.pc with
      | .ended _ => some (s.setServe j { v with pc := .wait tasks })
      | _ => none
  | .returned _ => none

def accept (s : Server) (k : ℕ) (x : Listener) (result : Except TransportError ConnectionInfo) : Option Server :=
  match x.pc with
  | .accept =>
    match result with
    | .ok info =>
      some ({ s with nextId := s.nextId + 1, issued := s.issued ++ [s.nextId] }.setListener k
        { x with pc := .add s.nextId info })
    | .error e => some (s.setListener k { x with pc := .ended e })
  | _ => none

def add (s : Server) (k : ℕ) (x : Listener) : Option Server :=
  match x.pc with
  | .add sessionId info =>
    some ({ s with added := s.added ++ [sessionId] }.setListener k { x with pc := .announce sessionId info })
  | _ => none

def announce (s : Server) (k : ℕ) (x : Listener) : Option Server :=
  match x.pc with
  | .announce sessionId info =>
    some ({ s with events := s.events ++ [ServerEvent.connectionEstablished sessionId info] }.setListener k { x with pc := .accept })
  | _ => none

/-- A step of a task that has not been cancelled. -/
def listen (s : Server) (k : ℕ) (f : Listener → Option Server) : Option Server :=
  s.listeners[k]?.bind fun x => if x.cancelled then none else f x

end Server

def step (s : Server) : Label → Option Server
  | .serve order =>
    if order.Perm s.protocols then
      let pc : ServePc := if order = [] then .returned (.error noProtocols) else .build order
      some { s with isRunning := true, serves := s.serves ++ [⟨order, [], pc⟩] }
    else none
  | .build j result => s.serves[j]?.bind fun v => s.build j v result
  | .wait j => s.serves[j]?.bind fun v => s.wait j v
  | .accept k result => s.listen k fun x => s.accept k x result
  | .add k => s.listen k fun x => s.add k x
  | .announce k => s.listen k fun x => s.announce k x
  | .cancel k => s.listen k fun x => some (s.setListener k { x with cancelled := true })
  | .stop => some { s with isRunning := false }

/-! ### The law -/

/-- The session the listener has taken an id for and not entered yet. -/
def Listener.adding (x : Listener) : Multiset SessionId :=
  match x.pc with
  | .add sessionId _ => {sessionId}
  | _ => 0

def Listener.announcing (x : Listener) : Multiset SessionId :=
  match x.pc with
  | .announce sessionId _ => {sessionId}
  | _ => 0

def Listener.isEnded (x : Listener) : Bool :=
  match x.pc with
  | .ended _ => true
  | _ => false

def established? : ServerEvent → Option SessionId
  | .connectionEstablished sessionId _ => some sessionId
  | _ => none

/-- Task `k` is the listener of `protocol`. -/
def Listens (listeners : List Listener) (k : ℕ) (protocol : String) : Prop := ∃ x, listeners[k]? = some x ∧ x.protocol = protocol

def Ended (listeners : List Listener) (k : ℕ) : Prop := ∃ x, listeners[k]? = some x ∧ x.isEnded = true

def Cancelled (listeners : List Listener) (k : ℕ) : Prop := ∃ x, listeners[k]? = some x ∧ x.cancelled = true

/-- What a call of `serve` has come to, with `rest` the protocols it has not started. -/
def Serve.At (listeners : List Listener) (v : Serve) (rest : List String) : Prop :=
  match v.pc with
  | .build todo => rest = todo ∧ v.order ≠ []
  | .wait tasks => rest = [] ∧ v.order ≠ [] ∧ ∃ joined, v.tasks = joined ++ tasks ∧ ∀ k ∈ joined, Ended listeners k
  | .returned (.ok _) => rest = [] ∧ v.order ≠ [] ∧ ∀ k ∈ v.tasks, Ended listeners k
  | .returned (.error e) => v.order = [] ∧ e = noProtocols ∨ rest ≠ [] ∨ e = taskCancelled ∧ ∃ k ∈ v.tasks, Cancelled listeners k

/-- A call has started a listener for each protocol in its order up to some point, and returns `Ok` only when there are
protocols and all of their listeners have ended. -/
structure Serve.Good (protocols : List String) (listeners : List Listener) (v : Serve) : Prop where
  perm : v.order.Perm protocols
  started : ∃ done rest, v.order = done ++ rest ∧ List.Forall₂ (Listens listeners) v.tasks done ∧ v.At listeners rest

structure Inv (s : Server) : Prop where
  ids : s.issued = (List.range s.issued.length).map idAt
  nextId : s.nextId = idAt s.issued.length
  entered : (s.issued : Multiset SessionId) = s.added + (s.listeners.map Listener.adding).sum
  announced : (s.added : Multiset SessionId) = s.events.filterMap established? + (s.listeners.map Listener.announcing).sum
  serves : ∀ v ∈ s.serves, v.Good s.protocols s.listeners

/-- What any run makes of the calls of `serve`. -/
structure Law (s : Server) : Prop where
  /-- the first 2^64 ids are distinct -/
  distinct : s.issued.length ≤ 2 ^ 64 → s.issued.Nodup
  /-- a session is entered once, after its id was taken, and announced once, after it was entered -/
  entered : (s.issued : Multiset SessionId) = s.added + (s.listeners.map Listener.adding).sum
  announced : (s.added : Multiset SessionId) = s.events.filterMap established? + (s.listeners.map Listener.announcing).sum
  serves : ∀ v ∈ s.serves, v.Good s.protocols s.listeners

/-! ### Listeners go on -/

section

variable {s s' : Server} {xs ys : List Listener} {l : Label} {x y : Listener} {v w : Serve} {j k : ℕ} {rest : List String}

/-- What later listeners keep of earlier ones. -/
structure Kept (x y : Listener) : Prop where
  protocol : y.protocol = x.protocol
  ended : x.isEnded = true → y.isEnded = true
  cancelled : x.cancelled = true → y.cancelled = true

theorem Kept.refl (x : Listener) : Kept x x := ⟨rfl, id, id⟩

def Grows (xs ys : List Listener) : Prop := ∀ (k : ℕ) (x : Listener), xs[k]? = some x → ∃ y, ys[k]? = some y ∧ Kept x y

theorem Grows.refl (xs : List Listener) : Grows xs xs := fun _ x hx => ⟨x, hx, .refl x⟩

theorem Grows.append (xs : List Listener) (y : Listener) : Grows xs (xs ++ [y]) :=
  fun _ x hx => ⟨x, Indexed.getElem?_concat_of_some hx, .refl x⟩

theorem Grows.set (hx : xs[k]? = some x) (hkept : Kept x y) : Grows xs (xs.set k y) := by
  intro i z hz
  rw [Indexed.getElem?_set_of_some hx]
  by_cases hi : i = k
  · rw [hi, hx] at hz
    cases hz
    exact ⟨y, if_pos hi, hkept⟩
  · exact ⟨z, (if_neg hi).trans hz, .refl z⟩

theorem Listens.grows (h : Grows xs ys) {protocol : String} (hk : Listens xs k protocol) : Listens ys k protocol := by
  obtain ⟨x, hx, hp⟩ := hk
  obtain ⟨y, hy, hkept⟩ := h k x hx
  exact ⟨y, hy, hkept.protocol.trans hp⟩

theorem Ended.grows (h : Grows xs ys) (hk : Ended xs k) : Ended ys k := by
  obtain ⟨x, hx, hended⟩ := hk
  obtain ⟨y, hy, hkept⟩ := h k x hx
  exact ⟨y, hy, hkept.ended hended⟩

theorem Cancelled.grows (h : Grows xs ys) (hk : Cancelled xs k) : Cancelled ys k := by
  obtain ⟨x, hx, hcancelled⟩ := hk
  obtain ⟨y, hy, hkept⟩ := h k x hx
  exact ⟨y, hy, hkept.cancelled hcancelled⟩

theorem Serve.At.grows (h : Grows xs ys) (hv : v.At xs rest) : v.At ys rest := by
  unfold Serve.At at hv ⊢
  split
  · next hpc =>
    rw [hpc] at hv
    exact hv
  · next hpc =>
    rw [hpc] at hv
    obtain ⟨hrest, hne, joined, htasks, hjoined⟩ := hv
    exact ⟨hrest, hne, joined, htasks, fun k hk => (hjoined k hk).grows h⟩
  · next hpc =>
    rw [hpc] at hv
    exact ⟨hv.1, hv.2.1, fun k hk => (hv.2.2 k hk).grows h⟩
  · next hpc =>
    rw [hpc] at hv
    exact hv.imp_right (Or.imp_right fun ⟨he, k, hk, hc⟩ => ⟨he, k, hk, hc.grows h⟩)

theorem Serve.Good.grows {protocols : List String} (h : Grows xs ys) (hv : v.Good protocols xs) : v.Good protocols ys := by
  obtain ⟨done, rest, horder, htasks, hat⟩ := hv.started
  exact ⟨hv.perm, done, rest, horder, htasks.imp fun _ _ hk => hk.grows h, hat.grows h⟩

/-! ### One call of `serve` -/

theorem mem_set_cases {vs : List Serve} (hv : w ∈ vs.set j v) : w ∈ vs ∨ w = v := List.mem_or_eq_of_mem_set hv

/-- A step of call `j`, with the listeners it leaves. -/
theorem Inv.setServe (h : Inv s) (hgrows : Grows s.listeners ys)
    (hadding : (ys.map Listener.adding).sum = (s.listeners.map Listener.adding).sum)
    (hannouncing : (ys.map Listener.announcing).sum = (s.listeners.map Listener.announcing).sum) (hw : w.Good s.protocols ys) :
    Inv ({ s with listeners := ys }.setServe j w) := by
  refine ⟨h.ids, h.nextId, ?_, ?_, fun v hv => ?_⟩
  · show (s.issued : Multiset SessionId) = s.added + (ys.map Listener.adding).sum
    rw [hadding]
    exact h.entered
  · show (s.added : Multiset SessionId) = s.events.filterMap established? + (ys.map Listener.announcing).sum
    rw [hannouncing]
    exact h.announced
  · obtain hv | rfl := mem_set_cases hv
    · exact (h.serves v hv).grows hgrows
    · exact hw

theorem Inv.setServe_self (h : Inv s) (hw : w.Good s.protocols s.listeners) : Inv (s.setServe j w) :=
  h.setServe (Grows.refl s.listeners) rfl rfl hw

theorem Inv.build {result : Except TransportError Unit} (h : Inv s) (hv : s.serves[j]? = some v) (hs : s.build j v result = some s') :
    Inv s' := by
  obtain ⟨hperm, done, rest, horder, htasks, hat⟩ := h.serves v (List.mem_of_getElem? hv)
  unfold Server.build at hs
  split at hs
  · next protocol todo hpc =>
    obtain ⟨rfl, hne⟩ : rest = protocol :: todo ∧ v.order ≠ [] := by
      rw [Serve.At, hpc] at hat
      exact hat
    split at hs
    · cases hs
      have hgrows := Grows.append s.listeners ⟨protocol, .accept, false⟩
      refine h.setServe hgrows ?_ ?_ ⟨hperm, done ++ [protocol], todo, ?_, ?_, rfl, hne⟩
      · rw [List.map_append, List.sum_append]
        exact add_zero (s.listeners.map Listener.adding).sum
      · rw [List.map_append, List.sum_append]
        exact add_zero (s.listeners.map Listener.announcing).sum
      · rw [List.append_assoc, List.singleton_append]
        exact horder
      · refine List.rel_append (htasks.imp fun _ _ hk => hk.grows hgrows) (.cons ⟨_, List.getElem?_concat_length, rfl⟩ .nil)
    · next e =>
      cases hs
      exact h.setServe_self ⟨hperm, done, protocol :: todo, horder, htasks, .inr (.inl (List.cons_ne_nil _ _))⟩
  · cases hs

theorem Inv.wait (h : Inv s) (hv : s.serves[j]? = some v) (hs : s.wait j v = some s') :
    Inv s' := by
  obtain ⟨hperm, done, rest, horder, htasks, hat⟩ := h.serves v (List.mem_of_getElem? hv)
  unfold Server.wait at hs
  split at hs
  · next hpc =>
    cases hs
    rw [Serve.At, hpc] at hat
    exact h.setServe_self ⟨hperm, done, rest, horder, htasks, hat.1, hat.2, [], rfl, fun k hk => absurd hk List.not_mem_nil⟩
  · cases hs
  · next hpc =>
    cases hs
    rw [Serve.At, hpc] at hat
    obtain ⟨hrest, hne, joined, hjoin, hended⟩ := hat
    rw [List.append_nil] at hjoin
    exact h.setServe_self ⟨hperm, done, rest, horder, htasks, hrest, hne, fun k hk => hended k (hjoin ▸ hk)⟩
  · next k tasks hpc =>
    rw [Serve.At, hpc] at hat
    obtain ⟨hrest, hne, joined, hjoin, hended⟩ := hat
    have hmem : k ∈ v.tasks := by
      rw [hjoin]
      exact List.mem_append_right _ List.mem_cons_self
    obtain ⟨x, hx, hs⟩ := Option.bind_eq_some_iff.1 hs
    split at hs
    · next hc =>
      cases hs
      exact h.setServe_self ⟨hperm, done, rest, horder, htasks, .inr (.inr ⟨rfl, k, hmem, x, hx, hc⟩)⟩
    · split at hs
      · next e hended' =>
        cases hs
        refine h.setServe_self ⟨hperm, done, rest, horder, htasks, hrest, hne, joined ++ [k], ?_, fun i hi => ?_⟩
        · rw [List.append_assoc, List.singleton_append]
          exact hjoin
        · obtain hi | hi := List.mem_append.1 hi
          · exact hended i hi
          · rw [List.mem_singleton.1 hi]
            exact ⟨x, hx, by rw [Listener.isEnded, hended']⟩
      · cases hs
  · cases hs

/-! ### One listener -/

/-- A step of listener `k` that takes the ids `i`, enters `a` and announces `e`. -/
theorem Inv.setListener {i a e : List SessionId} (h : Inv s) (hx : s.listeners[k]? = some x) (hkept : Kept x y)
    (hprotocols : s'.protocols = s.protocols) (hserves : s'.serves = s.serves) (hlisteners : s'.listeners = s.listeners.set k y)
    (hissued : s'.issued = s.issued ++ i) (hadded : s'.added = s.added ++ a)
    (hevents : s'.events.filterMap established? = s.events.filterMap established? ++ e)
    (hids : s'.issued = (List.range s'.issued.length).map idAt) (hnextId : s'.nextId = idAt s'.issued.length)
    (hentered : (i : Multiset SessionId) + x.adding = a + y.adding)
    (hannounced : (a : Multiset SessionId) + x.announcing = e + y.announcing) : Inv s' := by
  have hgrows : Grows s.listeners s'.listeners := by
    rw [hlisteners]
    exact .set hx hkept
  refine ⟨hids, hnextId, ?_, ?_, fun v hv => ?_⟩
  · have hsum := Indexed.sum_map_set_add (f := Listener.adding) (y := y) hx
    rw [hlisteners, hissued, hadded, ← Multiset.coe_add, ← Multiset.coe_add, h.entered]
    refine add_right_cancel (b := x.adding) ?_
    rw [add_assoc _ _ x.adding, hentered, add_assoc _ _ x.adding, hsum]
    ac_rfl
  · have hsum := Indexed.sum_map_set_add (f := Listener.announcing) (y := y) hx
    rw [hlisteners, hadded, hevents, ← Multiset.coe_add, ← Multiset.coe_add, h.announced]
    refine add_right_cancel (b := x.announcing) ?_
    rw [add_assoc _ _ x.announcing, hannounced, add_assoc _ _ x.announcing, hsum]
    ac_rfl
  · rw [hserves] at hv
    rw [hprotocols]
    exact (h.serves v hv).grows hgrows

/-- A listener that has not ended keeps what others know of it. -/
theorem kept_of_running (pc : ListenerPc) (hrun : x.isEnded = false) : Kept x { x with pc := pc } := by
  refine ⟨rfl, fun he => ?_, id⟩
  rw [hrun] at he
  cases he

theorem Inv.accept {result : Except TransportError ConnectionInfo} (h : Inv s) (hx : s.listeners[k]? = some x)
    (hs : s.accept k x result = some s') : Inv s' := by
  unfold Server.accept at hs
  split at hs
  · next hpc =>
    have hadding : x.adding = 0 := by rw [Listener.adding, hpc]
    have hannouncing : x.announcing = 0 := by rw [Listener.announcing, hpc]
    have hrun : x.isEnded = false := by rw [Listener.isEnded, hpc]
    split at hs
    · next info =>
      cases hs
      refine h.setListener (i := [s.nextId]) (a := []) (e := []) hx (kept_of_running _ hrun) rfl rfl rfl rfl
        (List.append_nil _).symm (List.append_nil _).symm ?_ ?_ ?_ ?_
      · show s.issued ++ [s.nextId] = (List.range (s.issued ++ [s.nextId]).length).map idAt
        rw [List.length_append, List.length_singleton, List.range_succ, List.map_append, ← h.ids, h.nextId]
        rfl
      · show s.nextId + 1 = idAt (s.issued ++ [s.nextId]).length
        rw [h.nextId, List.length_append, List.length_singleton, idAt_succ]
      · rw [hadding, add_comm]
        rfl
      · rw [hannouncing]
        rfl
    · next e =>
      cases hs
      refine h.setListener (i := []) (a := []) (e := []) hx (kept_of_running _ hrun) rfl rfl rfl (List.append_nil _).symm
        (List.append_nil _).symm (List.append_nil _).symm h.ids h.nextId ?_ ?_
      · rw [hadding]
        rfl
      · rw [hannouncing]
        rfl
  · cases hs

theorem Inv.add (h : Inv s) (hx : s.listeners[k]? = some x) (hs : s.add k x = some s') : Inv s' := by
  unfold Server.add at hs
  split at hs
  · next sessionId info hpc =>
    have hadding : x.adding = {sessionId} := by rw [Listener.adding, hpc]
    have hannouncing : x.announcing = 0 := by rw [Listener.announcing, hpc]
    have hrun : x.isEnded = false := by rw [Listener.isEnded, hpc]
    cases hs
    refine h.setListener (i := []) (a := [sessionId]) (e := []) hx (kept_of_running _ hrun) rfl rfl rfl (List.append_nil _).symm
      rfl (List.append_nil _).symm h.ids h.nextId ?_ ?_
    · rw [hadding, add_comm]
      rfl
    · rw [hannouncing, add_comm]
      rfl
  · cases hs

theorem Inv.announce (h : Inv s) (hx : s.listeners[k]? = some x) (hs : s.announce k x = some s') : Inv s' := by
  unfold Server.announce at hs
  split at hs
  · next sessionId info hpc =>
    have hadding : x.adding = 0 := by rw [Listener.adding, hpc]
    have hannouncing : x.announcing = {sessionId} := by rw [Listener.announcing, hpc]
    have hrun : x.isEnded = false := by rw [Listener.isEnded, hpc]
    cases hs
    refine h.setListener (i := []) (a := []) (e := [sessionId]) hx (kept_of_running _ hrun) rfl rfl rfl (List.append_nil _).symm
      (List.append_nil _).symm List.filterMap_append h.ids h.nextId ?_ ?_
    · rw [hadding]
      rfl
    · rw [hannouncing, add_comm]
      rfl
  · cases hs

theorem Inv.cancel (h : Inv s) (hx : s.listeners[k]? = some x) : Inv (s.setListener k { x with cancelled := true }) :=
  h.setListener (y := { x with cancelled := true }) (i := []) (a := []) (e := []) hx ⟨rfl, id, fun _ => rfl⟩ rfl rfl rfl
    (List.append_nil _).symm
    (List.append_nil _).symm (List.append_nil _).symm h.ids h.nextId rfl rfl

/-! ### Every run -/

theorem inv_start (protocols : List String) : Inv (start protocols) :=
  ⟨rfl, rfl, rfl, rfl, fun _ hv => absurd hv List.not_mem_nil⟩

theorem listen_eq_some {f : Listener → Option Server} :
    s.listen k f = some s' ↔ ∃ x, s.listeners[k]? = some x ∧ x.cancelled = false ∧ f x = some s' := by
  rw [Server.listen, Option.bind_eq_some_iff]
  refine exists_congr fun x => and_congr_right fun _ => ?_
  rcases x.cancelled <;> simp

theorem Inv.serve {order : List String} (hperm : order.Perm s.protocols) (h : Inv s) :
    Inv { s with isRunning := true, serves := s.serves ++
      [⟨order, [], if order = [] then .returned (.error noProtocols) else .build order⟩] } := by
  refine ⟨h.ids, h.nextId, h.entered, h.announced, fun v hv => ?_⟩
  obtain hv | hv := List.mem_append.1 hv
  · exact h.serves v hv
  · rw [List.mem_singleton.1 hv]
    refine ⟨hperm, [], order, rfl, .nil, ?_⟩
    by_cases hnil : order = []
    · rw [Serve.At, if_pos hnil]
      exact .inl ⟨hnil, rfl⟩
    · rw [Serve.At, if_neg hnil]
      exact ⟨rfl, hnil⟩

theorem Inv.step (hs : step s l = some s') (h : Inv s) : Inv s' := by
  cases l with
  | serve order =>
    simp only [Serving.step] at hs
    split at hs
    · next hperm =>
      cases hs
      exact h.serve hperm
    · cases hs
  | build j result =>
    obtain ⟨v, hv, hs⟩ := Option.bind_eq_some_iff.1 hs
    exact h.build hv hs
  | wait j =>
    obtain ⟨v, hv, hs⟩ := Option.bind_eq_some_iff.1 hs
    exact h.wait hv hs
  | accept k result =>
    obtain ⟨x, hx, -, hs⟩ := listen_eq_some.1 hs
    exact h.accept hx hs
  | add k =>
    obtain ⟨x, hx, -, hs⟩ := listen_eq_some.1 hs
    exact h.add hx hs
  | announce k =>
    obtain ⟨x, hx, -, hs⟩ := listen_eq_some.1 hs
    exact h.announce hx hs
  | cancel k =>
    obtain ⟨x, hx, -, hs⟩ := listen_eq_some.1 hs
    cases hs
    exact h.cancel hx
  | stop =>
    cases hs
    exact ⟨h.ids, h.nextId, h.entered, h.announced, h.serves⟩

theorem Inv.law (h : Inv s) : Law s := by
  refine ⟨fun hlen => ?_, h.entered, h.announced, h.serves⟩
  rw [h.ids]
  refine List.Nodup.map_on (fun i hi j hj heq => ?_) List.nodup_range
  rw [List.mem_range] at hi hj
  exact idAt_inj (hi.trans_le hlen) (hj.trans_le hlen) heq

def Label.isStop : Label → Bool
  | .stop => true
  | _ => false

/-- Listener `k` stops at an error of its own `accept` or when it is cancelled. -/
def Label.Ends (k : ℕ) : Label → Prop
  | .accept i (.error _) => i = k
  | .cancel i => i = k
  | _ => False

def Alive (s : Server) (k : ℕ) : Prop := ∃ x, s.listeners[k]? = some x ∧ x.isEnded = false ∧ x.cancelled = false

/-- All but the flag that `serve` sets and `stop` clears. -/
def Server.halted (s : Server) : Server := { s with isRunning := false }

theorem halted_build {result : Except TransportError Unit} :
    (s.build j v result).map Server.halted = (s.halted.build j v result).map Server.halted := by
  unfold Server.build
  split
  · split <;> rfl
  · rfl

theorem halted_wait : (s.wait j v).map Server.halted = (s.halted.wait j v).map Server.halted := by
  unfold Server.wait
  split
  · rfl
  · rfl
  · rfl
  · next k tasks _ =>
    show (s.listeners[k]?.bind _).map _ = (s.listeners[k]?.bind _).map _
    rcases s.listeners[k]? with _ | x
    · rfl
    · rw [Option.bind_some, Option.bind_some]
      split
      · rfl
      · split <;> rfl
  · rfl

theorem halted_listen {f g : Listener → Option Server} (h : ∀ x, (f x).map Server.halted = (g x).map Server.halted) :
    (s.listen k f).map Server.halted = (s.halted.listen k g).map Server.halted := by
  show (s.listeners[k]?.bind _).map _ = (s.listeners[k]?.bind _).map _
  rcases s.listeners[k]? with _ | x
  · rfl
  · rw [Option.bind_some, Option.bind_some]
    split
    · rfl
    · exact h x

/-- No step looks at the flag. -/
theorem halted_step (l : Label) : (step s l).map Server.halted = (step s.halted l).map Server.halted := by
  cases l with
  | serve order =>
    show Option.map _ (if order.Perm s.protocols then _ else _) = Option.map _ (if order.Perm s.protocols then _ else _)
    split <;> rfl
  | build j result =>
    show (s.serves[j]?.bind _).map _ = (s.serves[j]?.bind _).map _
    rcases s.serves[j]? with _ | v
    · rfl
    · exact halted_build
  | wait j =>
    show (s.serves[j]?.bind _).map _ = (s.serves[j]?.bind _).map _
    rcases s.serves[j]? with _ | v
    · rfl
    · exact halted_wait
  | accept k result =>
    refine halted_listen fun x => ?_
    unfold Server.accept
    split
    · split <;> rfl
    · rfl
  | add k =>
    refine halted_listen fun x => ?_
    unfold Server.add
    split <;> rfl
  | announce k =>
    refine halted_listen fun x => ?_
    unfold Server.announce
    split <;> rfl
  | cancel k => exact halted_listen fun x => rfl
  | stop => rfl

theorem halted_run {ls : List Label} {t : Server} (heq : s.halted = t.halted) :
    (StepSystem.run step s ls).map Server.halted = (StepSystem.run step t (ls.filter fun l => !l.isStop)).map Server.halted := by
  induction ls generalizing s t with
  | nil => exact congrArg some heq
  | cons l ls ih =>
    by_cases hstop : l.isStop = true
    · rw [List.filter_cons_of_neg (by simp [hstop]), StepSystem.run_cons]
      cases l with
      | stop => exact ih heq
      | _ => cases hstop
    · rw [List.filter_cons_of_pos (by simp [hstop]), StepSystem.run_cons, StepSystem.run_cons]
      -- both take the step, to states that differ in the flag only
      have hstep : (step s l).map Server.halted = (step t l).map Server.halted := by
        rw [halted_step (s := s), halted_step (s := t), heq]
      rcases hs : step s l with _ | s'
      · rw [hs, Option.map_none, eq_comm, Option.map_eq_none_iff] at hstep
        rw [hstep]
        rfl
      · rw [hs, Option.map_some, eq_comm, Option.map_eq_some_iff] at hstep
        obtain ⟨t', ht, heq'⟩ := hstep
        rw [ht]
        exact ih heq'.symm

theorem alive_set {i : ℕ} (hx : s.listeners[i]? = some x) (hlisteners : s'.listeners = s.listeners.set i y)
    (hy : i = k → y.isEnded = false ∧ y.cancelled = false) (h : Alive s k) : Alive s' k := by
  obtain ⟨z, hz, hrun, hcancelled⟩ := h
  rw [Alive, hlisteners]
  by_cases hi : i = k
  · subst hi
    exact ⟨y, Indexed.getElem?_set_self_of_some hx, hy rfl⟩
  · refine ⟨z, ?_, hrun, hcancelled⟩
    rw [Indexed.getElem?_set_of_some hx, if_neg (Ne.symm hi)]
    exact hz

theorem alive_step (hs : step s l = some s') (hl : ¬ l.Ends k) (h : Alive s k) : Alive s' k := by
  cases l with
  | serve order =>
    simp only [step] at hs
    split at hs <;> cases hs
    exact h
  | build j result =>
    obtain ⟨v, -, hs⟩ := Option.bind_eq_some_iff.1 hs
    unfold Server.build at hs
    split at hs
    · split at hs <;> cases hs
      · obtain ⟨z, hz, hrun⟩ := h
        exact ⟨z, Indexed.getElem?_concat_of_some hz, hrun⟩
      · exact h
    · cases hs
  | wait j =>
    obtain ⟨v, -, hs⟩ := Option.bind_eq_some_iff.1 hs
    unfold Server.wait at hs
    split at hs
    · cases hs
      exact h
    · cases hs
    · cases hs
      exact h
    · obtain ⟨x, -, hs⟩ := Option.bind_eq_some_iff.1 hs
      split at hs
      · cases hs
        exact h
      · split at hs <;> cases hs
        exact h
    · cases hs
  | accept i result =>
    obtain ⟨x, hx, hc, hs⟩ := listen_eq_some.1 hs
    unfold Server.accept at hs
    split at hs
    · split at hs <;> cases hs
      · exact alive_set hx rfl (fun _ => ⟨rfl, hc⟩) h
      · exact alive_set hx rfl (fun hi => absurd hi hl) h
    · cases hs
  | add i =>
    obtain ⟨x, hx, hc, hs⟩ := listen_eq_some.1 hs
    unfold Server.add at hs
    split at hs <;> cases hs
    exact alive_set hx rfl (fun _ => ⟨rfl, hc⟩) h
  | announce i =>
    obtain ⟨x, hx, hc, hs⟩ := listen_eq_some.1 hs
    unfold Server.announce at hs
    split at hs <;> cases hs
    exact alive_set hx rfl (fun _ => ⟨rfl, hc⟩) h
  | cancel i =>
    obtain ⟨x, hx, -, hs⟩ := listen_eq_some.1 hs
    cases hs
    exact alive_set hx rfl (fun hi => absurd hi hl) h
  | stop =>
    cases hs
    exact h

theorem meets_of_forall {ls : List Label} (hls : ∀ l ∈ ls, ¬ l.Ends k) : StepSystem.Meets step (fun _ l => ¬ l.Ends k) s ls := by
  induction ls generalizing s with
  | nil => trivial
  | cons l ls ih => exact ⟨hls l List.mem_cons_self, fun t _ => ih fun m hm => hls m (List.mem_cons_of_mem _ hm)⟩

/-- `stop` changes nothing but the flag: with the stops left out the same steps lead to the same server. And a listener goes on
until its own `accept` fails, whatever happens to `serve` and to the other listeners. -/
theorem goes_on {ls : List Label} (hr : StepSystem.run step s ls = some s') :
    (StepSystem.run step s (ls.filter fun l => !l.isStop)).map Server.halted = some s'.halted ∧
      ∀ k, Alive s k → (∀ l ∈ ls, ¬ l.Ends k) → Alive s' k := by
  refine ⟨?_, fun k hk hls => ?_⟩
  · rw [← halted_run rfl, hr]
    rfl
  · have hmeets := meets_of_forall (s := s) hls
    exact StepSystem.run_invariant_of_meets (I := fun t => Alive t k) (fun _ _ _ hs hl h => alive_step hs hl h) hr hmeets hk

/-- One listener fails, `serve` returns, the server is stopped: the other listener is there as before. -/
theorem goes_on_stopped :
    let s := start ["tcp", "quic"]
    let ls : List Label := [.serve ["tcp", "quic"], .build 0 (.ok ()), .build 0 (.ok ())]
    let ms : List Label := [.wait 0, .accept 0 (.error (.connection "accept" true)), .wait 0, .cancel 0, .stop]
    ∃ t u, StepSystem.run step s ls = some t ∧ StepSystem.run step t ms = some u ∧ Alive t 1 ∧
      (StepSystem.run step t (ms.filter fun l => !l.isStop)).map Server.halted = some u.halted ∧ Alive u 1 := by
  intro s ls ms
  obtain ⟨t, ht, hlisteners⟩ : ∃ t, StepSystem.run step s ls = some t ∧ t.listeners[1]? = some ⟨"quic", .accept, false⟩ :=
    ⟨_, rfl, rfl⟩
  have hrun : ((StepSystem.run step s ls).bind fun t => StepSystem.run step t ms).isSome := by decide
  rw [ht, Option.bind_some] at hrun
  obtain ⟨u, hu⟩ := Option.isSome_iff_exists.1 hrun
  have halive : Alive t 1 := ⟨_, hlisteners, rfl, rfl⟩
  refine ⟨t, u, ht, hu, halive, (goes_on hu).1, (goes_on hu).2 1 halive fun l hl => ?_⟩
  simp only [ms, List.mem_cons, List.not_mem_nil, or_false] at hl
  rcases hl with rfl | rfl | rfl | rfl | rfl <;> simp [Label.Ends]

end

end Serving

end Msgtrans
