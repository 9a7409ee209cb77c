import Msgtrans.Lib.Run
import Msgtrans.Delivery
import Msgtrans.RequestTracker

/-!
# Requests in both directions over one connection

A `TransportClient` and the `Transport` a server holds for its session both issue requests and answer
those of the other. Packets on the connection arrive in any order; what `on_event` publishes waits until
the forwarding task of its side makes a context of it; the application responds to its contexts in any
order, or never. Message ids are whatever the calls draw. As long as no side draws one id twice, a call
returns the bytes its peer's application responded to its own request: `answers_matched`.

Every packet is followed by its `origin`: of a request the call that sent it, of a response the context
that was responded to.
-/

namespace Msgtrans

namespace Exchange

inductive Side where
  | client
  | server
deriving DecidableEq, Repr

def Side.peer : Side → Side
  | .client => .server
  | .server => .client

/-- A call, or a context, of a side. -/
structure Origin where
  side : Side
  index : Nat
deriving DecidableEq, Repr

structure Message where
  packet : Packet
  origin : Origin

/-- A context the application was given, with the call that asks and the bytes responded to it. -/
structure Received where
  context : TransportContext
  origin : Origin
  answer : Option Bytes

/-- The calls of a side carry the data they were given. -/
structure Endpoint where
  table : Requests.Table Bytes Message
  /-- the calls whose request is on the connection -/
  transmitted : List Nat
  inbox : List Message
  events : List (TransportEvent × Origin)
  contexts : List Received

abbrev State := Side → Endpoint

def start : State := fun _ => ⟨⟨.new, []⟩, [], [], [], []⟩

def State.set (s : State) (side : Side) (e : Endpoint) : State := fun side' => if side' = side then e else s side'

def State.post (s : State) (side : Side) (m : Message) : State :=
  s.set side { s side with inbox := (s side).inbox ++ [m] }

inductive Label where
  | request (side : Side) (data : Bytes) (messageId : UInt32)
  | register (side : Side) (i : Nat)
  /-- the adapter takes the request of call `i`; `send` returns later -/
  | transmit (side : Side) (i : Nat)
  | sent (side : Side) (i : Nat) (ok : Bool)
  | finish (side : Side) (i : Nat)
  | timeout (side : Side) (i : Nat)
  /-- a packet arrives at `side` and goes through `on_event` -/
  | deliver (side : Side) (n : Nat)
  /-- the forwarding task of `side` takes an event -/
  | forward (side : Side) (n : Nat)
  /-- the application of `side` responds to a context -/
  | respond (side : Side) (k : Nat) (response : Bytes)

/-- The session of the connection, and the ids in the server's own tracker. -/
structure Env where
  lib : CompressionLib
  sessionId : SessionId
  pending : UInt32 → Bool

variable (env : Env)

def contextsOf (side : Side) (event : TransportEvent) : List TransportContext :=
  match side with
  | .client => ((TransportClient.forward event).bind ClientEvent.context?).toList
  | .server =>
    (TransportServer.handleTransportEvent env.pending env.sessionId event).published.filterMap ServerEvent.context?

def Endpoint.deliver (e : Endpoint) (m : Message) : Endpoint :=
  let reaction := Transport.onEvent env.lib (.messageReceived m.packet)
  { e with
    table := reaction.completed.elim e.table fun packet => e.table.complete packet.header.messageId ⟨packet, m.origin⟩
    events := e.events ++ reaction.published.map fun event => (event, m.origin) }

def Endpoint.forward (side : Side) (e : Endpoint) (event : TransportEvent) (origin : Origin) : Endpoint :=
  { e with contexts := e.contexts ++ (contextsOf env side event).map fun context => ⟨context, origin, none⟩ }

def requestMessage (side : Side) (i : Nat) (c : Requests.Call Bytes Message) : Message :=
  ⟨.request c.id c.tag, ⟨side, i⟩⟩

def step (s : State) : Label → Option State
  | .request side data messageId => some (s.set side { s side with table := (s side).table.draw data messageId })
  | .register side i => ((s side).table.register i).map fun table => s.set side { s side with table := table }
  | .transmit side i => (s side).table.calls[i]?.bind fun c =>
    match c.phase with
    | .registered =>
      if i ∈ (s side).transmitted then none else
      some ((s.set side { s side with transmitted := i :: (s side).transmitted }).post side.peer (requestMessage side i c))
    | _ => none
  | .sent side i ok =>
    if ok ∧ i ∉ (s side).transmitted then none else
    ((s side).table.sent i ok).map fun table => s.set side { s side with table := table }
  | .finish side i => ((s side).table.finish i).map fun table => s.set side { s side with table := table }
  | .timeout side i => ((s side).table.timeout i).map fun table => s.set side { s side with table := table }
  | .deliver side n => (s side).inbox[n]?.map fun m =>
    s.set side (Endpoint.deliver env { s side with inbox := (s side).inbox.eraseIdx n } m)
  | .forward side n => (s side).events[n]?.map fun (event, origin) =>
    s.set side (Endpoint.forward env side { s side with events := (s side).events.eraseIdx n } event origin)
  | .respond side k response => (s side).contexts[k]?.map fun x =>
    match x.context.respond response with
    | (some packet, context) =>
      let x : Received := { x with context := context, answer := some response }
      (s.set side { s side with contexts := (s side).contexts.set k x }).post side.peer ⟨packet, ⟨side, k⟩⟩
    | (none, _) => s

def Endpoint.ids (e : Endpoint) : List UInt32 := e.table.headers.map Prod.snd

/-- Call `i` of `side` has returned the response `r`: its payload, as `TransportResult::new_completed`. -/
def Returned (s : State) (side : Side) (i : Nat) (r : Message) : Prop :=
  ∃ c, (s side).table.calls[i]? = some c ∧ c.phase = .returned (.data r)

def TimedOut (s : State) (side : Side) (i : Nat) : Prop :=
  ∃ c, (s side).table.calls[i]? = some c ∧ c.phase = .returned .timeout

/-- The context at `holder` is one for the request of call `asker`. -/
def IsFor (s : State) (holder asker : Origin) : Prop :=
  ∃ x, (s holder.side).contexts[holder.index]? = some x ∧ x.origin = asker

/-- Every answer goes to the one call that asked, and is what the application of the peer responded. -/
structure Matched (s : State) : Prop where
  /-- the peer's application was given the data of this very call, and responded what the call returned -/
  answered : ∀ side i r, Returned s side i r → r.origin.side = side.peer ∧
    ∃ x c, (s r.origin.side).contexts[r.origin.index]? = some x ∧ x.origin = ⟨side, i⟩ ∧
      (s side).table.calls[i]? = some c ∧ x.context.data = c.tag ∧ x.answer = some r.packet.payload
  once : ∀ side side' i j r r', Returned s side i r → Returned s side' j r' → r.origin = r'.origin →
    side = side' ∧ i = j
  /-- an answer to a request of one side completes no request of the other -/
  ownSide : ∀ side i r asker, Returned s side i r → IsFor s r.origin asker → asker.side = side
  late : ∀ side i holder, TimedOut s side i → IsFor s holder ⟨side, i⟩ →
    ∀ side' j r, Returned s side' j r → r.origin ≠ holder

/-! ### What only grows -/

/-- Calls keep their headers, contexts their requests and answers. -/
structure Grows (e e' : Endpoint) : Prop where
  headers : e.table.headers <+: e'.table.headers
  contexts : ∀ (k : Nat) x, e.contexts[k]? = some x → ∃ x', e'.contexts[k]? = some x' ∧ x'.origin = x.origin ∧
    x'.context.data = x.context.data ∧ ∀ response, x.answer = some response → x'.answer = some response

variable {env} {s s' : State} {l : Label} {side : Side} {e : Endpoint} {m : Message} {i : Nat}

theorem Grows.refl (e : Endpoint) : Grows e e :=
  ⟨List.prefix_refl _, fun _ x h => ⟨x, h, rfl, rfl, fun _ h => h⟩⟩

theorem Grows.of_frame {table : Requests.Table Bytes Message} (h : (s side).table.Frame table) :
    Grows (s side) { s side with table := table } :=
  ⟨by rw [h.headers], (Grows.refl _).contexts⟩

theorem Grows.draw (s : State) (side : Side) (data : Bytes) (id : UInt32) :
    Grows (s side) { s side with table := (s side).table.draw data id } :=
  ⟨⟨_, (Requests.Table.headers_draw ..).symm⟩, (Grows.refl _).contexts⟩

theorem Grows.header {e' : Endpoint} {h : Bytes × UInt32} (hg : Grows e e') (hi : e.table.headers[i]? = some h) :
    e'.table.headers[i]? = some h := by
  obtain ⟨rest, hrest⟩ := hg.headers
  rw [← hrest, List.getElem?_append_left (List.getElem?_eq_some_iff.1 hi).1]
  exact hi

theorem set_self (s : State) (side : Side) (e : Endpoint) : s.set side e side = e := if_pos rfl

theorem set_of_ne {side' : Side} (h : side' ≠ side) : s.set side e side' = s side' := if_neg h

theorem Grows.set (h : Grows (s side) e) (side' : Side) : Grows (s side') (s.set side e side') := by
  by_cases hs : side' = side
  · subst hs
    rw [set_self]
    exact h
  · rw [set_of_ne hs]
    exact .refl _

/-! ### The invariant -/

/-- A request on its way to `side`: what its call was given, under its id. -/
def Asks (s : State) (side : Side) (m : Message) : Prop :=
  m.origin.side = side.peer ∧ ∃ data id, (s side.peer).table.headers[m.origin.index]? = some (data, id) ∧
    m.packet = .request id data

/-- A response to call `i` of `side`: what was responded to the context its request became. -/
def Answers (s : State) (side : Side) (i : Nat) (m : Message) : Prop :=
  m.origin.side = side.peer ∧ ∃ x data id, (s side.peer).contexts[m.origin.index]? = some x ∧
    x.origin = ⟨side, i⟩ ∧ (s side).table.headers[i]? = some (data, id) ∧ x.context.data = data ∧
    x.answer = some m.packet.payload ∧ m.packet = responsePacket id m.packet.payload

/-- A context of `side`: its responder builds a response under the id of the call that asks. -/
def Held (s : State) (side : Side) (x : Received) : Prop :=
  x.origin.side = side.peer ∧ ∃ data id responded isPrimary,
    (s side.peer).table.headers[x.origin.index]? = some (data, id) ∧ x.context.data = data ∧
    x.context.kind = .request (responsePacket id) responded isPrimary ∧ (responded = false → x.answer = none)

section Grows

variable (hg : ∀ side, Grows (s side) (s' side))
include hg

theorem Asks.grows (h : Asks s side m) : Asks s' side m := by
  obtain ⟨hside, data, id, hi, hp⟩ := h
  exact ⟨hside, data, id, (hg _).header hi, hp⟩

theorem Answers.grows (h : Answers s side i m) : Answers s' side i m := by
  obtain ⟨hside, x, data, id, hx, horigin, hi, hdata, hanswer, hp⟩ := h
  obtain ⟨x', hx', horigin', hdata', hanswer'⟩ := (hg _).contexts _ _ hx
  exact ⟨hside, x', data, id, hx', horigin'.trans horigin, (hg _).header hi, hdata'.trans hdata,
    hanswer' _ hanswer, hp⟩

theorem Held.grows {x : Received} (h : Held s side x) : Held s' side x := by
  obtain ⟨hside, data, id, responded, isPrimary, hi, hrest⟩ := h
  exact ⟨hside, data, id, responded, isPrimary, (hg _).header hi, hrest⟩

end Grows

/-- What an endpoint holds belongs to calls and contexts of `s`. -/
structure Consistent (s : State) (side : Side) (e : Endpoint) : Prop where
  sound : Requests.Sound (Answers s side) e.table
  inbox : ∀ m ∈ e.inbox, Asks s side m ∨ ∃ i, Answers s side i m
  events : ∀ event origin, (event, origin) ∈ e.events →
    ∃ packet, event = .messageReceived packet ∧ Asks s side ⟨packet, origin⟩
  contexts : ∀ x ∈ e.contexts, Held s side x

def Inv (s : State) : Prop := ∀ side, Consistent s side (s side)

theorem Consistent.grows (h : Consistent s side e) (hg : ∀ side, Grows (s side) (s' side)) :
    Consistent s' side e where
  sound := h.sound.mono fun _ _ => .grows hg
  inbox m hm := (h.inbox m hm).imp (.grows hg) fun ⟨i, hi⟩ => ⟨i, hi.grows hg⟩
  events event origin he :=
    have ⟨packet, heq, hasks⟩ := h.events event origin he
    ⟨packet, heq, hasks.grows hg⟩
  contexts x hx := (h.contexts x hx).grows hg

namespace Inv

theorem start : Inv start := fun _ => ⟨.start, by simp [Exchange.start], by simp [Exchange.start], by simp [Exchange.start]⟩

theorem set (h : Inv s) (hg : Grows (s side) e)
    (he : (∀ side', Grows (s side') (s.set side e side')) → Consistent (s.set side e) side e) :
    Inv (s.set side e) := by
  intro side'
  by_cases hs : side' = side
  · subst hs
    rw [set_self]
    exact he hg.set
  · rw [set_of_ne hs]
    exact (h side').grows hg.set

theorem setTable (h : Inv s) {table : Requests.Table Bytes Message} (hg : Grows (s side) { s side with table := table })
    (ht : Requests.Sound (Answers s side) table) : Inv (s.set side { s side with table := table }) :=
  h.set hg fun hg' =>
    have hc := (h side).grows hg'
    ⟨ht.mono fun _ _ => .grows hg', hc.inbox, hc.events, hc.contexts⟩

theorem post (h : Inv s) (hm : Asks s side m ∨ ∃ i, Answers s side i m) : Inv (s.post side m) := by
  refine h.set ⟨(Grows.refl _).headers, (Grows.refl _).contexts⟩ fun hg => ?_
  have hc := (h side).grows hg
  refine ⟨hc.sound, fun m' hm' => ?_, hc.events, hc.contexts⟩
  rcases List.mem_append.1 hm' with hm' | hm'
  · exact hc.inbox m' hm'
  · rw [List.mem_singleton.1 hm']
    exact hm.imp (.grows hg) fun ⟨i, hi⟩ => ⟨i, hi.grows hg⟩

end Inv

/-! ### The steps -/

theorem Side.peer_peer (side : Side) : side.peer.peer = side := by cases side <;> rfl

theorem eq_of_id_eq (hdistinct : e.ids.Nodup) {j : Nat} {h k : Bytes × UInt32} (hi : e.table.headers[i]? = some h)
    (hj : e.table.headers[j]? = some k) (hid : h.2 = k.2) : i = j := by
  have hlt : i < e.ids.length := by
    rw [Endpoint.ids, List.length_map]
    exact (List.getElem?_eq_some_iff.1 hi).1
  refine (List.getElem?_inj hlt hdistinct).1 ?_
  rw [Endpoint.ids, List.getElem?_map, List.getElem?_map, hi, hj, Option.map_some, Option.map_some, hid]

theorem contextsOf_request (env : Env) (side : Side) (id : UInt32) (data : Bytes) : ∃ context isPrimary,
    contextsOf env side (.messageReceived (.request id data)) = [context] ∧ context.data = data ∧
      context.kind = .request (responsePacket id) false isPrimary := by
  cases side <;> exact ⟨_, _, rfl, rfl, rfl⟩

theorem prefix_set (h : (s side).table.headers <+: e.table.headers) (side' : Side) :
    (s side').table.headers <+: (s.set side e side').table.headers := by
  by_cases hs : side' = side
  · subst hs
    rw [set_self]
    exact h
  · rw [set_of_ne hs]

theorem headers_deliver (e : Endpoint) (m : Message) : (Endpoint.deliver env e m).table.headers = e.table.headers := by
  show Requests.Table.headers (Option.elim (Transport.onEvent env.lib (.messageReceived m.packet)).completed _ _) = _
  cases (Transport.onEvent env.lib (.messageReceived m.packet)).completed with
  | none => rfl
  | some packet => exact (Requests.Table.frame_complete ..).headers

theorem step_transmit (hs : step env s (.transmit side i) = some s') : ∃ c, (s side).table.calls[i]? = some c ∧
    i ∉ (s side).transmitted ∧
    s' = (s.set side { s side with transmitted := i :: (s side).transmitted }).post side.peer (requestMessage side i c) := by
  obtain ⟨c, hc, hs⟩ := Option.bind_eq_some_iff.1 hs
  split at hs
  · split at hs
    · cases hs
    · next hnew =>
      cases hs
      exact ⟨c, hc, hnew, rfl⟩
  · cases hs

theorem step_sent {ok : Bool} (hs : step env s (.sent side i ok) = some s') :
    ∃ table, (s side).table.sent i ok = some table ∧ s' = s.set side { s side with table := table } := by
  simp only [step] at hs
  split at hs
  · cases hs
  · obtain ⟨t, ht, rfl⟩ := Option.map_eq_some_iff.1 hs
    exact ⟨t, ht, rfl⟩

theorem headers_grow (hs : step env s l = some s') (side : Side) :
    (s side).table.headers <+: (s' side).table.headers := by
  have hpost : ∀ (s : State) (dst : Side) (m : Message), (s side).table.headers <+: (s.post dst m side).table.headers :=
    fun s dst m => prefix_set (e := { s dst with inbox := (s dst).inbox ++ [m] }) (List.prefix_refl _) side
  cases l with
  | request dst data messageId =>
    cases hs
    exact prefix_set (Grows.draw s dst data messageId).headers side
  | register dst i =>
    obtain ⟨t, ht, rfl⟩ := Option.map_eq_some_iff.1 hs
    exact prefix_set (Grows.of_frame (Requests.Table.frame_register ht)).headers side
  | transmit dst i =>
    obtain ⟨c, hc, -, rfl⟩ := step_transmit hs
    refine List.IsPrefix.trans ?_ (hpost ..)
    refine prefix_set ?_ side
    exact List.prefix_refl _
  | sent dst i ok =>
    obtain ⟨t, ht, rfl⟩ := step_sent hs
    exact prefix_set (Grows.of_frame (Requests.Table.frame_sent ht)).headers side
  | finish dst i =>
    obtain ⟨t, ht, rfl⟩ := Option.map_eq_some_iff.1 hs
    exact prefix_set (Grows.of_frame (Requests.Table.frame_finish ht)).headers side
  | timeout dst i =>
    obtain ⟨t, ht, rfl⟩ := Option.map_eq_some_iff.1 hs
    exact prefix_set (Grows.of_frame (Requests.Table.frame_timeout ht)).headers side
  | deliver dst n =>
    obtain ⟨m, hm, rfl⟩ := Option.map_eq_some_iff.1 hs
    exact prefix_set (by rw [headers_deliver]) side
  | forward dst n =>
    obtain ⟨⟨event, origin⟩, he, rfl⟩ := Option.map_eq_some_iff.1 hs
    refine prefix_set ?_ side
    exact List.prefix_refl _
  | respond dst k response =>
    obtain ⟨x, hx, rfl⟩ := Option.map_eq_some_iff.1 hs
    split
    · refine List.IsPrefix.trans ?_ (hpost ..)
      refine prefix_set ?_ side
      exact List.prefix_refl _
    · exact List.prefix_refl _

namespace Inv

theorem register (h : Inv s) (hdistinct : (s side).ids.Nodup) {t : Requests.Table Bytes Message}
    (ht : (s side).table.register i = some t) : Inv (s.set side { s side with table := t }) :=
  h.setTable (.of_frame (Requests.Table.frame_register ht)) ((h side).sound.register ht fun _ _ _ hc hd _ hid =>
    eq_of_id_eq hdistinct (Requests.Table.headers_of_some hd) (Requests.Table.headers_of_some hc) hid)

theorem transmit (h : Inv s) {c : Requests.Call Bytes Message} (hc : (s side).table.calls[i]? = some c)
    (transmitted : List Nat) :
    Inv ((s.set side { s side with transmitted := transmitted }).post side.peer (requestMessage side i c)) := by
  have hset : Inv (s.set side { s side with transmitted := transmitted }) :=
    h.set ⟨List.prefix_refl _, (Grows.refl _).contexts⟩ fun hg =>
      have hc := (h side).grows hg
      ⟨hc.sound, hc.inbox, hc.events, hc.contexts⟩
  refine hset.post (.inl ⟨side.peer_peer.symm, c.tag, c.id, ?_, rfl⟩)
  rw [Side.peer_peer, set_self]
  exact Requests.Table.headers_of_some hc

theorem deliver (h : Inv s) (hdistinct : (s side).ids.Nodup) {n : Nat} (hm : (s side).inbox[n]? = some m) :
    Inv (s.set side (Endpoint.deliver env { s side with inbox := (s side).inbox.eraseIdx n } m)) := by
  have hgrows : Grows (s side) (Endpoint.deliver env { s side with inbox := (s side).inbox.eraseIdx n } m) :=
    ⟨by rw [headers_deliver], (Grows.refl _).contexts⟩
  obtain ⟨packet, origin⟩ := m
  refine h.set hgrows fun hg => ?_
  have hc := (h side).grows hg
  have hinbox : ∀ m ∈ (s side).inbox.eraseIdx n, _ := fun m hm => hc.inbox m (List.mem_of_mem_eraseIdx hm)
  rcases (h side).inbox _ (List.mem_of_getElem? hm) with hasks | ⟨i, hanswers⟩
  · -- a request is published
    obtain ⟨-, data, id, -, rfl⟩ := id hasks
    refine ⟨hc.sound, hinbox, fun event origin' he => ?_, hc.contexts⟩
    rcases List.mem_append.1 he with he | he
    · exact hc.events event origin' he
    · cases List.mem_singleton.1 he
      exact ⟨_, rfl, hasks.grows hg⟩
  · -- a response goes to the one call with its id, which is the call that asked
    obtain ⟨-, x, data, id, -, -, hi, -, -, hp⟩ := id hanswers
    have hp : packet = responsePacket id packet.payload := hp
    have hsound : Requests.Sound (Answers s side) ((s side).table.complete id ⟨packet, origin⟩) := by
      refine (h side).sound.complete fun d e hd _ hid => ?_
      obtain rfl := eq_of_id_eq hdistinct (Requests.Table.headers_of_some hd) hi hid
      exact hanswers
    generalize packet.payload = payload at hp
    subst hp
    exact ⟨hsound.mono fun _ _ => .grows hg, hinbox, fun event origin' he => hc.events event origin'
      ((List.mem_append.1 he).resolve_right (List.not_mem_nil)), hc.contexts⟩

theorem forward (h : Inv s) {n : Nat} {event : TransportEvent} {origin : Origin}
    (he : (s side).events[n]? = some (event, origin)) :
    Inv (s.set side (Endpoint.forward env side { s side with events := (s side).events.eraseIdx n } event origin)) := by
  obtain ⟨packet, rfl, hasks⟩ := (h side).events _ _ (List.mem_of_getElem? he)
  obtain ⟨hside, data, id, hi, hp⟩ := id hasks
  have hp : packet = .request id data := hp
  subst hp
  obtain ⟨context, isPrimary, hcontexts, hdata, hkind⟩ := contextsOf_request env side id data
  unfold Endpoint.forward
  rw [hcontexts]
  refine h.set ⟨List.prefix_refl _, fun k x hx => ⟨x, ?_, rfl, rfl, fun _ h => h⟩⟩ fun hg => ?_
  · exact (List.getElem?_append_left (List.getElem?_eq_some_iff.1 hx).1).trans hx
  · have hc := (h side).grows hg
    refine ⟨hc.sound, hc.inbox, fun event origin' he => hc.events event origin' (List.mem_of_mem_eraseIdx he),
      fun x hx => ?_⟩
    rcases List.mem_append.1 hx with hx | hx
    · exact hc.contexts x hx
    · cases List.mem_singleton.1 hx
      exact ⟨hside, data, id, false, isPrimary, (hg _).header hi, hdata, hkind, fun _ => rfl⟩

/-- The first response to a context: it goes out under the id of the call that asks. -/
theorem answer (h : Inv s) {k : Nat} {x x' : Received} (hx : (s side).contexts[k]? = some x) (hnew : x.answer = none)
    {data response : Bytes} {id : UInt32} {isPrimary : Bool} (hside : x.origin.side = side.peer)
    (hi : (s side.peer).table.headers[x.origin.index]? = some (data, id)) (horigin : x'.origin = x.origin)
    (hdata : x.context.data = data) (hdata' : x'.context.data = data)
    (hkind : x'.context.kind = .request (responsePacket id) true isPrimary) (hanswer : x'.answer = some response) :
    Inv ((s.set side { s side with contexts := (s side).contexts.set k x' }).post side.peer
      ⟨responsePacket id response, ⟨side, k⟩⟩) := by
  have hlt := (List.getElem?_eq_some_iff.1 hx).1
  have hgrows : Grows (s side) { s side with contexts := (s side).contexts.set k x' } := by
    refine ⟨List.prefix_refl _, fun j y hy => ?_⟩
    by_cases hj : k = j
    · subst hj
      cases hx.symm.trans hy
      refine ⟨x', List.getElem?_set_self hlt, horigin, hdata'.trans hdata.symm, fun response' hr => ?_⟩
      rw [hnew] at hr
      cases hr
    · exact ⟨y, (List.getElem?_set_ne hj).trans hy, rfl, rfl, fun _ h => h⟩
  have hset : Inv (s.set side { s side with contexts := (s side).contexts.set k x' }) := by
    refine h.set hgrows fun hg => ?_
    have hc := (h side).grows hg
    refine ⟨hc.sound, hc.inbox, hc.events, fun y hy => ?_⟩
    rcases List.mem_or_eq_of_mem_set hy with hy | rfl
    · exact hc.contexts y hy
    · refine ⟨by rw [horigin, hside], data, id, true, isPrimary, ?_, hdata', hkind, by simp⟩
      rw [horigin]
      exact (hg _).header hi
  refine hset.post (.inr ⟨x.origin.index, side.peer_peer.symm, x', data, id, ?_, ?_, (hgrows.set _).header hi, hdata',
    hanswer, rfl⟩)
  · rw [Side.peer_peer, set_self]
    exact List.getElem?_set_self hlt
  · rw [horigin, ← hside]

theorem respond (h : Inv s) {k : Nat} {x : Received} (hx : (s side).contexts[k]? = some x) {response : Bytes}
    {packet : Packet} {context : TransportContext} (hrespond : x.context.respond response = (some packet, context)) :
    Inv ((s.set side { s side with
      contexts := (s side).contexts.set k { x with context := context, answer := some response } }).post side.peer
        ⟨packet, ⟨side, k⟩⟩) := by
  obtain ⟨hside, data, id, responded, isPrimary, hi, hdata, hkind, hanswer⟩ := (h side).contexts x (List.mem_of_getElem? hx)
  rw [TransportContext.respond, hkind] at hrespond
  cases responded with
  | false =>
    cases hrespond
    exact h.answer hx (hanswer rfl) hside hi rfl hdata hdata rfl rfl
  | true => cases hrespond

theorem step (h : Inv s) (hdistinct : ∀ side, (s side).ids.Nodup) (hs : step env s l = some s') : Inv s' := by
  cases l with
  | request side data messageId =>
    cases hs
    exact h.setTable (.draw ..) ((h side).sound.draw ..)
  | register side i =>
    obtain ⟨t, ht, rfl⟩ := Option.map_eq_some_iff.1 hs
    exact h.register (hdistinct side) ht
  | transmit side i =>
    obtain ⟨c, hc, -, rfl⟩ := step_transmit hs
    exact h.transmit hc _
  | sent side i ok =>
    obtain ⟨t, ht, rfl⟩ := step_sent hs
    exact h.setTable (.of_frame (Requests.Table.frame_sent ht)) ((h side).sound.sent ht)
  | finish side i =>
    obtain ⟨t, ht, rfl⟩ := Option.map_eq_some_iff.1 hs
    exact h.setTable (.of_frame (Requests.Table.frame_finish ht)) ((h side).sound.finish ht)
  | timeout side i =>
    obtain ⟨t, ht, rfl⟩ := Option.map_eq_some_iff.1 hs
    exact h.setTable (.of_frame (Requests.Table.frame_timeout ht)) ((h side).sound.timeout ht)
  | deliver side n =>
    obtain ⟨m, hm, rfl⟩ := Option.map_eq_some_iff.1 hs
    exact h.deliver (hdistinct side) hm
  | forward side n =>
    obtain ⟨⟨event, origin⟩, he, rfl⟩ := Option.map_eq_some_iff.1 hs
    exact h.forward he
  | respond side k response =>
    obtain ⟨x, hx, rfl⟩ := Option.map_eq_some_iff.1 hs
    split
    · next packet context hrespond => exact h.respond hx hrespond
    · exact h

theorem answers (h : Inv s) {r : Message} (hr : Returned s side i r) : Answers s side i r := by
  obtain ⟨c, hc, hphase⟩ := hr
  have hok := (h side).sound.ok i c hc
  exact hok.fits r (hok.returned r hphase)

/-- The context a returned response comes from is for the call that returned it. -/
theorem asker_eq (h : Inv s) {r : Message} {asker : Origin} (hr : Returned s side i r) (hfor : IsFor s r.origin asker) :
    asker = ⟨side, i⟩ := by
  obtain ⟨hside, x, -, -, hx, horigin, -⟩ := h.answers hr
  obtain ⟨y, hy, rfl⟩ := hfor
  rw [hside, hx] at hy
  cases hy
  exact horigin

theorem isFor (h : Inv s) {r : Message} (hr : Returned s side i r) : IsFor s r.origin ⟨side, i⟩ := by
  obtain ⟨hside, x, -, -, hx, horigin, -⟩ := h.answers hr
  exact ⟨x, by rw [hside]; exact hx, horigin⟩

theorem matched (h : Inv s) : Matched s where
  answered side i r hr := by
    obtain ⟨hside, x, data, id, hx, horigin, hi, hdata, hanswer, -⟩ := h.answers hr
    obtain ⟨c, hc, -⟩ := hr
    rw [Requests.Table.headers_of_some hc] at hi
    cases hi
    exact ⟨hside, x, c, by rw [hside]; exact hx, horigin, hc, hdata, hanswer⟩
  once side side' i j r r' hr hr' horigin := by
    have hfor := h.isFor hr
    rw [horigin] at hfor
    cases h.asker_eq hr' hfor
    exact ⟨rfl, rfl⟩
  ownSide side i r asker hr hfor := by rw [h.asker_eq hr hfor]
  late side i holder htimedOut hfor side' j r hr horigin := by
    rw [← horigin] at hfor
    cases h.asker_eq hr hfor
    obtain ⟨c, hc, hphase⟩ := hr
    obtain ⟨d, hd, hphase'⟩ := htimedOut
    rw [hc] at hd
    cases hd
    rw [hphase] at hphase'
    cases hphase'

end Inv

/-- In every run in which no side draws an id twice, every answer goes to the call that asked, and only
to it: whatever the interleaving of calls, deliveries, responses and timeouts of both sides. -/
theorem answers_matched {ls : List Label} (hr : StepSystem.run (step env) start ls = some s)
    (hdistinct : ∀ side, (s side).ids.Nodup) : Matched s := by
  have hback : ∀ t l t', step env t l = some t' → (∀ side, (t' side).ids.Nodup) → ∀ side, (t side).ids.Nodup :=
    fun t l t' hs hnodup side => (hnodup side).sublist ((headers_grow hs side).sublist.map Prod.snd)
  have hids := StepSystem.meets_of_back hback hr hdistinct
  exact (StepSystem.run_invariant_of_meets
    (fun t l t' hs hnodup h => h.step (hback t l t' hs (hnodup t' hs)) hs) hr hids Inv.start).matched

/-- Both sides use id 7 and respond to each other; the server's response arrives before the client's `send`
has returned, the client's after the server's call has timed out. -/
def crossing : List Label :=
  [.request .client [1] 7, .request .server [2] 7, .register .client 0, .register .server 0, .transmit .server 0,
    .sent .server 0 true, .transmit .client 0, .deliver .server 0, .deliver .client 0, .forward .client 0,
    .forward .server 0, .respond .client 0 [10], .respond .server 0 [11], .deliver .client 0, .sent .client 0 true,
    .timeout .server 0, .deliver .server 0, .finish .client 0]

theorem answers_matched_crossing : ∃ s, StepSystem.run (step ⟨⟨none, none⟩, 1, fun _ => false⟩) start crossing = some s ∧
    Returned s .client 0 ⟨responsePacket 7 [11], ⟨.server, 0⟩⟩ ∧ TimedOut s .server 0 ∧ Matched s := by
  obtain ⟨s, hr, hdistinct, hreturned, htimedOut⟩ : ∃ s,
      StepSystem.run (step ⟨⟨none, none⟩, 1, fun _ => false⟩) start crossing = some s ∧ (∀ side, (s side).ids.Nodup) ∧
        Returned s .client 0 ⟨responsePacket 7 [11], ⟨.server, 0⟩⟩ ∧ TimedOut s .server 0 := by
    refine ⟨_, rfl, fun side => ?_, ⟨_, rfl, rfl⟩, ⟨_, rfl, rfl⟩⟩
    cases side <;> decide
  exact ⟨s, hr, hreturned, htimedOut, answers_matched hr hdistinct⟩

end Exchange

end Msgtrans
