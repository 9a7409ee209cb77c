import Msgtrans.AdapterLink
import Msgtrans.EndToEnd
import Msgtrans.Exchange

/-!
# Requests over two event loops (`transport/transport.rs`, `transport/client.rs`, `transport/transport_server.rs`, `adapters/*.rs`)

The two endpoints of `Exchange` with nothing between them but the event loops of their adapters (`AdapterLink`): a request is put
into the send queue of its side, goes over the wire as the bytes of its packet, and reaches `on_event` of the other side as what
the loop there made of these bytes. A response waits in a task of its own until it is sent. A loop that has ended takes
no packet, and a consumer that lags misses some.

Every run is one of `Exchange`, whose channel keeps what is under way, and what was lost (`Refines`): so answers go to the call that
asked, and what a request asks is asked once. While both loops run and no consumer lags, nothing is lost.
-/

namespace Msgtrans

open Link (Kind Act)

/-- An adapter: its loop, and what of the packets its peer wrote comes out of it. -/
structure Carrier (μ ο : Type) extends Kind Packet μ ο TransportEvent where
  limit : ℕ
  receives : toKind.Receives TransportEvent.packet? Packet.WellFormed fun p => p.toBytes.length ≤ limit

def Carrier.webSocket (next : Message → Except TungsteniteError Message) (hnext : WebSocketLink.Limits next) :
    Carrier Message WebSocketLoop.Outcome where
  toKind := WebSocketLink.kind next
  limit := WebSocketLink.maxFrameSize
  receives := WebSocketLink.receives hnext

def Carrier.quic (readToEnd : Nat → Bytes → Except QuicLoop.ReadToEndError Bytes)
    (hread : ∀ limit stream, readToEnd limit stream = if stream.length ≤ limit then .ok stream else .error .tooLong) :
    Carrier Bytes QuicLoop.Outcome where
  toKind := QuicLink.kind readToEnd
  limit := QuicLoop.readLimit
  receives := QuicLink.receives hread

/-- Its loops over packets of which it is known where they come from: they see the packets only. -/
def Carrier.link {μ ο : Type} (K : Carrier μ ο) : Kind Exchange.Message μ ο TransportEvent :=
  K.toKind.comap Exchange.Message.packet

namespace RequestsOverLink

open Exchange

/-- The end of the link at which the adapter of a side is. -/
def endOf : Side → Link.Side
  | .client => .left
  | .server => .right

variable {μ ο : Type}

structure State (μ ο : Type) where
  /-- nothing is in the inboxes -/
  ends : Exchange.State
  /-- the tasks of each side that have a response to send -/
  replies : Side → List Exchange.Message
  link : Link.State Exchange.Message μ ο
  /-- how many of the messages of its adapter the consumer of each side has come by -/
  heard : Side → ℕ

inductive Label (μ ο : Type) where
  /-- a step of a call or of a forwarding task, in which the connection has no part -/
  | inside (l : Exchange.Label)
  /-- the adapter takes the request of call `i`; `send` returns later -/
  | transmit (side : Side) (i : ℕ)
  /-- the application of `side` responds to a context -/
  | respond (side : Side) (k : ℕ) (response : Bytes)
  /-- a task that has a response sends it -/
  | reply (side : Side) (n : ℕ)
  /-- an event loop, or the connection below it -/
  | link (l : Link.Label Exchange.Message μ ο)
  /-- the consumer of `side` takes the next message and calls `on_event` -/
  | hear (side : Side)
  /-- it lags -/
  | miss (side : Side) (n : ℕ)

def start : State μ ο := ⟨Exchange.start, fun _ => [], Link.start, fun _ => 0⟩

def isInside : Exchange.Label → Bool
  | .transmit .. | .deliver .. | .respond .. => false
  | _ => true

def isAccept : Link.Label Exchange.Message μ ο → Bool
  | .accept .. => true
  | _ => false

/-- A loop that has ended takes no packet. -/
def State.send (s : State μ ο) (side : Side) (m : Exchange.Message) : State μ ο :=
  if (s.link (endOf side)).running then
    { s with link := s.link.move (endOf side) ((s.link (endOf side)).accept m) [] }
  else s

variable (K : Carrier μ ο) (env : Env)

/-- What a turn publishes of packets, with where they come from. -/
def messagesOf (a : Act Exchange.Message μ ο) : List Exchange.Message :=
  a.packet?.elim [] fun m => (received (K.link.events a)).map fun packet => ⟨packet, m.origin⟩

def arrivals (e : Link.End Exchange.Message μ ο) : List Exchange.Message := e.acts.flatMap (messagesOf K)

/-- Of the events the consumer takes only the messages are steps here: `on_event` makes nothing of the others that concerns a
request (`onEvent_other`). -/
def step (s : State μ ο) : Label μ ο → Option (State μ ο)
  | .inside l => if isInside l then (Exchange.step env s.ends l).map fun ends => { s with ends := ends } else none
  | .transmit side i => (s.ends side).table.calls[i]?.bind fun c =>
    match c.phase with
    | .registered =>
      if i ∈ (s.ends side).transmitted ∨ (s.link (endOf side)).running = false then none else
      some (State.send { s with ends := s.ends.set side { s.ends side with transmitted := i :: (s.ends side).transmitted } }
        side (requestMessage side i c))
    | _ => none
  | .respond side k response => (s.ends side).contexts[k]?.map fun x =>
    match x.context.respond response with
    | (some packet, context) =>
      let x : Received := { x with context := context, answer := some response }
      { s with
        ends := s.ends.set side { s.ends side with contexts := (s.ends side).contexts.set k x }
        replies := Function.update s.replies side (s.replies side ++ [⟨packet, ⟨side, k⟩⟩]) }
    | (none, _) => s
  | .reply side n => (s.replies side)[n]?.map fun m =>
    State.send { s with replies := Function.update s.replies side ((s.replies side).eraseIdx n) } side m
  | .link l =>
    if isAccept l then none else (Link.step K.link s.link l).map fun link => { s with link := link }
  | .hear side => (arrivals K (s.link (endOf side)))[s.heard side]?.map fun m =>
    { s with
      ends := s.ends.set side (Endpoint.deliver env (s.ends side) m)
      heard := Function.update s.heard side (s.heard side + 1) }
  | .miss side n =>
    if s.heard side + n ≤ (arrivals K (s.link (endOf side))).length then
      some { s with heard := Function.update s.heard side (s.heard side + n) }
    else none

variable {K env} {s s' : State μ ο} {l : Label μ ο} {side : Side} {m : Exchange.Message}
  {e : Link.End Exchange.Message μ ο} {x : Act Exchange.Message μ ο}

/-! ### What the consumer comes by -/

theorem received_quiet (hx : K.link.Meets x) : received (K.link.events x) = [] := by
  rcases x with (p | m | m) | p | o | _
  · exact hx.elim
  · exact K.receives.quiet (.read (.control m)) hx
  · exact K.receives.quiet (.read (.bye m)) hx
  · exact K.receives.quiet (.wrote p.packet) trivial
  · obtain ⟨head, hidle⟩ := hx
    exact K.receives.quiet (.idle o) ⟨head.map Exchange.Message.packet, hidle⟩
  · exact K.receives.quiet .stop trivial

/-- All messages an adapter publishes are there. -/
theorem received_published {st : Link.State Exchange.Message μ ο} (h : Link.Inv K.link st) (d : Link.Side) :
    received ((st d).published K.link) = (arrivals K (st d)).map Exchange.Message.packet := by
  rw [(h.ran d).published_eq, received, List.filterMap_flatMap, arrivals, List.map_flatMap]
  refine List.flatMap_congr fun x hx => ?_
  show received (K.link.events x) = _
  obtain ⟨p, rfl⟩ | hquiet := h.meets hx
  · exact (List.map_map ..).symm ▸ (List.map_id _).symm
  · rw [received_quiet hquiet]
    cases hp : x.packet? with
    | none => rw [messagesOf, hp]; rfl
    | some p => rw [messagesOf, hp, received_quiet hquiet]; rfl

/-- The events of other kinds concern no request. -/
theorem onEvent_other (lib : CompressionLib) {event : TransportEvent} (h : event.packet? = none) :
    (Transport.onEvent lib event).completed = none ∧
      ∀ event' ∈ (Transport.onEvent lib event).published, ∀ side, contextsOf env side event' = [] := by
  cases event with
  | messageReceived packet => cases h
  | _ =>
    refine ⟨rfl, fun event' he side => ?_⟩
    rw [List.mem_singleton.1 he]
    cases side <;> rfl

/-! ### From one end to the other -/

variable {a a' b b' : Link.End Exchange.Message μ ο} {fs : List (Link.Frame Exchange.Message μ)} {n : ℕ}

/-- What is on its way from `a` to a consumer at `b` that has come by `n` messages. -/
def ahead (K : Carrier μ ο) (n : ℕ) (a b : Link.End Exchange.Message μ ο) : List Exchange.Message :=
  (arrivals K b).drop n ++ b.coming ++ a.queue

theorem arrivals_act : arrivals K (e.act K.link x) = arrivals K e ++ messagesOf K x := by
  rw [arrivals, arrivals, Link.End.act, List.flatMap_append, List.flatMap_singleton]

/-- A frame that is read brings its packet, or nothing and ends the loop. -/
theorem messagesOf_read (f : Link.Frame Exchange.Message μ) (h : ∀ p ∈ f.packet?, p.packet.WellFormed) :
    messagesOf K (.read f) = f.packet?.toList ∨ messagesOf K (.read f) = [] ∧ K.link.goesOn (.read f) = false := by
  cases f with
  | packet p =>
    show (received (K.events (.read (.packet p.packet)))).map (fun packet => (⟨packet, p.origin⟩ : Exchange.Message)) = [p] ∨
      (received (K.events (.read (.packet p.packet)))).map (fun packet => (⟨packet, p.origin⟩ : Exchange.Message)) = [] ∧ _
    by_cases hfits : p.packet.toBytes.length ≤ K.limit
    · rw [received, K.receives.takes p.packet (h p rfl) hfits]
      exact .inl rfl
    · rw [received, K.receives.refuses p.packet hfits]
      exact .inr ⟨rfl, K.receives.ends p.packet hfits⟩
  | control m => exact .inl rfl
  | bye m => exact .inl rfl

theorem arrivals_grow (hm : Link.Moves K.link b b' fs) : arrivals K b <+: arrivals K b' := by
  cases hm with
  | accept p => exact List.prefix_refl _
  | control m hm => exact List.prefix_refl _
  | read f rest hin => exact ⟨_, (arrivals_act (e := { b with inbox := rest })).symm⟩
  | write p rest hq => exact ⟨_, (arrivals_act (e := { b with queue := rest })).symm⟩
  | idle o hidle => exact ⟨_, arrivals_act.symm⟩
  | stop => exact ⟨_, arrivals_act.symm⟩

theorem ahead_receive (hm : Link.Moves K.link b b' fs) (hok : ∀ m ∈ b.coming, m.packet.WellFormed)
    (hn : n ≤ (arrivals K b).length) : List.Sublist (ahead K n (a.put fs) b') (ahead K n a b) ∧
      (b'.running = true → ahead K n (a.put fs) b' = ahead K n a b) := by
  have hnone : ∀ (e : Link.End Exchange.Message μ ο) x, arrivals K e = arrivals K b → e.coming = b.coming →
      messagesOf K x = [] → ahead K n (a.put fs) (e.act K.link x) = ahead K n a b := by
    intro e x harrivals hcoming hx
    rw [ahead, ahead, arrivals_act, hx, List.append_nil, harrivals]
    show _ ++ e.coming ++ a.queue = _
    rw [hcoming]
  have hsame : ∀ {e}, ahead K n (a.put fs) e = ahead K n a b → List.Sublist (ahead K n (a.put fs) e) (ahead K n a b) ∧
      (e.running = true → ahead K n (a.put fs) e = ahead K n a b) :=
    fun heq => ⟨heq ▸ List.Sublist.refl _, fun _ => heq⟩
  cases hm with
  | accept p => exact hsame rfl
  | control m hm => exact hsame rfl
  | read f rest hin =>
    have hcoming : b.coming = f.packet?.toList ++ rest.filterMap Link.Frame.packet? := by
      rw [Link.End.coming, hin, List.filterMap_cons]
      cases f.packet? <;> rfl
    have hahead : ahead K n (a.put []) ({ b with inbox := rest }.act K.link (.read f)) =
        (arrivals K b).drop n ++ messagesOf K (.read f) ++ rest.filterMap Link.Frame.packet? ++ a.queue := by
      rw [ahead, arrivals_act]
      show (arrivals K b ++ messagesOf K (.read f)).drop n ++ rest.filterMap Link.Frame.packet? ++ a.queue = _
      rw [List.drop_append_of_le_length hn]
    have hbefore : ahead K n a b = (arrivals K b).drop n ++ f.packet?.toList ++ rest.filterMap Link.Frame.packet? ++ a.queue := by
      rw [ahead, hcoming, ← List.append_assoc ((arrivals K b).drop n)]
    have hread := messagesOf_read (K := K) f fun p hp => hok p (by
      rw [hcoming, Option.mem_def.1 hp]
      exact List.mem_cons_self)
    obtain hread | ⟨hread, hend⟩ := hread
    · refine hsame ?_
      rw [hahead, hbefore, hread]
    · refine ⟨?_, fun hrun => ?_⟩
      · rw [hahead, hbefore, hread]
        exact (((List.Sublist.refl _).append (List.nil_sublist _)).append (List.Sublist.refl _)).append (List.Sublist.refl _)
      · exact Bool.noConfusion (hend.symm.trans hrun)
  | write p rest hq => exact hsame (hnone { b with queue := rest } _ rfl rfl rfl)
  | idle o hidle => exact hsame (hnone b _ rfl rfl rfl)
  | stop => exact hsame (hnone b _ rfl rfl rfl)

theorem ahead_accept (p : Exchange.Message) : ahead K n (a.accept p) (b.put []) = ahead K n a b ++ [p] := by
  show (arrivals K b).drop n ++ (b.inbox ++ []).filterMap Link.Frame.packet? ++ (a.queue ++ [p]) = _
  rw [List.append_nil, ← List.append_assoc]
  rfl

theorem ahead_send (hm : Link.Moves K.link a a' fs) (hacc : a'.accepted = a.accepted) :
    ahead K n a' (b.put fs) = ahead K n a b := by
  have hput : (b.put fs).coming = b.coming ++ fs.filterMap Link.Frame.packet? := List.filterMap_append
  rw [ahead, ahead, hput]
  show (arrivals K b).drop n ++ _ ++ _ = _
  cases hm with
  | accept p => exact absurd hacc (by simp [Link.End.accept])
  | write p rest hq =>
    rw [hq, ← List.append_assoc, List.append_assoc (_ ++ b.coming)]
    rfl
  | read f rest hin => rw [List.filterMap_nil, List.append_nil]; rfl
  | idle o hidle => rw [List.filterMap_nil, List.append_nil]; rfl
  | control m hm =>
    show _ ++ (b.coming ++ []) ++ a.queue = _
    rw [List.append_nil]
  | stop =>
    have : (K.link.bye.toList.map Link.Frame.bye).filterMap
        (Link.Frame.packet? : Link.Frame Exchange.Message μ → Option Exchange.Message) = [] := by
      cases K.link.bye <;> rfl
    rw [this, List.append_nil]
    rfl

theorem link_step {st st' : Link.State Exchange.Message μ ο} {l : Link.Label Exchange.Message μ ο}
    (hs : Link.step K.link st l = some st') (hl : isAccept l = false) (d : Link.Side)
    (hok : ∀ m ∈ (st d).coming, m.packet.WellFormed) (hn : n ≤ (arrivals K (st d)).length) :
    (List.Sublist (ahead K n (st' d.peer) (st' d)) (ahead K n (st d.peer) (st d)) ∧
      ((st' d).running = true → ahead K n (st' d.peer) (st' d) = ahead K n (st d.peer) (st d))) ∧
      arrivals K (st d) <+: arrivals K (st' d) ∧ (st' d).accepted = (st d).accepted := by
  obtain rfl | ⟨d', e, fs, -, hm, rfl, hacc⟩ := Link.step_cases hs
  · exact ⟨⟨List.Sublist.refl _, fun _ => rfl⟩, List.prefix_refl _, rfl⟩
  · have hacc : e.accepted = (st d').accepted := hacc.resolve_right fun ⟨p, hp, _⟩ => by
      rw [hp] at hl
      cases hl
    by_cases hd : d = d'
    · rw [hd, Link.State.move_self, Link.State.move_peer]
      rw [hd] at hok hn
      exact ⟨ahead_receive hm hok hn, arrivals_grow hm, hacc⟩
    · obtain rfl : d = d'.peer := by cases d <;> cases d' <;> first | rfl | exact absurd rfl hd
      rw [Link.State.move_peer, Link.Side.peer_peer, Link.State.move_self, ahead_send hm hacc]
      exact ⟨⟨List.Sublist.refl _, fun _ => rfl⟩, List.prefix_refl _, rfl⟩

/-! ### What is under way -/

/-- The messages on their way to `side`, those next to arrive first, and those whose tasks have not sent them. -/
def underWay (K : Carrier μ ο) (s : State μ ο) (side : Side) : List Exchange.Message :=
  ahead K (s.heard side) (s.link (endOf side).peer) (s.link (endOf side)) ++ s.replies side.peer

theorem endOf_peer (side : Side) : endOf side.peer = (endOf side).peer := by cases side <;> rfl

theorem eq_or_eq_peer (side side' : Side) : side' = side ∨ side' = side.peer := by
  cases side <;> cases side' <;> first | exact .inl rfl | exact .inr rfl

theorem peer_ne (side : Side) : side.peer ≠ side := by cases side <;> exact Side.noConfusion

theorem send_frame (s : State μ ο) (side : Side) (m : Exchange.Message) : (s.send side m).ends = s.ends ∧
    (s.send side m).replies = s.replies ∧ (s.send side m).heard = s.heard := by
  unfold State.send
  split <;> exact ⟨rfl, rfl, rfl⟩

/-- Sending is a step of the link: a loop that has ended leaves it as it is. -/
theorem link_send (s : State μ ο) (side : Side) (m : Exchange.Message) :
    Link.step K.link s.link (.accept (endOf side) m) = some (s.send side m).link := by
  rw [Link.step, State.send]
  split <;> rfl

theorem underWay_send_self (s : State μ ο) (side : Side) (m : Exchange.Message) :
    underWay K (s.send side m) side = underWay K s side := by
  unfold State.send
  split
  · rw [underWay, underWay]
    dsimp only
    rw [Link.State.move_self, Link.State.move_peer]
    rfl
  · rfl

theorem underWay_send_peer {s : State μ ο} {side : Side} (m : Exchange.Message) (hrun : (s.link (endOf side)).running = true) :
    List.Perm (underWay K (s.send side m) side.peer) (m :: underWay K s side.peer) := by
  unfold State.send
  rw [if_pos hrun, underWay, underWay, endOf_peer, Link.Side.peer_peer]
  dsimp only
  rw [Link.State.move_peer, Link.State.move_self, ahead_accept, List.append_assoc]
  exact List.perm_middle

theorem send_of_ended {s : State μ ο} {side : Side} (m : Exchange.Message) (hrun : ¬ (s.link (endOf side)).running = true) :
    s.send side m = s := if_neg hrun

/-! ### The exchange behind it -/

def bare (e : Endpoint) : Endpoint := { e with inbox := [] }

def bareAll (t : Exchange.State) : Exchange.State := fun side => bare (t side)

variable {t t' ends : Exchange.State} {side' : Side} {i k : ℕ}

theorem bareAll_set (t : Exchange.State) (side : Side) (e : Endpoint) :
    bareAll (t.set side e) = (bareAll t).set side (bare e) := by
  funext side'
  show bare (if side' = side then e else t side') = if side' = side then bare e else bare (t side')
  split <;> rfl

theorem bareAll_post (t : Exchange.State) (side : Side) (m : Exchange.Message) : bareAll (t.post side m) = bareAll t := by
  rw [Exchange.State.post, bareAll_set]
  funext side'
  show (if side' = side then bare (t side) else bare (t side')) = bare (t side')
  split
  · next h => rw [h]
  · rfl

theorem inbox_set {e : Endpoint} (h : e.inbox = (t side).inbox) (side' : Side) : (t.set side e side').inbox = (t side').inbox := by
  by_cases hs : side' = side
  · rw [hs, set_self, h]
  · rw [set_of_ne hs]

theorem inbox_post_self (t : Exchange.State) (side : Side) (m : Exchange.Message) :
    (t.post side m side).inbox = (t side).inbox ++ [m] := by
  rw [Exchange.State.post, set_self]

theorem inbox_post_of_ne (h : side' ≠ side) : (t.post side m side').inbox = (t side').inbox := by
  rw [Exchange.State.post, set_of_ne h]

/-- The requests an endpoint knows of by their origins: events, and contexts. -/
def known (e : Endpoint) : List Origin := e.events.map Prod.snd ++ e.contexts.map Received.origin

/-- What endpoint `e` keeps of the one it was, when the connection has no part in the step. -/
structure Inside (env : Env) (l : Exchange.Label) (side : Side) (e e' : Endpoint) : Prop where
  inbox : e'.inbox = e.inbox
  transmitted : e'.transmitted = e.transmitted
  headers : e'.table.headers = e.table.headers ∨
    ∃ data id, l = .request side data id ∧ e'.table.headers = e.table.headers ++ [(data, id)]
  contexts : ∀ x ∈ e'.contexts, x ∈ e.contexts ∨ ∃ event, x.context ∈ contextsOf env side event
  known : List.Subperm (known e') (known e)

theorem Inside.of_frame {l : Exchange.Label} {table : Requests.Table Bytes Exchange.Message} {e : Endpoint}
    (h : e.table.Frame table) : Inside env l side e { e with table := table } :=
  ⟨rfl, rfl, .inl h.headers, fun _ hx => .inl hx, List.Subperm.refl _⟩

theorem length_contextsOf_le (env : Env) (side : Side) (event : TransportEvent) : (contextsOf env side event).length ≤ 1 := by
  cases side with
  | client =>
    show (Option.toList _).length ≤ 1
    cases (TransportClient.forward event).bind ClientEvent.context? with
    | none => exact Nat.zero_le _
    | some context => exact Nat.le_refl _
  | server =>
    refine (List.length_filterMap_le ..).trans ?_
    cases event with
    | messageReceived packet =>
      simp only [TransportServer.handleTransportEvent]
      split
      · exact Nat.le_refl _
      · split
        · exact Nat.zero_le _
        · exact Nat.le_refl _
      · exact Nat.le_refl _
    | messageSent | connectionClosed | transportError => exact Nat.le_refl _
    | connectionEstablished | serverStarted | serverStopped | clientConnected | clientDisconnected | requestReceived =>
      exact Nat.zero_le _

/-- The forwarding task makes at most one context of an event. -/
theorem Inside.forward {e : Endpoint} {event : TransportEvent} {origin : Origin} (he : e.events[n]? = some (event, origin)) :
    Inside env (.forward side n) side e
      (Endpoint.forward env side { e with events := e.events.eraseIdx n } event origin) := by
  refine ⟨rfl, rfl, .inl rfl, fun x hx => ?_, ?_⟩
  · obtain hx | hx := List.mem_append.1 hx
    · exact .inl hx
    · obtain ⟨context, hcontext, rfl⟩ := List.mem_map.1 hx
      exact .inr ⟨event, hcontext⟩
  · obtain ⟨hn, heq⟩ := List.getElem?_eq_some_iff.1 he
    have hperm := (List.getElem_cons_eraseIdx_perm hn).map Prod.snd
    rw [heq, List.map_cons] at hperm
    have hnew : List.Sublist (((contextsOf env side event).map fun context => (⟨context, origin, none⟩ : Received)).map
        Received.origin) [origin] := by
      have hlength := length_contextsOf_le env side event
      match contextsOf env side event, hlength with
      | [], _ => exact List.nil_sublist _
      | [context], _ => exact List.Sublist.refl _
    show List.Subperm ((e.events.eraseIdx n).map Prod.snd ++ (e.contexts ++ _).map Received.origin) _
    rw [List.map_append, ← List.append_assoc]
    refine ((List.Sublist.refl _).append hnew).subperm.trans ?_
    exact ((List.perm_append_singleton _ _).trans (hperm.append_right _)).subperm

/-- A step in which the connection has no part changes one endpoint. -/
theorem inside_cases {l : Exchange.Label} (hl : isInside l = true) (hs : Exchange.step env t l = some t') :
    ∃ side e, t' = t.set side e ∧ Inside env l side (t side) e := by
  cases l with
  | request side data messageId =>
    cases hs
    exact ⟨side, _, rfl, rfl, rfl, .inr ⟨data, messageId, rfl, Requests.Table.headers_draw ..⟩, fun _ hx => .inl hx,
      List.Subperm.refl _⟩
  | register side i =>
    obtain ⟨table, ht, rfl⟩ := Option.map_eq_some_iff.1 hs
    exact ⟨side, _, rfl, .of_frame (Requests.Table.frame_register ht)⟩
  | sent side i ok =>
    obtain ⟨table, ht, rfl⟩ := step_sent hs
    exact ⟨side, _, rfl, .of_frame (Requests.Table.frame_sent ht)⟩
  | finish side i =>
    obtain ⟨table, ht, rfl⟩ := Option.map_eq_some_iff.1 hs
    exact ⟨side, _, rfl, .of_frame (Requests.Table.frame_finish ht)⟩
  | timeout side i =>
    obtain ⟨table, ht, rfl⟩ := Option.map_eq_some_iff.1 hs
    exact ⟨side, _, rfl, .of_frame (Requests.Table.frame_timeout ht)⟩
  | forward side n =>
    obtain ⟨⟨event, origin⟩, he, rfl⟩ := Option.map_eq_some_iff.1 hs
    exact ⟨side, _, rfl, .forward he⟩
  | transmit | deliver | respond => cases hl

/-- It does not look at what is under way. -/
theorem step_bareAll (t : Exchange.State) {l : Exchange.Label} (hl : isInside l = true) :
    Exchange.step env (bareAll t) l = (Exchange.step env t l).map bareAll := by
  cases l with
  | request side data messageId =>
    show some _ = some (bareAll _)
    rw [bareAll_set]
    rfl
  | register side i | finish side i | timeout side i =>
    simp only [Exchange.step, Option.map_map]
    refine congrArg (Option.map · _) (funext fun table => ?_)
    exact (bareAll_set t side { t side with table := table }).symm
  | sent side i ok =>
    simp only [Exchange.step]
    show (if ok = true ∧ i ∉ (t side).transmitted then none else _) =
      Option.map bareAll (if ok = true ∧ i ∉ (t side).transmitted then none else _)
    split
    · rfl
    · rw [Option.map_map]
      refine congrArg (Option.map · _) (funext fun table => ?_)
      exact (bareAll_set t side { t side with table := table }).symm
  | forward side n =>
    simp only [Exchange.step, Option.map_map]
    refine congrArg (Option.map · _) (funext fun x => ?_)
    exact (bareAll_set t side (Endpoint.forward env side { t side with events := (t side).events.eraseIdx n } x.1 x.2)).symm
  | transmit | deliver | respond => cases hl

/-- What is under way in the one, or was lost, is under way in the other. -/
structure Refines (K : Carrier μ ο) (s : State μ ο) (t : Exchange.State) (lost : Side → List Exchange.Message) : Prop where
  same : s.ends = bareAll t
  carried : ∀ side, List.Perm (underWay K s side ++ lost side) (t side).inbox

variable {lost : Side → List Exchange.Message}

namespace Refines

theorem inside {l : Exchange.Label} (h : Refines K s t lost) (hl : isInside l = true)
    (hs : Exchange.step env s.ends l = some ends) :
    ∃ t', Exchange.step env t l = some t' ∧ Refines K { s with ends := ends } t' lost := by
  rw [h.same, step_bareAll t hl] at hs
  obtain ⟨t', ht', rfl⟩ := Option.map_eq_some_iff.1 hs
  refine ⟨t', ht', rfl, fun side => ?_⟩
  obtain ⟨side', e, rfl, he⟩ := inside_cases hl ht'
  rw [inbox_set he.inbox]
  exact h.carried side

/-- A side is as in the exchange, and what is under way to it too. -/
theorem set (h : Refines K s t lost) (side : Side) {e : Endpoint} (hinbox : e.inbox = (t side).inbox) :
    Refines K { s with ends := s.ends.set side (bare e) } (t.set side e) lost := by
  refine ⟨?_, fun side' => ?_⟩
  · rw [bareAll_set, ← h.same]
  · rw [inbox_set hinbox]
    exact h.carried side'

theorem bareAll_eq (h : Refines K s t lost) (side : Side) (m : Exchange.Message) : s.ends = bareAll (t.post side m) := by
  rw [bareAll_post, h.same]

/-- A message more on its way to `side`, in the one and in the other. -/
theorem post (h : Refines K s t lost) {s' : State μ ο} {lost' : Side → List Exchange.Message} (hends : s'.ends = s.ends)
    (hother : underWay K s' side.peer ++ lost' side.peer = underWay K s side.peer ++ lost side.peer)
    (hside : List.Perm (underWay K s' side ++ lost' side) (m :: (underWay K s side ++ lost side))) :
    Refines K s' (t.post side m) lost' := by
  refine ⟨hends.trans (h.bareAll_eq ..), fun side' => ?_⟩
  obtain rfl | rfl := eq_or_eq_peer side side'
  · rw [inbox_post_self]
    exact (hside.trans ((h.carried side').cons m)).trans (List.perm_append_singleton m _).symm
  · rw [inbox_post_of_ne (peer_ne side), hother]
    exact h.carried side.peer

/-- A message that is sent is under way, or lost. -/
theorem send (h : Refines K s t lost) (side : Side) (m : Exchange.Message) : ∃ lost',
    Refines K (s.send side m) (t.post side.peer m) lost' ∧ ((s.link (endOf side)).running = true → lost' = lost) := by
  by_cases hrun : (s.link (endOf side)).running = true
  · refine ⟨lost, h.post (send_frame s side m).1 ?_ ((underWay_send_peer m hrun).append_right _), fun _ => rfl⟩
    rw [Side.peer_peer, underWay_send_self]
  · rw [send_of_ended m hrun]
    refine ⟨Function.update lost side.peer (m :: lost side.peer), h.post rfl ?_ ?_, fun hrun' => absurd hrun' hrun⟩
    · rw [Side.peer_peer, Function.update_of_ne (peer_ne side).symm]
    · rw [Function.update_self]
      exact List.perm_middle

/-- A message a task is to send. -/
theorem queue (h : Refines K s t lost) (side : Side) (m : Exchange.Message) : Refines K
    { s with replies := Function.update s.replies side (s.replies side ++ [m]) } (t.post side.peer m) lost := by
  have hperm : List.Perm (underWay K { s with replies := Function.update s.replies side (s.replies side ++ [m]) } side.peer)
      (m :: underWay K s side.peer) := by
    rw [underWay, underWay]
    dsimp only
    rw [Side.peer_peer, Function.update_self, ← List.append_assoc]
    exact List.perm_append_singleton ..
  refine h.post rfl ?_ (hperm.append_right _)
  rw [Side.peer_peer, underWay, underWay]
  dsimp only
  rw [Function.update_of_ne (peer_ne side)]

/-- A message that waits somewhere else is sent. -/
theorem move (h : Refines K s t lost) (s₁ : State μ ο) (hends : s₁.ends = s.ends) (hself : underWay K s₁ side = underWay K s side)
    (htaken : List.Perm (m :: underWay K s₁ side.peer) (underWay K s side.peer)) :
    ∃ lost', Refines K (s₁.send side m) t lost' ∧ ((s₁.link (endOf side)).running = true → lost' = lost) := by
  by_cases hrun : (s₁.link (endOf side)).running = true
  · refine ⟨lost, ⟨(send_frame s₁ side m).1.trans (hends.trans h.same), fun side' => ?_⟩, fun _ => rfl⟩
    obtain rfl | rfl := eq_or_eq_peer side side'
    · rw [underWay_send_self, hself]
      exact h.carried side'
    · exact (((underWay_send_peer m hrun).trans htaken).append_right _).trans (h.carried side.peer)
  · rw [send_of_ended m hrun]
    refine ⟨Function.update lost side.peer (m :: lost side.peer), ⟨hends.trans h.same, fun side' => ?_⟩,
      fun hrun' => absurd hrun' hrun⟩
    obtain rfl | rfl := eq_or_eq_peer side side'
    · rw [hself, Function.update_of_ne (peer_ne side').symm]
      exact h.carried side'
    · rw [Function.update_self]
      exact (List.perm_middle.trans (htaken.append_right _)).trans (h.carried side.peer)

/-- The task sends it. -/
theorem reply (h : Refines K s t lost) (hm : (s.replies side)[n]? = some m) : ∃ lost', Refines K
    (State.send { s with replies := Function.update s.replies side ((s.replies side).eraseIdx n) } side m) t lost' ∧
      ((s.link (endOf side)).running = true → lost' = lost) := by
  refine h.move { s with replies := Function.update s.replies side ((s.replies side).eraseIdx n) } rfl ?_ ?_
  · rw [underWay, underWay]
    dsimp only
    rw [Function.update_of_ne (peer_ne side)]
  · rw [underWay, underWay, Side.peer_peer]
    dsimp only
    rw [Function.update_self]
    obtain ⟨hn, rfl⟩ := List.getElem?_eq_some_iff.1 hm
    exact List.perm_middle.symm.trans ((List.getElem_cons_eraseIdx_perm hn).append_left _)

/-- Fewer messages under way: the others are lost. -/
theorem less (h : Refines K s t lost) {link : Link.State Exchange.Message μ ο} {heard : Side → ℕ}
    (hless : ∀ side, List.Sublist (ahead K (heard side) (link (endOf side).peer) (link (endOf side)))
      (ahead K (s.heard side) (s.link (endOf side).peer) (s.link (endOf side)))) :
    ∃ lost', Refines K { s with link := link, heard := heard } t lost' ∧
      ((∀ side, ahead K (heard side) (link (endOf side).peer) (link (endOf side)) =
        ahead K (s.heard side) (s.link (endOf side).peer) (s.link (endOf side))) → lost' = lost) := by
  choose missing hmissing using fun side => (hless side).exists_perm_append
  refine ⟨fun side => missing side ++ lost side, ⟨h.same, fun side => ?_⟩, fun hsame => funext fun side => ?_⟩
  · refine List.Perm.trans ?_ (h.carried side)
    rw [← List.append_assoc]
    refine List.Perm.append_right _ ?_
    rw [underWay, underWay, List.append_assoc]
    exact ((List.perm_append_comm.append_left _).trans (by rw [List.append_assoc])).trans ((hmissing side).symm.append_right _)
  · have hlength := (hmissing side).length_eq
    rw [hsame side, List.length_append] at hlength
    rw [List.eq_nil_of_length_eq_zero (by omega : (missing side).length = 0), List.nil_append]

/-- A message that arrives was under way. -/
theorem hear (env : Env) (h : Refines K s t lost) (hm : (arrivals K (s.link (endOf side)))[s.heard side]? = some m) :
    ∃ n, (t side).inbox[n]? = some m ∧ Refines K { s with
      ends := s.ends.set side (Endpoint.deliver env (s.ends side) m)
      heard := Function.update s.heard side (s.heard side + 1) }
      (t.set side (Endpoint.deliver env { t side with inbox := (t side).inbox.eraseIdx n } m)) lost := by
  have hahead : underWay K s side = m :: underWay K { s with heard := Function.update s.heard side (s.heard side + 1) } side := by
    rw [underWay, underWay, ahead, ahead]
    dsimp only
    rw [Function.update_self, List.drop_eq_getElem?_toList_append, hm]
    rfl
  have hcarried := h.carried side
  rw [hahead] at hcarried
  obtain ⟨n, hn⟩ := List.mem_iff_getElem?.1 (hcarried.subset List.mem_cons_self)
  obtain ⟨hlt, heq⟩ := List.getElem?_eq_some_iff.1 hn
  refine ⟨n, hn, ?_, fun side' => ?_⟩
  · show s.ends.set side (Endpoint.deliver env (s.ends side) m) = _
    rw [bareAll_set, h.same]
    rfl
  · by_cases hs : side' = side
    · rw [hs, set_self]
      have hperm := List.getElem_cons_eraseIdx_perm hlt
      rw [heq] at hperm
      exact (List.perm_cons m).1 (hcarried.trans hperm.symm)
    · rw [set_of_ne hs, underWay]
      dsimp only
      rw [Function.update_of_ne hs]
      exact h.carried side'

end Refines

/-! ### What is sent is well formed -/

/-- A responder of a context builds responses. -/
def Responds (context : TransportContext) : Prop := ∀ responder responded isPrimary,
  context.kind = .request responder responded isPrimary → ∃ id, responder = responsePacket id

theorem responds_contextsOf {event : TransportEvent} {context : TransportContext} (h : context ∈ contextsOf env side event) :
    Responds context := by
  intro responder responded isPrimary hkind
  cases event with
  | messageReceived packet =>
    cases side with
    | client =>
      cases hp : packet.header.packetType with
      | request =>
        simp [contextsOf, TransportClient.forward, hp, ClientEvent.context?] at h
        rw [h] at hkind
        cases hkind
        exact ⟨_, rfl⟩
      | oneWay | response =>
        simp [contextsOf, TransportClient.forward, hp, ClientEvent.fromTransportEvent, ClientEvent.context?] at h
        rw [h] at hkind
        cases hkind
    | server =>
      simp only [contextsOf, TransportServer.handleTransportEvent] at h
      split at h
      · rw [List.mem_singleton.1 h] at hkind
        cases hkind
        exact ⟨_, rfl⟩
      · split at h
        · cases h
        · rw [List.mem_singleton.1 h] at hkind
          cases hkind
      · rw [List.mem_singleton.1 h] at hkind
        cases hkind
  | _ => cases side <;> cases h

theorem respond_cases {context context' : TransportContext} {response : Bytes} {packet : Packet}
    (h : context.respond response = (some packet, context')) : ∃ responder isPrimary,
      context.kind = .request responder false isPrimary ∧ packet = responder response ∧
        context'.kind = .request responder true isPrimary := by
  unfold TransportContext.respond at h
  split at h
  · next responder isPrimary hkind =>
    cases h
    exact ⟨responder, isPrimary, hkind, rfl, rfl⟩
  · cases h

/-- A packet with less than `bound` bytes of data. -/
def Short (bound : ℕ) (p : Packet) : Prop := p.WellFormed ∧ p.toBytes.length < 16 + bound

variable {bound : ℕ}

theorem short_request (id : UInt32) {data : Bytes} (hbound : bound ≤ 2 ^ 32) (h : data.length < bound) :
    Short bound (.request id data) :=
  ⟨⟨rfl, rfl, UInt32.toNat_ofNat_of_lt' (h.trans_le hbound)⟩, by rw [Packet.length_toBytes]; exact Nat.add_lt_add_left h 16⟩

theorem short_response (id : UInt32) {response : Bytes} (hbound : bound ≤ 2 ^ 32) (h : response.length < bound) :
    Short bound (responsePacket id response) :=
  ⟨⟨rfl, rfl, UInt32.toNat_ofNat_of_lt' (h.trans_le hbound)⟩, by rw [Packet.length_toBytes]; exact Nat.add_lt_add_left h 16⟩

/-- What the steps rely on. -/
structure Good (K : Carrier μ ο) (bound : ℕ) (s : State μ ο) : Prop where
  small : bound ≤ 2 ^ 32
  link : Link.Inv K.link s.link
  heard : ∀ side, s.heard side ≤ (arrivals K (s.link (endOf side))).length
  data : ∀ side, ∀ h ∈ (s.ends side).table.headers, h.1.length < bound
  contexts : ∀ side, ∀ x ∈ (s.ends side).contexts, Responds x.context
  replies : ∀ side, ∀ m ∈ s.replies side, Short bound m.packet
  accepted : ∀ d, ∀ m ∈ (s.link d).accepted, Short bound m.packet

/-- No data of `bound` bytes or more. -/
def Label.Fits (bound : ℕ) : Label μ ο → Prop
  | .inside (.request _ data _) => data.length < bound
  | .respond _ _ response => response.length < bound
  | _ => True

theorem good_start (small : bound ≤ 2 ^ 32) : Good K bound start where
  small := small
  link := .start _
  heard _ := Nat.le_refl _
  data _ _ h := absurd h List.not_mem_nil
  contexts _ _ h := absurd h List.not_mem_nil
  replies _ _ h := absurd h List.not_mem_nil
  accepted _ _ h := absurd h List.not_mem_nil

theorem forall_set {P : Endpoint → Prop} {e : Endpoint} (h : ∀ side, P (t side)) (he : P e) (side side' : Side) :
    P (t.set side e side') := by
  by_cases hs : side' = side
  · rw [hs, set_self]
    exact he
  · rw [set_of_ne hs]
    exact h side'

namespace Good

theorem coming (h : Good K bound s) (d : Link.Side) : ∀ m ∈ (s.link d).coming, Short bound m.packet := by
  intro m hm
  refine h.accepted d.peer m ?_
  rw [(h.link.flow_to d).accepted_eq]
  exact List.mem_append_left _ (List.mem_append_right _ hm)

theorem wellFormed_coming (h : Good K bound s) (d : Link.Side) : ∀ m ∈ (s.link d).coming, m.packet.WellFormed :=
  fun m hm => (h.coming d m hm).1

/-- A side changes, and keeps the rules. -/
theorem set (h : Good K bound s) {e : Endpoint} (hdata : ∀ h ∈ e.table.headers, h.1.length < bound)
    (hcontexts : ∀ x ∈ e.contexts, Responds x.context) (side : Side) : Good K bound { s with ends := s.ends.set side e } :=
  { h with
    data := forall_set (P := fun e => ∀ h ∈ e.table.headers, h.1.length < bound) h.data hdata side
    contexts := forall_set (P := fun e => ∀ x ∈ e.contexts, Responds x.context) h.contexts hcontexts side }

theorem putReplies (h : Good K bound s) {replies : List Exchange.Message} (hreplies : ∀ m ∈ replies, Short bound m.packet) :
    Good K bound { s with replies := Function.update s.replies side replies } :=
  { h with
    replies := (Function.forall_update_iff s.replies fun _ replies => ∀ m ∈ replies, Short bound m.packet).2
      ⟨hreplies, fun side' _ => h.replies side'⟩ }

theorem putHeard (h : Good K bound s) {heard : ℕ} (hheard : heard ≤ (arrivals K (s.link (endOf side))).length) :
    Good K bound { s with heard := Function.update s.heard side heard } :=
  { h with
    heard := (Function.forall_update_iff s.heard fun side heard => heard ≤ (arrivals K (s.link (endOf side))).length).2
      ⟨hheard, fun side' _ => h.heard side'⟩ }

theorem inside {l : Exchange.Label} (h : Good K bound s) (hl : isInside l = true) (hs : Exchange.step env s.ends l = some ends)
    (hfits : Label.Fits bound (.inside l : Label μ ο)) : Good K bound { s with ends := ends } := by
  obtain ⟨side, e, rfl, he⟩ := inside_cases hl hs
  refine h.set (fun x hx => ?_) (fun x hx => ?_) side
  · obtain heq | ⟨data, id, rfl, heq⟩ := he.headers
    · exact h.data side x (heq ▸ hx)
    · rw [heq, List.mem_append, List.mem_singleton] at hx
      obtain hx | rfl := hx
      · exact h.data side x hx
      · exact hfits
  · obtain hx | ⟨event, hx⟩ := he.contexts x hx
    · exact h.contexts side x hx
    · exact responds_contextsOf hx

theorem send (h : Good K bound s) (side : Side) (hm : Short bound m.packet) : Good K bound (s.send side m) := by
  obtain ⟨hends, hreplies, hheard⟩ := send_frame s side m
  have hlink : ∀ d, arrivals K ((s.send side m).link d) = arrivals K (s.link d) ∧
      ((s.send side m).link d).accepted ⊆ (s.link d).accepted ++ [m] := by
    intro d
    unfold State.send
    split
    · dsimp only
      by_cases hd : d = endOf side
      · rw [hd, Link.State.move_self]
        exact ⟨rfl, List.Subset.refl _⟩
      · obtain rfl : d = (endOf side).peer := by
          cases d <;> cases side <;> first | rfl | exact absurd rfl hd
        rw [Link.State.move_peer]
        exact ⟨rfl, List.subset_append_left ..⟩
    · exact ⟨rfl, List.subset_append_left ..⟩
  refine ⟨h.small, h.link.step (link_send s side m), fun side' => ?_, ?_, ?_, ?_, fun d m' hm' => ?_⟩
  · rw [hheard, (hlink _).1]
    exact h.heard side'
  · rw [hends]
    exact h.data
  · rw [hends]
    exact h.contexts
  · rw [hreplies]
    exact h.replies
  · obtain hm' | hm' := List.mem_append.1 ((hlink d).2 hm')
    · exact h.accepted d m' hm'
    · rw [List.mem_singleton.1 hm']
      exact hm

end Good

/-! ### Every run is a run of the exchange -/

/-- What a step does, with its guards. -/
inductive Acts (K : Carrier μ ο) (env : Env) (s : State μ ο) : Label μ ο → State μ ο → Prop
  | inside {l : Exchange.Label} {ends : Exchange.State} (hl : isInside l = true) (hs : Exchange.step env s.ends l = some ends) :
    Acts K env s (.inside l) { s with ends := ends }
  | transmit {side : Side} {i : ℕ} {c : Requests.Call Bytes Exchange.Message} (hc : (s.ends side).table.calls[i]? = some c)
      (hphase : c.phase = .registered)
    (hnew : i ∉ (s.ends side).transmitted) (hrun : (s.link (endOf side)).running = true) :
    Acts K env s (.transmit side i) (State.send
      { s with ends := s.ends.set side { s.ends side with transmitted := i :: (s.ends side).transmitted } }
      side (requestMessage side i c))
  | respond {side : Side} {k : ℕ} {response : Bytes} {x : Received} {packet : Packet} {context : TransportContext}
    (hx : (s.ends side).contexts[k]? = some x) (hrespond : x.context.respond response = (some packet, context)) :
    Acts K env s (.respond side k response) { s with
      ends := s.ends.set side { s.ends side with
        contexts := (s.ends side).contexts.set k { x with context := context, answer := some response } }
      replies := Function.update s.replies side (s.replies side ++ [⟨packet, ⟨side, k⟩⟩]) }
  /-- a context that has responded ignores the response, and a one-way message has no responder -/
  | ignored {side : Side} {k : ℕ} {response : Bytes} : Acts K env s (.respond side k response) s
  | reply {side : Side} {n : ℕ} {m : Exchange.Message} (hm : (s.replies side)[n]? = some m) :
    Acts K env s (.reply side n) (State.send
      { s with replies := Function.update s.replies side ((s.replies side).eraseIdx n) } side m)
  | link {l : Link.Label Exchange.Message μ ο} {link : Link.State Exchange.Message μ ο} (hl : isAccept l = false)
      (hs : Link.step K.link s.link l = some link) :
    Acts K env s (.link l) { s with link := link }
  | hear {side : Side} {m : Exchange.Message} (hm : (arrivals K (s.link (endOf side)))[s.heard side]? = some m) :
    Acts K env s (.hear side) { s with
      ends := s.ends.set side (Endpoint.deliver env (s.ends side) m)
      heard := Function.update s.heard side (s.heard side + 1) }
  | miss {side : Side} {n : ℕ} (hn : s.heard side + n ≤ (arrivals K (s.link (endOf side))).length) :
    Acts K env s (.miss side n) { s with heard := Function.update s.heard side (s.heard side + n) }

theorem acts_of_step (hs : step K env s l = some s') : Acts K env s l s' := by
  cases l with
  | inside l =>
    obtain ⟨hl, hs⟩ := Option.ite_none_right_eq_some.1 hs
    obtain ⟨ends, hends, rfl⟩ := Option.map_eq_some_iff.1 hs
    exact .inside hl hends
  | transmit side i =>
    obtain ⟨c, hc, hs⟩ := Option.bind_eq_some_iff.1 hs
    split at hs
    · next hphase =>
      obtain ⟨hnot, hs⟩ := Option.ite_none_left_eq_some.1 hs
      cases hs
      rw [not_or, Bool.not_eq_false] at hnot
      exact .transmit hc hphase hnot.1 hnot.2
    · cases hs
  | respond side k response =>
    obtain ⟨x, hx, rfl⟩ := Option.map_eq_some_iff.1 hs
    split
    · next hrespond => exact .respond hx hrespond
    · exact .ignored
  | reply side n =>
    obtain ⟨m, hm, rfl⟩ := Option.map_eq_some_iff.1 hs
    exact .reply hm
  | link l =>
    obtain ⟨hl, hs⟩ := Option.ite_none_left_eq_some.1 hs
    obtain ⟨link, hlink, rfl⟩ := Option.map_eq_some_iff.1 hs
    exact .link (Bool.eq_false_iff.2 hl) hlink
  | hear side =>
    obtain ⟨m, hm, rfl⟩ := Option.map_eq_some_iff.1 hs
    exact .hear hm
  | miss side n =>
    obtain ⟨hn, hs⟩ := Option.ite_none_right_eq_some.1 hs
    cases hs
    exact .miss hn

theorem Good.acts (h : Good K bound s) (ha : Acts K env s l s') (hfits : l.Fits bound) : Good K bound s' := by
  cases ha with
  | inside hl hs => exact h.inside hl hs hfits
  | @transmit side i c hc hphase hnew hrun =>
    have hdata := h.data side (c.tag, c.id) (List.mem_of_getElem? (Requests.Table.headers_of_some hc))
    have hset := h.set (e := { s.ends side with transmitted := i :: (s.ends side).transmitted }) (h.data side) (h.contexts side)
      side
    exact hset.send (m := requestMessage side i c) side (short_request c.id h.small hdata)
  | @respond side k response x packet context hx hrespond =>
    obtain ⟨responder, isPrimary, hkind, rfl, hkind'⟩ := respond_cases hrespond
    obtain ⟨id, rfl⟩ := h.contexts side x (List.mem_of_getElem? hx) _ _ _ hkind
    have hset := h.set (e := { s.ends side with
      contexts := (s.ends side).contexts.set k { x with context := context, answer := some response } }) (h.data side)
      (fun y hy => ?_) side
    · exact hset.putReplies (List.forall_mem_append.2 ⟨h.replies side, List.forall_mem_singleton.2 (short_response id h.small hfits)⟩)
    · obtain hy | rfl := List.mem_or_eq_of_mem_set hy
      · exact h.contexts side y hy
      · intro responder responded isPrimary' hkind''
        cases hkind'.symm.trans hkind''
        exact ⟨id, rfl⟩
  | ignored => exact h
  | @reply side n m hm =>
    have hset : Good K bound { s with replies := Function.update s.replies side ((s.replies side).eraseIdx n) } :=
      h.putReplies fun m hm => h.replies side m (List.mem_of_mem_eraseIdx hm)
    exact hset.send side (h.replies side m (List.mem_of_getElem? hm))
  | link hl hs =>
    refine { h with link := h.link.step hs, heard := fun side => ?_, accepted := fun d m hm => ?_ }
    · obtain ⟨-, hgrow, -⟩ := link_step hs hl (endOf side) (h.wellFormed_coming _) (h.heard side)
      exact (h.heard side).trans hgrow.length_le
    · obtain ⟨-, -, hacc⟩ := link_step hs hl d (h.wellFormed_coming d) (Nat.zero_le _)
      exact h.accepted d m (hacc ▸ hm)
  | @hear side m hm =>
    have hset := h.set (e := Endpoint.deliver env (s.ends side) m) (fun x hx => h.data side x (headers_deliver _ m ▸ hx))
      (h.contexts side) side
    exact hset.putHeard (List.getElem?_eq_some_iff.1 hm).1
  | miss hn => exact h.putHeard hn

theorem running_send (s : State μ ο) (side : Side) (m : Exchange.Message) (d : Link.Side) :
    ((s.send side m).link d).running = (s.link d).running := by
  unfold State.send
  split
  · dsimp only
    by_cases hd : d = endOf side
    · rw [hd, Link.State.move_self]
      rfl
    · obtain rfl : d = (endOf side).peer := by cases d <;> cases side <;> first | rfl | exact absurd rfl hd
      rw [Link.State.move_peer]
      rfl
  · rfl

/-- A loop that has ended stays so. -/
theorem Acts.running (ha : Acts K env s l s') {d : Link.Side} (h : (s'.link d).running = true) : (s.link d).running = true := by
  cases ha with
  | inside | respond | ignored | hear | miss => exact h
  | transmit | reply => rwa [running_send] at h
  | link hl hs => exact Link.running_of_step hs h

/-- Not a lag of a consumer. -/
def Label.Keeps : Label μ ο → Prop
  | .miss .. => False
  | _ => True

theorem Refines.acts (h : Refines K s t lost) (hgood : Good K bound s) (ha : Acts K env s l s') :
    ∃ ms t' lost', StepSystem.run (Exchange.step env) t ms = some t' ∧ Refines K s' t' lost' ∧
      (l.Keeps → (∀ d, (s'.link d).running = true) → lost' = lost) := by
  have hone : ∀ {x t'}, Exchange.step env t x = some t' → StepSystem.run (Exchange.step env) t [x] = some t' := by
    intro x t' hs
    rw [StepSystem.run_cons, hs]
    rfl
  cases ha with
  | inside hl hs =>
    obtain ⟨t', ht', h'⟩ := h.inside hl hs
    exact ⟨_, t', lost, hone ht', h', fun _ _ => rfl⟩
  | @transmit side i c hc hphase hnew hrun =>
    have hset := h.set side (e := { t side with transmitted := i :: (t side).transmitted }) rfl
    rw [h.same] at hset hc hnew ⊢
    obtain ⟨lost', h', hlost⟩ := hset.send side (requestMessage side i c)
    refine ⟨_, _, lost', hone (x := .transmit side i) ?_, h', fun _ _ => hlost hrun⟩
    refine Option.bind_eq_some_iff.2 ⟨c, hc, ?_⟩
    rw [hphase]
    exact if_neg hnew
  | @respond side k response x packet context hx hrespond =>
    have hset := h.set side (e := { t side with
      contexts := (t side).contexts.set k { x with context := context, answer := some response } }) rfl
    rw [h.same] at hset hx ⊢
    refine ⟨_, _, lost, hone (x := .respond side k response) ?_, hset.queue side ⟨packet, ⟨side, k⟩⟩, fun _ _ => rfl⟩
    refine Option.map_eq_some_iff.2 ⟨x, hx, ?_⟩
    rw [hrespond]
  | ignored => exact ⟨[], t, lost, rfl, h, fun _ _ => rfl⟩
  | @reply side n m hm =>
    obtain ⟨lost', h', hlost⟩ := h.reply hm
    refine ⟨[], t, lost', rfl, h', fun _ hrun => hlost ?_⟩
    have := hrun (endOf side)
    rwa [running_send] at this
  | link hl hs =>
    have hstep := fun side => (link_step hs hl (endOf side) (hgood.wellFormed_coming _) (hgood.heard side)).1
    obtain ⟨lost', h', hlost⟩ := h.less fun side => (hstep side).1
    exact ⟨[], t, lost', rfl, h', fun _ hrun => hlost fun side => (hstep side).2 (hrun _)⟩
  | @hear side m hm =>
    obtain ⟨n, hn, h'⟩ := Refines.hear env h hm
    refine ⟨_, _, lost, hone (x := .deliver side n) ?_, h', fun _ _ => rfl⟩
    exact Option.map_eq_some_iff.2 ⟨m, hn, rfl⟩
  | @miss side n hn =>
    have hless : ∀ side', List.Sublist
        (ahead K (Function.update s.heard side (s.heard side + n) side') (s.link (endOf side').peer) (s.link (endOf side')))
        (ahead K (s.heard side') (s.link (endOf side').peer) (s.link (endOf side'))) := by
      intro side'
      by_cases hs : side' = side
      · rw [hs, Function.update_self, ahead, ahead, ← List.drop_drop]
        exact ((List.drop_sublist ..).append (List.Sublist.refl _)).append (List.Sublist.refl _)
      · rw [Function.update_of_ne hs]
    obtain ⟨lost', h', -⟩ := h.less hless
    exact ⟨[], t, lost', rfl, h', False.elim⟩

theorem refines_start : Refines K (start : State μ ο) Exchange.start fun _ => [] :=
  ⟨rfl, fun side => by cases side <;> exact List.Perm.refl _⟩

/-- Nothing is lost as long as both loops run and no consumer lags. -/
theorem refines_of_run {ls : List (Label μ ο)} (hr : StepSystem.run (step K env) start ls = some s)
    (hbound : bound ≤ 2 ^ 32) (hfits : ∀ l ∈ ls, l.Fits bound) : ∃ ms t lost, StepSystem.run (Exchange.step env) Exchange.start ms = some t ∧
      Refines K s t lost ∧ ((∀ l ∈ ls, l.Keeps) → (∀ d, (s.link d).running = true) → lost = fun _ => []) := by
  obtain ⟨ms, t, ht, -, lost, h, hlost⟩ := StepSystem.run_simulates
    (R := fun s t => Good K bound s ∧ ∃ lost, Refines K s t lost ∧
      ((∀ l ∈ ls, l.Keeps) → (∀ d, (s.link d).running = true) → lost = fun _ => []))
    (G := fun l => l.Fits bound ∧ ((∀ l ∈ ls, l.Keeps) → l.Keeps))
    (fun s l s' t hs ⟨hl, hkeeps⟩ ⟨hgood, lost, h, hlost⟩ => by
      have ha := acts_of_step hs
      obtain ⟨ms, t', lost', ht', h', hlost'⟩ := h.acts hgood ha
      refine ⟨ms, t', ht', hgood.acts ha hl, lost', h', fun hall hrun => ?_⟩
      rw [hlost' (hkeeps hall) hrun, hlost hall fun d => ha.running (hrun d)])
    hr (fun l hl => ⟨hfits l hl, fun hall => hall l hl⟩) ⟨good_start hbound, _, refines_start, fun _ _ => rfl⟩
  exact ⟨ms, t, lost, ht, h, hlost⟩

/-! ### A request is asked once -/

open EndToEnd (isMessage)

/-- The requests an endpoint knows of, or is about to hear of. -/
def requests (e : Endpoint) : List Origin := (e.inbox.filter fun m => isMessage m.packet).map Exchange.Message.origin ++ known e

structure Asked (t : Exchange.State) : Prop where
  once : ∀ side, (requests (t side)).Nodup
  transmitted : ∀ side, ∀ o ∈ requests (t side), o.side = side.peer ∧ o.index ∈ (t side.peer).transmitted
  responds : ∀ side, ∀ x ∈ (t side).contexts, Responds x.context

theorem asked_start : Asked Exchange.start where
  once side := by cases side <;> exact List.nodup_nil
  transmitted _ _ h := absurd h List.not_mem_nil
  responds _ _ h := absurd h List.not_mem_nil

namespace Asked

/-- One endpoint changes; `new` are the requests it hears of for the first time. -/
theorem set (h : Asked t) {e : Endpoint} (new : Option Origin)
    (hrequests : List.Subperm (requests e) (new.toList ++ requests (t side)))
    (hnew : ∀ o ∈ new, o ∉ requests (t side) ∧ o.side = side.peer ∧ o.index ∈ (t side.peer).transmitted)
    (htransmitted : (t side).transmitted ⊆ e.transmitted) (hresponds : ∀ x ∈ e.contexts, Responds x.context) :
    Asked (t.set side e) := by
  have hgrow : ∀ side', (t side').transmitted ⊆ (t.set side e side').transmitted := by
    intro side'
    by_cases hs : side' = side
    · rw [hs, set_self]
      exact htransmitted
    · rw [set_of_ne hs]
      exact List.Subset.refl _
  refine ⟨fun side' => ?_, fun side' o ho => ?_,
    forall_set (P := fun e => ∀ x ∈ e.contexts, Responds x.context) h.responds hresponds side⟩
  · by_cases hs : side' = side
    · rw [hs, set_self]
      obtain ⟨l, hperm, hsub⟩ := hrequests
      refine hperm.nodup_iff.1 (List.Nodup.sublist hsub ?_)
      cases new with
      | none => exact h.once side
      | some o => exact List.nodup_cons.2 ⟨(hnew o rfl).1, h.once side⟩
    · rw [set_of_ne hs]
      exact h.once side'
  · by_cases hs : side' = side
    · subst hs
      rw [set_self] at ho
      obtain ho | ho := List.mem_append.1 (hrequests.subset ho)
      · obtain ⟨-, hside, hindex⟩ := hnew o (Option.mem_toList.1 ho)
        exact ⟨hside, hgrow _ hindex⟩
      · obtain ⟨hside, hindex⟩ := h.transmitted side' o ho
        exact ⟨hside, hgrow _ hindex⟩
    · rw [set_of_ne hs] at ho
      obtain ⟨hside, hindex⟩ := h.transmitted side' o ho
      exact ⟨hside, hgrow _ hindex⟩

theorem requests_inbox (e : Endpoint) (m : Exchange.Message) : List.Perm (requests { e with inbox := e.inbox ++ [m] })
    ((if isMessage m.packet then some m.origin else none).toList ++ requests e) := by
  unfold requests
  show List.Perm (((e.inbox ++ [m]).filter fun m => isMessage m.packet).map Exchange.Message.origin ++ known e) _
  rw [List.filter_append, List.map_append]
  cases hm : isMessage m.packet with
  | false =>
    rw [List.filter_cons_of_neg (by rw [hm]; exact Bool.false_ne_true), List.filter_nil, List.map_nil, List.append_nil]
    exact List.Perm.refl _
  | true =>
    rw [List.filter_cons_of_pos (p := fun m : Exchange.Message => isMessage m.packet) hm, List.append_assoc]
    exact List.perm_middle

/-- A message goes out: a response, or a request that was not asked before. -/
theorem post (h : Asked t) (hm : isMessage m.packet = true →
    m.origin ∉ requests (t side) ∧ m.origin.side = side.peer ∧ m.origin.index ∈ (t side.peer).transmitted) :
    Asked (t.post side m) := by
  refine h.set _ (requests_inbox (t side) m).subperm (fun o ho => ?_) (List.Subset.refl _) (h.responds side)
  split at ho
  · next hmessage =>
    cases ho
    exact hm hmessage
  · cases ho

theorem requests_deliver {e : Endpoint} (hm : e.inbox[n]? = some m) :
    List.Perm (requests (Endpoint.deliver env { e with inbox := e.inbox.eraseIdx n } m)) (requests e) := by
  obtain ⟨hn, heq⟩ := List.getElem?_eq_some_iff.1 hm
  have hperm := (List.getElem_cons_eraseIdx_perm hn).filter fun m => isMessage m.packet
  rw [heq] at hperm
  unfold requests
  show List.Perm (((e.inbox.eraseIdx n).filter fun m => isMessage m.packet).map Exchange.Message.origin ++
    ((e.events ++ (Transport.onEvent env.lib (.messageReceived m.packet)).published.map fun event =>
      (event, m.origin)).map Prod.snd ++
      e.contexts.map Received.origin)) _
  by_cases hresponse : m.packet.header.packetType = .response
  · have hnone : (Transport.onEvent env.lib (.messageReceived m.packet)).published = [] := by
      simp only [Transport.onEvent, hresponse]
    rw [List.filter_cons_of_neg (by simp [isMessage, hresponse])] at hperm
    rw [hnone, List.map_nil, List.append_nil]
    exact (hperm.map Exchange.Message.origin).append_right (known e)
  · rw [List.filter_cons_of_pos (by simp [isMessage, hresponse])] at hperm
    rw [Transport.onEvent_forwards hresponse, List.map_append, List.append_assoc]
    refine List.Perm.trans ?_ ((hperm.map Exchange.Message.origin).append_right (known e))
    rw [← List.append_assoc]
    exact (@List.perm_middle _ _ (_ ++ e.events.map Prod.snd) _).trans (by rw [List.append_assoc]; exact List.Perm.refl _)

theorem transmit (h : Asked t) {c : Requests.Call Bytes Exchange.Message} (hnew : i ∉ (t side).transmitted) :
    Asked ((t.set side { t side with transmitted := i :: (t side).transmitted }).post side.peer (requestMessage side i c)) := by
  have hset : Asked (t.set side { t side with transmitted := i :: (t side).transmitted }) :=
    h.set none (List.Subperm.refl _) (fun o ho => nomatch ho) (List.subset_cons_self ..) (h.responds side)
  refine hset.post fun _ => ⟨fun hold => ?_, (Side.peer_peer side).symm, ?_⟩
  · rw [set_of_ne (peer_ne side)] at hold
    have hindex := (h.transmitted side.peer _ hold).2
    rw [Side.peer_peer] at hindex
    exact hnew hindex
  · rw [Side.peer_peer, set_self]
    exact List.mem_cons_self

theorem respond (h : Asked t) {x : Received} (hx : (t side).contexts[k]? = some x) {response : Bytes} {packet : Packet}
    {context : TransportContext} (hrespond : x.context.respond response = (some packet, context)) :
    Asked ((t.set side { t side with
      contexts := (t side).contexts.set k { x with context := context, answer := some response } }).post side.peer
        ⟨packet, ⟨side, k⟩⟩) := by
  obtain ⟨responder, isPrimary, hkind, rfl, hkind'⟩ := respond_cases hrespond
  obtain ⟨id, rfl⟩ := h.responds side x (List.mem_of_getElem? hx) _ _ _ hkind
  have horigins : ((t side).contexts.set k { x with context := context, answer := some response }).map Received.origin =
      (t side).contexts.map Received.origin :=
    Indexed.map_set_of_eq hx rfl
  refine post (h.set none ?_ (fun o ho => nomatch ho) (List.Subset.refl _) fun y hy => ?_) fun hmessage => ?_
  · show List.Subperm (requests _) (requests (t side))
    unfold requests known
    rw [horigins]
  · obtain hy | rfl := List.mem_or_eq_of_mem_set hy
    · exact h.responds side y hy
    · intro responder responded isPrimary' hkind''
      cases hkind'.symm.trans hkind''
      exact ⟨id, rfl⟩
  · cases hmessage

theorem step {l : Exchange.Label} (hs : Exchange.step env t l = some t') (h : Asked t) : Asked t' := by
  by_cases hl : isInside l = true
  · obtain ⟨side, e, rfl, he⟩ := inside_cases hl hs
    refine h.set none ?_ (fun o ho => nomatch ho) (by rw [he.transmitted]; exact List.Subset.refl _) fun x hx => ?_
    · show List.Subperm (requests e) (requests (t side))
      unfold requests
      rw [he.inbox]
      exact (List.subperm_append_left _).2 he.known
    · obtain hx | ⟨event, hx⟩ := he.contexts x hx
      · exact h.responds side x hx
      · exact responds_contextsOf hx
  · cases l with
    | transmit side i =>
      obtain ⟨c, hc, hnew, rfl⟩ := step_transmit hs
      exact h.transmit hnew
    | deliver side n =>
      obtain ⟨m, hm, rfl⟩ := Option.map_eq_some_iff.1 hs
      exact h.set none (requests_deliver hm).subperm (fun o ho => nomatch ho) (List.Subset.refl _) (h.responds side)
    | respond side k response =>
      obtain ⟨x, hx, rfl⟩ := Option.map_eq_some_iff.1 hs
      split
      · next hrespond => exact h.respond hx hrespond
      · exact h
    | request | register | sent | finish | timeout | forward => exact absurd rfl hl

end Asked

/-! ### Requests over a link -/

theorem exchange_inv {ms : List Exchange.Label} (hr : StepSystem.run (Exchange.step env) Exchange.start ms = some t)
    (hdistinct : ∀ side, (t side).ids.Nodup) : Exchange.Inv t := by
  have hback : ∀ u l u', Exchange.step env u l = some u' → (∀ side, (u' side).ids.Nodup) → ∀ side, (u side).ids.Nodup :=
    fun u l u' hs hnodup side => (hnodup side).sublist ((headers_grow hs side).sublist.map Prod.snd)
  exact StepSystem.run_invariant_of_meets (fun u l u' hs hnodup h => h.step (hback u l u' hs (hnodup u' hs)) hs) hr
    (StepSystem.meets_of_back hback hr hdistinct) .start

/-- Of two real event loops: a run is one of the exchange, but for what is lost on the way; no request is asked twice, and no
answer goes to another call than the one that asked. -/
theorem requests_over_link {ls : List (Label μ ο)} (hr : StepSystem.run (step K env) start ls = some s)
    (hfits : ∀ l ∈ ls, l.Fits (2 ^ 32)) : (∃ ms t lost, StepSystem.run (Exchange.step env) Exchange.start ms = some t ∧
        Refines K s t lost ∧ ((∀ l ∈ ls, l.Keeps) → (∀ d, (s.link d).running = true) → lost = fun _ => [])) ∧
      (∀ side, ((s.ends side).contexts.map Received.origin).Nodup) ∧
      ((∀ side, (s.ends side).ids.Nodup) → Matched s.ends) := by
  obtain ⟨ms, t, lost, ht, h, hlost⟩ := refines_of_run hr (Nat.le_refl _) hfits
  refine ⟨⟨ms, t, lost, ht, h, hlost⟩, fun side => ?_, fun hdistinct => ?_⟩
  · have hasked : Asked t := StepSystem.run_invariant (fun _ _ _ hs h => h.step hs) ht asked_start
    rw [h.same]
    exact (List.nodup_append.1 (List.nodup_append.1 (hasked.once side)).2.1).2.1
  · rw [h.same] at hdistinct ⊢
    have hmatched := (exchange_inv ht hdistinct).matched
    exact ⟨hmatched.answered, hmatched.once, hmatched.ownSide, hmatched.late⟩

/-- Both sides use id 7. The client hears a ping and the answer; its own response is still queued when its loop stops, and the
server's call times out. -/
theorem requests_over_link_crossing :
    let env : Env := ⟨⟨none, none⟩, 1, fun _ => false⟩
    let ls : List (Label Message WebSocketLoop.Outcome) := [.inside (.request .client [1] 7), .inside (.request .server [2] 7),
      .inside (.register .client 0), .inside (.register .server 0), .transmit .server 0, .inside (.sent .server 0 true),
      .transmit .client 0, .link (.write .right), .link (.control .right .ping), .link (.write .left), .link (.read .left),
      .link (.read .left), .link (.read .right), .hear .client, .hear .server, .inside (.forward .client 0),
      .inside (.forward .server 0), .respond .server 0 [11], .respond .client 0 [10], .reply .server 0, .link (.write .right),
      .link (.read .left), .hear .client, .reply .client 0, .inside (.sent .client 0 true), .link (.stop .left),
      .inside (.timeout .server 0), .inside (.finish .client 0)]
    ∃ s, StepSystem.run (step (.webSocket WebSocketLink.nextOf WebSocketLink.limits_nextOf) env) start ls = some s ∧
      Returned s.ends .client 0 ⟨responsePacket 7 [11], ⟨.server, 0⟩⟩ ∧ TimedOut s.ends .server 0 ∧ Matched s.ends := by
  intro env ls
  obtain ⟨s, hr, hdistinct, hreturned, htimedOut⟩ : ∃ s, StepSystem.run (step (.webSocket WebSocketLink.nextOf WebSocketLink.limits_nextOf) env) start ls = some s ∧
      (∀ side, (s.ends side).ids.Nodup) ∧ Returned s.ends .client 0 ⟨responsePacket 7 [11], ⟨.server, 0⟩⟩ ∧
        TimedOut s.ends .server 0 := by
    refine ⟨_, rfl, fun side => ?_, ⟨_, rfl, rfl⟩, ⟨_, rfl, rfl⟩⟩
    cases side <;> decide
  exact ⟨s, hr, hreturned, htimedOut, (requests_over_link hr (by simp [ls, Label.Fits])).2.2 hdistinct⟩

end RequestsOverLink

end Msgtrans
