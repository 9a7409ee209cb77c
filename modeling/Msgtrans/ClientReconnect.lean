import Mathlib.Algebra.BigOperators.Group.Multiset.Basic
import Msgtrans.Delivery
import Msgtrans.Lib.Indexed
import Msgtrans.Lib.Relay
import Msgtrans.Lib.Run
import Msgtrans.Pump

/-!
# A client that connects again (`transport/client.rs`)

`connect` tries the stored configuration up to `max_retries + 1` times, and each time it succeeds it starts another
forwarding task on the channel of the one `Transport` the client has. Nothing ends the earlier ones: they end at a lag
only. So every event is converted and published once by each forwarder that comes to it: `copies_of_run`.

What `calculate_retry_delay` makes `connect` wait between attempts is left out; it is taken to be a duration (the conversion
from seconds panics for a negative `backoff_multiplier`).
-/

namespace Msgtrans

/-- A boxed `DynClientConfig`: its `protocol_name`, what it can be downcast to, and what its `validate_dyn` returns, an
error by its debug text. -/
structure ProtocolConfig where
  protocolName : String
  concrete : Option Protocol
  validate : Except String Unit

namespace TransportClient

/-- The branch of `connect_with_stored_config` that dials, or the error it returns at once. -/
def dialable (config : ProtocolConfig) : Except TransportError Unit :=
  match config.protocolName with
  | "tcp" =>
    if config.concrete = some .tcp then .ok () else .error (.configuration "protocol" "Invalid TCP config")
  | "websocket" =>
    if config.concrete = some .webSocket then .ok () else .error (.configuration "protocol" "Invalid WebSocket config")
  | "quic" =>
    if config.concrete = some .quic then .ok () else .error (.configuration "protocol" "Invalid QUIC config")
  | name => .error (.configuration "protocol" ("Unsupported protocol: " ++ name))

/-- The attempts from `attempt` on, `remaining` of them, with `dial k` what `inner.connect_with_config` returns at
attempt `k`; with the number of attempts that were dialled. -/
def attempts (config : ProtocolConfig) (dial : ℕ → Except TransportError SessionId) :
    ℕ → ℕ → Option TransportError → Except TransportError SessionId × ℕ
  | 0, attempt, lastError => (.error (lastError.getD (.connection "Connection failed after all retries" true)), attempt)
  | remaining + 1, attempt, _ =>
    match dialable config with
    | .error e => (.error e, attempt)
    | .ok _ =>
      match dial attempt with
      | .ok sessionId => (.ok sessionId, attempt + 1)
      | .error e => attempts config dial remaining (attempt + 1) (some e)

def connectWithStoredConfig (config : ProtocolConfig) (maxRetries : ℕ) (dial : ℕ → Except TransportError SessionId) :
    Except TransportError SessionId × ℕ :=
  attempts config dial (maxRetries + 1) 0 none

end TransportClient

namespace ClientReconnect

open Broadcast

structure Client where
  protocolConfig : Option ProtocolConfig
  maxRetries : ℕ
  currentSessionId : Option SessionId
  /-- the channel of `inner` -/
  transport : Channel TransportEvent
  forwarders : List (Relay TransportEvent)
  events : Channel ClientEvent

def Client.new (protocolConfig : Option ProtocolConfig) (maxRetries : ℕ) : Client :=
  ⟨protocolConfig, maxRetries, none, .new EventPump.clientForwarding.capacity, [], .new 16⟩

def noProtocolConfig : String :=
  "No protocol config specified. Use TransportClientBuilder::with_protocol() when building."

/-- `connect`: what it returns, and the number of attempts. -/
def connect (c : Client) (dial : ℕ → Except TransportError SessionId) : (Except TransportError Unit × ℕ) × Client :=
  match c.protocolConfig with
  | none => ((.error (.configuration "protocol" noProtocolConfig), 0), c)
  | some config =>
    match config.validate with
    | .error e => ((.error (.configuration "protocol" ("Config validation failed: " ++ e)), 0), c)
    | .ok _ =>
      match TransportClient.connectWithStoredConfig config c.maxRetries dial with
      | (.error e, dials) => ((.error e, dials), c)
      | (.ok sessionId, dials) =>
        -- `start_event_forwarding` subscribes before the task is spawned
        ((.ok (), dials), { c with
          currentSessionId := some sessionId
          forwarders := c.forwarders ++ [.subscribe c.transport] })

/-- `disconnect` and `force_disconnect`, with what closing the session returned. -/
def leave (c : Client) (closed : Except TransportError Unit) : Except TransportError Unit × Client :=
  match c.currentSessionId with
  | some _ => (closed, { c with currentSessionId := none })
  | none => (.error (.connection "Not connected" false), c)

def disconnect (c : Client) (closed : Except TransportError Unit) : Except TransportError Unit × Client := leave c closed

def forceDisconnect (c : Client) (closed : Except TransportError Unit) : Except TransportError Unit × Client := leave c closed

inductive Label where
  | connect (dial : ℕ → Except TransportError SessionId)
  | disconnect (closed : Except TransportError Unit)
  | forceDisconnect (closed : Except TransportError Unit)
  /-- `on_event` of whichever connection -/
  | publish (event : TransportEvent)
  | recv (j : ℕ)
  | forward (j : ℕ)

def step (c : Client) : Label → Option Client
  | .connect dial => some (connect c dial).2
  | .disconnect closed => some (disconnect c closed).2
  | .forceDisconnect closed => some (forceDisconnect c closed).2
  | .publish event => some { c with transport := c.transport.send event }
  | .recv j => c.forwarders[j]?.map fun r => { c with forwarders := c.forwarders.set j (r.poll c.transport) }
  | .forward j => c.forwarders[j]?.bind fun r => r.finish.map fun (event, r') =>
      { c with
        forwarders := c.forwarders.set j r'
        events := c.events.sendAll (TransportClient.forward event).toList }

/-! ### `connect` -/

section Connect

open TransportClient

variable {config : ProtocolConfig} {dial : ℕ → Except TransportError SessionId} {c : Client}

def Fails (dial : ℕ → Except TransportError SessionId) (k : ℕ) : Prop := ∃ e, dial k = .error e

/-- The attempts end at the first success, or with the error of the last one. -/
theorem attempts_cases (hdial : dialable config = .ok ()) (remaining attempt : ℕ) (lastError : Option TransportError) :
    (∃ k sessionId, attempt ≤ k ∧ k < attempt + remaining ∧ dial k = .ok sessionId ∧ (∀ j, attempt ≤ j → j < k → Fails dial j) ∧
        attempts config dial remaining attempt lastError = (.ok sessionId, k + 1)) ∨
      (∀ j, attempt ≤ j → j < attempt + remaining → Fails dial j) ∧
        ∃ e, (remaining = 0 ∨ dial (attempt + remaining - 1) = .error e) ∧
          attempts config dial remaining attempt lastError = (.error e, attempt + remaining) := by
  induction remaining generalizing attempt lastError with
  | zero => exact .inr ⟨fun j hj hlt => absurd hlt (by omega), _, .inl rfl, rfl⟩
  | succ remaining ih =>
    cases hd : dial attempt with
    | ok sessionId =>
      refine .inl ⟨attempt, sessionId, Nat.le_refl _, by omega, hd, fun j hj hlt => absurd hlt (by omega), ?_⟩
      rw [attempts, hdial, hd]
    | error e =>
      have hnext : attempts config dial (remaining + 1) attempt lastError =
          attempts config dial remaining (attempt + 1) (some e) := by rw [attempts, hdial, hd]
      have hfails : ∀ {j}, attempt ≤ j → (attempt + 1 ≤ j → Fails dial j) → Fails dial j := by
        intro j hj h
        rcases Nat.eq_or_lt_of_le hj with rfl | hlt
        · exact ⟨e, hd⟩
        · exact h hlt
      rw [hnext]
      rcases ih (attempt + 1) (some e) with ⟨k, sessionId, hle, hlt, hk, hbefore, heq⟩ | ⟨hall, e', he', heq⟩
      · refine .inl ⟨k, sessionId, by omega, by omega, hk, fun j hj hjk => ?_, heq⟩
        exact hfails hj fun h => hbefore j h hjk
      · refine .inr ⟨fun j hj hjr => hfails hj fun h => hall j h (by omega), ?_⟩
        rcases Nat.eq_zero_or_pos remaining with rfl | hpos
        · exact ⟨e, .inr hd, rfl⟩
        · refine ⟨e', .inr ?_, ?_⟩
          · rw [← he'.resolve_left (by omega)]
            congr 1
            omega
          · rw [heq]
            congr 1
            omega

/-- What a call of `connect` comes to. -/
structure Connects (c : Client) (dial : ℕ → Except TransportError SessionId) : Prop where
  /-- it is connected exactly when the configuration is there, valid and of a known kind and one of the attempts
  succeeds: then with the session of the first that does, after it no more are made, and with one forwarder more -/
  ok : (connect c dial).1.1 = .ok () ↔ ∃ config, c.protocolConfig = some config ∧ config.validate = .ok () ∧
    dialable config = .ok () ∧ ∃ k sessionId, k ≤ c.maxRetries ∧ dial k = .ok sessionId ∧ (∀ j < k, Fails dial j) ∧
      connect c dial = ((.ok (), k + 1), { c with
        currentSessionId := some sessionId, forwarders := c.forwarders ++ [.subscribe c.transport] })
  error : ∀ e, (connect c dial).1.1 = .error e → (connect c dial).2 = c
  /-- after a configuration that can be dialled, the error is that of the last of all the attempts -/
  exhausted : ∀ e config, c.protocolConfig = some config → config.validate = .ok () → dialable config = .ok () →
    ((connect c dial).1.1 = .error e ↔ dial c.maxRetries = .error e ∧ ∀ j ≤ c.maxRetries, Fails dial j)
  /-- the others are refused before anything is dialled -/
  refused : (∀ config, c.protocolConfig = some config → config.validate = .ok () → dialable config ≠ .ok ()) →
    (connect c dial).1.2 = 0 ∧ ∃ field reason, (connect c dial).1.1 = .error (.configuration field reason)
  bounded : (connect c dial).1.2 ≤ c.maxRetries + 1

theorem connectWithStoredConfig_cases (hdial : dialable config = .ok ()) (maxRetries : ℕ) :
    (∃ k sessionId, k ≤ maxRetries ∧ dial k = .ok sessionId ∧ (∀ j < k, Fails dial j) ∧
        connectWithStoredConfig config maxRetries dial = (.ok sessionId, k + 1)) ∨
      (∀ j ≤ maxRetries, Fails dial j) ∧ ∃ e, dial maxRetries = .error e ∧
        connectWithStoredConfig config maxRetries dial = (.error e, maxRetries + 1) := by
  rcases attempts_cases hdial (maxRetries + 1) 0 none with ⟨k, sessionId, -, hlt, hk, hbefore, heq⟩ | ⟨hall, e, he, heq⟩
  · exact .inl ⟨k, sessionId, by omega, hk, fun j hj => hbefore j (Nat.zero_le j) hj, heq⟩
  · refine .inr ⟨fun j hj => hall j (Nat.zero_le j) (by omega), e, ?_, heq.trans (by rw [Nat.zero_add])⟩
    have := he.resolve_left (Nat.succ_ne_zero _)
    rwa [Nat.zero_add, Nat.add_sub_cancel] at this

theorem connectWithStoredConfig_of_refused {e : TransportError} (hdial : dialable config = .error e) (maxRetries : ℕ) :
    connectWithStoredConfig config maxRetries dial = (.error e, 0) := by
  rw [connectWithStoredConfig, attempts, hdial]

theorem exists_of_dialable_error {e : TransportError} (h : dialable config = .error e) :
    ∃ field reason, e = .configuration field reason := by
  unfold dialable at h
  split at h
  · split at h <;> cases h
    exact ⟨_, _, rfl⟩
  · split at h <;> cases h
    exact ⟨_, _, rfl⟩
  · split at h <;> cases h
    exact ⟨_, _, rfl⟩
  · cases h
    exact ⟨_, _, rfl⟩

/-- A call is refused before it dials, or all its attempts fail, or one succeeds. -/
theorem connect_cases (c : Client) (dial : ℕ → Except TransportError SessionId) :
    ((∀ config, c.protocolConfig = some config → config.validate = .ok () → dialable config ≠ .ok ()) ∧
        ∃ field reason, connect c dial = ((.error (.configuration field reason), 0), c)) ∨
      ∃ config, c.protocolConfig = some config ∧ config.validate = .ok () ∧ dialable config = .ok () ∧
        ((∃ k sessionId, k ≤ c.maxRetries ∧ dial k = .ok sessionId ∧ (∀ j < k, Fails dial j) ∧
            connect c dial = ((.ok (), k + 1), { c with
              currentSessionId := some sessionId, forwarders := c.forwarders ++ [.subscribe c.transport] })) ∨
          (∀ j ≤ c.maxRetries, Fails dial j) ∧ ∃ e, dial c.maxRetries = .error e ∧
            connect c dial = ((.error e, c.maxRetries + 1), c)) := by
  rcases Option.eq_none_or_eq_some c.protocolConfig with hc | ⟨config, hc⟩
  · refine .inl ⟨fun config h => ?_, "protocol", noProtocolConfig, ?_⟩
    · rw [hc] at h
      cases h
    · simp only [connect, hc]
  have hsame : ∀ config', c.protocolConfig = some config' → config' = config :=
    fun config' h => Option.some.inj (h.symm.trans hc)
  cases hv : config.validate with
  | error e =>
    refine .inl ⟨fun config' h hok => ?_, "protocol", "Config validation failed: " ++ e, ?_⟩
    · rw [hsame config' h, hv] at hok
      cases hok
    · simp only [connect, hc, hv]
  | ok =>
    cases hdial : dialable config with
    | error e =>
      obtain ⟨field, reason, rfl⟩ := exists_of_dialable_error hdial
      refine .inl ⟨fun config' h _ hok => ?_, field, reason, ?_⟩
      · rw [hsame config' h, hdial] at hok
        cases hok
      · simp only [connect, hc, hv, connectWithStoredConfig_of_refused hdial]
    | ok =>
      refine .inr ⟨config, hc, hv, hdial, ?_⟩
      rcases connectWithStoredConfig_cases hdial c.maxRetries with ⟨k, sessionId, hle, hk, hbefore, heq⟩ | ⟨hall, e, he, heq⟩
      · exact .inl ⟨k, sessionId, hle, hk, hbefore, by simp only [connect, hc, hv, heq]⟩
      · exact .inr ⟨hall, e, he, by simp only [connect, hc, hv, heq]⟩

theorem connects (c : Client) (dial : ℕ → Except TransportError SessionId) : Connects c dial := by
  rcases connect_cases c dial with ⟨hnone, field, reason, heq⟩ | ⟨config, hc, hv, hdial, h⟩
  · refine ⟨⟨fun h => ?_, ?_⟩, fun e _ => by rw [heq], fun e config hc hv hdial => absurd hdial (hnone config hc hv),
      fun _ => ?_, ?_⟩
    · rw [heq] at h
      cases h
    · rintro ⟨config, hc, hv, hdial, -⟩
      exact absurd hdial (hnone config hc hv)
    · rw [heq]
      exact ⟨rfl, field, reason, rfl⟩
    · rw [heq]
      exact Nat.zero_le _
  · rcases h with ⟨k, sessionId, hle, hk, hbefore, heq⟩ | ⟨hall, e, he, heq⟩
    · refine ⟨⟨fun _ => ⟨config, hc, hv, hdial, k, sessionId, hle, hk, hbefore, heq⟩, fun _ => by rw [heq]⟩,
        fun e h => ?_, fun e config' _ _ _ => ⟨fun h => ?_, fun h => ?_⟩, fun h => absurd hdial (h config hc hv), ?_⟩
      · rw [heq] at h
        cases h
      · rw [heq] at h
        cases h
      · obtain ⟨e', he'⟩ := h.2 k hle
        rw [hk] at he'
        cases he'
      · rw [heq]
        exact Nat.succ_le_succ hle
    · refine ⟨⟨fun h => ?_, ?_⟩, fun _ _ => by rw [heq], fun e' config' _ _ _ => ?_, fun h => absurd hdial (h config hc hv), ?_⟩
      · rw [heq] at h
        cases h
      · rintro ⟨config', -, -, -, k, sessionId, hle, hk, -⟩
        obtain ⟨e', he'⟩ := hall k hle
        rw [hk] at he'
        cases he'
      · have herr : (connect c dial).1.1 = .error e := by rw [heq]
        rw [herr, he]
        constructor
        · intro h
          cases h
          exact ⟨rfl, hall⟩
        · rintro ⟨h, -⟩
          cases h
          rfl
      · rw [heq]

end Connect

/-! ### The copies -/

/-- What one forwarder has published. -/
def output (r : Relay TransportEvent) : List ClientEvent := r.handled.filterMap TransportClient.forward

def Label.published : Label → Option TransportEvent
  | .publish event => some event
  | _ => none

/-- A connect that succeeds begins a copy of what is published from here on. -/
def Label.begins (c : Client) : Label → List ℕ
  | .connect dial => if (ClientReconnect.connect c dial).1.1.isOk then [c.transport.sent.length] else []
  | _ => []

/-- The successful connects of a run: of each, how many events were published before it. -/
def starts : Client → List Label → List ℕ
  | _, [] => []
  | c, l :: ls => l.begins c ++ match step c l with
    | some c' => starts c' ls
    | none => []

/-- `published` is what the connections of the run have published, `starts` where its successful connects stand in it. -/
structure Law (published : List TransportEvent) (starts : List ℕ) (c : Client) : Prop where
  sent : c.transport.sent = published
  /-- each successful connect has added one forwarder, for what comes after it, and it is there to the end -/
  begun : c.forwarders.map Relay.start = starts
  /-- the client's events are those of its forwarders, mixed -/
  copies : (c.events.sent : Multiset ClientEvent) = (c.forwarders.map fun r => (output r : Multiset ClientEvent)).sum
  ordered : ∀ r ∈ c.forwarders, (output r).Sublist c.events.sent
  forwarded : ∀ r ∈ c.forwarders, output r <+: (published.drop r.start).filterMap TransportClient.forward
  /-- all have caught up: what was published from position `k` on, after the last connect, is there as often as there
  were connects -/
  repeated : (∀ r ∈ c.forwarders, r.CaughtUp c.transport) → ∀ k, (∀ start ∈ starts, start ≤ k) →
    ∃ earlier : Multiset ClientEvent, (c.events.sent : Multiset ClientEvent) =
      earlier + starts.length • ((published.drop k).filterMap TransportClient.forward : Multiset ClientEvent)
  /-- after one connect there is nothing double and nothing out of order -/
  single : ∀ start, starts = [start] → c.events.sent <+: (published.drop start).filterMap TransportClient.forward

structure Inv (c : Client) : Prop where
  on : ∀ r ∈ c.forwarders, r.On c.transport
  copies : (c.events.sent : Multiset ClientEvent) = (c.forwarders.map fun r => (output r : Multiset ClientEvent)).sum
  ordered : ∀ r ∈ c.forwarders, (output r).Sublist c.events.sent
  single : ∀ r, c.forwarders = [r] → c.events.sent = output r
  none : c.forwarders = [] → c.events.sent = []

section

variable {c c' : Client} {l : Label} {j : ℕ} {r r' : Relay TransportEvent}

theorem Inv.new (protocolConfig : Option ProtocolConfig) (maxRetries : ℕ) : Inv (.new protocolConfig maxRetries) :=
  ⟨fun _ h => absurd h List.not_mem_nil, rfl, fun _ h => absurd h List.not_mem_nil, fun _ h => (nomatch h), fun _ => rfl⟩

theorem Inv.connected (h : Inv c) (sessionId : Option SessionId) : Inv { c with
    currentSessionId := sessionId, forwarders := c.forwarders ++ [.subscribe c.transport] } := by
  refine ⟨fun r hr => ?_, ?_, fun r hr => ?_, fun r hr => ?_, fun hr => absurd hr (by simp)⟩
  · rcases List.mem_append.1 hr with hr | hr
    · exact h.on r hr
    · rw [List.mem_singleton.1 hr]
      exact .subscribe _
  · show (c.events.sent : Multiset ClientEvent) = _
    rw [List.map_append, List.sum_append, ← h.copies]
    exact (add_zero _).symm
  · rcases List.mem_append.1 hr with hr | hr
    · exact h.ordered r hr
    · rw [List.mem_singleton.1 hr]
      exact List.nil_sublist _
  · -- the only forwarder is the new one, which has done nothing
    obtain ⟨hnil, hr⟩ := List.append_inj' (hr.trans (List.nil_append [r]).symm) rfl
    cases hr
    exact h.none hnil

/-- An update of one forwarder that publishes what its output grows by. -/
theorem Inv.set (h : Inv c) (hr : c.forwarders[j]? = some r) (hon : r'.On c.transport) (more : List ClientEvent)
    (hout : output r' = output r ++ more) : Inv { c with
      forwarders := c.forwarders.set j r', events := c.events.sendAll more } := by
  have hmem : r ∈ c.forwarders := List.mem_of_getElem? hr
  refine ⟨fun q hq => ?_, ?_, fun q hq => ?_, fun q hq => ?_, fun hnil => ?_⟩
  · rcases List.mem_or_eq_of_mem_set hq with hq | rfl
    · exact h.on q hq
    · exact hon
  · have hsum := Indexed.sum_map_set_add (f := fun r => (output r : Multiset ClientEvent)) (y := r') hr
    show ((c.events.sent ++ more : List ClientEvent) : Multiset ClientEvent) = _
    rw [← Multiset.coe_add, h.copies]
    refine add_right_cancel (b := (output r : Multiset ClientEvent)) ?_
    rw [hsum, hout, ← Multiset.coe_add, add_assoc, add_comm (more : Multiset ClientEvent)]
  · rcases List.mem_or_eq_of_mem_set hq with hq | rfl
    · exact (h.ordered q hq).trans (List.sublist_append_left ..)
    · rw [hout]
      exact (h.ordered r hmem).append (List.Sublist.refl _)
  · have hlen := congrArg List.length hq
    rw [List.length_set] at hlen
    obtain ⟨q', hq'⟩ := List.length_eq_one_iff.1 hlen
    have hone := hr
    rw [hq'] at hone hmem
    cases List.mem_singleton.1 hmem
    have hj : j = 0 := by
      have := (List.getElem?_eq_some_iff.1 hone).1
      rw [List.length_singleton] at this
      omega
    subst hj
    replace hq : c.forwarders.set 0 r' = [q] := hq
    rw [hq'] at hq
    cases hq
    rw [hout, ← h.single _ hq']
    rfl
  · have hlen := congrArg List.length hnil
    rw [List.length_set] at hlen
    rw [List.eq_nil_of_length_eq_zero hlen] at hmem
    cases hmem

theorem Inv.leave (h : Inv c) (closed : Except TransportError Unit) : Inv (leave c closed).2 := by
  unfold ClientReconnect.leave
  split
  · exact ⟨h.on, h.copies, h.ordered, h.single, h.none⟩
  · exact h

theorem Inv.step (h : Inv c) (hs : step c l = some c') : Inv c' := by
  cases l with
  | connect dial =>
    cases hs
    rcases connect_cases c dial with ⟨-, field, reason, heq⟩ | ⟨config, -, -, -, ⟨k, sessionId, -, -, -, heq⟩ | ⟨-, e, -, heq⟩⟩
    · rw [heq]
      exact h
    · rw [heq]
      exact h.connected _
    · rw [heq]
      exact h
  | disconnect closed =>
    cases hs
    exact h.leave closed
  | forceDisconnect closed =>
    cases hs
    exact h.leave closed
  | publish event =>
    cases hs
    exact ⟨fun r hr => (h.on r hr).sendAll _, h.copies, h.ordered, h.single, h.none⟩
  | recv j =>
    obtain ⟨r, hr, rfl⟩ := Option.map_eq_some_iff.1 hs
    have hset := h.set hr (h.on r (List.mem_of_getElem? hr)).poll []
      (by rw [output, Relay.handled_poll, List.append_nil]; rfl)
    have hsame : c.events.sendAll [] = c.events := by rw [Channel.sendAll, List.append_nil]
    rwa [hsame] at hset
  | forward j =>
    obtain ⟨r, hr, hs⟩ := Option.bind_eq_some_iff.1 hs
    obtain ⟨⟨event, r'⟩, hf, rfl⟩ := Option.map_eq_some_iff.1 hs
    obtain ⟨hon, hhandled, -⟩ := (h.on r (List.mem_of_getElem? hr)).finish hf
    refine h.set hr hon _ ?_
    rw [output, hhandled, List.filterMap_append, output, List.filterMap_cons, List.filterMap_nil]
    cases TransportClient.forward event <;> rfl

/-- What a step publishes, and the copies it begins; whatever else it does, no forwarder goes or begins elsewhere. -/
theorem begins_of_step (hs : step c l = some c') : c'.transport.sent = c.transport.sent ++ l.published.toList ∧
    c'.forwarders.map Relay.start = c.forwarders.map Relay.start ++ l.begins c := by
  cases l with
  | connect dial =>
    cases hs
    rcases connect_cases c dial with ⟨-, field, reason, heq⟩ | ⟨config, -, -, -, ⟨k, sessionId, -, -, -, heq⟩ | ⟨-, e, -, heq⟩⟩
    · rw [Label.begins, heq]
      exact ⟨(List.append_nil _).symm, (List.append_nil _).symm⟩
    · rw [Label.begins, heq]
      exact ⟨(List.append_nil _).symm, List.map_append⟩
    · rw [Label.begins, heq]
      exact ⟨(List.append_nil _).symm, (List.append_nil _).symm⟩
  | disconnect closed | forceDisconnect closed =>
    cases hs
    simp only [disconnect, forceDisconnect, ClientReconnect.leave, Label.begins, List.append_nil]
    split <;> exact ⟨(List.append_nil _).symm, rfl⟩
  | publish event =>
    cases hs
    exact ⟨rfl, (List.append_nil (c.forwarders.map Relay.start)).symm⟩
  | recv j =>
    obtain ⟨r, hr, rfl⟩ := Option.map_eq_some_iff.1 hs
    have hstart := Indexed.map_set_of_eq (f := Relay.start) hr (Relay.start_poll c.transport r)
    exact ⟨(List.append_nil _).symm, hstart.trans (List.append_nil _).symm⟩
  | forward j =>
    obtain ⟨r, hr, hs⟩ := Option.bind_eq_some_iff.1 hs
    obtain ⟨⟨event, r'⟩, hf, rfl⟩ := Option.map_eq_some_iff.1 hs
    have hstart := Indexed.map_set_of_eq (f := Relay.start) (y := r') hr (by rw [(Relay.finish_eq_some.1 hf).2])
    exact ⟨(List.append_nil _).symm, hstart.trans (List.append_nil _).symm⟩

theorem starts_of_run {ls : List Label} (hr : StepSystem.run step c ls = some c') :
    c'.transport.sent = c.transport.sent ++ ls.filterMap Label.published ∧
      c'.forwarders.map Relay.start = c.forwarders.map Relay.start ++ starts c ls := by
  induction ls generalizing c with
  | nil =>
    cases hr
    exact ⟨(List.append_nil _).symm, (List.append_nil _).symm⟩
  | cons l ls ih =>
    obtain ⟨d, hs, hr⟩ := StepSystem.run_cons_eq_some.1 hr
    obtain ⟨hsent, hstarts⟩ := begins_of_step hs
    obtain ⟨hsent', hstarts'⟩ := ih hr
    refine ⟨?_, ?_⟩
    · rw [hsent', hsent, List.append_assoc]
      cases hl : l.published with
      | none => rw [List.filterMap_cons_none hl]; rfl
      | some event => rw [List.filterMap_cons_some hl]; rfl
    · rw [hstarts', hstarts, List.append_assoc, starts, hs]

theorem Inv.law {published : List TransportEvent} {starts : List ℕ} (h : Inv c) (hpublished : c.transport.sent = published)
    (hstarts : c.forwarders.map Relay.start = starts) : Law published starts c := by
  subst hpublished hstarts
  refine ⟨rfl, rfl, h.copies, h.ordered, fun r hr => (h.on r hr).handled_isPrefix.filterMap _, fun hc k hk => ?_,
    fun start hstart => ?_⟩
  · replace hk : ∀ r ∈ c.forwarders, r.start ≤ k := fun r hr => hk _ (List.mem_map_of_mem hr)
    -- each output is what it published up to `k`, then the rest
    have hsplit : ∀ r ∈ c.forwarders, output r = ((c.transport.sent.drop r.start).take (k - r.start)).filterMap
        TransportClient.forward ++ (c.transport.sent.drop k).filterMap TransportClient.forward := by
      intro r hr
      have hdrop : (c.transport.sent.drop r.start).drop (k - r.start) = c.transport.sent.drop k := by
        rw [List.drop_drop, Nat.add_sub_cancel' (hk r hr)]
      rw [output, (h.on r hr).handled_of_caughtUp (hc r hr), ← List.filterMap_append, ← hdrop, List.take_append_drop]
    refine ⟨(c.forwarders.map fun r => (((c.transport.sent.drop r.start).take (k - r.start)).filterMap
      TransportClient.forward : Multiset ClientEvent)).sum, ?_⟩
    have hmap : (c.forwarders.map fun r => (output r : Multiset ClientEvent)) =
        c.forwarders.map fun r => (((c.transport.sent.drop r.start).take (k - r.start)).filterMap
          TransportClient.forward : Multiset ClientEvent) +
          ((c.transport.sent.drop k).filterMap TransportClient.forward : Multiset ClientEvent) :=
      List.map_congr_left fun r hr => by rw [hsplit r hr, ← Multiset.coe_add]
    rw [h.copies, hmap, List.sum_map_add, List.map_const', List.sum_replicate, List.length_map]
  · obtain ⟨r, hr, rfl⟩ := List.map_eq_singleton_iff.1 hstart
    have hmem : r ∈ c.forwarders := by rw [hr]; exact List.mem_singleton_self r
    rw [h.single r hr]
    exact (h.on r hmem).handled_isPrefix.filterMap _

/-- Over every run of a client: an event comes once for each connect that succeeded before it. -/
theorem copies_of_run {protocolConfig : Option ProtocolConfig} {maxRetries : ℕ} {ls : List Label}
    (hr : StepSystem.run step (.new protocolConfig maxRetries) ls = some c) :
    Law (ls.filterMap Label.published) (starts (.new protocolConfig maxRetries) ls) c := by
  obtain ⟨hsent, hstarts⟩ := starts_of_run hr
  have h := StepSystem.run_invariant (fun _ _ _ hs h => Inv.step h hs) hr (.new protocolConfig maxRetries)
  exact h.law hsent hstarts

/-- Two connects, the first one at its second attempt: the second event comes twice. -/
theorem copies_of_run_twice :
    let dial := fun k => if k = 0 then Except.error (TransportError.timeout "connect" 5) else .ok (1 : SessionId)
    let ls : List Label := [.connect dial, .publish (.messageSent 1), .recv 0, .disconnect (.ok ()), .forward 0,
      .connect dial, .publish (.messageSent 2), .recv 1, .recv 0, .forward 1, .forward 0]
    ∃ c, StepSystem.run step (.new (some ⟨"tcp", some .tcp, .ok ()⟩) 3) ls = some c ∧
      Law [.messageSent 1, .messageSent 2] [0, 1] c ∧
      (c.events.sent.map fun | .messageSent id => some id | _ => none) = [some 1, some 2, some 2] := by
  intro dial ls
  have hevents : (StepSystem.run step (.new (some ⟨"tcp", some .tcp, .ok ()⟩) 3) ls).map (fun c =>
      c.events.sent.map fun | .messageSent id => some id | _ => none) = some [some 1, some 2, some 2] := by decide +kernel
  have hstarts : starts (.new (some ⟨"tcp", some .tcp, .ok ()⟩) 3) ls = [0, 1] := by decide
  obtain ⟨c, hc, hsent⟩ := Option.map_eq_some_iff.1 hevents
  refine ⟨c, hc, ?_, hsent⟩
  rw [← hstarts]
  exact copies_of_run hc

end

end ClientReconnect

end Msgtrans
