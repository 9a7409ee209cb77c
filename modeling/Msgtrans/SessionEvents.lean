import Msgtrans.ExclusiveClose

/-!
# What a session tells the application

The listener, the event task and the closers of a session write to one channel of `ServerEvent`s. Nothing
orders them: the event task is spawned before the listener announces the session, and
`handle_transport_event` asks neither `should_ignore_messages` nor whether the end was reported. So a
session is announced first, and ends once and in silence, only in the runs that happen to keep the order:
`announcedFirst_iff`, `endsSilently_iff`.
-/

namespace Msgtrans

namespace ServerSession

variable {sessionId : SessionId} {info : ConnectionInfo} {s s' : State} {l : Label}

def Action.event? (a : Action) : Option ServerEvent :=
  match a.act with
  | .emitted event => some event
  | _ => none

/-- The `ServerEvent`s of the session, in the order in which they were sent. -/
def State.events (s : State) : List ServerEvent := s.trace.filterMap Action.event?

/-- What a step sends. -/
def emits (sessionId : SessionId) (info : ConnectionInfo) (s : State) : Label → List ServerEvent
  | .listenerStep =>
    match s.listener with
    | .announce => [.connectionEstablished sessionId info]
    | _ => []
  | .handle event => (TransportServer.handleTransportEvent noOwnRequests sessionId event).published
  | .closeStep k _ =>
    match s.closers[k]? with
    | some ⟨forced, .report, called⟩ => [.connectionClosed sessionId (Closer.reason ⟨forced, .report, called⟩)]
    | _ => []
  | _ => []

/-- A step does one thing at most, and sends what it says it sends. -/
theorem step_trace (hs : step sessionId info s l = some s') :
    ∃ new, s'.trace = s.trace ++ new ∧ new.length ≤ 1 ∧ new.filterMap Action.event? = emits sessionId info s l := by
  cases l with
  | listenerStep =>
    simp only [step] at hs
    split at hs
    · next t hl =>
      cases hs
      exact ⟨[], (List.append_nil _).symm, by simp, by simp [emits, hl]⟩
    · next hl =>
      cases hs
      exact ⟨[], (List.append_nil _).symm, by simp, by simp [emits, hl]⟩
    · next hl =>
      cases hs
      exact ⟨_, rfl, by simp, by simp [emits, hl, Action.event?]⟩
    · cases hs
  | handle event =>
    simp only [step] at hs
    split at hs
    · cases hs
      refine ⟨_, rfl, ?_, ?_⟩
      · rw [List.length_map]
        cases event with
        | messageReceived packet =>
          cases ht : packet.header.packetType <;> simp [TransportServer.handleTransportEvent, noOwnRequests, ht]
        | _ => simp [TransportServer.handleTransportEvent]
      · simp [emits, List.filterMap_map, Function.comp_def, Action.event?]
    · cases hs
  | handleStep ok =>
    simp only [step] at hs
    split at hs
    · cases hs
      rw [remove_eq]
      exact ⟨_, rfl, by simp, by simp [emits, Action.event?]⟩
    · cases hs
  | close forced =>
    cases hs
    exact ⟨[], (List.append_nil _).symm, by simp, rfl⟩
  | closeStep k ok =>
    obtain ⟨⟨forced, pc, called⟩, hc, hs⟩ := Option.bind_eq_some_iff.1 hs
    simp only [Closer.step] at hs
    cases pc with
    | lock =>
      simp only at hs
      split at hs
      · cases hs
        exact ⟨_, rfl, by simp, by simp [emits, hc, Action.event?]⟩
      · cases hs
        exact ⟨[], (List.append_nil _).symm, by simp, by simp [emits, hc]⟩
    | report =>
      cases hs
      exact ⟨_, rfl, by simp, by simp [emits, hc, Action.event?]⟩
    | disconnect =>
      cases hs
      exact ⟨_, rfl, by simp, by simp [emits, hc, Action.event?]⟩
    | markLock =>
      cases hs
      exact ⟨_, rfl, by simp, by simp [emits, hc, Action.event?]⟩
    | remove t =>
      cases hs
      rw [remove_eq]
      exact ⟨_, rfl, by simp, by simp [emits, hc, Action.event?]⟩
    | done result => cases hs
    | _ =>
      cases hs
      exact ⟨[], (List.append_nil _).symm, by simp, by simp [emits, hc]⟩

theorem events_step (hs : step sessionId info s l = some s') : s'.events = s.events ++ emits sessionId info s l := by
  obtain ⟨new, htrace, -, hnew⟩ := step_trace hs
  rw [State.events, htrace, List.filterMap_append, hnew, State.events]

/-! ### The beginning -/

/-- The session's first event is its `ConnectionEstablished`. -/
def AnnouncedFirst (sessionId : SessionId) (info : ConnectionInfo) (s : State) : Prop :=
  ∀ event, s.events.head? = some event → event = .connectionEstablished sessionId info

/-- The event task handles what it would report, and a closer reports, only once the listener is done. -/
def Announced (sessionId : SessionId) (s : State) : Label → Prop
  | .handle event =>
    (TransportServer.handleTransportEvent noOwnRequests sessionId event).published ≠ [] → s.listener = .done
  | .closeStep k _ => ∀ c : Closer, s.closers[k]? = some c → c.pc = .report → s.listener = .done
  | _ => True

/-- The listener's announcement is the first event, and nothing was sent before it. -/
structure Opened (sessionId : SessionId) (info : ConnectionInfo) (s : State) : Prop where
  before : s.listener ≠ .done → s.events = []
  after : s.listener = .done → s.events.head? = some (.connectionEstablished sessionId info)

theorem Opened.announcedFirst (h : Opened sessionId info s) : AnnouncedFirst sessionId info s := by
  intro event hevent
  by_cases hl : s.listener = .done
  · rw [h.after hl] at hevent
    exact (Option.some.inj hevent).symm
  · simp [h.before hl] at hevent

theorem listener_of_step (hs : step sessionId info s l = some s') (hl : l ≠ .listenerStep) : s'.listener = s.listener := by
  cases l with
  | listenerStep => exact absurd rfl hl
  | handle event =>
    simp only [step] at hs
    split at hs <;> cases hs
    rfl
  | handleStep ok =>
    simp only [step] at hs
    split at hs <;> cases hs
    rw [remove_eq]
    rfl
  | close forced =>
    cases hs
    rfl
  | closeStep k ok =>
    obtain ⟨c, -, hs⟩ := Option.bind_eq_some_iff.1 hs
    exact (closeStep_forward hs).1

/-- What others than the listener send, they send after it under `Announced`. -/
theorem emits_of_announced (hG : Announced sessionId s l) (hl : l ≠ .listenerStep)
    (hne : emits sessionId info s l ≠ []) : s.listener = .done := by
  cases l with
  | listenerStep => exact absurd rfl hl
  | handle event => exact hG hne
  | closeStep k ok =>
    simp only [emits] at hne
    split at hne
    · next hc => exact hG _ hc rfl
    · exact absurd rfl hne
  | _ => exact absurd rfl hne

theorem Opened.step (hs : step sessionId info s l = some s') (hG : Announced sessionId s l)
    (h : Opened sessionId info s) : Opened sessionId info s' := by
  have hevents := events_step hs
  by_cases hl : l = .listenerStep
  · subst hl
    simp only [ServerSession.step] at hs
    split at hs
    · next t hpc =>
      cases hs
      have hnil := h.before (by simp [hpc])
      refine ⟨fun _ => hnil, fun hdone => ?_⟩
      cases t <;> simp [Table.next] at hdone
    · next hpc =>
      cases hs
      exact ⟨fun _ => h.before (by simp [hpc]), fun hdone => by cases hdone⟩
    · next hpc =>
      have hnil := h.before (by simp [hpc])
      cases hs
      refine ⟨fun hdone => absurd rfl hdone, fun _ => ?_⟩
      rw [hevents, hnil]
      simp [emits, hpc]
    · cases hs
  · have hlistener := listener_of_step hs hl
    have hsent : emits sessionId info s l ≠ [] → s.listener = .done := emits_of_announced hG hl
    rcases hnew : emits sessionId info s l with _ | ⟨event, rest⟩
    · rw [hnew, List.append_nil] at hevents
      refine ⟨fun hdone => ?_, fun hdone => ?_⟩ <;> rw [hlistener] at hdone <;> rw [hevents]
      · exact h.before hdone
      · exact h.after hdone
    · have hdone := hsent (by simp [hnew])
      refine ⟨fun hne => absurd (hlistener.trans hdone) hne, fun _ => ?_⟩
      rw [hevents, List.head?_append, h.after hdone]
      rfl

/-- An event sent before the announcement is the first, and it is not the announcement. -/
theorem Opened.announced (hs : ServerSession.step sessionId info s l = some s') (h : Opened sessionId info s)
    (hlaw : AnnouncedFirst sessionId info s') : Announced sessionId s l := by
  have hfirst : ∀ event rest, emits sessionId info s l = event :: rest →
      event ≠ .connectionEstablished sessionId info → s.listener = .done := by
    intro event rest hnew hne
    by_contra hl
    refine hne (hlaw event ?_)
    rw [events_step hs, h.before hl, hnew]
    rfl
  cases l with
  | handle event =>
    intro hne
    obtain ⟨e, rest, hnew⟩ := List.exists_cons_of_ne_nil hne
    refine hfirst e rest hnew fun heq => ?_
    subst heq
    cases event with
    | messageReceived packet =>
      cases ht : packet.header.packetType <;> simp [TransportServer.handleTransportEvent, noOwnRequests, ht] at hnew
    | _ => simp [TransportServer.handleTransportEvent] at hnew
  | closeStep k ok =>
    rintro ⟨forced, pc, called⟩ hc rfl
    exact hfirst (.connectionClosed sessionId (Closer.reason ⟨forced, .report, called⟩)) [] (by simp only [emits, hc])
      (by simp)
  | _ => trivial

/-- In every state of a run the first event of the session is its announcement exactly when everybody else
always kept quiet before it. -/
theorem announcedFirst_iff {ls : List Label} (hr : StepSystem.run (step sessionId info) start ls = some s) :
    StepSystem.Always (step sessionId info) (AnnouncedFirst sessionId info) start ls ↔
      StepSystem.Meets (step sessionId info) (Announced sessionId) start ls :=
  StepSystem.always_iff_meets_of_step (I := Opened sessionId info) (fun _ h => h.announcedFirst)
    (fun _ _ _ hs hG h => h.step hs hG) (fun _ _ _ hs h hlaw => h.announced hs hlaw) hr
    ⟨fun _ => rfl, fun h => nomatch h⟩

theorem announcedFirst_iff_in_turn :
    let ls := [.listenerStep, .listenerStep, .listenerStep, .listenerStep, .listenerStep,
      .handle (.messageReceived (.oneWay 1 [104, 105])), .handle (.connectionClosed .normal)]
    StepSystem.Always (step 1 accepted) (AnnouncedFirst 1 accepted) start ls ↔
      StepSystem.Meets (step 1 accepted) (Announced 1) start ls :=
  announcedFirst_iff (s := _) rfl

/-- The peer's first packet is handled between the spawning of the event task and the announcement. -/
theorem message_before_announcement :
    ∃ s, StepSystem.run (step 1 accepted) start [.listenerStep, .listenerStep, .listenerStep, .listenerStep,
        .handle (.messageReceived (.oneWay 1 [104, 105])), .listenerStep] = some s ∧
      ¬ AnnouncedFirst 1 accepted s := by
  refine ⟨_, rfl, fun h => ?_⟩
  have hfirst := h _ rfl
  cases hfirst

/-! ### The end -/

/-- A `ServerEvent::MessageReceived`. -/
def Action.isMessage (a : Action) : Bool :=
  match a.act with
  | .emitted (.messageReceived ..) => true
  | _ => false

/-- At most one `ConnectionClosed`, and no message after it or after closing has started. -/
structure EndsSilently (s : State) : Prop where
  once : (s.trace.filter Action.isEnd).length ≤ 1
  silent : s.trace.Pairwise fun b a => a.isMessage = true → b.isStart = false ∧ b.isEnd = false

/-- The end of the session has been reported. -/
def State.Ended (s : State) : Prop := ∃ a ∈ s.trace, a.isEnd = true

/-- A packet is handled while its session is `Connected` and its end not reported; the end is reported by one
of the event task and the closers only, once. -/
def Guarded (s : State) : Label → Prop
  | .handle (.messageReceived _) => s.shouldIgnoreMessages = false ∧ ¬ s.Ended
  | .handle (.connectionClosed _) => ¬ s.Ended
  | .closeStep k _ => ∀ c : Closer, s.closers[k]? = some c → c.pc = .report → ¬ s.Ended
  | _ => True

theorem isEnd_iff {a : Action} : a.isEnd = true ↔ ∃ id reason, a.event? = some (.connectionClosed id reason) := by
  obtain ⟨actor, act⟩ := a
  cases act with
  | emitted event => cases event <;> simp [Action.isEnd, Action.event?]
  | _ => simp [Action.isEnd, Action.event?]

theorem isMessage_iff {a : Action} : a.isMessage = true ↔ ∃ id context, a.event? = some (.messageReceived id context) := by
  obtain ⟨actor, act⟩ := a
  cases act with
  | emitted event => cases event <;> simp [Action.isMessage, Action.event?]
  | _ => simp [Action.isMessage, Action.event?]

theorem not_ended_of_guarded (hG : Guarded s l) {id : SessionId} {reason : CloseReason}
    (hmem : .connectionClosed id reason ∈ emits sessionId info s l) : ¬ s.Ended := by
  cases l with
  | listenerStep =>
    simp only [emits] at hmem
    split at hmem <;> simp at hmem
  | handle event =>
    cases event with
    | connectionClosed reason => exact hG
    | messageReceived packet => exact hG.2
    | _ => simp [emits, TransportServer.handleTransportEvent] at hmem
  | closeStep k ok =>
    simp only [emits] at hmem
    split at hmem
    · next hc => exact hG _ hc rfl
    · simp at hmem
  | _ => simp [emits] at hmem

theorem guarded_of_message {id : SessionId} {context : TransportContext}
    (hmem : .messageReceived id context ∈ emits sessionId info s l) : ∃ packet, l = .handle (.messageReceived packet) := by
  cases l with
  | listenerStep =>
    simp only [emits] at hmem
    split at hmem <;> simp at hmem
  | handle event =>
    cases event with
    | messageReceived packet => exact ⟨packet, rfl⟩
    | _ => simp [emits, TransportServer.handleTransportEvent] at hmem
  | closeStep k ok =>
    simp only [emits] at hmem
    split at hmem <;> simp at hmem
  | _ => simp [emits] at hmem

theorem exists_message (packet : Packet) : ∃ id context,
    .messageReceived id context ∈ emits sessionId info s (.handle (.messageReceived packet)) := by
  cases ht : packet.header.packetType <;> simp [emits, TransportServer.handleTransportEvent, noOwnRequests, ht]

theorem not_ignored_iff : s.shouldIgnoreMessages = false ↔ s.tables .states = true ∧ s.cell = .connected := by
  unfold State.shouldIgnoreMessages State.state
  cases s.tables .states <;> cases s.cell <;> simp

theorem not_ended_iff : ¬ s.Ended ↔ s.trace.filter Action.isEnd = [] := by
  simp [State.Ended, List.filter_eq_nil_iff]

/-- A session whose messages are to be ignored is being closed, or its end was reported. -/
theorem Inv.of_ignored (h : Inv sessionId s) (hreg : s.Registered) (hignore : s.shouldIgnoreMessages ≠ false) :
    s.starts ≠ [] ∨ s.Ended := by
  cases ht : s.tables .states with
  | true =>
    have hcell : s.cell ≠ .connected := fun hcell => hignore (not_ignored_iff.2 ⟨ht, hcell⟩)
    have hstarts := h.starts
    rw [if_neg hcell] at hstarts
    refine .inl fun hnil => ?_
    rw [hnil] at hstarts
    cases hstarts
  | false =>
    refine (h.starts_of_removed (h.gone .states hreg ht)).imp id ?_
    rintro ⟨a, ha, -, hend⟩
    exact ⟨a, ha, hend⟩

theorem EndsSilently.step (hs : ServerSession.step sessionId info s l = some s') (hG : Guarded s l)
    (hinv : Inv sessionId s) (h : EndsSilently s) : EndsSilently s' := by
  obtain ⟨new, htrace, hlen, hnew⟩ := step_trace hs
  constructor
  · rw [htrace, List.filter_append, List.length_append]
    by_cases hend : ∃ a ∈ new, a.isEnd = true
    · obtain ⟨a, ha, hend⟩ := hend
      obtain ⟨id, reason, hevent⟩ := isEnd_iff.1 hend
      have hmem : .connectionClosed id reason ∈ emits sessionId info s l := by
        rw [← hnew]
        exact List.mem_filterMap.2 ⟨a, ha, hevent⟩
      rw [not_ended_iff.1 (not_ended_of_guarded hG hmem)]
      have := List.length_filter_le Action.isEnd new
      simp
      omega
    · have hnil : new.filter Action.isEnd = [] :=
        List.filter_eq_nil_iff.2 fun a ha hend' => hend ⟨a, ha, hend'⟩
      rw [hnil]
      exact h.once
  · rw [htrace, List.pairwise_append]
    refine ⟨h.silent, ?_, fun b hb a ha hmessage => ?_⟩
    · rcases new with _ | ⟨a, _ | ⟨a', rest⟩⟩ <;> simp at hlen ⊢
    · obtain ⟨id, context, hevent⟩ := isMessage_iff.1 hmessage
      have hmem : .messageReceived id context ∈ emits sessionId info s l := by
        rw [← hnew]
        exact List.mem_filterMap.2 ⟨a, ha, hevent⟩
      obtain ⟨packet, rfl⟩ := guarded_of_message hmem
      obtain ⟨hignore, hended⟩ := hG
      have hstarts := hinv.starts
      rw [if_pos (not_ignored_iff.1 hignore).2, List.length_eq_zero_iff] at hstarts
      refine ⟨Bool.eq_false_iff.2 fun hstart => ?_, Bool.eq_false_iff.2 fun hend => hended ⟨b, hb, hend⟩⟩
      exact absurd hstarts (List.ne_nil_of_mem (List.mem_filter.2 ⟨hb, hstart⟩))

theorem EndsSilently.guarded (hs : ServerSession.step sessionId info s l = some s') (hinv : Inv sessionId s)
    (h : EndsSilently s') : Guarded s l := by
  obtain ⟨new, htrace, -, hnew⟩ := step_trace hs
  have honce := h.once
  have hsilent := h.silent
  rw [htrace, List.filter_append, List.length_append] at honce
  rw [htrace, List.pairwise_append] at hsilent
  have hended : ∀ id reason, .connectionClosed id reason ∈ emits sessionId info s l → ¬ s.Ended := by
    intro id reason hmem
    rw [← hnew] at hmem
    obtain ⟨a, ha, hevent⟩ := List.mem_filterMap.1 hmem
    have hpos : 0 < (new.filter Action.isEnd).length :=
      List.length_pos_of_mem (List.mem_filter.2 ⟨ha, isEnd_iff.2 ⟨id, reason, hevent⟩⟩)
    rw [not_ended_iff, ← List.length_eq_zero_iff]
    omega
  cases l with
  | handle event =>
    cases event with
    | messageReceived packet =>
      obtain ⟨id, context, hmem⟩ := @exists_message sessionId info s packet
      rw [← hnew] at hmem
      obtain ⟨a, ha, hevent⟩ := List.mem_filterMap.1 hmem
      have hbefore := fun b hb => hsilent.2.2 b hb a ha (isMessage_iff.2 ⟨id, context, hevent⟩)
      have hnot : ¬ s.Ended := fun ⟨b, hb, hend⟩ => by simp [(hbefore b hb).2] at hend
      refine ⟨by_contra fun hignore => ?_, hnot⟩
      have htask : s.task ≠ .unspawned := by
        intro htask
        simp [ServerSession.step, htask] at hs
      rcases hinv.of_ignored (hinv.spawned htask) hignore with hstarts | hend
      · obtain ⟨b, hb⟩ := List.exists_mem_of_ne_nil _ hstarts
        obtain ⟨hb, hstart⟩ := List.mem_filter.1 hb
        simp [(hbefore b hb).1] at hstart
      · exact hnot hend
    | connectionClosed reason => exact hended sessionId reason (by simp [emits, TransportServer.handleTransportEvent])
    | _ => trivial
  | closeStep k ok =>
    rintro ⟨forced, pc, called⟩ hc rfl
    exact hended sessionId (Closer.reason ⟨forced, .report, called⟩) (by simp only [emits, hc, List.mem_singleton])
  | _ => trivial

/-- In every state of a run the session has ended at most once, and in silence, exactly when the events of
its `Transport` were always handled, and its end reported, as `Guarded` says. -/
theorem endsSilently_iff {ls : List Label} (hr : StepSystem.run (step sessionId info) start ls = some s) :
    StepSystem.Always (step sessionId info) EndsSilently start ls ↔
      StepSystem.Meets (step sessionId info) Guarded start ls :=
  StepSystem.always_iff_meets_of_step (I := fun t => Inv sessionId t ∧ EndsSilently t) (fun _ h => h.2)
    (fun _ _ _ hs hG h => ⟨h.1.step hs, h.2.step hs hG h.1⟩) (fun _ _ _ hs h hlaw => hlaw.guarded hs h.1) hr
    ⟨.start, ⟨by simp [start], by simp [start]⟩⟩

theorem endsSilently_iff_local_close :
    let ls := [.listenerStep, .listenerStep, .listenerStep, .listenerStep, .listenerStep,
      .handle (.messageReceived (.oneWay 1 [104, 105])), .close false, .closeStep 0 true, .closeStep 0 true, .closeStep 0 true]
    StepSystem.Always (step 1 accepted) EndsSilently start ls ↔ StepSystem.Meets (step 1 accepted) Guarded start ls :=
  endsSilently_iff (s := _) rfl

/-- A queued packet is handled while a close is under way, and the peer's close after it. -/
theorem reported_after_close :
    ∃ s, StepSystem.run (step 1 accepted) start [.listenerStep, .listenerStep, .listenerStep, .listenerStep,
        .listenerStep, .close false, .closeStep 0 true, .closeStep 0 true, .closeStep 0 true,
        .handle (.messageReceived (.oneWay 1 [104, 105])), .handle (.connectionClosed .normal)] = some s ∧
      ¬ EndsSilently s := by
  refine ⟨_, rfl, fun h => ?_⟩
  have honce := h.once
  revert honce
  decide

end ServerSession

end Msgtrans
