import Msgtrans.Actor

/-!
# How the actor closes, and what it has acknowledged

`Close` and `ForceDisconnect` reach the command pipeline as a `Shutdown`, which publishes `ConnectionClosed` and ends that
pipeline; the adapter is not closed, and the data pipeline goes on. `closeLaw_iff`: so the event comes after a close of the
adapter only where it does not come at all.

A `Send` is answered `Ok` when its packet is on the internal queue. From there it gets to the adapter as long as the data
pipeline runs, which ends when the adapter is found disconnected, without a word. `ackLaw_iff`: no acknowledged packet is
lost silently as long as the pipeline does not end before one, and no `Send` is acknowledged after its end, unless
`ConnectionClosed` is published or on its way.
-/

namespace Msgtrans

namespace Actor

def Act.isConnectionClosed : Act → Bool
  | .published event => event.isConnectionClosed
  | _ => false

def ActorCommand.isShutdown : ActorCommand → Bool
  | .shutdown => true
  | _ => false

/-- Some `Close` or `ForceDisconnect` was answered `Ok`. -/
def CloseAnswered (tr : Trace) : Prop := ∃ command : TransportCommand, command.closes = true ∧ .answered command (.result (.ok ())) ∈ tr

/-- A `ConnectionClosed` that a close command led to comes after the close of the adapter, and no packet after it. -/
def CloseLaw (s : State) : Prop := ∀ before a after, s.trace = before ++ a :: after → a.isConnectionClosed = true →
  CloseAnswered before → .closed ∈ before ∧ ∀ item, .passed item ∉ after

/-- The command pipeline takes no `Shutdown`. -/
def NoShutdown (s : State) : Label → Prop
  | .control => ∀ c ∈ s.internal.head?, c.isShutdown = false
  | _ => True

instance (s : State) (l : Label) : Decidable (NoShutdown s l) := by
  cases l <;> unfold NoShutdown <;> infer_instance

variable {sessionId : SessionId} {m : ℕ} {s s' : State} {d d' : Data} {tr acts : Trace} {l : Label} {k : ℕ}

/-! ### What the steps are made of -/

def DataPc.running : DataPc → Bool
  | .stopped _ _ => false
  | _ => true

/-- The adapter is found disconnected. -/
def DataLabel.stops : DataLabel → Bool
  | .check false | .result (.error _ false) => true
  | _ => false

def Act.ofData : Act → Bool
  | .collected _ | .passed _ | .succeeded _ | .failed _ | .completed _ | .reported _ => true
  | .published event => !event.isConnectionClosed
  | _ => false

theorem data_acts {l : DataLabel} (hs : d.step m l = some (d', acts)) :
    d'.pc.running = !l.stops ∧ ∀ a ∈ acts, a.ofData = true := by
  unfold Data.step at hs
  repeat' split at hs
  all_goals cases hs
  all_goals simp_all [DataPc.running, DataLabel.stops, Act.ofData, TransportEvent.isConnectionClosed]

/-- Every step only adds to the history. -/
theorem step_trace (hs : step sessionId m s l = some s') : ∃ acts, s'.trace = s.trace ++ acts := by
  cases l with
  | command command =>
    obtain ⟨answer, running, internal, acks, hc, -⟩ := command_cases sessionId s command
    simp only [step, Option.ite_none_right_eq_some, hc] at hs
    cases hs.2
    exact ⟨_, rfl⟩
  | hangUp =>
    simp only [step, Option.ite_none_right_eq_some] at hs
    cases hs.2
    exact ⟨[], (List.append_nil _).symm⟩
  | control =>
    obtain ⟨-, ⟨item, internal, -, rfl⟩ | ⟨c, internal, events, -, -, rfl⟩ | ⟨internal, -, rfl⟩⟩ := control_cases hs
    all_goals exact ⟨_, rfl⟩
  | external packet =>
    cases hs
    exact ⟨_, rfl⟩
  | data l =>
    obtain ⟨⟨d, acts⟩, -, rfl⟩ := Option.map_eq_some_iff.1 hs
    exact ⟨acts, rfl⟩

/-! ### Closing -/

theorem CloseAnswered.mono (h : CloseAnswered tr) : CloseAnswered (tr ++ acts) := by
  obtain ⟨command, hc, hmem⟩ := h
  exact ⟨command, hc, List.mem_append_left _ hmem⟩

structure CloseInv (s : State) : Prop where
  silent : ∀ a ∈ s.trace, a.isConnectionClosed = false
  notClosed : .closed ∉ s.trace
  answered : .shutdown ∈ s.internal → CloseAnswered s.trace

theorem CloseInv.law (h : CloseInv s) : CloseLaw s := by
  intro before a after hsplit ha _
  have hno := h.silent a (by simp [hsplit])
  rw [ha] at hno
  cases hno

/-- A step that publishes no `ConnectionClosed`. -/
theorem CloseInv.grow (h : CloseInv s) (ht : s'.trace = s.trace ++ acts)
    (hacts : ∀ a ∈ acts, a.isConnectionClosed = false ∧ a ≠ .closed)
    (hint : .shutdown ∈ s'.internal → .shutdown ∈ s.internal ∨ CloseAnswered s'.trace) : CloseInv s' := by
  refine ⟨fun a ha => ?_, fun hmem => ?_, fun hmem => ?_⟩
  · rw [ht] at ha
    rcases List.mem_append.1 ha with ha | ha
    · exact h.silent a ha
    · exact (hacts a ha).1
  · rw [ht] at hmem
    rcases List.mem_append.1 hmem with hmem | hmem
    · exact h.notClosed hmem
    · exact (hacts _ hmem).2 rfl
  · rcases hint hmem with hmem | hanswered
    · rw [ht]
      exact (h.answered hmem).mono
    · exact hanswered

theorem closeInv_command {command : TransportCommand} (hs : step sessionId m s (.command command) = some s')
    (h : CloseInv s) : CloseInv s' := by
  obtain ⟨answer, running, internal, acks, hc, hcases⟩ := command_cases sessionId s command
  simp only [step, Option.ite_none_right_eq_some, hc] at hs
  cases hs.2
  refine h.grow rfl (by simp [Act.isConnectionClosed]) fun hmem => ?_
  obtain ⟨rfl, rfl⟩ | ⟨packet, rfl, -, rfl, rfl, rfl⟩ | ⟨hcloses, rfl, rfl, rfl⟩ := hcases
  · exact .inl hmem
  · exact .inl (by simpa using hmem)
  · exact .inr ⟨command, hcloses, by simp⟩

theorem closeInv_step (hs : step sessionId m s l = some s') (hG : NoShutdown s l) (h : CloseInv s) : CloseInv s' := by
  cases l with
  | command command => exact closeInv_command hs h
  | hangUp =>
    simp only [step, Option.ite_none_right_eq_some] at hs
    cases hs.2
    exact ⟨h.silent, h.notClosed, h.answered⟩
  | control =>
    obtain ⟨-, ⟨item, internal, hint, rfl⟩ | ⟨c, internal, events, hint, -, rfl⟩ | ⟨internal, hint, rfl⟩⟩ :=
      control_cases hs
    · refine h.grow rfl (by simp [Act.isConnectionClosed]) fun hmem => .inl ?_
      rw [hint]
      exact List.mem_cons_of_mem _ hmem
    · refine h.grow rfl (by simp [Act.isConnectionClosed]) fun hmem => .inl ?_
      rw [hint]
      exact List.mem_cons_of_mem _ hmem
    · have := hG .shutdown (by simp [hint])
      cases this
  | external packet =>
    cases hs
    exact h.grow rfl (by simp [Act.isConnectionClosed]) .inl
  | data l =>
    obtain ⟨⟨d, acts⟩, hd, rfl⟩ := Option.map_eq_some_iff.1 hs
    refine h.grow rfl (fun a ha => ?_) .inl
    have hof := (data_acts hd).2 a ha
    cases a <;> simp_all [Act.ofData, Act.isConnectionClosed]

/-- A shutdown is carried out with the adapter open. -/
theorem noShutdown_of_law (hs : step sessionId m s l = some s') (h : CloseInv s) (hlaw : CloseLaw s') : NoShutdown s l := by
  cases l with
  | control =>
    obtain ⟨-, ⟨item, internal, hint, -⟩ | ⟨c, internal, events, hint, hc, -⟩ | ⟨internal, hint, rfl⟩⟩ := control_cases hs
    · simp [NoShutdown, hint, ActorCommand.isShutdown]
    · rcases hc with rfl | rfl <;> simp [NoShutdown, hint, ActorCommand.isShutdown]
    · have hsplit : s.trace ++ [Act.reported .shutdown, Act.published (.connectionClosed .normal)] =
          (s.trace ++ [.reported .shutdown]) ++ .published (.connectionClosed .normal) :: [] := by simp
      have hclosed := (hlaw _ _ _ hsplit rfl (h.answered (by simp [hint])).mono).1
      exact absurd (by simpa using hclosed) h.notClosed
  | _ => trivial

/-- However commands, packets and the pipelines interleave: the actor keeps the law just in the runs in which no shutdown
gets to the command pipeline. -/
theorem closeLaw_iff {ls : List Label} (hr : StepSystem.run (step sessionId m) start ls = some s) :
    StepSystem.Always (step sessionId m) CloseLaw start ls ↔ StepSystem.Meets (step sessionId m) NoShutdown start ls :=
  StepSystem.always_iff_meets_of_step (fun _ => CloseInv.law) (fun _ _ _ => closeInv_step)
    (fun _ _ _ => noShutdown_of_law) hr ⟨nofun, nofun, nofun⟩

def packet (id : UInt32) : Packet := .oneWay id [1, 2, 3]

/-- A send, and a close of another session. -/
theorem closeLaw_of_send :
    let ls := [Label.command (.send 1 (packet 5)), .command (.close 2), .control, .data .receive, .data .tryReceive,
      .data (.check true), .data (.result .ok), .data .complete]
    StepSystem.Always (step 1 1) CloseLaw start ls := by
  intro ls
  obtain ⟨s, hs⟩ : ∃ s, StepSystem.run (step 1 1) start ls = some s := ⟨_, rfl⟩
  exact (closeLaw_iff hs).2 (by decide +kernel)

/-- A close that is answered `Ok`: the event is published, the adapter is not closed, and the packet that was queued before
is passed to it after the event. -/
theorem sent_after_close :
    let ls := [Label.command (.send 1 (packet 5)), .command (.close 1), .control, .control, .data .receive,
      .data .tryReceive, .data (.check true)]
    ∃ s, StepSystem.run (step 1 1) start ls = some s ∧ .closed ∉ s.trace ∧ ¬ CloseLaw s := by
  intro ls
  let item : Item := ⟨packet 5, some 0⟩
  have htrace : (StepSystem.run (step 1 1) start ls).map State.trace = some
      ([.answered (.send 1 (packet 5)) (.result (.ok ())), .answered (.close 1) (.result (.ok ())), .queued item,
        .reported .shutdown] ++ .published (.connectionClosed .normal) :: [.collected [item], .passed item]) := rfl
  obtain ⟨s, hr, hs⟩ := Option.map_eq_some_iff.1 htrace
  refine ⟨s, hr, by simp [hs], fun h => ?_⟩
  have hanswered := (h _ _ _ hs rfl ⟨.close 1, rfl, by simp⟩).2 item
  exact hanswered (by simp)

/-! ### Acknowledged packets -/

def Reported (s : State) : Prop := ∃ a ∈ s.trace, a.isConnectionClosed = true

/-- A shutdown is on the internal queue. -/
def Closing (s : State) : Prop := ∃ c ∈ s.internal, c.isShutdown = true

/-- The packet of the `k`-th acknowledged `Send` has been passed to the adapter. -/
def Passed (s : State) (k : ℕ) : Prop := ∃ item ∈ s.trace.passed, item.ticket = some k

def AllPassed (s : State) : Prop := ∀ k < s.acks, Passed s k

def OnInternal (s : State) (k : ℕ) : Prop := ∃ item, .sendPacket item ∈ s.internal ∧ item.ticket = some k

/-- It is on its way to a pipeline that still runs. -/
def OnItsWay (s : State) (k : ℕ) : Prop := s.data.pc.running = true ∧
  (OnInternal s k ∨ ∃ item ∈ s.data.pc.pending ++ s.data.channel, item.ticket = some k)

/-- Neither pipeline has anything left to do. -/
def Quiet (s : State) : Prop := (s.internal = [] ∨ s.pipelineRunning = false) ∧
  (s.data.pc.running = false ∨ s.data.pc = .recv ∧ s.data.channel = [])

structure AckLaw (s : State) : Prop where
  accounted : ∀ k < s.acks, Passed s k ∨ OnItsWay s k ∨ Reported s ∨ Closing s
  atRest : Quiet s → ∀ k < s.acks, Passed s k ∨ Reported s

/-- The data pipeline ends with no acknowledged packet before it, and no `Send` is acknowledged after its end, unless
`ConnectionClosed` is published or on its way. -/
def NotStranded (sessionId : SessionId) (s : State) : Label → Prop
  | .command (.send id _) => id = sessionId → s.pipelineRunning = true → s.data.pc.running = true ∨ Reported s ∨ Closing s
  | .data l => l.stops = true → AllPassed s ∨ Reported s ∨ Closing s
  | _ => True

instance (s : State) : Decidable (Reported s) := inferInstanceAs (Decidable (∃ a ∈ s.trace, _))

instance (s : State) : Decidable (Closing s) := inferInstanceAs (Decidable (∃ c ∈ s.internal, _))

instance (s : State) : Decidable (AllPassed s) :=
  inferInstanceAs (Decidable (∀ k < s.acks, ∃ item ∈ s.trace.passed, _))

instance (sessionId : SessionId) (s : State) (l : Label) : Decidable (NotStranded sessionId s l) := by
  unfold NotStranded
  split <;> infer_instance

structure AckInv (m : ℕ) (s : State) : Prop where
  data : DataInv m s.trace s.data
  acked : ∀ k < s.acks, OnInternal s k ∨ ∃ item ∈ s.trace.queued, item.ticket = some k
  internal : ∀ item k, .sendPacket item ∈ s.internal → item.ticket = some k → k < s.acks
  queued : ∀ item ∈ s.trace.queued, ∀ k, item.ticket = some k → k < s.acks
  ended : s.pipelineRunning = false → Reported s
  kept : s.data.pc.running = true ∨ AllPassed s ∨ Reported s ∨ Closing s

theorem Reported.mono (h : Reported s) (ht : s'.trace = s.trace ++ acts) : Reported s' := by
  obtain ⟨a, ha, hc⟩ := h
  exact ⟨a, ht ▸ List.mem_append_left _ ha, hc⟩

theorem Passed.mono (h : Passed s k) (ht : s'.trace = s.trace ++ acts) : Passed s' k := by
  obtain ⟨item, hitem, hk⟩ := h
  refine ⟨item, ?_, hk⟩
  rw [ht, Trace.passed, List.filterMap_append]
  exact List.mem_append_left _ hitem

/-- What was put on the channel has been passed on, or is pending, or is still there. -/
theorem AckInv.passed_or (h : AckInv m s) (hk : k < s.acks) :
    Passed s k ∨ OnInternal s k ∨ ∃ item ∈ s.data.pc.pending ++ s.data.channel, item.ticket = some k := by
  rcases h.acked k hk with hint | ⟨item, hitem, hticket⟩
  · exact .inr (.inl hint)
  · rw [h.data.order] at hitem
    rcases List.mem_append.1 hitem with hitem | hitem
    · exact .inl ⟨item, hitem, hticket⟩
    · exact .inr (.inr ⟨item, hitem, hticket⟩)

theorem AckInv.law (h : AckInv m s) : AckLaw s := by
  have haccounted : ∀ k < s.acks, Passed s k ∨ OnItsWay s k ∨ Reported s ∨ Closing s := by
    intro k hk
    rcases h.kept with hrun | hall | hexcused
    · rcases h.passed_or hk with hpassed | hway
      · exact .inl hpassed
      · exact .inr (.inl ⟨hrun, hway⟩)
    · exact .inl (hall k hk)
    · exact .inr (.inr hexcused)
  refine ⟨haccounted, fun ⟨hint, hdata⟩ k hk => ?_⟩
  rcases hint with hint | hended
  · rcases haccounted k hk with hpassed | ⟨hrun, hway⟩ | hreported | ⟨c, hc, -⟩
    · exact .inl hpassed
    · -- nothing is on its way to a pipeline at rest
      rcases hdata with hstopped | ⟨hrecv, hchannel⟩
      · rw [hrun] at hstopped
        cases hstopped
      · rcases hway with ⟨item, hitem, -⟩ | ⟨item, hitem, -⟩
        · rw [hint] at hitem
          cases hitem
        · rw [hrecv, hchannel] at hitem
          cases hitem
    · exact .inr hreported
    · rw [hint] at hc
      cases hc
  · exact .inr (h.ended hended)

theorem queued_of_ofData (h : ∀ a ∈ acts, a.ofData = true) : (tr ++ acts).queued = tr.queued := by
  refine filterMap_same (List.filterMap_eq_nil_iff.2 fun a ha => ?_)
  have hof := h a ha
  cases a <;> simp_all [Act.ofData, Act.queued?]

theorem isConnectionClosed_of_ofData {a : Act} (h : a.ofData = true) : a.isConnectionClosed = false := by
  cases a <;> simp_all [Act.ofData, Act.isConnectionClosed]

theorem passed_of_stops {l : DataLabel} (hs : d.step m l = some (d', acts)) (hstops : l.stops = true) : acts.passed = [] := by
  unfold Data.step at hs
  repeat' split at hs
  all_goals cases hs
  all_goals simp_all [DataLabel.stops, Act.passed?]

/-- A step of the other tasks that moves no packet. -/
theorem AckInv.frame (h : AckInv m s) (hdata : DataInv m s'.trace s'.data) (ht : s'.trace = s.trace ++ acts)
    (hq : acts.queued = []) (hd : s'.data = s.data) (hacks : s'.acks = s.acks)
    (hint : ∀ item, .sendPacket item ∈ s'.internal ↔ .sendPacket item ∈ s.internal)
    (hended : s'.pipelineRunning = false → Reported s') (hclosing : Closing s → Reported s' ∨ Closing s') : AckInv m s' := by
  have hqueued : s'.trace.queued = s.trace.queued := ht ▸ filterMap_same hq
  refine ⟨hdata, fun k hk => ?_, fun item k hitem => ?_, fun item hitem k => ?_, hended, ?_⟩
  · rw [hacks] at hk
    rcases h.acked k hk with ⟨item, hitem, hticket⟩ | hmem
    · exact .inl ⟨item, (hint item).2 hitem, hticket⟩
    · exact .inr (hqueued ▸ hmem)
  · rw [hacks]
    exact h.internal item k ((hint item).1 hitem)
  · rw [hacks]
    exact h.queued item (hqueued ▸ hitem) k
  · rw [hd]
    rcases h.kept with hrun | hall | hreported | hclose
    · exact .inl hrun
    · exact .inr (.inl fun k hk => (hall k (hacks ▸ hk)).mono ht)
    · exact .inr (.inr (.inl (hreported.mono ht)))
    · exact .inr (.inr (hclosing hclose))

theorem ackInv_data {l : DataLabel} (hs : step sessionId m s (.data l) = some s') (hG : NotStranded sessionId s (.data l))
    (h : AckInv m s) : AckInv m s' := by
  obtain ⟨⟨d, acts⟩, hd, rfl⟩ := Option.map_eq_some_iff.1 hs
  obtain ⟨hrun, hof⟩ := data_acts hd
  have hqueued : (s.trace ++ acts).queued = s.trace.queued := queued_of_ofData hof
  refine ⟨dataInv_data hd h.data, ?_, h.internal, ?_, fun hp => (h.ended hp).mono rfl, ?_⟩
  · intro k hk
    rcases h.acked k hk with hint | ⟨item, hitem, hticket⟩
    · exact .inl hint
    · exact .inr ⟨item, hqueued ▸ hitem, hticket⟩
  · intro item hitem
    exact h.queued item (hqueued ▸ hitem)
  · by_cases hstops : l.stops = true
    · rcases hG hstops with hall | hreported | hclosing
      · exact .inr (.inl fun k hk => (hall k hk).mono rfl)
      · exact .inr (.inr (.inl (hreported.mono rfl)))
      · exact .inr (.inr (.inr hclosing))
    · exact .inl (hrun.trans (by simp [hstops]))

theorem ackInv_command {command : TransportCommand} (hs : step sessionId m s (.command command) = some s')
    (hG : NotStranded sessionId s (.command command)) (h : AckInv m s) : AckInv m s' := by
  have hdata := dataInv_step hs h.data
  obtain ⟨answer, running, internal, acks, hc, hcases⟩ := command_cases sessionId s command
  simp only [step, Option.ite_none_right_eq_some, hc] at hs
  cases hs.2
  obtain ⟨rfl, rfl⟩ | ⟨packet, rfl, hp, rfl, rfl, rfl⟩ | ⟨hcloses, rfl, rfl, rfl⟩ := hcases
  · exact h.frame hdata rfl rfl rfl rfl (fun _ => Iff.rfl) (fun hp => (h.ended hp).mono rfl) .inr
  · -- the packet gets the next ticket
    have hqueued : (s.trace ++ [Act.answered (.send sessionId packet) (.result (.ok ()))]).queued = s.trace.queued :=
      filterMap_same rfl
    refine ⟨hdata, fun k hk => ?_, fun item k hmem hk => ?_, fun item hitem k hk => ?_,
      fun hp' => (h.ended hp').mono rfl, ?_⟩
    · rcases Nat.lt_succ_iff_lt_or_eq.1 hk with hk | rfl
      · rcases h.acked k hk with ⟨item, hitem, hticket⟩ | ⟨item, hitem, hticket⟩
        · exact .inl ⟨item, List.mem_append_left _ hitem, hticket⟩
        · exact .inr ⟨item, hqueued ▸ hitem, hticket⟩
      · exact .inl ⟨_, List.mem_append_right _ List.mem_cons_self, rfl⟩
    · rcases List.mem_append.1 hmem with hmem | hmem
      · exact Nat.lt_succ_of_lt (h.internal item k hmem hk)
      · obtain rfl : item = ⟨packet, some s.acks⟩ := by simpa using hmem
        cases hk
        exact Nat.lt_succ_self _
    · exact Nat.lt_succ_of_lt (h.queued item (hqueued ▸ hitem) k hk)
    · rcases hG rfl hp with hrun | hreported | ⟨c, hc, hshut⟩
      · exact .inl hrun
      · exact .inr (.inr (.inl (hreported.mono rfl)))
      · exact .inr (.inr (.inr ⟨c, List.mem_append_left _ hc, hshut⟩))
  · exact h.frame hdata rfl rfl rfl rfl (by simp) (fun hp => (h.ended hp).mono rfl)
      fun _ => .inr ⟨.shutdown, by simp, rfl⟩

theorem ackInv_control (hs : step sessionId m s .control = some s') (h : AckInv m s) : AckInv m s' := by
  have hdata := dataInv_step hs h.data
  obtain ⟨hp, ⟨item, internal, hint, rfl⟩ | ⟨c, internal, events, hint, hc, rfl⟩ | ⟨internal, hint, rfl⟩⟩ := control_cases hs
  · have hqueued : (s.trace ++ [Act.queued item]).queued = s.trace.queued ++ [item] := filterMap_more rfl
    refine ⟨hdata, fun k hk => ?_, fun i k hi hk => ?_, fun i hi k hk => ?_, fun hp => (h.ended hp).mono rfl, ?_⟩
    · -- the packet goes from the internal queue to the channel
      rcases h.acked k hk with ⟨i, hi, hticket⟩ | ⟨i, hi, hticket⟩
      · rw [hint] at hi
        rcases List.mem_cons.1 hi with heq | hi
        · cases heq
          exact .inr ⟨item, hqueued ▸ List.mem_append_right _ List.mem_cons_self, hticket⟩
        · exact .inl ⟨i, hi, hticket⟩
      · exact .inr ⟨i, hqueued ▸ List.mem_append_left _ hi, hticket⟩
    · exact h.internal i k (hint ▸ List.mem_cons_of_mem _ hi) hk
    · rcases List.mem_append.1 (hqueued ▸ hi : i ∈ s.trace.queued ++ [item]) with hi | hi
      · exact h.queued i hi k hk
      · obtain rfl := List.mem_singleton.1 hi
        exact h.internal i k (by simp [hint]) hk
    · rcases h.kept with hrun | hall | hreported | ⟨c, hc, hshut⟩
      · exact .inl hrun
      · exact .inr (.inl fun k hk => (hall k hk).mono rfl)
      · exact .inr (.inr (.inl (hreported.mono rfl)))
      · refine .inr (.inr (.inr ⟨c, ?_, hshut⟩))
        rw [hint] at hc
        rcases List.mem_cons.1 hc with rfl | hc
        · cases hshut
        · exact hc
  · have hq : Trace.queued (events.map Act.reported) = [] := List.filterMap_eq_nil_iff.2 (by simp [Act.queued?])
    refine h.frame hdata rfl hq rfl rfl (fun item => ?_) (fun hp => (h.ended hp).mono rfl) fun hclosing => ?_
    · rw [hint]
      rcases hc with rfl | rfl <;> simp [State.record]
    · obtain ⟨c', hc', hshut⟩ := hclosing
      refine .inr ⟨c', ?_, hshut⟩
      rw [hint] at hc'
      rcases List.mem_cons.1 hc' with rfl | hc'
      · rcases hc with rfl | rfl <;> cases hshut
      · exact hc'
  · have hreported : Reported (State.record { s with internal := internal, pipelineRunning := false }
        [.reported .shutdown, .published (.connectionClosed .normal)]) :=
      ⟨.published (.connectionClosed .normal), by simp [State.record], rfl⟩
    exact h.frame hdata rfl rfl rfl rfl (by simp [hint, State.record]) (fun _ => hreported) fun _ => .inl hreported

theorem ackInv_step (hs : step sessionId m s l = some s') (hG : NotStranded sessionId s l) (h : AckInv m s) : AckInv m s' := by
  cases l with
  | command command => exact ackInv_command hs hG h
  | hangUp =>
    have hdata := dataInv_step hs h.data
    simp only [step, Option.ite_none_right_eq_some] at hs
    cases hs.2
    exact h.frame hdata (List.append_nil _).symm rfl rfl rfl (fun _ => Iff.rfl) (fun hp => h.ended hp) .inr
  | control => exact ackInv_control hs h
  | external packet =>
    have hdata := dataInv_step hs h.data
    cases hs
    have hqueued : (s.trace ++ [Act.queued ⟨packet, none⟩]).queued = s.trace.queued ++ [⟨packet, none⟩] := filterMap_more rfl
    refine ⟨hdata, fun k hk => ?_, h.internal, fun i hi k hk => ?_, fun hp => (h.ended hp).mono rfl, ?_⟩
    · rcases h.acked k hk with hi | ⟨i, hi, hticket⟩
      · exact .inl hi
      · exact .inr ⟨i, hqueued ▸ List.mem_append_left _ hi, hticket⟩
    · rcases List.mem_append.1 (hqueued ▸ hi : i ∈ s.trace.queued ++ [⟨packet, none⟩]) with hi | hi
      · exact h.queued i hi k hk
      · obtain rfl := List.mem_singleton.1 hi
        cases hk
    · rcases h.kept with hrun | hall | hreported | hclosing
      · exact .inl hrun
      · exact .inr (.inl fun k hk => (hall k hk).mono rfl)
      · exact .inr (.inr (.inl (hreported.mono rfl)))
      · exact .inr (.inr (.inr hclosing))
  | data l => exact ackInv_data hs hG h

/-- Every step that breaks the condition loses a packet, or acknowledges one that is lost. -/
theorem notStranded_of_law (hs : step sessionId m s l = some s') (h : AckInv m s) (hlaw : AckLaw s') :
    NotStranded sessionId s l := by
  cases l with
  | command command =>
    cases command with
    | send id packet =>
      intro hid hp
      subst hid
      simp only [step, Option.ite_none_right_eq_some, State.command, ne_eq, not_true_eq_false, if_false, hp, if_true] at hs
      cases hs.2
      rcases hlaw.accounted s.acks (Nat.lt_succ_self _) with ⟨item, hitem, hticket⟩ | ⟨hrun, -⟩ | ⟨a, ha, hc⟩ | ⟨c, hc, hshut⟩
      · -- the new ticket has not been passed on
        have hmem : item ∈ s.trace.queued := by
          rw [h.data.order]
          refine List.mem_append_left _ ?_
          simpa [State.answer, State.record, List.filterMap_cons, Act.passed?] using hitem
        exact absurd (h.queued item hmem _ hticket) (Nat.lt_irrefl _)
      · exact .inl hrun
      · refine .inr (.inl ⟨a, ?_, hc⟩)
        rcases List.mem_append.1 ha with ha | ha
        · exact ha
        · rw [List.mem_singleton.1 ha] at hc
          cases hc
      · refine .inr (.inr ⟨c, ?_, hshut⟩)
        rcases List.mem_append.1 hc with hc | hc
        · exact hc
        · rw [List.mem_singleton.1 hc] at hshut
          cases hshut
    | _ => trivial
  | data l =>
    intro hstops
    obtain ⟨⟨d, acts⟩, hd, rfl⟩ := Option.map_eq_some_iff.1 hs
    obtain ⟨hrun, hof⟩ := data_acts hd
    have hpassed : (s.trace ++ acts).passed = s.trace.passed := filterMap_same (passed_of_stops hd hstops)
    by_cases hexcused : Reported s ∨ Closing s
    · exact .inr hexcused
    · refine .inl fun k hk => ?_
      rcases hlaw.accounted k hk with ⟨item, hitem, hticket⟩ | ⟨hrun', -⟩ | ⟨a, ha, hc⟩ | hclosing
      · exact ⟨item, hpassed ▸ hitem, hticket⟩
      · have hended : d.pc.running = false := by simp [hrun, hstops]
        exact absurd (hended.symm.trans hrun') Bool.false_ne_true
      · rcases List.mem_append.1 ha with ha | ha
        · exact absurd (.inl ⟨a, ha, hc⟩) hexcused
        · rw [isConnectionClosed_of_ofData (hof a ha)] at hc
          cases hc
      · exact absurd (.inr hclosing) hexcused
  | _ => trivial

theorem AckInv.start : AckInv m start := ⟨.start, nofun, nofun, nofun, nofun, .inl rfl⟩

/-- However commands, packets and the pipelines interleave, and whatever the adapter answers: no acknowledged packet is lost
silently just in the runs in which none is stranded. -/
theorem ackLaw_iff {ls : List Label} (hr : StepSystem.run (step sessionId m) start ls = some s) :
    StepSystem.Always (step sessionId m) AckLaw start ls ↔ StepSystem.Meets (step sessionId m) (NotStranded sessionId) start ls :=
  StepSystem.always_iff_meets_of_step (fun _ => AckInv.law) (fun _ _ _ => ackInv_step)
    (fun _ _ _ => notStranded_of_law) hr .start

/-- A disconnect found at a packet from outside, behind an acknowledged one. -/
theorem ackLaw_of_external :
    let ls := [Label.command (.send 1 (packet 5)), .control, .external (packet 6), .data .receive, .data .tryReceive,
      .data .tryReceive, .data (.check true), .data (.result .ok), .data (.check false)]
    StepSystem.Always (step 1 2) AckLaw start ls := by
  intro ls
  obtain ⟨s, hs⟩ : ∃ s, StepSystem.run (step 1 2) start ls = some s := ⟨_, rfl⟩
  exact (ackLaw_iff hs).2 (by decide +kernel)

/-- The disconnect is found at an acknowledged packet: the pipeline ends, and nothing is published. -/
theorem acknowledged_packet_lost :
    let ls := [Label.command (.send 1 (packet 5)), .control, .data .receive, .data .tryReceive, .data (.check false)]
    ∃ s, StepSystem.run (step 1 1) start ls = some s ∧ Quiet s ∧ s.acks = 1 ∧ ¬ Passed s 0 ∧ ¬ Reported s ∧ ¬ AckLaw s := by
  intro ls
  let item : Item := ⟨packet 5, some 0⟩
  have hend : (StepSystem.run (step 1 1) start ls).map (fun s => (s.acks, s.internal, s.data.pc, s.trace)) = some
      (1, [], .stopped [item] [item], [.answered (.send 1 (packet 5)) (.result (.ok ())), .queued item, .collected [item]]) := rfl
  obtain ⟨s, hr, hs⟩ := Option.map_eq_some_iff.1 hend
  simp only [Prod.mk.injEq] at hs
  obtain ⟨hacks, hint, hpc, htrace⟩ := hs
  have hquiet : Quiet s := ⟨.inl hint, .inl (by rw [hpc]; rfl)⟩
  have hpassed : ¬ Passed s 0 := by
    rintro ⟨i, hi, -⟩
    rw [htrace] at hi
    cases hi
  have hreported : ¬ Reported s := by
    rintro ⟨a, ha, hc⟩
    rw [htrace] at ha
    simp only [List.mem_cons, List.not_mem_nil, or_false] at ha
    rcases ha with rfl | rfl | rfl <;> cases hc
  refine ⟨s, hr, hquiet, hacks, hpassed, hreported, fun h => ?_⟩
  exact (h.atRest hquiet 0 (by omega)).elim hpassed hreported

end Actor

end Msgtrans
