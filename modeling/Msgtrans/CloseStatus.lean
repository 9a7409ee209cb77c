import Msgtrans.LockFreeConnection

/-!
# The status clones of a lock-free connection report (`transport/lockfree_connection.rs`)

`is_connected` is a flag of each clone, copied when it is cloned. One call clears one flag: a `close_lockfree` that returns
`Ok` clears its own clone's. The other clones, and all of them when the close has timed out, go on reporting a
connection whose worker is gone. `closed_reported`: the flags are right where no clone is left that would keep its own.
-/

namespace Msgtrans

namespace CloseStatus

open LockFreeConnection

def isHealthy (s : State) (h : Handle) : Bool := h.isConnected && s.commands.queue.length < 1000

/-- No clone reports a connection. -/
def AllDown (s : State) : Prop := ∀ h ∈ s.handles, h.live → h.isConnected = false

def AllDropped (s : State) : Prop := ∀ h ∈ s.handles, ¬ h.live

/-- Once the worker has ended and no close is running, no clone reports a connection, nor a healthy one. -/
def Law (s : State) : Prop :=
  s.commands.phase = .ended → (∀ c ∈ s.calls, c.kind = .close → c.phase.isDone) →
    ∀ h ∈ s.handles, h.live → h.isConnected = false ∧ isHealthy s h = false

/-- No close times out while a clone reports a connection, and when one returns `Ok` no clone but its own does. -/
def LastToReport (s : State) : Label → Prop
  | .finish .timeout => match s.commands.phase with
    | .executing ⟨_, .close⟩ => AllDown s
    | _ => True
  | .receive i => match s.calls[i]? with
    | some ⟨handle, .close, _, .sent (.ok _)⟩ => ∀ k < s.handles.length, k ≠ handle → ∀ h ∈ s.handles[k]?, h.live → h.isConnected = false
    | _ => True
  | _ => True

instance (s : State) : Decidable (AllDown s) := inferInstanceAs (Decidable (∀ h ∈ s.handles, h.live → h.isConnected = false))

instance (s : State) (l : Label) : Decidable (LastToReport s l) := by
  unfold LastToReport
  split
  · split <;> infer_instance
  · split <;> infer_instance
  · infer_instance

/-! ### What every step keeps -/

structure Inv (s : State) : Prop where
  base : LockFreeConnection.Inv s
  timeout : ∀ x ∈ s.commands.executed, x.1.kind = .close → x.2 = .timeout → AllDown s
  closed : ∀ x ∈ s.commands.executed, x.1.kind = .close → x.2 = .ok →
    ∀ c, s.calls[x.1.call]? = some c → c.phase.isDone → AllDown s
  stopping : s.commands.phase = .stopping → ∃ x ∈ s.commands.executed, stops x.1 x.2
  ended : s.commands.phase = .ended → (∃ x ∈ s.commands.executed, stops x.1 x.2) ∨ AllDropped s

variable {s s' : State} {i k : ℕ} {c : Call} {h : Handle} {command : Command} {o : Outcome}

theorem stops_iff : stops command o ↔ command.kind = .close ∧ (o = .ok ∨ o = .timeout) := by
  obtain ⟨call, kind⟩ := command
  cases o <;> cases kind <;> simp [stops]

theorem Inv.law (hI : Inv s) : Law s := by
  intro hended hcalls
  have hdown : AllDown s := by
    rcases hI.ended hended with ⟨x, hx, hstops⟩ | hdropped
    · obtain ⟨hkind, ho | ho⟩ := stops_iff.1 hstops
      · obtain ⟨c, hc, hk⟩ := hI.base.sent x.1 (hI.base.commands.mem_sent hx)
        exact hI.closed x hx hkind ho c hc (hcalls c (List.mem_of_getElem? hc) (hk.trans hkind))
      · exact hI.timeout x hx hkind ho
    · exact fun h hh hlive => absurd hlive (hdropped h hh)
  intro h hh hlive
  have hflag := hdown h hh hlive
  exact ⟨hflag, by rw [isHealthy, hflag, Bool.false_and]⟩

/-- A step that executes nothing: the flags only go down, and no close returns. -/
theorem Inv.of_quiet (hI : Inv s) (hbase : LockFreeConnection.Inv s')
    (hexecuted : s'.commands.executed = s.commands.executed) (hdown : AllDown s → AllDown s')
    (hdropped : AllDropped s → AllDropped s')
    (hcalls : ∀ x ∈ s.commands.executed, x.1.kind = .close → x.2 = .ok → ∀ c', s'.calls[x.1.call]? = some c' → c'.phase.isDone →
      AllDown s' ∨ ∃ c, s.calls[x.1.call]? = some c ∧ c.phase.isDone)
    (hstopping : s'.commands.phase = .stopping → s.commands.phase = .stopping ∨ ∃ x ∈ s.commands.executed, stops x.1 x.2)
    (hended : s'.commands.phase = .ended →
      s.commands.phase = .stopping ∨ s.commands.phase = .ended ∨ AllDropped s) : Inv s' := by
  refine ⟨hbase, ?_, ?_, ?_, ?_⟩ <;> rw [hexecuted]
  · exact fun x hx hk ho => hdown (hI.timeout x hx hk ho)
  · intro x hx hk ho c' hc' hd'
    rcases hcalls x hx hk ho c' hc' hd' with hall | ⟨c, hc, hd⟩
    · exact hall
    · exact hdown (hI.closed x hx hk ho c hc hd)
  · exact fun hp => (hstopping hp).elim hI.stopping id
  · intro hp
    rcases hended hp with hp | hp | hall
    · exact .inl (hI.stopping hp)
    · exact (hI.ended hp).imp_right hdropped
    · exact .inr (hdropped hall)

/-- A step that leaves the worker alone, and in which no call returns. -/
theorem Inv.of_aside (hI : Inv s) (hbase : LockFreeConnection.Inv s')
    (hexecuted : s'.commands.executed = s.commands.executed) (hphase : s'.commands.phase = s.commands.phase)
    (hdown : AllDown s → AllDown s') (hdropped : AllDropped s → AllDropped s')
    (hcalls : ∀ x ∈ s.commands.executed, ∀ c', s'.calls[x.1.call]? = some c' → c'.phase.isDone →
      s.calls[x.1.call]? = some c') : Inv s' := by
  refine hI.of_quiet hbase hexecuted hdown hdropped (fun x hx _ _ c' hc' hd => ?_) (fun hp => ?_) (fun hp => ?_)
  · exact .inr ⟨c', hcalls x hx c' hc' hd, hd⟩
  · rw [hphase] at hp
    exact .inl hp
  · rw [hphase] at hp
    exact .inr (.inl hp)

theorem inv_start (isConnected : Bool) : Inv (start isConnected) :=
  ⟨LockFreeConnection.inv_start isConnected, by simp [start, CommandQueue.State.new],
    by simp [start, CommandQueue.State.new], by simp [start, CommandQueue.State.new], by simp [start, CommandQueue.State.new]⟩

theorem mem_of_handle? (hk : s.handle? k = some h) : s.handles[k]? = some h ∧ h.live := by
  obtain ⟨g, hg, hlive⟩ := Option.bind_eq_some_iff.1 hk
  split at hlive
  · next hl =>
    cases hlive
    exact ⟨hg, hl⟩
  · cases hlive

/-- A new clone says what the one it is made from says. -/
theorem allDown_clone (hk : s.handle? k = some h) (hdown : AllDown s) : ∀ g ∈ s.handles ++ [h], g.live → g.isConnected = false := by
  intro g hg hlive
  rcases List.mem_append.1 hg with hg | hg
  · exact hdown g hg hlive
  · cases List.mem_singleton.1 hg
    exact hdown h (List.mem_of_getElem? (mem_of_handle? hk).1) hlive

theorem not_allDropped (hk : s.handle? k = some h) : ¬ AllDropped s := fun hdropped =>
  hdropped h (List.mem_of_getElem? (mem_of_handle? hk).1) (mem_of_handle? hk).2

/-- What an executed command's call has come to is told by the call alone. -/
theorem Inv.call_of_executed (hI : Inv s) {x : Command × Outcome} (hx : x ∈ s.commands.executed) (hc : s.calls[x.1.call]? = some c) :
    c.phase ≠ .start ∧ c.reply ≠ .dropped ∧ ∀ answer, c.reply = .sent answer → c.kind = x.1.kind ∧ answer = result x.1.kind x.2 := by
  have hcall := hI.base.call x.1.call c hc
  refine ⟨fun hs => ?_, fun hr => hcall.dropped hr x hx rfl, fun answer hr => ?_⟩
  · exact (hcall.start hs).2 x.1 (hI.base.commands.mem_sent hx) rfl
  · obtain ⟨o, ho, rfl⟩ := hcall.sent answer hr
    have heq := List.inj_on_of_nodup_map (hI.base.commands.executed_nodup hI.base.nodup) ho hx rfl
    rw [← heq]
    exact ⟨rfl, rfl⟩

theorem Inv.finish {q : Commands} (hI : Inv s) (hbase : LockFreeConnection.Inv { s with commands := q, stats := s.stats.record command.kind o })
    (hs : s.commands.finish o = some (command, q)) (hlast : LastToReport s (.finish o)) :
    Inv { s with commands := q, stats := s.stats.record command.kind o } := by
  obtain ⟨hphase, rfl, -⟩ := hI.base.commands.finish hs
  refine ⟨hbase, fun x hx hk ho => ?_, fun x hx hk ho c hc hd => ?_, nofun, nofun⟩
  · rcases List.mem_append.1 hx with hx | hx
    · exact hI.timeout x hx hk ho
    · cases List.mem_singleton.1 hx
      obtain ⟨call, kind⟩ := command
      cases hk
      cases ho
      simp only [LastToReport, hphase] at hlast
      exact hlast
  · rcases List.mem_append.1 hx with hx | hx
    · exact hI.closed x hx hk ho c hc hd
    · cases List.mem_singleton.1 hx
      -- the call still waits for the reply
      have hmem : command ∈ s.commands.holding := by
        rw [CommandQueue.State.holding, hphase]
        exact List.mem_cons_self
      have hwait := ((hI.base.call _ c hc).held command hmem rfl).1
      rw [hwait] at hd
      cases hd

/-- Noting a close clears at most the flag of its own clone. -/
theorem noteClosed_handles (s : State) (c : Call) (answer : Answer) : (s.noteClosed c answer).handles = s.handles ∨
    ∃ h, s.handles[c.handle]? = some h ∧
      (s.noteClosed c answer).handles = s.handles.set c.handle { h with isConnected := false } := by
  unfold State.noteClosed
  split
  · exact .inr ⟨_, by assumption, rfl⟩
  · exact .inl rfl

theorem noteClosed_handles_of_close (hk : c.kind = .close) (hh : s.handles[c.handle]? = some h) :
    (s.noteClosed c (.ok ())).handles = s.handles.set c.handle { h with isConnected := false } := by
  simp [State.noteClosed, hk, hh]

theorem allDown_noteClosed {answer : Answer} (hdown : AllDown s) : AllDown (s.noteClosed c answer) := by
  intro g hg hlive
  rcases noteClosed_handles s c answer with he | ⟨h, -, he⟩
  · rw [he] at hg
    exact hdown g hg hlive
  · rw [he] at hg
    rcases List.mem_or_eq_of_mem_set hg with hg | rfl
    · exact hdown g hg hlive
    · rfl

theorem allDropped_noteClosed {answer : Answer} (hdropped : AllDropped s) : AllDropped (s.noteClosed c answer) := by
  intro g hg
  rcases noteClosed_handles s c answer with he | ⟨h, hh, he⟩
  · rw [he] at hg
    exact hdropped g hg
  · rw [he] at hg
    rcases List.mem_or_eq_of_mem_set hg with hg | rfl
    · exact hdropped g hg
    · exact hdropped h (List.mem_of_getElem? hh)

theorem allDown_of_lastToReport {handle : ℕ} (hk : c.kind = .close) (hh : c.handle = handle)
    (hlast : ∀ k < s.handles.length, k ≠ handle → ∀ h ∈ s.handles[k]?, h.live → h.isConnected = false) :
    AllDown (s.noteClosed c (.ok ())) := by
  subst hh
  intro g hg hlive
  obtain ⟨k, hg⟩ := List.mem_iff_getElem?.1 hg
  cases hown : s.handles[c.handle]? with
  | none =>
    have he : (s.noteClosed c (.ok ())).handles = s.handles := by simp [State.noteClosed, hk, hown]
    rw [he] at hg
    refine hlast k (List.getElem?_eq_some_iff.1 hg).1 ?_ g hg hlive
    rintro rfl
    exact nomatch hown.symm.trans hg
  | some h =>
    rw [noteClosed_handles_of_close hk hown] at hg
    rcases Indexed.of_getElem?_set hown hg with ⟨-, rfl⟩ | ⟨hne, hg⟩
    · rfl
    · exact hlast k (List.getElem?_eq_some_iff.1 hg).1 hne g hg hlive

theorem Inv.receive {answer : Answer} (hI : Inv s)
    (hbase : LockFreeConnection.Inv (State.noteClosed { s with calls := s.calls.set i { c with phase := .done answer } } c answer))
    (hc : s.calls[i]? = some c) (ha : c.reply.answer = some answer) (hlast : LastToReport s (.receive i)) :
    Inv (State.noteClosed { s with calls := s.calls.set i { c with phase := .done answer } } c answer) := by
  obtain ⟨hq, hcalls, -, -⟩ := noteClosed_eq { s with calls := s.calls.set i { c with phase := .done answer } } c answer
  refine hI.of_quiet hbase (by rw [hq]) (fun hdown => allDown_noteClosed hdown)
    (fun hdropped => allDropped_noteClosed hdropped) (fun x hx hk ho c' hc' hd => ?_)
    (fun hp => by rw [hq] at hp; exact .inl hp) (fun hp => by rw [hq] at hp; exact .inr (.inl hp))
  rw [hcalls] at hc'
  rcases Indexed.of_getElem?_set hc hc' with ⟨hi, rfl⟩ | ⟨-, hc'⟩
  · left
    obtain ⟨-, hdropped, hsent⟩ := hI.call_of_executed hx (hi ▸ hc)
    -- the close has succeeded, and its reply says so
    cases hr : c.reply with
    | pending => rw [hr] at ha; cases ha
    | dropped => exact absurd hr hdropped
    | sent a =>
      rw [hr] at ha
      cases ha
      obtain ⟨hkind, rfl⟩ := hsent answer hr
      rw [ho] at hr ⊢
      obtain ⟨handle, kind, phase, reply⟩ := c
      have hkind' : kind = .close := hkind.trans hk
      subst hkind' hr
      simp only [LastToReport, hc, result] at hlast
      exact allDown_of_lastToReport rfl rfl hlast
  · exact .inr ⟨c', hc', hd⟩

theorem of_newCall {handle : ℕ} {kind : Kind} {c' : Call} (hc' : (s.newCall handle kind).calls[k]? = some c')
    (hd : c'.phase.isDone) : s.calls[k]? = some c' := by
  rcases Indexed.getElem?_concat_eq_some.1 hc' with hc' | ⟨-, rfl⟩
  · exact hc'
  · cases hd

theorem inv_step {l : Label} (hs : step s l = some s') (hlast : LastToReport s l) (hI : Inv s) : Inv s' := by
  have hbase := LockFreeConnection.inv_step hs hI.base
  cases l with
  | clone k =>
    obtain ⟨h, hk, rfl⟩ := Option.map_eq_some_iff.1 hs
    exact hI.of_aside hbase rfl rfl (allDown_clone hk) (fun hd => absurd hd (not_allDropped hk)) fun _ _ _ hc _ => hc
  | drop k =>
    obtain ⟨h, hk, hs⟩ := Option.bind_eq_some_iff.1 hs
    split at hs
    · cases hs
      refine hI.of_aside hbase rfl rfl (fun hdown g hg hlive => ?_) (fun hd => absurd hd (not_allDropped hk))
        fun _ _ _ hc _ => hc
      rcases List.mem_or_eq_of_mem_set hg with hg | rfl
      · exact hdown g hg hlive
      · cases hlive
    · cases hs
  | call k kind =>
    obtain ⟨h, hk, rfl⟩ := Option.map_eq_some_iff.1 hs
    exact hI.of_aside hbase rfl rfl id id fun x hx c' hc' hd => of_newCall hc' hd
  | batch k packets =>
    obtain ⟨h, hk, rfl⟩ := Option.map_eq_some_iff.1 hs
    exact hI.of_aside hbase rfl rfl id id fun _ _ _ hc _ => hc
  | spawn b =>
    obtain ⟨batch, hb, hs⟩ := Option.bind_eq_some_iff.1 hs
    obtain ⟨h, hk, hs⟩ := Option.bind_eq_some_iff.1 hs
    obtain ⟨packet, hp, rfl⟩ := Option.map_eq_some_iff.1 hs
    exact hI.of_aside hbase rfl rfl (allDown_clone hk) (fun hd => absurd hd (not_allDropped hk))
      fun x hx c' hc' hd => of_newCall hc' hd
  | send i =>
    obtain ⟨c, hc, hs⟩ := Option.bind_eq_some_iff.1 hs
    split at hs
    · next hstart =>
      have hother {c'} (x) (hx : x ∈ s.commands.executed) (d) (hd : (s.calls.set i c')[x.1.call]? = some d) :
          s.calls[x.1.call]? = some d := by
        rcases Indexed.of_getElem?_set hc hd with ⟨hi, -⟩ | ⟨-, hd⟩
        · exact absurd hstart (hI.call_of_executed hx (hi ▸ hc)).1
        · exact hd
      split at hs
      · next q hq =>
        cases hs
        obtain ⟨hne, rfl, -⟩ := hI.base.commands.send hq
        exact hI.of_aside hbase rfl rfl id id fun x hx d hd _ => hother x hx d hd
      · cases hs
        exact hI.of_aside hbase rfl rfl id id fun x hx d hd _ => hother x hx d hd
    · cases hs
  | receive i =>
    obtain ⟨c, hc, hs⟩ := Option.bind_eq_some_iff.1 hs
    split at hs
    · obtain ⟨answer, ha, rfl⟩ := Option.map_eq_some_iff.1 hs
      exact hI.receive hbase hc ha hlast
    · cases hs
  | join k =>
    obtain ⟨b, hb, hs⟩ := Option.bind_eq_some_iff.1 hs
    split at hs
    · obtain ⟨i, hi, hs⟩ := Option.bind_eq_some_iff.1 hs
      obtain ⟨c, hc, hs⟩ := Option.bind_eq_some_iff.1 hs
      split at hs
      · cases hs
        exact hI.of_aside hbase rfl rfl id id fun _ _ _ hc _ => hc
      · cases hs
    · cases hs
  | take =>
    obtain ⟨q, hq, rfl⟩ := Option.map_eq_some_iff.1 hs
    obtain ⟨command, rest, -, -, rfl, -⟩ := hI.base.commands.take hq
    exact hI.of_quiet hbase rfl id id (fun _ _ _ _ c hc hd => .inr ⟨c, hc, hd⟩) (fun hp => by cases hp)
      fun hp => by cases hp
  | finish o =>
    obtain ⟨⟨command, q⟩, hq, rfl⟩ := Option.map_eq_some_iff.1 hs
    exact hI.finish hbase hq hlast
  | reply =>
    obtain ⟨⟨⟨command, o⟩, q⟩, hq, hs⟩ := Option.bind_eq_some_iff.1 hs
    obtain ⟨c, hc, rfl⟩ := Option.map_eq_some_iff.1 hs
    obtain ⟨hphase, rfl, -⟩ := hI.base.commands.reply hq
    have hexec := hI.base.commands.replying command o hphase
    refine hI.of_quiet hbase rfl id id (fun x hx _ _ d hd hdone => .inr ?_) (fun hp => .inr ⟨_, hexec, ?_⟩) (fun hp => ?_)
    · rcases Indexed.of_getElem?_set hc hd with ⟨hi, rfl⟩ | ⟨-, hd⟩
      · exact ⟨c, hi ▸ hc, hdone⟩
      · exact ⟨d, hd, hdone⟩
    · by_contra hstops
      simp [hstops] at hp
    · simp only at hp
      split at hp <;> cases hp
  | exit =>
    obtain ⟨q, hq, rfl⟩ := Option.map_eq_some_iff.1 hs
    obtain ⟨hphase, rfl, -⟩ := hI.base.commands.exit hq
    refine hI.of_quiet hbase rfl id id (fun x hx _ _ d hd hdone => .inr ?_) (fun hp => by cases hp)
      (fun _ => .inl hphase)
    rw [getElem?_dropReplies] at hd
    obtain ⟨c, hc, rfl⟩ := Option.map_eq_some_iff.1 hd
    refine ⟨c, hc, ?_⟩
    split at hdone <;> exact hdone
  | hangUp =>
    simp only [step] at hs
    split at hs
    · next hall =>
      obtain ⟨q, hq, rfl⟩ := Option.map_eq_some_iff.1 hs
      obtain ⟨-, -, rfl, -⟩ := hI.base.commands.hangUp hq
      refine hI.of_quiet hbase rfl id id (fun _ _ _ _ c hc hd => .inr ⟨c, hc, hd⟩) (fun hp => by cases hp)
        (fun _ => .inr (.inr fun h hh => ?_))
      have hdead := List.all_eq_true.1 hall h hh
      simpa using hdead
    · cases hs

/-- While closes are told to the clone that is last to report a connection, the law holds throughout. -/
theorem closed_reported {isConnected : Bool} {ls : List Label}
    (hlast : StepSystem.Meets step LastToReport (start isConnected) ls) :
    StepSystem.Always step Law (start isConnected) ls :=
  fun ms t hms ht => Inv.law <|
    StepSystem.always_of_meets (fun _ _ _ hs hG hI => inv_step hs hG hI) hlast (inv_start isConnected) ms t hms ht

/-- A clone comes and goes, a close fails, and the next one succeeds. -/
theorem closed_reported_after_retry :
    StepSystem.Always step Law (start true) [.clone 0, .call 1 .flush, .send 0, .take, .finish .ok, .reply, .receive 0, .drop 1,
      .call 0 .close, .send 1, .take, .finish (.error (.connection "reset" true)), .reply, .receive 1,
      .call 0 .close, .send 2, .take, .finish .ok, .reply, .receive 2, .exit] :=
  closed_reported (by decide +kernel)

/-- A close through one of two clones: the other one reports a connection, and a healthy one, for good. -/
theorem clone_reports_connected :
    let ls : List Label := [.clone 0, .call 0 .close, .send 0, .take, .finish .ok, .reply, .receive 0, .exit]
    ∃ s, StepSystem.run step (start true) ls = some s ∧ ¬ Law s := by
  intro ls
  have hr : StepSystem.run step (start true) ls = some _ := rfl
  refine ⟨_, hr, fun h => ?_⟩
  have hflag := (h rfl (fun c hc _ => ?_) ⟨true, true⟩ (.tail _ (.head _)) rfl).1
  · cases hflag
  · cases List.mem_singleton.1 hc
    rfl

end CloseStatus

end Msgtrans
