import Msgtrans.Lib.Indexed
import Msgtrans.Lifecycle

/-!
# Which connection a close acts on (`close_session`, `force_close_session`)

A close is started for a session id and then names what it acts on in other ways: `close()` goes to
whatever `connection_adapter` holds, `mark_closed` to whatever is registered under the id, the session id
is cleared when it is equal, and `connection_adapter` is cleared with it. The connection the close is for,
its target, is the one registered under the id when `try_start_closing` succeeds. The state carries who
wrote each place last, the targets of the closes, and what each close acted on. All closes keep to their
targets, and spare every other connection, exactly as long as no `set_connection` overtakes one of them:
`confined_iff`.
-/

namespace Msgtrans

namespace CloseTarget

open StepSystem
open Lifecycle (ConnId Adapter Installer Closer InstallPc ClosePc)

structure State where
  life : Lifecycle.State
  /-- the `set_connection` call that wrote `session_id` last -/
  sessionBy : Option (ConnId × SessionId)
  /-- the connection whose `set_connection` called `add_connection` with the session id last -/
  registered : SessionId → Option ConnId
  /-- of each close -/
  targets : Nat → Option ConnId
  /-- the closes with the connections they acted on -/
  acted : List (Nat × ConnId)

def start : State := ⟨Lifecycle.start, none, fun _ => none, fun _ => none, []⟩

/-- The connection that the next step of a close acts on. -/
def State.hit (s : State) (call : Closer) : Option ConnId :=
  match call.pc with
  | .beginClose => s.life.connectionAdapter
  | .markClosed => s.registered call.sessionId
  | .clearSession => s.life.sessionId.bind fun _ => s.sessionBy.map (·.1)
  | .clearAdapter => s.life.connectionAdapter
  | _ => none

def State.act (s : State) (k : Nat) (call : Closer) : State :=
  { s with acted := s.acted ++ (s.hit call).toList.map fun c => (k, c) }

/-- What a step adds to the history. -/
def State.record (s : State) : Lifecycle.Label → State
  | .installStep i =>
    match s.life.installers[i]? with
    | some ⟨c, sessionId, .setSession⟩ => { s with sessionBy := some (c, sessionId) }
    | some ⟨c, sessionId, .addConnection⟩ =>
      { s with registered := fun id => if id = sessionId then some c else s.registered id }
    | _ => s
  | .closeStep k =>
    match s.life.closers[k]? with
    | some ⟨sessionId, .tryStart⟩ =>
      if (s.life.stateManager.tryStartClosing sessionId).1 then
        { s with targets := fun j => if j = k then s.registered sessionId else s.targets j }
      else s
    | some call => s.act k call
    | none => s
  | _ => s

def step (lib : CompressionLib) (s : State) (l : Lifecycle.Label) : Option State :=
  (Lifecycle.step lib s.life l).map fun life => { s.record l with life := life }

/-- No close has touched `c`: it is open, its session is `Connected`, and it is installed unless another
`set_connection` came after. -/
structure State.Intact (s : State) (c : ConnId) : Prop where
  closeNotBegun : ∀ a, s.life.adapters c = some a → a.closeBegun = false
  installed : s.life.latest = some c → s.life.connectionAdapter = some c
  current : ∀ sessionId, s.sessionBy = some (c, sessionId) → s.life.sessionId = some sessionId
  connected : ∀ sessionId, s.registered sessionId = some c →
    s.life.stateManager.states sessionId = some .connected

/-- Closes act only on their targets, and what is no close's target is not touched. -/
structure Confined (s : State) : Prop where
  onTarget : ∀ k c, (k, c) ∈ s.acted → s.targets k = some c
  spared : ∀ c, (∀ k, s.targets k ≠ some c) → s.Intact c

/-- The connection of the `set_connection` call that wrote last what the next step of a close acts on. -/
def State.owner (s : State) (call : Closer) : Option ConnId :=
  match call.pc with
  | .beginClose => s.life.connectionAdapter.bind fun _ => s.life.latest
  | .markClosed => s.registered call.sessionId
  | .clearSession => s.life.sessionId.bind fun _ => s.sessionBy.map (·.1)
  | .clearAdapter => s.life.connectionAdapter.bind fun _ => s.life.latest
  | _ => none

/-- No other `set_connection` has written what a close acts on since its target was registered. -/
def NotOvertaken (s : State) : Lifecycle.Label → Prop
  | .closeStep k => ∀ call c, s.life.closers[k]? = some call → s.owner call = some c → s.targets k = some c
  | _ => True

/-! ### What the steps of a `Transport` touch -/

section Touch

variable {lib : CompressionLib} {s s' : Lifecycle.State} {l : Lifecycle.Label} {c : ConnId} {a a' : Adapter}

/-- No `close()` is called on a connection. -/
def ClosesNone (s s' : Lifecycle.State) : Prop :=
  ∀ c a', s'.adapters c = some a' → a'.closeBegun = true → ∃ a, s.adapters c = some a ∧ a.closeBegun = true

theorem closesNone_of_eq (h : s'.adapters = s.adapters) : ClosesNone s s' := fun _ a' ha' hbegun =>
  ⟨a', h ▸ ha', hbegun⟩

theorem closesNone_setAdapter (h : a'.closeBegun = true → ∃ a, s.adapters c = some a ∧ a.closeBegun = true) :
    ClosesNone s (s.setAdapter c a') := by
  intro d b hb hbegun
  rcases Lifecycle.adapters_setAdapter hb with ⟨rfl, rfl⟩ | ⟨-, hb⟩
  · exact h hbegun
  · exact ⟨b, hb, hbegun⟩

/-- What is left alone by every step other than those of `set_connection` and of a close. -/
structure Untouched (s s' : Lifecycle.State) : Prop where
  connectionAdapter : s'.connectionAdapter = s.connectionAdapter
  sessionId : s'.sessionId = s.sessionId
  stateManager : s'.stateManager = s.stateManager
  latest : s'.latest = s.latest
  closers : ∀ (k : Nat) (call : Closer), s.closers[k]? = some call → s'.closers[k]? = some call
  closesNone : ClosesNone s s'

theorem untouched_setAdapter (ha : s.adapters c = some a) (h : a'.closeBegun = a.closeBegun) :
    Untouched s (s.setAdapter c a') :=
  ⟨rfl, rfl, rfl, rfl, fun _ _ h => h, closesNone_setAdapter fun hbegun => ⟨a, ha, h.symm.trans hbegun⟩⟩

theorem untouched_of_step (hs : Lifecycle.step lib s l = some s') (hinstall : ∀ i, l ≠ .installStep i)
    (hclose : ∀ k, l ≠ .closeStep k) : Untouched s s' := by
  cases l with
  | connect c protocol =>
    simp only [Lifecycle.step] at hs
    split at hs
    · cases hs
      exact ⟨rfl, rfl, rfl, rfl, fun _ _ h => h, closesNone_setAdapter fun h => by cases h⟩
    · cases hs
  | install c sessionId =>
    cases hs
    exact ⟨rfl, rfl, rfl, rfl, fun _ _ h => h, closesNone_of_eq rfl⟩
  | installStep i => exact absurd rfl (hinstall i)
  | subscribe c =>
    obtain ⟨a, ha, hs⟩ := Option.bind_eq_some_iff.1 hs
    split at hs
    · cases hs
      exact untouched_setAdapter ha rfl
    · cases hs
  | loopClosed c reason =>
    obtain ⟨a, ha, hs⟩ := Option.bind_eq_some_iff.1 hs
    split at hs
    · cases hs
      exact untouched_setAdapter ha rfl
    · cases hs
  | loopShutdown c =>
    obtain ⟨a, ha, hs⟩ := Option.bind_eq_some_iff.1 hs
    split at hs
    · cases hs
      exact untouched_setAdapter ha rfl
    · cases hs
  | onEvent c =>
    obtain ⟨a, ha, hs⟩ := Option.bind_eq_some_iff.1 hs
    split at hs
    · cases hs
      have h := untouched_setAdapter (s := s) (c := c) ha (rfl : ({ a with closedEvent := .processed } : Adapter).closeBegun = _)
      exact ⟨rfl, rfl, rfl, rfl, fun _ _ h => h, h.closesNone⟩
    · cases hs
  | close sessionId =>
    cases hs
    exact ⟨rfl, rfl, rfl, rfl, fun _ _ h => Indexed.getElem?_concat_of_some h, closesNone_of_eq rfl⟩
  | closeStep k => exact absurd rfl (hclose k)

end Touch

/-! ### The law -/

structure Inv (s : State) : Prop where
  onTarget : ∀ k c, (k, c) ∈ s.acted → s.targets k = some c
  started : ∀ k c, s.targets k = some c → ∃ call, s.life.closers[k]? = some call ∧ call.pc ≠ .tryStart
  closed : ∀ c a, s.life.adapters c = some a → a.closeBegun = true → ∃ k, (k, c) ∈ s.acted
  latest : ∀ c, s.life.connectionAdapter = some c → s.life.latest = some c
  installed : ∀ c, s.life.latest = some c → s.life.connectionAdapter = some c ∨ ∃ k, (k, c) ∈ s.acted
  current : ∀ c sessionId, s.sessionBy = some (c, sessionId) →
    s.life.sessionId = some sessionId ∨ ∃ k, (k, c) ∈ s.acted
  connected : ∀ c sessionId, s.registered sessionId = some c →
    s.life.stateManager.states sessionId = some .connected ∨ ∃ k, s.targets k = some c

variable {lib : CompressionLib} {s s' : State} {l : Lifecycle.Label} {c : ConnId} {k : Nat} {call : Closer}

namespace Inv

theorem start : Inv start := by
  refine ⟨?_, ?_, ?_, ?_, ?_, ?_, ?_⟩ <;> simp [CloseTarget.start, Lifecycle.start]

theorem confined (h : Inv s) : Confined s := by
  refine ⟨h.onTarget, fun c hfree => ⟨fun a ha => ?_, fun hl => ?_, fun x hx => ?_, fun x hx => ?_⟩⟩
  · by_contra hbegun
    obtain ⟨k, hk⟩ := h.closed c a ha (Bool.not_eq_false _ ▸ hbegun)
    exact hfree k (h.onTarget k c hk)
  · exact (h.installed c hl).resolve_right fun ⟨k, hk⟩ => hfree k (h.onTarget k c hk)
  · exact (h.current c x hx).resolve_right fun ⟨k, hk⟩ => hfree k (h.onTarget k c hk)
  · exact (h.connected c x hx).resolve_right fun ⟨k, hk⟩ => hfree k hk

/-- What `connection_adapter` holds was put there by the last `set_connection`. -/
theorem owner_eq (h : Inv s) (call : Closer) : s.owner call = s.hit call := by
  have hlatest : (s.life.connectionAdapter.bind fun _ => s.life.latest) = s.life.connectionAdapter := by
    cases hc : s.life.connectionAdapter with
    | none => rfl
    | some c => exact h.latest c hc
  unfold State.owner State.hit
  split <;> first | exact hlatest | rfl

theorem untouched (h : Inv s) {life : Lifecycle.State} (hu : Untouched s.life life) : Inv { s with life := life } := by
  refine ⟨h.onTarget, fun k c hk => ?_, fun c a' ha' hbegun => ?_, fun c hc => ?_, fun c hl => ?_, fun c x hx => ?_,
    fun c x hx => ?_⟩
  · obtain ⟨call, hcall, hpc⟩ := h.started k c hk
    exact ⟨call, hu.closers k call hcall, hpc⟩
  · obtain ⟨a, ha, hbegun⟩ := hu.closesNone c a' ha' hbegun
    exact h.closed c a ha hbegun
  · exact hu.latest.trans (h.latest c (hu.connectionAdapter.symm.trans hc))
  · exact (h.installed c (hu.latest.symm.trans hl)).imp_left hu.connectionAdapter.trans
  · exact (h.current c x hx).imp_left hu.sessionId.trans
  · refine (h.connected c x hx).imp_left fun hstate => ?_
    rw [hu.stateManager]
    exact hstate

/-- A close that has started acts on its target. -/
theorem act (h : Inv s) (k : Nat) (call : Closer) (hG : ∀ c, s.hit call = some c → s.targets k = some c) :
    Inv (s.act k call) := by
  refine ⟨fun j c hj => ?_, h.started, fun c a ha hbegun => ?_, h.latest, fun c hl => ?_, fun c x hx => ?_, h.connected⟩
  · rcases List.mem_append.1 hj with hj | hj
    · exact h.onTarget j c hj
    · obtain ⟨d, hd, heq⟩ := List.mem_map.1 hj
      cases heq
      exact hG c (Option.mem_toList.1 hd)
  · obtain ⟨j, hj⟩ := h.closed c a ha hbegun
    exact ⟨j, List.mem_append_left _ hj⟩
  · exact (h.installed c hl).imp_right fun ⟨j, hj⟩ => ⟨j, List.mem_append_left _ hj⟩
  · exact (h.current c x hx).imp_right fun ⟨j, hj⟩ => ⟨j, List.mem_append_left _ hj⟩

theorem closed_setAdapter (h : Inv s) {a' : Adapter} (ha' : a'.closeBegun = true → ∃ k, (k, c) ∈ s.acted) (d : ConnId)
    (b : Adapter) (hb : (s.life.setAdapter c a').adapters d = some b) (hbegun : b.closeBegun = true) :
    ∃ k, (k, d) ∈ s.acted := by
  rcases Lifecycle.adapters_setAdapter hb with ⟨rfl, rfl⟩ | ⟨-, hb⟩
  · exact ha' hbegun
  · exact h.closed d b hb hbegun

theorem mem_act (h : s.hit call = some c) : (k, c) ∈ (s.act k call).acted :=
  List.mem_append_right _ (List.mem_map.2 ⟨c, Option.mem_toList.2 h, rfl⟩)

theorem moved (h : Inv s) (hcall : s.life.closers[k]? = some call) (pc : ClosePc) (hpc : pc ≠ .tryStart) :
    Inv { s with life := { s.life with closers := s.life.closers.set k { call with pc := pc } } } := by
  refine ⟨h.onTarget, fun j c hj => ?_, h.closed, h.latest, h.installed, h.current, h.connected⟩
  obtain ⟨call', hcall', hpc'⟩ := h.started j c hj
  by_cases hjk : j = k
  · exact ⟨_, (Indexed.getElem?_set_of_some hcall).trans (if_pos hjk), hpc⟩
  · exact ⟨call', (Indexed.getElem?_set_of_some hcall).trans ((if_neg hjk).trans hcall'), hpc'⟩

theorem tryStart (h : Inv s) {sessionId : SessionId} (hcall : s.life.closers[k]? = some ⟨sessionId, .tryStart⟩)
    {m : ConnectionStateManager} (hs : s.life.stateManager.tryStartClosing sessionId = (true, m)) :
    Inv { s with
      targets := fun j => if j = k then s.registered sessionId else s.targets j
      life := { s.life with
        stateManager := m
        closers := s.life.closers.set k ⟨sessionId, .beginClose⟩ } } := by
  -- the close had no target before
  have hnew : ∀ j c, s.targets j = some c → j ≠ k := by
    rintro j c hj rfl
    obtain ⟨call', hcall', hpc'⟩ := h.started j c hj
    cases hcall.symm.trans hcall'
    exact hpc' rfl
  refine ⟨fun j c hj => ?_, fun j c hj => ?_, h.closed, h.latest, h.installed, h.current, fun c x hx => ?_⟩
  · have htarget := h.onTarget j c hj
    exact (if_neg (hnew j c htarget)).trans htarget
  · by_cases hjk : j = k
    · exact ⟨_, (Indexed.getElem?_set_of_some hcall).trans (if_pos hjk), by simp⟩
    · obtain ⟨call', hcall', hpc'⟩ := h.started j c ((if_neg hjk).symm.trans hj)
      exact ⟨call', (Indexed.getElem?_set_of_some hcall).trans ((if_neg hjk).trans hcall'), hpc'⟩
  · by_cases hxs : x = sessionId
    · exact .inr ⟨k, (if_pos rfl).trans (hxs ▸ hx)⟩
    · rcases h.connected c x hx with hstate | ⟨j, hj⟩
      · refine .inl ?_
        unfold ConnectionStateManager.tryStartClosing at hs
        split at hs
        · cases hs
          exact (if_neg hxs).trans hstate
        · cases hs
      · exact .inr ⟨j, (if_neg (hnew j c hj)).trans hj⟩

theorem closer (h : Inv s) (hcall : s.life.closers[k]? = some call) (hpc : call.pc ≠ .tryStart)
    (hG : ∀ c, s.hit call = some c → s.targets k = some c) {t : Lifecycle.State} {pc : ClosePc}
    (hs : call.step s.life = some (t, pc)) :
    Inv { s.act k call with life := { t with closers := t.closers.set k { call with pc := pc } } } := by
  have hmove : ∀ pc ≠ ClosePc.tryStart, Inv { s.act k call with
      life := { s.life with closers := s.life.closers.set k { call with pc := pc } } } :=
    fun pc hpc => (h.act k call hG).moved hcall pc hpc
  unfold Closer.step at hs
  cases hp : call.pc with
  | tryStart => exact absurd hp hpc
  | beginClose =>
    simp only [hp] at hs
    split at hs
    · cases hs
      exact hmove _ (by simp)
    · next d hd =>
      obtain ⟨a, ha, hs⟩ := Option.map_eq_some_iff.1 hs
      cases hs
      have h' := hmove (.endClose d) (by simp)
      have hacted : (k, d) ∈ (s.act k call).acted := mem_act (by rw [State.hit, hp, hd])
      exact ⟨h'.onTarget, h'.started, h'.closed_setAdapter fun _ => ⟨k, hacted⟩, h'.latest, h'.installed, h'.current,
        h'.connected⟩
  | endClose d =>
    simp only [hp] at hs
    obtain ⟨a, ha, hs⟩ := Option.map_eq_some_iff.1 hs
    cases hs
    have h' := hmove .markClosed (by simp)
    exact ⟨h'.onTarget, h'.started, h'.closed_setAdapter (h'.closed d a ha), h'.latest, h'.installed, h'.current,
      h'.connected⟩
  | markClosed =>
    simp only [hp] at hs
    cases hs
    have h' := hmove .compare (by simp)
    refine ⟨h'.onTarget, h'.started, h'.closed, h'.latest, h'.installed, h'.current, fun c x hx => ?_⟩
    by_cases hxs : x = call.sessionId
    · subst hxs
      exact .inr ⟨k, hG c (by rw [State.hit, hp]; exact hx)⟩
    · refine (h'.connected c x hx).imp_left fun hstate => ?_
      unfold ConnectionStateManager.markClosed
      split
      · exact (if_neg hxs).trans hstate
      · exact hstate
  | compare =>
    simp only [hp] at hs
    cases hs
    exact hmove _ (by split <;> simp)
  | clearSession =>
    simp only [hp] at hs
    cases hs
    have h' := hmove .clearAdapter (by simp)
    refine ⟨h'.onTarget, h'.started, h'.closed, h'.latest, h'.installed, fun c x hx => ?_, h'.connected⟩
    rcases h'.current c x hx with hcur | hacted
    · refine .inr ⟨k, mem_act ?_⟩
      rw [State.hit, hp]
      show s.life.sessionId.bind _ = some c
      rw [show s.life.sessionId = some x from hcur, Option.bind_some, show s.sessionBy = some (c, x) from hx,
        Option.map_some]
    · exact .inr hacted
  | clearAdapter =>
    simp only [hp] at hs
    cases hs
    have h' := hmove .done (by simp)
    refine ⟨h'.onTarget, h'.started, h'.closed, fun c hc => (nomatch hc), fun c hl => ?_, h'.current, h'.connected⟩
    rcases h'.installed c hl with hinst | hacted
    · exact .inr ⟨k, mem_act (by rw [State.hit, hp]; exact hinst)⟩
    · exact .inr hacted
  | done =>
    simp only [hp] at hs
    cases hs

theorem installStep {i : Nat} (h : Inv s) (hs : CloseTarget.step lib s (.installStep i) = some s') : Inv s' := by
  obtain ⟨life, hlife, rfl⟩ := Option.map_eq_some_iff.1 hs
  obtain ⟨⟨d, sessionId, pc⟩, hcall, hlife⟩ := Option.bind_eq_some_iff.1 hlife
  obtain ⟨⟨t, pc'⟩, ht, hlife⟩ := Option.map_eq_some_iff.1 hlife
  cases hlife
  simp only [State.record, hcall]
  cases pc with
  | setAdapter =>
    obtain ⟨a, ha, ht⟩ := Option.bind_eq_some_iff.1 ht
    split at ht
    · cases ht
    · cases ht
      exact ⟨h.onTarget, h.started, h.closed_setAdapter (h.closed d a ha), fun c hc => hc, fun c hl => .inl hl,
        h.current, h.connected⟩
  | setSession =>
    cases ht
    refine ⟨h.onTarget, h.started, h.closed, h.latest, h.installed, fun c x hx => ?_, h.connected⟩
    cases hx
    exact .inl rfl
  | addConnection =>
    cases ht
    refine ⟨h.onTarget, h.started, h.closed, h.latest, h.installed, h.current, fun c x hx => ?_⟩
    by_cases hxs : x = sessionId
    · exact .inl (if_pos hxs)
    · exact (h.connected c x ((if_neg hxs).symm.trans hx)).imp_left (if_neg hxs).trans
  | spawnConsumer =>
    simp only [Installer.step] at ht
    split at ht
    · cases ht
      exact h.untouched ⟨rfl, rfl, rfl, rfl, fun _ _ h => h, closesNone_of_eq rfl⟩
    · obtain ⟨a, ha, ht⟩ := Option.map_eq_some_iff.1 ht
      cases ht
      exact h.untouched ⟨rfl, rfl, rfl, rfl, fun _ _ h => h, closesNone_setAdapter fun hbegun => ⟨a, ha, hbegun⟩⟩
  | done => cases ht

theorem closeStep (h : Inv s) (hs : CloseTarget.step lib s (.closeStep k) = some s')
    (hG : NotOvertaken s (.closeStep k)) : Inv s' := by
  obtain ⟨life, hlife, rfl⟩ := Option.map_eq_some_iff.1 hs
  obtain ⟨call, hcall, hlife⟩ := Option.bind_eq_some_iff.1 hlife
  obtain ⟨⟨t, pc⟩, ht, hlife⟩ := Option.map_eq_some_iff.1 hlife
  cases hlife
  obtain ⟨sessionId, pc0⟩ := call
  by_cases hpc : pc0 = .tryStart
  · subst hpc
    simp only [State.record, hcall]
    simp only [Closer.step] at ht
    generalize htry : s.life.stateManager.tryStartClosing sessionId = started at ht ⊢
    obtain ⟨ok, m⟩ := started
    cases ok with
    | true =>
      cases ht
      exact h.tryStart hcall htry
    | false =>
      cases ht
      unfold ConnectionStateManager.tryStartClosing at htry
      split at htry
      · cases htry
      · cases htry
        exact h.moved hcall .done (by simp)
  · have hrec : s.record (.closeStep k) = s.act k ⟨sessionId, pc0⟩ := by
      simp only [State.record, hcall]
      cases pc0 <;> first | rfl | exact absurd rfl hpc
    rw [hrec]
    exact h.closer hcall hpc (fun c hc => hG _ c hcall ((h.owner_eq _).trans hc)) ht

theorem step (h : Inv s) (hs : CloseTarget.step lib s l = some s') (hG : NotOvertaken s l) : Inv s' := by
  by_cases hinstall : ∃ i, l = .installStep i
  · obtain ⟨i, rfl⟩ := hinstall
    exact h.installStep hs
  · by_cases hclose : ∃ k, l = .closeStep k
    · obtain ⟨k, rfl⟩ := hclose
      exact h.closeStep hs hG
    · obtain ⟨life, hlife, rfl⟩ := Option.map_eq_some_iff.1 hs
      have hu := untouched_of_step hlife (fun i hi => hinstall ⟨i, hi⟩) (fun k hk => hclose ⟨k, hk⟩)
      have hrec : s.record l = s := by
        cases l <;> first | rfl | exact absurd ⟨_, rfl⟩ hinstall | exact absurd ⟨_, rfl⟩ hclose
      rw [hrec]
      exact h.untouched hu

theorem notOvertaken (h : Inv s) (hs : CloseTarget.step lib s l = some s') (hlaw : Confined s') : NotOvertaken s l := by
  cases l with
  | closeStep k =>
    intro call c hcall howner
    rw [h.owner_eq] at howner
    obtain ⟨life, hlife, rfl⟩ := Option.map_eq_some_iff.1 hs
    have hrec : s.record (.closeStep k) = s.act k call := by
      simp only [State.record, hcall]
      obtain ⟨sessionId, pc⟩ := call
      cases pc <;> first | rfl | cases howner
    have htarget := hlaw.onTarget k c
    simp only [hrec] at htarget
    exact htarget (mem_act howner)
  | _ => trivial

end Inv

/-- In every state of a run the closes have kept to their targets and spared everything else exactly when
none of them was overtaken by a `set_connection`. -/
theorem confined_iff {ls : List Lifecycle.Label} (hr : run (step lib) start ls = some s) :
    Always (step lib) Confined start ls ↔ Meets (step lib) NotOvertaken start ls :=
  always_iff_meets_of_step (I := Inv) (fun _ => Inv.confined) (fun _ _ _ hs hG h => h.step hs hG)
    (fun _ _ _ hs h hlaw => h.notOvertaken hs hlaw) hr .start

/-- `set_connection` installs TCP connection `c` as session `sessionId`, in its `i`-th call. -/
def connect (i : Nat) (c : ConnId) (sessionId : SessionId) : List Lifecycle.Label :=
  [.connect c .tcp, .install c sessionId, .installStep i, .installStep i, .installStep i, .installStep i]

theorem confined_iff_reconnect :
    let ls := connect 0 0 1 ++ [.close 1, .closeStep 0, .closeStep 0, .loopShutdown 0, .closeStep 0, .closeStep 0,
      .closeStep 0, .closeStep 0, .closeStep 0] ++ connect 1 1 1
    Always (step ⟨none, none⟩) Confined start ls ↔ Meets (step ⟨none, none⟩) NotOvertaken start ls :=
  confined_iff (s := _) rfl

/-- Session 1 is closed when connection 1 has replaced its connection 0 as session 2, and it is connection 1
that is closed. A client reconnects, again as session 1, while its close of session 1 waits between
`close()` and `mark_closed`, and the close uninstalls the new connection. -/
theorem reconnect_closed :
    (∃ s, run (step ⟨none, none⟩) start (connect 0 0 1 ++ connect 1 1 2 ++ [.close 1, .closeStep 0, .closeStep 0]) =
      some s ∧ ¬ Confined s) ∧
    ∃ s, run (step ⟨none, none⟩) start (connect 0 0 1 ++ [.close 1, .closeStep 0, .closeStep 0, .loopShutdown 0,
        .closeStep 0] ++ connect 1 1 1 ++ [.closeStep 0, .closeStep 0, .closeStep 0, .closeStep 0]) = some s ∧
      ¬ Confined s := by
  have htarget : ∀ k, (if k = 0 then some 0 else none : Option ConnId) ≠ some 1 := by
    intro k
    split <;> simp
  refine ⟨⟨_, rfl, fun h => ?_⟩, ⟨_, rfl, fun h => ?_⟩⟩
  · exact nomatch (h.spared 1 htarget).closeNotBegun _ rfl
  · exact nomatch (h.spared 1 htarget).installed rfl

end CloseTarget

end Msgtrans
