import Msgtrans.Lib.Indexed
import Msgtrans.Lib.Run
import Msgtrans.Event

/-!
# Answering a request once (`RequestContext`, `TransportContext`)

A request context carries its responder and an `AtomicBool` that says whether it was answered. Both `clone`s share the flag;
the conversion of a `RequestContext` into a `TransportContext` takes the responder over and makes a flag of its
own. A step is one `compare_exchange` of a flag or one call of the responder, so each flag lets one
answer through: the responder is called once exactly when all answers go through contexts of one flag,
`respondsOnce_iff`.
-/

namespace Msgtrans

namespace Responders

inductive Kind where
  | requestContext
  | transportContext
deriving DecidableEq

structure Context where
  kind : Kind
  peer : Option SessionId
  messageId : UInt32
  bizType : UInt8
  extHeader : Option Bytes
  data : Bytes
  /-- the number of its `Arc<AtomicBool>` -/
  responded : ℕ
  /-- it was consumed, by the conversion or by `TransportContext::respond` -/
  moved : Bool

/-- `ServerEvent::from_transport_event_with_session` on a `RequestReceived`. -/
def Context.convert (c : Context) (sessionId : SessionId) (responded : ℕ) : Context where
  kind := .transportContext
  peer := some sessionId
  messageId := c.messageId
  bizType := c.bizType
  extHeader := none
  data := c.data
  responded := responded
  moved := false

/-- `respond` and `respond_bytes`, or `respond_text`. -/
inductive Response where
  | bytes (response : Bytes)
  | text (response : String)

def Response.payload : Response → Bytes
  | .bytes response => response
  | .text response => response.toUTF8.toList

inductive CallPc where
  | exchange
  | invoke
  | done
deriving DecidableEq

structure Call where
  responded : ℕ
  response : Bytes
  pc : CallPc

structure State where
  contexts : List Context
  flags : List Bool
  calls : List Call
  /-- the calls whose `compare_exchange` succeeded, in order -/
  won : List (ℕ × Bytes)
  /-- what the responder was called with -/
  invoked : List Bytes

inductive Label where
  | clone (i : ℕ)
  | convert (i : ℕ) (sessionId : SessionId)
  | respond (i : ℕ) (response : Response)
  | callStep (k : ℕ)

/-- A request has just been received. -/
def start (c : Context) : State := ⟨[{ c with responded := 0, moved := false }], [false], [], [], []⟩

def State.goto (s : State) (k : ℕ) (c : Call) (pc : CallPc) : State :=
  { s with calls := s.calls.set k { c with pc := pc } }

/-- `compare_exchange(false, true)`, then the responder. -/
def Call.step (s : State) (k : ℕ) (c : Call) : Option State :=
  match c.pc with
  | .exchange =>
    if s.flags[c.responded]? = some false then
      some { s.goto k c .invoke with
        flags := s.flags.set c.responded true
        won := s.won ++ [(c.responded, c.response)] }
    else some (s.goto k c .done)
  | .invoke => some { s.goto k c .done with invoked := s.invoked ++ [c.response] }
  | .done => none

def respond (s : State) (i : ℕ) (c : Context) (response : Response) : Option State :=
  let s := { s with calls := s.calls ++ [⟨c.responded, response.payload, .exchange⟩] }
  match c.kind, response with
  | .requestContext, _ => some s
  | .transportContext, .bytes _ => some { s with contexts := s.contexts.set i { c with moved := true } }
  -- there is no `TransportContext::respond_text`
  | .transportContext, .text _ => none

def step (s : State) : Label → Option State
  | .clone i => s.contexts[i]?.bind fun c => if c.moved then none else some { s with contexts := s.contexts ++ [c] }
  | .convert i sessionId => s.contexts[i]?.bind fun c =>
    if c.moved ∨ c.kind ≠ .requestContext then none
    else some { s with
      contexts := s.contexts.set i { c with moved := true } ++ [c.convert sessionId s.flags.length]
      flags := s.flags ++ [false] }
  | .respond i response => s.contexts[i]?.bind fun c => if c.moved then none else respond s i c response
  | .callStep k => s.calls[k]?.bind fun c => c.step s k

namespace State

/-- No call is in progress. -/
def Quiet (s : State) : Prop := ∀ c ∈ s.calls, c.pc = .done

/-- All calls were made on contexts that share one flag. -/
def Shared (s : State) : Prop := ∀ c ∈ s.calls, ∀ d ∈ s.calls, c.responded = d.responded

structure RespondsOnce (s : State) : Prop where
  once : s.invoked.length ≤ 1
  first : ∀ b ∈ s.invoked, ∃ w, s.won.head? = some w ∧ b = w.2
  answered : s.calls ≠ [] → s.Quiet → s.invoked ≠ []

end State

structure Inv (s : State) : Prop where
  context : ∀ c ∈ s.contexts, c.responded < s.flags.length
  call : ∀ c ∈ s.calls, c.responded < s.flags.length
  flag : ∀ f, s.flags[f]? = some true ↔ f ∈ s.won.map Prod.fst
  nodup : (s.won.map Prod.fst).Nodup
  winner : ∀ w ∈ s.won, w.1 ∈ s.calls.map (·.responded)
  past : ∀ c ∈ s.calls, c.pc ≠ .exchange → c.responded ∈ s.won.map Prod.fst
  count : s.invoked.length + s.calls.countP (fun c => c.pc = .invoke) = s.won.length
  invoking : ∀ c ∈ s.calls, c.pc = .invoke → (c.responded, c.response) ∈ s.won
  invoked : ∀ b ∈ s.invoked, b ∈ s.won.map Prod.snd

variable {s s' : State} {k i : ℕ} {c : Call}

theorem inv_start (c : Context) : Inv (start c) := by
  refine ⟨?_, by simp [start], fun f => ?_, List.nodup_nil, by simp [start], by simp [start], rfl, by simp [start],
    by simp [start]⟩
  · intro d hd
    rw [List.mem_singleton.1 hd]
    exact Nat.one_pos
  · refine iff_of_false (fun h => ?_) List.not_mem_nil
    have := List.mem_of_getElem? h
    simp [start] at this

namespace Inv

/-- Contexts and calls come in with a flag that exists; nothing was won by that. -/
theorem grow (h : Inv s) {contexts : List Context} {flags : List Bool} {calls : List Call}
    (hflags : ∀ b ∈ flags, b = false) (hcalls : ∀ c ∈ calls, c.pc = .exchange ∧ c.responded < s.flags.length)
    (hcontexts : ∀ c ∈ contexts, c.responded < (s.flags ++ flags).length) :
    Inv { s with contexts := contexts, flags := s.flags ++ flags, calls := s.calls ++ calls } := by
  have hlen : s.flags.length ≤ (s.flags ++ flags).length := by simp
  refine ⟨hcontexts, fun c hc => ?_, fun f => ?_, h.nodup, fun w hw => ?_, fun c hc hpc => ?_, ?_, fun c hc hpc => ?_, h.invoked⟩
  · rcases List.mem_append.1 hc with hc | hc
    · exact Nat.lt_of_lt_of_le (h.call c hc) hlen
    · exact Nat.lt_of_lt_of_le (hcalls c hc).2 hlen
  · rw [← h.flag f]
    show (s.flags ++ flags)[f]? = some true ↔ s.flags[f]? = some true
    rw [List.getElem?_append]
    split
    · exact Iff.rfl
    · next hlt =>
      refine iff_of_false (fun hf => ?_) (fun hf => hlt (List.getElem?_eq_some_iff.1 hf).1)
      cases hflags _ (List.mem_of_getElem? hf)
  · show w.1 ∈ (s.calls ++ calls).map (·.responded)
    rw [List.map_append]
    exact List.mem_append_left _ (h.winner w hw)
  · rcases List.mem_append.1 hc with hc | hc
    · exact h.past c hc hpc
    · exact absurd (hcalls c hc).1 hpc
  · have hnone : calls.countP (fun c => c.pc = .invoke) = 0 := by
      refine List.countP_eq_zero.2 fun c hc => ?_
      rw [(hcalls c hc).1]
      decide
    show s.invoked.length + (s.calls ++ calls).countP _ = s.won.length
    rw [List.countP_append, hnone]
    exact h.count
  · rcases List.mem_append.1 hc with hc | hc
    · exact h.invoking c hc hpc
    · cases (hcalls c hc).1.symm.trans hpc

theorem context_set (h : Inv s) {d : Context} (hd : s.contexts[i]? = some d) :
    ∀ c ∈ s.contexts.set i { d with moved := true }, c.responded < s.flags.length := by
  intro c hc
  rcases List.mem_or_eq_of_mem_set hc with hc | rfl
  · exact h.context c hc
  · exact h.context d (List.mem_of_getElem? hd)

/-- A call moves on to `pc`; at most it adds itself to those that won. -/
theorem move (h : Inv s) (hc : s.calls[k]? = some c) {pc : CallPc} {flags : List Bool} {won : List (ℕ × Bytes)}
    {invoked : List Bytes} (hlen : flags.length = s.flags.length) (hflag : ∀ f, flags[f]? = some true ↔ f ∈ won.map Prod.fst)
    (hnodup : (won.map Prod.fst).Nodup) (hold : ∀ w ∈ s.won, w ∈ won)
    (hnew : ∀ w ∈ won, w ∈ s.won ∨ w = (c.responded, c.response))
    (hpast : c.responded ∈ won.map Prod.fst) (hinvoke : pc = .invoke → (c.responded, c.response) ∈ won)
    (hcount : invoked.length + (s.goto k c pc).calls.countP (fun c => c.pc = .invoke) = won.length)
    (hinvoked : ∀ b ∈ invoked, b ∈ won.map Prod.snd) :
    Inv { s.goto k c pc with flags := flags, won := won, invoked := invoked } := by
  have hmem := List.mem_of_getElem? hc
  have hmap : (s.goto k c pc).calls.map (·.responded) = s.calls.map (·.responded) := Indexed.map_set_of_eq hc rfl
  refine ⟨fun d hd => ?_, fun d hd => ?_, hflag, hnodup, fun w hw => ?_, fun d hd hdpc => ?_, hcount, fun d hd hdpc => ?_, hinvoked⟩
  · rw [hlen]
    exact h.context d hd
  · rw [hlen]
    rcases List.mem_or_eq_of_mem_set hd with hd | rfl
    · exact h.call d hd
    · exact h.call c hmem
  · show w.1 ∈ (s.goto k c pc).calls.map (·.responded)
    rw [hmap]
    rcases hnew w hw with hw | rfl
    · exact h.winner w hw
    · exact List.mem_map_of_mem hmem
  · rcases List.mem_or_eq_of_mem_set hd with hd | rfl
    · obtain ⟨w, hw, heq⟩ := List.mem_map.1 (h.past d hd hdpc)
      exact List.mem_map.2 ⟨w, hold w hw, heq⟩
    · exact hpast
  · rcases List.mem_or_eq_of_mem_set hd with hd | rfl
    · exact hold _ (h.invoking d hd hdpc)
    · exact hinvoke hdpc

/-- The flag was up: the call has lost. -/
theorem lose (h : Inv s) (hc : s.calls[k]? = some c) (hpc : c.pc = .exchange) (hflag : s.flags[c.responded]? ≠ some false) :
    Inv (s.goto k c .done) := by
  have hup : s.flags[c.responded]? = some true := by
    rw [List.getElem?_eq_getElem (h.call c (List.mem_of_getElem? hc))] at hflag ⊢
    simpa using hflag
  have hcount : (s.goto k c .done).calls.countP (fun c => c.pc = .invoke) + _ = _ := Indexed.countP_set_add hc
  simp only [hpc, decide_false, reduceCtorEq, Bool.false_eq_true, if_false, Nat.add_zero] at hcount
  refine h.move hc rfl h.flag h.nodup (fun _ => id) (fun _ => .inl) ((h.flag _).1 hup) (fun hd => nomatch hd) ?_ h.invoked
  rw [hcount]
  exact h.count

theorem win (h : Inv s) (hc : s.calls[k]? = some c) (hpc : c.pc = .exchange) (hflag : s.flags[c.responded]? = some false) :
    Inv { s.goto k c .invoke with flags := s.flags.set c.responded true, won := s.won ++ [(c.responded, c.response)] } := by
  have hnew : c.responded ∉ s.won.map Prod.fst := by
    rw [← h.flag, hflag]
    decide
  have hwon : (s.won ++ [(c.responded, c.response)]).map Prod.fst = s.won.map Prod.fst ++ [c.responded] := List.map_append
  have hcount : (s.goto k c .invoke).calls.countP (fun c => c.pc = .invoke) + _ = _ := Indexed.countP_set_add hc
  simp only [hpc, decide_false, decide_true, reduceCtorEq, Bool.false_eq_true, if_false, if_true, Nat.add_zero] at hcount
  refine h.move hc (List.length_set ..) (fun f => ?_) ?_ (fun w hw => List.mem_append_left _ hw) (fun w hw => ?_) ?_
    (fun _ => List.mem_append_right _ List.mem_cons_self) ?_ fun b hb => ?_
  · rw [hwon, List.mem_append, List.mem_singleton, ← h.flag f, Indexed.getElem?_set_of_some hflag]
    split
    · next hf => exact iff_of_true rfl (.inr hf)
    · next hf => exact (or_iff_left hf).symm
  · rw [hwon, List.nodup_append]
    exact ⟨h.nodup, List.nodup_singleton _, fun f hf g hg hfg => hnew (List.mem_singleton.1 hg ▸ hfg ▸ hf)⟩
  · exact (List.mem_append.1 hw).imp id List.mem_singleton.1
  · rw [hwon]
    exact List.mem_append_right _ List.mem_cons_self
  · have := h.count
    show s.invoked.length + _ = (s.won ++ [_]).length
    rw [hcount, List.length_append, List.length_singleton]
    omega
  · rw [List.map_append]
    exact List.mem_append_left _ (h.invoked b hb)

theorem invoke (h : Inv s) (hc : s.calls[k]? = some c) (hpc : c.pc = .invoke) :
    Inv { s.goto k c .done with invoked := s.invoked ++ [c.response] } := by
  have hwon := h.invoking c (List.mem_of_getElem? hc) hpc
  have hcount : (s.goto k c .done).calls.countP (fun c => c.pc = .invoke) + _ = _ := Indexed.countP_set_add hc
  simp only [hpc, decide_false, decide_true, reduceCtorEq, Bool.false_eq_true, if_false, if_true, Nat.add_zero] at hcount
  refine h.move hc rfl h.flag h.nodup (fun _ => id) (fun _ => .inl) (List.mem_map_of_mem hwon) (fun hd => nomatch hd) ?_
    fun b hb => ?_
  · have := h.count
    show (s.invoked ++ [_]).length + _ = s.won.length
    rw [List.length_append, List.length_singleton]
    omega
  · rcases List.mem_append.1 hb with hb | hb
    · exact h.invoked b hb
    · rw [List.mem_singleton.1 hb]
      exact List.mem_map_of_mem hwon

theorem callStep (h : Inv s) (hc : s.calls[k]? = some c) (hs : c.step s k = some s') : Inv s' := by
  unfold Call.step at hs
  split at hs
  · next hpc =>
    split at hs
    · next hflag =>
      cases hs
      exact h.win hc hpc hflag
    · next hflag =>
      cases hs
      exact h.lose hc hpc hflag
  · next hpc =>
    cases hs
    exact h.invoke hc hpc
  · cases hs

theorem respond (h : Inv s) {d : Context} {response : Response} (hd : s.contexts[i]? = some d)
    (hs : Responders.respond s i d response = some s') : Inv s' := by
  have hlt := h.context d (List.mem_of_getElem? hd)
  have hcalls : ∀ c ∈ [Call.mk d.responded response.payload .exchange], c.pc = .exchange ∧ c.responded < s.flags.length := by
    intro c hc
    rw [List.mem_singleton.1 hc]
    exact ⟨rfl, hlt⟩
  have hflags : (s.flags ++ []).length = s.flags.length := by rw [List.append_nil]
  have hsame : ∀ c ∈ s.contexts, c.responded < (s.flags ++ []).length := by
    rw [hflags]
    exact h.context
  have hset : ∀ c ∈ s.contexts.set i { d with moved := true }, c.responded < (s.flags ++ []).length := by
    rw [hflags]
    exact h.context_set hd
  unfold Responders.respond at hs
  split at hs
  · cases hs
    have := h.grow (fun b hb => absurd hb List.not_mem_nil) hcalls hsame
    rwa [List.append_nil] at this
  · cases hs
    have := h.grow (fun b hb => absurd hb List.not_mem_nil) hcalls hset
    rwa [List.append_nil] at this
  · cases hs

theorem step {l : Label} (h : Inv s) (hs : step s l = some s') : Inv s' := by
  cases l with
  | callStep k =>
    obtain ⟨c, hc, hs⟩ := Option.bind_eq_some_iff.1 hs
    exact h.callStep hc hs
  | respond i response =>
    obtain ⟨d, hd, hs⟩ := Option.bind_eq_some_iff.1 hs
    split at hs
    · cases hs
    · exact h.respond hd hs
  | clone i =>
    obtain ⟨d, hd, hs⟩ := Option.bind_eq_some_iff.1 hs
    split at hs
    · cases hs
    · cases hs
      have hcontexts : ∀ c ∈ s.contexts ++ [d], c.responded < (s.flags ++ []).length := by
        rw [List.append_nil]
        exact List.forall_mem_append.2 ⟨h.context, List.forall_mem_singleton.2 (h.context d (List.mem_of_getElem? hd))⟩
      have := h.grow (fun b hb => absurd hb List.not_mem_nil) (fun c hc => absurd hc List.not_mem_nil) hcontexts
      rwa [List.append_nil, List.append_nil] at this
  | convert i sessionId =>
    obtain ⟨d, hd, hs⟩ := Option.bind_eq_some_iff.1 hs
    split at hs
    · cases hs
    · cases hs
      have hlen : (s.flags ++ [false]).length = s.flags.length + 1 := List.length_append
      have hcontexts : ∀ c ∈ s.contexts.set i { d with moved := true } ++ [d.convert sessionId s.flags.length],
          c.responded < (s.flags ++ [false]).length := by
        rw [hlen]
        exact List.forall_mem_append.2 ⟨fun c hc => Nat.lt_succ_of_lt (h.context_set hd c hc),
          List.forall_mem_singleton.2 (Nat.lt_succ_self _)⟩
      have := h.grow (fun b hb => List.mem_singleton.1 hb) (fun c hc => absurd hc List.not_mem_nil) hcontexts
      rwa [List.append_nil] at this

theorem won_length_le (h : Inv s) (hshared : s.Shared) : s.won.length ≤ 1 := by
  rw [← List.length_map Prod.fst]
  by_contra hlt
  obtain ⟨f, g, rest, hfg⟩ : ∃ f g rest, s.won.map Prod.fst = f :: g :: rest := by
    match hw : s.won.map Prod.fst with
    | [] => simp [hw] at hlt
    | [f] => simp [hw] at hlt
    | f :: g :: rest => exact ⟨f, g, rest, rfl⟩
  -- two flags were won, and each was a call's
  have hcall : ∀ x ∈ s.won.map Prod.fst, ∃ c ∈ s.calls, c.responded = x := by
    intro x hx
    obtain ⟨w, hw, rfl⟩ := List.mem_map.1 hx
    exact List.mem_map.1 (h.winner w hw)
  obtain ⟨c, hc, rfl⟩ := hcall f (by simp [hfg])
  obtain ⟨d, hd, rfl⟩ := hcall g (by simp [hfg])
  have hnodup := h.nodup
  rw [hfg, hshared c hc d hd] at hnodup
  exact (List.nodup_cons.1 hnodup).1 List.mem_cons_self

theorem invoked_length (h : Inv s) (hquiet : s.Quiet) : s.invoked.length = s.won.length := by
  have hnone : s.calls.countP (fun c => c.pc = .invoke) = 0 := by
    refine List.countP_eq_zero.2 fun c hc => ?_
    rw [hquiet c hc]
    decide
  have := h.count
  omega

theorem mem_won (h : Inv s) (hquiet : s.Quiet) (hc : c ∈ s.calls) : c.responded ∈ s.won.map Prod.fst :=
  h.past c hc (by rw [hquiet c hc]; decide)

theorem respondsOnce (h : Inv s) (hshared : s.Shared) : s.RespondsOnce := by
  have hwon := h.won_length_le hshared
  refine ⟨Nat.le_trans (Nat.le_trans (Nat.le_add_right ..) (Nat.le_of_eq h.count)) hwon, fun b hb => ?_, fun hne hquiet hnil => ?_⟩
  · obtain ⟨w, hw, rfl⟩ := List.mem_map.1 (h.invoked b hb)
    refine ⟨w, ?_, rfl⟩
    match hs : s.won with
    | [] => simp [hs] at hw
    | [w'] =>
      rw [hs] at hw
      rw [List.mem_singleton.1 hw]
      rfl
    | _ :: _ :: _ => simp [hs] at hwon
  · obtain ⟨c, hc⟩ := List.exists_mem_of_ne_nil _ hne
    have hlen := h.invoked_length hquiet
    rw [hnil, List.length_nil] at hlen
    have := h.mem_won hquiet hc
    rw [List.eq_nil_of_length_eq_zero hlen.symm] at this
    cases this

theorem shared (h : Inv s) (hquiet : s.Quiet) (hlaw : s.RespondsOnce) : s.Shared := by
  intro c hc d hd
  have hlen : (s.won.map Prod.fst).length ≤ 1 := by
    rw [List.length_map, ← h.invoked_length hquiet]
    exact hlaw.once
  have hcw := h.mem_won hquiet hc
  have hdw := h.mem_won hquiet hd
  match hw : s.won.map Prod.fst with
  | [] =>
    rw [hw] at hcw
    cases hcw
  | [f] =>
    rw [hw] at hcw hdw
    rw [List.mem_singleton.1 hcw, List.mem_singleton.1 hdw]
  | _ :: _ :: _ => simp [hw] at hlen

end Inv

/-- The law of the copies of one request: as long as the calls share a flag it holds in every state, and once no
call is in progress it holds only then. -/
theorem respondsOnce_iff (c : Context) {ls : List Label} (hr : StepSystem.run step (start c) ls = some s) :
    (s.Shared → s.RespondsOnce) ∧ (s.Quiet → (s.RespondsOnce ↔ s.Shared)) := by
  have h : Inv s := StepSystem.run_invariant (fun _ _ _ hs h => h.step hs) hr (inv_start c)
  exact ⟨h.respondsOnce, fun hquiet => ⟨h.shared hquiet, h.respondsOnce⟩⟩

/-- The request `?` with id 2, of session 7. -/
def sample : Context := ⟨.requestContext, some 7, 2, 0, none, [63], 0, false⟩

/-- Two clones answer at the same time; the second loses. -/
theorem respondsOnce_iff_clones :
    let ls : List Label := [.clone 0, .respond 0 (.bytes [65]), .respond 1 (.text "B"), .callStep 0, .callStep 1, .callStep 0]
    ∃ s, StepSystem.run step (start sample) ls = some s ∧
      (s.Shared → s.RespondsOnce) ∧ (s.Quiet → (s.RespondsOnce ↔ s.Shared)) := by
  intro ls
  have hr : StepSystem.run step (start sample) ls = some _ := rfl
  exact ⟨_, hr, respondsOnce_iff sample hr⟩

/-- A clone is converted for the server's application; both copies are answered. -/
theorem converted_copy_answers_again :
    let ls : List Label := [.clone 0, .convert 1 7, .respond 0 (.bytes [65]), .respond 2 (.bytes [66]), .callStep 0,
      .callStep 0, .callStep 1, .callStep 1]
    ∃ s, StepSystem.run step (start sample) ls = some s ∧ s.invoked = [[65], [66]] ∧ ¬ s.RespondsOnce := by
  intro ls
  have hr : StepSystem.run step (start sample) ls = some _ := rfl
  exact ⟨_, hr, rfl, fun h => absurd h.once (by decide)⟩

end Responders

end Msgtrans
