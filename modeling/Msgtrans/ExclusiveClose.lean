import Msgtrans.ServerSession

/-!
# One closer ends a session (`close_session`, `force_close_session`)

`try_start_closing` lets one of the calls through, whatever the interleaving. As long as the event task
handles no `ConnectionClosed` of the peer, that call alone reports the end, disconnects and removes the
session, in this order, and the others return without effect: `exclusive_close`. The state of the session
only moves forward.
-/

namespace Msgtrans

namespace ServerSession

variable {sessionId : SessionId} {info : ConnectionInfo} {s s' : State} {k : ℕ} {c : Closer} {acts : List Act}
  {ok : Bool}

/-! ### The state only moves forward -/

def stage : CloseState → ℕ
  | .connected => 0
  | .closing => 1
  | .closed => 2

/-- `Connected`, `Closing`, `Closed`, removed. -/
def rank (state : Option CloseState) : ℕ := state.elim 3 stage

theorem rank_le (htable : s'.tables .states = true → s.tables .states = true) (hcell : stage s.cell ≤ stage s'.cell) :
    rank s.state ≤ rank s'.state := by
  unfold State.state
  by_cases ht : s'.tables .states = true
  · rw [if_pos ht, if_pos (htable ht)]
    exact hcell
  · rw [if_neg ht]
    split
    · show stage s.cell ≤ 3
      cases s.cell <;> decide
    · exact Nat.le_refl _

theorem tables_of_remove {t u : Table} (h : (s.remove t ok).tables u = true) : s.tables u = true := by
  rw [remove_eq] at h
  by_cases hok : ok = true ∧ u = t <;> simp_all

theorem closeStep_forward (hs : c.step sessionId s k ok = some s') :
    s'.listener = s.listener ∧ rank s.state ≤ rank s'.state := by
  unfold Closer.step at hs
  cases hpc : c.pc with
  | lock =>
    simp only [hpc] at hs
    split at hs
    · next hcell =>
      cases hs
      exact ⟨rfl, rank_le id (by simp [hcell, stage])⟩
    · cases hs
      exact ⟨rfl, Nat.le_refl _⟩
  | markLock =>
    simp only [hpc] at hs
    cases hs
    refine ⟨rfl, rank_le id ?_⟩
    show stage s.cell ≤ 2
    cases s.cell <;> decide
  | remove t =>
    simp only [hpc] at hs
    cases hs
    refine ⟨?_, rank_le tables_of_remove ?_⟩
    · rw [remove_eq]
      rfl
    · rw [remove_eq]
      exact Nat.le_refl _
  | done result =>
    simp only [hpc] at hs
    cases hs
  | _ =>
    simp only [hpc] at hs
    cases hs
    exact ⟨rfl, Nat.le_refl _⟩

theorem step_forward {l : Label} (hs : step sessionId info s l = some s') (hreg : s.Registered) :
    s'.Registered ∧ rank s.state ≤ rank s'.state := by
  cases l with
  | listenerStep =>
    simp only [step] at hs
    split at hs
    · next t hl => cases t <;> simp [State.Registered, hl, ListenerPc.inserted] at hreg
    · cases hs
      exact ⟨rfl, Nat.le_refl _⟩
    · cases hs
      exact ⟨rfl, Nat.le_refl _⟩
    · cases hs
  | handle event =>
    simp only [step] at hs
    split at hs
    · cases hs
      exact ⟨hreg, Nat.le_refl _⟩
    · cases hs
  | handleStep ok =>
    simp only [step] at hs
    split at hs
    · cases hs
      refine ⟨?_, rank_le tables_of_remove ?_⟩
      · rw [remove_eq]
        exact hreg
      · rw [remove_eq]
        exact Nat.le_refl _
    · cases hs
  | close forced =>
    cases hs
    exact ⟨hreg, Nat.le_refl _⟩
  | closeStep k ok =>
    obtain ⟨c, hc, hs⟩ := Option.bind_eq_some_iff.1 hs
    obtain ⟨hlistener, hle⟩ := closeStep_forward hs
    rw [State.Registered, hlistener]
    exact ⟨hreg, hle⟩

/-! ### One closer -/

/-- `oks` are the tables whose entries went. -/
def Closer.script (sessionId : SessionId) (c : Closer) (oks : Table → Bool) : List Act :=
  [.started, .emitted (.connectionClosed sessionId c.reason), .disconnected, .markedClosed,
    .removed .transports (oks .transports), .removed .stats (oks .stats), .removed .states (oks .states)]

structure ExclusiveClose (sessionId : SessionId) (info : ConnectionInfo) (s : State) : Prop where
  /-- `try_start_closing` returned true at most once -/
  atMostOne : s.starts.length ≤ 1
  exactlyOne : ∀ (k : ℕ) (c : Closer) (result : Except TransportError Unit), s.closers[k]? = some c →
    c.connectedAtCall = true → c.pc = .done result → s.starts.length = 1
  unique : ∀ j k : ℕ, .started ∈ s.actsOf (.closer j) → .started ∈ s.actsOf (.closer k) → j = k
  /-- the one that started does everything, in this order and once; the entries it has removed are out -/
  winner : ∀ (k : ℕ) (c : Closer), s.closers[k]? = some c → .started ∈ s.actsOf (.closer k) →
    ∃ oks, s.actsOf (.closer k) <+: c.script sessionId oks ∧
      ∀ result, c.pc = .done result → s.actsOf (.closer k) = c.script sessionId oks ∧ ∀ t, oks t = true → s.tables t = false
  others : ∀ k : ℕ, .started ∉ s.actsOf (.closer k) → s.actsOf (.closer k) = []
  /-- an entry goes through the one that started only -/
  removal : s.Registered → ∀ t, s.tables t = false → ∃ k : ℕ, .started ∈ s.actsOf (.closer k) ∧ .removed t true ∈ s.actsOf (.closer k)
  returns : ∀ (k : ℕ) (c : Closer) (result : Except TransportError Unit), s.closers[k]? = some c →
    c.pc = .done result → result = .ok ()
  forward : s.Registered → ∀ ls t, StepSystem.run (step sessionId info) s ls = some t → rank s.state ≤ rank t.state

theorem run_forward {ls : List Label} (hr : StepSystem.run (step sessionId info) s ls = some s') (hreg : s.Registered) :
    rank s.state ≤ rank s'.state := by
  have hkept : ∀ t l t', step sessionId info t l = some t' → t.Registered ∧ rank s.state ≤ rank t.state →
      t'.Registered ∧ rank s.state ≤ rank t'.state := by
    rintro t l t' hs ⟨hreg, hle⟩
    obtain ⟨hreg', hle'⟩ := step_forward hs hreg
    exact ⟨hreg', Nat.le_trans hle hle'⟩
  exact (StepSystem.run_invariant hkept hr ⟨hreg, Nat.le_refl _⟩).2

namespace Inv

theorem length_starts_le (h : Inv sessionId s) : s.starts.length ≤ 1 := by
  rw [h.starts]
  split <;> decide

theorem eq_of_started {j : ℕ} (h : Inv sessionId s) (hj : .started ∈ s.actsOf (.closer j))
    (hk : .started ∈ s.actsOf (.closer k)) : j = k := by
  have hmem : ∀ {i}, .started ∈ s.actsOf (.closer i) → ⟨.closer i, .started⟩ ∈ s.starts :=
    fun hi => List.mem_filter.2 ⟨mem_actsOf.1 hi, rfl⟩
  have hlen := h.length_starts_le
  rcases hs : s.starts with _ | ⟨a, _ | ⟨b, rest⟩⟩
  · exact absurd hs (starts_ne_nil hj)
  · have hja := hmem hj
    have hka := hmem hk
    rw [hs, List.mem_singleton] at hja hka
    cases hja.trans hka.symm
    rfl
  · rw [hs] at hlen
    simp at hlen

/-- As long as the peer's close is not handled, nobody takes the entries away from the closer that started. -/
theorem skips_eq {t : Table} {act : Act} (h : Inv sessionId s) (hpeer : ¬ s.PeerClosed)
    (hstarted : .started ∈ s.actsOf (.closer k)) (hskips : s.Skips k t act acts) : acts = [act] := by
  rcases hskips with heq | ⟨-, a, ha, hne, hact⟩
  · exact heq
  · rcases h.removers a ha t true hact with ⟨j, hj⟩ | hclosed
    · obtain ⟨d, hd⟩ : ∃ d, s.closers[j]? = some d := ⟨_, List.getElem?_eq_getElem (h.actors a ha j hj)⟩
      have hmem : .removed t true ∈ s.actsOf (.closer j) := by
        rw [mem_actsOf, ← hj, ← hact]
        exact ha
      rw [h.eq_of_started (did_started (h.did j d hd) hmem) hstarted] at hj
      exact absurd hj hne
    · exact absurd hclosed hpeer

theorem winner (h : Inv sessionId s) (hpeer : ¬ s.PeerClosed) (hc : s.closers[k]? = some c)
    (hstarted : .started ∈ s.actsOf (.closer k)) : ∃ oks, s.actsOf (.closer k) <+: c.script sessionId oks ∧
      ∀ result, c.pc = .done result → s.actsOf (.closer k) = c.script sessionId oks := by
  have hskips : ∀ {t : Table} {act : Act} {l : List Act}, s.Skips k t act l → l = [act] :=
    fun hl => h.skips_eq hpeer hstarted hl
  have hdid := h.did k c hc
  unfold Closer.Did at hdid
  cases hpc : c.pc with
  | lookup =>
    simp only [hpc] at hdid
    simp [hdid] at hstarted
  | lock =>
    simp only [hpc] at hdid
    simp [hdid.2] at hstarted
  | markLookup =>
    simp only [hpc] at hdid
    obtain ⟨-, d, hd, heq⟩ := hdid
    simp [heq, hskips hd, Closer.script]
  | markLock =>
    simp only [hpc] at hdid
    obtain ⟨-, d, hd, heq⟩ := hdid
    simp [heq, hskips hd, Closer.script]
  | remove t =>
    simp only [hpc] at hdid
    obtain ⟨-, d, m, oks, hd, hm, heq⟩ := hdid
    refine ⟨oks, ?_, fun _ hr => nomatch hr⟩
    cases t <;> simp [heq, hskips hd, hskips hm, Closer.script, Table.removedBefore]
  | done result =>
    simp only [hpc] at hdid
    rcases hdid.2 with hnil | ⟨d, m, oks, hd, hm, heq⟩
    · simp [hnil] at hstarted
    · refine ⟨oks, ?_, fun _ _ => ?_⟩ <;> simp [heq, hskips hd, hskips hm, Closer.script, Table.removedBefore]
  | _ =>
    simp only [hpc] at hdid
    simp [hdid.2, Closer.script]

/-- A removal that went is on record, and the closer had started. -/
theorem removal (h : Inv sessionId s) (hpeer : ¬ s.PeerClosed) (hreg : s.Registered) {t : Table} (ht : s.tables t = false) :
    ∃ k : ℕ, .started ∈ s.actsOf (.closer k) ∧ .removed t true ∈ s.actsOf (.closer k) := by
  obtain ⟨a, ha, hact⟩ := h.gone t (inserted_of_registered hreg t) ht
  obtain ⟨k, hk⟩ := (h.removers a ha t true hact).resolve_right hpeer
  obtain ⟨c, hc⟩ : ∃ c, s.closers[k]? = some c := ⟨_, List.getElem?_eq_getElem (h.actors a ha k hk)⟩
  have hmem : .removed t true ∈ s.actsOf (.closer k) := by
    rw [mem_actsOf, ← hk, ← hact]
    exact ha
  exact ⟨k, did_started (h.did k c hc) hmem, hmem⟩

theorem exclusiveClose (h : Inv sessionId s) (hpeer : ¬ s.PeerClosed) : ExclusiveClose sessionId info s where
  atMostOne := h.length_starts_le
  exactlyOne k c result hc hcalled hpc := by
    refine Nat.le_antisymm h.length_starts_le (List.length_pos_iff.2 ?_)
    exact ((h.called k c hc hcalled).2 ⟨result, hpc⟩).resolve_right hpeer
  unique j k hj hk := h.eq_of_started hj hk
  winner k c hc hstarted := by
    obtain ⟨oks, hprefix, hdone⟩ := h.winner hpeer hc hstarted
    refine ⟨oks, hprefix, fun result hpc => ⟨hdone result hpc, fun t ht => ?_⟩⟩
    have hmem : .removed t true ∈ s.actsOf (.closer k) := by
      rw [hdone result hpc]
      cases t <;> simp [Closer.script, ht]
    exact (h.out _ (mem_actsOf.1 hmem) t rfl).2
  others k hno := by
    refine List.eq_nil_iff_forall_not_mem.2 fun act hact => ?_
    obtain ⟨c, hc⟩ : ∃ c, s.closers[k]? = some c :=
      ⟨_, List.getElem?_eq_getElem (h.actors _ (mem_actsOf.1 hact) k rfl)⟩
    exact hno (did_started (h.did k c hc) hact)
  removal hreg t ht := h.removal hpeer hreg ht
  returns k c result hc hpc := by
    have hdid := h.did k c hc
    simp only [Closer.Did, hpc] at hdid
    exact hdid.1
  forward hreg _ _ hr := run_forward hr hreg

end Inv

/-- Of all the closers of a session, whatever the interleaving, one does the closing. -/
theorem exclusive_close {ls : List Label} (hr : StepSystem.run (step sessionId info) start ls = some s)
    (hpeer : ¬ s.PeerClosed) : ExclusiveClose sessionId info s :=
  (StepSystem.run_invariant (fun _ _ _ hs h => h.step hs) hr Inv.start).exclusiveClose hpeer

def accepted : ConnectionInfo := ⟨0, "127.0.0.1:9001", "127.0.0.1:50000", "tcp", .connected⟩

/-- Three closers: the second locks the cell after the first, the third only after its entry is removed. The session is out. -/
theorem exclusive_close_race :
    let ls := [.listenerStep, .listenerStep, .listenerStep, .listenerStep, .listenerStep, .close false, .close true,
      .close false, .closeStep 0 true, .closeStep 1 true, .closeStep 2 true, .closeStep 0 true, .closeStep 1 true,
      .closeStep 0 true, .closeStep 0 true, .closeStep 0 true, .closeStep 0 true, .closeStep 0 true,
      .closeStep 0 true, .closeStep 0 true, .closeStep 0 true, .closeStep 2 true]
    ∃ s, StepSystem.run (step 1 accepted) start ls = some s ∧ (∀ t, s.tables t = false) ∧ ExclusiveClose 1 accepted s := by
  intro ls
  have hr : StepSystem.run (step 1 accepted) start ls = some _ := rfl
  exact ⟨_, hr, fun t => by cases t <;> rfl, exclusive_close hr (by decide)⟩

end ServerSession

end Msgtrans
