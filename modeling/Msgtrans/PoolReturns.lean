import Msgtrans.ConnectionPool

/-!
# Returning what is not held

`return_connection` only looks for an entry. It refuses the id of no connection, but takes back one that is available
already: the id is then in the queue twice. `refuses_iff_of_run`: as long as this has not happened, an id that
nobody holds is refused exactly when it is not available.
-/

namespace Msgtrans

namespace ConnectionPool

variable {p p' : ConnectionPool} {s : State} {l : Label} {held : List ConnectionId} {id : ConnectionId}
  {initialSize maxSize : ℕ} {overflowChecks : Bool}

/-- The part of the invariant that does not speak of sizes. -/
structure Sound (held : List ConnectionId) (p : ConnectionPool) : Prop where
  consistent : p.Consistent held
  factors : p.expansionStrategy.factors = ExpansionStrategy.default.factors

theorem sound_initializePool (initialSize maxSize : ℕ) : Sound [] (new initialSize maxSize).initializePool := by
  obtain ⟨-, hs⟩ := createConnections_stats initialSize (new initialSize maxSize)
  simp only [settings, Prod.mk.injEq] at hs
  have hnew : (new initialSize maxSize).Consistent [] := consistent_new
  exact ⟨hnew.createConnections, congrArg ExpansionStrategy.factors hs.2.2⟩

theorem Sound.of_settings {held' : List ConnectionId} (h : Sound held p) (hc : p'.Consistent held')
    (hs : p'.settings = p.settings) : Sound held' p' := by
  simp only [settings, Prod.mk.injEq] at hs
  exact ⟨hc, hs.2.2 ▸ h.factors⟩

theorem Sound.withThreshold (threshold : ℚ) (h : Sound held p) : Sound held (p.withThreshold threshold) := by
  obtain ⟨hc, hf⟩ := h
  exact ⟨⟨hc.1, hc.2, hc.3, hc.4, hc.5, hc.6, hc.7, hc.8, hc.9⟩, hf⟩

theorem Sound.advanceExpansionFactor (h : Sound held p) : Sound held p.advanceExpansionFactor := by
  obtain ⟨hc, hf⟩ := h
  exact ⟨⟨hc.1, hc.2, hc.3, hc.4, hc.5, hc.6, hc.7, hc.8, hc.9⟩,
    (ExpansionStrategy.factors_advanceExpansionFactor _).trans hf⟩

theorem Sound.smartExpand (h : Sound held p) :
    ∃ result p', p.smartExpand overflowChecks = some (result, p') ∧ Sound held p' := by
  obtain ⟨factor, hfactor, hone⟩ := ExpansionStrategy.exists_factor h.factors
  rcases smartExpand_cases overflowChecks h.consistent.available_le hfactor hone with ⟨-, hr⟩ | ⟨-, ⟨-, e, hr⟩ | ⟨-, n, -, hr⟩⟩
  · exact ⟨_, p, hr, h⟩
  · exact ⟨_, p, hr, h⟩
  · have hc := h.of_settings h.consistent.createConnections (createConnections_stats n p).2
    exact ⟨_, _, hr, hc.advanceExpansionFactor⟩

theorem Sound.tryShrink (h : Sound held p) : ∃ result p', p.tryShrink = some (result, p') ∧ Sound held p' := by
  rcases p.tryShrink_cases with hr | ⟨-, n, removed, p', -, hremove, -, hrem, hr⟩
  · exact ⟨_, p, hr, h⟩
  · exact ⟨_, p', hr, h.of_settings (h.consistent.removeConnections hremove) hrem.settings⟩

/-- The call fails, and the pool stays as it is. -/
def Refuses (p : ConnectionPool) (id : ConnectionId) : Prop := ∃ e, p.returnConnection id = (.error e, p)

/-- Only a connection that has no entry is refused. -/
theorem refuses_iff_lookup : p.Refuses id ↔ p.activeConnections.lookup id = none := by
  unfold Refuses returnConnection
  cases hl : p.activeConnections.lookup id with
  | none => exact iff_of_true ⟨_, rfl⟩ rfl
  | some connection =>
    refine iff_of_false ?_ (by simp)
    rintro ⟨e, he⟩
    cases he

/-- What nobody holds has an entry only as long as it is available. -/
theorem Consistent.refuses_iff (h : p.Consistent held) (hid : id ∉ held) :
    p.Refuses id ↔ id ∉ p.availableConnections := by
  rw [refuses_iff_lookup, h.mem_queue]
  constructor
  · rintro hl ⟨c, hc, -⟩
    rw [hl] at hc
    cases hc
  · intro hav
    cases hl : p.activeConnections.lookup id with
    | none => rfl
    | some c =>
      have hstate : c.state = .inUse := (h.state id c hl).2 fun hc => hav ⟨c, hl, hc⟩
      exact absurd ((h.mem_held id).2 ⟨c, hl, hstate⟩) hid

/-- No call returns a connection that is available. -/
def NotAvailable (s : State) : Label → Prop
  | .returnConnection connectionId => connectionId ∉ s.pool.availableConnections
  | _ => True

instance (s : State) : DecidablePred (NotAvailable s)
  | .returnConnection connectionId => inferInstanceAs (Decidable (connectionId ∉ s.pool.availableConnections))
  | .getConnection | .smartExpand | .tryExpand | .forceExpand | .tryShrink => .isTrue trivial

theorem Sound.step (h : Sound s.held s.pool) (hl : NotAvailable s l) :
    ∃ s', step overflowChecks s l = some s' ∧ Sound s'.held s'.pool := by
  cases l with
  | getConnection =>
    rcases h.consistent.getConnection with hr | ⟨id, p', hr, hc, -, hs⟩
    · exact ⟨⟨s.pool, s.held⟩, by simp [ConnectionPool.step, hr], h⟩
    · exact ⟨⟨p', id :: s.held⟩, by simp [ConnectionPool.step, hr], h.of_settings hc hs⟩
  | returnConnection id =>
    by_cases hid : id ∈ s.held
    · obtain ⟨p', hr, hc, -, hs⟩ := h.consistent.returnConnection hid
      exact ⟨⟨p', s.held.erase id⟩, by simp [ConnectionPool.step, hr], h.of_settings hc hs⟩
    · obtain ⟨e, hr⟩ := (h.consistent.refuses_iff hid).2 hl
      exact ⟨⟨s.pool, s.held⟩, by simp [ConnectionPool.step, hr], h⟩
  | smartExpand | tryExpand | forceExpand | tryShrink =>
    exact resize_step (I := Sound) Sound.withThreshold Sound.smartExpand h.tryShrink h (by simp)

/-- In every run that returns no available connection, what nobody holds is refused exactly when it is not available. -/
theorem refuses_iff_of_run {ls : List Label}
    (hls : StepSystem.Meets (step overflowChecks) NotAvailable (start initialSize maxSize) ls) :
    ∃ s, StepSystem.run (step overflowChecks) (start initialSize maxSize) ls = some s ∧
      ∀ id, id ∉ s.held → (s.pool.Refuses id ↔ id ∉ s.pool.availableConnections) := by
  obtain ⟨s, hr, hI⟩ := StepSystem.run_total_of_meets (I := fun s => Sound s.held s.pool) (fun s l hI hl => hI.step hl)
    hls (sound_initializePool initialSize maxSize)
  exact ⟨s, hr, fun id hid => hI.consistent.refuses_iff hid⟩

theorem refuses_iff_of_rounds :
    ∃ s, StepSystem.run (step true) (start 2 10) [.getConnection, .returnConnection 5, .getConnection, .returnConnection 0, .smartExpand,
        .tryShrink, .getConnection] = some s ∧
      ∀ id, id ∉ s.held → (s.pool.Refuses id ↔ id ∉ s.pool.availableConnections) :=
  refuses_iff_of_run (by decide +kernel)

/-- Of two connections 0 is handed out; 1 is taken back although nobody has it, and is then in the queue twice. -/
theorem available_taken_back :
    ∃ s, StepSystem.run (step true) (start 2 10) [.getConnection] = some s ∧ 1 ∉ s.held ∧ ¬ s.pool.Refuses 1 ∧
      (s.pool.returnConnection 1).2.availableConnections = [1, 1] := by
  have hrun : (StepSystem.run (step true) (start 2 10) [.getConnection]).map (fun s => (decide (1 ∈ s.held),
      (s.pool.activeConnections.lookup 1).isSome, (s.pool.returnConnection 1).2.availableConnections)) =
        some (false, true, [1, 1]) := by decide +kernel
  obtain ⟨s, hr, hs⟩ := Option.map_eq_some_iff.1 hrun
  simp only [Prod.mk.injEq] at hs
  obtain ⟨hheld, hstored, hreturn⟩ := hs
  refine ⟨s, hr, of_decide_eq_false hheld, fun hrefuses => ?_, hreturn⟩
  rw [refuses_iff_lookup.1 hrefuses] at hstored
  cases hstored

end ConnectionPool

end Msgtrans
