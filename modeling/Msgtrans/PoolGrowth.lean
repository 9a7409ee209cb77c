import Mathlib.Algebra.Order.Field.Basic
import Mathlib.Tactic.Linarith
import Msgtrans.ConnectionPool

/-!
# How the pool grows and shrinks

`smart_expand` aims at the total times the current factor, rounded down. It fails when that is above the limit, also
below it with every connection in use; and from a small total with a small factor the rounding leaves nothing to add.
`grows_of_run` is what a reachable pool does when its utilization asks for more, also one whose queue and counters an
id returned twice has put out of step.

The thresholds are far enough apart for the four factors and the rounding: a pool that has grown is not small enough
to shrink, and one that has shrunk not full enough to grow (`never_undone`).
-/

namespace Msgtrans

namespace ConnectionPool

variable {p p' : ConnectionPool} {s s' : State} {l : Label} {initialSize maxSize inUse : ℕ} {threshold factor : ℚ}
  {overflowChecks : Bool}

/-- The size `smart_expand` aims at. -/
def target (p : ConnectionPool) (factor : ℚ) : ℕ := ⌊(p.stats.totalConnections : ℚ) * factor⌋₊

/-- Whatever is returned, no more ids are queued than are counted, and of the strategy only the index has moved. -/
structure Counted (maxSize : ℕ) (threshold : ℚ) (p : ConnectionPool) : Prop where
  queue : p.availableConnections.length ≤ p.stats.availableConnections
  maxSize_eq : p.maxSize = maxSize
  strategy : ∃ k, p.expansionStrategy = { ExpansionStrategy.default with
    currentFactorIndex := k, expansionThreshold := threshold }

theorem exists_default_factor {k : ℕ} (h : p.expansionStrategy = { ExpansionStrategy.default with
    currentFactorIndex := k, expansionThreshold := threshold }) :
    ∃ factor, p.getCurrentExpansionFactor = some factor ∧ 11 / 10 ≤ factor ∧ factor ≤ 2 := by
  have hlt : min k 3 < ExpansionStrategy.default.factors.length := by
    show min k 3 < 4
    omega
  have hf : p.getCurrentExpansionFactor = ExpansionStrategy.default.factors[min k 3]? := by
    rw [getCurrentExpansionFactor, h]
    rfl
  refine ⟨_, hf.trans (List.getElem?_eq_getElem hlt), ?_⟩
  have hmem : ExpansionStrategy.default.factors[min k 3] ∈ ExpansionStrategy.default.factors := List.getElem_mem hlt
  generalize ExpansionStrategy.default.factors[min k 3] = factor at hmem
  simp only [ExpansionStrategy.default, List.mem_cons, List.not_mem_nil, or_false] at hmem
  rcases hmem with rfl | rfl | rfl | rfl <;> norm_num

theorem Counted.of_settings (h : Counted maxSize threshold p) (hs : p'.settings = p.settings)
    (hqueue : p'.availableConnections.length ≤ p'.stats.availableConnections) : Counted maxSize threshold p' := by
  simp only [settings, Prod.mk.injEq] at hs
  exact ⟨hqueue, hs.2.1.trans h.maxSize_eq, hs.2.2 ▸ h.strategy⟩

theorem Counted.withThreshold (h : Counted maxSize threshold p) (threshold' : ℚ) :
    Counted maxSize threshold' (p.withThreshold threshold') := by
  obtain ⟨k, hk⟩ := h.strategy
  refine ⟨h.queue, h.maxSize_eq, k, ?_⟩
  rw [ConnectionPool.withThreshold, hk]

theorem Counted.advanceExpansionFactor (h : Counted maxSize threshold p) :
    Counted maxSize threshold p.advanceExpansionFactor := by
  obtain ⟨k, hk⟩ := h.strategy
  refine ⟨h.queue, h.maxSize_eq, ?_⟩
  rw [ConnectionPool.advanceExpansionFactor, ExpansionStrategy.advanceExpansionFactor, hk]
  split
  · exact ⟨k + 1, rfl⟩
  · exact ⟨k, rfl⟩

theorem length_createConnections (n : ℕ) (p : ConnectionPool) :
    (createConnections n p).availableConnections.length = p.availableConnections.length + n := by
  induction n generalizing p with
  | zero => rfl
  | succ n ih =>
    rw [ConnectionPool.createConnections, ih, createConnection, List.length_append, List.length_singleton]
    omega

theorem Counted.createConnections (h : Counted maxSize threshold p) (n : ℕ) :
    Counted maxSize threshold (createConnections n p) := by
  obtain ⟨hstats, hs⟩ := createConnections_stats n p
  refine h.of_settings hs ?_
  rw [hstats, length_createConnections]
  exact Nat.add_le_add_right h.queue n

theorem Counted.getConnection (h : Counted maxSize threshold p) :
    ∃ r, p.getConnection = some r ∧ Counted maxSize threshold r.2 := by
  have hqueue := h.queue
  rcases hq : p.availableConnections with _ | ⟨connectionId, rest⟩
  · exact ⟨(_, p), by simp only [ConnectionPool.getConnection, hq]; rfl, h⟩
  · rw [hq, List.length_cons] at hqueue
    cases hl : p.activeConnections.lookup connectionId with
    | none =>
      exact ⟨(_, { p with availableConnections := rest }), by simp only [ConnectionPool.getConnection, hq, hl]; rfl,
        h.of_settings rfl (Nat.le_of_succ_le hqueue)⟩
    | some connection =>
      obtain ⟨n, hn⟩ := Nat.exists_eq_add_of_le' (Nat.le_of_add_left_le hqueue)
      refine ⟨_, getConnection_of_cons hq hl hn, h.of_settings rfl ?_⟩
      simp only
      omega

theorem Counted.returnConnection (h : Counted maxSize threshold p) (id : ConnectionId) :
    Counted maxSize threshold (p.returnConnection id).2 := by
  unfold ConnectionPool.returnConnection
  split
  · exact h
  · refine h.of_settings rfl ?_
    have := h.queue
    simp only [List.length_append, List.length_singleton]
    omega

/-- `current_total - available_count` panics. -/
def Panics (overflowChecks : Bool) (p : ConnectionPool) : Prop :=
  overflowChecks ∧ p.stats.totalConnections < p.stats.availableConnections

/-- Whatever the counters say, `smart_expand` changes nothing or creates connections. -/
theorem Counted.smartExpand (h : Counted maxSize threshold p) (overflowChecks : Bool) :
    p.smartExpand overflowChecks = none ∧ p.Panics overflowChecks ∨
      ∃ r, p.smartExpand overflowChecks = some r ∧ Counted maxSize threshold r.2 := by
  obtain ⟨k, hk⟩ := h.strategy
  obtain ⟨factor, hfactor, hone, -⟩ := exists_default_factor hk
  have hgrow : p.stats.totalConnections ≤ ⌊(p.stats.totalConnections : ℚ) * factor⌋₊ :=
    Nat.le_floor (le_mul_of_one_le_right (Nat.cast_nonneg _) (by linarith))
  simp only [ConnectionPool.smartExpand, hfactor, Option.bind_eq_bind, Option.bind_some, checkedSub_of_le hgrow]
  generalize hu : (if p.stats.totalConnections > 0 then _ else _ : Option ℚ) = u
  cases u with
  | none =>
    split at hu
    · exact .inl ⟨rfl, WordArith.checks_of_sub_eq_none (Option.map_eq_none_iff.1 hu)⟩
    · cases hu
  | some utilization =>
    right
    rw [Option.bind_some]
    split
    · exact ⟨_, rfl, h⟩
    split
    · exact ⟨_, rfl, h⟩
    · exact ⟨_, rfl, (h.createConnections _).advanceExpansionFactor⟩

theorem Counted.forceExpand (h : Counted maxSize threshold p) (overflowChecks : Bool) :
    p.forceExpand overflowChecks = none ∧ p.Panics overflowChecks ∨
      ∃ r, p.forceExpand overflowChecks = some r ∧ Counted maxSize threshold r.2 := by
  obtain ⟨k, hk⟩ := h.strategy
  rw [show threshold = p.expansionStrategy.expansionThreshold by rw [hk], ConnectionPool.forceExpand]
  rcases (h.withThreshold 0).smartExpand overflowChecks with ⟨hr, hp⟩ | ⟨⟨result, p'⟩, hr, h'⟩
  · exact .inl ⟨by rw [hr]; rfl, hp⟩
  · exact .inr ⟨(result, p'.withThreshold _), by rw [hr]; rfl, h'.withThreshold _⟩

theorem Counted.tryShrink (h : Counted maxSize threshold p) :
    ∃ r, p.tryShrink = some r ∧ Counted maxSize threshold r.2 := by
  rcases p.tryShrink_cases with hr | ⟨-, n, removed, p', -, -, -, hrem, hr⟩
  · exact ⟨_, hr, h⟩
  · refine ⟨_, hr, h.of_settings hrem.settings ?_⟩
    have := h.queue
    have := hrem.available
    have := hrem.queue
    simp only
    omega
/-- A call returns unless `smart_expand` panics in it. -/
theorem Counted.step (h : Counted maxSize threshold s.pool) (l : Label) :
    step overflowChecks s l = none ∧ s.pool.Panics overflowChecks ∨
      ∃ s', step overflowChecks s l = some s' ∧ Counted maxSize threshold s'.pool := by
  cases l with
  | getConnection =>
    obtain ⟨⟨result, p⟩, hr, h'⟩ := h.getConnection
    refine .inr ⟨_, by rw [ConnectionPool.step, hr]; rfl, ?_⟩
    cases result <;> exact h'
  | returnConnection id =>
    have h' := h.returnConnection id
    rw [ConnectionPool.step]
    split
    · next p hr =>
      rw [hr] at h'
      exact .inr ⟨_, rfl, h'⟩
    · next e p hr =>
      rw [hr] at h'
      exact .inr ⟨_, rfl, h'⟩
  | smartExpand | tryExpand =>
    rcases h.smartExpand overflowChecks with ⟨hr, hp⟩ | ⟨r, hr, h'⟩
    · exact .inl ⟨by simp [ConnectionPool.step, tryExpand, hr], hp⟩
    · exact .inr ⟨⟨r.2, s.held⟩, by simp [ConnectionPool.step, tryExpand, hr], h'⟩
  | forceExpand =>
    rcases h.forceExpand overflowChecks with ⟨hr, hp⟩ | ⟨r, hr, h'⟩
    · exact .inl ⟨by simp [ConnectionPool.step, hr], hp⟩
    · exact .inr ⟨⟨r.2, s.held⟩, by simp [ConnectionPool.step, hr], h'⟩
  | tryShrink =>
    obtain ⟨r, hr, h'⟩ := h.tryShrink
    exact .inr ⟨⟨r.2, s.held⟩, by simp [ConnectionPool.step, hr], h'⟩

theorem counted_step (hs : step overflowChecks s l = some s') (h : Counted maxSize threshold s.pool) :
    Counted maxSize threshold s'.pool := by
  rcases h.step l with ⟨hnone, -⟩ | ⟨t, ht, h'⟩
  · cases hs.symm.trans hnone
  · cases hs.symm.trans ht
    exact h'

theorem counted_start (initialSize maxSize : ℕ) :
    Counted maxSize ExpansionStrategy.default.expansionThreshold (start initialSize maxSize).pool := by
  have hnew : Counted maxSize ExpansionStrategy.default.expansionThreshold (new initialSize maxSize) :=
    ⟨Nat.le_refl _, rfl, 0, rfl⟩
  exact hnew.createConnections initialSize

theorem counted_of_run {ls : List Label} (hr : StepSystem.run (step overflowChecks) (start initialSize maxSize) ls = some s) :
    Counted maxSize ExpansionStrategy.default.expansionThreshold s.pool :=
  StepSystem.run_invariant (I := fun s => Counted maxSize ExpansionStrategy.default.expansionThreshold s.pool)
    (fun _ _ _ => counted_step) hr (counted_start initialSize maxSize)

/-- Without overflow checks every sequence of calls is a run. -/
theorem run_isSome (initialSize maxSize : ℕ) (ls : List Label) :
    ∃ s, StepSystem.run (step false) (start initialSize maxSize) ls = some s := by
  obtain ⟨s, hr, -⟩ := StepSystem.run_total_of_meets
    (I := fun s : State => Counted maxSize ExpansionStrategy.default.expansionThreshold s.pool)
    (fun s l h _ => (h.step l).resolve_left fun hp => Bool.false_ne_true hp.2.1) (StepSystem.meets_true _ ls)
    (counted_start initialSize maxSize)
  exact ⟨s, hr⟩

/-! ### Growing -/

/-- A pool that is in use has no more connections available than there are. -/
theorem available_le_of_utilization (h : 0 < p.utilization) : p.stats.availableConnections ≤ p.stats.totalConnections := by
  unfold utilization at h
  split at h
  · exact absurd h (lt_irrefl 0)
  · by_contra hlt
    have hlt' : (p.stats.totalConnections : ℚ) < p.stats.availableConnections := by exact_mod_cast Nat.lt_of_not_le hlt
    exact absurd h (not_lt_of_ge (div_nonpos_of_nonpos_of_nonneg (by linarith) (Nat.cast_nonneg _)))

/-- The rounding leaves something to add as soon as the factor adds a whole connection. -/
theorem lt_target_iff : p.stats.totalConnections < p.target factor ↔ 1 ≤ p.stats.totalConnections * (factor - 1) := by
  rw [target, ← Nat.succ_le_iff, Nat.le_floor_iff' (Nat.succ_ne_zero _), Nat.succ_eq_add_one, Nat.cast_add, Nat.cast_one,
    mul_sub_one]
  constructor <;> intro h <;> linarith

/-- What a pool does whose utilization is over the threshold. -/
structure Grows (overflowChecks : Bool) (maxSize : ℕ) (factor : ℚ) (p : ConnectionPool) : Prop where
  refused : maxSize < p.target factor → ∃ e, p.smartExpand overflowChecks = some (.error e, p)
  grown : p.stats.totalConnections < p.target factor → p.target factor ≤ maxSize →
    ∃ p', p.smartExpand overflowChecks = some (.ok true, p') ∧ p.stats.totalConnections < p'.stats.totalConnections ∧
      p'.stats.totalConnections ≤ maxSize
  ten : 10 ≤ p.stats.totalConnections → p.stats.totalConnections < p.target factor

theorem Counted.grows (h : Counted maxSize threshold p) (hthreshold : 0 < p.expansionStrategy.expansionThreshold)
    (hfactor : p.getCurrentExpansionFactor = some factor) (hone : 11 / 10 ≤ factor)
    (hu : p.expansionStrategy.expansionThreshold ≤ p.utilization) : Grows overflowChecks maxSize factor p := by
  have hle := available_le_of_utilization (hthreshold.trans_le hu)
  have hcases := smartExpand_cases overflowChecks hle hfactor (by linarith)
  rw [h.maxSize_eq] at hcases
  constructor
  · intro hmax
    rcases hcases with ⟨hlt, -⟩ | ⟨-, ⟨-, he⟩ | ⟨hle, -⟩⟩
    · exact absurd hu (not_le_of_gt hlt)
    · exact he
    · exact absurd hmax (Nat.not_lt_of_le hle)
  · intro hgrow hmax
    rcases hcases with ⟨hlt, -⟩ | ⟨-, ⟨hgt, -⟩ | ⟨-, n, hn, hr⟩⟩
    · exact absurd hu (not_le_of_gt hlt)
    · exact absurd hmax (Nat.not_le_of_lt hgt)
    · obtain ⟨hstats, -⟩ := createConnections_stats n p
      have ht : (ConnectionPool.createConnections n p).advanceExpansionFactor.stats.totalConnections = p.target factor :=
        (congrArg OptimizedPoolStats.totalConnections hstats).trans hn
      exact ⟨_, hr, by rwa [ht], by rwa [ht]⟩
  · intro hten
    have hten' : (10 : ℚ) ≤ p.stats.totalConnections := by exact_mod_cast hten
    rw [lt_target_iff]
    nlinarith

/-- A target above the limit is refused; one that is more than the total and within the limit is reached. -/
theorem grows_of_run {ls : List Label} (hr : StepSystem.run (step overflowChecks) (start initialSize maxSize) ls = some s)
    (hu : s.pool.expansionStrategy.expansionThreshold ≤ s.pool.utilization) :
    ∃ factor, s.pool.getCurrentExpansionFactor = some factor ∧ Grows overflowChecks maxSize factor s.pool := by
  have h := counted_of_run hr
  obtain ⟨k, hk⟩ := h.strategy
  obtain ⟨factor, hfactor, hone, -⟩ := exists_default_factor hk
  refine ⟨factor, hfactor, h.grows ?_ hfactor hone hu⟩
  rw [hk, ExpansionStrategy.default]
  norm_num

/-- An id is returned although it is available, then all connections are handed out. -/
theorem grows_of_run_full :
    ∃ s, StepSystem.run (step true) (start 2 10) [.returnConnection 1, .getConnection, .getConnection, .getConnection] = some s ∧
      s.pool.stats = ⟨2, 2, 0⟩ ∧ ∃ factor, s.pool.getCurrentExpansionFactor = some factor ∧ Grows true 10 factor s.pool := by
  have hrun : (StepSystem.run (step true) (start 2 10) [.returnConnection 1, .getConnection, .getConnection, .getConnection]).map
      (fun s => (s.pool.stats, decide (s.pool.expansionStrategy.expansionThreshold ≤ s.pool.utilization))) =
        some (⟨2, 2, 0⟩, true) := by decide +kernel
  obtain ⟨s, hr, hs⟩ := Option.map_eq_some_iff.1 hrun
  simp only [Prod.mk.injEq] at hs
  exact ⟨s, hr, hs.1, grows_of_run hr (of_decide_eq_true hs.2)⟩

/-- An expansion fails without a change or adds connections within the limit, and it does not fail below the limit. -/
def GrowsToLimit (overflowChecks : Bool) (p : ConnectionPool) : Prop :=
  ∃ result p', p.smartExpand overflowChecks = some (result, p') ∧
    ((∃ e, result = .error e) ∧ p' = p ∨ result = .ok true ∧ p.stats.totalConnections < p'.stats.totalConnections ∧
      p'.stats.totalConnections ≤ p.maxSize) ∧
    (p.stats.totalConnections < p.maxSize → result = .ok true)

/-- Three connections of at most five, all in use: the pool is to double, which is refused. -/
theorem full_pool_refused :
    ∃ s, StepSystem.run (step true) (start 3 5) [.getConnection, .getConnection, .getConnection] = some s ∧
      0 < s.pool.stats.totalConnections ∧ s.pool.expansionStrategy.expansionThreshold ≤ s.pool.utilization ∧
      ¬ GrowsToLimit true s.pool := by
  have hrun : (StepSystem.run (step true) (start 3 5) [.getConnection, .getConnection, .getConnection]).map (fun s =>
      (s.pool.stats.totalConnections, s.pool.maxSize, decide (s.pool.expansionStrategy.expansionThreshold ≤ s.pool.utilization),
        (s.pool.smartExpand true).map fun r => r.1.isOk)) = some (3, 5, true, some false) := by decide +kernel
  obtain ⟨s, hr, hs⟩ := Option.map_eq_some_iff.1 hrun
  simp only [Prod.mk.injEq] at hs
  obtain ⟨ht, hmax, hu, hfails⟩ := hs
  refine ⟨s, hr, by omega, of_decide_eq_true hu, ?_⟩
  rintro ⟨result, p', hexpand, -, hok⟩
  rw [hexpand, Option.map_some, hok (by omega)] at hfails
  cases hfails

/-! ### Growing and shrinking -/

/-- The utilization is what is in use of the total, also of none. -/
theorem utilization_of_add (h : p.stats.availableConnections + inUse = p.stats.totalConnections) :
    p.utilization = (inUse : ℚ) / p.stats.totalConnections := by
  unfold utilization
  split
  · next ht =>
    have hinUse : inUse = 0 := by omega
    rw [hinUse, Nat.cast_zero, zero_div]
  · rw [← h, Nat.cast_add, add_sub_cancel_left]

theorem tryShrink_of_lt (h : p.expansionStrategy.shrinkThreshold < p.utilization) : p.tryShrink = some (.ok false, p) := by
  simp only [ConnectionPool.tryShrink, if_pos h]

theorem smartExpand_of_lt (hle : p.stats.availableConnections ≤ p.stats.totalConnections)
    (h : p.utilization < p.expansionStrategy.expansionThreshold) : p.smartExpand overflowChecks = some (.ok false, p) := by
  rw [smartExpand_eq hle, if_pos h]

/-- Four fifths of a total in use are more than three tenths of what it grows to, at most twice as much. -/
theorem utilization_of_grown {n : ℕ} (hinUse : p.stats.availableConnections + inUse = p.stats.totalConnections)
    (hu : 4 / 5 ≤ p.utilization) (hone : 11 / 10 ≤ factor) (htwo : factor ≤ 2) (hn : p.stats.totalConnections + n = p.target factor) :
    3 / 10 < ((inUse : ℚ) / (p.stats.totalConnections + n : ℕ)) := by
  rw [utilization_of_add hinUse] at hu
  have hpos : 0 < (p.stats.totalConnections : ℚ) := by
    by_contra h0
    rw [le_antisymm (le_of_not_gt h0) (Nat.cast_nonneg _), div_zero] at hu
    norm_num at hu
  have hu' : 4 / 5 * (p.stats.totalConnections : ℚ) ≤ inUse := (le_div_iff₀ hpos).1 hu
  have hgrown : ((p.stats.totalConnections + n : ℕ) : ℚ) ≤ p.stats.totalConnections * factor := by
    rw [hn]
    exact Nat.floor_le (mul_nonneg hpos.le (by linarith))
  have hpos' : 0 < ((p.stats.totalConnections + n : ℕ) : ℚ) := by
    rw [Nat.cast_add]
    exact add_pos_of_pos_of_nonneg hpos (Nat.cast_nonneg _)
  rw [lt_div_iff₀ hpos']
  nlinarith

/-- Three tenths of a total in use are less than four fifths of what is left when a fifth of it, or less, has gone. -/
theorem utilization_of_shrunk {total left : ℕ} (hu : (inUse : ℚ) / total ≤ 3 / 10) (hinUse : inUse ≤ left) (hlt : left < total)
    (hle : ⌊(total : ℚ) * (4 / 5)⌋₊ ≤ left) : (inUse : ℚ) / left < 4 / 5 := by
  have hpos : 0 < (total : ℚ) := by exact_mod_cast Nat.zero_lt_of_lt hlt
  have hu' : 10 * inUse ≤ 3 * total := by
    have := (div_le_iff₀ hpos).1 hu
    have : (10 * inUse : ℚ) ≤ 3 * total := by linarith
    exact_mod_cast this
  have hfloor : 4 * total < 5 * (left + 1) := by
    have := Nat.lt_floor_add_one ((total : ℚ) * (4 / 5))
    have hle' : (⌊(total : ℚ) * (4 / 5)⌋₊ : ℚ) ≤ left := by exact_mod_cast hle
    have : (4 * total : ℚ) < 5 * (left + 1) := by linarith
    exact_mod_cast this
  rcases Nat.eq_zero_or_pos left with rfl | hleft
  · rw [Nat.cast_zero, div_zero]
    norm_num
  · rw [div_lt_iff₀ (by exact_mod_cast hleft)]
    have : 5 * inUse < 4 * left := by omega
    have : (5 * inUse : ℚ) < 4 * left := by exact_mod_cast this
    linarith

/-- Neither undoes the other, from any pool with the default strategy at whatever index. -/
theorem never_undone {k : ℕ} (hle : p.stats.availableConnections ≤ p.stats.totalConnections)
    (hstrategy : p.expansionStrategy = { ExpansionStrategy.default with currentFactorIndex := k }) :
    (∀ p', p.smartExpand overflowChecks = some (.ok true, p') → p'.tryShrink = some (.ok false, p')) ∧
      ∀ p', p.tryShrink = some (.ok true, p') → p'.smartExpand overflowChecks = some (.ok false, p') := by
  obtain ⟨inUse, hinUse⟩ := Nat.exists_eq_add_of_le hle
  obtain ⟨factor, hfactor, hone, htwo⟩ := exists_default_factor hstrategy
  constructor
  · intro p' hr
    rcases smartExpand_cases overflowChecks hle hfactor (by linarith) with ⟨-, hr'⟩ | ⟨hu, ⟨-, e, hr'⟩ | ⟨-, n, hn, hr'⟩⟩
    · rw [hr'] at hr
      cases hr
    · rw [hr'] at hr
      cases hr
    · rw [hr'] at hr
      cases hr
      obtain ⟨hstats, hs⟩ := createConnections_stats n p
      have hu' : (4 / 5 : ℚ) ≤ p.utilization := by rwa [hstrategy] at hu
      have hgrown := utilization_of_grown hinUse.symm hu' hone htwo hn
      have hstats' : (createConnections n p).advanceExpansionFactor.stats =
        ⟨p.stats.totalConnections + n, p.stats.activeConnections, p.stats.availableConnections + n⟩ := hstats
      have hutil : (createConnections n p).advanceExpansionFactor.utilization = (inUse : ℚ) / _ :=
        utilization_of_add (by rw [hstats']; simp only; omega)
      simp only [settings, Prod.mk.injEq] at hs
      refine tryShrink_of_lt ?_
      rw [hutil, hstats', ConnectionPool.advanceExpansionFactor, ExpansionStrategy.shrinkThreshold_advanceExpansionFactor, hs.2.2,
        hstrategy]
      exact hgrown
  · intro p' hr
    rcases p.tryShrink_cases with hr' | ⟨hu, n, removed, p'', hn, -, hremoved, ⟨hs, ht, ha, -, -⟩, hr'⟩
    · rw [hr'] at hr
      cases hr
    · rw [hr'] at hr
      simp only [Option.some.injEq, Prod.mk.injEq, Except.ok.injEq, decide_eq_true_eq] at hr
      obtain ⟨hpos, rfl⟩ := hr
      have hinUse' : p''.stats.availableConnections + inUse = p''.stats.totalConnections := by omega
      simp only [settings, Prod.mk.injEq] at hs
      rw [utilization_of_add hinUse.symm, hstrategy] at hu
      refine smartExpand_of_lt (by omega) ?_
      rw [utilization_of_add hinUse', hs.2.2, hstrategy]
      exact utilization_of_shrunk hu (by omega) (by omega) (by omega)

/-- Two connections in use of two: the pool grows to four. Idle again it grows to six and then shrinks. -/
theorem never_undone_full :
    (∃ s, StepSystem.run (step true) (start 2 10) [.getConnection, .getConnection] = some s ∧
      ∃ p', s.pool.smartExpand true = some (.ok true, p') ∧ p'.tryShrink = some (.ok false, p')) ∧
    ∃ s, StepSystem.run (step true) (start 2 10) [.forceExpand, .forceExpand] = some s ∧
      ∃ p', s.pool.tryShrink = some (.ok true, p') ∧ p'.smartExpand true = some (.ok false, p') := by
  have hfull : (StepSystem.run (step true) (start 2 10) [.getConnection, .getConnection]).map (fun s =>
      (decide (s.pool.stats.availableConnections ≤ s.pool.stats.totalConnections),
        (s.pool.smartExpand true).map fun r => r.1.toOption)) = some (true, some (some true)) := by decide +kernel
  have hidle : (StepSystem.run (step true) (start 2 10) [.forceExpand, .forceExpand]).map (fun s =>
      (decide (s.pool.stats.availableConnections ≤ s.pool.stats.totalConnections),
        s.pool.tryShrink.map fun r => r.1.toOption)) = some (true, some (some true)) := by decide +kernel
  obtain ⟨full, hr, hs⟩ := Option.map_eq_some_iff.1 hfull
  obtain ⟨idle, hr', hs'⟩ := Option.map_eq_some_iff.1 hidle
  simp only [Prod.mk.injEq, Option.map_eq_some_iff] at hs hs'
  obtain ⟨hle, ⟨result, p⟩, hexpand, hok⟩ := hs
  obtain ⟨hle', ⟨result', p'⟩, hshrink, hok'⟩ := hs'
  obtain ⟨k, hk⟩ := (counted_of_run hr).strategy
  obtain ⟨k', hk'⟩ := (counted_of_run hr').strategy
  cases result with
  | error e => cases hok
  | ok grown =>
    cases hok
    cases result' with
    | error e => cases hok'
    | ok shrunk =>
      cases hok'
      exact ⟨⟨full, hr, p, hexpand, (never_undone (of_decide_eq_true hle) hk).1 p hexpand⟩,
        idle, hr', p', hshrink, (never_undone (of_decide_eq_true hle') hk').2 p' hshrink⟩

end ConnectionPool

end Msgtrans
