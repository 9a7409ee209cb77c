import Mathlib.Algebra.Order.Floor.Semifield
import Mathlib.Data.Rat.Floor
import Mathlib.Tactic.NormNum
import Msgtrans.Lib.MachineWord
import Msgtrans.Lib.Run
import Msgtrans.Lib.Table
import Msgtrans.Event
import Msgtrans.LockFreeMap

/-!
# The connection pool (`transport/pool.rs`)

What is known of one connection is spread over its entry in the table, the queue of available ids and three
counters. The calls on one pool come one after another (the growing and shrinking ones take `&mut self`), so
each is a function on the pool here; clones and interleavings are in `PoolClones`.

Operations on the table and the queue succeed, expansion factors and thresholds are exact rationals, and the
`u64` from which ids are drawn does not come round. Two of the counts can go below zero: `active_connections`, which is an
integer here (no call reads it), and what `smart_expand` computes, a panic or a wrap as the build has it. Another
subtraction that went below zero would be `none`; none does (`Counted.step` in `PoolGrowth`).
-/

namespace Msgtrans

abbrev ConnectionId := ℕ

namespace ConnectionPool

inductive ConnectionState where
  | available | inUse | maintenance | error
deriving DecidableEq, Repr

end ConnectionPool

structure PoolConnection where
  id : ConnectionId
  sessionId : Option SessionId
  useCount : ℕ
  state : ConnectionPool.ConnectionState
deriving DecidableEq

structure OptimizedPoolStats where
  totalConnections : ℕ
  /-- the `u64` is its remainder -/
  activeConnections : ℤ
  availableConnections : ℕ
deriving DecidableEq

structure ExpansionStrategy where
  factors : List ℚ
  currentFactorIndex : ℕ
  expansionThreshold : ℚ
  shrinkThreshold : ℚ

namespace ExpansionStrategy

def default : ExpansionStrategy := ⟨[2, 3 / 2, 6 / 5, 11 / 10], 0, 4 / 5, 3 / 10⟩

def getCurrentExpansionFactor (e : ExpansionStrategy) : Option ℚ :=
  e.factors[min e.currentFactorIndex (e.factors.length - 1)]?

def advanceExpansionFactor (e : ExpansionStrategy) : ExpansionStrategy :=
  if e.currentFactorIndex < e.factors.length - 1 then { e with currentFactorIndex := e.currentFactorIndex + 1 } else e

@[simp] theorem factors_advanceExpansionFactor (e : ExpansionStrategy) :
    e.advanceExpansionFactor.factors = e.factors := by
  unfold advanceExpansionFactor
  split <;> rfl

@[simp] theorem shrinkThreshold_advanceExpansionFactor (e : ExpansionStrategy) :
    e.advanceExpansionFactor.shrinkThreshold = e.shrinkThreshold := by
  unfold advanceExpansionFactor
  split <;> rfl

theorem one_le_of_mem_factors {factor : ℚ} (h : factor ∈ default.factors) : 1 ≤ factor := by
  simp only [default, List.mem_cons, List.not_mem_nil, or_false] at h
  rcases h with rfl | rfl | rfl | rfl <;> norm_num

theorem exists_factor {e : ExpansionStrategy} (h : e.factors = default.factors) :
    ∃ factor, e.getCurrentExpansionFactor = some factor ∧ 1 ≤ factor := by
  have hlt : min e.currentFactorIndex (e.factors.length - 1) < e.factors.length := by
    have hlen : e.factors.length = 4 := by rw [h]; rfl
    omega
  exact ⟨_, List.getElem?_eq_getElem hlt, one_le_of_mem_factors (h ▸ List.getElem_mem hlt)⟩

end ExpansionStrategy

structure ConnectionPool where
  connectionIdCounter : ℕ
  activeConnections : LockFreeHashMap.Map ConnectionId PoolConnection
  availableConnections : List ConnectionId
  maxSize : ℕ
  initialSize : ℕ
  stats : OptimizedPoolStats
  expansionStrategy : ExpansionStrategy

/-- For the subtractions that never go below zero. -/
def checkedSub (a b : ℕ) : Option ℕ := if b ≤ a then some (a - b) else none

theorem checkedSub_of_le {a b : ℕ} (h : b ≤ a) : checkedSub a b = some (a - b) := if_pos h

namespace ConnectionPool

def new (initialSize maxSize : ℕ) : ConnectionPool := ⟨0, ∅, [], maxSize, initialSize, ⟨0, 0, 0⟩, .default⟩

/-- The body of the loops that create connections. -/
def createConnection (p : ConnectionPool) : ConnectionPool :=
  let connectionId := p.connectionIdCounter
  { p with
    connectionIdCounter := p.connectionIdCounter + 1
    activeConnections := p.activeConnections.insert connectionId ⟨connectionId, none, 0, .available⟩
    availableConnections := p.availableConnections ++ [connectionId]
    stats := ⟨p.stats.totalConnections + 1, p.stats.activeConnections, p.stats.availableConnections + 1⟩ }

def createConnections : ℕ → ConnectionPool → ConnectionPool
  | 0, p => p
  | n + 1, p => createConnections n p.createConnection

def initializePool (p : ConnectionPool) : ConnectionPool := createConnections p.initialSize p

def getConnection (p : ConnectionPool) : Option (Except TransportError ConnectionId × ConnectionPool) :=
  match p.availableConnections with
  | [] => some (.error (.resource "connection_pool" 0 p.maxSize), p)
  | connectionId :: rest =>
    match p.activeConnections.lookup connectionId with
    -- the id has left the queue all the same
    | none => some (.error (.resource "connection_pool" 0 p.maxSize), { p with availableConnections := rest })
    | some connection => do
      let available ← checkedSub p.stats.availableConnections 1
      return (.ok connectionId, { p with
        activeConnections := p.activeConnections.insert connectionId
          { connection with state := .inUse, useCount := connection.useCount + 1 }
        availableConnections := rest
        stats := ⟨p.stats.totalConnections, p.stats.activeConnections + 1, available⟩ })

def returnConnection (p : ConnectionPool) (connectionId : ConnectionId) : Except TransportError Unit × ConnectionPool :=
  match p.activeConnections.lookup connectionId with
  | none => (.error (.configuration "return_connection" s!"Connection not found: ConnectionId({connectionId})"), p)
  | some connection => (.ok (), { p with
      activeConnections := p.activeConnections.insert connectionId { connection with state := .available }
      availableConnections := p.availableConnections ++ [connectionId]
      stats := ⟨p.stats.totalConnections, p.stats.activeConnections - 1, p.stats.availableConnections + 1⟩ })

def utilization (p : ConnectionPool) : ℚ :=
  if p.stats.totalConnections = 0 then 0
  else (p.stats.totalConnections - p.stats.availableConnections) / p.stats.totalConnections

def getCurrentExpansionFactor (p : ConnectionPool) : Option ℚ := p.expansionStrategy.getCurrentExpansionFactor

def advanceExpansionFactor (p : ConnectionPool) : ConnectionPool :=
  { p with expansionStrategy := p.expansionStrategy.advanceExpansionFactor }

/-- `none` is a panic: with more connections available than there are, where the build checks for overflow. -/
def smartExpand (overflowChecks : Bool) (p : ConnectionPool) : Option (Except TransportError Bool × ConnectionPool) := do
  let currentTotal := p.stats.totalConnections
  let availableCount := p.stats.availableConnections
  let utilization ← (if currentTotal > 0 then
    (WordArith.sub ⟨64, overflowChecks⟩ currentTotal availableCount).map fun (n : ℕ) => (n : ℚ) / currentTotal else some 0)
  if utilization < p.expansionStrategy.expansionThreshold then
    return (.ok false, p)
  else
    let factor ← p.getCurrentExpansionFactor
    let newSize := ⌊(currentTotal : ℚ) * factor⌋₊
    if newSize > p.maxSize then
      return (.error (.resource "connection_pool_expansion" newSize p.maxSize), p)
    else
      let connectionsToCreate ← checkedSub newSize currentTotal
      return (.ok true, (createConnections connectionsToCreate p).advanceExpansionFactor)

def tryExpand (overflowChecks : Bool) (p : ConnectionPool) : Option (Except TransportError Bool × ConnectionPool) :=
  p.smartExpand overflowChecks

def withThreshold (p : ConnectionPool) (threshold : ℚ) : ConnectionPool :=
  { p with expansionStrategy := { p.expansionStrategy with expansionThreshold := threshold } }

def forceExpand (overflowChecks : Bool) (p : ConnectionPool) : Option (Except TransportError Bool × ConnectionPool) := do
  let (result, p') ← (p.withThreshold 0).smartExpand overflowChecks
  return (result, p'.withThreshold p.expansionStrategy.expansionThreshold)

/-- The loop of `try_shrink`, with the number of connections it has removed. -/
def removeConnections : ℕ → ConnectionPool → Option (ℕ × ConnectionPool)
  | 0, p => some (0, p)
  | n + 1, p =>
    match p.availableConnections with
    | [] => removeConnections n p
    | connectionId :: rest => do
      let total ← checkedSub p.stats.totalConnections 1
      let available ← checkedSub p.stats.availableConnections 1
      let (removedCount, p') ← removeConnections n { p with
        activeConnections := p.activeConnections.erase connectionId
        availableConnections := rest
        stats := ⟨total, p.stats.activeConnections, available⟩ }
      return (removedCount + 1, p')

def tryShrink (p : ConnectionPool) : Option (Except TransportError Bool × ConnectionPool) :=
  let currentTotal := p.stats.totalConnections
  let availableCount := p.stats.availableConnections
  let newSize := max ⌊(currentTotal : ℚ) * (4 / 5)⌋₊ p.initialSize
  if p.utilization > p.expansionStrategy.shrinkThreshold then some (.ok false, p)
  else if currentTotal ≤ p.initialSize then some (.ok false, p)
  else if newSize ≥ currentTotal then some (.ok false, p)
  else do
    let connectionsToRemove ← checkedSub currentTotal newSize
    let (removedCount, p') ← removeConnections (min connectionsToRemove availableCount) p
    let _finalSize ← checkedSub currentTotal removedCount
    return (.ok (removedCount > 0), p')

/-! ### Table, queue and counters agree -/

variable {p p' : ConnectionPool} {held : List ConnectionId} {connectionId id : ConnectionId} {n initialSize maxSize : ℕ}
  {overflowChecks : Bool}

def Stores (p : ConnectionPool) (state : ConnectionState) (id : ConnectionId) : Prop :=
  Table.Has (fun c => c.state = state) p.activeConnections id

/-- Every stored connection is in the queue, as available, or held, as in use, and the counters count them. -/
structure Consistent (p : ConnectionPool) (held : List ConnectionId) : Prop where
  queue_nodup : p.availableConnections.Nodup
  mem_queue : ∀ id, id ∈ p.availableConnections ↔ p.Stores .available id
  held_nodup : held.Nodup
  mem_held : ∀ id, id ∈ held ↔ p.Stores .inUse id
  state : ∀ id c, p.activeConnections.lookup id = some c → (c.state = .inUse ↔ ¬ c.state = .available)
  fresh : ∀ id ∈ p.activeConnections, id < p.connectionIdCounter
  total : p.stats.totalConnections = p.availableConnections.length + held.length
  available : p.stats.availableConnections = p.availableConnections.length
  active : p.stats.activeConnections = held.length

theorem stores_of_insert {c : PoolConnection} {state : ConnectionState}
    (hp : p'.activeConnections = p.activeConnections.insert connectionId c) :
    p'.Stores state id ↔ if id = connectionId then c.state = state else p.Stores state id := by
  unfold Stores
  rw [hp]
  split
  · next hid => rw [hid, Table.has_insert_self]
  · next hid => exact Table.has_insert_of_ne hid

/-- No id is stored with two states. -/
theorem Stores.eq {state state' : ConnectionState} (h : p.Stores state id) (h' : p.Stores state' id) :
    state = state' := by
  obtain ⟨c, hc, rfl⟩ := h
  exact (Table.has_of_lookup hc).1 h'

theorem consistent_new : (new initialSize maxSize).Consistent [] := by
  constructor <;> simp [new, Stores, Table.Has]

theorem Consistent.createConnection (h : p.Consistent held) : p.createConnection.Consistent held := by
  have hnew : p.connectionIdCounter ∉ p.activeConnections := fun hm => Nat.lt_irrefl _ (h.fresh _ hm)
  have hne {state id} (hs : p.Stores state id) : id ≠ p.connectionIdCounter := fun he => hnew (he ▸ hs.mem)
  have hstores (state id) : p.createConnection.Stores state id ↔
      if id = p.connectionIdCounter then .available = state else p.Stores state id :=
    stores_of_insert (c := ⟨_, none, 0, .available⟩) rfl
  constructor
  · refine List.nodup_append.2 ⟨h.queue_nodup, List.nodup_singleton _, fun a ha b hb hab => ?_⟩
    exact hne ((h.mem_queue a).1 ha) (hab.trans (List.mem_singleton.1 hb))
  · intro id
    rw [hstores, ConnectionPool.createConnection, List.mem_append, List.mem_singleton, h.mem_queue]
    split
    · next hid => simp [hid]
    · next hid => simp [hid]
  · exact h.held_nodup
  · intro id
    rw [hstores, h.mem_held]
    split
    · next hid => exact iff_of_false (fun hs => hne hs hid) nofun
    · exact Iff.rfl
  · intro id c hc
    rcases Table.lookup_insert_eq_some.1 hc with ⟨-, rfl⟩ | ⟨-, hc⟩
    · simp
    · exact h.state id c hc
  · intro id hid
    unfold ConnectionPool.createConnection
    rcases (AList.mem_insert _).1 hid with rfl | hid
    · exact Nat.lt_succ_self _
    · exact Nat.lt_succ_of_lt (h.fresh id hid)
  · have ht := h.total
    simp only [ConnectionPool.createConnection, List.length_append, List.length_singleton]
    omega
  · simp [ConnectionPool.createConnection, h.available]
  · exact h.active

/-- What no operation on connections changes. -/
def settings (p : ConnectionPool) : ℕ × ℕ × ExpansionStrategy := (p.initialSize, p.maxSize, p.expansionStrategy)

theorem createConnections_stats (n : ℕ) (p : ConnectionPool) :
    (createConnections n p).stats =
        ⟨p.stats.totalConnections + n, p.stats.activeConnections, p.stats.availableConnections + n⟩ ∧
      (createConnections n p).settings = p.settings := by
  induction n generalizing p with
  | zero => exact ⟨rfl, rfl⟩
  | succ n ih =>
    obtain ⟨hstats, hs⟩ := ih p.createConnection
    refine ⟨hstats.trans ?_, hs⟩
    simp only [createConnection, Nat.add_assoc, Nat.add_comm 1]

theorem Consistent.createConnections (h : p.Consistent held) : (createConnections n p).Consistent held := by
  induction n generalizing p with
  | zero => exact h
  | succ n ih => exact ih h.createConnection

theorem getConnection_of_cons {rest : List ConnectionId} {connection : PoolConnection}
    (hq : p.availableConnections = id :: rest) (hl : p.activeConnections.lookup id = some connection)
    (hs : p.stats.availableConnections = n + 1) :
    p.getConnection = some (.ok id, { p with
      activeConnections := p.activeConnections.insert id
        { connection with state := .inUse, useCount := connection.useCount + 1 }
      availableConnections := rest
      stats := ⟨p.stats.totalConnections, p.stats.activeConnections + 1, n⟩ }) := by
  have hsub : checkedSub p.stats.availableConnections 1 = some n := by rw [hs, checkedSub_of_le (by omega)]; rfl
  simp [getConnection, hq, hl, hsub]

theorem returnConnection_of_lookup {connection : PoolConnection} (hl : p.activeConnections.lookup id = some connection) :
    p.returnConnection id = (.ok (), { p with
      activeConnections := p.activeConnections.insert id { connection with state := .available }
      availableConnections := p.availableConnections ++ [id]
      stats := ⟨p.stats.totalConnections, p.stats.activeConnections - 1, p.stats.availableConnections + 1⟩ }) := by
  rw [returnConnection, hl]

theorem Consistent.getConnection (h : p.Consistent held) :
    p.getConnection = some (.error (.resource "connection_pool" 0 p.maxSize), p) ∨
      ∃ id p', p.getConnection = some (.ok id, p') ∧ p'.Consistent (id :: held) ∧
        p'.stats.totalConnections = p.stats.totalConnections ∧ p'.settings = p.settings := by
  rcases hq : p.availableConnections with _ | ⟨connectionId, rest⟩
  · left
    simp [ConnectionPool.getConnection, hq]
  · right
    have hnd : connectionId ∉ rest ∧ rest.Nodup := List.nodup_cons.1 (hq ▸ h.queue_nodup)
    have hstored : p.Stores .available connectionId := (h.mem_queue _).1 (by rw [hq]; exact List.mem_cons_self)
    have ⟨connection, hlookup, hstate⟩ := hstored
    have hcount : p.stats.availableConnections = rest.length + 1 := by rw [h.available, hq, List.length_cons]
    have hheld : connectionId ∉ held := fun hm => nomatch Stores.eq hstored ((h.mem_held _).1 hm)
    refine ⟨connectionId, _, getConnection_of_cons hq hlookup hcount, ?_, rfl, rfl⟩
    constructor
    · exact hnd.2
    · intro id
      rw [stores_of_insert rfl]
      split
      · next hid => exact iff_of_false (hid ▸ hnd.1) nofun
      · next hid => rw [← h.mem_queue, hq, List.mem_cons, or_iff_right hid]
    · exact List.nodup_cons.2 ⟨hheld, h.held_nodup⟩
    · intro id
      rw [stores_of_insert rfl, List.mem_cons]
      split
      · next hid => exact iff_of_true (.inl hid) rfl
      · next hid => rw [or_iff_right hid, h.mem_held]
    · intro id c hc
      rcases Table.lookup_insert_eq_some.1 hc with ⟨-, rfl⟩ | ⟨-, hc⟩
      · simp
      · exact h.state id c hc
    · intro id hid
      rcases (AList.mem_insert _).1 hid with rfl | hid
      · exact h.fresh _ (AList.lookup_isSome.1 (by rw [hlookup]; rfl))
      · exact h.fresh id hid
    · have ht := h.total
      rw [hq, List.length_cons] at ht
      simp only [List.length_cons]
      omega
    · rfl
    · simp [h.active]

theorem Consistent.returnConnection (h : p.Consistent held) (hheld : id ∈ held) :
    ∃ p', p.returnConnection id = (.ok (), p') ∧ p'.Consistent (held.erase id) ∧
      p'.stats.totalConnections = p.stats.totalConnections ∧ p'.settings = p.settings := by
  have hstored : p.Stores .inUse id := (h.mem_held id).1 hheld
  have ⟨connection, hlookup, hstate⟩ := hstored
  have hlen : held.length = (held.erase id).length + 1 := by
    rw [List.length_erase_of_mem hheld]
    have := List.length_pos_of_mem hheld
    omega
  have hqueue : id ∉ p.availableConnections := fun hm => nomatch ((h.mem_queue _).1 hm).eq hstored
  refine ⟨_, returnConnection_of_lookup hlookup, ?_, rfl, rfl⟩
  constructor
  · refine List.nodup_append.2 ⟨h.queue_nodup, List.nodup_singleton _, fun a ha b hb hab => ?_⟩
    exact hqueue ((hab.trans (List.mem_singleton.1 hb)) ▸ ha)
  · intro j
    rw [stores_of_insert rfl, List.mem_append, List.mem_singleton]
    split
    · next hj => exact iff_of_true (.inr hj) rfl
    · next hj => rw [or_iff_left hj, h.mem_queue]
  · exact h.held_nodup.erase id
  · intro j
    rw [stores_of_insert rfl, h.held_nodup.mem_erase_iff]
    split
    · next hj => exact iff_of_false (fun hm => hm.1 hj) nofun
    · next hj => rw [and_iff_right hj, h.mem_held]
  · intro j c hc
    rcases Table.lookup_insert_eq_some.1 hc with ⟨-, rfl⟩ | ⟨-, hc⟩
    · simp
    · exact h.state j c hc
  · intro j hj
    rcases (AList.mem_insert _).1 hj with rfl | hj
    · exact h.fresh _ (AList.lookup_isSome.1 (by rw [hlookup]; rfl))
    · exact h.fresh j hj
  · have ht := h.total
    simp only [List.length_append, List.length_singleton]
    omega
  · simp [h.available]
  · show p.stats.activeConnections - 1 = ((held.erase id).length : ℤ)
    rw [h.active]
    omega

theorem Consistent.removeFirst {rest : List ConnectionId} (h : p.Consistent held)
    (hq : p.availableConnections = id :: rest) :
    Consistent { p with
      activeConnections := p.activeConnections.erase id
      availableConnections := rest
      stats := ⟨p.stats.totalConnections - 1, p.stats.activeConnections, p.stats.availableConnections - 1⟩ } held := by
  have hnd : id ∉ rest ∧ rest.Nodup := List.nodup_cons.1 (hq ▸ h.queue_nodup)
  have hstored : p.Stores .available id := (h.mem_queue _).1 (by rw [hq]; exact List.mem_cons_self)
  have ht := h.total
  have ha := h.available
  rw [hq, List.length_cons] at ht ha
  constructor
  · exact hnd.2
  · intro j
    have hj := h.mem_queue j
    simp only [hq, List.mem_cons] at hj
    rw [Stores, Table.has_erase, ← Stores, ← hj]
    constructor
    · exact fun hm => ⟨fun he => hnd.1 (he ▸ hm), .inr hm⟩
    · exact fun hm => hm.2.resolve_left hm.1
  · exact h.held_nodup
  · intro j
    rw [Stores, Table.has_erase, ← Stores, ← h.mem_held, and_iff_right_of_imp]
    rintro hm rfl
    exact nomatch Stores.eq hstored ((h.mem_held j).1 hm)
  · exact fun j c hc => h.state j c (Table.lookup_of_erase hc).2
  · exact fun j hj => h.fresh j (AList.mem_erase.1 hj).2
  · show p.stats.totalConnections - 1 = rest.length + held.length
    omega
  · show p.stats.availableConnections - 1 = rest.length
    omega
  · exact h.active

/-- The loop removes no connection that is held. -/
theorem Consistent.removeConnections {removed : ℕ} (h : p.Consistent held)
    (hr : removeConnections n p = some (removed, p')) : p'.Consistent held := by
  induction n generalizing p removed with
  | zero =>
    cases hr
    exact h
  | succ n ih =>
    rw [ConnectionPool.removeConnections] at hr
    rcases hq : p.availableConnections with _ | ⟨connectionId, rest⟩
    · rw [hq] at hr
      exact ih h hr
    · have hlen : p.stats.availableConnections = rest.length + 1 := by rw [h.available, hq, List.length_cons]
      have htotal : p.stats.totalConnections = rest.length + 1 + held.length := by rw [h.total, hq, List.length_cons]
      rw [hq, checkedSub_of_le (by omega), checkedSub_of_le (by omega)] at hr
      simp only [Option.bind_eq_bind, Option.bind_some, Option.bind_eq_some_iff] at hr
      obtain ⟨⟨removed', p''⟩, hr', he⟩ := hr
      cases he
      exact ih (h.removeFirst hq) hr'

/-- What the loop does to the counters, whatever the queue holds. -/
structure Removes (removed : ℕ) (p p' : ConnectionPool) : Prop where
  settings : p'.settings = p.settings
  total : p'.stats.totalConnections + removed = p.stats.totalConnections
  available : p'.stats.availableConnections + removed = p.stats.availableConnections
  active : p'.stats.activeConnections = p.stats.activeConnections
  queue : p'.availableConnections.length + removed = p.availableConnections.length

theorem removeConnections_stats (hn : n ≤ p.stats.availableConnections) (hle : n ≤ p.stats.totalConnections) :
    ∃ removed p', removeConnections n p = some (removed, p') ∧ removed ≤ n ∧ Removes removed p p' := by
  induction n generalizing p with
  | zero => exact ⟨0, p, rfl, le_rfl, rfl, rfl, rfl, rfl, rfl⟩
  | succ n ih =>
    rw [ConnectionPool.removeConnections]
    rcases hq : p.availableConnections with _ | ⟨connectionId, rest⟩
    · obtain ⟨removed, p', hr, hremoved, h'⟩ := ih (Nat.le_of_succ_le hn) (Nat.le_of_succ_le hle)
      exact ⟨removed, p', hr, Nat.le_succ_of_le hremoved, h'⟩
    · obtain ⟨removed, p', hr, hremoved, hs, ht, ha, hact, hlen⟩ := ih (p := { p with
        activeConnections := p.activeConnections.erase connectionId
        availableConnections := rest
        stats := ⟨p.stats.totalConnections - 1, p.stats.activeConnections, p.stats.availableConnections - 1⟩ })
        (by simp only; omega) (by simp only; omega)
      simp only at ht ha hlen
      refine ⟨removed + 1, p', ?_, Nat.succ_le_succ hremoved, hs, by omega, by omega, hact, ?_⟩
      · simp [checkedSub_of_le (show 1 ≤ p.stats.totalConnections by omega),
          checkedSub_of_le (show 1 ≤ p.stats.availableConnections by omega), hr]
      · rw [hq, List.length_cons]
        omega

theorem Consistent.available_le (h : p.Consistent held) : p.stats.availableConnections ≤ p.stats.totalConnections := by
  rw [h.available, h.total]
  exact Nat.le_add_right ..

/-! ### Whole calls -/

/-- Table, queue and counters agree, and the pool has kept to the sizes it was created with. -/
structure Inv (initialSize maxSize : ℕ) (held : List ConnectionId) (p : ConnectionPool) : Prop where
  consistent : p.Consistent held
  initialSize_eq : p.initialSize = initialSize
  maxSize_eq : p.maxSize = maxSize
  initialSize_le : initialSize ≤ p.stats.totalConnections
  le_maxSize : p.stats.totalConnections ≤ maxSize
  factors : p.expansionStrategy.factors = ExpansionStrategy.default.factors

theorem Inv.of_settings {held' : List ConnectionId} (h : Inv initialSize maxSize held p) (hc : p'.Consistent held')
    (hs : p'.settings = p.settings) (hle : initialSize ≤ p'.stats.totalConnections)
    (hge : p'.stats.totalConnections ≤ maxSize) : Inv initialSize maxSize held' p' := by
  simp only [settings, Prod.mk.injEq] at hs
  exact ⟨hc, hs.1.trans h.initialSize_eq, hs.2.1.trans h.maxSize_eq, hle, hge, hs.2.2 ▸ h.factors⟩

theorem inv_initializePool (h : initialSize ≤ maxSize) :
    Inv initialSize maxSize [] (new initialSize maxSize).initializePool := by
  have hnew : (new initialSize maxSize).Consistent [] := consistent_new
  obtain ⟨hstats, hs⟩ := createConnections_stats initialSize (new initialSize maxSize)
  simp only [settings, Prod.mk.injEq] at hs
  have ht : (new initialSize maxSize).initializePool.stats.totalConnections = initialSize :=
    (congrArg OptimizedPoolStats.totalConnections hstats).trans (Nat.zero_add _)
  exact ⟨hnew.createConnections, hs.1, hs.2.1, ht.ge, ht.trans_le h, congrArg ExpansionStrategy.factors hs.2.2⟩

theorem Inv.withThreshold (threshold : ℚ) (h : Inv initialSize maxSize held p) :
    Inv initialSize maxSize held (p.withThreshold threshold) := by
  obtain ⟨hc, hi, hm, hle, hge, hf⟩ := h
  exact ⟨⟨hc.1, hc.2, hc.3, hc.4, hc.5, hc.6, hc.7, hc.8, hc.9⟩, hi, hm, hle, hge, hf⟩

theorem Inv.advanceExpansionFactor (h : Inv initialSize maxSize held p) :
    Inv initialSize maxSize held p.advanceExpansionFactor := by
  obtain ⟨hc, hi, hm, hle, hge, hf⟩ := h
  exact ⟨⟨hc.1, hc.2, hc.3, hc.4, hc.5, hc.6, hc.7, hc.8, hc.9⟩, hi, hm, hle, hge,
    (ExpansionStrategy.factors_advanceExpansionFactor _).trans hf⟩

/-- There is a factor whatever the index, and it is no less than 1. -/
theorem Inv.getCurrentExpansionFactor (h : Inv initialSize maxSize held p) :
    ∃ factor, p.getCurrentExpansionFactor = some factor ∧ 1 ≤ factor :=
  ExpansionStrategy.exists_factor h.factors

/-- Where no more connections are available than there are, the utilization can be computed. -/
theorem smartExpand_eq (h : p.stats.availableConnections ≤ p.stats.totalConnections) :
    p.smartExpand overflowChecks =
      if p.utilization < p.expansionStrategy.expansionThreshold then some (.ok false, p)
      else do
        let factor ← p.getCurrentExpansionFactor
        let newSize := ⌊(p.stats.totalConnections : ℚ) * factor⌋₊
        if newSize > p.maxSize then return (.error (.resource "connection_pool_expansion" newSize p.maxSize), p)
        else
          let connectionsToCreate ← checkedSub newSize p.stats.totalConnections
          return (.ok true, (createConnections connectionsToCreate p).advanceExpansionFactor) := by
  have hu : (if p.stats.totalConnections > 0 then
      (WordArith.sub ⟨64, overflowChecks⟩ p.stats.totalConnections p.stats.availableConnections).map fun (n : ℕ) =>
        (n : ℚ) / p.stats.totalConnections else some 0) = some p.utilization := by
    unfold utilization
    split
    · next hpos => rw [if_neg (by omega), WordArith.sub_of_le h, Option.map_some, Nat.cast_sub h]
    · next hpos => rw [if_pos (by omega)]
  unfold smartExpand
  simp only [hu]
  rfl

/-- What `smart_expand` does, as its target compares with the limit. -/
theorem smartExpand_cases {factor : ℚ} (overflowChecks : Bool) (hle : p.stats.availableConnections ≤ p.stats.totalConnections)
    (hfactor : p.getCurrentExpansionFactor = some factor) (hone : 1 ≤ factor) :
    p.utilization < p.expansionStrategy.expansionThreshold ∧ p.smartExpand overflowChecks = some (.ok false, p) ∨
      p.expansionStrategy.expansionThreshold ≤ p.utilization ∧
        ((p.maxSize < ⌊(p.stats.totalConnections : ℚ) * factor⌋₊ ∧ ∃ e, p.smartExpand overflowChecks = some (.error e, p)) ∨
          (⌊(p.stats.totalConnections : ℚ) * factor⌋₊ ≤ p.maxSize ∧ ∃ n,
            p.stats.totalConnections + n = ⌊(p.stats.totalConnections : ℚ) * factor⌋₊ ∧
            p.smartExpand overflowChecks = some (.ok true, (createConnections n p).advanceExpansionFactor))) := by
  rw [smartExpand_eq hle]
  by_cases hu : p.utilization < p.expansionStrategy.expansionThreshold
  · rw [if_pos hu]
    exact .inl ⟨hu, rfl⟩
  · have hgrow : p.stats.totalConnections ≤ ⌊(p.stats.totalConnections : ℚ) * factor⌋₊ :=
      Nat.le_floor (le_mul_of_one_le_right (Nat.cast_nonneg _) hone)
    rw [if_neg hu]
    simp only [hfactor, Option.bind_eq_bind, Option.bind_some, checkedSub_of_le hgrow]
    refine .inr ⟨le_of_not_gt hu, ?_⟩
    by_cases hmax : ⌊(p.stats.totalConnections : ℚ) * factor⌋₊ > p.maxSize
    · rw [if_pos hmax]
      exact .inl ⟨hmax, _, rfl⟩
    · rw [if_neg hmax]
      exact .inr ⟨Nat.le_of_not_lt hmax, _, Nat.add_sub_of_le hgrow, rfl⟩

/-- What `try_shrink` does; `n` is what it sets out to remove. -/
theorem tryShrink_cases (p : ConnectionPool) :
    p.tryShrink = some (.ok false, p) ∨
      p.utilization ≤ p.expansionStrategy.shrinkThreshold ∧ ∃ n removed p',
        n + max ⌊(p.stats.totalConnections : ℚ) * (4 / 5)⌋₊ p.initialSize = p.stats.totalConnections ∧
        removeConnections (min n p.stats.availableConnections) p = some (removed, p') ∧ removed ≤ n ∧
        Removes removed p p' ∧ p.tryShrink = some (.ok (removed > 0), p') := by
  simp only [ConnectionPool.tryShrink]
  split
  · exact .inl rfl
  split
  · exact .inl rfl
  split
  · exact .inl rfl
  · next hu hinit hnew =>
    have hsub := checkedSub_of_le (Nat.le_of_not_le hnew)
    obtain ⟨removed, p', hr, hremoved, h⟩ :=
      removeConnections_stats (Nat.min_le_right _ p.stats.availableConnections)
        ((Nat.min_le_left _ _).trans (Nat.sub_le p.stats.totalConnections _))
    refine .inr ⟨le_of_not_gt hu, _, removed, p', Nat.sub_add_cancel (Nat.le_of_not_le hnew), hr,
      hremoved.trans (Nat.min_le_left ..), h, ?_⟩
    have hle' : removed ≤ p.stats.totalConnections := by
      have := h.total
      omega
    simp [hsub, hr, checkedSub_of_le hle']

theorem Inv.smartExpand (h : Inv initialSize maxSize held p) :
    ∃ result p', p.smartExpand overflowChecks = some (result, p') ∧ Inv initialSize maxSize held p' := by
  obtain ⟨factor, hfactor, hone⟩ := h.getCurrentExpansionFactor
  rcases smartExpand_cases overflowChecks h.consistent.available_le hfactor hone with
    ⟨-, hr⟩ | ⟨-, ⟨-, e, hr⟩ | ⟨hmax, n, hn, hr⟩⟩
  · exact ⟨_, p, hr, h⟩
  · exact ⟨_, p, hr, h⟩
  · obtain ⟨hstats, hs⟩ := createConnections_stats n p
    have hsize := h.initialSize_le
    refine ⟨_, _, hr, (h.of_settings h.consistent.createConnections hs ?_ ?_).advanceExpansionFactor⟩
    · rw [hstats]
      exact Nat.le_add_right_of_le hsize
    · rw [hstats, ← h.maxSize_eq]
      exact hn.trans_le hmax

theorem Inv.tryShrink (h : Inv initialSize maxSize held p) :
    ∃ result p', p.tryShrink = some (result, p') ∧ Inv initialSize maxSize held p' := by
  rcases p.tryShrink_cases with hr | ⟨-, n, removed, p', hn, hremove, hle, hrem, hr⟩
  · exact ⟨_, p, hr, h⟩
  · have hge := h.le_maxSize
    have hi := h.initialSize_eq
    have ht := hrem.total
    exact ⟨_, p', hr, h.of_settings (h.consistent.removeConnections hremove) hrem.settings (by omega) (by omega)⟩

/-! ### Callers -/

/-- A pool and the ids it has handed out that have not come back. -/
structure State where
  pool : ConnectionPool
  held : List ConnectionId

inductive Label where
  | getConnection
  | returnConnection (connectionId : ConnectionId)
  | smartExpand
  | tryExpand
  | forceExpand
  | tryShrink
deriving DecidableEq

def start (initialSize maxSize : ℕ) : State := ⟨(new initialSize maxSize).initializePool, []⟩

/-- A caller makes a call; a panic ends the run. -/
def step (overflowChecks : Bool) (s : State) : Label → Option State
  | .getConnection => s.pool.getConnection.map fun
    | (.ok connectionId, pool) => ⟨pool, connectionId :: s.held⟩
    | (.error _, pool) => ⟨pool, s.held⟩
  | .returnConnection connectionId => match s.pool.returnConnection connectionId with
    | (.ok (), pool) => some ⟨pool, s.held.erase connectionId⟩
    | (.error _, pool) => some ⟨pool, s.held⟩
  | .smartExpand => (s.pool.smartExpand overflowChecks).map fun r => ⟨r.2, s.held⟩
  | .tryExpand => (s.pool.tryExpand overflowChecks).map fun r => ⟨r.2, s.held⟩
  | .forceExpand => (s.pool.forceExpand overflowChecks).map fun r => ⟨r.2, s.held⟩
  | .tryShrink => s.pool.tryShrink.map fun r => ⟨r.2, s.held⟩

/-- A connection is returned only while it is held. -/
def ReturnsHeld (s : State) : Label → Prop
  | .returnConnection connectionId => connectionId ∈ s.held
  | _ => True

instance (s : State) (l : Label) : Decidable (ReturnsHeld s l) := by
  cases l <;> unfold ReturnsHeld <;> infer_instance

/-- What the pool promises of itself and of the ids it has handed out. -/
structure Law (initialSize maxSize : ℕ) (s : State) : Prop where
  queue_nodup : s.pool.availableConnections.Nodup
  mem_queue : ∀ id, id ∈ s.pool.availableConnections ↔ s.pool.Stores .available id
  /-- no id is held twice -/
  held_nodup : s.held.Nodup
  held_inUse : ∀ id ∈ s.held, s.pool.Stores .inUse id
  total : s.pool.stats.totalConnections = s.pool.activeConnections.entries.length
  available : s.pool.stats.availableConnections = s.pool.availableConnections.length
  /-- so the subtraction has not gone below zero -/
  active : s.pool.stats.activeConnections =
    (Table.keysWhere (fun c : PoolConnection => c.state = .inUse) s.pool.activeConnections).length
  sum : (s.pool.stats.totalConnections : ℤ) = s.pool.stats.availableConnections + s.pool.stats.activeConnections
  initialSize_le : initialSize ≤ s.pool.stats.totalConnections
  le_maxSize : s.pool.stats.totalConnections ≤ maxSize

theorem Inv.law {s : State} (h : Inv initialSize maxSize s.held s.pool) : Law initialSize maxSize s := by
  obtain ⟨hc, -, -, hle, hge, -⟩ := h
  have hq := Table.length_keysWhere hc.queue_nodup hc.mem_queue
  have hh := Table.length_keysWhere hc.held_nodup hc.mem_held
  have hlen := Table.length_entries (p := fun c : PoolConnection => c.state = .available)
    (q := fun c : PoolConnection => c.state = .inUse) hc.state
  have ht := hc.total
  have ha := hc.available
  have hact := hc.active
  exact ⟨hc.queue_nodup, hc.mem_queue, hc.held_nodup, fun id hid => (hc.mem_held id).1 hid, by omega, ha, by omega,
    by omega, hle, hge⟩

/-- The calls that hand out nothing and take nothing back keep what `smart_expand` and `try_shrink` keep. -/
theorem resize_step {I : List ConnectionId → ConnectionPool → Prop} {s : State} {l : Label}
    (hthreshold : ∀ {p} threshold, I s.held p → I s.held (p.withThreshold threshold))
    (hexpand : ∀ {p}, I s.held p → ∃ result p', p.smartExpand overflowChecks = some (result, p') ∧ I s.held p')
    (hshrink : ∃ result p', s.pool.tryShrink = some (result, p') ∧ I s.held p') (h : I s.held s.pool)
    (hl : l ∈ [.smartExpand, .tryExpand, .forceExpand, .tryShrink]) :
    ∃ s', step overflowChecks s l = some s' ∧ I s'.held s'.pool := by
  cases l with
  | getConnection | returnConnection id => simp at hl
  | smartExpand =>
    obtain ⟨result, p', hr, h'⟩ := hexpand h
    exact ⟨⟨p', s.held⟩, by simp [step, hr], h'⟩
  | tryExpand =>
    obtain ⟨result, p', hr, h'⟩ := hexpand h
    exact ⟨⟨p', s.held⟩, by simp [step, tryExpand, hr], h'⟩
  | forceExpand =>
    obtain ⟨result, p', hr, h'⟩ := hexpand (hthreshold 0 h)
    refine ⟨⟨p'.withThreshold s.pool.expansionStrategy.expansionThreshold, s.held⟩, ?_, hthreshold _ h'⟩
    rw [step, forceExpand, hr]
    rfl
  | tryShrink =>
    obtain ⟨result, p', hr, h'⟩ := hshrink
    exact ⟨⟨p', s.held⟩, by simp [step, hr], h'⟩

theorem Inv.step {s : State} {l : Label} (h : Inv initialSize maxSize s.held s.pool) (hl : ReturnsHeld s l) :
    ∃ s', step overflowChecks s l = some s' ∧ Inv initialSize maxSize s'.held s'.pool := by
  have hsizes := h.initialSize_le
  have hmax := h.le_maxSize
  cases l with
  | getConnection =>
    rcases h.consistent.getConnection with hr | ⟨id, p', hr, hc, ht, hs⟩
    · exact ⟨⟨s.pool, s.held⟩, by simp [ConnectionPool.step, hr], h⟩
    · exact ⟨⟨p', id :: s.held⟩, by simp [ConnectionPool.step, hr], h.of_settings hc hs (hsizes.trans ht.ge) (ht.trans_le hmax)⟩
  | returnConnection id =>
    obtain ⟨p', hr, hc, ht, hs⟩ := h.consistent.returnConnection hl
    exact ⟨⟨p', s.held.erase id⟩, by simp [ConnectionPool.step, hr], h.of_settings hc hs (hsizes.trans ht.ge) (ht.trans_le hmax)⟩
  | smartExpand | tryExpand | forceExpand | tryShrink =>
    exact resize_step (I := Inv initialSize maxSize) Inv.withThreshold Inv.smartExpand h.tryShrink h (by simp)

/-- Whatever the calls and the build, no subtraction goes below zero and the law holds after them. -/
theorem law_of_run {ls : List Label} (h : initialSize ≤ maxSize)
    (hls : StepSystem.Meets (step overflowChecks) ReturnsHeld (start initialSize maxSize) ls) :
    ∃ s, StepSystem.run (step overflowChecks) (start initialSize maxSize) ls = some s ∧ Law initialSize maxSize s := by
  obtain ⟨s, hr, hI⟩ := StepSystem.run_total_of_meets (I := fun s => Inv initialSize maxSize s.held s.pool)
    (fun s l hI hl => hI.step hl) hls (inv_initializePool h)
  exact ⟨s, hr, hI.law⟩

theorem law_of_fullRound :
    ∃ s, StepSystem.run (step true) (start 2 10) [.getConnection, .getConnection, .smartExpand, .returnConnection 1, .returnConnection 0,
      .tryShrink, .forceExpand, .getConnection] = some s ∧ Law 2 10 s :=
  law_of_run (by decide) (by decide +kernel)

end ConnectionPool

end Msgtrans
