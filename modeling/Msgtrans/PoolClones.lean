import Mathlib.Algebra.Order.BigOperators.Group.List
import Mathlib.Algebra.Order.Group.Multiset
import Mathlib.Tactic.Abel
import Msgtrans.Lib.Indexed
import Msgtrans.Lib.Run
import Msgtrans.ConnectionPool

/-!
# Clones of the connection pool (`transport/pool.rs`)

The clones of a pool share its table, its queue and its counters, but each has an id counter and a place in the
expansion factors of its own, which start where the original's stood. Calls on all of them run at once: a step is
one operation on the table, the queue or a counter. A caller keeps what Rust's borrows promise: `smart_expand` and
`try_shrink` take `&mut self`, so nothing else runs on their handle.

Ids stay apart as long as no connection is created through a handle another one is ahead of, and the limit is kept
as long as no expansion decides on a total that has grown since, or while another one creates: `law_of_upToDate`.
-/

namespace Msgtrans

namespace PoolClones

open ConnectionPool (ConnectionState)

structure Config where
  initialSize : ℕ
  maxSize : ℕ
  overflowChecks : Bool

/-- What each clone has of its own. -/
structure Handle where
  connectionIdCounter : ℕ
  expansionStrategy : ExpansionStrategy

/-- Where a call stands; the operation named is the next one. In the loops `n` connections are left to create, or
to remove, after the one at hand. -/
inductive Pc where
  /-- `get_connection` -/
  | pop
  | lookup (connectionId : ConnectionId)
  | acquire (connectionId : ConnectionId) (connection : PoolConnection)
  | countAcquired (connectionId : ConnectionId)
  /-- `return_connection` -/
  | find (connectionId : ConnectionId)
  | release (connectionId : ConnectionId) (connection : PoolConnection)
  | pushBack (connectionId : ConnectionId)
  | countReleased
  /-- `smart_expand` -/
  | expandTotal
  | expandAvailable (currentTotal : ℕ)
  | create (n : ℕ)
  | pushCreated (connectionId : ConnectionId) (n : ℕ)
  | countTotal (n : ℕ)
  | countAvailable (n : ℕ)
  /-- `try_shrink` -/
  | utilizationTotal
  | utilizationAvailable (total : ℕ)
  | shrinkTotal
  | shrinkAvailable (currentTotal : ℕ)
  | shrinkPop (n : ℕ)
  | remove (connectionId : ConnectionId) (n : ℕ)
  | uncountTotal (n : ℕ)
  | uncountAvailable (n : ℕ)
  | done
deriving DecidableEq

/-- The call has borrowed its handle as `&mut self`. -/
def Pc.exclusive : Pc → Bool
  | .pop | .lookup _ | .acquire _ _ | .countAcquired _ | .find _ | .release _ _ | .pushBack _ | .countReleased
  | .done => false
  | _ => true

structure Call where
  handle : ℕ
  pc : Pc

structure State where
  handles : List Handle
  activeConnections : LockFreeHashMap.Map ConnectionId PoolConnection
  availableConnections : List ConnectionId
  /-- the `u64` counters, as integers; a load sees their remainder -/
  total : ℤ
  available : ℤ
  calls : List Call
  /-- the ids handed out that nobody has begun to return -/
  held : List ConnectionId
  /-- the ids of all connections ever created -/
  created : List ConnectionId

def load (counter : ℤ) : ℕ := (counter % 2 ^ 64).toNat

def start (cfg : Config) : State :=
  let p := (ConnectionPool.new cfg.initialSize cfg.maxSize).initializePool
  ⟨[⟨p.connectionIdCounter, p.expansionStrategy⟩], p.activeConnections, p.availableConnections,
    p.stats.totalConnections, p.stats.availableConnections, [], [], p.activeConnections.keys⟩

inductive Label where
  | clone (handle : ℕ)
  | getConnection (handle : ℕ)
  | returnConnection (handle : ℕ) (connectionId : ConnectionId)
  | smartExpand (handle : ℕ)
  | tryShrink (handle : ℕ)
  /-- call `i` takes its next step; `ok` is whether a write to the table succeeds, where that is the step -/
  | run (i : ℕ) (ok : Bool)

/-- `&self` can be borrowed. -/
def State.canShare (s : State) (handle : ℕ) : Bool := s.calls.all fun c => c.handle != handle || !c.pc.exclusive

/-- `&mut self` can be borrowed. -/
def State.canBorrow (s : State) (handle : ℕ) : Bool := s.calls.all fun c => c.handle != handle || c.pc = .done

def State.begin (s : State) (handle : ℕ) (pc : Pc) : State := { s with calls := s.calls ++ [⟨handle, pc⟩] }

/-- `(current_total - available_count) as f64 / current_total as f64`, where the subtraction wraps. -/
def expandUtilization (currentTotal availableCount : ℕ) : ℚ :=
  if currentTotal > 0 then ((currentTotal + 2 ^ 64 - availableCount) % 2 ^ 64 : ℕ) / currentTotal else 0

/-- What `smart_expand` does once it has read both counters. -/
def expand (cfg : Config) (h : Handle) (currentTotal availableCount : ℕ) : Pc :=
  if cfg.overflowChecks ∧ 0 < currentTotal ∧ currentTotal < availableCount then .done -- the subtraction panics
  else if expandUtilization currentTotal availableCount < h.expansionStrategy.expansionThreshold then .done
  else match h.expansionStrategy.getCurrentExpansionFactor with
    | none => .done
    | some factor =>
      let newSize := ⌊(currentTotal : ℚ) * factor⌋₊
      if newSize > cfg.maxSize then .done else .create (newSize - currentTotal)

/-- What `try_shrink` does once it has computed the utilization. -/
def checkUtilization (h : Handle) (total available : ℕ) : Pc :=
  let utilization : ℚ := if total = 0 then 0 else (total - available) / total
  if utilization > h.expansionStrategy.shrinkThreshold then .done else .shrinkTotal

/-- What `try_shrink` does once it has read both counters again. -/
def shrink (cfg : Config) (currentTotal availableCount : ℕ) : Pc :=
  let newSize := max ⌊(currentTotal : ℚ) * (4 / 5)⌋₊ cfg.initialSize
  if currentTotal ≤ cfg.initialSize then .done
  else if newSize ≥ currentTotal then .done
  else .shrinkPop (min (currentTotal - newSize) availableCount)

/-- The next step of a call on `h`: where it then stands, and the new state but for that. -/
def exec (cfg : Config) (s : State) (handle : ℕ) (h : Handle) (ok : Bool) : Pc → Option (Pc × State)
  | .pop => match s.availableConnections with
    | [] => some (.done, s)
    | id :: rest => some (.lookup id, { s with availableConnections := rest })
  | .lookup id => match s.activeConnections.lookup id with
    | none => some (.done, s)
    | some c => some (.acquire id c, s)
  | .acquire id c =>
    let c := { c with state := .inUse, useCount := c.useCount + 1 }
    some (.countAcquired id, if ok then { s with activeConnections := s.activeConnections.insert id c } else s)
  | .countAcquired id => some (.done, { s with available := s.available - 1, held := id :: s.held })
  | .find id => match s.activeConnections.lookup id with
    | none => some (.done, s)
    | some c => some (.release id c, s)
  | .release id c =>
    let c := { c with state := .available }
    some (.pushBack id, if ok then { s with activeConnections := s.activeConnections.insert id c } else s)
  | .pushBack id => some (.countReleased, { s with availableConnections := s.availableConnections ++ [id] })
  | .countReleased => some (.done, { s with available := s.available + 1 })
  | .expandTotal => some (.expandAvailable (load s.total), s)
  | .expandAvailable currentTotal => some (expand cfg h currentTotal (load s.available), s)
  | .create 0 => some (.done, { s with
      handles := s.handles.set handle { h with expansionStrategy := h.expansionStrategy.advanceExpansionFactor } })
  | .create (n + 1) =>
    -- nothing else runs on the handle, so the id can be drawn together with the insertion
    let id := h.connectionIdCounter
    let s := { s with handles := s.handles.set handle { h with connectionIdCounter := id + 1 } }
    if ok then
      some (.pushCreated id n, { s with
        activeConnections := s.activeConnections.insert id ⟨id, none, 0, .available⟩, created := id :: s.created })
    else some (.create n, s)
  | .pushCreated id n => some (.countTotal n, { s with availableConnections := s.availableConnections ++ [id] })
  | .countTotal n => some (.countAvailable n, { s with total := s.total + 1 })
  | .countAvailable n => some (.create n, { s with available := s.available + 1 })
  | .utilizationTotal => some (.utilizationAvailable (load s.total), s)
  | .utilizationAvailable total => some (checkUtilization h total (load s.available), s)
  | .shrinkTotal => some (.shrinkAvailable (load s.total), s)
  | .shrinkAvailable currentTotal => some (shrink cfg currentTotal (load s.available), s)
  | .shrinkPop 0 => some (.done, s)
  | .shrinkPop (n + 1) => match s.availableConnections with
    | [] => some (.shrinkPop n, s)
    | id :: rest => some (.remove id n, { s with availableConnections := rest })
  | .remove id n =>
    -- after a failed removal the id is in no queue any more
    if ok then some (.uncountTotal n, { s with activeConnections := s.activeConnections.erase id })
    else some (.shrinkPop n, s)
  | .uncountTotal n => some (.uncountAvailable n, { s with total := s.total - 1 })
  | .uncountAvailable n => some (.shrinkPop n, { s with available := s.available - 1 })
  | .done => none

def step (cfg : Config) (s : State) : Label → Option State
  | .clone k => s.handles[k]?.bind fun h =>
    if s.canShare k then some { s with handles := s.handles ++ [h] } else none
  | .getConnection k => s.handles[k]?.bind fun _ => if s.canShare k then some (s.begin k .pop) else none
  | .returnConnection k id => s.handles[k]?.bind fun _ =>
    if s.canShare k ∧ id ∈ s.held then some ({ s with held := s.held.erase id }.begin k (.find id)) else none
  | .smartExpand k => s.handles[k]?.bind fun _ => if s.canBorrow k then some (s.begin k .expandTotal) else none
  | .tryShrink k => s.handles[k]?.bind fun _ => if s.canBorrow k then some (s.begin k .utilizationTotal) else none
  | .run i ok => s.calls[i]?.bind fun c => s.handles[c.handle]?.bind fun h =>
    (exec cfg s c.handle h ok c.pc).map fun r => { r.2 with calls := s.calls.set i { c with pc := r.1 } }

/-! ### What every step keeps -/

/-- The id a call has in hand: taken from the queue or the caller, or new, and not yet passed on. -/
def Pc.token : Pc → Multiset ConnectionId
  | .lookup id | .acquire id _ | .countAcquired id | .find id | .release id _ | .pushBack id | .pushCreated id _
  | .remove id _ => {id}
  | _ => 0

/-- How many connections the call has still to create, or has created and not counted. -/
def Pc.toCreate : Pc → ℕ
  | .create n | .countAvailable n => n
  | .pushCreated _ n | .countTotal n => n + 1
  | _ => 0

/-- How many connections the call has stored and not counted. -/
def Pc.uncounted : Pc → ℕ
  | .pushCreated _ _ | .countTotal _ => 1
  | _ => 0

/-- How many connections the call has removed and still counts. -/
def Pc.removed : Pc → ℕ
  | .uncountTotal _ => 1
  | _ => 0

def State.sum {M : Type} [AddCommMonoid M] (s : State) (f : Pc → M) : M := (s.calls.map fun c => f c.pc).sum

/-- Where ids pass from hand to hand: the queue, the calls, the callers. -/
def State.tokens (s : State) : Multiset ConnectionId := s.availableConnections + s.sum Pc.token + s.held

structure Inv (cfg : Config) (s : State) : Prop where
  nodup : s.tokens.Nodup
  stored : ∀ id ∈ s.tokens, id ∈ s.activeConnections
  keys : ∀ id ∈ s.activeConnections, id ∈ s.created
  created : s.created.Nodup
  drawn : ∀ id ∈ s.created, ∃ h ∈ s.handles, id < h.connectionIdCounter
  factors : ∀ h ∈ s.handles, h.expansionStrategy.factors = ExpansionStrategy.default.factors
  count : (s.activeConnections.entries.length : ℤ) + s.sum Pc.removed = s.total + s.sum Pc.uncounted
  /-- there is room for what the expansions under way are to create -/
  room : 0 < s.sum Pc.toCreate → s.total + s.sum Pc.toCreate ≤ cfg.maxSize
  size : s.activeConnections.entries.length ≤ cfg.maxSize

/-- The ids of connections are all different, no id is in the queue twice or held twice, and the pool is within
its limit. -/
structure Law (cfg : Config) (s : State) : Prop where
  created : s.created.Nodup
  queue : s.availableConnections.Nodup
  held : s.held.Nodup
  size : s.activeConnections.entries.length ≤ cfg.maxSize

/-- An expansion that is to create something has read a total that has not grown since, and no other one is
creating; and no handle is ahead of the one whose next id is used. -/
def Pc.UpToDate (cfg : Config) (s : State) (h : Handle) : Pc → Prop
  | .expandAvailable currentTotal => (expand cfg h currentTotal (load s.available)).toCreate = 0 ∨
    (∀ d ∈ s.calls, d.pc.toCreate = 0) ∧ s.total ≤ currentTotal
  | .create (_ + 1) => ∀ h' ∈ s.handles, h'.connectionIdCounter ≤ h.connectionIdCounter
  | _ => True

def UpToDate (cfg : Config) (s : State) : Label → Prop
  | .run i _ => ∀ c ∈ s.calls[i]?, ∀ h ∈ s.handles[c.handle]?, c.pc.UpToDate cfg s h
  | _ => True

instance (cfg : Config) (s : State) (h : Handle) (pc : Pc) : Decidable (pc.UpToDate cfg s h) := by
  unfold Pc.UpToDate
  split <;> infer_instance

instance (cfg : Config) (s : State) (l : Label) : Decidable (UpToDate cfg s l) := by
  unfold UpToDate
  split <;> infer_instance

variable {cfg : Config} {s s' s₁ : State} {i k : ℕ} {c : Call} {h h' : Handle} {pc' : Pc} {hs hs' : List Handle} {ok : Bool}

theorem Inv.law (hI : Inv cfg s) : Law cfg s := by
  have hnd := hI.nodup
  rw [State.tokens, Multiset.nodup_add, Multiset.nodup_add] at hnd
  exact ⟨hI.created, Multiset.coe_nodup.1 hnd.1.1, Multiset.coe_nodup.1 hnd.2.1, hI.size⟩

theorem sum_set {M : Type} [AddCommMonoid M] (f : Pc → M) (pc' : Pc) (hc : s.calls[i]? = some c) :
    ((s.calls.set i { c with pc := pc' }).map fun c => f c.pc).sum + f c.pc = s.sum f + f pc' :=
  Indexed.sum_map_set_add (f := fun c : Call => f c.pc) hc

theorem Pc.uncounted_le_toCreate (pc : Pc) : pc.uncounted ≤ pc.toCreate := by
  cases pc with
  | pushCreated id n => exact Nat.succ_le_succ (Nat.zero_le n)
  | countTotal n => exact Nat.succ_le_succ (Nat.zero_le n)
  | _ => exact Nat.zero_le _

/-- What a call is still to create comes on top of all that is stored and not counted. -/
theorem sum_uncounted_add_le {n : ℕ} (hc : s.calls[i]? = some c) (hpc : c.pc = .create n) :
    s.sum Pc.uncounted + n ≤ s.sum Pc.toCreate := by
  have hu : _ + 0 = s.sum Pc.uncounted + 0 := hpc ▸ sum_set Pc.uncounted .done hc
  have ht : _ + n = s.sum Pc.toCreate + 0 := hpc ▸ sum_set Pc.toCreate .done hc
  have hle : ((s.calls.set i { c with pc := .done }).map fun c => c.pc.uncounted).sum ≤
      ((s.calls.set i { c with pc := .done }).map fun c => c.pc.toCreate).sum :=
    List.sum_le_sum fun d _ => d.pc.uncounted_le_toCreate
  omega

/-- Each handle stays, or gives way to one that is further on. -/
structure Advance (hs hs' : List Handle) : Prop where
  counter : ∀ h ∈ hs, ∃ h' ∈ hs', h.connectionIdCounter ≤ h'.connectionIdCounter
  factors : ∀ h' ∈ hs', ∃ h ∈ hs, h'.expansionStrategy.factors = h.expansionStrategy.factors

theorem Advance.refl : Advance hs hs := ⟨fun h hh => ⟨h, hh, le_rfl⟩, fun h hh => ⟨h, hh, rfl⟩⟩

theorem advance_set (hk : hs[k]? = some h) (hle : h.connectionIdCounter ≤ h'.connectionIdCounter)
    (hf : h'.expansionStrategy.factors = h.expansionStrategy.factors) : Advance hs (hs.set k h') := by
  constructor
  · intro g hg
    by_cases hgh : g = h
    · exact ⟨h', Indexed.mem_set_self_of_some hk, hgh ▸ hle⟩
    · exact ⟨g, Indexed.mem_set_of_ne hk hg hgh, le_rfl⟩
  · intro g hg
    rcases List.mem_or_eq_of_mem_set hg with hg | rfl
    · exact ⟨g, hg, rfl⟩
    · exact ⟨h, List.mem_of_getElem? hk, hf⟩

/-- The table keeps its ids, and nothing is created. -/
structure Quiet (s s₁ : State) : Prop where
  keys : ∀ id, id ∈ s₁.activeConnections ↔ id ∈ s.activeConnections
  length : s₁.activeConnections.entries.length = s.activeConnections.entries.length
  created : s₁.created = s.created
  handles : Advance s.handles s₁.handles

theorem quiet_of_eq (ht : s₁.activeConnections = s.activeConnections) (hc : s₁.created = s.created)
    (hh : s₁.handles = s.handles) : Quiet s s₁ :=
  ⟨fun id => by rw [ht], by rw [ht], hc, by rw [hh]; exact .refl⟩

theorem quiet_insert {id : ConnectionId} {v : PoolConnection} (hid : id ∈ s.activeConnections) :
    Quiet s { s with activeConnections := s.activeConnections.insert id v } := by
  refine ⟨fun j => ?_, Table.length_insert_of_mem hid, rfl, .refl⟩
  rw [AList.mem_insert, or_iff_right_of_imp]
  rintro rfl
  exact hid

/-- A call moves on quietly: the ids it passes on it had in hand, and it keeps the accounts. -/
theorem Inv.moved {pc : Pc} (hI : Inv cfg s) (hc : s.calls[i]? = some c) (hpc : c.pc = pc) (hq : Quiet s s₁)
    (htokens : (s₁.availableConnections : Multiset ConnectionId) + pc'.token + s₁.held ≤
      s.availableConnections + pc.token + s.held)
    (hcount : s₁.total + pc'.uncounted + pc.removed = s.total + pc.uncounted + pc'.removed)
    (hroom : pc'.toCreate ≤ pc.toCreate ∧ s₁.total + pc'.toCreate ≤ s.total + pc.toCreate ∨
      s.sum Pc.toCreate = 0 ∧ s₁.total + pc'.toCreate ≤ cfg.maxSize) :
    Inv cfg { s₁ with calls := s.calls.set i { c with pc := pc' } } := by
  subst hpc
  have hsum {M : Type} [AddCommMonoid M] (f : Pc → M) :
      State.sum { s₁ with calls := s.calls.set i { c with pc := pc' } } f + f c.pc = s.sum f + f pc' := sum_set f _ hc
  have hle : State.tokens { s₁ with calls := s.calls.set i { c with pc := pc' } } ≤ s.tokens := by
    refine le_of_add_le_add_right (a := c.pc.token) ?_
    calc State.tokens { s₁ with calls := s.calls.set i { c with pc := pc' } } + c.pc.token
        = s₁.availableConnections + pc'.token + s₁.held + s.sum Pc.token := by
          have ht := hsum Pc.token
          unfold State.tokens
          rw [add_right_comm, add_assoc (s₁.availableConnections : Multiset ConnectionId), ht]
          abel
      _ ≤ s.availableConnections + c.pc.token + s.held + s.sum Pc.token := add_le_add_left htokens _
      _ = s.tokens + c.pc.token := by
          unfold State.tokens
          abel
  constructor
  · exact Multiset.nodup_of_le hle hI.nodup
  · exact fun id hid => (hq.keys id).2 (hI.stored id (Multiset.mem_of_le hle hid))
  · intro id hid
    rw [hq.created]
    exact hI.keys id ((hq.keys id).1 hid)
  · rw [hq.created]
    exact hI.created
  · intro id hid
    rw [hq.created] at hid
    obtain ⟨h, hh, hlt⟩ := hI.drawn id hid
    obtain ⟨h', hh', hle⟩ := hq.handles.counter h hh
    exact ⟨h', hh', hlt.trans_le hle⟩
  · intro h' hh'
    obtain ⟨h, hh, hf⟩ := hq.handles.factors h' hh'
    exact hf.trans (hI.factors h hh)
  · have hr := hsum Pc.removed
    have hu := hsum Pc.uncounted
    have hn := hI.count
    have hl := hq.length
    show (s₁.activeConnections.entries.length : ℤ) + _ = s₁.total + _
    omega
  · intro hpos
    have ht := hsum Pc.toCreate
    have hn := hI.room
    show s₁.total + _ ≤ _
    omega
  · exact hq.length.trans_le hI.size

/-- A connection is stored under an id that is new to the table, and there was room for it. -/
theorem Inv.inserted {n : ℕ} {id : ConnectionId} {v : PoolConnection} (hI : Inv cfg s) (hc : s.calls[i]? = some c)
    (hpc : c.pc = .create (n + 1)) (hh : s.handles[c.handle]? = some h) (hid : h.connectionIdCounter = id)
    (hup : ∀ h' ∈ s.handles, h'.connectionIdCounter ≤ h.connectionIdCounter) :
    Inv cfg { s with
      handles := s.handles.set c.handle { h with connectionIdCounter := id + 1 }
      activeConnections := s.activeConnections.insert id v
      created := id :: s.created
      calls := s.calls.set i { c with pc := .pushCreated id n } } := by
  have hnew : id ∉ s.created := by
    intro hm
    obtain ⟨h', hh', hlt⟩ := hI.drawn id hm
    exact Nat.lt_irrefl _ (hlt.trans_le (hid ▸ hup h' hh'))
  have hkey : id ∉ s.activeConnections := fun hm => hnew (hI.keys id hm)
  have hadv : Advance s.handles (s.handles.set c.handle { h with connectionIdCounter := id + 1 }) :=
    advance_set hh (hid ▸ Nat.le_succ _) rfl
  have hsum {M : Type} [AddCommMonoid M] (f : Pc → M) :
      ((s.calls.set i { c with pc := .pushCreated id n }).map fun c => f c.pc).sum + f (.create (n + 1)) =
        s.sum f + f (.pushCreated id n) := hpc ▸ sum_set f _ hc
  have htokens : (s.availableConnections : Multiset ConnectionId) +
      ((s.calls.set i { c with pc := .pushCreated id n }).map fun c => c.pc.token).sum + s.held = id ::ₘ s.tokens := by
    have ht : ((s.calls.set i { c with pc := .pushCreated id n }).map fun c => c.pc.token).sum + 0 =
      s.sum Pc.token + {id} := hsum Pc.token
    rw [add_zero] at ht
    rw [ht, State.tokens, ← Multiset.singleton_add]
    abel
  constructor
  · show (_ : Multiset ConnectionId).Nodup
    rw [State.tokens, State.sum, htokens]
    exact Multiset.nodup_cons.2 ⟨fun hm => hkey (hI.stored id hm), hI.nodup⟩
  · intro j hj
    rw [State.tokens, State.sum, htokens, Multiset.mem_cons] at hj
    exact (AList.mem_insert _).2 (hj.imp_right (hI.stored j))
  · intro j hj
    rcases (AList.mem_insert _).1 hj with rfl | hj
    · exact List.mem_cons_self
    · exact List.mem_cons_of_mem _ (hI.keys j hj)
  · exact List.nodup_cons.2 ⟨hnew, hI.created⟩
  · intro j hj
    rcases List.mem_cons.1 hj with rfl | hj
    · exact ⟨_, Indexed.mem_set_self_of_some hh, Nat.lt_succ_self _⟩
    · obtain ⟨g, hg, hlt⟩ := hI.drawn j hj
      obtain ⟨g', hg', hle⟩ := hadv.counter g hg
      exact ⟨g', hg', hlt.trans_le hle⟩
  · intro g' hg'
    obtain ⟨g, hg, hf⟩ := hadv.factors g' hg'
    exact hf.trans (hI.factors g hg)
  all_goals
    have hr : _ + 0 = s.sum Pc.removed + 0 := hsum Pc.removed
    have hu : _ + 0 = s.sum Pc.uncounted + 1 := hsum Pc.uncounted
    have ht : _ + (n + 1) = s.sum Pc.toCreate + (n + 1) := hsum Pc.toCreate
    have hle := sum_uncounted_add_le hc hpc
    have hlen := Table.length_insert_of_notMem (v := v) hkey
    have hn := hI.count
    have hroom := hI.room
    simp only [State.sum] at *
    omega

/-- A connection taken from the queue leaves the table. -/
theorem Inv.erased {n : ℕ} {id : ConnectionId} (hI : Inv cfg s) (hc : s.calls[i]? = some c)
    (hpc : c.pc = .remove id n) :
    Inv cfg { s with
      activeConnections := s.activeConnections.erase id
      calls := s.calls.set i { c with pc := .uncountTotal n } } := by
  have hsum {M : Type} [AddCommMonoid M] (f : Pc → M) :
      ((s.calls.set i { c with pc := .uncountTotal n }).map fun c => f c.pc).sum + f (.remove id n) =
        s.sum f + f (.uncountTotal n) := hpc ▸ sum_set f _ hc
  have htokens : s.tokens = id ::ₘ (s.availableConnections +
      ((s.calls.set i { c with pc := .uncountTotal n }).map fun c => c.pc.token).sum + s.held) := by
    have ht : ((s.calls.set i { c with pc := .uncountTotal n }).map fun c => c.pc.token).sum + {id} =
      s.sum Pc.token + 0 := hsum Pc.token
    rw [State.tokens, ← add_zero (s.sum Pc.token), ← ht, ← Multiset.singleton_add]
    abel
  have hnd := hI.nodup
  rw [htokens, Multiset.nodup_cons] at hnd
  have hkey : id ∈ s.activeConnections := hI.stored id (htokens ▸ Multiset.mem_cons_self ..)
  constructor
  · exact hnd.2
  · intro j hj
    have hne : j ≠ id := fun he => hnd.1 (he ▸ hj)
    exact AList.mem_erase.2 ⟨hne, hI.stored j (htokens ▸ Multiset.mem_cons_of_mem hj)⟩
  · exact fun j hj => hI.keys j (AList.mem_erase.1 hj).2
  · exact hI.created
  · exact hI.drawn
  · exact hI.factors
  all_goals
    have hr : _ + 0 = s.sum Pc.removed + 1 := hsum Pc.removed
    have hu : _ + 0 = s.sum Pc.uncounted + 0 := hsum Pc.uncounted
    have ht : _ + 0 = s.sum Pc.toCreate + 0 := hsum Pc.toCreate
    have hlen := Table.length_erase_of_mem hkey
    have hn := hI.count
    have hroom := hI.room
    have hsize := hI.size
    simp only [State.sum] at *
    omega

theorem expand_eq {t a : ℕ} (hf : h.expansionStrategy.factors = ExpansionStrategy.default.factors) :
    expand cfg h t a = .done ∨ ∃ n, expand cfg h t a = .create n ∧ t + n ≤ cfg.maxSize := by
  obtain ⟨factor, hfactor, hone⟩ := ExpansionStrategy.exists_factor hf
  have hgrow : t ≤ ⌊(t : ℚ) * factor⌋₊ := Nat.le_floor (le_mul_of_one_le_right (Nat.cast_nonneg _) hone)
  simp only [expand, hfactor]
  split
  · exact .inl rfl
  split
  · exact .inl rfl
  split
  · exact .inl rfl
  · exact .inr ⟨⌊(t : ℚ) * factor⌋₊ - t, rfl, by omega⟩

theorem checkUtilization_eq (h : Handle) (t a : ℕ) : checkUtilization h t a = .done ∨ checkUtilization h t a = .shrinkTotal :=
  ite_eq_or_eq ..

theorem shrink_eq (cfg : Config) (t a : ℕ) : shrink cfg t a = .done ∨ ∃ n, shrink cfg t a = .shrinkPop n := by
  simp only [shrink]
  split
  · exact .inl rfl
  split
  · exact .inl rfl
  · exact .inr ⟨_, rfl⟩

/-- A call that has nothing in hand but what a caller gave up is as good as none. -/
theorem Inv.begin {pc : Pc} (hI : Inv cfg s) {held : List ConnectionId}
    (htokens : pc.token + held = s.held) (hpc : pc.toCreate = 0 ∧ pc.uncounted = 0 ∧ pc.removed = 0) :
    Inv cfg ({ s with held := held }.begin k pc) := by
  have hsum {M : Type} [AddCommMonoid M] (f : Pc → M) :
      State.sum ({ s with held := held }.begin k pc) f = s.sum f + f pc := by
    simp [State.sum, State.begin]
  have htok : State.tokens ({ s with held := held }.begin k pc) = s.tokens := by
    rw [State.tokens, hsum, State.tokens, ← htokens]
    show (s.availableConnections : Multiset ConnectionId) + _ + (held : Multiset ConnectionId) = _
    abel
  have hn := hI.count
  have hroom := hI.room
  constructor
  · rw [htok]
    exact hI.nodup
  · rw [htok]
    exact hI.stored
  · exact hI.keys
  · exact hI.created
  · exact hI.drawn
  · exact hI.factors
  · rw [hsum, hsum, hpc.2.1, hpc.2.2]
    exact hn
  · rw [hsum, hpc.1]
    exact hroom
  · exact hI.size

theorem Inv.clone (hI : Inv cfg s) (hk : s.handles[k]? = some h) : Inv cfg { s with handles := s.handles ++ [h] } := by
  have hmem : h ∈ s.handles := List.mem_of_getElem? hk
  obtain ⟨hnd, hst, hkeys, hcr, hdr, hf, hn, hroom, hsize⟩ := hI
  refine ⟨hnd, hst, hkeys, hcr, fun id hid => ?_, fun g hg => ?_, hn, hroom, hsize⟩
  · obtain ⟨g, hg, hlt⟩ := hdr id hid
    exact ⟨g, List.mem_append_left _ hg, hlt⟩
  · rcases List.mem_append.1 hg with hg | hg
    · exact hf g hg
    · exact hf g (List.mem_singleton.1 hg ▸ hmem)

section Tokens

variable {q rest held : List ConnectionId} {id : ConnectionId} {t : Multiset ConnectionId}

theorem tokens_dropped : (q : Multiset ConnectionId) + 0 + held ≤ q + t + held :=
  add_le_add_left (add_le_add_right (Multiset.zero_le t) _) _

theorem tokens_popped : (rest : Multiset ConnectionId) + {id} + held ≤ (id :: rest : List ConnectionId) + 0 + held := by
  rw [← Multiset.cons_coe, ← Multiset.singleton_add, add_zero, add_comm (rest : Multiset ConnectionId)]

theorem tokens_pushed : ((q ++ [id] : List ConnectionId) : Multiset ConnectionId) + 0 + held ≤ q + {id} + held := by
  rw [← Multiset.coe_add, Multiset.coe_singleton, add_zero]

theorem tokens_acquired : (q : Multiset ConnectionId) + 0 + (id :: held : List ConnectionId) ≤ q + {id} + held := by
  rw [← Multiset.cons_coe, ← Multiset.singleton_add, add_zero, add_assoc]

end Tokens

theorem token_stored {id : ConnectionId} (hI : Inv cfg s) (hc : s.calls[i]? = some c) (hid : id ∈ c.pc.token) :
    id ∈ s.activeConnections := by
  have hsum : _ + c.pc.token = s.sum Pc.token + 0 := sum_set Pc.token .done hc
  have hmem : id ∈ s.sum Pc.token := by
    rw [← add_zero (s.sum Pc.token), ← hsum, Multiset.mem_add]
    exact .inr hid
  refine hI.stored id ?_
  rw [State.tokens, Multiset.mem_add, Multiset.mem_add]
  exact .inl (.inr hmem)

theorem Inv.exec (hI : Inv cfg s) (hc : s.calls[i]? = some c) (hh : s.handles[c.handle]? = some h)
    (hup : UpToDate cfg s (.run i ok)) (he : exec cfg s c.handle h ok c.pc = some (pc', s₁)) :
    Inv cfg { s₁ with calls := s.calls.set i { c with pc := pc' } } := by
  have hf := hI.factors h (List.mem_of_getElem? hh)
  replace hup := hup c hc h hh
  have htoken : ∀ id ∈ c.pc.token, id ∈ s.activeConnections := fun id hid => token_stored hI hc hid
  have hsame : Quiet s s := quiet_of_eq rfl rfl rfl
  have hsame' {q total available held calls} : Quiet s { s with
      availableConnections := q, total := total, available := available, held := held, calls := calls } :=
    quiet_of_eq rfl rfl rfl
  obtain ⟨handle, pc⟩ := c
  cases pc with
  | pop =>
    simp only [PoolClones.exec] at he
    split at he
    · cases he
      exact hI.moved hc rfl hsame le_rfl rfl (.inl ⟨le_rfl, le_rfl⟩)
    · next id rest hq =>
      cases he
      exact hI.moved hc rfl hsame' (hq ▸ tokens_popped) rfl (.inl ⟨le_rfl, le_rfl⟩)
  | lookup id | find id =>
    simp only [PoolClones.exec] at he
    split at he
    · cases he
      exact hI.moved hc rfl hsame tokens_dropped rfl (.inl ⟨le_rfl, le_rfl⟩)
    · cases he
      exact hI.moved hc rfl hsame le_rfl rfl (.inl ⟨le_rfl, le_rfl⟩)
  | acquire id v | release id v =>
    cases he
    have hid : id ∈ s.activeConnections := htoken id (Multiset.mem_singleton_self id)
    split
    · exact hI.moved hc rfl (quiet_insert hid) le_rfl rfl (.inl ⟨le_rfl, le_rfl⟩)
    · exact hI.moved hc rfl hsame le_rfl rfl (.inl ⟨le_rfl, le_rfl⟩)
  | countAcquired id =>
    cases he
    exact hI.moved hc rfl hsame' tokens_acquired rfl (.inl ⟨le_rfl, le_rfl⟩)
  | pushBack id | pushCreated id n =>
    cases he
    exact hI.moved hc rfl hsame' tokens_pushed rfl (.inl ⟨le_rfl, le_rfl⟩)
  | countReleased | countAvailable n | uncountAvailable n =>
    cases he
    exact hI.moved hc rfl hsame' le_rfl rfl (.inl ⟨le_rfl, le_rfl⟩)
  | expandTotal | utilizationTotal | shrinkTotal =>
    cases he
    exact hI.moved hc rfl hsame le_rfl rfl (.inl ⟨le_rfl, le_rfl⟩)
  | expandAvailable t =>
    cases he
    rcases expand_eq hf with hdone | ⟨n, hcreate, hle⟩
    · rw [hdone]
      exact hI.moved hc rfl hsame le_rfl rfl (.inl ⟨le_rfl, le_rfl⟩)
    · rw [hcreate]
      rw [Pc.UpToDate, hcreate] at hup
      rcases hup with hn | ⟨hothers, htotal⟩
      · have hn' : n = 0 := hn
        subst hn'
        exact hI.moved hc rfl hsame le_rfl rfl (.inl ⟨le_rfl, le_rfl⟩)
      · have hsum : s.sum Pc.toCreate = 0 := Indexed.sum_map_eq_zero hothers
        refine hI.moved hc rfl hsame le_rfl rfl (.inr ⟨hsum, ?_⟩)
        show s.total + (n : ℤ) ≤ cfg.maxSize
        omega
  | create n =>
    cases n with
    | zero =>
      cases he
      exact hI.moved hc rfl ⟨fun _ => Iff.rfl, rfl, rfl, advance_set hh le_rfl (by simp)⟩ le_rfl rfl
        (.inl ⟨le_rfl, le_rfl⟩)
    | succ n =>
      simp only [PoolClones.exec] at he
      split at he
      · cases he
        exact hI.inserted hc rfl hh rfl hup
      · cases he
        refine hI.moved hc rfl ⟨fun _ => Iff.rfl, rfl, rfl, advance_set hh (Nat.le_succ _) rfl⟩ le_rfl rfl
          (.inl ⟨Nat.le_succ n, ?_⟩)
        show s.total + (n : ℤ) ≤ s.total + ((n + 1 : ℕ) : ℤ)
        omega
  | countTotal n =>
    cases he
    refine hI.moved hc rfl hsame' le_rfl ?_ (.inl ⟨Nat.le_succ n, ?_⟩)
    · show s.total + 1 + ((0 : ℕ) : ℤ) + ((0 : ℕ) : ℤ) = s.total + ((1 : ℕ) : ℤ) + ((0 : ℕ) : ℤ)
      omega
    · show s.total + 1 + (n : ℤ) ≤ s.total + ((n + 1 : ℕ) : ℤ)
      omega
  | utilizationAvailable t =>
    cases he
    rcases checkUtilization_eq h t (load s.available) with hpc | hpc <;> rw [hpc] <;>
      exact hI.moved hc rfl hsame le_rfl rfl (.inl ⟨le_rfl, le_rfl⟩)
  | shrinkAvailable t =>
    cases he
    rcases shrink_eq cfg t (load s.available) with hpc | ⟨n, hpc⟩ <;> rw [hpc] <;>
      exact hI.moved hc rfl hsame le_rfl rfl (.inl ⟨le_rfl, le_rfl⟩)
  | shrinkPop n =>
    cases n with
    | zero =>
      cases he
      exact hI.moved hc rfl hsame le_rfl rfl (.inl ⟨le_rfl, le_rfl⟩)
    | succ n =>
      simp only [PoolClones.exec] at he
      split at he
      · cases he
        exact hI.moved hc rfl hsame le_rfl rfl (.inl ⟨le_rfl, le_rfl⟩)
      · next id rest hq =>
        cases he
        exact hI.moved hc rfl hsame' (hq ▸ tokens_popped) rfl (.inl ⟨le_rfl, le_rfl⟩)
  | remove id n =>
    simp only [PoolClones.exec] at he
    split at he
    · cases he
      exact hI.erased hc rfl
    · cases he
      exact hI.moved hc rfl hsame tokens_dropped rfl (.inl ⟨le_rfl, le_rfl⟩)
  | uncountTotal n =>
    cases he
    refine hI.moved hc rfl hsame' le_rfl ?_ (.inl ⟨le_rfl, ?_⟩)
    · show s.total - 1 + ((0 : ℕ) : ℤ) + ((1 : ℕ) : ℤ) = s.total + ((0 : ℕ) : ℤ) + ((0 : ℕ) : ℤ)
      omega
    · show s.total - 1 + ((0 : ℕ) : ℤ) ≤ s.total + ((0 : ℕ) : ℤ)
      omega
  | done => cases he

theorem inv_step {l : Label} (hs : step cfg s l = some s') (hup : UpToDate cfg s l) (hI : Inv cfg s) : Inv cfg s' := by
  cases l with
  | clone k =>
    obtain ⟨h, hk, hs⟩ := Option.bind_eq_some_iff.1 hs
    split at hs
    · cases hs
      exact hI.clone hk
    · cases hs
  | getConnection k | smartExpand k | tryShrink k =>
    obtain ⟨h, hk, hs⟩ := Option.bind_eq_some_iff.1 hs
    split at hs
    · cases hs
      exact hI.begin (zero_add _) ⟨rfl, rfl, rfl⟩
    · cases hs
  | returnConnection k id =>
    obtain ⟨h, hk, hs⟩ := Option.bind_eq_some_iff.1 hs
    split at hs
    · next hg =>
      cases hs
      refine hI.begin ?_ ⟨rfl, rfl, rfl⟩
      show ({id} : Multiset ConnectionId) + _ = _
      rw [← Multiset.coe_erase, Multiset.singleton_add]
      exact Multiset.cons_erase hg.2
    · cases hs
  | run i ok =>
    obtain ⟨c, hc, hs⟩ := Option.bind_eq_some_iff.1 hs
    obtain ⟨h, hh, hs⟩ := Option.bind_eq_some_iff.1 hs
    obtain ⟨⟨pc', s₁⟩, he, rfl⟩ := Option.map_eq_some_iff.1 hs
    exact hI.exec hc hh hup he

theorem inv_start (hle : cfg.initialSize ≤ cfg.maxSize) : Inv cfg (start cfg) := by
  have hp := ConnectionPool.inv_initializePool hle
  have ht : (ConnectionPool.new cfg.initialSize cfg.maxSize).initializePool.stats.totalConnections =
      (ConnectionPool.new cfg.initialSize cfg.maxSize).initializePool.activeConnections.entries.length :=
    (ConnectionPool.Inv.law (s := ⟨_, []⟩) hp).total
  have hc := hp.consistent
  have htokens : (start cfg).tokens =
      ((ConnectionPool.new cfg.initialSize cfg.maxSize).initializePool.availableConnections : Multiset ConnectionId) := by
    simp [start, State.tokens, State.sum]
  constructor
  · rw [htokens]
    exact Multiset.coe_nodup.2 hc.queue_nodup
  · intro id hid
    rw [htokens] at hid
    exact ((hc.mem_queue id).1 hid).mem
  · exact fun id hid => hid
  · exact AList.keys_nodup _
  · exact fun id hid => ⟨_, List.mem_singleton_self _, hc.fresh id hid⟩
  · intro h hh
    rw [List.mem_singleton.1 hh]
    exact hp.factors
  · show (_ : ℤ) + ((0 : ℕ) : ℤ) = _ + ((0 : ℕ) : ℤ)
    simp only [start]
    omega
  · exact fun hpos => absurd hpos (Nat.lt_irrefl 0)
  · exact ht.symm.trans_le hp.le_maxSize

/-- Any number of clones and any interleaving: as long as every creation is up to date, the law holds throughout. -/
theorem law_of_upToDate {ls : List Label} (hle : cfg.initialSize ≤ cfg.maxSize)
    (hup : StepSystem.Meets (step cfg) (UpToDate cfg) (start cfg) ls) :
    StepSystem.Always (step cfg) (Law cfg) (start cfg) ls :=
  fun ms t hms ht => Inv.law <| StepSystem.always_of_meets (fun _ _ _ hs hG hI => inv_step hs hG hI) hup
    (inv_start hle) ms t hms ht

/-- A pool of one, expanded through its clone alone and shrunk again. -/
theorem law_through_clone :
    StepSystem.Always (step ⟨1, 4, true⟩) (Law ⟨1, 4, true⟩) (start ⟨1, 4, true⟩)
      ([.clone 0, .getConnection 0] ++ List.replicate 4 (.run 0 true) ++ [.smartExpand 1] ++
        List.replicate 7 (.run 1 true) ++ [.returnConnection 0 0] ++ List.replicate 4 (.run 2 true) ++
        [.tryShrink 1] ++ List.replicate 8 (.run 3 true)) :=
  law_of_upToDate (by decide) (by decide +kernel)

/-- The original and its clone both expand a pool in which every connection is in use, and create connections
with the same id; two callers then hold it. -/
theorem clone_reissues :
    let ls : List Label := [.clone 0, .getConnection 0] ++ List.replicate 4 (.run 0 true) ++
      [.smartExpand 0] ++ List.replicate 7 (.run 1 true) ++ [.getConnection 0] ++ List.replicate 4 (.run 2 true) ++
      [.smartExpand 1] ++ List.replicate 11 (.run 3 true) ++ [.getConnection 0] ++ List.replicate 4 (.run 4 true)
    ∃ s, StepSystem.run (step ⟨1, 4, true⟩) (start ⟨1, 4, true⟩) ls = some s ∧ s.held = [1, 1, 0] ∧
      ¬ Law ⟨1, 4, true⟩ s := by
  intro ls
  have hheld : (StepSystem.run (step ⟨1, 4, true⟩) (start ⟨1, 4, true⟩) ls).map State.held = some [1, 1, 0] := by
    decide +kernel
  obtain ⟨s, hr, hs⟩ := Option.map_eq_some_iff.1 hheld
  refine ⟨s, hr, hs, fun h => ?_⟩
  have hnd := h.held
  rw [hs] at hnd
  exact absurd hnd (by decide)

end PoolClones

end Msgtrans
