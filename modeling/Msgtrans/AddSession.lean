import Msgtrans.ConnectionState
import Msgtrans.LockFreeMap

/-!
# Adding a session under contention (`TransportServer::add_session`)

`add_session` enters a session into three lock-free tables and looks at none of the three results. An insertion gives up
after `maxRetries` failed exchanges. Between two attempts other threads may do anything to the entries of other
sessions; `insert_of_run`: that covers what a call of `insert` sees in any run of the map.

`everywhere_iff`: the session is in all three tables just when each insertion gets through.
-/

namespace Msgtrans

namespace AddSession

open LockFreeHashMap CopyOnWrite

variable {T S V : Type} {id : SessionId} {value : V} {m : Map SessionId V} {n retryCount : ℕ}

/-- Operations on entries of other sessions. -/
structure Others (V : Type) (id : SessionId) where
  ops : List (Op SessionId V)
  other : ∀ op ∈ ops, op.key ≠ id

def Others.apply (o : Others V id) (m : Map SessionId V) : Map SessionId V := (replay Op.apply m o.ops).2

/-- One attempt of an insertion: what others do before its exchange, and whether this succeeds. -/
structure Attempt (V : Type) (id : SessionId) where
  others : Others V id
  succeeds : Bool

/-- The attempts of an insertion, and what others do to the table from its end until `add_session` returns. -/
structure Contention (V : Type) (id : SessionId) where
  attempts : ℕ → Attempt V id
  after : Others V id

/-- The loop of `insert`, with the number of attempts left. -/
def insertLoop (id : SessionId) (value : V) (attempts : ℕ → Attempt V id) :
    ℕ → ℕ → Map SessionId V → Except TransportError (Option V) × Map SessionId V
  | 0, retryCount, m => (.error (.resource "lockfree_insert" retryCount maxRetries), m)
  | n + 1, retryCount, m =>
    let m := (attempts retryCount).others.apply m
    if (attempts retryCount).succeeds then (.ok (m.lookup id), m.insert id value)
    else insertLoop id value attempts n (retryCount + 1) m

def insert (id : SessionId) (value : V) (attempts : ℕ → Attempt V id) (m : Map SessionId V) :
    Except TransportError (Option V) × Map SessionId V :=
  insertLoop id value attempts maxRetries 0 m

structure Tables (T S : Type) where
  transports : Map SessionId T
  stats : Map SessionId S
  states : Map SessionId ConnectionStateManager.ConnectionState

structure Contentions (T S : Type) (id : SessionId) where
  transports : Contention T id
  stats : Contention S id
  states : Contention ConnectionStateManager.ConnectionState id

/-- `add_session` for a connection whose session id is `id`: its answer, and the tables when it gives it. -/
def addSession (id : SessionId) (transport : T) (stats : S) (c : Contentions T S id) (tables : Tables T S) :
    SessionId × Tables T S :=
  let (_, transports) := insert id transport c.transports.attempts tables.transports
  let (_, stats) := insert id stats c.stats.attempts tables.stats
  let (_, states) := insert id .connected c.states.attempts tables.states
  (id, ⟨c.transports.after.apply transports, c.stats.after.apply stats, c.states.after.apply states⟩)

/-- The session that was returned is in all three tables, and `Connected`. -/
def Everywhere (r : SessionId × Tables T S) : Prop :=
  r.1 ∈ r.2.transports ∧ r.1 ∈ r.2.stats ∧ r.2.states.lookup r.1 = some .connected

/-- One of the attempts before the limit succeeds. -/
def GetsThrough (attempts : ℕ → Attempt V id) : Prop := ∃ k < maxRetries, (attempts k).succeeds = true

instance (attempts : ℕ → Attempt V id) : Decidable (GetsThrough attempts) :=
  inferInstanceAs (Decidable (∃ k < maxRetries, (attempts k).succeeds = true))

/-! ### One table -/

theorem Others.lookup (o : Others V id) : (o.apply m).lookup id = m.lookup id := by
  obtain ⟨ops, other⟩ := o
  simp only [Others.apply]
  induction ops generalizing m with
  | nil => rfl
  | cons op ops ih =>
    rw [replay, ih fun op h => other op (List.mem_cons_of_mem _ h)]
    have hne : id ≠ op.key := Ne.symm (other op List.mem_cons_self)
    cases op with
    | get key => rfl
    | insert key value => exact AList.lookup_insert_ne hne
    | remove key => exact AList.lookup_erase_ne hne

theorem exists_attempt_succ (attempts : ℕ → Attempt V id) :
    (∃ k < n + 1, (attempts (retryCount + k)).succeeds = true) ↔
      (attempts retryCount).succeeds = true ∨ ∃ k < n, (attempts (retryCount + 1 + k)).succeeds = true := by
  simp only [Nat.exists_lt_succ_left, Nat.add_zero, Nat.add_right_comm, Nat.add_assoc]

theorem lookup_insertLoop (attempts : ℕ → Attempt V id) : (insertLoop id value attempts n retryCount m).2.lookup id =
    if ∃ k < n, (attempts (retryCount + k)).succeeds = true then some value else m.lookup id := by
  induction n generalizing retryCount m with
  | zero => simp [insertLoop]
  | succ n ih =>
    unfold insertLoop
    split
    · next h =>
      rw [if_pos ((exists_attempt_succ attempts).2 (.inl h))]
      exact AList.lookup_insert _
    · next h =>
      rw [ih, Others.lookup]
      exact if_congr ((exists_attempt_succ attempts).trans (or_iff_right h)).symm rfl rfl

theorem lookup_insert (attempts : ℕ → Attempt V id) : (insert id value attempts m).2.lookup id =
    if GetsThrough attempts then some value else m.lookup id := by
  unfold insert
  rw [lookup_insertLoop]
  exact if_congr (by simp [GetsThrough]) rfl rfl

theorem insertLoop_error_iff (attempts : ℕ → Attempt V id) : (insertLoop id value attempts n retryCount m).1 =
    .error (.resource "lockfree_insert" (retryCount + n) maxRetries) ↔
      ¬ ∃ k < n, (attempts (retryCount + k)).succeeds = true := by
  induction n generalizing retryCount m with
  | zero => simp [insertLoop]
  | succ n ih =>
    rw [exists_attempt_succ]
    unfold insertLoop
    split
    · next h => simp [h]
    · next h =>
      rw [← Nat.add_assoc, Nat.add_right_comm, ih, or_iff_right h]

/-- An insertion that does not get through says so. -/
theorem insert_error_iff (attempts : ℕ → Attempt V id) :
    (insert id value attempts m).1 = .error (.resource "lockfree_insert" maxRetries maxRetries) ↔ ¬ GetsThrough attempts := by
  have h : (insertLoop id value attempts maxRetries 0 m).1 = .error (.resource "lockfree_insert" (0 + maxRetries) maxRetries) ↔
      ¬ ∃ k < maxRetries, (attempts (0 + k)).succeeds = true := insertLoop_error_iff attempts
  simp only [Nat.zero_add] at h
  exact h

/-! ### The insertions of a run -/

def Others.none : Others V id := ⟨[], fun _ h => nomatch h⟩

theorem insertLoop_of_failures :
    (insertLoop id value (fun _ => ⟨.none, false⟩) n retryCount m).2 = m := by
  induction n generalizing retryCount with
  | zero => rfl
  | succ n ih => exact ih

/-- The operations on other sessions, by the entries of a part of the history. -/
def othersOf (entries : List (Entry (Op SessionId V) (Option V))) (h : ∀ e ∈ entries, e.op.key ≠ id) : Others V id where
  ops := entries.map (·.op)
  other op hop := by
    obtain ⟨e, he, rfl⟩ := List.mem_map.1 hop
    exact h e he

/-- Whatever the interleaving: what the calls of a run have done when call `k`, the only one on its session, has finished
is what its insertion and the operations on other sessions do. -/
theorem insert_of_run {hash : SessionId → UInt64} {capacity : ℕ} {s : State SessionId V capacity}
    {ls : List (Label (Op SessionId V))} {k : ℕ} {c : Call (Op SessionId V) (Option V)}
    (hr : StepSystem.run (step hash capacity) (withCapacity SessionId V capacity) ls = some s)
    (hc : s.calls[k]? = some c) (hop : c.op = .insert id value) (hpc : c.pc = .failed ∨ ∃ old, c.pc = .done old)
    (hother : ∀ e ∈ s.history, e.call ≠ k → e.op.key ≠ id) :
    ∃ d : Contention V id, (GetsThrough d.attempts ↔ ∃ old, c.pc = .done old) ∧
      d.after.apply (insert id value d.attempts ∅).2 = plain s := by
  have hlin := linearizable hr
  rcases hpc with hpc | ⟨old, hpc⟩
  · refine ⟨⟨fun _ => ⟨.none, false⟩, othersOf s.history fun e he => hother e he (hlin.err k c hc hpc e he)⟩, ?_, ?_⟩
    · simp [GetsThrough, hpc]
    · simp only [insert, insertLoop_of_failures]
      rfl
  · -- the history is split at the entry of call `k`
    have hmem := hlin.ok k c old hc hpc
    obtain ⟨before, after, hsplit⟩ := List.append_of_mem hmem
    have honce := hlin.once
    rw [hsplit, List.map_append, List.map_cons, List.nodup_append, List.nodup_cons] at honce
    obtain ⟨-, ⟨hafter, -⟩, hbefore⟩ := honce
    have hb : ∀ e ∈ before, e.op.key ≠ id := fun e he => hother e (by simp [hsplit, he]) fun hk =>
      hbefore e.call (List.mem_map_of_mem he) k List.mem_cons_self hk
    have ha : ∀ e ∈ after, e.op.key ≠ id := fun e he => hother e (by simp [hsplit, he]) fun hk =>
      hafter (List.mem_map.2 ⟨e, he, hk⟩)
    refine ⟨⟨fun _ => ⟨othersOf before hb, true⟩, othersOf after ha⟩, ?_, ?_⟩
    · exact iff_of_true ⟨0, by decide, rfl⟩ ⟨old, hpc⟩
    · rw [plain, hsplit, List.map_append, List.map_cons, replay_append_snd, replay, hop]
      rfl

/-! ### All three tables -/

/-- Whatever other threads do meanwhile: the session that `add_session` returns is in all three tables just when each
insertion gets through, or finds it there. -/
theorem everywhere_iff (id : SessionId) (transport : T) (stats : S) (c : Contentions T S id) (tables : Tables T S) :
    Everywhere (addSession id transport stats c tables) ↔
      (GetsThrough c.transports.attempts ∨ id ∈ tables.transports) ∧ (GetsThrough c.stats.attempts ∨ id ∈ tables.stats) ∧
        (GetsThrough c.states.attempts ∨ tables.states.lookup id = some .connected) := by
  have hmem {V : Type} (value : V) (c : Contention V id) (m : Map SessionId V) :
      id ∈ c.after.apply (insert id value c.attempts m).2 ↔ GetsThrough c.attempts ∨ id ∈ m := by
    rw [← AList.lookup_isSome, Others.lookup, lookup_insert, ← AList.lookup_isSome]
    split <;> simp [*]
  have hstate : (c.states.after.apply (insert id .connected c.states.attempts tables.states).2).lookup id =
      some .connected ↔ GetsThrough c.states.attempts ∨ tables.states.lookup id = some .connected := by
    rw [Others.lookup, lookup_insert]
    split <;> simp [*]
  exact and_congr (hmem transport c.transports tables.transports) (and_congr (hmem stats c.stats tables.stats) hstate)

def empty : Tables Unit Unit := ⟨∅, ∅, ∅⟩

def alone : Contention V id := ⟨fun _ => ⟨.none, true⟩, .none⟩

/-- The exchanges on the table of the statistics keep failing: the session is returned all the same. -/
theorem stats_missing :
    let c : Contentions Unit Unit 7 := ⟨alone, ⟨fun _ => ⟨.none, false⟩, .none⟩, alone⟩
    (insert 7 () c.stats.attempts empty.stats).1 = .error (.resource "lockfree_insert" 100 100) ∧
      (addSession 7 () () c empty).1 = 7 ∧ 7 ∈ (addSession 7 () () c empty).2.transports ∧
      ¬ Everywhere (addSession 7 () () c empty) := by
  intro c
  refine ⟨by rfl, rfl, by decide, fun h => ?_⟩
  have hstats : (addSession 7 () () c empty).2.stats.lookup 7 = none := by rfl
  have := AList.lookup_isSome.2 h.2.1
  rw [show (addSession 7 () () c empty).1 = 7 from rfl, hstats] at this
  cases this

end AddSession

end Msgtrans
