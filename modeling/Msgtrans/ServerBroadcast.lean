import Mathlib.Data.Prod.Lex
import Msgtrans.LockFreeWalk
import Msgtrans.Event

/-!
# Sending to all sessions (`TransportServer::broadcast`)

`broadcast` walks over the keys of `transports`, then looks up each session again and sends it the packet. Sessions come and go
during the walk and during the sends. Whatever becomes of the single sends, the answer is `Ok`.

`reaches_of_run`: it comes to its end, whatever others do to the table, and who is in the table throughout has then been
sent the packet once, and nobody twice; a failure is nobody else's.
-/

namespace Msgtrans

namespace ServerBroadcast

open LockFreeHashMap

/-- A call of `Transport::send` with a clone of the packet, and what it returned. -/
structure Sent (T : Type) where
  sessionId : SessionId
  transport : T
  result : Except TransportError Unit

def Sent.failed {T : Type} (e : Sent T) : Bool :=
  match e.result with
  | .ok _ => false
  | .error _ => true

inductive Pc (T : Type) where
  /-- in `keys`, with these shards loaded -/
  | collect (loaded : List (Map SessionId T))
  | each (sessionIds : List SessionId)
  | send (sessionId : SessionId) (transport : T) (sessionIds : List SessionId)
  | done (result : Except TransportError Unit)

structure Call (T : Type) where
  pc : Pc T
  sent : List (Sent T)
  successCount : ℕ
  errorCount : ℕ

inductive Act where
  | load
  | get
  | returned (result : Except TransportError Unit)

variable {T : Type} {capacity : ℕ}

def start : Call T := ⟨.collect [], [], 0, 0⟩

/-- `get`: one load of the key's shard. -/
def get (hash : SessionId → UInt64) (s : State SessionId T capacity) (sessionId : SessionId) : Option T :=
  (s.contents (shardIndex hash capacity sessionId)).lookup sessionId

def act (hash : SessionId → UInt64) (s : State SessionId T capacity) (b : Call T) : Act → Option (Call T)
  | .load =>
    match b.pc with
    | .collect loaded =>
      match loadShard s loaded with
      | some loaded => some { b with pc := .collect loaded }
      | none => some { b with pc := .each (keys (shardsOf capacity loaded)) }
    | _ => none
  | .get =>
    match b.pc with
    | .each [] => some { b with pc := .done (.ok ()) }
    | .each (sessionId :: ids) =>
      match get hash s sessionId with
      | some transport => some { b with pc := .send sessionId transport ids }
      | none => some { b with pc := .each ids }
    | _ => none
  | .returned result =>
    match b.pc with
    | .send sessionId transport ids =>
      let e : Sent T := ⟨sessionId, transport, result⟩
      some ⟨.each ids, b.sent ++ [e], b.successCount + (!e.failed).toNat, b.errorCount + e.failed.toNat⟩
    | _ => none

def step (hash : SessionId → UInt64) (capacity : ℕ) : State SessionId T capacity × Call T →
    Observer.Label (CopyOnWrite.Label (Op SessionId T)) Act → Option (State SessionId T capacity × Call T) :=
  Observer.step (LockFreeHashMap.step hash capacity) (act hash)

/-- What the broadcast has done when it returns. -/
structure Reaches (during : Moments SessionId T capacity) (b : Call T) : Prop where
  once : (b.sent.map (·.sessionId)).Nodup
  reached : ∀ id, (∀ t, during t → id ∈ plain t) → ∃ e ∈ b.sent, e.sessionId = id
  /-- the packet went to the session's own transport -/
  current : ∀ e ∈ b.sent, ∃ t, during t ∧ (plain t).lookup e.sessionId = some e.transport
  counts : b.successCount = b.sent.countP (!·.failed) ∧ b.errorCount = b.sent.countP (·.failed)

/-! ### What a step can do -/

section

variable {hash : SessionId → UInt64} {s : State SessionId T capacity} {b b' : Call T} {a : Act}

inductive Acts (hash : SessionId → UInt64) (s : State SessionId T capacity) (b b' : Call T) : Prop where
  | load (loaded loaded' : List (Map SessionId T)) (hpc : b.pc = .collect loaded) (hload : loadShard s loaded = some loaded')
      (heq : b' = { b with pc := .collect loaded' })
  | collected (loaded : List (Map SessionId T)) (hpc : b.pc = .collect loaded) (hload : loadShard s loaded = none)
      (heq : b' = { b with pc := .each (keys (shardsOf capacity loaded)) })
  | finish (hpc : b.pc = .each []) (heq : b' = { b with pc := .done (.ok ()) })
  | found (id : SessionId) (transport : T) (ids : List SessionId) (hpc : b.pc = .each (id :: ids))
      (hget : get hash s id = some transport) (heq : b' = { b with pc := .send id transport ids })
  | gone (id : SessionId) (ids : List SessionId) (hpc : b.pc = .each (id :: ids)) (hget : get hash s id = none)
      (heq : b' = { b with pc := .each ids })
  | sent (e : Sent T) (ids : List SessionId) (hpc : b.pc = .send e.sessionId e.transport ids)
      (heq : b' = ⟨.each ids, b.sent ++ [e], b.successCount + (!e.failed).toNat, b.errorCount + e.failed.toNat⟩)

theorem acts_of_act (h : act hash s b a = some b') : Acts hash s b b' := by
  unfold act at h
  split at h
  · split at h
    · next loaded hpc =>
      split at h
      · next loaded' hload => exact .load loaded loaded' hpc hload (Option.some.inj h).symm
      · next hload => exact .collected loaded hpc hload (Option.some.inj h).symm
    · cases h
  · split at h
    · next hpc => exact .finish hpc (Option.some.inj h).symm
    · next id ids hpc =>
      split at h
      · next transport hget => exact .found id transport ids hpc hget (Option.some.inj h).symm
      · next hget => exact .gone id ids hpc hget (Option.some.inj h).symm
    · cases h
  · next result =>
    split at h
    · next id transport ids hpc => exact .sent ⟨id, transport, result⟩ ids hpc (Option.some.inj h).symm
    · cases h

/-- Nobody else can hold the broadcast up: until it is done it has a step in every state of the table. -/
theorem done_or_act (hash : SessionId → UInt64) (s : State SessionId T capacity) (b : Call T) :
    (∃ result, b.pc = .done result) ∨ ∃ a b', act hash s b a = some b' := by
  rcases hpc : b.pc with loaded | ids | ⟨id, transport, ids⟩ | result
  · refine .inr ⟨.load, ?_⟩
    rcases hload : loadShard s loaded with _ | loaded' <;> simp [act, hpc, hload]
  · refine .inr ⟨.get, ?_⟩
    rcases ids with _ | ⟨id, ids⟩
    · simp [act, hpc]
    · rcases hget : get hash s id with _ | transport <;> simp [act, hpc, hget]
  · exact .inr ⟨.returned (.ok ()), by simp [act, hpc]⟩
  · exact .inl ⟨result, rfl⟩

/-- What is left to do: the shards to load, then two steps for each session. -/
def work (capacity : ℕ) (b : Call T) : ℕ ×ₗ ℕ :=
  match b.pc with
  | .collect loaded => toLex (1, shardCount capacity - loaded.length)
  | .each ids => toLex (0, 2 * ids.length + 1)
  | .send _ _ ids => toLex (0, 2 * ids.length + 2)
  | .done _ => toLex (0, 0)

theorem work_decreases (h : act hash s b a = some b') : work capacity b' < work capacity b := by
  obtain ⟨loaded, loaded', hpc, hload, rfl⟩ | ⟨loaded, hpc, -, rfl⟩ | ⟨hpc, rfl⟩ | ⟨id, transport, ids, hpc, -, rfl⟩ |
    ⟨id, ids, hpc, -, rfl⟩ | ⟨e, ids, hpc, rfl⟩ := acts_of_act h
  · rw [loadShard] at hload
    split at hload
    · next hlt =>
      cases hload
      simp only [work, hpc, List.length_append, List.length_singleton]
      exact Prod.Lex.toLex_lt_toLex.2 (.inr ⟨rfl, by show _ - _ < _ - _; omega⟩)
    · cases hload
  · simp only [work, hpc]
    exact Prod.Lex.toLex_lt_toLex.2 (.inl Nat.zero_lt_one)
  all_goals
    simp only [work, hpc, List.length_cons, List.length_nil]
    exact Prod.Lex.toLex_lt_toLex.2 (.inr ⟨rfl, by show _ < _; omega⟩)

end

/-! ### The invariant -/

section

variable {hash : SessionId → UInt64} {D D' : Moments SessionId T capacity} {s : State SessionId T capacity} {b b' : Call T}
  {todo : List SessionId}

/-- The ids of a walk have been dealt with up to `todo`. -/
structure Served (hash : SessionId → UInt64) (D : Moments SessionId T capacity) (b : Call T) (todo : List SessionId) : Prop where
  walked : ∃ shards handled, Walked hash capacity D shards ∧ keys shards = handled ++ todo ∧
    (b.sent.map (·.sessionId)).Sublist handled ∧
    ∀ id ∈ handled, (∃ e ∈ b.sent, e.sessionId = id) ∨ ∃ t, D t ∧ id ∉ plain t
  current : ∀ e ∈ b.sent, ∃ t, D t ∧ (plain t).lookup e.sessionId = some e.transport

def AtPc (hash : SessionId → UInt64) (D : Moments SessionId T capacity) (b : Call T) : Prop :=
  match b.pc with
  | .collect loaded => Loads hash capacity D loaded ∧ b.sent = []
  | .each ids => Served hash D b ids
  | .send id transport ids => Served hash D b (id :: ids) ∧ ∃ t, D t ∧ (plain t).lookup id = some transport
  | .done result => Served hash D b [] ∧ result = .ok ()

structure Inv (hash : SessionId → UInt64) (D : Moments SessionId T capacity) (b : Call T) : Prop where
  atPc : AtPc hash D b
  counts : b.successCount = b.sent.countP (!·.failed) ∧ b.errorCount = b.sent.countP (·.failed)

theorem walked_mono {shards : Fin (shardCount capacity) → Map SessionId T} (hD : ∀ t, D t → D' t)
    (h : Walked hash capacity D shards) : Walked hash capacity D' shards := by
  obtain ⟨m, hm, hshard⟩ := h.lists
  refine ⟨⟨m, hm, fun i => ?_⟩, fun key hstay => h.kept key fun t ht => hstay t (hD t ht), fun key hkey => ?_,
    fun stay hstay => h.atLeast stay fun key hkey t ht => hstay key hkey t (hD t ht),
    fun ever hever => h.atMost ever fun t ht => hever t (hD t ht)⟩
  · obtain ⟨t, ht, hlookup⟩ := hshard i
    exact ⟨t, hD t ht, hlookup⟩
  · obtain ⟨t, ht, hmem⟩ := h.held key hkey
    exact ⟨t, hD t ht, hmem⟩

theorem Served.mono (hD : ∀ t, D t → D' t) (h : Served hash D b todo) : Served hash D' b todo := by
  obtain ⟨shards, handled, hwalked, hkeys, hsub, hhandled⟩ := h.walked
  refine ⟨⟨shards, handled, walked_mono hD hwalked, hkeys, hsub, fun id hid => ?_⟩, fun e he => ?_⟩
  · obtain hsent | ⟨t, ht, hgone⟩ := hhandled id hid
    · exact .inl hsent
    · exact .inr ⟨t, hD t ht, hgone⟩
  · obtain ⟨t, ht, hlookup⟩ := h.current e he
    exact ⟨t, hD t ht, hlookup⟩

theorem Inv.mono (hD : ∀ t, D t → D' t) (h : Inv hash D b) : Inv hash D' b := by
  refine ⟨?_, h.counts⟩
  have hpc := h.atPc
  unfold AtPc at hpc ⊢
  split
  · next heq =>
    rw [heq] at hpc
    exact ⟨hpc.1.mono hD, hpc.2⟩
  · next heq =>
    rw [heq] at hpc
    exact hpc.mono hD
  · next heq =>
    rw [heq] at hpc
    obtain ⟨hserved, t, ht, hlookup⟩ := hpc
    exact ⟨hserved.mono hD, t, hD t ht, hlookup⟩
  · next heq =>
    rw [heq] at hpc
    exact ⟨hpc.1.mono hD, hpc.2⟩

theorem get_eq (hreach : Reached hash capacity s) (id : SessionId) : get hash s id = (plain s).lookup id :=
  hreach.represents.lookup id

/-- The session is not there any more: nothing is sent. -/
theorem Served.skip {id : SessionId} (hD : D s) (hgone : id ∉ plain s) (h : Served hash D b (id :: todo)) :
    Served hash D b todo := by
  obtain ⟨shards, handled, hwalked, hkeys, hsub, hhandled⟩ := h.walked
  refine ⟨⟨shards, handled ++ [id], hwalked, by rw [hkeys, List.append_assoc, List.singleton_append],
    hsub.trans (List.sublist_append_left ..), fun id' hid => ?_⟩, h.current⟩
  obtain hid | hid := List.mem_append.1 hid
  · exact hhandled id' hid
  · rw [List.mem_singleton.1 hid]
    exact .inr ⟨s, hD, hgone⟩

theorem Served.send {e : Sent T} (hcurrent : ∃ t, D t ∧ (plain t).lookup e.sessionId = some e.transport)
    (h : Served hash D b (e.sessionId :: todo)) (hsent : b'.sent = b.sent ++ [e]) : Served hash D b' todo := by
  obtain ⟨shards, handled, hwalked, hkeys, hsub, hhandled⟩ := h.walked
  refine ⟨⟨shards, handled ++ [e.sessionId], hwalked, by rw [hkeys, List.append_assoc, List.singleton_append], ?_,
    fun id hid => ?_⟩, fun e' he' => ?_⟩
  · rw [hsent, List.map_append]
    exact hsub.append (List.Sublist.refl _)
  · rw [hsent]
    obtain hid | hid := List.mem_append.1 hid
    · exact (hhandled id hid).imp_left fun ⟨e', he', heq⟩ => ⟨e', List.mem_append_left _ he', heq⟩
    · exact .inl ⟨e, List.mem_append_right _ (List.mem_singleton_self e), (List.mem_singleton.1 hid).symm⟩
  · rw [hsent] at he'
    obtain he' | he' := List.mem_append.1 he'
    · exact h.current e' he'
    · rw [List.mem_singleton.1 he']
      exact hcurrent

theorem counts_send {e : Sent T} (h : b.successCount = b.sent.countP (!·.failed) ∧ b.errorCount = b.sent.countP (·.failed)) :
    b.successCount + (!e.failed).toNat = (b.sent ++ [e]).countP (!·.failed) ∧
      b.errorCount + e.failed.toNat = (b.sent ++ [e]).countP (·.failed) := by
  rw [List.countP_append, List.countP_append, ← h.1, ← h.2, List.countP_singleton, List.countP_singleton]
  rcases e.failed <;> exact ⟨rfl, rfl⟩

theorem Inv.act {a : Act} (hreach : Reached hash capacity s) (hD : D s) (hs : act hash s b a = some b') (h : Inv hash D b) :
    Inv hash D b' := by
  have hpc' := h.atPc
  obtain ⟨loaded, loaded', hpc, hload, rfl⟩ | ⟨loaded, hpc, hload, rfl⟩ | ⟨hpc, rfl⟩ | ⟨id, transport, ids, hpc, hget, rfl⟩ |
    ⟨id, ids, hpc, hget, rfl⟩ | ⟨e, ids, hpc, rfl⟩ := acts_of_act hs
  · rw [AtPc, hpc] at hpc'
    exact ⟨⟨hpc'.1.load hreach hD hload, hpc'.2⟩, h.counts⟩
  · rw [AtPc, hpc] at hpc'
    refine ⟨⟨⟨_, [], hpc'.1.walked hload, rfl, ?_, fun id hid => absurd hid List.not_mem_nil⟩, fun e he => ?_⟩, h.counts⟩
    · rw [hpc'.2]
      exact List.Sublist.refl []
    · rw [hpc'.2] at he
      exact absurd he List.not_mem_nil
  · rw [AtPc, hpc] at hpc'
    exact ⟨⟨⟨hpc'.walked, hpc'.current⟩, rfl⟩, h.counts⟩
  · rw [AtPc, hpc] at hpc'
    rw [get_eq hreach] at hget
    exact ⟨⟨⟨hpc'.walked, hpc'.current⟩, s, hD, hget⟩, h.counts⟩
  · rw [AtPc, hpc] at hpc'
    rw [get_eq hreach, AList.lookup_eq_none] at hget
    have hskip := hpc'.skip hD hget
    exact ⟨⟨hskip.walked, hskip.current⟩, h.counts⟩
  · rw [AtPc, hpc] at hpc'
    exact ⟨hpc'.1.send hpc'.2 rfl, counts_send h.counts⟩

theorem inv_start (hash : SessionId → UInt64) (D : Moments SessionId T capacity) : Inv hash D start :=
  ⟨⟨.nil, rfl⟩, rfl, rfl⟩

theorem Served.reaches (h : Served hash D b [])
    (hcounts : b.successCount = b.sent.countP (!·.failed) ∧ b.errorCount = b.sent.countP (·.failed)) : Reaches D b := by
  obtain ⟨shards, handled, hwalked, hkeys, hsub, hhandled⟩ := h.walked
  rw [List.append_nil] at hkeys
  obtain ⟨m, hm, -⟩ := hwalked.lists
  refine ⟨?_, fun id hstay => ?_, h.current, hcounts⟩
  · rw [← hkeys] at hsub
    exact hm.nodup.sublist hsub
  · have hid : id ∈ handled := hkeys ▸ hwalked.kept id hstay
    obtain hsent | ⟨t, ht, hgone⟩ := hhandled id hid
    · exact hsent
    · exact absurd (hstay t ht) hgone

end

/-- Where a broadcast stands that has come to `b`, with the table in the state `s`. -/
structure Proceeds (hash : SessionId → UInt64) (during : Moments SessionId T capacity) (s : State SessionId T capacity)
    (b : Call T) : Prop where
  /-- it has returned, or it has a step to take, whatever the others have done -/
  goes_on : (∃ result, b.pc = .done result) ∨ ∃ a b', act hash s b a = some b'
  /-- and a step leaves less to do -/
  nears : ∀ a b', act hash s b a = some b' → work capacity b' < work capacity b
  returned : ∀ result, b.pc = .done result → result = .ok () ∧ Reaches during b

/-- A broadcast begun in any reachable state of the table, with the steps of all other tasks in between. -/
theorem reaches_of_run {hash : SessionId → UInt64} {s t : State SessionId T capacity} {b : Call T}
    {ls : List (Observer.Label (CopyOnWrite.Label (Op SessionId T)) Act)} (hreach : Reached hash capacity s)
    (hr : StepSystem.run (step hash capacity) (s, start) ls = some (t, b)) :
    Proceeds hash (Observer.During (step hash capacity) (s, start) ls) t b := by
  have hinv : Inv hash (Observer.During (step hash capacity) (s, start) ls) b :=
    Observer.of_run (I := Inv hash) (fun D D' p hD h => h.mono hD) (fun s l s' => Reached.step)
      (fun D s p a p' hW hD hs h => h.act hW hD hs) hr hreach (inv_start hash _)
  refine ⟨done_or_act hash t b, fun _ _ => work_decreases, fun result hdone => ?_⟩
  have hpc := hinv.atPc
  rw [AtPc, hdone] at hpc
  exact ⟨hpc.2, hpc.1.reaches hinv.counts⟩

/-- Two sessions; the first send fails, and the other session leaves before its turn. -/
theorem reaches_of_run_two :
    let insert (k : ℕ) (id : SessionId) (a : ℕ) : List (CopyOnWrite.Label (Op SessionId String)) :=
      [.invoke (.insert id "t"), .load k, .copy k a, .exchange k false]
    let ls : List (Observer.Label (CopyOnWrite.Label (Op SessionId String)) Act) := [.task .load, .task .load, .task .get,
      .task (.returned (.error (.connection "Not connected" false))), .world (.invoke (.remove 5)), .world (.load 2),
      .world (.copy 2 12), .world (.exchange 2 false), .task .get, .task .get]
    ∃ s t b, StepSystem.run (LockFreeHashMap.step id 1) (withCapacity SessionId String 1) (insert 0 5 10 ++ insert 1 6 11) =
        some s ∧ StepSystem.run (step id 1) (s, start) ls = some (t, b) ∧ b.sent.map (·.sessionId) = [6] ∧
      Reaches (Observer.During (step id 1) (s, start) ls) b := by
  intro insert ls
  have hrun : ((StepSystem.run (LockFreeHashMap.step id 1) (withCapacity SessionId String 1)
      (insert 0 5 10 ++ insert 1 6 11)).bind fun s => (StepSystem.run (step id 1) (s, start) ls).map fun x =>
        (x.2.sent.map (·.sessionId), match x.2.pc with | .done _ => true | _ => false)) = some ([6], true) := by
    rfl
  obtain ⟨s, hs, hrun⟩ := Option.bind_eq_some_iff.1 hrun
  obtain ⟨⟨t, b⟩, hr, heq⟩ := Option.map_eq_some_iff.1 hrun
  obtain ⟨hsent, hdone⟩ := Prod.mk.inj heq
  refine ⟨s, t, b, hs, hr, hsent, ?_⟩
  split at hdone
  · next result hpc => exact ((reaches_of_run ⟨_, hs⟩ hr).returned result hpc).2
  · cases hdone

end ServerBroadcast

end Msgtrans
