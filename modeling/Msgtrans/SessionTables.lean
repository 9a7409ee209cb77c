import Msgtrans.Lib.Indexed
import Msgtrans.Lib.Run
import Msgtrans.ServerSession

/-!
# The three tables of the server (`transport/transport_server.rs`)

`add_session` enters a session into `transports`, `stats` and `states`, `remove_session` takes it out of them in the same order,
and any number of calls on any sessions run at once. A step is one table operation, or one lock of the state cell of a session;
what touches neither is left out. A session whose insertions and removals keep `Apart` is, once nothing is in
progress, in all three tables or in none: `keysAgree_of_apart`.
-/

namespace Msgtrans

namespace SessionTables

open ServerSession (Table CloseState ListenerPc)

inductive Kind where
  | add
  | removeSession
  | close (forced : Bool)
  | send
  /-- `handle_transport_event` of a `ConnectionClosed` -/
  | peerClosed
deriving DecidableEq

inductive Pc where
  /-- `add_session` -/
  | insert (table : Table)
  | spawn
  /-- `close_session` and `force_close_session` -/
  | lookup
  | lock
  | disconnect
  | markLookup
  | markLock
  /-- `send_to_session` -/
  | get
  | sending
  /-- `remove_session` -/
  | remove (table : Table)
  | done
deriving DecidableEq

structure Call where
  kind : Kind
  sessionId : SessionId
  pc : Pc

structure State where
  tables : Table → SessionId → Bool
  /-- the `Arc<Mutex<ConnectionState>>` a session gets -/
  cells : SessionId → CloseState
  /-- the ids given to `add_session` so far -/
  added : List SessionId
  /-- the sessions whose event task runs -/
  listening : List SessionId
  calls : List Call

inductive Label where
  | call (kind : Kind) (sessionId : SessionId)
  /-- `dead`: the connection turns out to be closed, before or by the send -/
  | callStep (k : ℕ) (dead : Bool)

def start : State := ⟨fun _ _ => false, fun _ => .connected, [], [], []⟩

namespace State

def set (s : State) (table : Table) (id : SessionId) (present : Bool) : State :=
  { s with tables := fun t i => if t = table ∧ i = id then present else s.tables t i }

def setCell (s : State) (id : SessionId) (cell : CloseState) : State :=
  { s with cells := fun i => if i = id then cell else s.cells i }

def goto (s : State) (k : ℕ) (c : Call) (pc : Pc) : State := { s with calls := s.calls.set k { c with pc := pc } }

end State

def Kind.first : Kind → Pc
  | .add => .insert .transports
  | .removeSession => .remove .transports
  | .close _ => .lookup
  | .send => .get
  | .peerClosed => .remove .transports

def Call.step (s : State) (k : ℕ) (c : Call) (dead : Bool) : Option State :=
  match c.pc with
  | .insert table => some ((s.set table c.sessionId true).goto k c (table.next.elim .spawn .insert))
  | .spawn => some ({ s with listening := s.listening ++ [c.sessionId] }.goto k c .done)
  | .lookup => some (s.goto k c (if s.tables .states c.sessionId then .lock else .done))
  | .lock =>
    match s.cells c.sessionId with
    | .connected => some ((s.setCell c.sessionId .closing).goto k c .disconnect)
    | _ => some (s.goto k c .done)
  -- the session's `Transport`, if it is there, is looked up and disconnected
  | .disconnect => some (s.goto k c .markLookup)
  | .markLookup => some (s.goto k c (if s.tables .states c.sessionId then .markLock else .remove .transports))
  | .markLock => some ((s.setCell c.sessionId .closed).goto k c (.remove .transports))
  | .get => some (s.goto k c (if s.tables .transports c.sessionId then .sending else .done))
  | .sending => some (s.goto k c (if dead then .remove .transports else .done))
  | .remove table => some ((s.set table c.sessionId false).goto k c (table.next.elim .done .remove))
  | .done => none

/-- Session ids are given to one connection each, and a task handles the events of a session that was added. -/
def step (s : State) : Label → Option State
  | .call kind id =>
    if kind = .add ∧ id ∈ s.added ∨ kind = .peerClosed ∧ id ∉ s.listening then none
    else some { s with
      added := if kind = .add then s.added ++ [id] else s.added
      calls := s.calls ++ [⟨kind, id, kind.first⟩] }
  | .callStep k dead => s.calls[k]?.bind fun c => c.step s k dead

/-- Between the first and the last insertion of `add_session`. -/
def Call.Adding (c : Call) (id : SessionId) : Prop := c.sessionId = id ∧ (c.pc = .insert .stats ∨ c.pc = .insert .states)

/-- Between the first and the last removal of `remove_session`. -/
def Call.Removing (c : Call) (id : SessionId) : Prop := c.sessionId = id ∧ (c.pc = .remove .stats ∨ c.pc = .remove .states)

namespace State

/-- None of the calls is in progress. -/
def Quiet (s : State) : Prop := ∀ c ∈ s.calls, c.pc = .done

instance (s : State) : Decidable s.Quiet := inferInstanceAs (Decidable (∀ c ∈ s.calls, _))

def KeysAgree (s : State) : Prop := ∀ id t u, s.tables t id = s.tables u id

end State

/-- `add_session` does not begin its insertions while the entries of the session are being removed, and neither
`remove_session` nor the clean-up of `send_to_session` begins to remove them between the insertions. -/
def Apart (s : State) : Label → Prop
  | .call .. => True
  | .callStep k _ => ∀ c, s.calls[k]? = some c →
    (c.pc = .insert .transports → ∀ d ∈ s.calls, ¬ d.Removing c.sessionId) ∧
    (c.pc = .remove .transports → c.kind = .removeSession ∨ c.kind = .send → ∀ d ∈ s.calls, ¬ d.Adding c.sessionId)

instance (c : Call) (id : SessionId) : Decidable (c.Adding id) := inferInstanceAs (Decidable (_ ∧ _))

instance (c : Call) (id : SessionId) : Decidable (c.Removing id) := inferInstanceAs (Decidable (_ ∧ _))

instance (s : State) (l : Label) : Decidable (Apart s l) :=
  match l with
  | .call .. => isTrue trivial
  | .callStep k _ => inferInstanceAs (Decidable (∀ c, s.calls[k]? = some c → _))

/-! ### The life of one id -/

def NoInsert (s : State) (id : SessionId) : Prop := ∀ d ∈ s.calls, d.sessionId = id → ∀ t, d.pc ≠ .insert t

/-- `add_session` of the id has done all its insertions. -/
def Settled (s : State) (id : SessionId) : Prop := id ∈ s.added ∧ NoInsert s id

inductive Phase (id : SessionId) (s : State) : Prop where
  | fresh (hadded : id ∉ s.added) (hcalls : NoInsert s id) (htables : ∀ t, s.tables t id = false)
  | adding (j : ℕ) (c : Call) (t : Table) (hadded : id ∈ s.added) (hj : s.calls[j]? = some c) (hid : c.sessionId = id)
      (hpc : c.pc = .insert t) (hone : ∀ i d u, s.calls[i]? = some d → d.sessionId = id → d.pc = .insert u → i = j)
      (htables : ∀ u, s.tables u id = ListenerPc.inserted (.insert t) u)
      (hapart : t ≠ .transports → ∀ d ∈ s.calls, ¬ d.Removing id)
  | settled (h : Settled s id)
      (hpresent : s.tables .transports id = true → (∀ t, s.tables t id = true) ∧ ∀ d ∈ s.calls, ¬ d.Removing id)
      (habsent : s.tables .transports id = false → ∀ t, s.tables t id = true →
        ∃ d ∈ s.calls, d.sessionId = id ∧ (d.pc = .remove .stats ∨ t = .states ∧ d.pc = .remove .states))

/-- The calls that may act before their session is settled. -/
def Call.Early (c : Call) : Prop := (c.kind = .removeSession ∨ c.kind = .send) ∧ c.pc ≠ .spawn ∨ c.pc = .lookup ∨ c.pc = .done ∨
  ∃ t, c.pc = .insert t

structure Inv (id : SessionId) (s : State) : Prop where
  phase : Phase id s
  late : ∀ c ∈ s.calls, c.sessionId = id → c.Early ∨ Settled s id
  listening : id ∈ s.listening → Settled s id

/-- Not between two insertions or two removals, nor about to insert. -/
def Pc.plain : Pc → Bool
  | .insert _ => false
  | .remove .stats => false
  | .remove .states => false
  | _ => true

theorem Pc.ne_insert {pc : Pc} (h : pc.plain = true) (t : Table) : pc ≠ .insert t := by
  rintro rfl
  cases h

theorem Call.not_removing {id : SessionId} {c : Call} (h : c.pc.plain = true) : ¬ c.Removing id := by
  rintro ⟨-, hpc | hpc⟩ <;> rw [hpc] at h <;> cases h

section Inv

variable {id : SessionId} {s s' : State} {k : ℕ} {c : Call} {pc : Pc}

theorem inv_start (id : SessionId) : Inv id start :=
  ⟨.fresh List.not_mem_nil (fun _ hd => absurd hd List.not_mem_nil) fun _ => rfl, fun _ hc => absurd hc List.not_mem_nil,
    fun h => absurd h List.not_mem_nil⟩

/-- What an id's life depends on. -/
theorem Inv.congr (h : Inv id s) (htables : ∀ t, s'.tables t id = s.tables t id) (hadded : id ∈ s'.added ↔ id ∈ s.added)
    (hlistening : id ∈ s'.listening → id ∈ s.listening)
    (hcalls : ∀ (i : ℕ) (d : Call), d.sessionId = id → (s'.calls[i]? = some d ↔ s.calls[i]? = some d)) : Inv id s' := by
  have hmem : ∀ d, d.sessionId = id → (d ∈ s'.calls ↔ d ∈ s.calls) := by
    intro d hd
    rw [List.mem_iff_getElem?, List.mem_iff_getElem?]
    exact exists_congr fun i => hcalls i d hd
  have hno : NoInsert s id → NoInsert s' id := fun hn d hd hid => hn d ((hmem d hid).1 hd) hid
  have hsettled : Settled s id → Settled s' id := fun hs => ⟨hadded.2 hs.1, hno hs.2⟩
  have hremoving : (∀ d ∈ s.calls, ¬ d.Removing id) → ∀ d ∈ s'.calls, ¬ d.Removing id :=
    fun hr d hd hrem => hr d ((hmem d hrem.1).1 hd) hrem
  refine ⟨?_, fun d hd hid => ?_, fun hl => hsettled (h.listening (hlistening hl))⟩
  · cases h.phase with
    | fresh hadd hn ht => exact .fresh (fun ha => hadd (hadded.1 ha)) (hno hn) fun t => (htables t).trans (ht t)
    | adding j d t hadd hj hid hpc hone ht hapart =>
      exact .adding j d t (hadded.2 hadd) ((hcalls j d hid).2 hj) hid hpc
        (fun i e u he heid hepc => hone i e u ((hcalls i e heid).1 he) heid hepc) (fun u => (htables u).trans (ht u))
        fun hne => hremoving (hapart hne)
    | settled hs hpresent habsent =>
      refine .settled (hsettled hs) (fun ht => ?_) fun ht t htt => ?_
      · obtain ⟨hall, hr⟩ := hpresent ((htables _).symm.trans ht)
        exact ⟨fun t => (htables t).trans (hall t), hremoving hr⟩
      · obtain ⟨d, hd, hid, hdpc⟩ := habsent ((htables _).symm.trans ht) t ((htables t).symm.trans htt)
        exact ⟨d, (hmem d hid).2 hd, hid, hdpc⟩
  · exact (h.late d ((hmem d hid).1 hd) hid).imp_right hsettled

/-- A step that only moves a call on, past no insertion and no removal. -/
structure Walks (s : State) (k : ℕ) (c : Call) (pc : Pc) (s' : State) : Prop where
  tables : s'.tables = s.tables
  added : s'.added = s.added
  listening : s'.listening = s.listening
  calls : s'.calls = s.calls.set k { c with pc := pc }
  plain : c.pc.plain = true ∧ pc.plain = true
  spawn : pc ≠ .spawn
  lookup : c.pc = .lookup → pc = .done ∨ s.tables .states c.sessionId = true
  done : c.pc ≠ .done

theorem walks {old : Pc} {cells : SessionId → CloseState} (hpc : c.pc = old) (hold : old.plain = true) (hdone : old ≠ .done)
    (hnew : pc.plain = true) (hspawn : pc ≠ .spawn) (hlookup : old = .lookup → pc = .done ∨ s.tables .states c.sessionId = true) :
    Walks s k c pc ({ s with cells := cells }.goto k c pc) := by
  subst hpc
  exact ⟨rfl, rfl, rfl, rfl, ⟨hold, hnew⟩, hspawn, hlookup, hdone⟩

/-- What a step of a call can do. -/
theorem step_cases {dead : Bool} (hs : c.step s k dead = some s') :
    (∃ t, c.pc = .insert t ∧ s' = (s.set t c.sessionId true).goto k c (t.next.elim .spawn .insert)) ∨
    (c.pc = .spawn ∧ s' = { s with listening := s.listening ++ [c.sessionId] }.goto k c .done) ∨
    (∃ t, c.pc = .remove t ∧ s' = (s.set t c.sessionId false).goto k c (t.next.elim .done .remove)) ∨
    ∃ pc, Walks s k c pc s' := by
  unfold Call.step at hs
  split at hs
  · next t hpc => exact .inl ⟨t, hpc, (Option.some.inj hs).symm⟩
  · next hpc => exact .inr (.inl ⟨hpc, (Option.some.inj hs).symm⟩)
  · next hpc =>
    cases hs
    refine .inr (.inr (.inr ⟨_, walks hpc rfl nofun ?_ ?_ fun _ => ?_⟩))
    · split <;> rfl
    · split <;> nofun
    · split
      · next ht => exact .inr ht
      · exact .inl rfl
  · next hpc =>
    split at hs
    · cases hs
      exact .inr (.inr (.inr ⟨_, walks hpc rfl nofun rfl nofun nofun⟩))
    · cases hs
      exact .inr (.inr (.inr ⟨_, walks hpc rfl nofun rfl nofun nofun⟩))
  · next hpc =>
    cases hs
    exact .inr (.inr (.inr ⟨_, walks hpc rfl nofun rfl nofun nofun⟩))
  · next hpc =>
    cases hs
    refine .inr (.inr (.inr ⟨_, walks hpc rfl nofun ?_ ?_ nofun⟩))
    · split <;> rfl
    · split <;> nofun
  · next hpc =>
    cases hs
    exact .inr (.inr (.inr ⟨_, walks hpc rfl nofun rfl nofun nofun⟩))
  · next hpc =>
    cases hs
    refine .inr (.inr (.inr ⟨_, walks hpc rfl nofun ?_ ?_ nofun⟩))
    · split <;> rfl
    · split <;> nofun
  · next hpc =>
    cases hs
    refine .inr (.inr (.inr ⟨_, walks hpc rfl nofun ?_ ?_ nofun⟩))
    · split <;> rfl
    · split <;> nofun
  · next t hpc => exact .inr (.inr (.inl ⟨t, hpc, (Option.some.inj hs).symm⟩))
  · cases hs

/-- A step of a call on another session. -/
theorem Inv.other (h : Inv id s) (hc : s.calls[k]? = some c) (hne : c.sessionId ≠ id) {dead : Bool}
    (hs : c.step s k dead = some s') : Inv id s' := by
  have hcalls : ∀ (pc : Pc) (i : ℕ) (d : Call), d.sessionId = id →
      ((s.calls.set k { c with pc := pc })[i]? = some d ↔ s.calls[i]? = some d) := by
    intro pc i d hd
    rw [Indexed.getElem?_set_of_some hc]
    split
    · next hi =>
      subst hi
      rw [hc]
      exact iff_of_false (fun h => hne (by rw [← hd, ← Option.some.inj h])) (fun h => hne (by rw [← hd, ← Option.some.inj h]))
    · exact Iff.rfl
  have htable : ∀ (t u : Table) (b : Bool), (s.set t c.sessionId b).tables u id = s.tables u id :=
    fun t u b => if_neg fun h => hne h.2.symm
  rcases step_cases hs with ⟨t, -, rfl⟩ | ⟨-, rfl⟩ | ⟨t, -, rfl⟩ | ⟨pc, hw⟩
  · exact h.congr (fun u => htable t u true) Iff.rfl (fun hl => hl) (hcalls _)
  · refine h.congr (fun _ => rfl) Iff.rfl (fun hl => ?_) (hcalls _)
    exact (List.mem_append.1 hl).resolve_right fun hl => hne (List.mem_singleton.1 hl).symm
  · exact h.congr (fun u => htable t u false) Iff.rfl (fun hl => hl) (hcalls _)
  · refine h.congr (fun u => by rw [hw.tables]) (by rw [hw.added]) (fun hl => hw.listening ▸ hl) ?_
    rw [hw.calls]
    exact hcalls pc

/-! ### Steps of calls on the session -/

theorem NoInsert.set {d : Call} (hn : NoInsert s id) (hcalls : s'.calls = s.calls.set k d) (hd : ∀ t, d.pc ≠ .insert t) :
    NoInsert s' id := by
  intro e he hid t
  rw [hcalls] at he
  rcases List.mem_or_eq_of_mem_set he with he | rfl
  · exact hn e he hid t
  · exact hd t

theorem Settled.set {d : Call} (h : Settled s id) (hadded : s'.added = s.added) (hcalls : s'.calls = s.calls.set k d)
    (hd : ∀ t, d.pc ≠ .insert t) : Settled s' id :=
  ⟨hadded ▸ h.1, h.2.set hcalls hd⟩

theorem not_removing_set {d : Call} (h : ∀ e ∈ s.calls, ¬ e.Removing id) (hcalls : s'.calls = s.calls.set k d)
    (hd : ¬ d.Removing id) : ∀ e ∈ s'.calls, ¬ e.Removing id := by
  intro e he
  rw [hcalls] at he
  rcases List.mem_or_eq_of_mem_set he with he | rfl
  · exact h e he
  · exact hd

/-- Only `add_session` fills the tables, `states` last. -/
theorem Phase.settled_of_states (h : Phase id s) (ht : s.tables .states id = true) : Settled s id := by
  cases h with
  | fresh _ _ htables =>
    rw [htables] at ht
    cases ht
  | adding j d t _ _ _ _ _ htables _ =>
    rw [htables] at ht
    cases t <;> cases ht
  | settled hs _ _ => exact hs

/-- The only call that inserts stays the only one when another call moves on. -/
theorem only_inserter_set {j : ℕ} {d : Call} {t : Table} (hc : s.calls[k]? = some c) (hold : ∀ u, c.pc ≠ .insert u)
    (hnew : ∀ u, pc ≠ .insert u) (hj : s.calls[j]? = some d) (hjpc : d.pc = .insert t)
    (hone : ∀ i e u, s.calls[i]? = some e → e.sessionId = id → e.pc = .insert u → i = j)
    (hcalls : s'.calls = s.calls.set k { c with pc := pc }) :
    s'.calls[j]? = some d ∧ ∀ i e u, s'.calls[i]? = some e → e.sessionId = id → e.pc = .insert u → i = j := by
  have hjk : j ≠ k := by
    rintro rfl
    rw [hc] at hj
    cases hj
    exact hold t hjpc
  refine ⟨?_, fun i e u he heid hepc => ?_⟩
  · rw [hcalls, Indexed.getElem?_set_of_some hc, if_neg hjk, hj]
  · rw [hcalls] at he
    rcases Indexed.of_getElem?_set hc he with ⟨-, rfl⟩ | ⟨-, he⟩
    · exact absurd hepc (hnew u)
    · exact hone i e u he heid hepc

theorem Phase.walk (h : Phase id s) (hc : s.calls[k]? = some c) (htables : s'.tables = s.tables) (hadded : s'.added = s.added)
    (hcalls : s'.calls = s.calls.set k { c with pc := pc }) (hplain : c.pc.plain = true ∧ pc.plain = true) : Phase id s' := by
  have hnew : ∀ t, pc ≠ .insert t := Pc.ne_insert hplain.2
  cases h with
  | fresh hadd hn ht => exact .fresh (hadded ▸ hadd) (hn.set hcalls hnew) fun t => by rw [htables, ht]
  | adding j d t hadd hj hid hpc hone ht hapart =>
    obtain ⟨hj', hone'⟩ := only_inserter_set hc (Pc.ne_insert hplain.1) hnew hj hpc hone hcalls
    exact .adding j d t (hadded ▸ hadd) hj' hid hpc hone' (fun u => by rw [htables, ht])
      fun hne => not_removing_set (hapart hne) hcalls (Call.not_removing hplain.2)
  | settled hs hpresent habsent =>
    refine .settled (hs.set hadded hcalls hnew) (fun ht => ?_) fun ht t htt => ?_
    · rw [htables] at ht ⊢
      exact ⟨(hpresent ht).1, not_removing_set (hpresent ht).2 hcalls (Call.not_removing hplain.2)⟩
    · rw [htables] at ht htt
      obtain ⟨d, hd, hid, hdpc⟩ := habsent ht t htt
      refine ⟨d, ?_, hid, hdpc⟩
      rw [hcalls]
      refine Indexed.mem_set_of_ne hc hd ?_
      rintro rfl
      rcases hdpc with hdpc | ⟨-, hdpc⟩ <;> rw [hdpc] at hplain <;> cases hplain.1

/-- What `late` says of the other calls stays true. -/
theorem Inv.late_set (h : Inv id s) {d : Call} (hcalls : s'.calls = s.calls.set k d) (hsettled : Settled s id → Settled s' id)
    (hd : d.sessionId = id → d.Early ∨ Settled s' id) : ∀ e ∈ s'.calls, e.sessionId = id → e.Early ∨ Settled s' id := by
  intro e he hid
  rw [hcalls] at he
  rcases List.mem_or_eq_of_mem_set he with he | rfl
  · exact (h.late e he hid).imp_right hsettled
  · exact hd hid

theorem Inv.walk (h : Inv id s) (hc : s.calls[k]? = some c) (hid : c.sessionId = id) (hw : Walks s k c pc s') : Inv id s' := by
  have hset : Settled s id → Settled s' id := fun hs => hs.set hw.added hw.calls (Pc.ne_insert hw.plain.2)
  refine ⟨h.phase.walk hc hw.tables hw.added hw.calls hw.plain, h.late_set hw.calls hset fun _ => ?_, fun hl => ?_⟩
  · rcases h.late c (List.mem_of_getElem? hc) hid with (⟨hkind, -⟩ | hl | hl | ⟨t, ht⟩) | hl
    · exact .inl (.inl ⟨hkind, hw.spawn⟩)
    · rcases hw.lookup hl with hpc | ht
      · exact .inl (.inr (.inr (.inl hpc)))
      · rw [hid] at ht
        exact .inr (hset (h.phase.settled_of_states ht))
    · exact absurd hl hw.done
    · exact absurd ht (Pc.ne_insert hw.plain.1 t)
    · exact .inr (hset hl)
  · rw [hw.listening] at hl
    exact hset (h.listening hl)

theorem Inv.spawn (h : Inv id s) (hc : s.calls[k]? = some c) (hid : c.sessionId = id) (hpc : c.pc = .spawn) :
    Inv id ({ s with listening := s.listening ++ [c.sessionId] }.goto k c .done) := by
  have hsettled : Settled s id := by
    rcases h.late c (List.mem_of_getElem? hc) hid with (⟨-, hl⟩ | hl | hl | ⟨t, ht⟩) | hl
    · exact absurd hpc hl
    · cases hpc.symm.trans hl
    · cases hpc.symm.trans hl
    · cases hpc.symm.trans ht
    · exact hl
  have hset : Settled ({ s with listening := s.listening ++ [c.sessionId] }.goto k c .done) id := hsettled.set rfl rfl nofun
  exact ⟨h.phase.walk hc rfl rfl rfl ⟨by rw [hpc]; rfl, rfl⟩, h.late_set rfl (fun _ => hset) fun _ => .inr hset, fun _ => hset⟩

theorem Inv.insert {t : Table} (h : Inv id s) (hc : s.calls[k]? = some c) (hid : c.sessionId = id) (hpc : c.pc = .insert t)
    (hapart : t = .transports → ∀ d ∈ s.calls, ¬ d.Removing id) :
    Inv id ((s.set t c.sessionId true).goto k c (t.next.elim .spawn .insert)) := by
  have hmem := List.mem_of_getElem? hc
  have hnot : ¬ Settled s id := fun hs => hs.2 c hmem hid t hpc
  cases h.phase with
  | fresh _ hn _ => exact absurd hpc (hn c hmem hid t)
  | settled hs _ _ => exact absurd hs hnot
  | adding j d u hadd hj hjid hjpc hone htables hapart' =>
    obtain rfl : k = j := hone k c t hc hid hpc
    obtain rfl : c = d := Option.some.inj (hc.symm.trans hj)
    obtain rfl : t = u := Pc.insert.inj (hpc.symm.trans hjpc)
    have hno : ∀ d ∈ s.calls, ¬ d.Removing id := by
      by_cases ht : t = .transports
      · exact hapart ht
      · exact hapart' ht
    have htab : ∀ v, (s.set t c.sessionId true).tables v id = if v = t then true else ListenerPc.inserted (.insert t) v := by
      intro v
      rw [← htables v, ← hid]
      exact if_congr (and_iff_left rfl) rfl rfl
    cases hnext : t.next with
    | some v =>
      refine ⟨.adding k { c with pc := .insert v } v hadd (Indexed.getElem?_set_self_of_some hc) hid rfl ?_ (fun w => ?_)
        fun _ => not_removing_set hno rfl ?_, h.late_set rfl (fun hs => absurd hs hnot) fun _ => .inl (.inr (.inr (.inr ⟨v, rfl⟩))),
        fun hl => absurd (h.listening hl) hnot⟩
      · intro i e w he heid hepc
        rcases Indexed.of_getElem?_set hc he with ⟨hi, -⟩ | ⟨-, he⟩
        · exact hi
        · exact hone i e w he heid hepc
      · refine (htab w).trans ?_
        cases t <;> cases hnext <;> cases w <;> rfl
      · rintro ⟨-, hr | hr⟩ <;> cases hr
    | none =>
      have hset : Settled ((s.set t c.sessionId true).goto k c .spawn) id := by
        refine ⟨hadd, fun e he heid w hepc => ?_⟩
        obtain ⟨i, hi⟩ := List.mem_iff_getElem?.1 he
        rcases Indexed.of_getElem?_set hc hi with ⟨-, rfl⟩ | ⟨hne, hi⟩
        · cases hepc
        · exact hne (hone i e w hi heid hepc)
      refine ⟨.settled hset (fun _ => ⟨fun w => (htab w).trans ?_, not_removing_set hno rfl ?_⟩) fun ht => ?_,
        h.late_set rfl (fun hs => absurd hs hnot) fun _ => .inr hset, fun hl => absurd (h.listening hl) hnot⟩
      · cases t <;> cases hnext
        cases w <;> rfl
      · rintro ⟨-, hr | hr⟩ <;> cases hr
      · have := (htab .transports).symm.trans ht
        cases t <;> cases hnext
        cases this

/-- Before the first insertion a removal finds nothing. -/
theorem Inv.remove_absent {t : Table} (h : Inv id s) (hnot : ¬ Settled s id) (hnone : ∀ u, s.tables u id = false)
    (hlate : (c.kind = .removeSession ∨ c.kind = .send) ∧ c.pc ≠ .spawn)
    (hphase : ∀ s' : State, (∀ u, s'.tables u id = false) → s'.added = s.added →
      s'.calls = s.calls.set k { c with pc := t.next.elim .done .remove } → Phase id s') :
    Inv id ((s.set t c.sessionId false).goto k c (t.next.elim .done .remove)) := by
  refine ⟨hphase _ (fun u => ?_) rfl rfl, h.late_set rfl (fun hs => absurd hs hnot) fun _ => .inl (.inl ⟨hlate.1, ?_⟩),
    fun hl => absurd (h.listening hl) hnot⟩
  · show (if u = t ∧ id = c.sessionId then false else s.tables u id) = false
    rw [hnone u]
    split <;> rfl
  · cases t <;> nofun

theorem next_ne_insert (t u : Table) : t.next.elim Pc.done Pc.remove ≠ .insert u := by
  cases t <;> nofun

/-- Once all three entries are there, only the call that has taken out the first one takes out the others. -/
theorem Inv.remove_settled {t : Table} (h : Inv id s) (hc : s.calls[k]? = some c) (hid : c.sessionId = id)
    (hpc : c.pc = .remove t) (hs : Settled s id)
    (hpresent : s.tables .transports id = true → (∀ t, s.tables t id = true) ∧ ∀ d ∈ s.calls, ¬ d.Removing id)
    (habsent : s.tables .transports id = false → ∀ t, s.tables t id = true →
      ∃ d ∈ s.calls, d.sessionId = id ∧ (d.pc = .remove .stats ∨ t = .states ∧ d.pc = .remove .states)) :
    Inv id ((s.set t c.sessionId false).goto k c (t.next.elim .done .remove)) := by
  have hmem := List.mem_of_getElem? hc
  have hset : Settled ((s.set t c.sessionId false).goto k c (t.next.elim .done .remove)) id :=
    hs.set rfl rfl (next_ne_insert t)
  have htab : ∀ v, (s.set t c.sessionId false).tables v id = if v = t then false else s.tables v id :=
    fun v => if_congr (and_iff_left hid.symm) rfl rfl
  have hnewmem : { c with pc := t.next.elim .done .remove } ∈ s.calls.set k { c with pc := t.next.elim .done .remove } :=
    Indexed.mem_set_self_of_some hc
  -- from here on the entry of `transports` is gone
  have hgone : t ≠ .transports → s.tables .transports id = false := by
    intro hne
    by_contra ht
    refine (hpresent (by simpa using ht)).2 c hmem ⟨hid, ?_⟩
    cases t with
    | transports => exact absurd rfl hne
    | stats => exact .inl hpc
    | states => exact .inr hpc
  refine ⟨.settled hset (fun ht => ?_) fun ht v hv => ?_, h.late_set rfl (fun _ => hset) fun _ => .inr hset,
    fun _ => hset⟩
  · have := (htab .transports).symm.trans ht
    by_cases htr : t = .transports
    · rw [if_pos htr.symm] at this
      cases this
    · rw [if_neg (Ne.symm htr), hgone htr] at this
      cases this
  · have hv' := (htab v).symm.trans hv
    split at hv'
    · cases hv'
    · next hvt =>
      cases t with
      | transports => exact ⟨_, hnewmem, hid, .inl rfl⟩
      | stats =>
        refine ⟨_, hnewmem, hid, .inr ⟨?_, rfl⟩⟩
        cases v with
        | transports =>
          rw [hgone nofun] at hv'
          cases hv'
        | stats => exact absurd rfl hvt
        | states => rfl
      | states =>
        obtain ⟨d, hd, hdid, hdpc⟩ := habsent (hgone nofun) v hv'
        rcases hdpc with hdpc | ⟨rfl, -⟩
        · refine ⟨d, Indexed.mem_set_of_ne hc hd ?_, hdid, .inl hdpc⟩
          rintro rfl
          cases hpc.symm.trans hdpc
        · exact absurd rfl hvt

theorem Inv.remove {t : Table} (h : Inv id s) (hc : s.calls[k]? = some c) (hid : c.sessionId = id) (hpc : c.pc = .remove t)
    (hapart : t = .transports → c.kind = .removeSession ∨ c.kind = .send → ∀ d ∈ s.calls, ¬ d.Adding id) :
    Inv id ((s.set t c.sessionId false).goto k c (t.next.elim .done .remove)) := by
  have hmem := List.mem_of_getElem? hc
  have hlate : ¬ Settled s id → (c.kind = .removeSession ∨ c.kind = .send) ∧ c.pc ≠ .spawn := by
    intro hnot
    rcases h.late c hmem hid with (hl | hl | hl | ⟨u, hl⟩) | hl
    · exact hl
    · cases hpc.symm.trans hl
    · cases hpc.symm.trans hl
    · cases hpc.symm.trans hl
    · exact absurd hl hnot
  cases h.phase with
  | fresh hadd hn ht =>
    have hnot : ¬ Settled s id := fun hs => hadd hs.1
    exact h.remove_absent hnot ht (hlate hnot) fun s' ht' hadded hcalls =>
      .fresh (hadded ▸ hadd) (hn.set hcalls (next_ne_insert t)) ht'
  | adding j d u hadd hj hjid hjpc hone htables hapart' =>
    have hnot : ¬ Settled s id := fun hs => hs.2 d (List.mem_of_getElem? hj) hjid u hjpc
    -- the call has not begun to remove, so `add_session` has not begun to insert
    have hu : u = .transports := by
      by_contra hu
      have hadding : d.Adding id := ⟨hjid, by cases u <;> simp_all⟩
      cases t with
      | transports => exact hapart rfl (hlate hnot).1 d (List.mem_of_getElem? hj) hadding
      | stats => exact hapart' hu c hmem ⟨hid, .inl hpc⟩
      | states => exact hapart' hu c hmem ⟨hid, .inr hpc⟩
    subst hu
    have hold : ∀ u, c.pc ≠ .insert u := fun u hu => nomatch hpc.symm.trans hu
    refine h.remove_absent hnot htables (hlate hnot) fun s' ht' hadded hcalls => ?_
    obtain ⟨hj', hone'⟩ := only_inserter_set hc hold (next_ne_insert t) hj hjpc hone hcalls
    exact .adding j d .transports (hadded ▸ hadd) hj' hjid hjpc hone' ht' fun hne => absurd rfl hne
  | settled hs hpresent habsent => exact h.remove_settled hc hid hpc hs hpresent habsent

theorem Inv.callStep {dead : Bool} (h : Inv id s) (hc : s.calls[k]? = some c) (hs : c.step s k dead = some s')
    (hapart : Apart s (.callStep k dead)) : Inv id s' := by
  by_cases hid : c.sessionId = id
  · obtain ⟨hinsert, hremove⟩ := hapart c hc
    rw [hid] at hinsert hremove
    rcases step_cases hs with ⟨t, hpc, rfl⟩ | ⟨hpc, rfl⟩ | ⟨t, hpc, rfl⟩ | ⟨pc, hw⟩
    · exact h.insert hc hid hpc fun ht => hinsert (ht ▸ hpc)
    · exact h.spawn hc hid hpc
    · exact h.remove hc hid hpc fun ht => hremove (ht ▸ hpc)
    · exact h.walk hc hid hw
  · exact h.other hc hid hs

/-! ### New calls -/

theorem Phase.append (h : Phase id s) {d : Call} (hd : d.pc.plain = true) : Phase id { s with calls := s.calls ++ [d] } := by
  have hinsert : NoInsert s id → NoInsert { s with calls := s.calls ++ [d] } id := by
    intro hn e he
    rcases List.mem_append.1 he with he | he
    · exact hn e he
    · rw [List.mem_singleton.1 he]
      exact fun _ t => Pc.ne_insert hd t
  have hremoving : (∀ e ∈ s.calls, ¬ e.Removing id) → ∀ e ∈ s.calls ++ [d], ¬ e.Removing id := by
    intro hno
    exact List.forall_mem_append.2 ⟨hno, List.forall_mem_singleton.2 (Call.not_removing hd)⟩
  cases h with
  | fresh hadd hn ht => exact .fresh hadd (hinsert hn) ht
  | adding j c t hadd hj hid hpc hone ht hapart =>
    refine .adding j c t hadd (Indexed.getElem?_concat_of_some hj) hid hpc (fun i e u he heid hepc => ?_) ht
      fun hne => hremoving (hapart hne)
    rcases Indexed.getElem?_concat_eq_some.1 he with he | ⟨-, rfl⟩
    · exact hone i e u he heid hepc
    · exact absurd hepc (Pc.ne_insert hd u)
  | settled hs hpresent habsent =>
    refine .settled ⟨hs.1, hinsert hs.2⟩ (fun ht => ⟨(hpresent ht).1, hremoving (hpresent ht).2⟩) fun ht t htt => ?_
    obtain ⟨e, he, h⟩ := habsent ht t htt
    exact ⟨e, List.mem_append_left _ he, h⟩

/-- A call of `add_session` for a new id. -/
theorem Phase.add (h : Phase id s) (hadd : id ∉ s.added) :
    Phase id { s with added := s.added ++ [id], calls := s.calls ++ [⟨.add, id, .insert .transports⟩] } := by
  cases h with
  | settled hs _ _ => exact absurd hs.1 hadd
  | adding _ _ _ ha _ _ _ _ _ _ => exact absurd ha hadd
  | fresh _ hn ht =>
    refine .adding s.calls.length ⟨.add, id, .insert .transports⟩ .transports (List.mem_append_right _ List.mem_cons_self)
      List.getElem?_concat_length rfl rfl (fun i e u he heid hepc => ?_) ht fun hne => absurd rfl hne
    rcases Indexed.getElem?_concat_eq_some.1 he with he | ⟨hi, -⟩
    · exact absurd hepc (hn e (List.mem_of_getElem? he) heid u)
    · exact hi

theorem Inv.call {kind : Kind} {i : SessionId} (h : Inv id s) (hs : step s (.call kind i) = some s') : Inv id s' := by
  simp only [step] at hs
  split at hs
  · cases hs
  · next hguard =>
    cases hs
    obtain ⟨hnew, hlistening⟩ := not_or.1 hguard
    by_cases hi : i = id
    · subst hi
      have hold : ∀ {d : Call}, Settled s i → d.pc.plain = true → Settled { s with calls := s.calls ++ [d] } i := by
        intro d hset hd
        refine ⟨hset.1, fun e he => ?_⟩
        rcases List.mem_append.1 he with he | he
        · exact hset.2 e he
        · rw [List.mem_singleton.1 he]
          exact fun _ t => Pc.ne_insert hd t
      by_cases hkind : kind = .add
      · subst hkind
        have hadd : i ∉ s.added := fun hadd => hnew ⟨rfl, hadd⟩
        have hnot : ¬ Settled s i := fun hset => hadd hset.1
        rw [if_pos rfl]
        refine ⟨h.phase.add hadd, fun c hc hid => ?_, fun hl => absurd (h.listening hl) hnot⟩
        rcases List.mem_append.1 hc with hc | hc
        · exact .inl ((h.late c hc hid).resolve_right hnot)
        · rw [List.mem_singleton.1 hc]
          exact .inl (.inr (.inr (.inr ⟨_, rfl⟩)))
      · have hplain : kind.first.plain = true := by
          cases kind with
          | add => exact absurd rfl hkind
          | _ => rfl
        rw [if_neg hkind]
        refine ⟨h.phase.append hplain, fun c hc hid => ?_, fun hl => hold (h.listening hl) hplain⟩
        rcases List.mem_append.1 hc with hc | hc
        · exact (h.late c hc hid).imp_right fun hl => hold hl hplain
        · rw [List.mem_singleton.1 hc]
          cases kind with
          | add => exact absurd rfl hkind
          | removeSession => exact .inl (.inl ⟨.inl rfl, nofun⟩)
          | close forced => exact .inl (.inr (.inl rfl))
          | send => exact .inl (.inl ⟨.inr rfl, nofun⟩)
          | peerClosed =>
            refine .inr (hold (h.listening ?_) hplain)
            by_contra hl
            exact hlistening ⟨rfl, hl⟩
    · refine h.congr (fun _ => rfl) ?_ (fun hl => hl) fun j d hd => ?_
      · show id ∈ (if kind = .add then s.added ++ [i] else s.added) ↔ id ∈ s.added
        split
        · rw [List.mem_append, List.mem_singleton]
          exact or_iff_left (Ne.symm hi)
        · exact Iff.rfl
      · rw [Indexed.getElem?_concat_eq_some]
        exact or_iff_left fun hj => hi (by rw [← hd, hj.2])

theorem Inv.step {l : Label} (h : Inv id s) (hs : step s l = some s') (hapart : Apart s l) : Inv id s' := by
  cases l with
  | call kind i => exact h.call hs
  | callStep k dead =>
    obtain ⟨c, hc, hs⟩ := Option.bind_eq_some_iff.1 hs
    exact h.callStep hc hs hapart

/-- With nothing in progress a session is in all tables or in none. -/
theorem Inv.agree (h : Inv id s) (hquiet : s.Quiet) (t u : Table) : s.tables t id = s.tables u id := by
  have hall : ∀ b, s.tables .transports id = b → ∀ v, s.tables v id = b := by
    intro b hb v
    cases h.phase with
    | fresh _ _ ht =>
      rw [ht] at hb
      rw [ht, ← hb]
    | adding j c w _ hj _ hpc _ _ _ => cases hpc.symm.trans (hquiet c (List.mem_of_getElem? hj))
    | settled _ hpresent habsent =>
      cases b with
      | true => exact (hpresent hb).1 v
      | false =>
        by_contra hv
        obtain ⟨d, hd, -, hdpc⟩ := habsent hb v (by simpa using hv)
        rcases hdpc with hdpc | ⟨-, hdpc⟩ <;> cases hdpc.symm.trans (hquiet d hd)
  rw [hall _ rfl t, hall _ rfl u]

end Inv

/-- The law of the tables: in every run whose insertions and removals keep apart, the key sets are equal in every
state in which none of the calls is in progress. -/
theorem keysAgree_of_apart {ls : List Label} (hapart : StepSystem.Meets step Apart start ls) :
    StepSystem.Always step (fun s => s.Quiet → s.KeysAgree) start ls := by
  have hinv : StepSystem.Always step (fun s => ∀ id, Inv id s) start ls :=
    StepSystem.always_of_meets (fun s l s' hs hG h id => (h id).step hs hG) hapart inv_start
  exact fun ms t hms ht hquiet id u v => (hinv ms t hms ht id).agree hquiet u v

/-- Session 1 is added and its connection found dead by a send, while session 2 is being added. -/
def cleanedUp : List Label :=
  [.call .add 1, .callStep 0 false, .callStep 0 false, .callStep 0 false, .callStep 0 false, .call .send 1, .callStep 1 false,
    .call .add 2, .callStep 2 false, .callStep 1 true, .callStep 1 false, .callStep 1 false, .callStep 2 false,
    .callStep 1 false, .callStep 2 false, .callStep 2 false]

theorem keysAgree_of_apart_cleanedUp : StepSystem.Always step (fun s => s.Quiet → s.KeysAgree) start cleanedUp :=
  keysAgree_of_apart (by decide)

/-- A send finds session 1 in `transports` and its connection dead before `add_session` has made the other entries. -/
theorem entries_left_behind :
    let ls : List Label := [.call .add 1, .callStep 0 false, .call .send 1, .callStep 1 false, .callStep 1 true, .callStep 1 false,
      .callStep 1 false, .callStep 1 false, .callStep 0 false, .callStep 0 false, .callStep 0 false]
    ∃ s, StepSystem.run step start ls = some s ∧ s.Quiet ∧ s.tables .transports 1 = false ∧ s.tables .stats 1 = true ∧
      s.tables .states 1 = true ∧ ¬ s.KeysAgree := by
  intro ls
  have hr : StepSystem.run step start ls = some _ := rfl
  refine ⟨_, hr, by decide, rfl, rfl, rfl, fun h => ?_⟩
  have := h 1 .transports .stats
  cases this

end SessionTables

end Msgtrans
