import Msgtrans.ConnectionState
import Msgtrans.LockFreeMap

/-!
# Closing all sessions (`TransportServer::close_all_sessions`)

The sessions of the table are closed one after the other, gracefully as long as the total time-out has not run out, and by
force from then on. An error or a time-out of `disconnect` is logged, and the clean-up goes on. Table operations succeed
here, and no other task touches the sessions.

`closeSession_spec` says what one of the two procedures does to a connected session and what it leaves alone;
`allClosed_of_connected` is the run of the loop.
-/

namespace Msgtrans

namespace CloseAll

open LockFreeHashMap ConnectionStateManager

inductive Act where
  | emitted (event : ServerEvent)
  | disconnect (sessionId : SessionId)

def Act.event? : Act → Option ServerEvent
  | .emitted event => some event
  | .disconnect _ => none

def Act.disconnect? : Act → Option SessionId
  | .emitted _ => none
  | .disconnect sessionId => some sessionId

structure Server (T S : Type) where
  transports : Map SessionId T
  stats : Map SessionId S
  stateManager : ConnectionStateManager
  /-- what has been sent on `event_sender`, and the calls of `Transport::disconnect` -/
  acts : List Act

/-- What becomes of a call of `Transport::disconnect` within `graceful_timeout`. After a time-out it still ends: its own
`close` of the connection is given the same time, and the forced one that follows does not wait. -/
inductive Outcome where
  | ok
  | error (e : TransportError)
  | timeout

variable {T S : Type} {s : Server T S} {id id' : SessionId} {ids : List SessionId} {outcome : SessionId → Outcome}
  {expired : SessionId → Bool}

namespace Server

def activeSessions (s : Server T S) : List SessionId := s.transports.keys

def emit (s : Server T S) (event : ServerEvent) : Server T S := { s with acts := s.acts ++ [.emitted event] }

def disconnect (s : Server T S) (sessionId : SessionId) : Server T S :=
  { s with acts := s.acts ++ [.disconnect sessionId] }

def tryStartClosing (s : Server T S) (sessionId : SessionId) : Bool × Server T S :=
  let (started, m) := s.stateManager.tryStartClosing sessionId
  (started, { s with stateManager := m })

def markClosed (s : Server T S) (sessionId : SessionId) : Server T S :=
  { s with stateManager := s.stateManager.markClosed sessionId }

def removeSession (s : Server T S) (sessionId : SessionId) : Except TransportError Unit × Server T S :=
  (.ok (), { s with
    transports := s.transports.erase sessionId
    stats := s.stats.erase sessionId
    stateManager := s.stateManager.removeConnection sessionId })

def doCloseSession (outcome : SessionId → Outcome) (s : Server T S) (sessionId : SessionId) :
    Except TransportError Unit × Server T S :=
  match s.transports.lookup sessionId with
  | some _ =>
    let s := s.disconnect sessionId
    -- a failure or a time-out is only logged
    match outcome sessionId with
    | .ok => (.ok (), s)
    | .error _ => (.ok (), s)
    | .timeout => (.ok (), s)
  | none => (.ok (), s)

def closeSession (outcome : SessionId → Outcome) (s : Server T S) (sessionId : SessionId) :
    Except TransportError Unit × Server T S :=
  match s.tryStartClosing sessionId with
  | (false, s) => (.ok (), s)
  | (true, s) =>
    match (s.emit (.connectionClosed sessionId .normal)).doCloseSession outcome sessionId with
    | (.error e, s) => (.error e, s)
    | (.ok _, s) => (s.markClosed sessionId).removeSession sessionId

def forceCloseSession (s : Server T S) (sessionId : SessionId) : Except TransportError Unit × Server T S :=
  match s.tryStartClosing sessionId with
  | (false, s) => (.ok (), s)
  | (true, s) =>
    let s := s.emit (.connectionClosed sessionId .forced)
    let s := if (s.transports.lookup sessionId).isSome then s.disconnect sessionId else s
    (s.markClosed sessionId).removeSession sessionId

/-- The loop; `expired` is what the check of the elapsed time says when the loop comes to a session. -/
def closeSessions (outcome : SessionId → Outcome) (expired : SessionId → Bool) :
    List SessionId → Server T S → Server T S
  | [], s => s
  | sessionId :: ids, s =>
    closeSessions outcome expired ids
      (if expired sessionId then (s.forceCloseSession sessionId).2 else (s.closeSession outcome sessionId).2)

def closeAllSessions (outcome : SessionId → Outcome) (expired : SessionId → Bool) (s : Server T S) :
    Except TransportError Unit × Server T S :=
  if s.activeSessions.length = 0 then (.ok (), s)
  else (.ok (), closeSessions outcome expired s.activeSessions s)

end Server

def reason (expired : SessionId → Bool) (sessionId : SessionId) : CloseReason :=
  if expired sessionId then .forced else .normal

/-- Nothing of the session is left in the tables. -/
def Gone (s : Server T S) (id : SessionId) : Prop :=
  id ∉ s.transports ∧ id ∉ s.stats ∧ s.stateManager.states id = none

/-- The tables say the same of another session. -/
def Same (s s' : Server T S) (id : SessionId) : Prop :=
  s'.transports.lookup id = s.transports.lookup id ∧ s'.stats.lookup id = s.stats.lookup id ∧
    s'.stateManager.states id = s.stateManager.states id

structure AllClosed (expired : SessionId → Bool) (s : Server T S) (r : Except TransportError Unit × Server T S) :
    Prop where
  ok : r.1 = .ok ()
  gone : ∀ id ∈ s.activeSessions, Gone r.2 id
  kept : ∀ id ∉ s.activeSessions, Same s r.2 id
  acts : ∃ acts, r.2.acts = s.acts ++ acts ∧
    acts.filterMap Act.disconnect? = s.activeSessions ∧
    acts.filterMap Act.event? = s.activeSessions.map fun id => .connectionClosed id (reason expired id)

/-! ### One session -/

/-- What is left of the server when a connected session has been closed. -/
def Server.closed (s : Server T S) (id : SessionId) (reason : CloseReason) : Server T S where
  transports := s.transports.erase id
  stats := s.stats.erase id
  stateManager := s.stateManager.removeConnection id
  acts := s.acts ++ [.emitted (.connectionClosed id reason), .disconnect id]

theorem set_set (m : ConnectionStateManager) (a b : Option ConnectionStateManager.ConnectionState) :
    (m.set id a).set id b = m.set id b := by
  simp only [ConnectionStateManager.set, mk.injEq]
  funext id'
  split <;> rfl

theorem set_self (m : ConnectionStateManager) (a : Option ConnectionStateManager.ConnectionState) :
    (m.set id a).states id = a := if_pos rfl

theorem set_of_ne (m : ConnectionStateManager) (a : Option ConnectionStateManager.ConnectionState) (h : id' ≠ id) :
    (m.set id a).states id' = m.states id' := if_neg h

theorem tryStartClosing_of_connected (hc : s.stateManager.states id = some .connected) :
    s.tryStartClosing id = (true, { s with stateManager := s.stateManager.set id (some .closing) }) := by
  simp [Server.tryStartClosing, ConnectionStateManager.tryStartClosing, hc]

theorem doCloseSession_spec (outcome : SessionId → Outcome) (h : id ∈ s.transports) :
    s.doCloseSession outcome id = (.ok (), s.disconnect id) := by
  obtain ⟨t, ht⟩ := Option.isSome_iff_exists.1 (AList.lookup_isSome.2 h)
  simp only [Server.doCloseSession, ht]
  cases outcome id <;> rfl

/-- The end of both procedures: the state goes from `Closing` to `Closed`, and the session out of the tables. -/
theorem cleanUp_spec (hs : s.stateManager.states id = some .closing) : (s.markClosed id).removeSession id =
    (.ok (), ⟨s.transports.erase id, s.stats.erase id, s.stateManager.removeConnection id, s.acts⟩) := by
  simp [Server.markClosed, Server.removeSession, ConnectionStateManager.markClosed, removeConnection, hs, set_set]

theorem closeSession_spec (outcome : SessionId → Outcome) (h : id ∈ s.transports)
    (hc : s.stateManager.states id = some .connected) :
    s.closeSession outcome id = (.ok (), s.closed id .normal) := by
  unfold Server.closeSession
  rw [tryStartClosing_of_connected hc]
  simp only
  rw [doCloseSession_spec outcome (by exact h)]
  simp only
  rw [cleanUp_spec (set_self _ _)]
  simp [Server.closed, Server.emit, Server.disconnect, removeConnection, set_set]

theorem forceCloseSession_spec (h : id ∈ s.transports) (hc : s.stateManager.states id = some .connected) :
    s.forceCloseSession id = (.ok (), s.closed id .forced) := by
  unfold Server.forceCloseSession
  rw [tryStartClosing_of_connected hc]
  have hsome : (s.transports.lookup id).isSome := AList.lookup_isSome.2 h
  simp only [Server.emit, hsome, if_true, Server.disconnect]
  rw [cleanUp_spec (set_self _ _)]
  simp [Server.closed, removeConnection, set_set]

theorem gone_closed (reason : CloseReason) : Gone (s.closed id reason) id :=
  ⟨fun h => absurd rfl (AList.mem_erase.1 h).1, fun h => absurd rfl (AList.mem_erase.1 h).1, set_self _ _⟩

theorem same_closed (reason : CloseReason) (h : id' ≠ id) : Same s (s.closed id reason) id' :=
  ⟨AList.lookup_erase_ne h, AList.lookup_erase_ne h, set_of_ne _ _ h⟩

/-! ### The loop -/

theorem closeSessions_spec (hnd : ids.Nodup) (hin : ∀ id ∈ ids, id ∈ s.transports)
    (hc : ∀ id ∈ ids, s.stateManager.states id = some .connected) :
    Server.closeSessions outcome expired ids s = ids.foldl (fun s id => s.closed id (reason expired id)) s := by
  induction ids generalizing s with
  | nil => rfl
  | cons id ids ih =>
    obtain ⟨hnot, hnd⟩ := List.nodup_cons.1 hnd
    have hnext : (if expired id then (s.forceCloseSession id).2 else (s.closeSession outcome id).2) =
        s.closed id (reason expired id) := by
      have hid := hin id List.mem_cons_self
      have hcon := hc id List.mem_cons_self
      unfold reason
      split
      · rw [forceCloseSession_spec hid hcon]
      · rw [closeSession_spec outcome hid hcon]
    rw [Server.closeSessions, hnext, List.foldl_cons]
    -- the sessions that are left are still connected
    have hsame (id' : SessionId) (h : id' ∈ ids) : Same s (s.closed id (reason expired id)) id' :=
      same_closed _ fun heq => hnot (heq ▸ h)
    refine ih hnd (fun id' h => ?_) fun id' h => ?_
    · have := hin id' (List.mem_cons_of_mem _ h)
      rw [← AList.lookup_isSome] at this ⊢
      rwa [(hsame id' h).1]
    · rw [(hsame id' h).2.2]
      exact hc id' (List.mem_cons_of_mem _ h)

theorem Same.trans {s₁ s₂ : Server T S} (h₁ : Same s s₁ id) (h₂ : Same s₁ s₂ id) : Same s s₂ id :=
  ⟨h₂.1.trans h₁.1, h₂.2.1.trans h₁.2.1, h₂.2.2.trans h₁.2.2⟩

theorem Gone.same {s₁ : Server T S} (h : Gone s id) (hs : Same s s₁ id) : Gone s₁ id := by
  obtain ⟨ht, hst, hm⟩ := h
  refine ⟨?_, ?_, hs.2.2.trans hm⟩
  · rwa [← AList.lookup_isSome, hs.1, AList.lookup_isSome]
  · rwa [← AList.lookup_isSome, hs.2.1, AList.lookup_isSome]

theorem same_foldl_closed (r : SessionId → CloseReason) (h : id ∉ ids) :
    Same s (ids.foldl (fun s id => s.closed id (r id)) s) id := by
  induction ids generalizing s with
  | nil => exact ⟨rfl, rfl, rfl⟩
  | cons id' ids ih =>
    have hne : id ≠ id' := fun heq => h (heq ▸ List.mem_cons_self)
    exact (same_closed (r id') hne).trans (ih fun hmem => h (List.mem_cons_of_mem _ hmem))

theorem gone_foldl_closed (r : SessionId → CloseReason) (hnd : ids.Nodup) (h : id ∈ ids) :
    Gone (ids.foldl (fun s id => s.closed id (r id)) s) id := by
  induction ids generalizing s with
  | nil => cases h
  | cons id' ids ih =>
    obtain ⟨hnot, hnd⟩ := List.nodup_cons.1 hnd
    rcases List.mem_cons.1 h with rfl | h
    · exact (gone_closed (r id)).same (same_foldl_closed r hnot)
    · exact ih hnd h

theorem acts_foldl_closed (r : SessionId → CloseReason) : (ids.foldl (fun s id => s.closed id (r id)) s).acts =
    s.acts ++ ids.flatMap fun id => [.emitted (.connectionClosed id (r id)), .disconnect id] := by
  induction ids generalizing s with
  | nil => simp
  | cons id ids ih =>
    rw [List.foldl_cons, ih, Server.closed, List.flatMap_cons, List.append_assoc]

theorem disconnects_flatMap (r : SessionId → CloseReason) : (ids.flatMap fun id =>
    [Act.emitted (.connectionClosed id (r id)), .disconnect id]).filterMap Act.disconnect? = ids := by
  induction ids with
  | nil => rfl
  | cons id ids ih =>
    show id :: (ids.flatMap _).filterMap Act.disconnect? = id :: ids
    rw [ih]

theorem events_flatMap (r : SessionId → CloseReason) : (ids.flatMap fun id =>
    [Act.emitted (.connectionClosed id (r id)), .disconnect id]).filterMap Act.event? =
      ids.map fun id => .connectionClosed id (r id) := by
  induction ids with
  | nil => rfl
  | cons id ids ih =>
    show .connectionClosed id (r id) :: (ids.flatMap _).filterMap Act.event? = _
    rw [ih, List.map_cons]

/-- Whatever each `disconnect` comes to and whenever the time runs out: every session is disconnected once, announced once
with the reason of the way it was closed, and gone. -/
theorem allClosed_of_connected (outcome : SessionId → Outcome) (expired : SessionId → Bool)
    (h : ∀ id ∈ s.activeSessions, s.stateManager.states id = some .connected) :
    AllClosed expired s (s.closeAllSessions outcome expired) := by
  have hnd : s.activeSessions.Nodup := s.transports.keys_nodup
  have hloop : s.closeAllSessions outcome expired =
      (.ok (), s.activeSessions.foldl (fun s id => s.closed id (reason expired id)) s) := by
    unfold Server.closeAllSessions
    split
    · next hempty => rw [List.eq_nil_of_length_eq_zero hempty, List.foldl_nil]
    · rw [closeSessions_spec hnd (fun id hid => AList.mem_keys.2 hid) h]
  rw [hloop]
  exact ⟨rfl, fun id hid => gone_foldl_closed _ hnd hid, fun id hid => same_foldl_closed _ hid,
    _, acts_foldl_closed _, disconnects_flatMap _, events_flatMap _⟩

def threeSessions : Server Unit Unit where
  transports := ((∅ : Map SessionId Unit).insert 3 ()).insert 2 () |>.insert 1 ()
  stats := ((∅ : Map SessionId Unit).insert 3 ()).insert 2 ()
  stateManager := ((new.addConnection 1).addConnection 2).addConnection 3
  acts := []

/-- An error, a time-out, and a session that the time does not suffice for. -/
theorem allClosed_threeSessions :
    AllClosed (fun id => id == 3) threeSessions (threeSessions.closeAllSessions
      (fun id => if id = 1 then .error (.connection "Not connected" false) else .timeout) fun id => id == 3) := by
  refine allClosed_of_connected _ _ fun id hid => ?_
  have hid : id ∈ [1, 2, 3] := hid
  simp only [List.mem_cons, List.not_mem_nil, or_false] at hid
  rcases hid with rfl | rfl | rfl <;> rfl

end CloseAll

end Msgtrans
