import Msgtrans.Lifecycle
import Msgtrans.PendingTable

/-!
# The pending requests when a connection ends

A connection ends by `close_session`, `force_close_session` or `disconnect`, or `on_event` processes its
`ConnectionClosed`. None of these comes near the `RequestTracker` (its `clear` has no caller), so requests
stay as they are (`table_of_completes`) and every waiting call runs into its own timeout. The table is
empty after such a step exactly when it was empty before: `released_iff`.
-/

namespace Msgtrans

namespace ConnectionEnd

open Requests StepSystem

structure State where
  life : Lifecycle.State
  table : PendingTable.Table

def start : State := ⟨Lifecycle.start, PendingTable.start⟩

inductive Label where
  | life (l : Lifecycle.Label)
  | disconnect
  | request (l : PendingTable.Label)

/-- The event that the consumer task passes to `on_event` in a step. -/
def processed (s : Lifecycle.State) : Lifecycle.Label → Option TransportEvent
  | .onEvent c => (s.adapters c).bind fun a =>
    match a.closedEvent with
    | .queued reason => some (.connectionClosed reason)
    | _ => none
  | _ => none

def step (lib : CompressionLib) (s : State) : Label → Option State
  | .life l => (Lifecycle.step lib s.life l).bind fun life =>
    match processed s.life l with
    | some event => (PendingTable.step lib s.table (.onEvent event)).map fun table => ⟨life, table⟩
    | none => some { s with life := life }
  | .disconnect =>
    match s.life.sessionId with
    | some sessionId => (Lifecycle.step lib s.life (.close sessionId)).map fun life => { s with life := life }
    -- "Not connected"
    | none => some s
  | .request l => (PendingTable.step lib s.table l).map fun table => { s with table := table }

/-- The step is the last of a close that has passed `try_start_closing`, or the processing of a
`ConnectionClosed`. -/
def Completes (s : State) : Label → Prop
  | .life (.closeStep k) => ∃ call, s.life.closers[k]? = some call ∧
    (call.pc = .clearAdapter ∨ call.pc = .compare ∧ s.life.sessionId ≠ some call.sessionId)
  | .life (.onEvent _) => True
  | .request (.onEvent event) => ∃ reason, event = .connectionClosed reason
  | _ => False

/-- The table is empty, and every call that waited gets the error of a dropped sender. -/
structure Released (s s' : State) : Prop where
  empty : ∀ id, s'.table.tracker.pending id = none
  dropped : ∀ (i : Nat) (c : Call Unit Packet), s.table.calls[i]? = some c → c.Pending →
    ∃ c' : Call Unit Packet, s'.table.calls[i]? = some c' ∧ c'.slot = .dropped

/-- What completes the end of a connection releases the pending requests. -/
def Releases (lib : CompressionLib) (s : State) (l : Label) : Prop :=
  Completes s l → ∀ s', step lib s l = some s' → Released s s'

/-- A connection ends only while no request is in the table. -/
def Quiescent (s : State) (l : Label) : Prop := Completes s l → ∀ id, s.table.tracker.pending id = none

variable {lib : CompressionLib} {s s' : State} {l : Label}

theorem step_life {l : Lifecycle.Label} (hs : step lib s (.life l) = some s') :
    s'.table = s.table ∨ ∃ event, processed s.life l = some event ∧
      PendingTable.step lib s.table (.onEvent event) = some s'.table := by
  obtain ⟨life, -, hs⟩ := Option.bind_eq_some_iff.1 hs
  split at hs
  · next event hp =>
    obtain ⟨table, ht, rfl⟩ := Option.map_eq_some_iff.1 hs
    exact .inr ⟨event, hp, ht⟩
  · cases hs
    exact .inl rfl

theorem linked_step (h : Linked s.table) (hs : step lib s l = some s') : Linked s'.table := by
  cases l with
  | life l =>
    rcases step_life hs with heq | ⟨event, -, ht⟩
    · rw [heq]
      exact h
    · exact PendingTable.linked_step h ht
  | disconnect =>
    simp only [step] at hs
    split at hs
    · obtain ⟨life, -, rfl⟩ := Option.map_eq_some_iff.1 hs
      exact h
    · cases hs
      exact h
  | request l =>
    obtain ⟨table, ht, rfl⟩ := Option.map_eq_some_iff.1 hs
    exact PendingTable.linked_step h ht

/-- `on_event` has nothing for the tracker in a `ConnectionClosed`. -/
theorem table_of_connectionClosed {t t' : PendingTable.Table} {reason : CloseReason}
    (hs : PendingTable.step lib t (.onEvent (.connectionClosed reason)) = some t') : t' = t := by
  cases hs
  rfl

theorem processed_connectionClosed {s : Lifecycle.State} {l : Lifecycle.Label} {event : TransportEvent}
    (h : processed s l = some event) : ∃ reason, event = .connectionClosed reason := by
  unfold processed at h
  split at h
  · obtain ⟨a, -, h⟩ := Option.bind_eq_some_iff.1 h
    split at h
    · next reason _ =>
      cases h
      exact ⟨reason, rfl⟩
    · cases h
  · cases h

/-- The end of a connection leaves every request as it is. -/
theorem table_of_completes (hs : step lib s l = some s') (hc : Completes s l) : s'.table = s.table := by
  unfold Completes at hc
  split at hc
  · rcases step_life hs with heq | ⟨event, hp, -⟩
    · exact heq
    · cases hp
  · rcases step_life hs with heq | ⟨event, hp, ht⟩
    · exact heq
    · obtain ⟨reason, rfl⟩ := processed_connectionClosed hp
      exact table_of_connectionClosed ht
  · obtain ⟨reason, rfl⟩ := hc
    cases hs
    rfl
  · exact hc.elim

theorem releases_iff (h : Linked s.table) (hs : step lib s l = some s') : Releases lib s l ↔ Quiescent s l := by
  constructor
  · intro hrel hc id
    rw [← table_of_completes hs hc]
    exact (hrel hc s' hs).empty id
  · intro hempty hc t ht
    have hid := hempty hc
    refine ⟨fun id => ?_, fun i c hcall hwait => ?_⟩
    · rw [table_of_completes ht hc]
      exact hid id
    · -- a waiting call has its entry, and there is none
      exact nomatch (h.owns i c hcall hwait).symm.trans (hid c.id)

/-- In every run, the requests are released whenever the connection ends exactly when it ends only while
the table is empty. -/
theorem released_iff {ls : List Label} (hr : run (step lib) start ls = some s) :
    Meets (step lib) (Releases lib) start ls ↔ Meets (step lib) Quiescent start ls :=
  meets_congr (I := fun s => Linked s.table) (fun _ _ _ hs h => linked_step h hs)
    (fun _ _ _ hs h => releases_iff h hs) hr .start

/-- A TCP connection is installed as session 1. -/
def connect : List Label := [.life (.connect 0 .tcp), .life (.install 0 1), .life (.installStep 0),
  .life (.installStep 0), .life (.installStep 0), .life (.installStep 0), .life (.subscribe 0)]

/-- A request is sent and waits. -/
def ask : List Label := [.request (.request (.request 7 [1])), .request (.register 0), .request (.sent 0 true)]

theorem released_iff_answered :
    let ls := connect ++ ask ++ [.request (.onEvent (.messageReceived (.response 7 [2]))),
      .life (.loopClosed 0 .normal), .life (.onEvent 0)]
    Meets (step ⟨none, none⟩) (Releases ⟨none, none⟩) start ls ↔ Meets (step ⟨none, none⟩) Quiescent start ls :=
  released_iff (s := _) rfl

/-- A request waits while its connection ends, by `disconnect` or by the peer: its entry stays. -/
theorem request_hangs :
    (∃ s, run (step ⟨none, none⟩) start (connect ++ ask ++ [.disconnect, .life (.closeStep 0), .life (.closeStep 0),
        .life (.loopShutdown 0), .life (.closeStep 0), .life (.closeStep 0), .life (.closeStep 0),
        .life (.closeStep 0)]) = some s ∧ ¬ Releases ⟨none, none⟩ s (.life (.closeStep 0))) ∧
    ∃ s, run (step ⟨none, none⟩) start (connect ++ ask ++ [.life (.loopClosed 0 .normal)]) = some s ∧
      ¬ Releases ⟨none, none⟩ s (.life (.onEvent 0)) :=
  ⟨⟨_, rfl, fun h => nomatch (h ⟨_, rfl, .inl rfl⟩ _ rfl).empty 7⟩,
    ⟨_, rfl, fun h => nomatch (h trivial _ rfl).empty 7⟩⟩

end ConnectionEnd

end Msgtrans
