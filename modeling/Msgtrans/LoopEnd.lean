import Msgtrans.TcpLoop
import Msgtrans.WebSocketLoop
import Msgtrans.QuicLoop

/-!
# The end of an event loop

The layers above clean a session up when they see `ConnectionClosed`. The TCP and the WebSocket loop
publish it exactly once, as their last event, whenever they end by themselves; the QUIC loop does unless sending a packet
failed: `closesOnce_iff`.
-/

namespace Msgtrans

def TransportEvent.Closes (e : TransportEvent) : Prop := e.isConnectionClosed = true

theorem onceAtEnd_closed (reason : CloseReason) : TurnLoop.OnceAtEnd TransportEvent.Closes [.connectionClosed reason] :=
  ⟨[], _, rfl, rfl, fun _ he => absurd he List.not_mem_nil⟩

theorem not_onceAtEnd_nil : ¬ TurnLoop.OnceAtEnd TransportEvent.Closes [] := by
  rintro ⟨before, e, h, -⟩
  exact List.append_ne_nil_of_right_ne_nil before (List.cons_ne_nil e []) h.symm

namespace TcpLoop

def ClosesOnce (os : List Outcome) : Prop :=
  TurnLoop.Announces turn TransportEvent.Closes (fun o => o ≠ .shutdown) (fun o => o = .shutdown) os

theorem eventLoop_eq (os : List Outcome) : eventLoop os = TurnLoop.emitted turn os := by
  induction os with
  | nil => rfl
  | cons o os ih => rw [eventLoop, TurnLoop.emitted, ih]

theorem turn_cases (o : Outcome) : ((turn o).2 = true ∧ ∀ e ∈ (turn o).1, ¬ e.Closes) ∨
    (∃ reason, turn o = ([.connectionClosed reason], false)) ∨ o = .shutdown := by
  rcases o with result | ⟨packet, write⟩ | _
  · by_cases hp : ∃ p, readPacket result = .ok (some p)
    · obtain ⟨p, hp⟩ := hp
      rw [turn_read hp]
      refine .inl ⟨rfl, fun e he => ?_⟩
      rw [List.mem_singleton.1 he]
      exact Bool.false_ne_true
    · exact .inr (.inl (turn_read_closed fun p h => hp ⟨p, h⟩))
  · by_cases hq : packet = none ∨ write = .ok ()
    · obtain ⟨hgo, -, hopen⟩ := turn_queue hq
      exact .inl ⟨hgo, fun e he hc => Bool.noConfusion (hc.symm.trans (hopen e he))⟩
    · obtain ⟨hp, hw⟩ := not_or.1 hq
      cases packet with
      | none => exact absurd rfl hp
      | some p =>
        cases write with
        | ok _ => exact absurd rfl hw
        | error e => exact .inr (.inl ⟨_, rfl⟩)
  · exact .inr (.inr rfl)

theorem closesOnce (os : List Outcome) : ClosesOnce os := by
  refine (TurnLoop.announces_iff (fun o hgo => ?_) ?_).2 fun o _ hend howed => ?_
  · rcases turn_cases o with ⟨-, h⟩ | ⟨reason, h⟩ | rfl
    · exact h
    · rw [h] at hgo
      cases hgo
    · cases hgo
  · rintro o rfl e he
    cases he
  · rcases turn_cases o with ⟨hgo, -⟩ | ⟨reason, h⟩ | h
    · rw [hgo] at hend
      cases hend
    · rw [h]
      exact onceAtEnd_closed reason
    · exact absurd h howed

end TcpLoop

namespace WebSocketLoop

def ClosesOnce (os : List Outcome) : Prop :=
  TurnLoop.Announces turn TransportEvent.Closes (fun o => o ≠ .shutdown) (fun o => o = .shutdown) os

theorem closesOnce (os : List Outcome) : ClosesOnce os := by
  refine (TurnLoop.announces_iff (fun o hgo e he => ?_) ?_).2 fun o _ hend howed => ?_
  · unfold turn at hgo he
    rcases select_cases o with ⟨event, ho, hevent⟩ | ho | ⟨reason, ho⟩ | rfl
    · rw [ho] at he
      rw [List.mem_singleton.1 he]
      exact fun hc => Bool.noConfusion (hc.symm.trans hevent)
    · rw [ho] at he
      cases he
    · rw [ho] at hgo
      cases hgo
    · cases hgo
  · rintro o rfl e he
    cases he
  · unfold turn at hend ⊢
    rcases select_cases o with ⟨event, ho, -⟩ | ho | ⟨reason, ho⟩ | h
    · rw [ho] at hend
      cases hend
    · rw [ho] at hend
      cases hend
    · rw [ho]
      exact onceAtEnd_closed reason
    · exact absurd h howed

end WebSocketLoop

namespace QuicLoop

def ClosesOnce (os : List Outcome) : Prop :=
  TurnLoop.Announces turn TransportEvent.Closes (fun o => o ≠ .shutdown ∧ ¬ o.LocalClose) (fun o => o = .shutdown) os

theorem turn_goesOn {o : Outcome} (h : (turn o).2 = true) : ∀ e ∈ (turn o).1, ¬ e.Closes := by
  rcases o with (e | (e | buf)) | ⟨_ | packet, e | e | (_ | _)⟩ | _ <;> simp_all [turn, TransportEvent.Closes,
    TransportEvent.isConnectionClosed]

/-- An end of the loop that the upper layers wait for publishes, unless it is a failure to send. -/
theorem onceAtEnd_turn_iff {o : Outcome} (hend : (turn o).2 = false) (hne : o ≠ .shutdown) (hlocal : ¬ o.LocalClose) :
    TurnLoop.OnceAtEnd TransportEvent.Closes (turn o).1 ↔ ¬ o.SendFails := by
  rcases o with (e | (e | buf)) | ⟨_ | packet, e | e | (_ | _)⟩ | _
  · refine iff_of_true ?_ id
    cases e with
    | locallyClosed => exact absurd rfl hlocal
    | _ => exact onceAtEnd_closed _
  · exact iff_of_true (onceAtEnd_closed _) id
  · cases hend
  · cases hend
  · cases hend
  · cases hend
  · cases hend
  · exact iff_of_false not_onceAtEnd_nil (not_not.2 hlocal)
  · exact iff_of_false not_onceAtEnd_nil (not_not.2 hlocal)
  · cases hend
  · cases hend
  · exact absurd rfl hne

theorem not_goesOn_of_sendFails {o : Outcome} (h : o.SendFails) : (turn o).2 = false ∧ o ≠ .shutdown ∧ ¬ o.LocalClose := by
  rcases o with (e | (e | buf)) | ⟨_ | packet, e | e | (_ | _)⟩ | _
  all_goals first
    | exact h.elim
    | exact ⟨rfl, nofun, h⟩

theorem closesOnce_iff_sends (os : List Outcome) :
    ClosesOnce os ↔ ∀ o, TurnLoop.Taken turn os o → ¬ o.SendFails := by
  refine (TurnLoop.announces_iff (fun o => turn_goesOn) ?_).trans ⟨fun h o htaken hfails => ?_, fun h o htaken hend ho => ?_⟩
  · rintro o rfl e he
    cases he
  · obtain ⟨hend, hne, hlocal⟩ := not_goesOn_of_sendFails hfails
    exact (onceAtEnd_turn_iff hend hne hlocal).1 (h o htaken hend ⟨hne, hlocal⟩) hfails
  · exact (onceAtEnd_turn_iff hend ho.1 ho.2).2 (h o htaken)

end QuicLoop

namespace LoopEnd

/-- Over any outcomes, the TCP and the WebSocket loop announce their end; the QUIC loop does exactly when it does not come to
a packet whose stream cannot be opened or written. -/
theorem closesOnce_iff (ts : List TcpLoop.Outcome) (ws : List WebSocketLoop.Outcome) (qs : List QuicLoop.Outcome) :
    TcpLoop.ClosesOnce ts ∧ WebSocketLoop.ClosesOnce ws ∧
      (QuicLoop.ClosesOnce qs ↔ ∀ o, TurnLoop.Taken QuicLoop.turn qs o → ¬ o.SendFails) :=
  ⟨TcpLoop.closesOnce ts, WebSocketLoop.closesOnce ws, QuicLoop.closesOnce_iff_sends qs⟩

/-- The peer has reset the connection and the next packet of the queue finds it out: the loop is gone and nobody is told. -/
theorem quic_send_failure_silent :
    let os := [QuicLoop.Outcome.queue (some (.oneWay 1 [104, 105])) (.openFailed .reset)]
    TurnLoop.emitted QuicLoop.turn os = [] ∧ ¬ QuicLoop.ClosesOnce os := by
  intro os
  refine ⟨rfl, fun h => ?_⟩
  exact not_onceAtEnd_nil (h.owed (.queue (some (.oneWay 1 [104, 105])) (.openFailed .reset)) rfl ⟨nofun, nofun⟩)

end LoopEnd

end Msgtrans
