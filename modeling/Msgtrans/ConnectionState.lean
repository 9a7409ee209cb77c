import Msgtrans.Event

/-!
# The connection state manager (`transport/connection_state.rs`)

A table from session ids to `Connected`, `Closing` or `Closed`; `tryStartClosing` lets one closer through.
-/

namespace Msgtrans

namespace ConnectionStateManager

inductive ConnectionState where
  | connected | closing | closed
deriving DecidableEq, Repr

end ConnectionStateManager

/-- The `states` table. -/
structure ConnectionStateManager where
  states : SessionId → Option ConnectionStateManager.ConnectionState

namespace ConnectionStateManager

def new : ConnectionStateManager := ⟨fun _ => none⟩

def set (m : ConnectionStateManager) (sessionId : SessionId) (state : Option ConnectionState) :
    ConnectionStateManager := ⟨fun id => if id = sessionId then state else m.states id⟩

def addConnection (m : ConnectionStateManager) (sessionId : SessionId) : ConnectionStateManager :=
  m.set sessionId (some .connected)

def tryStartClosing (m : ConnectionStateManager) (sessionId : SessionId) : Bool × ConnectionStateManager :=
  match m.states sessionId with
  | some .connected => (true, m.set sessionId (some .closing))
  | _ => (false, m)

def markClosed (m : ConnectionStateManager) (sessionId : SessionId) : ConnectionStateManager :=
  match m.states sessionId with
  | some _ => m.set sessionId (some .closed)
  | none => m

def removeConnection (m : ConnectionStateManager) (sessionId : SessionId) : ConnectionStateManager :=
  m.set sessionId none

end ConnectionStateManager

end Msgtrans
