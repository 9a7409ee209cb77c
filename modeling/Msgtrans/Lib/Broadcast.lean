import Mathlib.Algebra.Group.Nat.Defs
import Mathlib.Data.Nat.Log
import Mathlib.Logic.Function.Iterate

/-!
# Bounded broadcast channels

A channel keeps the last `cap` values sent (`tokio::sync::broadcast`: the requested capacity is rounded
up to a power of two); a receiver is the position it reads next. A receiver that fell behind the oldest
retained value gets `lagged` once and is put at that value.

`Reader` is the loop `while let Ok(v) = rx.recv().await { .. }`, which ends at any error, so also at
`lagged`. It gets all that is retained exactly as long as it is not behind: `turns_unread`,
`got_of_lagged`.
-/

namespace Broadcast

variable {α : Type*}

/-- All values ever sent; the last `cap` of them are retained. -/
structure Channel (α : Type*) where
  cap : ℕ
  sent : List α
  closed : Bool

inductive Recv (α : Type*) where
  | value (a : α)
  | lagged (missed : ℕ)
  | closed
  | pending

namespace Channel

def new (capacity : ℕ) : Channel α := ⟨2 ^ Nat.clog 2 capacity, [], false⟩

def sendAll (c : Channel α) (as : List α) : Channel α := { c with sent := c.sent ++ as }

def send (c : Channel α) (a : α) : Channel α := c.sendAll [a]

def oldest (c : Channel α) : ℕ := c.sent.length - c.cap

/-- What a receiver at `next` gets, and where it is then. -/
def recv (c : Channel α) (next : ℕ) : Recv α × ℕ :=
  if next < c.oldest then (.lagged (c.oldest - next), c.oldest) else
  match c.sent[next]? with
  | some a => (.value a, next + 1)
  | none => (if c.closed then .closed else .pending, next)

/-- The retained values a receiver at `next` has not read. -/
def unread (c : Channel α) (next : ℕ) : List α := c.sent.drop (max next c.oldest)

variable {c : Channel α} {next : ℕ}

theorem cap_new_pos (capacity : ℕ) : 0 < (new capacity : Channel α).cap := Nat.two_pow_pos _

theorem recv_lagged (h : next < c.oldest) : c.recv next = (.lagged (c.oldest - next), c.oldest) := if_pos h

theorem recv_value {a : α} (h : c.oldest ≤ next) (ha : c.sent[next]? = some a) :
    c.recv next = (.value a, next + 1) := by
  rw [recv, if_neg (Nat.not_lt.2 h), ha]

theorem recv_end (h : c.oldest ≤ next) (hn : c.sent.length ≤ next) :
    c.recv next = (if c.closed then .closed else .pending, next) := by
  rw [recv, if_neg (Nat.not_lt.2 h), List.getElem?_eq_none hn]

theorem unread_eq (h : c.oldest ≤ next) : c.unread next = c.sent.drop next := by
  rw [unread, Nat.max_eq_left h]

theorem unread_ne_nil_of_lagged (hcap : 0 < c.cap) (h : next < c.oldest) : c.unread next ≠ [] := by
  rw [unread, Nat.max_eq_right (Nat.le_of_lt h)]
  intro hnil
  have := List.drop_eq_nil_iff.1 hnil
  have : c.oldest = c.sent.length - c.cap := rfl
  omega

end Channel

/-- A `while let Ok` loop: its receiver's position, whether it still runs, and what it received. -/
structure Reader (α : Type*) where
  next : ℕ
  running : Bool
  got : List α

namespace Reader

def turn (c : Channel α) (r : Reader α) : Reader α :=
  if r.running then
    match c.recv r.next with
    | (.value a, next) => { r with next := next, got := r.got ++ [a] }
    | (.pending, _) => r
    | (_, next) => { r with next := next, running := false }
  else r

/-- The value its next `recv` hands to the loop's body. -/
def taken (c : Channel α) (r : Reader α) : Option α :=
  if r.running then
    match c.recv r.next with
    | (.value a, _) => some a
    | _ => none
  else none

/-- A receiver that has just subscribed: it sees only what is sent from now on. -/
def subscribe (c : Channel α) : Reader α := ⟨c.sent.length, true, []⟩

variable {c : Channel α} {r : Reader α}

theorem turn_stopped (h : r.running = false) : r.turn c = r := by
  rw [turn, h, if_neg Bool.false_ne_true]

theorem turn_value {a : α} (hr : r.running = true) (h : c.oldest ≤ r.next) (ha : c.sent[r.next]? = some a) :
    r.turn c = { r with next := r.next + 1, got := r.got ++ [a] } := by
  rw [turn, if_pos hr, Channel.recv_value h ha]

theorem turn_pending (hr : r.running = true) (h : c.oldest ≤ r.next) (hn : c.sent.length ≤ r.next)
    (ho : c.closed = false) : r.turn c = r := by
  rw [turn, if_pos hr, Channel.recv_end h hn, ho]
  rfl

theorem turn_lagged (h : r.next < c.oldest) :
    (r.turn c).running = false ∧ (r.turn c).got = r.got := by
  by_cases hr : r.running = true
  · rw [turn, if_pos hr, Channel.recv_lagged h]
    exact ⟨rfl, rfl⟩
  · rw [turn, if_neg hr]
    exact ⟨Bool.eq_false_iff.2 hr, rfl⟩

/-- A reader that is not behind gets everything it has not read, in order. The induction is on the number
of values left. -/
theorem turns_unread (hr : r.running = true) (h : c.oldest ≤ r.next) :
    ∃ n, ((turn c)^[n] r).got = r.got ++ c.unread r.next := by
  generalize hk : c.sent.length - r.next = k
  induction k generalizing r with
  | zero =>
    refine ⟨0, ?_⟩
    rw [Channel.unread_eq h, List.drop_eq_nil_of_le (by omega), List.append_nil]
    rfl
  | succ k ih =>
    have hlt : r.next < c.sent.length := by omega
    have hturn := turn_value hr h (List.getElem?_eq_getElem hlt)
    obtain ⟨n, hn⟩ := ih (r := r.turn c) (by rw [hturn]; exact hr) (by rw [hturn]; exact Nat.le_succ_of_le h)
      (by rw [hturn]; show c.sent.length - (r.next + 1) = k; omega)
    refine ⟨n + 1, ?_⟩
    have hle : c.oldest ≤ r.next + 1 := Nat.le_succ_of_le h
    rw [Function.iterate_succ_apply, hn, hturn, Channel.unread_eq h, List.drop_eq_getElem_cons hlt]
    show r.got ++ [_] ++ c.unread (r.next + 1) = _
    rw [Channel.unread_eq hle, List.append_assoc, List.singleton_append]

theorem turns_stopped (h : r.running = false) (n : ℕ) : (turn c)^[n] r = r := by
  induction n with
  | zero => rfl
  | succ n ih => rw [Function.iterate_succ_apply, turn_stopped h, ih]

theorem got_of_lagged (h : r.next < c.oldest) (n : ℕ) : ((turn c)^[n] r).got = r.got := by
  cases n with
  | zero => rfl
  | succ n =>
    obtain ⟨hstop, hgot⟩ := turn_lagged h
    rw [Function.iterate_succ_apply, turns_stopped hstop, hgot]

end Reader

/-- The reader runs and has missed nothing since it subscribed. -/
structure Follows (c : Channel α) (r : Reader α) : Prop where
  running : r.running = true
  oldest_le : c.oldest ≤ r.next
  next_le : r.next ≤ c.sent.length

namespace Follows

variable {c : Channel α} {r : Reader α}

theorem subscribe (c : Channel α) : Follows c (.subscribe c) := ⟨rfl, Nat.sub_le _ _, Nat.le_refl _⟩

theorem sendAll (h : Follows c r) {as : List α} (hroom : c.sent.length + as.length ≤ r.next + c.cap) :
    Follows (c.sendAll as) r := by
  have hlen : (c.sendAll as).sent.length = c.sent.length + as.length := List.length_append
  have := h.next_le
  refine ⟨h.running, ?_, by omega⟩
  show (c.sendAll as).sent.length - c.cap ≤ r.next
  omega

/-- One turn takes the next value off what is left, or there is nothing left. -/
theorem turn (h : Follows c r) (ho : c.closed = false) :
    (∃ a, c.sent.drop r.next = a :: c.sent.drop (r.next + 1) ∧ r.taken c = some a ∧
      r.turn c = { r with next := r.next + 1, got := r.got ++ [a] } ∧ Follows c (r.turn c)) ∨
    c.sent.drop r.next = [] ∧ r.taken c = none ∧ r.turn c = r := by
  rcases Nat.lt_or_ge r.next c.sent.length with hlt | hge
  · have hget := List.getElem?_eq_getElem hlt
    have hturn := Reader.turn_value h.running h.oldest_le hget
    refine .inl ⟨_, List.drop_eq_getElem_cons hlt, ?_, hturn, ?_⟩
    · rw [Reader.taken, if_pos h.running, Channel.recv_value h.oldest_le hget]
    · rw [hturn]
      exact ⟨h.running, Nat.le_succ_of_le h.oldest_le, hlt⟩
  · refine .inr ⟨List.drop_eq_nil_of_le hge, ?_, Reader.turn_pending h.running h.oldest_le hge ho⟩
    rw [Reader.taken, if_pos h.running, Channel.recv_end h.oldest_le hge, ho]
    rfl

end Follows

end Broadcast
