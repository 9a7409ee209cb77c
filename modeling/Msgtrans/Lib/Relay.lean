import Msgtrans.Lib.Broadcast

/-!
# Tasks that work through a broadcast channel

A `Relay` reads one value, works on it, and reads the next one only when it is done with it:
`while let Ok(v) = rx.recv().await { work(v).await }`. Its loop ends at the first lag, so what it has worked on is
a prefix of what was sent since it subscribed (`On.handled_isPrefix`), and all of it once it has caught up
(`On.handled_of_caughtUp`).
-/

namespace Broadcast

variable {α β : Type*}

structure Relay (α : Type*) where
  /-- where the channel was when it subscribed -/
  start : ℕ
  reader : Reader α
  handled : List α
  /-- read and not done yet -/
  working : Option α

namespace Relay

def subscribe (c : Channel α) : Relay α := ⟨c.sent.length, .subscribe c, [], none⟩

def poll (c : Channel α) (r : Relay α) : Relay α :=
  match r.working with
  | none => { r with reader := r.reader.turn c, working := r.reader.taken c }
  | some _ => r

/-- The value it is done with. -/
def finish (r : Relay α) : Option (α × Relay α) :=
  r.working.map fun a => (a, { r with handled := r.handled ++ [a], working := none })

/-- It runs, has read all there is and has nothing left to do. -/
def CaughtUp (c : Channel α) (r : Relay α) : Prop :=
  r.reader.running = true ∧ r.reader.next = c.sent.length ∧ r.working = none

instance (c : Channel α) (r : Relay α) : Decidable (r.CaughtUp c) :=
  match h : r.working with
  | none => decidable_of_iff (r.reader.running = true ∧ r.reader.next = c.sent.length) (by simp [CaughtUp, h])
  | some _ => isFalse fun hc => by rw [hc.2.2] at h; cases h

/-- The relay is one of this channel. -/
structure On (c : Channel α) (r : Relay α) : Prop where
  start_le : r.start ≤ c.sent.length
  got : r.reader.got <+: c.sent.drop r.start
  next : r.reader.running = true → r.reader.next = r.start + r.reader.got.length
  worked : r.reader.got = r.handled ++ r.working.toList

variable {c : Channel α} {r r' : Relay α} {a : α}

theorem On.subscribe (c : Channel α) : On c (.subscribe c) :=
  ⟨Nat.le_refl _, List.nil_prefix, fun _ => rfl, rfl⟩

theorem On.sendAll (h : On c r) (as : List α) : On (c.sendAll as) r := by
  refine ⟨?_, ?_, h.next, h.worked⟩
  · show r.start ≤ (c.sent ++ as).length
    rw [List.length_append]
    exact Nat.le_add_right_of_le h.start_le
  · show r.reader.got <+: (c.sent ++ as).drop r.start
    rw [List.drop_append_of_le_length h.start_le]
    exact h.got.trans (List.prefix_append ..)

/-- A turn that gets a value gets the one after those it has; the others get none. -/
theorem turn_cases (c : Channel α) (r : Reader α) :
    (∃ a, r.taken c = some a ∧ r.running = true ∧ c.sent[r.next]? = some a ∧
      r.turn c = { r with next := r.next + 1, got := r.got ++ [a] }) ∨
    r.taken c = none ∧ (r.turn c).got = r.got ∧ ((r.turn c).running = true → r.running = true ∧ (r.turn c).next = r.next) := by
  by_cases hr : r.running = true
  · rcases Nat.lt_or_ge r.next c.oldest with hlag | hle
    · right
      rw [Reader.taken, Reader.turn, if_pos hr, if_pos hr, Channel.recv_lagged hlag]
      exact ⟨rfl, rfl, fun h => Bool.noConfusion h⟩
    · cases ha : c.sent[r.next]? with
      | some a =>
        left
        refine ⟨a, ?_, hr, rfl, Reader.turn_value hr hle ha⟩
        rw [Reader.taken, if_pos hr, Channel.recv_value hle ha]
      | none =>
        right
        have hend := Channel.recv_end hle (List.getElem?_eq_none_iff.1 ha)
        rw [Reader.taken, Reader.turn, if_pos hr, if_pos hr, hend]
        cases c.closed with
        | true => exact ⟨rfl, rfl, fun h => Bool.noConfusion h⟩
        | false => exact ⟨rfl, rfl, fun _ => ⟨hr, rfl⟩⟩
  · right
    rw [Reader.taken, Reader.turn, if_neg hr, if_neg hr]
    exact ⟨rfl, rfl, fun h => absurd h hr⟩

theorem On.poll (h : On c r) : On c (r.poll c) := by
  unfold Relay.poll
  cases hw : r.working with
  | some b => exact h
  | none =>
    have hworked := h.worked
    rw [hw, Option.toList_none, List.append_nil] at hworked
    rcases turn_cases c r.reader with ⟨a, htaken, hrun, ha, hturn⟩ | ⟨htaken, hgot, hnext⟩
    · have hn := h.next hrun
      refine ⟨h.start_le, ?_, fun _ => ?_, ?_⟩
      · -- the values it has are the first ones since `start`, and this is the next one
        obtain ⟨rest, hrest⟩ := h.got
        have hat : rest[0]? = some a := by
          have : (c.sent.drop r.start)[r.reader.got.length]? = some a := by
            rw [List.getElem?_drop, ← hn]
            exact ha
          rwa [← hrest, List.getElem?_append_right (Nat.le_refl _), Nat.sub_self] at this
        obtain ⟨b, rest, rfl⟩ : ∃ b rest', rest = b :: rest' := by
          cases rest with
          | nil => cases hat
          | cons b rest => exact ⟨b, rest, rfl⟩
        cases hat
        show (r.reader.turn c).got <+: c.sent.drop r.start
        rw [hturn, ← hrest]
        exact ⟨rest, by rw [List.append_assoc, List.singleton_append]⟩
      · show (r.reader.turn c).next = r.start + (r.reader.turn c).got.length
        rw [hturn]
        show r.reader.next + 1 = r.start + (r.reader.got ++ [a]).length
        rw [hn, List.length_append]
        rfl
      · show (r.reader.turn c).got = r.handled ++ (r.reader.taken c).toList
        rw [hturn, htaken, ← hworked]
        rfl
    · refine ⟨h.start_le, ?_, fun hrun => ?_, ?_⟩
      · show (r.reader.turn c).got <+: _
        rw [hgot]
        exact h.got
      · obtain ⟨hrun, hn⟩ := hnext hrun
        show (r.reader.turn c).next = r.start + (r.reader.turn c).got.length
        rw [hgot, hn]
        exact h.next hrun
      · show (r.reader.turn c).got = r.handled ++ (r.reader.taken c).toList
        rw [hgot, htaken, hworked]
        exact (List.append_nil _).symm

theorem finish_eq_some : r.finish = some (a, r') ↔
    r.working = some a ∧ r' = { r with handled := r.handled ++ [a], working := none } := by
  rw [finish, Option.map_eq_some_iff]
  constructor
  · rintro ⟨b, hb, heq⟩
    cases heq
    exact ⟨hb, rfl⟩
  · rintro ⟨ha, rfl⟩
    exact ⟨a, ha, rfl⟩

theorem On.finish (h : On c r) (hf : r.finish = some (a, r')) : On c r' ∧ r'.handled = r.handled ++ [a] ∧ r'.start = r.start := by
  obtain ⟨ha, rfl⟩ := finish_eq_some.1 hf
  refine ⟨⟨h.start_le, h.got, h.next, ?_⟩, rfl, rfl⟩
  show r.reader.got = r.handled ++ [a] ++ []
  rw [h.worked, ha]
  exact (List.append_nil _).symm

@[simp] theorem handled_poll (c : Channel α) (r : Relay α) : (r.poll c).handled = r.handled := by
  unfold poll
  split <;> rfl

@[simp] theorem start_poll (c : Channel α) (r : Relay α) : (r.poll c).start = r.start := by
  unfold poll
  split <;> rfl

theorem On.handled_isPrefix (h : On c r) : r.handled <+: c.sent.drop r.start := by
  have hgot := h.got
  rw [h.worked] at hgot
  exact (List.prefix_append ..).trans hgot

theorem On.mem_of_working (h : On c r) (ha : r.working = some a) : a ∈ c.sent := by
  refine List.mem_of_mem_drop (h.got.subset ?_)
  rw [h.worked, ha]
  exact List.mem_append_right _ List.mem_cons_self

theorem On.handled_of_caughtUp (h : On c r) (hc : r.CaughtUp c) : r.handled = c.sent.drop r.start := by
  obtain ⟨hrun, hnext, hw⟩ := hc
  have hworked := h.worked
  rw [hw, Option.toList_none, List.append_nil] at hworked
  rw [← hworked]
  refine h.got.eq_of_length ?_
  have := h.next hrun
  rw [List.length_drop]
  omega

end Relay

end Broadcast
