import Mathlib.Data.List.Basic
import Mathlib.Data.List.Infix
import Msgtrans.Lib.Broadcast
import Msgtrans.Lib.Run

/-!
# Streams over a broadcast channel

A stream reads its receiver in a loop until a value is what the call asks for; unlike a `while let Ok` loop it goes on after a
lag. Calls of several kinds may share one receiver: what one of them passes over is lost to the others. `Accounts` says where
every value sent since the subscription has gone, and `turns_find` what one call returns.
-/

namespace Broadcast

/-- What the kinds of calls make of a value, and whether they wait when there is none. -/
structure Calls (μ α β : Type*) where
  accept : μ → α → Option β
  waits : μ → Bool

inductive Outcome (β : Type*) where
  | item (b : β)
  | empty
  | closed

def Outcome.item? {β : Type*} : Outcome β → Option β
  | .item b => some b
  | _ => none

structure Stream (μ α β : Type*) where
  /-- where the channel was when it subscribed -/
  start : ℕ
  next : ℕ
  calling : Option μ
  /-- every value received, with the kind of the call that received it -/
  read : List (μ × α)
  /-- the sum of the lags -/
  missed : ℕ
  returned : List (μ × Outcome β)

namespace Stream

inductive Label (μ α : Type*) where
  | send (a : α)
  /-- the last sender is dropped -/
  | close
  | call (m : μ)
  | turn

variable {μ α β : Type*}

def subscribe (c : Channel α) : Stream μ α β := ⟨c.sent.length, c.sent.length, none, [], 0, []⟩

def give (s : Stream μ α β) (m : μ) (o : Outcome β) : Stream μ α β :=
  { s with calling := none, returned := s.returned ++ [(m, o)] }

/-- One turn of the loop of a call of kind `m`. -/
def turnOf (k : Calls μ α β) (c : Channel α) (s : Stream μ α β) (m : μ) : Stream μ α β :=
  match c.recv s.next with
  | (.value a, next) =>
    let s := { s with next := next, read := s.read ++ [(m, a)] }
    match k.accept m a with
    | some b => s.give m (.item b)
    | none => s
  | (.lagged n, next) => { s with next := next, missed := s.missed + n }
  | (.closed, _) => s.give m .closed
  | (.pending, _) => if k.waits m then s else s.give m .empty

def turn (k : Calls μ α β) (c : Channel α) (s : Stream μ α β) : Stream μ α β :=
  match s.calling with
  | some m => s.turnOf k c m
  | none => s

def step (k : Calls μ α β) : Channel α × Stream μ α β → Label μ α → Option (Channel α × Stream μ α β)
  | (c, s), .send a => if c.closed then none else some (c.send a, s)
  | (c, s), .close => some ({ c with closed := true }, s)
  | (c, s), .call m =>
    match s.calling with
    | some _ => none
    | none => some (c, { s with calling := some m })
  | (c, s), .turn => some (c, s.turn k c)

/-- The items returned, with the kinds of the calls. -/
def items (s : Stream μ α β) : List (μ × β) := s.returned.filterMap fun r => r.2.item?.map (r.1, ·)

def passed (k : Calls μ α β) (read : List (μ × α)) : List (μ × β) :=
  read.filterMap fun r => (k.accept r.1 r.2).map (r.1, ·)

/-- Where the values sent since the subscription are. -/
structure Accounts (k : Calls μ α β) (c : Channel α) (s : Stream μ α β) : Prop where
  start_le : s.start ≤ s.next
  next_le : s.next ≤ c.sent.length
  count : s.start + s.read.length + s.missed = s.next
  order : (s.read.map Prod.snd).Sublist ((c.sent.take s.next).drop s.start)
  /-- what is still retained and is behind the receiver has been read -/
  recent : (c.sent.take s.next).drop (max s.start c.oldest) <:+ s.read.map Prod.snd
  items : s.items = passed k s.read
  ended : ∀ m, (m, Outcome.closed) ∈ s.returned → c.closed = true ∧ s.next = c.sent.length
  waited : ∀ m, (m, Outcome.empty) ∈ s.returned → k.waits m = false

section

variable {k : Calls μ α β} {c : Channel α} {s : Stream μ α β} {m : μ} {a : α} {b : β} {o : Outcome β}

/-! ### What a turn does -/

theorem turnOf_lagged (h : s.next < c.oldest) :
    s.turnOf k c m = { s with next := c.oldest, missed := s.missed + (c.oldest - s.next) } := by
  rw [turnOf, Channel.recv_lagged h]

theorem turnOf_value (h : c.oldest ≤ s.next) (ha : c.sent[s.next]? = some a) :
    s.turnOf k c m = match k.accept m a with
      | some b => { s with next := s.next + 1, read := s.read ++ [(m, a)] }.give m (.item b)
      | none => { s with next := s.next + 1, read := s.read ++ [(m, a)] } := by
  rw [turnOf, Channel.recv_value h ha]

theorem turnOf_end (h : c.oldest ≤ s.next) (hn : c.sent.length ≤ s.next) :
    s.turnOf k c m = if c.closed then s.give m .closed else if k.waits m then s else s.give m .empty := by
  rw [turnOf, Channel.recv_end h hn]
  rcases c.closed <;> rfl

/-! ### The invariant -/

theorem items_append (s : Stream μ α β) (r : μ × Outcome β) :
    { s with returned := s.returned ++ [r] }.items = s.items ++ (r.2.item?.map (r.1, ·)).toList := by
  rw [items, List.filterMap_append]
  rcases h : r.2.item? with _ | b <;> simp [items, h]

theorem passed_append (k : Calls μ α β) (read : List (μ × α)) (m : μ) (a : α) :
    passed k (read ++ [(m, a)]) = passed k read ++ ((k.accept m a).map (m, ·)).toList := by
  rw [passed, List.filterMap_append]
  rcases h : k.accept m a with _ | b <;> simp [passed, h]

theorem Accounts.subscribe (k : Calls μ α β) (c : Channel α) : Accounts k c (.subscribe c) := by
  refine ⟨Nat.le_refl _, Nat.le_refl _, rfl, List.nil_sublist _, ?_, rfl, fun m hm => absurd hm List.not_mem_nil,
    fun m hm => absurd hm List.not_mem_nil⟩
  show (c.sent.take c.sent.length).drop (max c.sent.length c.oldest) <:+ []
  rw [List.take_length, List.drop_eq_nil_of_le (Nat.le_max_left ..)]

theorem Accounts.send (ho : c.closed = false) (h : Accounts k c s) (a : α) : Accounts k (c.send a) s := by
  have htake : (c.sent ++ [a]).take s.next = c.sent.take s.next := List.take_append_of_le_length h.next_le
  have hlen : (c.send a).sent.length = c.sent.length + 1 := List.length_append
  refine ⟨h.start_le, by have := h.next_le; omega, h.count, ?_, ?_, h.items, fun m hm => ?_, h.waited⟩
  · show (s.read.map Prod.snd).Sublist (((c.sent ++ [a]).take s.next).drop s.start)
    rw [htake]
    exact h.order
  · show ((c.sent ++ [a]).take s.next).drop (max s.start (c.send a).oldest) <:+ _
    rw [htake]
    -- the window has only moved on
    have hle : max s.start c.oldest ≤ max s.start (c.send a).oldest := by
      have : c.oldest ≤ (c.send a).oldest := by
        show _ - c.cap ≤ _ - c.cap
        omega
      omega
    obtain ⟨d, hd⟩ := Nat.exists_eq_add_of_le hle
    rw [hd, ← List.drop_drop]
    exact (List.drop_suffix ..).trans h.recent
  · rw [(h.ended m hm).1] at ho
    cases ho

theorem Accounts.close (h : Accounts k c s) : Accounts k { c with closed := true } s :=
  ⟨h.start_le, h.next_le, h.count, h.order, h.recent, h.items, fun m hm => ⟨rfl, (h.ended m hm).2⟩, h.waited⟩

theorem Accounts.call (h : Accounts k c s) (m : Option μ) : Accounts k c { s with calling := m } :=
  ⟨h.start_le, h.next_le, h.count, h.order, h.recent, h.items, h.ended, h.waited⟩

/-- An answer without an item. -/
theorem Accounts.give (hitem : o.item? = none) (hended : o = .closed → c.closed = true ∧ s.next = c.sent.length)
    (hwaited : o = .empty → k.waits m = false) (h : Accounts k c s) : Accounts k c (s.give m o) := by
  refine ⟨h.start_le, h.next_le, h.count, h.order, h.recent, ?_, fun m' hm => ?_, fun m' hm => ?_⟩
  · refine (items_append s (m, o)).trans ?_
    rw [h.items, hitem]
    exact List.append_nil _
  · obtain hm | hm := List.mem_append.1 hm
    · exact h.ended m' hm
    · exact hended (Prod.mk.inj (List.mem_singleton.1 hm)).2.symm
  · obtain hm | hm := List.mem_append.1 hm
    · exact h.waited m' hm
    · obtain ⟨hm', ho⟩ := Prod.mk.inj (List.mem_singleton.1 hm)
      rw [hm']
      exact hwaited ho.symm

theorem Accounts.lagged (hlag : s.next < c.oldest) (h : Accounts k c s) :
    Accounts k c { s with next := c.oldest, missed := s.missed + (c.oldest - s.next) } := by
  have hstart := h.start_le
  have hcount := h.count
  refine ⟨by show s.start ≤ c.oldest; omega, Nat.sub_le .., ?_, ?_, ?_, h.items, fun m hm => ?_, h.waited⟩
  · show s.start + s.read.length + (s.missed + (c.oldest - s.next)) = c.oldest
    omega
  · have hpre : c.sent.take s.next <+: c.sent.take c.oldest := by
      rw [← Nat.min_eq_left (Nat.le_of_lt hlag), ← List.take_take]
      exact List.take_prefix ..
    exact h.order.trans (hpre.drop s.start).sublist
  · show (c.sent.take c.oldest).drop (max s.start c.oldest) <:+ _
    rw [List.drop_eq_nil_of_le (by rw [List.length_take]; omega)]
    exact List.nil_suffix
  · -- a receiver at the end does not lag
    have := (h.ended m hm).2
    have : c.oldest = c.sent.length - c.cap := rfl
    omega

theorem Accounts.value (hle : c.oldest ≤ s.next) (ha : c.sent[s.next]? = some a) (h : Accounts k c s) :
    Accounts k c (match k.accept m a with
      | some b => { s with next := s.next + 1, read := s.read ++ [(m, a)] }.give m (.item b)
      | none => { s with next := s.next + 1, read := s.read ++ [(m, a)] }) := by
  have hlt : s.next < c.sent.length := (List.getElem?_eq_some_iff.1 ha).1
  have hstart := h.start_le
  have hcount := h.count
  have htake : c.sent.take (s.next + 1) = c.sent.take s.next ++ [a] := by
    rw [List.take_add_one, ha]
    rfl
  have hdrop : ∀ p, p ≤ s.next → (c.sent.take (s.next + 1)).drop p = (c.sent.take s.next).drop p ++ [a] := by
    intro p hp
    rw [htake, List.drop_append_of_le_length (by rw [List.length_take]; omega)]
  have hread : (s.read ++ [(m, a)]).map Prod.snd = s.read.map Prod.snd ++ [a] := List.map_append
  have horder : ((s.read ++ [(m, a)]).map Prod.snd).Sublist ((c.sent.take (s.next + 1)).drop s.start) := by
    rw [hread, hdrop s.start hstart]
    exact h.order.append (List.Sublist.refl _)
  have hrecent : (c.sent.take (s.next + 1)).drop (max s.start c.oldest) <:+ (s.read ++ [(m, a)]).map Prod.snd := by
    rw [hread, hdrop _ (Nat.max_le.2 ⟨hstart, hle⟩)]
    obtain ⟨pre, hpre⟩ := h.recent
    exact ⟨pre, by rw [← List.append_assoc, hpre]⟩
  have hended : ∀ m', (m', Outcome.closed) ∈ s.returned → c.closed = true ∧ s.next + 1 = c.sent.length := by
    intro m' hm'
    exact absurd (h.ended m' hm').2 (Nat.ne_of_lt hlt)
  have hlen : s.start + (s.read ++ [(m, a)]).length + s.missed = s.next + 1 := by
    rw [List.length_append, List.length_singleton]
    omega
  have hpassed := passed_append k s.read m a
  rcases hacc : k.accept m a with _ | b
  · rw [hacc] at hpassed
    exact ⟨Nat.le_succ_of_le hstart, hlt, hlen, horder, hrecent, h.items.trans (hpassed.trans (List.append_nil _)).symm, hended,
      h.waited⟩
  · rw [hacc] at hpassed
    refine ⟨Nat.le_succ_of_le hstart, hlt, hlen, horder, hrecent, ?_, fun m' hm' => ?_, fun m' hm' => ?_⟩
    · refine (items_append s (m, .item b)).trans ?_
      rw [h.items]
      exact hpassed.symm
    · obtain hm' | hm' := List.mem_append.1 hm'
      · exact hended m' hm'
      · cases List.mem_singleton.1 hm'
    · obtain hm' | hm' := List.mem_append.1 hm'
      · exact h.waited m' hm'
      · cases List.mem_singleton.1 hm'

theorem Accounts.turnOf (h : Accounts k c s) (m : μ) : Accounts k c (s.turnOf k c m) := by
  obtain hlag | hle := Nat.lt_or_ge s.next c.oldest
  · rw [turnOf_lagged hlag]
    exact h.lagged hlag
  · obtain hlt | hge := Nat.lt_or_ge s.next c.sent.length
    · have ha := List.getElem?_eq_getElem hlt
      rw [turnOf_value hle ha]
      exact h.value hle ha
    · rw [turnOf_end hle hge]
      have hend : s.next = c.sent.length := Nat.le_antisymm h.next_le hge
      rcases hcl : c.closed
      · rcases hw : k.waits m
        · exact h.give rfl (fun ho => nomatch ho) fun _ => hw
        · exact h
      · exact h.give rfl (fun _ => ⟨hcl, hend⟩) fun ho => nomatch ho

theorem Accounts.step {x y : Channel α × Stream μ α β} {l : Label μ α} (hs : step k x l = some y) (h : Accounts k x.1 x.2) :
    Accounts k y.1 y.2 := by
  obtain ⟨c, s⟩ := x
  cases l with
  | send a =>
    simp only [Stream.step] at hs
    split at hs
    · cases hs
    · next ho =>
      cases hs
      exact h.send (Bool.eq_false_iff.2 ho) a
  | close =>
    cases hs
    exact h.close
  | call m =>
    simp only [Stream.step] at hs
    split at hs
    · cases hs
    · cases hs
      exact h.call (some m)
  | turn =>
    cases hs
    show Accounts k c (s.turn k c)
    unfold turn
    split
    · exact h.turnOf _
    · exact h

/-- Every run from the subscription. -/
theorem Accounts.of_run {ls : List (Label μ α)} {c' : Channel α}
    (hr : StepSystem.run (Stream.step k) (c, .subscribe c) ls = some (c', s)) :
    Accounts k c' s :=
  StepSystem.run_invariant (I := fun x => Accounts k x.1 x.2) (fun _ _ _ hs h => h.step hs) hr (.subscribe k c)

/-! ### What follows -/

/-- Without a lag nothing behind the receiver is missing. -/
theorem Accounts.read_eq (h : Accounts k c s) (hmissed : s.missed = 0) :
    s.read.map Prod.snd = (c.sent.take s.next).drop s.start := by
  refine h.order.eq_of_length ?_
  have := h.count
  have := h.next_le
  rw [List.length_map, List.length_drop, List.length_take]
  omega

/-- There is room for one value more before the receiver falls behind. -/
def Room : Channel α × Stream μ α β → Label μ α → Prop
  | (c, s), .send _ => c.sent.length < s.next + c.cap
  | _, _ => True

instance (x : Channel α × Stream μ α β) (l : Label μ α) : Decidable (Room x l) :=
  match x, l with
  | (_, _), .send _ => inferInstanceAs (Decidable (_ < _))
  | _, .close => isTrue trivial
  | _, .call _ => isTrue trivial
  | _, .turn => isTrue trivial

theorem keepsUp_turnOf (h : c.oldest ≤ s.next ∧ s.missed = 0) :
    c.oldest ≤ (s.turnOf k c m).next ∧ (s.turnOf k c m).missed = 0 := by
  obtain ⟨hle, hmissed⟩ := h
  obtain hlt | hge := Nat.lt_or_ge s.next c.sent.length
  · rw [turnOf_value hle (List.getElem?_eq_getElem hlt)]
    split <;> exact ⟨Nat.le_succ_of_le hle, hmissed⟩
  · rw [turnOf_end hle hge]
    split
    · exact ⟨hle, hmissed⟩
    · split <;> exact ⟨hle, hmissed⟩

theorem keepsUp_step {x y : Channel α × Stream μ α β} {l : Label μ α} (hs : step k x l = some y) (hroom : Room x l)
    (h : x.1.oldest ≤ x.2.next ∧ x.2.missed = 0) : y.1.oldest ≤ y.2.next ∧ y.2.missed = 0 := by
  obtain ⟨c, s⟩ := x
  cases l with
  | send a =>
    simp only [step] at hs
    split at hs
    · cases hs
    · cases hs
      refine ⟨?_, h.2⟩
      have hlen : (c.send a).sent.length = c.sent.length + 1 := List.length_append
      have : c.sent.length < s.next + c.cap := hroom
      show (c.send a).sent.length - c.cap ≤ s.next
      omega
  | close =>
    cases hs
    exact h
  | call m =>
    simp only [step] at hs
    split at hs
    · cases hs
    · cases hs
      exact h
  | turn =>
    cases hs
    show c.oldest ≤ (s.turn k c).next ∧ (s.turn k c).missed = 0
    unfold turn
    split
    · exact keepsUp_turnOf h
    · exact h

/-- A receiver that is never more than the capacity behind misses nothing. -/
theorem missed_of_room {ls : List (Label μ α)} {c' : Channel α}
    (hr : StepSystem.run (Stream.step k) (c, .subscribe c) ls = some (c', s))
    (hroom : StepSystem.Meets (Stream.step k) Room (c, .subscribe c) ls) : s.missed = 0 :=
  (StepSystem.run_invariant_of_meets (I := fun x => x.1.oldest ≤ x.2.next ∧ x.2.missed = 0)
    (fun _ _ _ hs hroom h => keepsUp_step hs hroom h) hr hroom ⟨Nat.sub_le .., rfl⟩).2

/-- At the end everything that was retained to the last has been read. -/
theorem Accounts.read_of_ended (h : Accounts k c s) (hended : (m, Outcome.closed) ∈ s.returned) :
    c.sent.drop (max s.start c.oldest) <:+ s.read.map Prod.snd ∧ s.start + s.read.length + s.missed = c.sent.length := by
  obtain ⟨-, hnext⟩ := h.ended m hended
  have hrecent := h.recent
  rw [hnext, List.take_length] at hrecent
  exact ⟨hrecent, h.count.trans hnext⟩

/-- The calls of one kind, when there are no others. -/
theorem passed_of_forall (k : Calls μ α β) (read : List (μ × α)) (hm : ∀ r ∈ read, r.1 = m) :
    (passed k read).map Prod.snd = (read.map Prod.snd).filterMap (k.accept m) := by
  rw [passed, List.map_filterMap, List.filterMap_map]
  refine List.filterMap_congr fun r hr => ?_
  rw [Option.map_map, hm r hr]
  exact Option.map_id_apply

end

/-! ### One call -/

section

variable {k : Calls μ α β} {c : Channel α} {s : Stream μ α β} {m : μ}

/-- What a call returns that has the retained values `unread` before it and is alone with the channel; `none` while it waits. -/
def found (k : Calls μ α β) (c : Channel α) (m : μ) (unread : List α) : Option (Outcome β) :=
  match unread.findSome? (k.accept m) with
  | some b => some (.item b)
  | none => if c.closed then some .closed else if k.waits m then none else some .empty

theorem turn_of_calling (h : s.calling = some m) : s.turn k c = s.turnOf k c m := by
  rw [turn, h]

/-- The loop of a call, over the values it is not behind. The induction is on their number. -/
theorem turns_found (hm : s.calling = some m) (hle : c.oldest ≤ s.next) :
    ∃ n, ((turn k c)^[n] s).returned = s.returned ++ ((found k c m (c.sent.drop s.next)).map (m, ·)).toList := by
  generalize hd : c.sent.length - s.next = d
  induction d generalizing s with
  | zero =>
    have hge : c.sent.length ≤ s.next := by omega
    refine ⟨1, ?_⟩
    rw [Function.iterate_one, turn_of_calling hm, turnOf_end hle hge, List.drop_eq_nil_of_le hge]
    simp only [found, List.findSome?_nil]
    rcases c.closed
    · rcases k.waits m
      · rfl
      · exact (List.append_nil _).symm
    · rfl
  | succ d ih =>
    have hlt : s.next < c.sent.length := by omega
    have hturn := turnOf_value (k := k) (m := m) hle (List.getElem?_eq_getElem hlt)
    rw [found, List.drop_eq_getElem_cons hlt, List.findSome?_cons]
    rcases hacc : k.accept m c.sent[s.next] with _ | b
    · rw [hacc] at hturn
      obtain ⟨n, hn⟩ := ih (s := s.turn k c) (by rw [turn_of_calling hm, hturn]; exact hm)
        (by rw [turn_of_calling hm, hturn]; exact Nat.le_succ_of_le hle)
        (by rw [turn_of_calling hm, hturn]; show c.sent.length - (s.next + 1) = d; omega)
      refine ⟨n + 1, ?_⟩
      rw [Function.iterate_succ_apply, hn, turn_of_calling hm, hturn]
      rfl
    · refine ⟨1, ?_⟩
      rw [Function.iterate_one, turn_of_calling hm, hturn, hacc]
      rfl

/-- One call, whether it lags first or not: the first of the retained values that it accepts. -/
theorem turns_find (hm : s.calling = some m) :
    ∃ n, ((turn k c)^[n] s).returned = s.returned ++ ((found k c m (c.unread s.next)).map (m, ·)).toList := by
  obtain hlag | hle := Nat.lt_or_ge s.next c.oldest
  · have hturn := turn_of_calling (k := k) (c := c) hm
    rw [turnOf_lagged hlag] at hturn
    obtain ⟨n, hn⟩ := turns_found (k := k) (c := c) (s := s.turn k c) (by rw [hturn]; exact hm) (by rw [hturn])
    refine ⟨n + 1, ?_⟩
    rw [Function.iterate_succ_apply, hn, hturn, Channel.unread, Nat.max_eq_right (Nat.le_of_lt hlag)]
  · rw [Channel.unread_eq hle]
    exact turns_found hm hle

end

end Stream

end Broadcast
