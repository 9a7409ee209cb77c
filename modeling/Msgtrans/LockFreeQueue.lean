import Mathlib.Algebra.Order.BigOperators.Group.List
import Mathlib.Algebra.Order.Group.Multiset
import Msgtrans.Lib.Indexed
import Msgtrans.Lib.Run

/-!
# The queue with a length (`LockFreeQueue`, `transport/lockfree.rs`)

A push sends to the channel and adds to the two counters afterwards, a pop receives and then counts: three atomic steps
each. Between them the length is off by what the calls under way have still to add and to take, and goes below zero when
a pop counts although no more pushes than pops have counted before it. `law_iff`: this is all that can go wrong.

The channel is a list; the queue holds both its ends, so neither finds the other gone. Counters are integers that a load
sees modulo 2^64.
-/

namespace Msgtrans

namespace LockFreeQueue

/-- Where a thread stands; the counter named is the one it updates next. -/
inductive Pc (T : Type) where
  | idle
  /-- `push` -/
  | enqueued
  | grow
  /-- `pop` -/
  | dequeued (item : T)
  | shrink (item : T)
deriving DecidableEq

structure State (T : Type) where
  channel : List T
  enqueued : ℤ
  dequeued : ℤ
  currentSize : ℤ
  threads : List (Pc T)
  /-- the items sent, those received and those that `pop` has returned, in order -/
  pushed : List T
  taken : List T
  popped : List T

variable {T : Type}

def start (threads : ℕ) : State T := ⟨[], 0, 0, 0, List.replicate threads .idle, [], [], []⟩

def load (counter : ℤ) : ℕ := (counter % 2 ^ 64).toNat

def len (s : State T) : ℕ := load s.currentSize

def isEmpty (s : State T) : Bool := len s == 0

inductive Op (T : Type) where
  | push (item : T)
  | pop
  /-- the next counter of the call under way -/
  | count

structure Label (T : Type) where
  thread : ℕ
  op : Op T

/-- What a thread does at `pc`: where it then stands, and the new state but for that. -/
def exec (s : State T) : Op T → Pc T → Option (Pc T × State T)
  | .push item, .idle =>
    -- no memory holds a channel of 2^64 items
    if s.channel.length + 1 < 2 ^ 64 then
      some (.enqueued, { s with channel := s.channel ++ [item], pushed := s.pushed ++ [item] })
    else none
  | .pop, .idle =>
    match s.channel with
    | [] => some (.idle, s)
    | item :: rest => some (.dequeued item, { s with channel := rest, taken := s.taken ++ [item] })
  | .count, .enqueued => some (.grow, { s with enqueued := s.enqueued + 1 })
  | .count, .grow => some (.idle, { s with currentSize := s.currentSize + 1 })
  | .count, .dequeued item => some (.shrink item, { s with dequeued := s.dequeued + 1 })
  | .count, .shrink item => some (.idle, { s with currentSize := s.currentSize - 1, popped := s.popped ++ [item] })
  | _, _ => none

def step (s : State T) (l : Label T) : Option (State T) :=
  s.threads[l.thread]?.bind fun pc =>
    (exec s l.op pc).map fun r => { r.2 with threads := s.threads.set l.thread r.1 }

/-! ### What the calls under way have still to do -/

def State.sum {M : Type} [AddCommMonoid M] (s : State T) (f : Pc T → M) : M := (s.threads.map f).sum

def Pc.toEnqueue : Pc T → ℤ
  | .enqueued => 1
  | _ => 0

def Pc.toGrow : Pc T → ℤ
  | .enqueued | .grow => 1
  | _ => 0

def Pc.toDequeue : Pc T → ℤ
  | .dequeued _ => 1
  | _ => 0

def Pc.toShrink : Pc T → ℤ
  | .dequeued _ | .shrink _ => 1
  | _ => 0

def Pc.inHand : Pc T → Multiset T
  | .dequeued item | .shrink item => {item}
  | _ => 0

/-- No call is in progress. -/
def Quiet (s : State T) : Prop := ∀ pc ∈ s.threads, pc = .idle

structure AtRest (s : State T) : Prop where
  counters : len s = load (s.enqueued - s.dequeued)
  channel : len s = s.channel.length
  isEmpty : isEmpty s = true ↔ s.channel = []

/-- What the queue promises: the items come out in the order they went in, each once, and the length is right at rest and
never too large. -/
structure Law (s : State T) : Prop where
  fifo : s.pushed = s.taken ++ s.channel
  returned : (s.popped : Multiset T) + s.sum Pc.inHand = s.taken
  nonneg : 0 ≤ s.currentSize
  len_le : len s ≤ s.pushed.length
  atRest : Quiet s → AtRest s

/-- What every step keeps: the counters lack what the calls under way are still to add and to take. -/
structure Inv (s : State T) : Prop where
  fifo : s.pushed = s.taken ++ s.channel
  returned : (s.popped : Multiset T) + s.sum Pc.inHand = s.taken
  enqueued : s.enqueued + s.sum Pc.toEnqueue = s.pushed.length
  dequeued : s.dequeued + s.sum Pc.toDequeue = s.taken.length
  size : s.currentSize + s.sum Pc.toGrow = s.channel.length + s.sum Pc.toShrink
  popped : s.popped.length + s.sum Pc.toShrink = s.taken.length
  room : s.channel.length < 2 ^ 64

/-- The pushes that have counted on `current_size`: those that have sent, but for the ones under way. -/
def State.pushesCounted (s : State T) : ℤ := s.pushed.length - s.sum Pc.toGrow

/-- A pop that counts on `current_size`, and then returns, finds more pushes than pops counted there. -/
def Pc.Counted (s : State T) : Pc T → Prop
  | .shrink _ => s.popped.length < s.pushesCounted
  | _ => True

def Counted (s : State T) (l : Label T) : Prop := ∀ pc ∈ s.threads[l.thread]?, pc.Counted s

instance (s : State T) : DecidablePred (Pc.Counted s)
  | .shrink _ => inferInstanceAs (Decidable ((s.popped.length : ℤ) < s.pushesCounted))
  | .idle | .enqueued | .grow | .dequeued _ => .isTrue trivial

instance (s : State T) (l : Label T) : Decidable (Counted s l) :=
  decidable_of_iff (s.threads[l.thread]?.all fun pc => decide (pc.Counted s)) (by simp [Counted, Option.all_eq_true])

variable {s s' s₁ : State T} {l : Label T} {ls : List (Label T)} {pc pc' : Pc T} {i : ℕ} {op : Op T}

theorem sum_set {M : Type} [AddCommMonoid M] (f : Pc T → M) (hpc : s.threads[i]? = some pc) :
    State.sum { s₁ with threads := s.threads.set i pc' } f + f pc = s.sum f + f pc' :=
  Indexed.sum_map_set_add hpc

theorem sum_nonneg {f : Pc T → ℤ} (hf : ∀ pc, 0 ≤ f pc) : 0 ≤ s.sum f := by
  refine List.sum_nonneg fun x hx => ?_
  obtain ⟨pc, -, rfl⟩ := List.mem_map.1 hx
  exact hf pc

theorem sum_of_quiet {M : Type} [AddCommMonoid M] {f : Pc T → M} (hf : f .idle = 0) (hq : Quiet s) : s.sum f = 0 :=
  Indexed.sum_map_eq_zero fun pc hpc => by rw [hq pc hpc, hf]

theorem step_eq_some : step s l = some s' ↔ ∃ pc pc' s₁, s.threads[l.thread]? = some pc ∧ exec s l.op pc = some (pc', s₁) ∧
    s' = { s₁ with threads := s.threads.set l.thread pc' } := by
  unfold step
  constructor
  · intro hs
    obtain ⟨pc, hpc, hs⟩ := Option.bind_eq_some_iff.1 hs
    obtain ⟨⟨pc', s₁⟩, he, rfl⟩ := Option.map_eq_some_iff.1 hs
    exact ⟨pc, pc', s₁, hpc, he, rfl⟩
  · rintro ⟨pc, pc', s₁, hpc, he, rfl⟩
    rw [hpc, Option.bind_some, he]
    rfl

/-- What one step changes, in the counters and the histories and in what its thread has still to do. -/
structure Moves (s s₁ : State T) (pc pc' : Pc T) : Prop where
  fifo : s.pushed = s.taken ++ s.channel → s₁.pushed = s₁.taken ++ s₁.channel
  returned : (s₁.popped : Multiset T) + pc'.inHand + s.taken = s.popped + pc.inHand + s₁.taken
  enqueued : s₁.enqueued + pc'.toEnqueue + s.pushed.length = s.enqueued + pc.toEnqueue + s₁.pushed.length
  dequeued : s₁.dequeued + pc'.toDequeue + s.taken.length = s.dequeued + pc.toDequeue + s₁.taken.length
  size : s₁.currentSize + pc'.toGrow + s.channel.length + pc.toShrink =
    s.currentSize + pc.toGrow + s₁.channel.length + pc'.toShrink
  popped : s₁.popped.length + pc'.toShrink + s.taken.length = s.popped.length + pc.toShrink + s₁.taken.length
  room : s.channel.length < 2 ^ 64 → s₁.channel.length < 2 ^ 64
  /-- only the last step of a pop takes from the length -/
  nonneg : ((∃ item, pc = .shrink item) → 0 < s.currentSize) → 0 ≤ s.currentSize → 0 ≤ s₁.currentSize

theorem exec_moves (he : exec s op pc = some (pc', s₁)) : Moves s s₁ pc pc' := by
  cases op with
  | push item =>
    cases pc with
    | idle =>
      simp only [exec] at he
      split at he
      · next hroom =>
        cases he
        refine ⟨fun hf => ?_, rfl, ?_, rfl, ?_, rfl, fun _ => ?_, fun _ h => h⟩
        · simp only [hf, List.append_assoc]
        · simp only [Pc.toEnqueue, List.length_append, List.length_singleton]
          omega
        · simp only [Pc.toGrow, Pc.toShrink, List.length_append, List.length_singleton]
          omega
        · rwa [List.length_append, List.length_singleton]
      · cases he
    | enqueued | grow | dequeued | shrink => cases he
  | pop =>
    cases pc with
    | idle =>
      simp only [exec] at he
      split at he
      · cases he
        exact ⟨fun h => h, rfl, rfl, rfl, rfl, rfl, fun h => h, fun _ h => h⟩
      · next item rest hch =>
        cases he
        refine ⟨fun hf => ?_, ?_, rfl, ?_, ?_, ?_, fun hroom => ?_, fun _ h => h⟩
        · simp only [hf, hch, List.append_assoc, List.singleton_append]
        · simp only [Pc.inHand, add_zero, ← Multiset.coe_add, Multiset.coe_singleton]
          ac_rfl
        · simp only [Pc.toDequeue, List.length_append, List.length_singleton]
          omega
        · simp only [Pc.toGrow, Pc.toShrink, hch, List.length_cons]
          omega
        · simp only [Pc.toShrink, List.length_append, List.length_singleton]
          omega
        · rw [hch, List.length_cons] at hroom
          exact Nat.lt_of_succ_lt hroom
    | enqueued | grow | dequeued | shrink => cases he
  | count =>
    cases pc with
    | idle => cases he
    | enqueued =>
      cases he
      refine ⟨fun h => h, rfl, ?_, rfl, rfl, rfl, fun h => h, fun _ h => h⟩
      simp only [Pc.toEnqueue]
      omega
    | grow =>
      cases he
      refine ⟨fun h => h, rfl, rfl, rfl, ?_, rfl, fun h => h, fun _ h => ?_⟩
      · simp only [Pc.toGrow, Pc.toShrink]
        omega
      · exact Int.le_add_one h
    | dequeued item =>
      cases he
      refine ⟨fun h => h, rfl, rfl, ?_, rfl, rfl, fun h => h, fun _ h => h⟩
      simp only [Pc.toDequeue]
      omega
    | shrink item =>
      cases he
      refine ⟨fun h => h, ?_, rfl, rfl, ?_, ?_, fun h => h, fun hpos _ => ?_⟩
      · simp only [Pc.inHand, add_zero, ← Multiset.coe_add, Multiset.coe_singleton]
      · simp only [Pc.toGrow, Pc.toShrink]
        omega
      · simp only [Pc.toShrink, List.length_append, List.length_singleton]
        omega
      · exact Int.sub_nonneg_of_le (hpos ⟨item, rfl⟩)

/-- The length is what has counted on it, whatever the order. -/
theorem Inv.currentSize (h : Inv s) : s.currentSize = s.pushesCounted - s.popped.length := by
  have hlength := congrArg List.length h.fifo
  rw [List.length_append] at hlength
  have := h.size
  have := h.popped
  unfold State.pushesCounted
  omega

theorem nonneg_step (hs : step s l = some s') (hl : Counted s l) (h : Inv s) (hnonneg : 0 ≤ s.currentSize) :
    0 ≤ s'.currentSize := by
  obtain ⟨pc, pc', s₁, hpc, he, rfl⟩ := step_eq_some.1 hs
  refine (exec_moves he).nonneg ?_ hnonneg
  rintro ⟨item, rfl⟩
  have hcounted : (s.popped.length : ℤ) < s.pushesCounted := hl _ hpc
  rw [h.currentSize]
  omega

theorem inv_step (hs : step s l = some s') (h : Inv s) : Inv s' := by
  obtain ⟨pc, pc', s₁, hpc, he, rfl⟩ := step_eq_some.1 hs
  have hm := exec_moves he
  have hsum {M : Type} [AddCommMonoid M] {f : Pc T → M} :
      State.sum { s₁ with threads := s.threads.set l.thread pc' } f + f pc = s.sum f + f pc' := sum_set f hpc
  refine ⟨hm.fifo h.fifo, ?_, ?_, ?_, ?_, ?_, hm.room h.room⟩
  · have hhand := hsum (f := Pc.inHand)
    have hret := hm.returned
    rw [← h.returned] at hret
    -- what the thread had in hand and all that was popped stand on both sides
    refine add_right_cancel (b := pc.inHand + s.popped) ?_
    calc
      _ = s₁.popped + (State.sum { s₁ with threads := s.threads.set l.thread pc' } Pc.inHand + pc.inHand) + s.popped := by ac_rfl
      _ = s₁.popped + pc'.inHand + (s.popped + s.sum Pc.inHand) := by rw [hhand]; ac_rfl
      _ = _ := by rw [hret]; ac_rfl
  · have := hsum (f := Pc.toEnqueue)
    have := hm.enqueued
    have := h.enqueued
    simp only at *
    omega
  · have := hsum (f := Pc.toDequeue)
    have := hm.dequeued
    have := h.dequeued
    simp only at *
    omega
  · have := hsum (f := Pc.toGrow)
    have := hsum (f := Pc.toShrink)
    have := hm.size
    have := h.size
    simp only at *
    omega
  · have := hsum (f := Pc.toShrink)
    have := hm.popped
    have := h.popped
    simp only at *
    omega

/-! ### Runs -/

theorem inv_start (threads : ℕ) : Inv (start threads : State T) := by
  have hidle {M : Type} [AddCommMonoid M] {f : Pc T → M} (hf : f .idle = 0) : (start threads : State T).sum f = 0 :=
    sum_of_quiet hf fun _ hpc => List.eq_of_mem_replicate hpc
  refine ⟨rfl, ?_, ?_, ?_, ?_, ?_, Nat.two_pow_pos 64⟩
  · rw [hidle rfl]
    rfl
  · rw [hidle rfl]
    rfl
  · rw [hidle rfl]
    rfl
  · rw [hidle rfl, hidle rfl]
    rfl
  · rw [hidle rfl]
    rfl

theorem load_le {counter : ℤ} (h : 0 ≤ counter) : load counter ≤ counter := by
  unfold load
  omega

theorem load_natCast {n : ℕ} (h : n < 2 ^ 64) : load n = n := by
  unfold load
  omega

theorem Inv.atRest (h : Inv s) (hq : Quiet s) : AtRest s := by
  have hgrow : s.sum Pc.toGrow = 0 := sum_of_quiet rfl hq
  have hshrink : s.sum Pc.toShrink = 0 := sum_of_quiet rfl hq
  have henqueue : s.sum Pc.toEnqueue = 0 := sum_of_quiet rfl hq
  have hdequeue : s.sum Pc.toDequeue = 0 := sum_of_quiet rfl hq
  have hsize : s.currentSize = s.channel.length := by
    have := h.size
    omega
  have hcounted : s.enqueued - s.dequeued = s.currentSize := by
    have hlength := congrArg List.length h.fifo
    rw [List.length_append] at hlength
    have := h.enqueued
    have := h.dequeued
    omega
  have hlen : len s = s.channel.length := by rw [len, hsize, load_natCast h.room]
  refine ⟨by rw [hcounted, len], hlen, ?_⟩
  rw [isEmpty, beq_iff_eq, hlen, List.length_eq_zero_iff]

theorem Inv.law (h : Inv s) (hnonneg : 0 ≤ s.currentSize) : Law s := by
  refine ⟨h.fifo, h.returned, hnonneg, ?_, h.atRest⟩
  have hgrow : 0 ≤ s.sum Pc.toGrow := sum_nonneg fun pc => by cases pc <;> simp only [Pc.toGrow] <;> omega
  have hlen : (len s : ℤ) ≤ s.currentSize := load_le hnonneg
  have hsize := h.currentSize
  unfold State.pushesCounted at hsize
  omega

/-- Where the length is not below zero after a step, the step has not taken from 0. -/
theorem counted_of_nonneg (hs : step s l = some s') (hI : Inv s) (h : 0 ≤ s'.currentSize) : Counted s l := by
  obtain ⟨pc, pc', s₁, hpc, he, rfl⟩ := step_eq_some.1 hs
  intro pc₁ hpc₁
  obtain rfl : pc = pc₁ := Option.some.inj (hpc.symm.trans hpc₁)
  cases pc with
  | idle | enqueued | grow | dequeued => trivial
  | shrink item =>
    cases hop : l.op with
    | push | pop =>
      rw [hop] at he
      cases he
    | count =>
      rw [hop] at he
      cases he
      have hpos : 1 ≤ s.currentSize := Int.le_of_sub_nonneg h
      rw [hI.currentSize] at hpos
      show (s.popped.length : ℤ) < s.pushesCounted
      omega

/-- In every run the items come out in order, each once, and the queue is right at rest, also after a length below zero. -/
theorem fifo_of_run {threads : ℕ} (hr : StepSystem.run step (start threads) ls = some s) :
    s.pushed = s.taken ++ s.channel ∧ (s.popped : Multiset T) + s.sum Pc.inHand = s.taken ∧ (Quiet s → AtRest s) := by
  have h : Inv s := StepSystem.run_invariant (fun _ _ _ => inv_step) hr (inv_start threads)
  exact ⟨h.fifo, h.returned, h.atRest⟩

/-- However the calls of any number of threads interleave: all that is promised holds in every state of a run exactly
when each `pop` of it that counts finds more pushes than pops counted. -/
theorem law_iff {threads : ℕ} (hr : StepSystem.run step (start threads) ls = some s) :
    StepSystem.Always step Law (start threads) ls ↔ StepSystem.Meets step Counted (start threads) ls :=
  StepSystem.always_iff_meets_of_step (I := fun t => Inv t ∧ 0 ≤ t.currentSize) (fun _ h => h.1.law h.2)
    (fun _ _ _ hs hl h => ⟨inv_step hs h.1, nonneg_step hs hl h.1 h.2⟩) (fun _ _ _ hs hI h => counted_of_nonneg hs hI.1 h.nonneg)
    hr ⟨inv_start threads, le_rfl⟩

/-- A push and a pop that interleave, and a pop of the empty channel. -/
theorem law_iff_interleaved :
    let ls : List (Label ℕ) := [⟨0, .push 7⟩, ⟨1, .pop⟩, ⟨0, .count⟩, ⟨1, .count⟩, ⟨0, .count⟩, ⟨1, .count⟩, ⟨0, .pop⟩]
    StepSystem.Always step Law (start 2) ls ↔ StepSystem.Meets step Counted (start 2) ls := by
  intro ls
  have hrun : (StepSystem.run step (start 2) ls).isSome := by decide
  obtain ⟨s, hr⟩ := Option.isSome_iff_exists.1 hrun
  exact law_iff hr

/-- A pop that overtakes the counting of its item's push: the length is 2^64 - 1 with one item pushed. -/
theorem pop_overtakes_push :
    let ls : List (Label ℕ) := [⟨0, .push 7⟩, ⟨1, .pop⟩, ⟨1, .count⟩, ⟨1, .count⟩]
    ∃ s, StepSystem.run step (start 2) ls = some s ∧ s.popped = [7] ∧ s.pushed = [7] ∧ s.currentSize = -1 ∧
      len s = 2 ^ 64 - 1 ∧ ¬ Law s := by
  intro ls
  have hcounters : (StepSystem.run step (start 2) ls).map (fun s => (s.popped, s.pushed, s.currentSize)) =
      some ([7], [7], -1) := by
    decide
  obtain ⟨s, hr, hs⟩ := Option.map_eq_some_iff.1 hcounters
  simp only [Prod.mk.injEq] at hs
  obtain ⟨hpopped, hpushed, hsize⟩ := hs
  refine ⟨s, hr, hpopped, hpushed, hsize, ?_, fun h => ?_⟩
  · rw [len, hsize]
    decide
  · have := h.nonneg
    omega

end LockFreeQueue

end Msgtrans
