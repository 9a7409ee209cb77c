import Mathlib.Tactic.Ring
import Msgtrans.MemoryPool

/-!
# The counters of the memory pool

A call changes a queue first and the counters afterwards, so between these steps the counters are off by what the calls
still have to add and to take. `Accounts` is that balance. `clear_cache` keeps it only when what it sets to zero is what
it has itself taken out: its store wipes out whatever the others have added in the meantime.

`counters_of_run`: where no step takes more than there is, and no store wipes out anything else, the counters are right
whenever no call is in progress, and never below zero.
-/

namespace Msgtrans

namespace MemoryPool

def State.sum (s : State) (f : Pc → ℤ) : ℤ := (s.calls.map f).sum

/-- What the call still has to add to the counter of a class. -/
def Pc.toAdd (size : BufferSize) : Pc → ℤ
  | .count size' => if size' = size then 1 else 0
  | _ => 0

/-- What it still has to take from it. -/
def Pc.toTake (size : BufferSize) : Pc → ℤ
  | .uncount size' _ | .uncountCleared size' _ _ => if size' = size then 1 else 0
  | _ => 0

def Pc.memoryToAdd : Pc → ℤ
  | .count size | .countMemory size => size.capacity
  | _ => 0

/-- A `clear_cache` takes at its end what it has cleared. -/
def Pc.memoryToTake : Pc → ℤ
  | .uncount size _ | .countHit size _ | .uncountMemory size _ => size.capacity
  | .clear _ _ m | .uncountCleared _ _ m | .storeMemory _ m => m
  | _ => 0

/-- Counted as a get, not yet as a hit or a miss. -/
def Pc.undecided : Pc → ℤ
  | .pop _ | .uncount _ _ | .countHit _ _ | .countMiss _ => 1
  | _ => 0

/-- The memory of the queued buffers, as the pool counts it. -/
def stored (queues : BufferSize → List Buffer) : ℤ :=
  1024 * (queues .small).length + 8192 * (queues .medium).length + 65536 * (queues .large).length

structure Accounts (s : State) : Prop where
  cached : ∀ size, s.cached size + s.sum (Pc.toAdd size) = (s.queues size).length + s.sum (Pc.toTake size)
  memory : s.totalMemoryCached + s.sum Pc.memoryToAdd = stored s.queues + s.sum Pc.memoryToTake
  gets : s.cacheHitCount + s.cacheMissCount + s.sum Pc.undecided = s.totalGetOperations

structure NonNeg (s : State) : Prop where
  cached : ∀ size, 0 ≤ s.cached size
  memory : 0 ≤ s.totalMemoryCached

def Pc.returned : Pc → Bool
  | .got _ _ | .cleared _ | .done => true
  | _ => false

/-- No call is in progress. -/
def Quiet (s : State) : Prop := ∀ pc ∈ s.calls, pc.returned = true

structure CountersRight (s : State) : Prop where
  cached : ∀ size, s.cached size = (s.queues size).length
  memory : s.totalMemoryCached = 1024 * s.cached .small + 8192 * s.cached .medium + 65536 * s.cached .large
  gets : s.cacheHitCount + s.cacheMissCount = s.totalGetOperations

structure CountersLaw (s : State) : Prop where
  quiet : Quiet s → CountersRight s
  nonneg : NonNeg s

/-- A subtraction finds what it takes already added, and the store of `clear_cache` finds only what it takes itself. -/
def Pc.Covered (s : State) : Pc → Prop
  | .uncount size _ | .uncountCleared size _ _ =>
    s.sum (Pc.toAdd size) < (s.queues size).length + s.sum (Pc.toTake size)
  | .uncountMemory size _ => s.sum Pc.memoryToAdd + size.capacity ≤ stored s.queues + s.sum Pc.memoryToTake
  | .storeMemory _ m => stored s.queues + s.sum Pc.memoryToTake = s.sum Pc.memoryToAdd + m
  | _ => True

def Covered (s : State) : Label → Prop
  | .run i _ => ∀ pc ∈ s.calls[i]?, pc.Covered s
  | _ => True

instance (s : State) : DecidablePred (Pc.Covered s)
  | .uncount _ _ | .uncountCleared _ _ _ => inferInstanceAs (Decidable (_ < _))
  | .uncountMemory _ _ => inferInstanceAs (Decidable (_ ≤ _))
  | .storeMemory _ _ => inferInstanceAs (Decidable (_ = _))
  | .countGet _ | .pop _ | .countHit _ _ | .countMiss _ | .got _ _ | .loadCached _ _ | .loadLimit _ _ _ | .push _ _
  | .count _ | .countMemory _ | .clear _ _ _ | .cleared _ | .checkPressure | .reduce _ | .storeLimit _ _ | .done =>
    .isTrue trivial

instance (s : State) : DecidablePred (Covered s)
  | .run i _ =>
    decidable_of_iff (s.calls[i]?.all fun pc => decide (pc.Covered s)) (by simp [Covered, Option.all_eq_true])
  | .getBuffer _ | .returnBuffer _ _ | .clearCache | .adjustCacheLimits => .isTrue trivial

/-! ### What a step of a call does to the balance -/

variable {a : Allocator} {s s' s₁ : State} {i : ℕ} {pc pc' : Pc} {size : BufferSize} {pressure : Bool}

theorem sum_set {f : Pc → ℤ} (hc : s.calls[i]? = some pc) :
    State.sum { s₁ with calls := s.calls.set i pc' } f + f pc = s.sum f + f pc' :=
  Indexed.sum_map_set_add hc

theorem sum_begin {f : Pc → ℤ} : (s.begin pc).sum f = s.sum f + f pc := by
  simp [State.begin, State.sum]

theorem length_update (queues : BufferSize → List Buffer) (size size' : BufferSize) (q : List Buffer) :
    ((Function.update queues size q size').length : ℤ) =
      (queues size').length + if size = size' then (q.length : ℤ) - (queues size).length else 0 := by
  by_cases h : size' = size
  · subst h
    simp
  · simp [Function.update_of_ne h, Ne.symm h]

theorem stored_update (queues : BufferSize → List Buffer) (size : BufferSize) (q : List Buffer) :
    stored (Function.update queues size q) =
      stored queues + size.capacity * ((q.length : ℤ) - (queues size).length) := by
  cases size <;> simp [stored, BufferSize.capacity] <;> ring

theorem update_add (f : BufferSize → ℤ) (size size' : BufferSize) (d : ℤ) :
    Function.update f size (f size + d) size' = f size' + if size = size' then d else 0 := by
  by_cases h : size' = size
  · subst h
    simp
  · simp [Function.update_of_ne h, Ne.symm h]

/-- A step changes a counter by as much as it changes the queues and what its call has still to do. -/
structure Moves (s s₁ : State) (pc pc' : Pc) : Prop where
  cached : ∀ size, s₁.cached size + pc'.toAdd size + (s.queues size).length + pc.toTake size =
    s.cached size + pc.toAdd size + (s₁.queues size).length + pc'.toTake size
  memory : s₁.totalMemoryCached + pc'.memoryToAdd + stored s.queues + pc.memoryToTake =
    s.totalMemoryCached + pc.memoryToAdd + stored s₁.queues + pc'.memoryToTake
  gets : s₁.cacheHitCount + s₁.cacheMissCount + pc'.undecided + s.totalGetOperations =
    s.cacheHitCount + s.cacheMissCount + pc.undecided + s₁.totalGetOperations

theorem exec_moves (he : exec a s pressure pc = some (pc', s₁))
    (hstore : ∀ n m, pc = .storeMemory n m → s.totalMemoryCached = m) : Moves s s₁ pc pc' := by
  cases pc with
  | countGet size =>
    cases he
    refine ⟨fun _ => rfl, rfl, ?_⟩
    simp only [Pc.undecided]
    push_cast
    ring
  | pop size =>
    simp only [exec] at he
    split at he
    · cases he
      exact ⟨fun _ => rfl, rfl, rfl⟩
    · next b rest hq =>
      cases he
      refine ⟨fun size' => ?_, ?_, rfl⟩
      · simp only [Pc.toAdd, Pc.toTake, length_update, hq, List.length_cons]
        split <;> push_cast <;> omega
      · simp only [Pc.memoryToAdd, Pc.memoryToTake, stored_update, hq, List.length_cons]
        push_cast
        ring
  | uncount size b =>
    cases he
    refine ⟨fun size' => ?_, rfl, rfl⟩
    simp only [Pc.toAdd, Pc.toTake, sub_eq_add_neg, update_add]
    split <;> omega
  | countHit size b =>
    cases he
    refine ⟨fun _ => rfl, rfl, ?_⟩
    simp only [Pc.undecided]
    push_cast
    ring
  | uncountMemory size b =>
    cases he
    refine ⟨fun _ => rfl, ?_, rfl⟩
    simp only [Pc.memoryToAdd, Pc.memoryToTake]
    ring
  | countMiss size =>
    cases he
    refine ⟨fun _ => rfl, rfl, ?_⟩
    simp only [Pc.undecided]
    push_cast
    ring
  | push size b =>
    cases he
    refine ⟨fun size' => ?_, ?_, rfl⟩
    · simp only [Pc.toAdd, Pc.toTake, length_update, List.length_append, List.length_singleton]
      split <;> push_cast <;> omega
    · simp only [Pc.memoryToAdd, Pc.memoryToTake, stored_update, List.length_append, List.length_singleton]
      push_cast
      ring
  | count size =>
    cases he
    refine ⟨fun size' => ?_, rfl, rfl⟩
    simp only [Pc.toAdd, Pc.toTake, update_add]
    split <;> omega
  | countMemory size =>
    cases he
    refine ⟨fun _ => rfl, ?_, rfl⟩
    simp only [Pc.memoryToAdd, Pc.memoryToTake]
    ring
  | clear size n m =>
    simp only [exec] at he
    split at he
    · cases he
      cases size <;> exact ⟨fun _ => rfl, rfl, rfl⟩
    · next b rest hq =>
      cases he
      refine ⟨fun size' => ?_, ?_, rfl⟩
      · simp only [Pc.toAdd, Pc.toTake, length_update, hq, List.length_cons]
        split <;> push_cast <;> omega
      · simp only [Pc.memoryToAdd, Pc.memoryToTake, stored_update, hq, List.length_cons]
        push_cast
        ring
  | uncountCleared size n m =>
    cases he
    refine ⟨fun size' => ?_, rfl, rfl⟩
    simp only [Pc.toAdd, Pc.toTake, sub_eq_add_neg, update_add]
    split <;> omega
  | storeMemory n m =>
    cases he
    refine ⟨fun _ => rfl, ?_, rfl⟩
    simp only [Pc.memoryToAdd, Pc.memoryToTake, hstore n m rfl]
    ring
  | loadLimit size b n =>
    cases he
    split <;> exact ⟨fun _ => rfl, rfl, rfl⟩
  | checkPressure =>
    cases he
    split <;> exact ⟨fun _ => rfl, rfl, rfl⟩
  | storeLimit size limit =>
    cases he
    cases size <;> exact ⟨fun _ => rfl, rfl, rfl⟩
  | loadCached | reduce =>
    cases he
    exact ⟨fun _ => rfl, rfl, rfl⟩
  | got | cleared | done => cases he

theorem Accounts.moves (h : Accounts s) (hc : s.calls[i]? = some pc) (hm : Moves s s₁ pc pc') :
    Accounts { s₁ with calls := s.calls.set i pc' } := by
  have hsum {f : Pc → ℤ} : State.sum { s₁ with calls := s.calls.set i pc' } f + f pc = s.sum f + f pc' := sum_set hc
  refine ⟨fun size => ?_, ?_, ?_⟩
  · have ha := hsum (f := Pc.toAdd size)
    have ht := hsum (f := Pc.toTake size)
    have := hm.cached size
    have := h.cached size
    simp only at *
    omega
  · have ha := hsum (f := Pc.memoryToAdd)
    have ht := hsum (f := Pc.memoryToTake)
    have := hm.memory
    have := h.memory
    simp only at *
    omega
  · have hu := hsum (f := Pc.undecided)
    have := hm.gets
    have := h.gets
    simp only at *
    omega

theorem Accounts.begin (h : Accounts s) (ha : ∀ size, pc.toAdd size = 0) (ht : ∀ size, pc.toTake size = 0)
    (hma : pc.memoryToAdd = 0) (hmt : pc.memoryToTake = 0) (hu : pc.undecided = 0) : Accounts (s.begin pc) := by
  refine ⟨fun size => ?_, ?_, ?_⟩
  · rw [sum_begin, sum_begin, ha, ht, add_zero, add_zero]
    exact h.cached size
  · rw [sum_begin, sum_begin, hma, hmt, add_zero, add_zero]
    exact h.memory
  · rw [sum_begin, hu, add_zero]
    exact h.gets

theorem NonNeg.add (h : NonNeg s) {size : BufferSize} {d : ℤ} (hd : 0 ≤ s.cached size + d) (hm : 0 ≤ s₁.totalMemoryCached)
    (hs : s₁.cached = Function.update s.cached size (s.cached size + d)) : NonNeg s₁ := by
  refine ⟨fun size' => ?_, hm⟩
  rw [hs, update_add]
  split
  · next heq =>
    subst heq
    exact hd
  · rw [add_zero]
    exact h.cached size'

/-- Where the accounts are right, what a covered step takes is in the counters. -/
theorem NonNeg.exec (h : NonNeg s) (hacc : Accounts s) (hcov : pc.Covered s)
    (he : exec a s pressure pc = some (pc', s₁)) : NonNeg s₁ := by
  have hm := h.memory
  have hm' := hacc.memory
  cases pc with
  | uncount size b =>
    cases he
    have hc := hacc.cached size
    simp only [Pc.Covered] at hcov
    exact h.add (d := -1) (by omega) hm rfl
  | uncountCleared size n m =>
    cases he
    have hc := hacc.cached size
    simp only [Pc.Covered] at hcov
    exact h.add (d := -1) (by omega) hm rfl
  | count size =>
    cases he
    have hc := h.cached size
    exact h.add (d := 1) (by omega) hm rfl
  | uncountMemory size b =>
    cases he
    simp only [Pc.Covered] at hcov
    refine ⟨h.cached, ?_⟩
    simp only
    omega
  | countMemory size =>
    cases he
    refine ⟨h.cached, ?_⟩
    simp only
    omega
  | storeMemory n m =>
    cases he
    exact ⟨h.cached, le_rfl⟩
  | pop size | clear size n m =>
    simp only [MemoryPool.exec] at he
    split at he <;> cases he <;> exact ⟨h.cached, hm⟩
  | countGet | countHit | countMiss | loadCached | loadLimit | push | checkPressure | reduce | storeLimit =>
    cases he
    exact ⟨h.cached, hm⟩
  | got | cleared | done => cases he

/-- The counters balance, and none is below zero. -/
structure CountersInv (s : State) : Prop where
  accounts : Accounts s
  nonneg : NonNeg s

theorem counters_step {l : Label} (hs : step a s l = some s') (hcov : Covered s l) (h : CountersInv s) :
    CountersInv s' := by
  cases l with
  | getBuffer size | clearCache | adjustCacheLimits =>
    cases hs
    exact ⟨h.accounts.begin (fun _ => rfl) (fun _ => rfl) rfl rfl rfl, h.nonneg.cached, h.nonneg.memory⟩
  | returnBuffer b size =>
    cases hs
    refine ⟨?_, h.nonneg.cached, h.nonneg.memory⟩
    split <;> exact h.accounts.begin (fun _ => rfl) (fun _ => rfl) rfl rfl rfl
  | run i pressure =>
    obtain ⟨pc, hc, hs⟩ := Option.bind_eq_some_iff.1 hs
    obtain ⟨⟨pc', s₁⟩, he, rfl⟩ := Option.map_eq_some_iff.1 hs
    have hpc := hcov pc hc
    have hmoves := exec_moves he fun n m hpc' => by
      have hm := h.accounts.memory
      rw [hpc'] at hpc
      simp only [Pc.Covered] at hpc
      omega
    have hnonneg := h.nonneg.exec h.accounts hpc he
    exact ⟨h.accounts.moves hc hmoves, hnonneg.cached, hnonneg.memory⟩

/-! ### At rest -/

theorem sum_of_quiet {f : Pc → ℤ} (hf : ∀ pc, pc.returned = true → f pc = 0) (hq : Quiet s) : s.sum f = 0 :=
  Indexed.sum_map_eq_zero fun pc hpc => hf pc (hq pc hpc)

theorem CountersInv.law (h : CountersInv s) : CountersLaw s := by
  refine ⟨fun hq => ?_, h.nonneg⟩
  have hcached (size : BufferSize) : s.cached size = (s.queues size).length := by
    have ha := sum_of_quiet (f := Pc.toAdd size) (fun pc hpc => by cases pc <;> trivial) hq
    have ht := sum_of_quiet (f := Pc.toTake size) (fun pc hpc => by cases pc <;> trivial) hq
    have := h.accounts.cached size
    omega
  have ha := sum_of_quiet (f := Pc.memoryToAdd) (fun pc hpc => by cases pc <;> trivial) hq
  have ht := sum_of_quiet (f := Pc.memoryToTake) (fun pc hpc => by cases pc <;> trivial) hq
  have hu := sum_of_quiet (f := Pc.undecided) (fun pc hpc => by cases pc <;> trivial) hq
  refine ⟨hcached, ?_, ?_⟩
  · have := h.accounts.memory
    rw [hcached, hcached, hcached]
    simp only [stored] at this
    omega
  · have := h.accounts.gets
    omega

/-! ### Runs -/

theorem CountersInv.preallocate (h : CountersInv s) (n : ℕ) : CountersInv (preallocate a size n s) := by
  induction n generalizing s with
  | zero => exact h
  | succ n ih =>
    refine ih ⟨⟨fun size' => ?_, ?_, h.accounts.gets⟩, ?_⟩
    · have := h.accounts.cached size'
      simp only [State.sum, update_add, length_update, List.length_append, List.length_singleton] at this ⊢
      split <;> push_cast <;> omega
    · have := h.accounts.memory
      simp only [State.sum, stored_update, List.length_append, List.length_singleton] at this ⊢
      push_cast
      rw [add_sub_cancel_left, mul_one]
      omega
    · have hm := h.nonneg.memory
      have hc := h.nonneg.cached size
      exact h.nonneg.add (d := 1) (by omega) (by simp only; omega) rfl

theorem CountersInv.start (smallCount mediumCount largeCount : ℕ) :
    CountersInv (withPreallocation a smallCount mediumCount largeCount new) := by
  have hnew : CountersInv new := ⟨⟨fun _ => rfl, rfl, rfl⟩, fun _ => le_rfl, le_rfl⟩
  exact ((hnew.preallocate _).preallocate _).preallocate _

/-- However the calls interleave: as long as every subtraction finds what it takes already added, and every store of
`clear_cache` wipes out only what that call took out, the counters are right in every state in which no call is in
progress, and none is ever below zero. -/
theorem counters_of_run (smallCount mediumCount largeCount : ℕ) {ls : List Label}
    (hcov : StepSystem.Meets (step a) Covered (withPreallocation a smallCount mediumCount largeCount new) ls) :
    StepSystem.Always (step a) CountersLaw (withPreallocation a smallCount mediumCount largeCount new) ls := by
  intro ms t hms ht
  have h := StepSystem.always_of_meets (fun _ _ _ hs hG hI => counters_step hs hG hI) hcov
    (CountersInv.start smallCount mediumCount largeCount) ms t hms ht
  exact h.law

/-- A get and a return that interleave, and a `clear_cache` after them. -/
theorem counters_of_alternate :
    StepSystem.Always (step exactly) CountersLaw (withPreallocation exactly 2 1 0 new)
      ([.getBuffer .small, .returnBuffer ⟨0, 1024, by decide⟩ .small] ++
        [0, 1, 0, 1, 0, 1, 1, 0, 1, 0].map (.run · false) ++ [.clearCache] ++ alone 2 9) :=
  counters_of_run 2 1 0 (by decide +kernel)

/-- A return that runs between the last pop of `clear_cache` and its store: its buffer is cached, its memory is not
counted any more. -/
theorem memory_wiped_out :
    let ls := [.clearCache] ++ alone 0 3 ++ [.returnBuffer ⟨0, 1024, by decide⟩ .small] ++ alone 1 5 ++ alone 0 1
    ∃ s, StepSystem.run (step exactly) (withPreallocation exactly 0 0 0 new) ls = some s ∧ Quiet s ∧ ¬ CountersRight s := by
  intro ls
  have hcounters : (StepSystem.run (step exactly) (withPreallocation exactly 0 0 0 new) ls).map (fun s =>
      (s.calls, s.cached .small, s.totalMemoryCached)) = some ([.cleared 0, .done], 1, 0) := by
    decide +kernel
  obtain ⟨s, hr, hs⟩ := Option.map_eq_some_iff.1 hcounters
  simp only [Prod.mk.injEq] at hs
  obtain ⟨hcalls, hcached, hmemory⟩ := hs
  refine ⟨s, hr, ?_, fun h => ?_⟩
  · intro pc hpc
    rw [hcalls] at hpc
    simp only [List.mem_cons, List.not_mem_nil, or_false] at hpc
    rcases hpc with rfl | rfl <;> rfl
  · have hm := h.cached .medium
    have hl := h.cached .large
    have := h.memory
    omega

end MemoryPool

end Msgtrans
