import Mathlib.Algebra.BigOperators.Group.List.Basic
import Mathlib.Algebra.Order.Group.Int
import Msgtrans.Lib.Indexed
import Msgtrans.Lib.Run

/-!
# The memory pool (`transport/memory_pool.rs`)

Three queues of buffers, one for each class, and counters that are brought up to date after the queues. All clones of a
pool share them, and calls on them run at once: a step is one operation on a queue, a counter or a cache limit.

A queue operation is one step here and a push succeeds, as on the unbounded channel behind it; the counters inside
`LockFreeQueue` are not read by the pool. Statistics that nothing reads back, and the events, are left out.

`enough_of_run`: buffers are as large as their class as long as no smaller one is put in a queue.
-/

namespace Msgtrans

namespace MemoryPool

inductive BufferSize where
  | small
  | medium
  | large
deriving DecidableEq, Repr

def BufferSize.capacity : BufferSize → ℕ
  | .small => 1024
  | .medium => 8192
  | .large => 65536

/-- A `BytesMut`, by what the pool sees of it. -/
structure Buffer where
  len : ℕ
  capacity : ℕ
  len_le : len ≤ capacity
deriving DecidableEq, Repr

def Buffer.clear (b : Buffer) : Buffer := ⟨0, b.capacity, Nat.zero_le _⟩

/-- What `BytesMut::with_capacity` allocates for a requested capacity. -/
structure Allocator where
  capacity : ℕ → ℕ
  le_capacity : ∀ n, n ≤ capacity n

def Allocator.withCapacity (a : Allocator) (n : ℕ) : Buffer := ⟨0, a.capacity n, Nat.zero_le _⟩

/-- Where a call stands; the operation named is the next one. -/
inductive Pc where
  /-- `get_buffer` -/
  | countGet (size : BufferSize)
  | pop (size : BufferSize)
  | uncount (size : BufferSize) (buffer : Buffer)
  | countHit (size : BufferSize) (buffer : Buffer)
  | uncountMemory (size : BufferSize) (buffer : Buffer)
  | countMiss (size : BufferSize)
  | got (size : BufferSize) (buffer : Buffer)
  /-- `return_buffer` -/
  | loadCached (size : BufferSize) (buffer : Buffer)
  | loadLimit (size : BufferSize) (buffer : Buffer) (currentCached : ℕ)
  | push (size : BufferSize) (buffer : Buffer)
  | count (size : BufferSize)
  | countMemory (size : BufferSize)
  /-- `clear_cache` -/
  | clear (size : BufferSize) (clearedCount clearedMemory : ℕ)
  | uncountCleared (size : BufferSize) (clearedCount clearedMemory : ℕ)
  | storeMemory (clearedCount clearedMemory : ℕ)
  | cleared (clearedCount : ℕ)
  /-- `adjust_cache_limits` -/
  | checkPressure
  | reduce (size : BufferSize)
  | storeLimit (size : BufferSize) (limit : ℕ)
  | done
deriving DecidableEq

structure State where
  queues : BufferSize → List Buffer
  /-- `small_max_cached`, `medium_max_cached` and `large_max_cached` -/
  maxCached : BufferSize → ℕ
  /-- the `u64` counters, as integers; a load sees their remainder -/
  cached : BufferSize → ℤ
  totalMemoryCached : ℤ
  totalGetOperations : ℕ
  cacheHitCount : ℕ
  cacheMissCount : ℕ
  calls : List Pc

def load (counter : ℤ) : ℕ := (counter % 2 ^ 64).toNat

/-- `OptimizedMemoryPool::new` -/
def new : State where
  queues _ := []
  maxCached
    | .small => 500
    | .medium => 200
    | .large => 50
  cached _ := 0
  totalMemoryCached := 0
  totalGetOperations := 0
  cacheHitCount := 0
  cacheMissCount := 0
  calls := []

/-- One loop of `with_preallocation`. -/
def preallocate (a : Allocator) (size : BufferSize) : ℕ → State → State
  | 0, s => s
  | n + 1, s => preallocate a size n { s with
      queues := Function.update s.queues size (s.queues size ++ [a.withCapacity size.capacity])
      cached := Function.update s.cached size (s.cached size + 1)
      totalMemoryCached := s.totalMemoryCached + size.capacity }

def withPreallocation (a : Allocator) (smallCount mediumCount largeCount : ℕ) (s : State) : State :=
  preallocate a .large largeCount (preallocate a .medium mediumCount (preallocate a .small smallCount s))

/-- The class `clear_cache` and `adjust_cache_limits` come to next. -/
def BufferSize.next : BufferSize → Option BufferSize
  | .small => some .medium
  | .medium => some .large
  | .large => none

/-- The next step of a call: where it then stands, and the new state but for that. `pressure` is whether the cached
memory is above the threshold of `adjust_cache_limits`, where the step asks that. -/
def exec (a : Allocator) (s : State) (pressure : Bool) : Pc → Option (Pc × State)
  | .countGet size => some (.pop size, { s with totalGetOperations := s.totalGetOperations + 1 })
  | .pop size => match s.queues size with
    | [] => some (.countMiss size, s)
    | buffer :: rest => some (.uncount size buffer, { s with queues := Function.update s.queues size rest })
  | .uncount size buffer =>
    some (.countHit size buffer, { s with cached := Function.update s.cached size (s.cached size - 1) })
  | .countHit size buffer => some (.uncountMemory size buffer, { s with cacheHitCount := s.cacheHitCount + 1 })
  | .uncountMemory size buffer =>
    some (.got size buffer.clear, { s with totalMemoryCached := s.totalMemoryCached - size.capacity })
  | .countMiss size =>
    some (.got size (a.withCapacity size.capacity), { s with cacheMissCount := s.cacheMissCount + 1 })
  | .loadCached size buffer => some (.loadLimit size buffer (load (s.cached size)), s)
  | .loadLimit size buffer currentCached =>
    some (if currentCached ≥ s.maxCached size then .done else .push size buffer, s)
  | .push size buffer => some (.count size, { s with queues := Function.update s.queues size (s.queues size ++ [buffer]) })
  | .count size => some (.countMemory size, { s with cached := Function.update s.cached size (s.cached size + 1) })
  | .countMemory size => some (.done, { s with totalMemoryCached := s.totalMemoryCached + size.capacity })
  | .clear size n m => match s.queues size with
    | [] => some (size.next.elim (.storeMemory n m) (.clear · n m), s)
    | _ :: rest => some (.uncountCleared size (n + 1) (m + size.capacity), { s with queues := Function.update s.queues size rest })
  | .uncountCleared size n m =>
    some (.clear size n m, { s with cached := Function.update s.cached size (s.cached size - 1) })
  | .storeMemory n _ => some (.cleared n, { s with totalMemoryCached := 0 })
  | .checkPressure => some (if pressure then .reduce .small else .done, s)
  | .reduce size => some (.storeLimit size (s.maxCached size * 4 / 5), s)
  | .storeLimit size limit =>
    some (size.next.elim .done .reduce, { s with maxCached := Function.update s.maxCached size limit })
  | .got _ _ | .cleared _ | .done => none

inductive Label where
  | getBuffer (size : BufferSize)
  | returnBuffer (buffer : Buffer) (size : BufferSize)
  | clearCache
  | adjustCacheLimits
  /-- call `i` takes its next step -/
  | run (i : ℕ) (pressure : Bool)

/-- The first check of `return_buffer`. -/
def Buffer.abnormal (b : Buffer) : Bool := b.capacity == 0 || b.capacity > 10 * 1024 * 1024

def State.begin (s : State) (pc : Pc) : State := { s with calls := s.calls ++ [pc] }

def step (a : Allocator) (s : State) : Label → Option State
  | .getBuffer size => some (s.begin (.countGet size))
  | .returnBuffer buffer size => some (s.begin (if buffer.abnormal then .done else .loadCached size buffer))
  | .clearCache => some (s.begin (.clear .small 0 0))
  | .adjustCacheLimits => some (s.begin .checkPressure)
  | .run i pressure => s.calls[i]?.bind fun pc =>
    (exec a s pressure pc).map fun r => { r.2 with calls := s.calls.set i r.1 }

/-! ### Buffers of their class -/

def BufferSize.Enough (size : BufferSize) (b : Buffer) : Prop := size.capacity ≤ b.capacity

/-- What `get_buffer` promises of the buffers it has returned. -/
def Law (s : State) : Prop := ∀ size b, .got size b ∈ s.calls → b.len = 0 ∧ size.capacity ≤ b.capacity

def Pc.PushesEnough : Pc → Prop
  | .push size b => size.Enough b
  | _ => True

/-- A buffer that is put in a queue is as large as the class. -/
def PushesEnough (s : State) : Label → Prop
  | .run i _ => ∀ pc ∈ s.calls[i]?, pc.PushesEnough
  | _ => True

instance : DecidablePred Pc.PushesEnough := fun pc => by
  cases pc with
  | push size b => exact inferInstanceAs (Decidable (size.capacity ≤ b.capacity))
  | _ => exact .isTrue trivial

instance (s : State) (l : Label) : Decidable (PushesEnough s l) := by
  cases l with
  | run i _ =>
    exact decidable_of_iff (s.calls[i]?.all fun pc => decide pc.PushesEnough) (by simp [PushesEnough, Option.all_eq_true])
  | _ => exact .isTrue trivial

/-- A buffer a call has taken out is enough, and one it has returned is empty. -/
def Pc.Enough : Pc → Prop
  | .uncount size b | .countHit size b | .uncountMemory size b => size.Enough b
  | .got size b => b.len = 0 ∧ size.Enough b
  | _ => True

structure EnoughInv (s : State) : Prop where
  queued : ∀ size, ∀ b ∈ s.queues size, size.Enough b
  calls : ∀ pc ∈ s.calls, pc.Enough

variable {a : Allocator} {s s' s₁ : State} {i : ℕ} {pc pc' : Pc} {size : BufferSize} {b : Buffer} {pressure : Bool}

theorem forall_update {q : List Buffer} (h : ∀ size, ∀ b ∈ s.queues size, size.Enough b)
    (hq : ∀ b ∈ q, size.Enough b) : ∀ size', ∀ b ∈ Function.update s.queues size q size', size'.Enough b := by
  intro size' b hb
  by_cases hsize : size' = size
  · subst hsize
    rw [Function.update_self] at hb
    exact hq b hb
  · rw [Function.update_of_ne hsize] at hb
    exact h size' b hb

theorem Allocator.enough (a : Allocator) (size : BufferSize) : size.Enough (a.withCapacity size.capacity) :=
  a.le_capacity _

theorem EnoughInv.preallocate (h : EnoughInv s) (n : ℕ) : EnoughInv (preallocate a size n s) := by
  induction n generalizing s with
  | zero => exact h
  | succ n ih =>
    refine ih ⟨forall_update h.queued fun b hb => ?_, h.calls⟩
    rcases List.mem_append.1 hb with hb | hb
    · exact h.queued size b hb
    · rw [List.mem_singleton.1 hb]
      exact a.enough size

theorem EnoughInv.start (smallCount mediumCount largeCount : ℕ) :
    EnoughInv (withPreallocation a smallCount mediumCount largeCount new) := by
  have hnew : EnoughInv new := ⟨fun _ b hb => absurd hb List.not_mem_nil, fun pc hpc => absurd hpc List.not_mem_nil⟩
  exact ((hnew.preallocate _).preallocate _).preallocate _

/-- A call that has gone on. -/
theorem EnoughInv.set (h : EnoughInv s) (hq : ∀ size, ∀ b ∈ s₁.queues size, size.Enough b)
    (hpc : pc'.Enough) : EnoughInv { s₁ with calls := s.calls.set i pc' } := by
  refine ⟨hq, fun pc hmem => ?_⟩
  rcases List.mem_or_eq_of_mem_set hmem with hmem | rfl
  · exact h.calls pc hmem
  · exact hpc

theorem enough_exec (h : EnoughInv s) (hpc : pc.Enough) (hpush : ∀ size b, pc = .push size b → size.Enough b)
    (he : exec a s pressure pc = some (pc', s₁)) :
    (∀ size, ∀ b ∈ s₁.queues size, size.Enough b) ∧ pc'.Enough := by
  cases pc with
  | pop size =>
    simp only [exec] at he
    split at he
    · cases he
      exact ⟨h.queued, trivial⟩
    · next b rest hq =>
      cases he
      have hall := h.queued size
      rw [hq] at hall
      exact ⟨forall_update h.queued fun b' hb' => hall b' (List.mem_cons_of_mem _ hb'), hall b List.mem_cons_self⟩
  | push size b =>
    cases he
    refine ⟨forall_update h.queued fun b' hb' => ?_, trivial⟩
    rcases List.mem_append.1 hb' with hb' | hb'
    · exact h.queued size b' hb'
    · rw [List.mem_singleton.1 hb']
      exact hpush size b rfl
  | clear size n m =>
    simp only [exec] at he
    split at he
    · cases he
      refine ⟨h.queued, ?_⟩
      cases size <;> trivial
    · next b rest hq =>
      cases he
      have hall := h.queued size
      rw [hq] at hall
      exact ⟨forall_update h.queued fun b' hb' => hall b' (List.mem_cons_of_mem _ hb'), trivial⟩
  | uncountMemory size b =>
    cases he
    exact ⟨h.queued, rfl, hpc⟩
  | countMiss size =>
    cases he
    exact ⟨h.queued, rfl, a.enough size⟩
  | loadLimit size b n =>
    cases he
    refine ⟨h.queued, ?_⟩
    split <;> trivial
  | checkPressure =>
    cases he
    refine ⟨h.queued, ?_⟩
    split <;> trivial
  | storeLimit size limit =>
    cases he
    refine ⟨h.queued, ?_⟩
    cases size <;> trivial
  | uncount size b | countHit size b =>
    cases he
    exact ⟨h.queued, hpc⟩
  | countGet | loadCached | count | countMemory | uncountCleared | storeMemory | reduce =>
    cases he
    exact ⟨h.queued, trivial⟩
  | got | cleared | done => cases he

theorem EnoughInv.begin (h : EnoughInv s) (hpc : pc.Enough) : EnoughInv (s.begin pc) := by
  refine ⟨h.queued, fun pc' hmem => ?_⟩
  rcases List.mem_append.1 hmem with hmem | hmem
  · exact h.calls pc' hmem
  · rw [List.mem_singleton.1 hmem]
    exact hpc

theorem enough_step {l : Label} (hs : step a s l = some s') (hpush : PushesEnough s l) (h : EnoughInv s) : EnoughInv s' := by
  cases l with
  | getBuffer size | clearCache | adjustCacheLimits =>
    cases hs
    exact h.begin trivial
  | returnBuffer b size =>
    cases hs
    refine h.begin ?_
    split <;> trivial
  | run i pressure =>
    obtain ⟨pc, hc, hs⟩ := Option.bind_eq_some_iff.1 hs
    obtain ⟨⟨pc', s₁⟩, he, rfl⟩ := Option.map_eq_some_iff.1 hs
    obtain ⟨hq, hpc'⟩ := enough_exec h (h.calls pc (List.mem_of_getElem? hc))
      (fun size b hpc => by have := hpush pc hc; rw [hpc] at this; exact this) he
    exact h.set hq hpc'

/-- Whatever is preallocated and however the calls interleave: as long as no buffer is cached as one of a larger class,
every buffer handed out is empty and has the capacity of its class. -/
theorem enough_of_run (smallCount mediumCount largeCount : ℕ) {ls : List Label}
    (hpush : StepSystem.Meets (step a) PushesEnough (withPreallocation a smallCount mediumCount largeCount new) ls) :
    StepSystem.Always (step a) Law (withPreallocation a smallCount mediumCount largeCount new) ls := by
  intro ms t hms ht
  have h := StepSystem.always_of_meets (fun _ _ _ hs hG hI => enough_step hs hG hI) hpush
    (EnoughInv.start smallCount mediumCount largeCount) ms t hms ht
  exact fun size b hgot => h.calls _ hgot

def exactly : Allocator := ⟨id, fun _ => le_rfl⟩

/-- The run of one call that nothing else interleaves with. -/
def alone (i steps : ℕ) : List Label := List.replicate steps (.run i false)

/-- A grown buffer is put back and handed out again. -/
theorem enough_of_reuse :
    StepSystem.Always (step exactly) Law (withPreallocation exactly 1 0 0 new)
      ([.getBuffer .small] ++ alone 0 5 ++ [.returnBuffer ⟨3000, 4096, by decide⟩ .small] ++ alone 1 5 ++
        [.getBuffer .small] ++ alone 2 5) :=
  enough_of_run 1 0 0 (by decide +kernel)

/-- A buffer of one byte put back as a large one is the next large one. -/
theorem one_byte_large :
    let ls := [.returnBuffer ⟨0, 1, by decide⟩ .large] ++ alone 0 5 ++ [.getBuffer .large] ++ alone 1 5
    ∃ s, StepSystem.run (step exactly) (withPreallocation exactly 0 0 0 new) ls = some s ∧ ¬ Law s := by
  intro ls
  have hcalls : (StepSystem.run (step exactly) (withPreallocation exactly 0 0 0 new) ls).map State.calls =
      some [.done, .got .large ⟨0, 1, by decide⟩] := by
    decide +kernel
  obtain ⟨s, hr, hs⟩ := Option.map_eq_some_iff.1 hcalls
  refine ⟨s, hr, fun h => ?_⟩
  have hgot := (h .large ⟨0, 1, by decide⟩ (by rw [hs]; exact .tail _ (.head _))).2
  exact absurd hgot (by decide)

end MemoryPool

end Msgtrans
