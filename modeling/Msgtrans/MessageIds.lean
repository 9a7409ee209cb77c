import Mathlib.Algebra.Group.Nat.Defs
import Mathlib.Data.List.Range
import Mathlib.Data.List.Nodup
import Msgtrans.Lib.Run

/-!
# Message ids (`packet.rs`, `MessageIdManager`)

`next_id` is a `fetch_add` and, for the call that takes the largest id, a `store` of 1 after it; that call returns
1 as well. Between the two the counter is 0, and after them it is 1: so whatever calls come next, they return 0 or 1 once
more. From a counter of `c` the ids are `c`, `c + 1`, .. up to there, and `distinct_iff` says that this is all that can
go wrong.
-/

namespace Msgtrans

namespace MessageIdManager

abbrev ThreadId := ℕ

structure State where
  counter : UInt32
  /-- the threads that have taken the largest id and have not stored 1 yet -/
  storing : List ThreadId
deriving DecidableEq

def new : State := ⟨1, []⟩

def u32Max : UInt32 := 4294967295

/-- The atomic steps of `next_id`, and `reset`, which is one step. -/
inductive Label where
  | fetchAdd (thread : ThreadId)
  | store (thread : ThreadId)
  | reset (thread : ThreadId)
deriving DecidableEq

def step (s : State) : Label → Option State
  | .fetchAdd thread =>
    if thread ∈ s.storing then none
    else if s.counter = u32Max then some ⟨s.counter + 1, thread :: s.storing⟩
    else some ⟨s.counter + 1, s.storing⟩
  | .store thread => if thread ∈ s.storing then some ⟨1, s.storing.erase thread⟩ else none
  | .reset thread => if thread ∈ s.storing then none else some ⟨1, s.storing⟩

/-- The id that a call of `next_id` returns with this step. -/
def returned (s : State) : Label → Option UInt32
  | .fetchAdd _ => if s.counter = u32Max then none else some s.counter
  | .store _ => some 1
  | .reset _ => none

/-- The ids returned in a run. -/
def issued : State → List Label → List UInt32
  | _, [] => []
  | s, l :: ls => (returned s l).toList ++ (step s l).elim [] fun s' => issued s' ls

def Label.isFetchAdd : Label → Bool
  | .fetchAdd _ => true
  | _ => false

def Label.isReset : Label → Bool
  | .reset _ => true
  | _ => false

/-- How many calls of `next_id` are begun. -/
def calls (ls : List Label) : ℕ := ls.countP Label.isFetchAdd

variable {s s' s₀ : State} {l : Label} {ls pre : List Label} {x : UInt32} {thread : ThreadId} {c k : ℕ} {ids : List ℕ}

theorem toNat_succ (h : x ≠ u32Max) : (x + 1).toNat = x.toNat + 1 := by
  have hne : x.toNat ≠ 4294967295 := fun hx => h (UInt32.toNat.inj hx)
  have hlt := x.toNat_lt
  rw [UInt32.toNat_add]
  show (x.toNat + 1) % 2 ^ 32 = x.toNat + 1
  omega

/-- The counter is 0 only while a thread is about to store 1. -/
theorem storing_step (hs : step s l = some s') : s'.counter = 0 → s'.storing ≠ [] := by
  cases l with
  | fetchAdd thread =>
    simp only [step] at hs
    split at hs
    · cases hs
    split at hs
    · cases hs
      exact fun _ => List.cons_ne_nil _ _
    · next hmax =>
      cases hs
      intro h0
      have hn := toNat_succ hmax
      rw [show s.counter + 1 = 0 from h0] at hn
      exact absurd hn.symm (Nat.succ_ne_zero _)
  | store thread =>
    simp only [step] at hs
    split at hs
    · cases hs
      exact fun h0 => absurd (show (1 : UInt32) = 0 from h0) (by decide)
    · cases hs
  | reset thread =>
    simp only [step] at hs
    split at hs
    · cases hs
    · cases hs
      exact fun h0 => absurd (show (1 : UInt32) = 0 from h0) (by decide)

/-- Where a sequence of `k` calls stands that began with the counter at `c`, and what it has returned. -/
inductive Phase (c k : ℕ) (s : State) (ids : List ℕ) : Prop where
  | below (hk : c + k < 2 ^ 32) (hcounter : s.counter.toNat = c + k) (hstoring : s.storing = []) (hids : ids = List.range' c k)
  /-- the last call has taken the largest id -/
  | taken (thread : ThreadId) (hk : c + k = 2 ^ 32) (hcounter : s.counter = 0) (hstoring : s.storing = [thread])
      (hids : ids = List.range' c (k - 1))
  | stored (hk : c + k = 2 ^ 32) (hcounter : s.counter = 1) (hstoring : s.storing = [])
      (hids : ids = List.range' c (k - 1) ++ [1])
  | wrong (hk : 2 ^ 32 < c + k) (hids : 0 ∈ ids ∨ ¬ ids.Nodup)

theorem Phase.fetchAdd (h : Phase c k s ids) (hs : step s (.fetchAdd thread) = some s') :
    Phase c (k + 1) s' (ids ++ (returned s (.fetchAdd thread)).toList.map UInt32.toNat) := by
  simp only [step] at hs
  split at hs
  · cases hs
  cases h with
  | below hk hcounter hstoring hids =>
    split at hs
    · next hmax =>
      cases hs
      have hc : c + k = 4294967295 := hcounter.symm.trans (congrArg UInt32.toNat hmax)
      refine .taken thread (by omega) ?_ (by rw [hstoring]) ?_
      · rw [hmax]
        rfl
      · rw [returned, if_pos hmax, hids]
        exact List.append_nil _
    · next hmax =>
      cases hs
      have hne : s.counter.toNat ≠ 4294967295 := fun hx => hmax (UInt32.toNat.inj hx)
      refine .below (by omega) ?_ hstoring ?_
      · rw [toNat_succ hmax, hcounter, Nat.add_assoc]
      · rw [returned, if_neg hmax, hids, List.range'_1_concat, ← hcounter]
        rfl
  | taken thread' hk hcounter hstoring hids =>
    refine .wrong (by omega) (.inl (List.mem_append_right _ ?_))
    rw [returned, hcounter]
    exact List.mem_cons_self
  | stored hk hcounter hstoring hids =>
    refine .wrong (by omega) (.inr fun hnd => ?_)
    rw [hids, returned, hcounter] at hnd
    exact List.nodup_append.1 hnd |>.2.2 1 (by simp) 1 List.mem_cons_self rfl
  | wrong hk hids =>
    refine .wrong (by omega) (hids.imp (List.mem_append_left _) fun hnd hnd' => hnd ?_)
    exact (List.nodup_append.1 hnd').1

theorem Phase.store (h : Phase c k s ids) (hs : step s (.store thread) = some s') :
    Phase c k s' (ids ++ (returned s (.store thread)).toList.map UInt32.toNat) := by
  simp only [step] at hs
  split at hs
  · next hmem =>
    cases hs
    cases h with
    | below hk hcounter hstoring hids =>
      rw [hstoring] at hmem
      cases hmem
    | taken thread' hk hcounter hstoring hids =>
      rw [hstoring] at hmem
      obtain rfl := List.mem_singleton.1 hmem
      refine .stored hk rfl ?_ (by rw [hids]; rfl)
      rw [hstoring, List.erase_cons_head]
    | stored hk hcounter hstoring hids =>
      rw [hstoring] at hmem
      cases hmem
    | wrong hk hids =>
      refine .wrong hk (hids.imp (List.mem_append_left _) fun hnd hnd' => hnd ?_)
      exact (List.nodup_append.1 hnd').1
  · cases hs

theorem Phase.run (h : Phase c k s ids) (hr : StepSystem.run step s ls = some s') (hls : ∀ l ∈ ls, l.isReset = false) :
    Phase c (k + calls ls) s' (ids ++ (issued s ls).map UInt32.toNat) := by
  induction ls generalizing s k ids with
  | nil =>
    cases hr
    rw [issued, List.map_nil, List.append_nil]
    exact h
  | cons l ls ih =>
    obtain ⟨t, ht, hr'⟩ := StepSystem.run_cons_eq_some.1 hr
    obtain ⟨hl, hls'⟩ := List.forall_mem_cons.1 hls
    rw [issued, ht, List.map_append, ← List.append_assoc]
    cases l with
    | fetchAdd thread =>
      have hcalls : calls (.fetchAdd thread :: ls) = 1 + calls ls := by
        rw [calls, List.countP_cons_of_pos rfl, Nat.add_comm]
        rfl
      rw [hcalls, ← Nat.add_assoc]
      exact ih (h.fetchAdd ht) hr' hls'
    | store thread => exact ih (h.store ht) hr' hls'
    | reset thread => cases hl

/-- All ids are right exactly as long as no call comes after the one that takes the largest id. -/
theorem Phase.distinct_iff (h : Phase c k s ids) (hc : 1 ≤ c) (hk : k ≤ 2 ^ 32 - 2) :
    ids.Nodup ∧ 0 ∉ ids ↔ c + k ≤ 2 ^ 32 := by
  cases h with
  | below hlt hcounter hstoring hids =>
    subst hids
    refine iff_of_true ⟨List.nodup_range', fun h0 => ?_⟩ hlt.le
    have := (List.mem_range'_1.1 h0).1
    omega
  | taken thread heq hcounter hstoring hids =>
    subst hids
    refine iff_of_true ⟨List.nodup_range', fun h0 => ?_⟩ heq.le
    have := (List.mem_range'_1.1 h0).1
    omega
  | stored heq hcounter hstoring hids =>
    subst hids
    refine iff_of_true ⟨?_, fun h0 => ?_⟩ heq.le
    · refine List.nodup_append.2 ⟨List.nodup_range', List.nodup_singleton _, fun a ha b hb hab => ?_⟩
      have := (List.mem_range'_1.1 ha).1
      have := List.mem_singleton.1 hb
      omega
    · rcases List.mem_append.1 h0 with h0 | h0
      · have := (List.mem_range'_1.1 h0).1
        omega
      · cases List.mem_singleton.1 h0
  | wrong hgt hids =>
    refine iff_of_false (fun hgood => ?_) (Nat.not_le_of_lt hgt)
    rcases hids with h0 | hnd
    · exact hgood.2 h0
    · exact hnd hgood.1

/-- A sequence of calls, however they interleave, that begins while no other is under way: the ids are distinct and not 0
exactly when the counter and the number of calls add up to no more than 2^32. -/
theorem ids_distinct_iff (hpre : StepSystem.run step new pre = some s₀) (hrest : s₀.storing = [])
    (hr : StepSystem.run step s₀ ls = some s) (hls : ∀ l ∈ ls, l.isReset = false) (hk : calls ls ≤ 2 ^ 32 - 2) :
    (issued s₀ ls).Nodup ∧ 0 ∉ issued s₀ ls ↔ s₀.counter.toNat + calls ls ≤ 2 ^ 32 := by
  have hstoring := StepSystem.run_invariant (I := fun s => s.counter = 0 → s.storing ≠ [])
    (fun _ _ _ hs _ => storing_step hs) hpre (fun h0 => absurd h0 (by decide))
  have hpos : 1 ≤ s₀.counter.toNat := by
    rw [Nat.one_le_iff_ne_zero]
    exact fun h0 => hstoring (UInt32.toNat.inj h0) hrest
  have hphase : Phase s₀.counter.toNat 0 s₀ [] := .below s₀.counter.toNat_lt rfl hrest rfl
  have hiff := (hphase.run hr hls).distinct_iff hpos (by rwa [Nat.zero_add])
  rw [List.nil_append, Nat.zero_add, List.nodup_map_iff fun _ _ => UInt32.toNat.inj] at hiff
  rw [← hiff]
  refine and_congr_right fun _ => not_congr ⟨fun h0 => List.mem_map_of_mem h0, fun h0 => ?_⟩
  obtain ⟨x, hx, hx0⟩ := List.mem_map.1 h0
  rwa [← UInt32.toNat.inj (a := x) (b := 0) hx0]

/-- Two threads after a reset, and one of them again. -/
theorem ids_distinct_iff_reset :
    (issued new [.fetchAdd 0, .fetchAdd 1, .fetchAdd 0]).Nodup ∧ 0 ∉ issued new [.fetchAdd 0, .fetchAdd 1, .fetchAdd 0] ↔
      new.counter.toNat + calls [.fetchAdd 0, .fetchAdd 1, .fetchAdd 0] ≤ 2 ^ 32 :=
  ids_distinct_iff (show StepSystem.run step new [.fetchAdd 0, .reset 1] = some new from rfl) rfl rfl (by decide) (by decide)

theorem run_fetchAdds {m n : ℕ} (h : m + n < 2 ^ 32) :
    StepSystem.run step ⟨.ofNat m, []⟩ (List.replicate n (.fetchAdd 0)) = some ⟨.ofNat (m + n), []⟩ := by
  induction n generalizing m with
  | zero => rfl
  | succ n ih =>
    have hne : UInt32.ofNat m ≠ u32Max := by
      intro hmax
      have hm : (UInt32.ofNat m).toNat = m := UInt32.toNat_ofNat_of_lt' (show m < 2 ^ 32 by omega)
      rw [hmax] at hm
      have : m = 4294967295 := hm.symm
      omega
    have hstep : step ⟨.ofNat m, []⟩ (.fetchAdd 0) = some ⟨.ofNat (m + 1), []⟩ := by
      rw [step, if_neg List.not_mem_nil, if_neg hne, UInt32.ofNat_add]
      rfl
    rw [List.replicate_succ, StepSystem.run_cons, hstep, Option.bind_some, ih (by omega), Nat.add_right_comm, Nat.add_assoc]

/-- After 2^32 - 2 calls the next one returns 1, and so does the one after it; or 0, when it comes before the store. -/
theorem one_issued_twice :
    ∃ s, StepSystem.run step new (List.replicate (2 ^ 32 - 2) (.fetchAdd 0)) = some s ∧ s.storing = [] ∧
      (∃ s', StepSystem.run step s [.fetchAdd 0, .store 0, .fetchAdd 0] = some s') ∧
      issued s [.fetchAdd 0, .store 0, .fetchAdd 0] = [1, 1] ∧
      (∃ s', StepSystem.run step s [.fetchAdd 0, .fetchAdd 1] = some s') ∧ issued s [.fetchAdd 0, .fetchAdd 1] = [0] :=
  ⟨⟨u32Max, []⟩, run_fetchAdds (m := 1) (n := 2 ^ 32 - 2) (by decide), rfl, ⟨⟨2, []⟩, by decide⟩, by decide,
    ⟨⟨1, [0]⟩, by decide⟩, by decide⟩

end MessageIdManager

end Msgtrans
