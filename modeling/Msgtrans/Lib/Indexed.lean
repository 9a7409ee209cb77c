import Mathlib.Algebra.BigOperators.Group.List.Basic
import Mathlib.Data.List.Nodup
import Mathlib.Data.List.Perm.Subperm

/-!
# Lists as tables

A list that only grows at its end and is updated in place: an index is a name that stays valid.
-/

namespace Indexed

variable {α : Type*} {xs : List α} {j k : ℕ} {x y z : α}

theorem getElem?_set_of_some (h : xs[k]? = some x) : (xs.set k y)[j]? = if j = k then some y else xs[j]? := by
  have hlt : k < xs.length := (List.getElem?_eq_some_iff.1 h).1
  rw [List.getElem?_set]
  by_cases hj : k = j
  · rw [if_pos hj, if_pos hlt, if_pos hj.symm]
  · rw [if_neg hj, if_neg (Ne.symm hj)]

theorem getElem?_set_self_of_some (h : xs[k]? = some x) : (xs.set k y)[k]? = some y :=
  (getElem?_set_of_some h).trans (if_pos rfl)

/-- After an update an entry is the new one, or was there before. -/
theorem of_getElem?_set (h : xs[k]? = some x) (hz : (xs.set k y)[j]? = some z) :
    j = k ∧ z = y ∨ j ≠ k ∧ xs[j]? = some z := by
  rw [getElem?_set_of_some h] at hz
  split at hz
  · next hj => exact .inl ⟨hj, (Option.some.inj hz).symm⟩
  · next hj => exact .inr ⟨hj, hz⟩

theorem mem_set_self_of_some (h : xs[k]? = some x) : y ∈ xs.set k y :=
  List.mem_of_getElem? (getElem?_set_self_of_some h)

/-- An update loses nothing but the entry it replaces. -/
theorem mem_set_of_ne (h : xs[k]? = some x) (hz : z ∈ xs) (hne : z ≠ x) : z ∈ xs.set k y := by
  obtain ⟨j, hj⟩ := List.mem_iff_getElem?.1 hz
  refine List.mem_of_getElem? (i := j) ?_
  rw [getElem?_set_of_some h, if_neg, hj]
  rintro rfl
  rw [h] at hj
  exact hne (Option.some.inj hj).symm

theorem getElem?_concat_of_some (h : xs[j]? = some z) : (xs ++ [x])[j]? = some z :=
  (List.getElem?_append_left (List.getElem?_eq_some_iff.1 h).1).trans h

theorem getElem?_concat_eq_some : (xs ++ [x])[j]? = some z ↔ xs[j]? = some z ∨ j = xs.length ∧ z = x := by
  rcases Nat.lt_trichotomy j xs.length with hlt | rfl | hgt
  · rw [List.getElem?_append_left hlt]
    exact ⟨.inl, fun h => h.resolve_right fun h => absurd h.1 (Nat.ne_of_lt hlt)⟩
  · rw [List.getElem?_concat_length, List.getElem?_eq_none (Nat.le_refl _)]
    simp [eq_comm]
  · rw [List.getElem?_eq_none (by simp; omega), List.getElem?_eq_none (Nat.le_of_lt hgt)]
    simp [Nat.ne_of_gt hgt]

/-- An update that keeps what `f` sees. -/
theorem map_set_of_eq {β : Type*} {f : α → β} (h : xs[k]? = some x) (hf : f y = f x) : (xs.set k y).map f = xs.map f := by
  obtain ⟨hlt, rfl⟩ := List.getElem?_eq_some_iff.1 h
  have hlt' : k < (xs.map f).length := by rwa [List.length_map]
  rw [List.map_set, hf, ← List.getElem_map f (h := hlt'), List.set_getElem_self]

theorem countP_set_add {p : α → Bool} (h : xs[k]? = some x) :
    (xs.set k y).countP p + (if p x then 1 else 0) = xs.countP p + (if p y then 1 else 0) := by
  obtain ⟨hlt, rfl⟩ := List.getElem?_eq_some_iff.1 h
  have hpos : (if p xs[k] then 1 else 0) ≤ xs.countP p := by
    split
    · next hp => exact List.countP_pos_iff.2 ⟨_, List.getElem_mem hlt, hp⟩
    · exact Nat.zero_le _
  rw [List.countP_set hlt]
  omega

/-- An update adds to a sum over the entries what it adds to the entry. -/
theorem sum_map_set_add {M : Type*} [AddCommMonoid M] {f : α → M} (h : xs[k]? = some x) :
    ((xs.set k y).map f).sum + f x = (xs.map f).sum + f y := by
  induction xs generalizing k with
  | nil => simp at h
  | cons z xs ih =>
    cases k with
    | zero =>
      cases h
      simp only [List.set_cons_zero, List.map_cons, List.sum_cons]
      rw [add_comm (f y), add_comm (f x), add_right_comm]
    | succ k =>
      have hi := ih (k := k) h
      simp only [List.set_cons_succ, List.map_cons, List.sum_cons, add_assoc, hi]

theorem sum_map_eq_zero {M : Type*} [AddCommMonoid M] {f : α → M} (h : ∀ x ∈ xs, f x = 0) : (xs.map f).sum = 0 := by
  refine List.sum_eq_zero fun m hm => ?_
  obtain ⟨x, hx, rfl⟩ := List.mem_map.1 hm
  exact h x hx

/-- Distinct indices of entries that satisfy `p` are at most as many as these entries. -/
theorem length_le_countP {p : α → Bool} {ks : List ℕ} (hnd : ks.Nodup)
    (hks : ∀ k ∈ ks, ∃ x, xs[k]? = some x ∧ p x = true) : ks.length ≤ xs.countP p := by
  have hsub : ks ⊆ xs.findIdxs p := by
    intro k hk
    obtain ⟨x, hx, hp⟩ := hks k hk
    obtain ⟨hlt, rfl⟩ := List.getElem?_eq_some_iff.1 hx
    exact List.mem_findIdxs_iff_exists_getElem_pos.2 ⟨hlt, hp⟩
  rw [← List.length_findIdxs]
  exact (List.subperm_of_subset hnd hsub).length_le

end Indexed
