import Mathlib.Data.List.AList

/-!
# Tables whose values are classified

A table and lists of its keys by what is stored under them: the free and the taken entries of a pool, the
open and the closed ones of a registry. A list without duplicates of the keys of one kind counts the entries
of that kind.
-/

namespace Table

variable {K V : Type*} [DecidableEq K] {m : AList fun _ : K => V} {p q : V → Prop} {j k : K} {v w : V} {ks : List K}

/-- The value under `k` satisfies `p`. -/
def Has (p : V → Prop) (m : AList fun _ : K => V) (k : K) : Prop := ∃ v, m.lookup k = some v ∧ p v

theorem Has.mem (h : Has p m k) : k ∈ m :=
  let ⟨v, hv, _⟩ := h
  AList.lookup_isSome.1 (Option.isSome_iff_exists.2 ⟨v, hv⟩)

theorem has_of_lookup (h : m.lookup k = some v) : Has p m k ↔ p v := by
  constructor
  · rintro ⟨w, hw, hp⟩
    cases h.symm.trans hw
    exact hp
  · exact fun hp => ⟨v, h, hp⟩

@[simp] theorem has_insert_self : Has p (m.insert k v) k ↔ p v := has_of_lookup (AList.lookup_insert m)

theorem has_insert_of_ne (h : j ≠ k) : Has p (m.insert k v) j ↔ Has p m j := by
  simp only [Has, AList.lookup_insert_ne h]

@[simp] theorem has_erase : Has p (m.erase k) j ↔ j ≠ k ∧ Has p m j := by
  by_cases h : j = k
  · subst h
    simp [Has]
  · simp [Has, AList.lookup_erase_ne h, h]

theorem lookup_insert_eq_some : (m.insert k v).lookup j = some w ↔ j = k ∧ w = v ∨ j ≠ k ∧ m.lookup j = some w := by
  by_cases h : j = k
  · subst h
    simp [eq_comm]
  · simp [AList.lookup_insert_ne h, h]

theorem lookup_of_erase (h : (m.erase k).lookup j = some w) : j ≠ k ∧ m.lookup j = some w := by
  by_cases hj : j = k
  · subst hj
    simp at h
  · exact ⟨hj, (AList.lookup_erase_ne hj).symm.trans h⟩

theorem length_insert_of_notMem (h : k ∉ m) : (m.insert k v).entries.length = m.entries.length + 1 := by
  rw [AList.entries_insert_of_notMem h, List.length_cons]

theorem length_insert_of_mem (h : k ∈ m) : (m.insert k v).entries.length = m.entries.length := by
  have hk : (m.insert k v).keys.length = m.keys.length := by
    rw [AList.keys_insert, List.length_cons, List.length_erase_of_mem h]
    have : 0 < m.keys.length := List.length_pos_of_mem h
    omega
  simpa only [AList.keys, List.keys, List.length_map] using hk

theorem length_erase_of_mem (h : k ∈ m) : (m.erase k).entries.length + 1 = m.entries.length := by
  have hk : (m.erase k).keys.length + 1 = m.keys.length := by
    rw [AList.keys_erase, List.length_erase_of_mem h]
    have : 0 < m.keys.length := List.length_pos_of_mem h
    omega
  simpa only [AList.keys, List.keys, List.length_map] using hk

/-- The keys whose value satisfies `p`. -/
def keysWhere (p : V → Prop) [DecidablePred p] (m : AList fun _ : K => V) : List K :=
  (m.entries.filter fun e => p e.2).keys

variable [DecidablePred p] [DecidablePred q]

theorem mem_keysWhere : k ∈ keysWhere p m ↔ Has p m k := by
  constructor
  · intro h
    obtain ⟨v, hv⟩ := List.exists_of_mem_keys h
    obtain ⟨hmem, hp⟩ := List.mem_filter.1 hv
    exact ⟨v, AList.mem_lookup_iff.2 hmem, of_decide_eq_true hp⟩
  · rintro ⟨v, hv, hp⟩
    exact List.mem_keys_of_mem (s := ⟨k, v⟩) (List.mem_filter.2 ⟨AList.mem_lookup_iff.1 hv, decide_eq_true hp⟩)

omit [DecidableEq K] in
theorem nodup_keysWhere : (keysWhere p m).Nodup :=
  List.Nodup.sublist (List.Sublist.map _ List.filter_sublist) m.keys_nodup

/-- A list of the keys with `p`, each once, is as long as there are such entries. -/
theorem length_keysWhere (hnd : ks.Nodup) (h : ∀ k, k ∈ ks ↔ Has p m k) : (keysWhere p m).length = ks.length :=
  ((List.perm_ext_iff_of_nodup nodup_keysWhere hnd).2 fun k => mem_keysWhere.trans (h k).symm).length_eq

/-- Where every value satisfies one of `p` and `q`, and none both, the entries are counted by the two. -/
theorem length_entries (h : ∀ k v, m.lookup k = some v → (q v ↔ ¬ p v)) :
    m.entries.length = (keysWhere p m).length + (keysWhere q m).length := by
  have hq : (m.entries.filter fun e => q e.2) = m.entries.filter fun e => ¬ p e.2 := by
    refine List.filter_congr fun e he => ?_
    have he' : e.2 ∈ m.lookup e.1 := AList.mem_lookup_iff.2 he
    rw [decide_eq_decide]
    exact h e.1 e.2 he'
  have hlen := List.length_eq_length_filter_add (l := m.entries) fun e => decide (p e.2)
  simp only [keysWhere, List.keys, List.length_map, hq, hlen, decide_not]

end Table
