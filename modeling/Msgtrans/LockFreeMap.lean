import Mathlib.Data.List.AList
import Mathlib.Data.Nat.Log
import Msgtrans.Lib.CopyOnWrite

/-!
# The lock-free hash map (`transport/lockfree.rs`)

A `LockFreeHashMap` is an array of shards, each an atomic pointer to a `HashMap`; a key lives in the shard
its hash selects. `get` is a read of its shard, `insert` and `remove` are copy-on-write updates that give
up with an error after `maxRetries` failed exchanges. No shard's pointer is ever null: `with_capacity`
fills every shard and an exchange puts in a new map, so the null branches are not modelled; nor are the
counters, which nothing reads back.

`linearizable`: whatever the interleaving, the map answers as one plain map would.
-/

namespace Msgtrans

namespace LockFreeHashMap

open CopyOnWrite

/-- `std::collections::HashMap`; nothing below depends on the order of its entries. -/
abbrev Map (K V : Type) := AList fun _ : K => V

inductive Op (K V : Type) where
  | get (key : K)
  | insert (key : K) (value : V)
  | remove (key : K)

variable {K V : Type} [DecidableEq K]

def Op.key : Op K V → K
  | .get key => key
  | .insert key _ => key
  | .remove key => key

def Op.isGet : Op K V → Bool
  | .get _ => true
  | _ => false

/-- What the operation returns and does on a plain map. -/
def Op.apply : Op K V → Map K V → Option V × Map K V
  | .get key, m => (m.lookup key, m)
  | .insert key value, m => (m.lookup key, m.insert key value)
  | .remove key, m => (m.lookup key, m.erase key)

def maxRetries : ℕ := 100

/-- `shard_count.next_power_of_two()`. -/
def shardCount (capacity : ℕ) : ℕ := 2 ^ Nat.clog 2 capacity

/-- `(hasher.finish() as usize) & (self.shard_count - 1)`. -/
def shardIndex (hash : K → UInt64) (capacity : ℕ) (key : K) : Fin (shardCount capacity) :=
  ⟨(hash key).toNat &&& (shardCount capacity - 1), by
    rw [shardCount, Nat.and_two_pow_sub_one_eq_mod]
    exact Nat.mod_lt _ (Nat.two_pow_pos _)⟩

def object (hash : K → UInt64) (capacity : ℕ) : Object (Fin (shardCount capacity)) (Map K V) (Op K V) (Option V) where
  cell op := shardIndex hash capacity op.key
  apply := Op.apply
  isRead := Op.isGet
  read_keeps op m h := by
    cases op with
    | get key => rfl
    | insert key value => cases h
    | remove key => cases h
  maxRetries := maxRetries

abbrev State (K V : Type) (capacity : ℕ) :=
  CopyOnWrite.State (Fin (shardCount capacity)) (Map K V) (Op K V) (Option V)

/-- `with_capacity`: every shard points to an empty map. -/
def withCapacity (K V : Type) (capacity : ℕ) : State K V capacity := start (fun _ => ∅) fun i => i.val

def step (hash : K → UInt64) (capacity : ℕ) : State K V capacity → Label (Op K V) → Option (State K V capacity) :=
  CopyOnWrite.step (object hash capacity)

/-! ### Walks over the shards -/

section Walk

variable {n : ℕ} {σ : Type} (shards : Fin n → Map K V)

def snapshot : List (K × V) := (List.finRange n).flatMap fun i => (shards i).entries.map fun e => (e.1, e.2)

def keys : List K := (List.finRange n).flatMap fun i => (shards i).keys

def len : ℕ := (List.finRange n).foldl (fun count i => count + (shards i).entries.length) 0

def forEach (f : σ → K → V → σ) (s : σ) : σ :=
  (List.finRange n).foldl (fun s i => (shards i).entries.foldl (fun s e => f s e.1 e.2) s) s

/-- The walks over the shards list the entries of `m`, each once. -/
structure Lists (m : Map K V) : Prop where
  nodup : (keys shards).Nodup
  keys : (keys shards).Perm m.keys
  snapshot : (snapshot shards).Perm (m.entries.map fun e => (e.1, e.2))
  len : len shards = m.entries.length
  forEach : ∀ {σ : Type} (f : σ → K → V → σ) (s : σ),
    forEach shards f s = (LockFreeHashMap.snapshot shards).foldl (fun s e => f s e.1 e.2) s

end Walk

/-! ### The shards as one map -/

/-- Every key is in the shard of its hash, and the shards together hold what `m` holds. -/
structure Represents (hash : K → UInt64) (capacity : ℕ) (shards : Fin (shardCount capacity) → Map K V) (m : Map K V) :
    Prop where
  placed : ∀ i key, key ∈ shards i → shardIndex hash capacity key = i
  lookup : ∀ key, (shards (shardIndex hash capacity key)).lookup key = m.lookup key

section Represents

variable {hash : K → UInt64} {capacity : ℕ} {shards : Fin (shardCount capacity) → Map K V} {m : Map K V}

theorem Represents.empty : Represents (V := V) hash capacity (fun _ => ∅) ∅ :=
  ⟨fun _ _ h => absurd h (AList.notMem_empty _), fun _ => rfl⟩

theorem Represents.update (h : Represents hash capacity shards m) {key : K} {shard m' : Map K V}
    (hself : shard.lookup key = m'.lookup key) (hshard : ∀ key', key' ≠ key →
      shard.lookup key' = (shards (shardIndex hash capacity key)).lookup key')
    (hm : ∀ key', key' ≠ key → m'.lookup key' = m.lookup key') :
    Represents hash capacity (Function.update shards (shardIndex hash capacity key) shard) m' := by
  refine ⟨fun i key' hmem => ?_, fun key' => ?_⟩
  · by_cases hi : i = shardIndex hash capacity key
    · rw [hi, Function.update_self] at hmem
      by_cases hkey : key' = key
      · rw [hkey, hi]
      · rw [← AList.lookup_isSome, hshard key' hkey, AList.lookup_isSome] at hmem
        rw [hi]
        exact h.placed _ key' hmem
    · rw [Function.update_of_ne hi] at hmem
      exact h.placed i key' hmem
  · by_cases hkey : key' = key
    · rw [hkey, Function.update_self, hself]
    · rw [hm key' hkey, ← h.lookup key']
      by_cases hi : shardIndex hash capacity key' = shardIndex hash capacity key
      · rw [hi, Function.update_self, hshard key' hkey]
      · rw [Function.update_of_ne hi]

/-- An operation on the shard of its key is the operation on the map. -/
theorem Represents.apply (h : Represents hash capacity shards m) (op : Op K V) :
    ((object hash capacity).applyAt op shards).1 = (op.apply m).1 ∧
      Represents hash capacity ((object hash capacity).applyAt op shards).2 (op.apply m).2 := by
  cases op with
  | get key =>
    have hsame : ((object hash capacity).applyAt (.get key) shards).2 = shards := Function.update_eq_self ..
    rw [hsame]
    exact ⟨h.lookup key, h⟩
  | insert key value =>
    refine ⟨h.lookup key, h.update ?_ (fun key' hkey => ?_) fun key' hkey => ?_⟩
    · show (AList.insert key value _ : Map K V).lookup key = (m.insert key value).lookup key
      rw [AList.lookup_insert, AList.lookup_insert]
    · exact AList.lookup_insert_ne hkey
    · exact AList.lookup_insert_ne hkey
  | remove key =>
    refine ⟨h.lookup key, h.update ?_ (fun key' hkey => ?_) fun key' hkey => ?_⟩
    · show (AList.erase key _ : Map K V).lookup key = (m.erase key).lookup key
      rw [AList.lookup_erase, AList.lookup_erase]
    · exact AList.lookup_erase_ne hkey
    · exact AList.lookup_erase_ne hkey

theorem Represents.mem_keys (h : Represents hash capacity shards m) {key : K} : key ∈ keys shards ↔ key ∈ m.keys := by
  rw [keys, List.mem_flatMap, ← AList.mem_keys, ← AList.lookup_isSome, ← h.lookup key, AList.lookup_isSome]
  constructor
  · rintro ⟨i, -, hi⟩
    rw [h.placed i key hi]
    exact hi
  · exact fun hi => ⟨_, List.mem_finRange _, hi⟩

theorem Represents.nodup_keys (h : Represents hash capacity shards m) : (keys shards).Nodup := by
  refine List.nodup_flatMap.2 ⟨fun i _ => (shards i).keys_nodup, (List.nodup_finRange _).imp fun {i j} hij => ?_⟩
  -- a key in two shards would have two indices
  intro key hi hj
  exact hij ((h.placed i key hi).symm.trans (h.placed j key hj))

theorem Represents.mem_snapshot (h : Represents hash capacity shards m) {key : K} {value : V} :
    (key, value) ∈ snapshot shards ↔ (key, value) ∈ m.entries.map fun e => (e.1, e.2) := by
  have hentry : ∀ m' : Map K V, (key, value) ∈ (m'.entries.map fun e => (e.1, e.2)) ↔ m'.lookup key = some value := by
    intro m'
    rw [← Option.mem_def, AList.mem_lookup_iff, List.mem_map]
    constructor
    · rintro ⟨⟨k, v⟩, he, heq⟩
      cases heq
      exact he
    · exact fun he => ⟨_, he, rfl⟩
  rw [hentry, snapshot, List.mem_flatMap, ← h.lookup key]
  constructor
  · rintro ⟨i, -, hi⟩
    have hlookup := (hentry _).1 hi
    rw [h.placed i key (AList.lookup_isSome.1 (by rw [hlookup]; rfl))]
    exact hlookup
  · exact fun hi => ⟨_, List.mem_finRange _, (hentry _).2 hi⟩

omit [DecidableEq K] in
theorem map_fst_entries (m : Map K V) : (m.entries.map fun e => (e.1, e.2)).map Prod.fst = m.keys :=
  List.map_map ..

omit [DecidableEq K] in
theorem map_fst_snapshot {n : ℕ} (shards : Fin n → Map K V) : (snapshot shards).map Prod.fst = keys shards := by
  simp only [snapshot, keys, List.map_flatMap, map_fst_entries]

theorem Represents.lists (h : Represents hash capacity shards m) : Lists shards m := by
  have hkeys : (keys shards).Perm m.keys :=
    (List.perm_ext_iff_of_nodup h.nodup_keys m.keys_nodup).2 fun _ => h.mem_keys
  refine ⟨h.nodup_keys, hkeys, ?_, ?_, fun f s => ?_⟩
  · refine (List.perm_ext_iff_of_nodup (.of_map Prod.fst ?_) (.of_map Prod.fst ?_)).2 fun _ => h.mem_snapshot
    · rw [map_fst_snapshot]
      exact h.nodup_keys
    · rw [map_fst_entries]
      exact m.keys_nodup
  · have hlength : len shards = (keys shards).length := by
      rw [len, keys, List.length_flatMap, List.sum_eq_foldl, List.foldl_map]
      simp [AList.keys, List.keys]
    rw [hlength, hkeys.length_eq]
    exact List.length_map ..
  · rw [forEach, snapshot, List.foldl_flatMap]
    simp only [List.foldl_map]

end Represents

/-! ### Every interleaving -/

/-- What the operations that took effect, in the order in which they did, do to one plain map. -/
def plain {capacity : ℕ} (s : State K V capacity) : Map K V := (replay Op.apply ∅ (s.history.map (·.op))).2

structure Linearizable (hash : K → UInt64) (capacity : ℕ) (s : State K V capacity) : Prop where
  /-- the plain map gives the same answers -/
  answers : (replay Op.apply ∅ (s.history.map (·.op))).1 = s.history.map (·.answer)
  once : (s.history.map (·.call)).Nodup
  ok : ∀ (k : ℕ) (c : Call (Op K V) (Option V)) (answer : Option V), s.calls[k]? = some c → c.pc = .done answer →
    ⟨k, c.op, answer⟩ ∈ s.history
  err : ∀ (k : ℕ) (c : Call (Op K V) (Option V)), s.calls[k]? = some c → c.pc = .failed →
    ∀ e ∈ s.history, e.call ≠ k
  /-- nothing else took effect: a call in the history has returned its answer, or is a `get` that has loaded -/
  only : ∀ e ∈ s.history, ∃ c : Call (Op K V) (Option V), s.calls[e.call]? = some c ∧ c.op = e.op ∧
    (c.pc = .done e.answer ∨ c.op.isGet = true ∧ ∃ ptr retries, c.pc = .loaded ptr retries)
  storedOnce : ∀ i, (s.contents i).keys.Nodup
  represents : Represents hash capacity s.contents (plain s)
  /-- a walk loads the shards one after the other, each in some state while no writer runs -/
  listed : ∀ (ls : List (Label (Op K V))) (shards : Fin (shardCount capacity) → Map K V),
    s.Quiet (object hash capacity) → (∀ l ∈ ls, l.Reads (object hash capacity)) →
    (∀ i, ∃ ms t, ms <+: ls ∧ StepSystem.run (step hash capacity) s ms = some t ∧ shards i = t.contents i) →
    Lists shards (plain s)

theorem linearizable {hash : K → UInt64} {capacity : ℕ} {s : State K V capacity} {ls : List (Label (Op K V))}
    (hr : StepSystem.run (step hash capacity) (withCapacity K V capacity) ls = some s) :
    Linearizable hash capacity s := by
  have hinv : Inv (object hash capacity) (fun _ => ∅) s := Inv.of_run hr
  obtain ⟨hanswers, hrep⟩ := replay_simulates (R := Represents hash capacity)
    (fun op shards m h => Represents.apply (m := m) h op) (s.history.map (·.op)) (Represents.empty (V := V))
  rw [hinv.replay] at hanswers hrep
  have hcall := hinv.calls
  refine ⟨hanswers.symm, hinv.once, fun k c answer hc hpc => ?_, fun k c hc hpc => ?_, fun e he => hinv.answered he,
    fun i => (s.contents i).keys_nodup, hrep, fun ms shards hquiet hreads hload => ?_⟩
  · simpa [Call.Accounted, hpc] using hcall k c hc
  · simpa [Call.Accounted, State.Absent, hpc] using hcall k c hc
  · have heq : shards = s.contents := by
      funext i
      obtain ⟨ns, t, ⟨rest, rfl⟩, ht, hi⟩ := hload i
      rw [hi, contents_of_quiet ht hinv hquiet fun l hl => hreads l (List.mem_append_left _ hl)]
    rw [heq]
    exact hrep.lists

/-- Two writers of one key: the first loses its exchange, then fails once more by itself, and its third
copy goes to the address of the first. -/
theorem linearizable_two_writers :
    let ls : List (Label (Op UInt64 String)) := [.invoke (.insert 5 "a"), .invoke (.insert 5 "b"),
      .invoke (.get 5), .load 0, .load 1, .copy 0 10, .copy 1 11, .exchange 1 false, .exchange 0 false,
      .load 2, .load 0, .copy 0 12, .exchange 0 true, .load 0, .copy 0 10, .exchange 0 false, .read 2]
    ∃ s, StepSystem.run (step id 3) (withCapacity UInt64 String 3) ls = some s ∧ Linearizable id 3 s := by
  intro ls
  obtain ⟨s, hs⟩ : ∃ s, StepSystem.run (step id 3) (withCapacity UInt64 String 3) ls = some s := ⟨_, rfl⟩
  exact ⟨s, hs, linearizable hs⟩

end LockFreeHashMap

end Msgtrans
