import Mathlib.Data.Finset.Card
import Mathlib.Data.List.GetD
import Msgtrans.Lib.Observer
import Msgtrans.LockFreeMap

/-!
# Walks while others write (`transport/lockfree.rs`)

`keys`, `snapshot`, `len` and `for_each` load the shards one after the other, and nothing keeps `insert` and `remove` away in
between. What a walk lists need not be what the map held at any one moment: it is, shard by shard, what the map held at some
moment of the walk (`walked_of_run`). So a key that stays is listed, and one that is never there is not.
-/

namespace Msgtrans

namespace LockFreeHashMap

variable {K V : Type} [DecidableEq K] {hash : K → UInt64} {capacity : ℕ}

/-- One turn of the loop over `self.shards`; `None` when there is no shard left. -/
def loadShard (s : State K V capacity) (loaded : List (Map K V)) : Option (List (Map K V)) :=
  if h : loaded.length < shardCount capacity then some (loaded ++ [s.contents ⟨loaded.length, h⟩]) else none

/-- The shards as the walk has seen them. -/
def shardsOf (capacity : ℕ) (loaded : List (Map K V)) (i : Fin (shardCount capacity)) : Map K V := loaded.getD i ∅

abbrev Moments (K V : Type) (capacity : ℕ) := State K V capacity → Prop

def stepWalk (hash : K → UInt64) (capacity : ℕ) :
    State K V capacity × List (Map K V) → Observer.Label (CopyOnWrite.Label (Op K V)) Unit →
      Option (State K V capacity × List (Map K V)) :=
  Observer.step (step hash capacity) fun s loaded _ => loadShard s loaded

/-- What a walk over `shards` is worth when others write during it. -/
structure Walked (hash : K → UInt64) (capacity : ℕ) (during : Moments K V capacity)
    (shards : Fin (shardCount capacity) → Map K V) : Prop where
  /-- the entries of one map are listed, and on each shard the map was like it at some moment -/
  lists : ∃ m, Lists shards m ∧ ∀ i, ∃ t, during t ∧ ∀ key, shardIndex hash capacity key = i → m.lookup key = (plain t).lookup key
  kept : ∀ key, (∀ t, during t → key ∈ plain t) → key ∈ keys shards
  held : ∀ key ∈ keys shards, ∃ t, during t ∧ key ∈ plain t
  atLeast : ∀ stay : Finset K, (∀ key ∈ stay, ∀ t, during t → key ∈ plain t) → stay.card ≤ len shards
  atMost : ∀ ever : Finset K, (∀ t, during t → ∀ key ∈ plain t, key ∈ ever) → len shards ≤ ever.card

/-! ### The shards together -/

section

variable {shards : Fin (shardCount capacity) → Map K V}

omit [DecidableEq K] in
theorem nodupKeys_flatMap (h : ∀ i key, key ∈ shards i → shardIndex hash capacity key = i) :
    ((List.finRange (shardCount capacity)).flatMap fun i => (shards i).entries).NodupKeys := by
  rw [List.NodupKeys, List.keys, List.map_flatMap]
  refine List.nodup_flatMap.2 ⟨fun i _ => (shards i).nodupKeys, (List.nodup_finRange _).imp fun {i j} hij => ?_⟩
  intro key hi hj
  exact hij ((h i key hi).symm.trans (h j key hj))

/-- Shards that hold only keys of theirs represent a map, loaded at one moment or not. -/
theorem represents_of_placed (h : ∀ i key, key ∈ shards i → shardIndex hash capacity key = i) :
    ∃ m, Represents hash capacity shards m := by
  refine ⟨⟨_, nodupKeys_flatMap h⟩, h, fun key => Option.ext fun value => ?_⟩
  rw [← Option.mem_def, ← Option.mem_def, AList.mem_lookup_iff, AList.mem_lookup_iff, List.mem_flatMap]
  constructor
  · exact fun hmem => ⟨_, List.mem_finRange _, hmem⟩
  · rintro ⟨i, -, hmem⟩
    rw [h i key (AList.mem_keys.2 (List.mem_map_of_mem hmem))]
    exact hmem

omit [DecidableEq K] in
theorem len_eq_length_keys {m : Map K V} (h : Lists shards m) : len shards = (keys shards).length := by
  rw [h.len, h.keys.length_eq]
  exact (List.length_map ..).symm

/-- What follows when each shard has been loaded at some moment. -/
theorem walked_of_loads {during : Moments K V capacity}
    (h : ∀ i, ∃ t, during t ∧ Represents hash capacity t.contents (plain t) ∧ shards i = t.contents i) :
    Walked hash capacity during shards := by
  have hplaced : ∀ i key, key ∈ shards i → shardIndex hash capacity key = i := by
    intro i key hkey
    obtain ⟨t, -, ht, hi⟩ := h i
    rw [hi] at hkey
    exact ht.placed i key hkey
  obtain ⟨m, hm⟩ := represents_of_placed hplaced
  have hshard : ∀ i, ∃ t, during t ∧ ∀ key, shardIndex hash capacity key = i → m.lookup key = (plain t).lookup key := by
    intro i
    obtain ⟨t, ht, hrep, hi⟩ := h i
    refine ⟨t, ht, fun key hkey => ?_⟩
    rw [← hm.lookup key, ← hrep.lookup key, hkey, hi]
  have hmem : ∀ key, ∃ t, during t ∧ (key ∈ keys shards ↔ key ∈ plain t) := by
    intro key
    obtain ⟨t, ht, hlookup⟩ := hshard (shardIndex hash capacity key)
    refine ⟨t, ht, ?_⟩
    rw [hm.mem_keys, ← AList.mem_keys, ← AList.lookup_isSome, hlookup key rfl, AList.lookup_isSome]
  have hkept : ∀ key, (∀ t, during t → key ∈ plain t) → key ∈ keys shards := by
    intro key hstay
    obtain ⟨t, ht, hiff⟩ := hmem key
    exact hiff.2 (hstay t ht)
  have hheld : ∀ key ∈ keys shards, ∃ t, during t ∧ key ∈ plain t := by
    intro key hkey
    obtain ⟨t, ht, hiff⟩ := hmem key
    exact ⟨t, ht, hiff.1 hkey⟩
  have hlen : len shards = (keys shards).toFinset.card := by
    rw [len_eq_length_keys hm.lists, List.toFinset_card_of_nodup hm.nodup_keys]
  refine ⟨⟨m, hm.lists, hshard⟩, hkept, hheld, fun stay hstay => ?_, fun ever hever => ?_⟩
  · rw [hlen]
    exact Finset.card_le_card fun key hkey => List.mem_toFinset.2 (hkept key (hstay key hkey))
  · rw [hlen]
    refine Finset.card_le_card fun key hkey => ?_
    obtain ⟨t, ht, hkey⟩ := hheld key (List.mem_toFinset.1 hkey)
    exact hever t ht key hkey

end

/-! ### The run of a walk -/

/-- The map has been used by anyone in any way before. -/
def Reached (hash : K → UInt64) (capacity : ℕ) (s : State K V capacity) : Prop :=
  ∃ ls, StepSystem.run (step hash capacity) (withCapacity K V capacity) ls = some s

theorem Reached.step {s s' : State K V capacity} {l : CopyOnWrite.Label (Op K V)} (hs : step hash capacity s l = some s')
    (h : Reached hash capacity s) : Reached hash capacity s' := by
  obtain ⟨ls, hr⟩ := h
  exact ⟨ls ++ [l], StepSystem.run_concat_eq_some.2 ⟨s, hr, hs⟩⟩

theorem Reached.represents {s : State K V capacity} (h : Reached hash capacity s) :
    Represents hash capacity s.contents (plain s) := by
  obtain ⟨ls, hr⟩ := h
  exact (linearizable hr).represents

/-- Each shard in the list is what it was at one of the moments. -/
def Loads (hash : K → UInt64) (capacity : ℕ) (during : Moments K V capacity) (loaded : List (Map K V)) : Prop :=
  loaded.length ≤ shardCount capacity ∧ ∀ (i : Fin (shardCount capacity)) (m : Map K V), loaded[i.val]? = some m →
    ∃ t, during t ∧ Represents hash capacity t.contents (plain t) ∧ m = t.contents i

section

variable {D D' : Moments K V capacity} {s : State K V capacity} {loaded loaded' : List (Map K V)}

theorem Loads.nil : Loads hash capacity D ([] : List (Map K V)) := ⟨Nat.zero_le _, fun _ _ h => nomatch h⟩

theorem Loads.mono (hD : ∀ t, D t → D' t) (h : Loads hash capacity D loaded) : Loads hash capacity D' loaded := by
  refine ⟨h.1, fun i m hm => ?_⟩
  obtain ⟨t, ht, hrest⟩ := h.2 i m hm
  exact ⟨t, hD t ht, hrest⟩

theorem Loads.load (hreach : Reached hash capacity s) (hs : D s) (hload : loadShard s loaded = some loaded')
    (h : Loads hash capacity D loaded) : Loads hash capacity D loaded' := by
  rw [loadShard] at hload
  split at hload
  · next hlt =>
    cases hload
    refine ⟨by rw [List.length_append]; exact hlt, fun i m hm => ?_⟩
    obtain hold | ⟨hi, rfl⟩ := Indexed.getElem?_concat_eq_some.1 hm
    · exact h.2 i m hold
    · refine ⟨s, hs, hreach.represents, ?_⟩
      exact congrArg s.contents (Fin.ext hi.symm)
  · cases hload

theorem Loads.walked (h : Loads hash capacity D loaded) (hall : loadShard s loaded = none) :
    Walked hash capacity D (shardsOf capacity loaded) := by
  have hlen : shardCount capacity ≤ loaded.length := by
    rw [loadShard] at hall
    split at hall
    · cases hall
    · next hlt => exact Nat.le_of_not_lt hlt
  refine walked_of_loads fun i => ?_
  have hi : i.val < loaded.length := i.isLt.trans_le hlen
  obtain ⟨t, ht, hrep, heq⟩ := h.2 i _ (List.getElem?_eq_getElem hi)
  refine ⟨t, ht, hrep, ?_⟩
  rw [shardsOf, List.getD_eq_getElem _ _ hi]
  exact heq

end

/-- A walk begun in any reachable state, with the steps of all other tasks between its loads. -/
theorem walked_of_run {s t : State K V capacity} {loaded : List (Map K V)}
    {ls : List (Observer.Label (CopyOnWrite.Label (Op K V)) Unit)} (hreach : Reached hash capacity s)
    (hr : StepSystem.run (stepWalk hash capacity) (s, []) ls = some (t, loaded)) (hall : loadShard t loaded = none) :
    Walked hash capacity (Observer.During (stepWalk hash capacity) (s, []) ls) (shardsOf capacity loaded) := by
  have hloads : Loads hash capacity (Observer.During (stepWalk hash capacity) (s, []) ls) loaded :=
    Observer.of_run (I := Loads hash capacity) (fun D D' p hD h => h.mono hD) (fun s l s' => Reached.step)
      (fun D s p a p' hW hD hs h => h.load hW hD hs) hr hreach .nil
  exact hloads.walked hall

/-- Keys 0 and 1 are in different shards. Both are inserted, 0 first, between the two loads: the walk lists 1 without 0, which
the map never held so. -/
theorem walked_of_run_torn :
    let ls : List (Observer.Label (CopyOnWrite.Label (Op UInt64 String)) Unit) := [.task (),
      .world (.invoke (.insert 0 "a")), .world (.load 0), .world (.copy 0 10), .world (.exchange 0 false),
      .world (.invoke (.insert 1 "b")), .world (.load 1), .world (.copy 1 11), .world (.exchange 1 false), .task ()]
    ∃ t loaded, StepSystem.run (stepWalk id 2) (withCapacity UInt64 String 2, []) ls = some (t, loaded) ∧
      keys (shardsOf 2 loaded) = [1] ∧ (plain t).keys = [1, 0] ∧
      Walked id 2 (Observer.During (stepWalk id 2) (withCapacity UInt64 String 2, []) ls) (shardsOf 2 loaded) := by
  intro ls
  have hrun : (StepSystem.run (stepWalk id 2) (withCapacity UInt64 String 2, []) ls).map (fun x =>
      (loadShard x.1 x.2, keys (shardsOf 2 x.2), (plain x.1).keys)) = some (none, [1], [1, 0]) := by
    rfl
  obtain ⟨⟨t, loaded⟩, hr, heq⟩ := Option.map_eq_some_iff.1 hrun
  obtain ⟨hall, hkeys, hplain⟩ : loadShard t loaded = none ∧ keys (shardsOf 2 loaded) = [1] ∧
      (plain t).keys = [1, 0] := by simpa using heq
  exact ⟨t, loaded, hr, hkeys, hplain, walked_of_run ⟨[], rfl⟩ hr hall⟩

end LockFreeHashMap

end Msgtrans
