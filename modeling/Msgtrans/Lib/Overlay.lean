import Mathlib.Tactic.Tauto

/-!
# Field-wise overlays

A merge of two records takes each field from the second one when a test of its own says that it was set
there, and from the first one otherwise. `Over` is what an overlay is for: a field was set when it is not
the default. `over_iff`: it holds of two records just when no field is tested wrongly on them.

The merge is associative whatever the tests are.
-/

namespace Overlay

structure Field (C : Type*) where
  Value : Type
  get : C → Value
  isSet : Value → Prop

structure Merge (C : Type*) where
  default : C
  merge : C → C → C
  fields : List (Field C)
  ext : ∀ {a b : C}, (∀ f ∈ fields, f.get a = f.get b) → a = b
  taken : ∀ f ∈ fields, ∀ a b, f.isSet (f.get b) → f.get (merge a b) = f.get b
  kept : ∀ f ∈ fields, ∀ a b, ¬ f.isSet (f.get b) → f.get (merge a b) = f.get a

namespace Merge
variable {C : Type*} {M : Merge C} {a b c : C} {f : Field C}

def Over (M : Merge C) (a b : C) : Prop :=
  ∀ f ∈ M.fields, (f.get b ≠ f.get M.default → f.get (M.merge a b) = f.get b) ∧
    (f.get b = f.get M.default → f.get (M.merge a b) = f.get a)

/-- The test of the field tells whether `b` differs from the default, or it does not matter. -/
def Told (M : Merge C) (f : Field C) (a b : C) : Prop :=
  f.get a = f.get b ∨ (f.isSet (f.get b) ↔ f.get b ≠ f.get M.default)

theorem get_merge (hf : f ∈ M.fields) : f.get (M.merge a b) = f.get b ∧ f.isSet (f.get b) ∨
    f.get (M.merge a b) = f.get a ∧ ¬ f.isSet (f.get b) := by
  by_cases hset : f.isSet (f.get b)
  · exact .inl ⟨M.taken f hf a b hset, hset⟩
  · exact .inr ⟨M.kept f hf a b hset, hset⟩

theorem field_over_iff (hf : f ∈ M.fields) : ((f.get b ≠ f.get M.default → f.get (M.merge a b) = f.get b) ∧
    (f.get b = f.get M.default → f.get (M.merge a b) = f.get a)) ↔ M.Told f a b := by
  have hcomm : f.get b = f.get a ↔ f.get a = f.get b := eq_comm
  unfold Told
  obtain ⟨hget, hset⟩ | ⟨hget, hset⟩ := M.get_merge (a := a) (b := b) hf
  · rw [hget]
    tauto
  · rw [hget]
    tauto

theorem over_iff : M.Over a b ↔ ∀ f ∈ M.fields, M.Told f a b :=
  forall₂_congr fun _ hf => field_over_iff hf

theorem Over.merge_default (h : M.Over a M.default) : M.merge a M.default = a :=
  M.ext fun f hf => (h f hf).2 rfl

theorem merge_default_iff : M.merge a M.default = a ↔ M.Over a M.default :=
  ⟨fun h f _ => ⟨fun hne => absurd rfl hne, fun _ => by rw [h]⟩, Over.merge_default⟩

theorem default_merge_iff : M.merge M.default b = b ↔ M.Over M.default b := by
  refine ⟨fun h f _ => ⟨fun _ => by rw [h], fun hb => by rw [h, hb]⟩, fun h => M.ext fun f hf => ?_⟩
  by_cases hb : f.get b = f.get M.default
  · rw [(h f hf).2 hb, hb]
  · exact (h f hf).1 hb

theorem merge_assoc : M.merge (M.merge a b) c = M.merge a (M.merge b c) := by
  refine M.ext fun f hf => ?_
  by_cases hc : f.isSet (f.get c)
  · have hbc : f.get (M.merge b c) = f.get c := M.taken f hf b c hc
    rw [M.taken f hf _ c hc, M.taken f hf a _ (hbc ▸ hc), hbc]
  · have hbc : f.get (M.merge b c) = f.get b := M.kept f hf b c hc
    rw [M.kept f hf _ c hc]
    by_cases hb : f.isSet (f.get b)
    · rw [M.taken f hf a b hb, M.taken f hf a _ (hbc ▸ hb), hbc]
    · rw [M.kept f hf a b hb, M.kept f hf a _ (hbc ▸ hb)]

end Merge

end Overlay
