import Msgtrans.Lib.LastWrite
import Msgtrans.Lib.Overlay

/-!
# Checks of overlaid records

A record is checked field by field, and the first check that rejects what it reads gives the error. Of records laid over each
other a check reads the field in the last of them that sets it, so the verdict about the whole chain can be read off its links:
`firstError_chain`. A chain of accepted records is accepted.
-/

namespace Overlay

variable {C ε : Type*}

structure Check (C ε : Type*) where
  field : Field C
  rejects : field.Value → Option ε

def firstError (checks : List (Check C ε)) (c : C) : Option ε := checks.findSome? fun k => k.rejects (k.field.get c)

/-- What a sequence of checks with early returns comes to. -/
def verdict (e : Option ε) : Except ε Unit := e.elim (.ok ()) .error

theorem verdict_eq_ok {e : Option ε} : verdict e = .ok () ↔ e = none := by cases e <;> simp [verdict]

theorem firstError_eq_none {checks : List (Check C ε)} {c : C} :
    firstError checks c = none ↔ ∀ k ∈ checks, k.rejects (k.field.get c) = none :=
  List.findSome?_eq_none_iff

open Classical in
/-- The field in the last of the records that sets it, or in the first record. -/
noncomputable def Field.lastSet (f : Field C) (c : C) (cs : List C) : f.Value :=
  LastWrite.last (fun b => if f.isSet (f.get b) then some (f.get b) else none) (f.get c) cs

theorem Field.lastSet_mem (f : Field C) (c : C) (cs : List C) : ∃ b ∈ c :: cs, f.lastSet c cs = f.get b := by
  induction cs using List.reverseRecOn with
  | nil => exact ⟨c, List.mem_cons_self, rfl⟩
  | append_singleton cs b ih =>
    rw [lastSet, LastWrite.last_concat]
    split
    · exact ⟨b, by simp, rfl⟩
    · obtain ⟨d, hd, heq⟩ := ih
      refine ⟨d, ?_, heq⟩
      rw [← List.cons_append]
      exact List.mem_append_left _ hd

namespace Merge

variable {M : Merge C} {f : Field C} {checks : List (Check C ε)}

/-- All of `cs` laid over `c`, one after the other. -/
def chain (M : Merge C) (c : C) (cs : List C) : C := cs.foldl M.merge c

theorem get_chain (hf : f ∈ M.fields) (c : C) (cs : List C) : f.get (M.chain c cs) = f.lastSet c cs := by
  refine LastWrite.Reads.foldl (fun a b => ?_) c cs
  split
  · next hset => exact M.taken f hf a b hset
  · next hset => exact M.kept f hf a b hset

theorem firstError_chain (hchecks : ∀ k ∈ checks, k.field ∈ M.fields) (c : C) (cs : List C) :
    firstError checks (M.chain c cs) = checks.findSome? fun k => k.rejects (k.field.lastSet c cs) := by
  rw [firstError]
  induction checks with
  | nil => rfl
  | cons k checks ih =>
    rw [List.findSome?_cons, List.findSome?_cons, get_chain (hchecks k List.mem_cons_self),
      ih fun k' hk' => hchecks k' (List.mem_cons_of_mem k hk')]

theorem accepts_chain (hchecks : ∀ k ∈ checks, k.field ∈ M.fields) {c : C} {cs : List C}
    (h : ∀ b ∈ c :: cs, firstError checks b = none) : firstError checks (M.chain c cs) = none := by
  rw [firstError_chain hchecks, List.findSome?_eq_none_iff]
  intro k hk
  obtain ⟨b, hb, heq⟩ := k.field.lastSet_mem c cs
  rw [heq]
  exact firstError_eq_none.1 (h b hb) k hk

end Merge

end Overlay
