import Mathlib.Data.List.Induction

/-!
# Reading what was written last

Operations are applied to a state one after the other, and each writes some of the things that can be read off it. A reading is
good when one operation sets it to what it writes, and keeps it when it writes nothing to it; then after any operations it is
what the last of them wrote (`Reads.foldl`).
-/

namespace LastWrite

variable {σ ο α β : Type*} {apply : σ → ο → σ} {get : σ → α} {writes : ο → Option α}

def Reads (apply : σ → ο → σ) (get : σ → α) (writes : ο → Option α) : Prop :=
  ∀ s o, get (apply s o) = (writes o).getD (get s)

/-- The last of the values written, or the one from before. -/
def last (writes : ο → Option α) (before : α) (ops : List ο) : α := ((ops.filterMap writes).getLast?).getD before

theorem last_concat {before : α} {ops : List ο} {o : ο} :
    last writes before (ops ++ [o]) = (writes o).getD (last writes before ops) := by
  rw [last, List.filterMap_append]
  cases ho : writes o with
  | none => simp [last, ho]
  | some a => simp [ho]

theorem Reads.foldl (h : Reads apply get writes) (s : σ) (ops : List ο) :
    get (ops.foldl apply s) = last writes (get s) ops := by
  induction ops using List.reverseRecOn with
  | nil => rfl
  | append_singleton ops o ih => rw [List.foldl_append, last_concat, ← ih]; exact h _ o

/-- What no operation writes never changes. -/
theorem Reads.foldl_of_never (h : Reads apply get fun _ => none) (s : σ) (ops : List ο) :
    get (ops.foldl apply s) = get s := by
  have hnone : ops.filterMap (fun _ => (none : Option α)) = [] := List.filterMap_eq_nil_iff.2 fun _ _ => rfl
  rw [h.foldl, last, hnone]
  rfl

end LastWrite
