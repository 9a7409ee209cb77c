import Mathlib.Algebra.Group.Nat.Defs
import Mathlib.Data.Nat.Init
import Mathlib.Tactic.Common

/-!
# Offsets in machine words

Addition and subtraction of offsets in words of a fixed width, and ranges taken out of a list. `none` is the abort of a
checked operation or of a range out of bounds.
-/

/-- The width of a word, and whether an operation that overflows aborts (else it wraps around). -/
structure WordArith where
  bits : ℕ
  checks : Bool
deriving DecidableEq, Repr

namespace WordArith

variable {w : WordArith} {a b s : ℕ}

def add (w : WordArith) (a b : ℕ) : Option ℕ :=
  if a + b < 2 ^ w.bits then some (a + b)
  else if w.checks then none
  else some ((a + b) % 2 ^ w.bits)

def sub (w : WordArith) (a b : ℕ) : Option ℕ :=
  if b ≤ a then some (a - b)
  else if w.checks then none
  else some (a + 2 ^ w.bits - b)

theorem sub_of_le (h : b ≤ a) : w.sub a b = some (a - b) := if_pos h

/-- Only a check aborts a subtraction. -/
theorem checks_of_sub_eq_none (h : w.sub a b = none) : w.checks ∧ a < b := by
  unfold sub at h
  split at h
  · cases h
  · next hlt =>
    split at h
    · next hc => exact ⟨hc, Nat.lt_of_not_le hlt⟩
    · cases h

theorem add_of_lt (h : a + b < 2 ^ w.bits) : w.add a b = some (a + b) := if_pos h

/-- A sum that overflows and is still there is less than its parts. -/
theorem lt_of_add_overflow (hb : b < 2 ^ w.bits) (h : 2 ^ w.bits ≤ a + b) (hs : w.add a b = some s)
    (ha : a < 2 ^ w.bits) : s < a := by
  unfold add at hs
  rw [if_neg (by omega)] at hs
  split at hs
  · cases hs
  · obtain rfl := Option.some.inj hs
    rw [Nat.mod_eq_sub_mod h, Nat.mod_eq_of_lt (by omega)]
    omega

end WordArith

variable {α : Type*} {xs : List α} {start stop : ℕ}

/-- `xs[start..stop]`. -/
def range? (xs : List α) (start stop : ℕ) : Option (List α) :=
  if start ≤ stop ∧ stop ≤ xs.length then some ((xs.take stop).drop start) else none

theorem range?_of_le (hle : start ≤ stop) (hstop : stop ≤ xs.length) :
    range? xs start stop = some ((xs.take stop).drop start) := if_pos ⟨hle, hstop⟩

theorem range?_of_lt (h : stop < start) : range? xs start stop = none := by
  rw [range?, if_neg]
  omega
