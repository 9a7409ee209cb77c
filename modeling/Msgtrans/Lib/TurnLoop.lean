import Mathlib.Data.List.Basic

/-!
# Loops that publish

A loop takes one turn per outcome it waits for: `turn o` is what the turn publishes and whether the loop
goes on. `emitted` is what a loop publishes over its outcomes, `ending` the outcome it ended on, `Taken`
says that it came to an outcome. `Announces` is the law of loops that announce their end: one final event, the last
one, for an end that is `owed` it, none for a `silent` end, none before the end. By `announces_iff` it is a
condition on the single ends.
-/

namespace TurnLoop

variable {ο ε : Type*} {turn : ο → List ε × Bool} {os : List ο} {o : ο}

def emitted (turn : ο → List ε × Bool) : List ο → List ε
  | [] => []
  | o :: os => (turn o).1 ++ if (turn o).2 then emitted turn os else []

/-- The outcome the loop ended on; those behind it are not taken. -/
def ending (turn : ο → List ε × Bool) : List ο → Option ο
  | [] => none
  | o :: os => if (turn o).2 then ending turn os else some o

/-- The loop still ran when it came to `o`. -/
def Taken (turn : ο → List ε × Bool) (os : List ο) (o : ο) : Prop :=
  ∃ before after, os = before ++ o :: after ∧ ∀ p ∈ before, (turn p).2 = true

theorem emitted_append {before : List ο} (h : ∀ p ∈ before, (turn p).2 = true) (os : List ο) :
    emitted turn (before ++ os) = (before.flatMap fun p => (turn p).1) ++ emitted turn os := by
  induction before with
  | nil => rfl
  | cons p before ih =>
    rw [List.cons_append, emitted, if_pos (h p List.mem_cons_self), ih fun q hq => h q (List.mem_cons_of_mem _ hq),
      List.flatMap_cons, List.append_assoc]

theorem ending_append {before : List ο} (h : ∀ p ∈ before, (turn p).2 = true) (os : List ο) :
    ending turn (before ++ os) = ending turn os := by
  induction before with
  | nil => rfl
  | cons p before ih =>
    rw [List.cons_append, ending, if_pos (h p List.mem_cons_self)]
    exact ih fun q hq => h q (List.mem_cons_of_mem _ hq)

theorem ending_eq_none (h : ending turn os = none) : ∀ p ∈ os, (turn p).2 = true := by
  induction os with
  | nil => exact fun p hp => absurd hp List.not_mem_nil
  | cons o os ih =>
    rw [ending] at h
    split at h
    · next hgo => exact List.forall_mem_cons.2 ⟨hgo, ih h⟩
    · cases h

theorem ending_eq_some : ending turn os = some o ↔ Taken turn os o ∧ (turn o).2 = false := by
  constructor
  · intro h
    induction os with
    | nil => cases h
    | cons p os ih =>
      rw [ending] at h
      split at h
      · next hgo =>
        obtain ⟨⟨before, after, rfl, hbefore⟩, hend⟩ := ih h
        exact ⟨⟨p :: before, after, rfl, List.forall_mem_cons.2 ⟨hgo, hbefore⟩⟩, hend⟩
      · next hend =>
        cases h
        exact ⟨⟨[], os, rfl, fun q hq => absurd hq List.not_mem_nil⟩, by simpa using hend⟩
  · rintro ⟨⟨before, after, rfl, hbefore⟩, hend⟩
    rw [ending_append hbefore, ending, hend]
    rfl

/-- What a loop that has ended published: what its turns did, then the last one. -/
theorem emitted_eq_of_ending (h : ending turn os = some o) : ∃ before : List ο, (∀ p ∈ before, (turn p).2 = true) ∧
    emitted turn os = (before.flatMap fun p => (turn p).1) ++ (turn o).1 := by
  obtain ⟨⟨before, after, rfl, hbefore⟩, hend⟩ := ending_eq_some.1 h
  refine ⟨before, hbefore, ?_⟩
  rw [emitted_append hbefore, emitted, hend, if_neg Bool.false_ne_true, List.append_nil]

/-- Exactly one final event, and nothing after it. -/
def OnceAtEnd (final : ε → Prop) (events : List ε) : Prop :=
  ∃ before e, events = before ++ [e] ∧ final e ∧ ∀ e' ∈ before, ¬ final e'

theorem onceAtEnd_append {final : ε → Prop} {xs ys : List ε} (h : ∀ e ∈ xs, ¬ final e) :
    OnceAtEnd final (xs ++ ys) ↔ OnceAtEnd final ys := by
  constructor
  · rintro ⟨before, e, heq, hfinal, hbefore⟩
    rcases List.eq_nil_or_concat ys with rfl | ⟨ys', e', rfl⟩
    · -- all of `xs` would be the events, but none of them is final
      rw [List.append_nil] at heq
      exact absurd hfinal (h e (heq ▸ List.mem_append_right _ List.mem_cons_self))
    · rw [List.concat_eq_append, ← List.append_assoc] at heq
      rw [List.concat_eq_append]
      obtain ⟨rfl, he⟩ := List.append_inj' heq rfl
      cases he
      exact ⟨ys', e, rfl, hfinal, fun e' he' => hbefore e' (List.mem_append_right _ he')⟩
  · rintro ⟨before, e, rfl, hfinal, hbefore⟩
    exact ⟨xs ++ before, e, (List.append_assoc ..).symm, hfinal, List.forall_mem_append.2 ⟨h, hbefore⟩⟩

structure Announces (turn : ο → List ε × Bool) (final : ε → Prop) (owed silent : ο → Prop) (os : List ο) : Prop where
  running : ending turn os = none → ∀ e ∈ emitted turn os, ¬ final e
  owed : ∀ o, ending turn os = some o → owed o → OnceAtEnd final (emitted turn os)
  silent : ∀ o, ending turn os = some o → silent o → ∀ e ∈ emitted turn os, ¬ final e

variable {final : ε → Prop} {owed silent : ο → Prop}

/-- A loop whose turns publish nothing final while it goes on, and nothing final at a silent end,
announces its ends exactly when the end it came to, if owed an announcement, makes it in its own turn. -/
theorem announces_iff (hgo : ∀ o, (turn o).2 = true → ∀ e ∈ (turn o).1, ¬ final e)
    (hsilent : ∀ o, silent o → ∀ e ∈ (turn o).1, ¬ final e) :
    Announces turn final owed silent os ↔
      ∀ o, Taken turn os o → (turn o).2 = false → owed o → OnceAtEnd final (turn o).1 := by
  have hflat : ∀ {ps : List ο}, (∀ p ∈ ps, (turn p).2 = true) → ∀ e ∈ ps.flatMap fun p => (turn p).1, ¬ final e := by
    intro ps hps e he
    obtain ⟨p, hp, he⟩ := List.mem_flatMap.1 he
    exact hgo p (hps p hp) e he
  constructor
  · intro h o htaken hend howed
    have hending := ending_eq_some.2 ⟨htaken, hend⟩
    obtain ⟨before, hbefore, heq⟩ := emitted_eq_of_ending hending
    have honce := h.owed o hending howed
    rw [heq] at honce
    exact (onceAtEnd_append (hflat hbefore)).1 honce
  · intro h
    refine ⟨fun hnone => ?_, fun o hending howed => ?_, fun o hending hs => ?_⟩
    · have hall := ending_eq_none hnone
      have heq := emitted_append hall []
      rw [List.append_nil, emitted, List.append_nil] at heq
      rw [heq]
      exact hflat hall
    · obtain ⟨htaken, hend⟩ := ending_eq_some.1 hending
      obtain ⟨before, hbefore, heq⟩ := emitted_eq_of_ending hending
      rw [heq]
      exact (onceAtEnd_append (hflat hbefore)).2 (h o htaken hend howed)
    · obtain ⟨before, hbefore, heq⟩ := emitted_eq_of_ending hending
      rw [heq]
      exact List.forall_mem_append.2 ⟨hflat hbefore, hsilent o hs⟩

end TurnLoop
