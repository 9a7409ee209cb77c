import Msgtrans.Lib.Run

/-!
# A task beside a changing world

The world moves by steps of its own, and in between a task takes steps that read the state the world is in then. `During` says
which states the world has been in since the task began. What a task has found out is a statement about these states that stays
true when there are more of them: `of_run` is the induction rule for such statements.
-/

namespace Observer

variable {σ ι τ α : Type*}

inductive Label (ι α : Type*) where
  | world (l : ι)
  | task (a : α)

def step (world : σ → ι → Option σ) (task : σ → τ → α → Option τ) : σ × τ → Label ι α → Option (σ × τ)
  | (s, p), .world l => (world s l).map fun s' => (s', p)
  | (s, p), .task a => (task s p a).map fun p' => (s, p')

/-- The world is in state `t` somewhere along the run `ls` from `x`. -/
def During (step : σ × τ → Label ι α → Option (σ × τ)) (x : σ × τ) (ls : List (Label ι α)) (t : σ) : Prop :=
  ∃ ms y, ms <+: ls ∧ StepSystem.run step x ms = some y ∧ y.1 = t

section

variable {world : σ → ι → Option σ} {task : σ → τ → α → Option τ} {x y : σ × τ} {ls ms : List (Label ι α)} {t : σ}

theorem step_cases {l : Label ι α} (hs : step world task x l = some y) :
    (∃ w, l = .world w ∧ world x.1 w = some y.1 ∧ y.2 = x.2) ∨ ∃ a, l = .task a ∧ task x.1 x.2 a = some y.2 ∧ y.1 = x.1 := by
  cases l with
  | world w =>
    obtain ⟨s', hs', rfl⟩ := Option.map_eq_some_iff.1 hs
    exact .inl ⟨w, rfl, hs', rfl⟩
  | task a =>
    obtain ⟨p', hp', rfl⟩ := Option.map_eq_some_iff.1 hs
    exact .inr ⟨a, rfl, hp', rfl⟩

theorem During.start : During (step world task) x ls x.1 := ⟨[], x, List.nil_prefix, rfl, rfl⟩

theorem During.last (hr : StepSystem.run (step world task) x ls = some y) : During (step world task) x ls y.1 :=
  ⟨ls, y, List.prefix_refl ls, hr, rfl⟩

theorem During.append (h : During (step world task) x ls t) (ms : List (Label ι α)) :
    During (step world task) x (ls ++ ms) t := by
  obtain ⟨ns, z, hns, hr, ht⟩ := h
  exact ⟨ns, z, hns.trans (List.prefix_append ls ms), hr, ht⟩

/-- What the steps of the world preserve holds throughout. -/
theorem During.invariant {W : σ → Prop} (hworld : ∀ s l s', world s l = some s' → W s → W s') (hW : W x.1)
    (h : During (step world task) x ls t) : W t := by
  obtain ⟨ms, z, -, hr, rfl⟩ := h
  refine StepSystem.run_invariant (I := fun x => W x.1) (fun x l y hs hx => ?_) hr hW
  obtain ⟨w, -, hw, -⟩ | ⟨a, -, -, heq⟩ := step_cases hs
  · exact hworld _ _ _ hw hx
  · rw [heq]
    exact hx

/-- A statement `I D p` about the states `D` of the world and the task's own state `p` that more states do not falsify, and that
every step of the task keeps, holds at the end of every run. -/
theorem of_run {W : σ → Prop} {I : (σ → Prop) → τ → Prop} (hmono : ∀ D D' p, (∀ t, D t → D' t) → I D p → I D' p)
    (hworld : ∀ s l s', world s l = some s' → W s → W s')
    (htask : ∀ D s p a p', W s → D s → task s p a = some p' → I D p → I D p')
    (hr : StepSystem.run (step world task) x ls = some y) (hW : W x.1) (h : I (fun t => t = x.1) x.2) :
    I (During (step world task) x ls) y.2 := by
  induction ls using List.reverseRecOn generalizing y with
  | nil =>
    cases hr
    refine hmono _ _ _ (fun t ht => ?_) h
    rw [ht]
    exact .start
  | append_singleton ls l ih =>
    obtain ⟨z, hz, hs⟩ := StepSystem.run_concat_eq_some.1 hr
    have hI := hmono _ (During (step world task) x (ls ++ [l])) _ (fun t ht => ht.append [l]) (ih hz)
    obtain ⟨w, -, -, hp⟩ | ⟨a, -, ha, -⟩ := step_cases hs
    · rw [hp]
      exact hI
    · have hlast := During.last hz
      exact htask _ _ _ a _ (hlast.invariant hworld hW) (hlast.append [l]) ha hI

end

end Observer
