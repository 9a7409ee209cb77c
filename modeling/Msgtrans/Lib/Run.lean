import Mathlib.Data.List.Induction

/-!
# Runs of step systems

A system is a partial step function `step : σ → ι → Option σ`: the labels carry every choice of
the environment (which task moves, what a call returns), `none` means that the label is not enabled.
`run` iterates it, `Meets step G` says that every step of a run satisfies `G` in the state it is
taken in, `Always step P` that every state of it satisfies `P`. The rules lift what one step preserves
to whole runs, and a simulation by another system (`run_simulates`); `always_iff_meets` is the exact condition `G`
on steps under which a law `P` holds always.
-/

namespace StepSystem

variable {σ ι : Type*} {step : σ → ι → Option σ} {s s' : σ} {ls ms : List ι} {l : ι}

/-- The state after the steps `ls`; `none` when one of them is not enabled. -/
def run (step : σ → ι → Option σ) : σ → List ι → Option σ
  | s, [] => some s
  | s, l :: ls => (step s l).bind fun s' => run step s' ls

theorem run_cons : run step s (l :: ls) = (step s l).bind fun s' => run step s' ls := rfl

theorem run_cons_eq_some : run step s (l :: ls) = some s' ↔
    ∃ t, step s l = some t ∧ run step t ls = some s' := by
  rw [run_cons, Option.bind_eq_some_iff]

theorem run_append : run step s (ls ++ ms) = (run step s ls).bind fun s' => run step s' ms := by
  induction ls generalizing s with
  | nil => rfl
  | cons l ls ih =>
    rw [List.cons_append, run_cons, run_cons]
    cases step s l with
    | none => rfl
    | some t => exact ih

theorem run_append_eq_some : run step s (ls ++ ms) = some s' ↔
    ∃ t, run step s ls = some t ∧ run step t ms = some s' := by
  rw [run_append, Option.bind_eq_some_iff]

theorem run_concat_eq_some : run step s (ls ++ [l]) = some s' ↔
    ∃ t, run step s ls = some t ∧ step t l = some s' := by
  rw [run_append_eq_some]
  constructor <;> rintro ⟨t, h1, h2⟩ <;> refine ⟨t, h1, ?_⟩
  · obtain ⟨u, hu, hu'⟩ := run_cons_eq_some.1 h2
    rw [hu]
    exact hu'
  · exact run_cons_eq_some.2 ⟨s', h2, rfl⟩

/-- Every step of the run satisfies `G` in the state it is taken in. -/
def Meets (step : σ → ι → Option σ) (G : σ → ι → Prop) : σ → List ι → Prop
  | _, [] => True
  | s, l :: ls => G s l ∧ ∀ s', step s l = some s' → Meets step G s' ls

variable {G : σ → ι → Prop}

theorem meets_true (s : σ) (ls : List ι) : Meets step (fun _ _ => True) s ls := by
  induction ls generalizing s with
  | nil => trivial
  | cons l ls ih => exact ⟨trivial, fun t _ => ih t⟩

theorem meets_cons {t : σ} (h : step s l = some t) : Meets step G s (l :: ls) ↔ G s l ∧ Meets step G t ls := by
  refine and_congr_right fun _ => ⟨fun hm => hm t h, fun hm t' ht => ?_⟩
  rw [h] at ht
  cases ht
  exact hm

instance decidableMeets [∀ s l, Decidable (G s l)] : (s : σ) → (ls : List ι) → Decidable (Meets step G s ls)
  | _, [] => isTrue trivial
  | s, l :: ls =>
    match hs : step s l with
    | none => decidable_of_iff (G s l) ⟨fun hG => ⟨hG, fun s' h => by rw [hs] at h; cases h⟩, And.left⟩
    | some t =>
      have := decidableMeets t ls
      decidable_of_iff (G s l ∧ Meets step G t ls) (meets_cons hs).symm

theorem Meets.and {A : σ → ι → Prop} (hA : Meets step A s ls) (hG : Meets step G s ls) :
    Meets step (fun t l => A t l ∧ G t l) s ls := by
  induction ls generalizing s with
  | nil => trivial
  | cons l ls ih => exact ⟨⟨hA.1, hG.1⟩, fun t ht => ih (hA.2 t ht) (hG.2 t ht)⟩

theorem meets_append : Meets step G s (ls ++ ms) ↔
    Meets step G s ls ∧ ∀ s', run step s ls = some s' → Meets step G s' ms := by
  induction ls generalizing s with
  | nil => exact ⟨fun h => ⟨trivial, fun _ hs => by cases hs; exact h⟩, fun h => h.2 s rfl⟩
  | cons l ls ih =>
    constructor
    · rintro ⟨hG, h⟩
      refine ⟨⟨hG, fun t ht => (ih.1 (h t ht)).1⟩, fun s' hr => ?_⟩
      obtain ⟨t, ht, hr⟩ := run_cons_eq_some.1 hr
      exact (ih.1 (h t ht)).2 s' hr
    · rintro ⟨⟨hG, h⟩, hm⟩
      exact ⟨hG, fun t ht => ih.2 ⟨h t ht, fun s' hr => hm s' (run_cons_eq_some.2 ⟨t, ht, hr⟩)⟩⟩

theorem meets_concat (hr : run step s ls = some s') :
    Meets step G s (ls ++ [l]) ↔ Meets step G s ls ∧ G s' l := by
  rw [meets_append]
  refine and_congr_right fun _ => ⟨fun h => (h s' hr).1, fun h t ht => ?_⟩
  rw [hr] at ht
  cases ht
  exact ⟨h, fun _ _ => trivial⟩

/-- What every step satisfying `G` preserves, every run meeting `G` preserves. -/
theorem run_invariant_of_meets {I : σ → Prop}
    (hstep : ∀ s l s', step s l = some s' → G s l → I s → I s')
    (hr : run step s ls = some s') (hG : Meets step G s ls) (h : I s) : I s' := by
  induction ls generalizing s with
  | nil => cases hr; exact h
  | cons l ls ih =>
    obtain ⟨t, ht, hr⟩ := run_cons_eq_some.1 hr
    exact ih hr (hG.2 t ht) (hstep s l t ht hG.1 h)

/-- What every step preserves, every run preserves. -/
theorem run_invariant {I : σ → Prop} (hstep : ∀ s l s', step s l = some s' → I s → I s')
    (hr : run step s ls = some s') (h : I s) : I s' :=
  run_invariant_of_meets (G := fun _ _ => True) (fun s l s' hs _ => hstep s l s' hs) hr (meets_true s ls) h

/-- Where every step satisfying `G` is enabled and preserves `I`, no run meeting `G` gets stuck. -/
theorem run_total_of_meets {I : σ → Prop} (hstep : ∀ s l, I s → G s l → ∃ s', step s l = some s' ∧ I s')
    (hG : Meets step G s ls) (h : I s) : ∃ s', run step s ls = some s' ∧ I s' := by
  induction ls generalizing s with
  | nil => exact ⟨s, rfl, h⟩
  | cons l ls ih =>
    obtain ⟨t, ht, hI⟩ := hstep s l h hG.1
    obtain ⟨s', hr, hI'⟩ := ih (hG.2 t ht) hI
    exact ⟨s', run_cons_eq_some.2 ⟨t, ht, hr⟩, hI'⟩

/-- Conditions on steps that agree wherever an invariant holds are met by the same runs. -/
theorem meets_congr {I : σ → Prop} {H : σ → ι → Prop} (hstep : ∀ s l s', step s l = some s' → I s → I s')
    (hiff : ∀ s l s', step s l = some s' → I s → (G s l ↔ H s l)) (hr : run step s ls = some s') (h : I s) :
    Meets step G s ls ↔ Meets step H s ls := by
  induction ls generalizing s with
  | nil => exact Iff.rfl
  | cons l ls ih =>
    obtain ⟨t, ht, hr⟩ := run_cons_eq_some.1 hr
    rw [meets_cons ht, meets_cons ht]
    exact and_congr (hiff s l t ht h) (ih hr (hstep s l t ht h))

/-- What a step takes over from the state before it, a run takes over from its start. -/
theorem run_back {Q : σ → Prop} (hback : ∀ s l s', step s l = some s' → Q s' → Q s)
    (hr : run step s ls = some s') (hQ : Q s') : Q s := by
  induction ls generalizing s with
  | nil => cases hr; exact hQ
  | cons l ls ih =>
    obtain ⟨t, ht, hr⟩ := run_cons_eq_some.1 hr
    exact hback s l t ht (ih hr)

/-- What is said of the end of a run in this way holds after every step of it. -/
theorem meets_of_back {Q : σ → Prop} (hback : ∀ s l s', step s l = some s' → Q s' → Q s)
    (hr : run step s ls = some s') (hQ : Q s') :
    Meets step (fun t l => ∀ t', step t l = some t' → Q t') s ls := by
  induction ls generalizing s with
  | nil => trivial
  | cons l ls ih =>
    obtain ⟨t, ht, hr⟩ := run_cons_eq_some.1 hr
    have hQt : Q t := run_back hback hr hQ
    refine (meets_cons ht).2 ⟨fun t' ht' => ?_, ih hr⟩
    rw [ht] at ht'
    cases ht'
    exact hQt

/-- A forward simulation: what runs of another system follow step by step, they follow on every run. -/
theorem run_simulates {τ κ : Type*} {step' : τ → κ → Option τ} {R : σ → τ → Prop} {G : ι → Prop}
    (hsim : ∀ s l s' t, step s l = some s' → G l → R s t → ∃ ms t', run step' t ms = some t' ∧ R s' t')
    (hr : run step s ls = some s') (hG : ∀ l ∈ ls, G l) {t : τ} (h : R s t) :
    ∃ ms t', run step' t ms = some t' ∧ R s' t' := by
  induction ls generalizing s t with
  | nil => cases hr; exact ⟨[], t, rfl, h⟩
  | cons l ls ih =>
    obtain ⟨hl, hG⟩ := List.forall_mem_cons.1 hG
    obtain ⟨u, hu, hr⟩ := run_cons_eq_some.1 hr
    obtain ⟨ms, v, hv, hR⟩ := hsim s l u t hu hl h
    obtain ⟨ms', t', ht', hR'⟩ := ih hr hG hR
    exact ⟨ms ++ ms', t', run_append_eq_some.2 ⟨v, hv, ht'⟩, hR'⟩

def Always (step : σ → ι → Option σ) (P : σ → Prop) (s : σ) (ls : List ι) : Prop :=
  ∀ ms t, ms <+: ls → run step s ms = some t → P t

theorem always_of_meets {I : σ → Prop} (hstep : ∀ s l s', step s l = some s' → G s l → I s → I s')
    (hG : Meets step G s ls) (h : I s) : Always step I s ls := by
  rintro ms t ⟨rest, rfl⟩ ht
  exact run_invariant_of_meets hstep ht (meets_append.1 hG).1 h

/-- A law `P` that an invariant implies holds always exactly when every step meets `G`: the steps that
meet `G` keep the invariant, the others break the law. `A` is assumed of every step. -/
theorem always_iff_meets {I P : σ → Prop} {A : σ → ι → Prop} (hP : ∀ t, I t → P t)
    (hstep : ∀ t l t', step t l = some t' → A t l → G t l → I t → I t')
    (hbad : ∀ t l t', step t l = some t' → A t l → I t → P t' → G t l)
    (hr : run step s ls = some s') (hA : Meets step A s ls) (h : I s) :
    Always step P s ls ↔ Meets step G s ls := by
  constructor
  · intro halways
    induction ls using List.reverseRecOn generalizing s' with
    | nil => trivial
    | append_singleton ls l ih =>
      obtain ⟨t, ht, hl⟩ := run_concat_eq_some.1 hr
      obtain ⟨hA', hAl⟩ := (meets_concat ht).1 hA
      have hG' := ih ht hA' fun ms u hms => halways ms u (hms.trans (List.prefix_append ..))
      have hI : I t := run_invariant_of_meets (fun t l t' hs hAG => hstep t l t' hs hAG.1 hAG.2) ht
        (hA'.and hG') h
      exact (meets_concat ht).2 ⟨hG', hbad t l s' hl hAl hI (halways _ s' (List.prefix_refl _) hr)⟩
  · intro hG ms t hms ht
    exact hP t (always_of_meets (fun t l t' hs hAG => hstep t l t' hs hAG.1 hAG.2) (hA.and hG) h ms t hms ht)

/-- The same with nothing assumed of the steps. -/
theorem always_iff_meets_of_step {I P : σ → Prop} (hP : ∀ t, I t → P t)
    (hstep : ∀ t l t', step t l = some t' → G t l → I t → I t')
    (hbad : ∀ t l t', step t l = some t' → I t → P t' → G t l) (hr : run step s ls = some s') (h : I s) :
    Always step P s ls ↔ Meets step G s ls :=
  always_iff_meets (A := fun _ _ => True) hP (fun t l t' hs _ => hstep t l t' hs) (fun t l t' hs _ => hbad t l t' hs) hr
    (meets_true s ls) h

end StepSystem
