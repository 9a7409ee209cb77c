import Mathlib.Data.List.Nodup
import Mathlib.Logic.Function.Basic
import Msgtrans.Event

/-!
# The protocol registry (`protocol/protocol.rs`)

`register` writes the map of names first and then the map of schemes, one scheme after the other, and looks at each
scheme when its turn comes. `atomic_iff`: it is all or nothing just when no scheme is refused.

`WellFormed` is what holds of both maps after any number of calls, also of failed ones.
-/

namespace Msgtrans

class ProtocolFactory (F : Type*) where
  protocolName : F → String
  supportedSchemes : F → List String

export ProtocolFactory (protocolName supportedSchemes)

structure ProtocolRegistry (F : Type*) where
  factories : String → Option F
  schemes : String → Option F

namespace ProtocolRegistry
variable {F : Type*} {m m' : String → Option F} {factory : F} {schemes : List String} {e : TransportError} {u : Unit}

def new : ProtocolRegistry F := ⟨fun _ => none, fun _ => none⟩

/-- The loop over the schemes; a refused scheme leaves what is already written. -/
def registerSchemes (factory : F) : List String → (String → Option F) → Except TransportError Unit × (String → Option F)
  | [], m => (.ok (), m)
  | scheme :: schemes, m =>
    if (m scheme).isSome then (.error (.configuration "scheme" s!"Scheme '{scheme}' already registered"), m)
    else registerSchemes factory schemes (Function.update m scheme (some factory))

section
variable [ProtocolFactory F]

def register (r : ProtocolRegistry F) (factory : F) : Except TransportError Unit × ProtocolRegistry F :=
  let name := protocolName factory
  if (r.factories name).isSome then
    (.error (.configuration "protocol_name" s!"Protocol '{name}' already registered"), r)
  else
    let factories := Function.update r.factories name (some factory)
    let (result, schemes) := registerSchemes factory (supportedSchemes factory) r.schemes
    (result, ⟨factories, schemes⟩)

def getFactory (r : ProtocolRegistry F) (protocol : String) : Option F := r.factories protocol

def getFactoryByScheme (r : ProtocolRegistry F) (scheme : String) : Option F := r.schemes scheme

/-- The registry with a factory's name and schemes added. -/
def Added (r : ProtocolRegistry F) (factory : F) (r' : ProtocolRegistry F) : Prop :=
  (∀ name, r'.factories name = if name = protocolName factory then some factory else r.factories name) ∧
  (∀ scheme, r'.schemes scheme = if scheme ∈ supportedSchemes factory then some factory else r.schemes scheme) ∧
  r.factories (protocolName factory) = none ∧ ∀ scheme ∈ supportedSchemes factory, r.schemes scheme = none

/-- All or nothing. -/
def Atomic (r : ProtocolRegistry F) (factory : F) : Prop :=
  match r.register factory with
  | (.ok _, r') => r.Added factory r'
  | (.error _, r') => r' = r

/-- No scheme of the factory is taken, also by the factory itself. -/
def FreshSchemes (r : ProtocolRegistry F) (factory : F) : Prop :=
  (supportedSchemes factory).Nodup ∧ ∀ scheme ∈ supportedSchemes factory, r.schemes scheme = none

end

/-! ### The loop -/

theorem registerSchemes_ok_iff : (registerSchemes factory schemes m).1 = .ok () ↔
    schemes.Nodup ∧ ∀ scheme ∈ schemes, m scheme = none := by
  induction schemes generalizing m with
  | nil => simp [registerSchemes]
  | cons scheme schemes ih =>
    unfold registerSchemes
    split
    · next h =>
      obtain ⟨f, hf⟩ := Option.isSome_iff_exists.1 h
      simp [hf]
    · next h =>
      rw [Option.not_isSome_iff_eq_none] at h
      rw [ih, List.nodup_cons]
      constructor
      · rintro ⟨hnd, hfree⟩
        have hnot : scheme ∉ schemes := fun hmem => by simpa using hfree scheme hmem
        refine ⟨⟨hnot, hnd⟩, fun s hs => ?_⟩
        rcases List.mem_cons.1 hs with rfl | hs
        · exact h
        · have hne : s ≠ scheme := fun heq => hnot (heq ▸ hs)
          simpa [Function.update_of_ne hne] using hfree s hs
      · rintro ⟨⟨hnot, hnd⟩, hfree⟩
        refine ⟨hnd, fun s hs => ?_⟩
        have hne : s ≠ scheme := fun heq => hnot (heq ▸ hs)
        rw [Function.update_of_ne hne]
        exact hfree s (List.mem_cons_of_mem _ hs)

theorem registerSchemes_of_ok (h : registerSchemes factory schemes m = (.ok u, m')) (scheme : String) :
    m' scheme = if scheme ∈ schemes then some factory else m scheme := by
  induction schemes generalizing m with
  | nil =>
    cases h
    simp
  | cons s schemes ih =>
    unfold registerSchemes at h
    split at h
    · cases h
    · rw [ih h]
      by_cases hmem : scheme ∈ schemes
      · simp [hmem]
      · by_cases hs : scheme = s
        · subst hs
          simp [hmem]
        · simp [hmem, hs]

/-- What the loop has written when it ends, also when a scheme was refused. -/
theorem registerSchemes_schemes (factory : F) (schemes : List String) (m : String → Option F) (scheme : String) :
    (registerSchemes factory schemes m).2 scheme = m scheme ∨
      scheme ∈ schemes ∧ (registerSchemes factory schemes m).2 scheme = some factory := by
  induction schemes generalizing m with
  | nil => exact .inl rfl
  | cons s schemes ih =>
    unfold registerSchemes
    split
    · exact .inl rfl
    · rcases ih (Function.update m s (some factory)) with h | ⟨hmem, h⟩
      · by_cases hs : scheme = s
        · subst hs
          rw [Function.update_self] at h
          exact .inr ⟨List.mem_cons_self, h⟩
        · rw [Function.update_of_ne hs] at h
          exact .inl h
      · exact .inr ⟨List.mem_cons_of_mem _ hmem, h⟩

theorem registerSchemes_error (h : registerSchemes factory schemes m = (.error e, m')) :
    ∃ scheme ∈ schemes, e = .configuration "scheme" s!"Scheme '{scheme}' already registered" := by
  induction schemes generalizing m with
  | nil => cases h
  | cons s schemes ih =>
    unfold registerSchemes at h
    split at h
    · cases h
      exact ⟨s, List.mem_cons_self, rfl⟩
    · obtain ⟨scheme, hmem, he⟩ := ih h
      exact ⟨scheme, List.mem_cons_of_mem _ hmem, he⟩

/-! ### `register` -/

variable [ProtocolFactory F] {r : ProtocolRegistry F} {g : F}

theorem register_of_taken (h : (r.factories (protocolName factory)).isSome) :
    r.register factory = (.error (.configuration "protocol_name"
      s!"Protocol '{protocolName factory}' already registered"), r) := by
  simp only [register, if_pos h]

theorem register_of_free (h : r.factories (protocolName factory) = none) :
    r.register factory =
      ((registerSchemes factory (supportedSchemes factory) r.schemes).1,
        ⟨Function.update r.factories (protocolName factory) (some factory),
          (registerSchemes factory (supportedSchemes factory) r.schemes).2⟩) := by
  simp [register, h]

theorem register_ok_iff : (r.register factory).1 = .ok () ↔
    r.factories (protocolName factory) = none ∧ r.FreshSchemes factory := by
  cases h : r.factories (protocolName factory) with
  | none =>
    rw [register_of_free h, registerSchemes_ok_iff]
    simp [FreshSchemes]
  | some g =>
    rw [register_of_taken (by simp [h])]
    simp

/-- A registration is all or nothing just when the name is refused, or no scheme is. -/
theorem atomic_iff (r : ProtocolRegistry F) (factory : F) :
    r.Atomic factory ↔ (r.factories (protocolName factory)).isSome ∨ r.FreshSchemes factory := by
  cases hname : r.factories (protocolName factory) with
  | some g =>
    have hreg := @register_of_taken F factory _ r (by simp [hname])
    simp [Atomic, hreg]
  | none =>
    have hreg := register_of_free hname
    have hok : (r.register factory).1 = .ok () ↔ _ := register_ok_iff
    simp only [Atomic, Option.isSome_none, Bool.false_eq_true, false_or]
    split
    · next u r' heq =>
      have hfresh := (hok.1 (by rw [heq])).2
      refine iff_of_true ⟨fun name => ?_, fun scheme => ?_, hname, hfresh.2⟩ hfresh
      · rw [hreg] at heq
        cases (Prod.mk.inj heq).2
        by_cases h : name = protocolName factory
        · subst h
          simp
        · simp [h]
      · rw [hreg] at heq
        obtain ⟨hresult, rfl⟩ := Prod.mk.inj heq
        exact registerSchemes_of_ok (Prod.ext hresult rfl) scheme
    · next e r' heq =>
      refine iff_of_false (fun h => ?_) fun hfresh => ?_
      · -- the name has been written
        have hwritten := congrArg (fun p => p.2.factories (protocolName factory)) (heq.symm.trans hreg)
        simp [h, hname] at hwritten
      · have := hok.2 ⟨hname, hfresh⟩
        rw [heq] at this
        cases this

/-- Whatever became of its schemes, a factory's name stays taken. -/
theorem register_again (hname : r.factories (protocolName factory) = none) (hg : protocolName g = protocolName factory) :
    ((r.register factory).2.register g).1 ≠ .ok () := by
  rw [register_of_free hname, Ne, register_ok_iff]
  simp [hg]

/-- An error names what is taken. -/
theorem register_error (h : (r.register factory).1 = .error e) :
    e = .configuration "protocol_name" s!"Protocol '{protocolName factory}' already registered" ∨
      ∃ scheme ∈ supportedSchemes factory, e = .configuration "scheme" s!"Scheme '{scheme}' already registered" := by
  cases hname : r.factories (protocolName factory) with
  | some g =>
    rw [register_of_taken (by simp [hname])] at h
    exact .inl (Except.error.inj h).symm
  | none =>
    rw [register_of_free hname] at h
    exact .inr (registerSchemes_error (Prod.ext h rfl))

/-! ### After any number of calls -/

/-- Every entry is of a factory that is registered under its name, and a scheme is one of its own. -/
structure WellFormed (r : ProtocolRegistry F) : Prop where
  name : ∀ name f, r.factories name = some f → protocolName f = name
  scheme : ∀ scheme f, r.schemes scheme = some f →
    scheme ∈ supportedSchemes f ∧ r.factories (protocolName f) = some f

theorem WellFormed.register (h : r.WellFormed) (factory : F) : (r.register factory).2.WellFormed := by
  cases hname : r.factories (protocolName factory) with
  | some g =>
    rw [register_of_taken (by simp [hname])]
    exact h
  | none =>
    rw [register_of_free hname]
    refine ⟨fun name f hf => ?_, fun scheme f hf => ?_⟩
    · by_cases hn : name = protocolName factory
      · subst hn
        simp only [Function.update_self, Option.some.injEq] at hf
        rw [hf]
      · simp only [Function.update_of_ne hn] at hf
        exact h.name name f hf
    · rcases registerSchemes_schemes factory (supportedSchemes factory) r.schemes scheme
        with hs | ⟨hmem, hs⟩
      · have hold := h.scheme scheme f (hs.symm.trans hf)
        have hne : protocolName f ≠ protocolName factory := fun heq => by
          rw [heq, hname] at hold
          exact nomatch hold.2
        simp only [Function.update_of_ne hne]
        exact hold
      · obtain rfl := Option.some.inj (hs.symm.trans hf)
        exact ⟨hmem, Function.update_self ..⟩

def registerAll (r : ProtocolRegistry F) (factories : List F) : ProtocolRegistry F :=
  factories.foldl (fun r factory => (r.register factory).2) r

theorem wellFormed_registerAll (factories : List F) : (registerAll new factories).WellFormed := by
  have hnew : (new : ProtocolRegistry F).WellFormed := ⟨nofun, nofun⟩
  unfold registerAll
  generalize (new : ProtocolRegistry F) = r at hnew
  induction factories generalizing r with
  | nil => exact hnew
  | cons factory factories ih => exact ih _ (hnew.register factory)

/-- A factory by its name and its schemes. -/
structure Plain where
  name : String
  schemes : List String
deriving DecidableEq

instance : ProtocolFactory Plain := ⟨Plain.name, Plain.schemes⟩

/-- The second factory claims a scheme of the first one: it is refused, and stays registered by its name. -/
theorem refused_scheme_keeps_name :
    let r : ProtocolRegistry Plain := registerAll new [⟨"websocket", ["ws", "wss"]⟩]
    (r.register ⟨"http", ["http", "ws"]⟩).1 = .error (.configuration "scheme" "Scheme 'ws' already registered") ∧
      r.factories "http" = none ∧ (r.register ⟨"http", ["http", "ws"]⟩).2.factories "http" = some ⟨"http", ["http", "ws"]⟩ ∧
      ¬ r.Atomic ⟨"http", ["http", "ws"]⟩ := by
  intro r
  have hnone : r.factories "http" = none := by decide +kernel
  have hsome : (r.register ⟨"http", ["http", "ws"]⟩).2.factories "http" = some ⟨"http", ["http", "ws"]⟩ := by
    decide +kernel
  refine ⟨by rfl, hnone, hsome, fun h => ?_⟩
  have heq : (r.register ⟨"http", ["http", "ws"]⟩).2 = r := h
  rw [heq, hnone] at hsome
  cases hsome

end ProtocolRegistry

end Msgtrans
