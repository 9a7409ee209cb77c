import Mathlib.Data.Fintype.Basic
import Mathlib.Data.List.Nodup
import Msgtrans.Lib.Indexed
import Msgtrans.Lib.Run

/-!
# Copy-on-write cells

An array of cells, each an atomic pointer to a value that is never changed in place. A read loads the
pointer and looks at the value behind it. An update loads the pointer, puts a changed copy of the value
at an address of its own and exchanges the pointer for it. The exchange fails when the pointer is not the
loaded one any more, or spuriously; then the copy is dropped and the update starts over, up to `maxRetries`
failures.

An address may be given out again once nobody holds it (`State.Free`), so a cell that points where an
update loaded its pointer still has the value the update copied. Hence every call that answers takes
effect in one step, a read at its load and an update at its exchange, and `history`, the order of these
steps, is a sequential run with the same answers (`Inv.replay`).
-/

namespace CopyOnWrite

variable {ι α ω ρ σ τ : Type*}

/-- What the operations do to the value of their cell. -/
structure Object (ι α ω ρ : Type*) where
  cell : ω → ι
  apply : ω → α → ρ × α
  isRead : ω → Bool
  read_keeps : ∀ op a, isRead op = true → (apply op a).2 = a
  maxRetries : ℕ

/-- The next action of a call; from `loaded` to its exchange it is pinned at what it loaded. -/
inductive Pc (ρ : Type*) where
  | load (retries : ℕ)
  | loaded (ptr retries : ℕ)
  | copied (ptr own : ℕ) (answer : ρ) (retries : ℕ)
  | done (answer : ρ)
  | failed

def Pc.holds : Pc ρ → ℕ → Bool
  | .loaded ptr _, a => ptr == a
  | .copied ptr own _ _, a => ptr == a || own == a
  | _, _ => false

structure Call (ω ρ : Type*) where
  op : ω
  pc : Pc ρ

/-- A call that took effect, with its answer. -/
structure Entry (ω ρ : Type*) where
  call : ℕ
  op : ω
  answer : ρ

structure State (ι α ω ρ : Type*) where
  heap : ℕ → α
  pointer : ι → ℕ
  calls : List (Call ω ρ)
  history : List (Entry ω ρ)

def State.contents (s : State ι α ω ρ) (i : ι) : α := s.heap (s.pointer i)

/-- Nobody holds the address: it may be given out. -/
def State.Free (s : State ι α ω ρ) (a : ℕ) : Prop :=
  (∀ i, s.pointer i ≠ a) ∧ ∀ c ∈ s.calls, c.pc.holds a = false

instance [Fintype ι] (s : State ι α ω ρ) (a : ℕ) : Decidable (s.Free a) :=
  inferInstanceAs (Decidable (_ ∧ _))

inductive Label (ω : Type*) where
  | invoke (op : ω)
  | load (k : ℕ)
  | read (k : ℕ)
  /-- the changed copy goes to address `a` -/
  | copy (k a : ℕ)
  | exchange (k : ℕ) (spurious : Bool)

def start (heap : ℕ → α) (pointer : ι → ℕ) : State ι α ω ρ := ⟨heap, pointer, [], []⟩

def State.setPc (s : State ι α ω ρ) (k : ℕ) (c : Call ω ρ) (pc : Pc ρ) : State ι α ω ρ :=
  { s with calls := s.calls.set k { c with pc := pc } }

section Step

variable [Fintype ι] [DecidableEq ι] (O : Object ι α ω ρ)

def step (s : State ι α ω ρ) : Label ω → Option (State ι α ω ρ)
  | .invoke op => some { s with calls := s.calls ++ [⟨op, .load 0⟩] }
  | .load k => s.calls[k]?.bind fun c =>
    match c.pc with
    | .load retries =>
      let ptr := s.pointer (O.cell c.op)
      let s := s.setPc k c (.loaded ptr retries)
      some (if O.isRead c.op then
        { s with history := s.history ++ [⟨k, c.op, (O.apply c.op (s.heap ptr)).1⟩] } else s)
    | _ => none
  | .read k => s.calls[k]?.bind fun c =>
    match c.pc with
    | .loaded ptr _ => if O.isRead c.op then some (s.setPc k c (.done (O.apply c.op (s.heap ptr)).1)) else none
    | _ => none
  | .copy k a => s.calls[k]?.bind fun c =>
    match c.pc with
    | .loaded ptr retries =>
      if O.isRead c.op = false ∧ s.Free a then
        let (answer, value) := O.apply c.op (s.heap ptr)
        some { s.setPc k c (.copied ptr a answer retries) with heap := Function.update s.heap a value }
      else none
    | _ => none
  | .exchange k spurious => s.calls[k]?.bind fun c =>
    match c.pc with
    | .copied ptr own answer retries =>
      if s.pointer (O.cell c.op) = ptr ∧ spurious = false then
        some { s.setPc k c (.done answer) with
          pointer := Function.update s.pointer (O.cell c.op) own
          history := s.history ++ [⟨k, c.op, answer⟩] }
      else some (s.setPc k c (if O.maxRetries ≤ retries + 1 then .failed else .load (retries + 1)))
    | _ => none

end Step

/-! ### Sequential runs -/

/-- The answers to `ops` one after the other, and what they leave. -/
def replay (f : ω → σ → ρ × σ) : σ → List ω → List ρ × σ
  | s, [] => ([], s)
  | s, op :: ops => ((f op s).1 :: (replay f (f op s).2 ops).1, (replay f (f op s).2 ops).2)

theorem replay_concat (f : ω → σ → ρ × σ) (s : σ) (ops : List ω) (op : ω) :
    replay f s (ops ++ [op]) =
      ((replay f s ops).1 ++ [(f op (replay f s ops).2).1], (f op (replay f s ops).2).2) := by
  induction ops generalizing s with
  | nil => rfl
  | cons o ops ih => simp only [List.cons_append, replay, ih]

theorem replay_append_snd (f : ω → σ → ρ × σ) (s : σ) (ops ops' : List ω) :
    (replay f s (ops ++ ops')).2 = (replay f (replay f s ops).2 ops').2 := by
  induction ops generalizing s with
  | nil => rfl
  | cons o ops ih => exact ih _

/-- Two sequential machines that stay related give the same answers. -/
theorem replay_simulates {f : ω → σ → ρ × σ} {g : ω → τ → ρ × τ} {R : σ → τ → Prop}
    (hstep : ∀ op s t, R s t → (f op s).1 = (g op t).1 ∧ R (f op s).2 (g op t).2) (ops : List ω) {s : σ} {t : τ}
    (h : R s t) : (replay f s ops).1 = (replay g t ops).1 ∧ R (replay f s ops).2 (replay g t ops).2 := by
  induction ops generalizing s t with
  | nil => exact ⟨rfl, h⟩
  | cons op ops ih =>
    obtain ⟨hanswer, hR⟩ := hstep op s t h
    obtain ⟨hanswers, hR⟩ := ih hR
    exact ⟨congrArg₂ List.cons hanswer hanswers, hR⟩

/-- The operation on the array of values. -/
def Object.applyAt [DecidableEq ι] (O : Object ι α ω ρ) (op : ω) (cells : ι → α) : ρ × (ι → α) :=
  ((O.apply op (cells (O.cell op))).1, Function.update cells (O.cell op) (O.apply op (cells (O.cell op))).2)

/-! ### The invariant -/

/-- Call `k` has not taken effect. -/
def State.Absent (s : State ι α ω ρ) (k : ℕ) : Prop := ∀ e ∈ s.history, e.call ≠ k

@[simp] theorem history_setPc (s : State ι α ω ρ) (k : ℕ) (c : Call ω ρ) (pc : Pc ρ) :
    (s.setPc k c pc).history = s.history := rfl

@[simp] theorem absent_setPc {s : State ι α ω ρ} {j k : ℕ} {c : Call ω ρ} {pc : Pc ρ} :
    (s.setPc k c pc).Absent j ↔ s.Absent j := Iff.rfl

def Call.Accounted (O : Object ι α ω ρ) (s : State ι α ω ρ) (k : ℕ) (c : Call ω ρ) : Prop :=
  match c.pc with
  | .load _ => s.Absent k
  | .loaded ptr _ =>
    if O.isRead c.op then ⟨k, c.op, (O.apply c.op (s.heap ptr)).1⟩ ∈ s.history else s.Absent k
  | .copied ptr own answer _ => s.Absent k ∧ O.isRead c.op = false ∧ O.apply c.op (s.heap ptr) = (answer, s.heap own)
  | .done answer => ⟨k, c.op, answer⟩ ∈ s.history
  | .failed => s.Absent k

structure Inv [DecidableEq ι] (O : Object ι α ω ρ) (init : ι → α) (s : State ι α ω ρ) : Prop where
  replay : replay O.applyAt init (s.history.map (·.op)) = (s.history.map (·.answer), s.contents)
  once : (s.history.map (·.call)).Nodup
  known : ∀ e ∈ s.history, ∃ c : Call ω ρ, s.calls[e.call]? = some c ∧ c.op = e.op
  calls : ∀ (k : ℕ) (c : Call ω ρ), s.calls[k]? = some c → c.Accounted O s k

section

variable {O : Object ι α ω ρ} {init : ι → α} {s s' : State ι α ω ρ} {l : Label ω} {k : ℕ} {c d : Call ω ρ}

theorem Call.Accounted.frame (h : c.Accounted O s k) (hheap : ∀ a, c.pc.holds a = true → s'.heap a = s.heap a)
    (hkept : ∀ e ∈ s.history, e ∈ s'.history) (habsent : s.Absent k → s'.Absent k) : c.Accounted O s' k := by
  unfold Accounted at h ⊢
  cases hpc : c.pc with
  | load retries =>
    rw [hpc] at h
    exact habsent h
  | loaded ptr retries =>
    simp only [hpc] at h ⊢
    rw [hheap ptr (by simp [hpc, Pc.holds])]
    split at h
    · next hread => exact (if_pos hread).symm ▸ hkept _ h
    · next hread => exact (if_neg hread).symm ▸ habsent h
  | copied ptr own answer retries =>
    simp only [hpc] at h ⊢
    rw [hheap ptr (by simp [hpc, Pc.holds]), hheap own (by simp [hpc, Pc.holds])]
    exact ⟨habsent h.1, h.2⟩
  | done answer =>
    rw [hpc] at h
    exact hkept _ h
  | failed =>
    rw [hpc] at h
    exact habsent h

variable [DecidableEq ι]

theorem Inv.start (O : Object ι α ω ρ) (heap : ℕ → α) (pointer : ι → ℕ) :
    Inv O (fun i => heap (pointer i)) (start heap pointer) :=
  ⟨rfl, List.nodup_nil, fun _ h => (nomatch h), fun _ _ h => (nomatch h)⟩

/-- A step of call `k` that leaves the cells as they are. -/
theorem Inv.stay (h : Inv O init s) (hc : s.calls[k]? = some c) (hop : d.op = c.op)
    (hcalls : s'.calls = s.calls.set k d) (hhistory : s'.history = s.history) (hcontents : s'.contents = s.contents)
    (hheap : ∀ a, (∃ b ∈ s.calls, b.pc.holds a = true) → s'.heap a = s.heap a) (hself : d.Accounted O s' k) :
    Inv O init s' := by
  refine ⟨?_, ?_, fun e he => ?_, fun j b hb => ?_⟩
  · rw [hhistory, hcontents]
    exact h.replay
  · rw [hhistory]
    exact h.once
  · rw [hhistory] at he
    obtain ⟨b, hb, hbop⟩ := h.known e he
    rw [hcalls, Indexed.getElem?_set_of_some hc]
    by_cases hk : e.call = k
    · rw [hk, hc] at hb
      cases hb
      exact ⟨d, if_pos hk, hop.trans hbop⟩
    · exact ⟨b, (if_neg hk).trans hb, hbop⟩
  · rw [hcalls, Indexed.getElem?_set_of_some hc] at hb
    split at hb
    · next hj =>
      cases hb
      exact hj ▸ hself
    · refine (h.calls j b hb).frame (fun a ha => hheap a ⟨b, List.mem_of_getElem? hb, ha⟩) ?_ ?_ <;>
        simp [State.Absent, hhistory]

/-- The step in which call `k` takes effect. -/
theorem Inv.takesEffect (h : Inv O init s) (hc : s.calls[k]? = some c) (hop : d.op = c.op) (habsent : s.Absent k)
    (hcalls : s'.calls = s.calls.set k d) {answer : ρ} (hhistory : s'.history = s.history ++ [⟨k, c.op, answer⟩])
    (heffect : O.applyAt c.op s.contents = (answer, s'.contents)) (hheap : s'.heap = s.heap)
    (hself : d.Accounted O s' k) : Inv O init s' := by
  refine ⟨?_, ?_, fun e he => ?_, fun j b hb => ?_⟩
  · rw [hhistory, List.map_append, List.map_append, List.map_singleton, List.map_singleton, replay_concat, h.replay,
      heffect]
  · rw [hhistory, List.map_append, List.map_singleton, List.nodup_append]
    refine ⟨h.once, List.nodup_singleton _, fun a ha b hb => ?_⟩
    obtain ⟨e, he, rfl⟩ := List.mem_map.1 ha
    rw [List.mem_singleton.1 hb]
    exact habsent e he
  · rw [hcalls, Indexed.getElem?_set_of_some hc]
    rw [hhistory, List.mem_append, List.mem_singleton] at he
    rcases he with he | rfl
    · obtain ⟨b, hb, hbop⟩ := h.known e he
      exact ⟨b, (if_neg (habsent e he)).trans hb, hbop⟩
    · exact ⟨d, if_pos rfl, hop⟩
  · rw [hcalls, Indexed.getElem?_set_of_some hc] at hb
    split at hb
    · next hj =>
      cases hb
      exact hj ▸ hself
    · next hj =>
      refine (h.calls j b hb).frame (fun a _ => by rw [hheap]) (fun e he => ?_) fun hj' e he => ?_
      · rw [hhistory]
        exact List.mem_append_left _ he
      · rw [hhistory, List.mem_append, List.mem_singleton] at he
        rcases he with he | rfl
        · exact hj' e he
        · exact Ne.symm hj

theorem Inv.invoke (h : Inv O init s) (op : ω) : Inv O init { s with calls := s.calls ++ [⟨op, .load 0⟩] } := by
  refine ⟨h.replay, h.once, fun e he => ?_, fun j d hd => ?_⟩
  · obtain ⟨d, hd, hdop⟩ := h.known e he
    exact ⟨d, Indexed.getElem?_concat_of_some hd, hdop⟩
  · rcases Indexed.getElem?_concat_eq_some.1 hd with hd | ⟨rfl, rfl⟩
    · exact (h.calls j d hd).frame (fun _ _ => rfl) (fun _ => id) id
    · -- a call that is not there yet has no entry
      intro e he hk
      obtain ⟨d, hd, -⟩ := h.known e he
      rw [hk, List.getElem?_eq_none (Nat.le_refl _)] at hd
      cases hd

variable [Fintype ι]

theorem Inv.load (h : Inv O init s) (hs : step O s (.load k) = some s') : Inv O init s' := by
  obtain ⟨c, hc, hs⟩ := Option.bind_eq_some_iff.1 hs
  split at hs
  · next retries hpc =>
    have habsent : s.Absent k := by simpa [Call.Accounted, hpc] using h.calls k c hc
    by_cases hread : O.isRead c.op = true
    · simp only [hread, if_true] at hs
      cases hs
      refine h.takesEffect hc (d := { c with pc := .loaded _ retries }) rfl habsent rfl rfl ?_ rfl ?_
      · -- a read leaves its cell as it is
        refine Prod.ext rfl ?_
        show Function.update s.contents (O.cell c.op) (O.apply c.op (s.contents (O.cell c.op))).2 = _
        rw [O.read_keeps _ _ hread, Function.update_eq_self]
        rfl
      · simp [Call.Accounted, hread, State.setPc]
    · simp only [hread] at hs
      cases hs
      refine h.stay hc (d := { c with pc := .loaded _ retries }) rfl rfl rfl rfl (fun _ _ => rfl) ?_
      simpa [Call.Accounted, hread] using habsent
  · cases hs

theorem Inv.read (h : Inv O init s) (hs : step O s (.read k) = some s') : Inv O init s' := by
  obtain ⟨c, hc, hs⟩ := Option.bind_eq_some_iff.1 hs
  split at hs
  · next ptr retries hpc =>
    split at hs
    · next hread =>
      cases hs
      refine h.stay hc (d := { c with pc := .done _ }) rfl rfl rfl rfl (fun _ _ => rfl) ?_
      simpa [Call.Accounted, hpc, hread] using h.calls k c hc
    · cases hs
  · cases hs

theorem Inv.copy {a : ℕ} (h : Inv O init s) (hs : step O s (.copy k a) = some s') : Inv O init s' := by
  obtain ⟨c, hc, hs⟩ := Option.bind_eq_some_iff.1 hs
  split at hs
  · next ptr retries hpc =>
    split at hs
    · next hw =>
      cases hs
      obtain ⟨hwrite, hcells, hheld⟩ := hw
      have hkeep : ∀ b, (∃ d ∈ s.calls, d.pc.holds b = true) → b ≠ a := by
        rintro b ⟨d, hd, hb⟩ rfl
        rw [hheld d hd] at hb
        cases hb
      refine h.stay hc (d := { c with pc := .copied ptr a _ retries }) rfl rfl rfl ?_
        (fun b hb => Function.update_of_ne (hkeep b hb) _ _) ?_
      · funext i
        exact Function.update_of_ne (hcells i) _ _
      · have habsent : s.Absent k := by simpa [Call.Accounted, hpc, hwrite] using h.calls k c hc
        have hptr : ptr ≠ a := hkeep ptr ⟨c, List.mem_of_getElem? hc, by simp [hpc, Pc.holds]⟩
        refine ⟨habsent, hwrite, ?_⟩
        simp [Function.update_of_ne hptr]
    · cases hs
  · cases hs

theorem Inv.exchange {spurious : Bool} (h : Inv O init s) (hs : step O s (.exchange k spurious) = some s') :
    Inv O init s' := by
  obtain ⟨c, hc, hs⟩ := Option.bind_eq_some_iff.1 hs
  split at hs
  · next ptr own answer retries hpc =>
    obtain ⟨habsent, -, heq⟩ : s.Absent k ∧ O.isRead c.op = false ∧ O.apply c.op (s.heap ptr) = (answer, s.heap own) := by
      simpa [Call.Accounted, hpc] using h.calls k c hc
    split at hs
    · next hsame =>
      -- the cell still has the value that was copied
      cases hs
      have hvalue : s.contents (O.cell c.op) = s.heap ptr := congrArg s.heap hsame.1
      refine h.takesEffect hc (d := { c with pc := .done answer }) rfl habsent rfl rfl ?_ rfl ?_
      · rw [Object.applyAt, hvalue, heq]
        refine Prod.ext rfl (funext fun i => ?_)
        show Function.update s.contents (O.cell c.op) (s.heap own) i =
          s.heap (Function.update s.pointer (O.cell c.op) own i)
        by_cases hi : i = O.cell c.op
        · rw [hi, Function.update_self, Function.update_self]
        · rw [Function.update_of_ne hi, Function.update_of_ne hi, State.contents]
      · simp [Call.Accounted]
    · cases hs
      refine h.stay hc (d := { c with pc := if O.maxRetries ≤ retries + 1 then .failed else .load (retries + 1) })
        rfl rfl rfl rfl (fun _ _ => rfl) ?_
      unfold Call.Accounted
      by_cases hmax : O.maxRetries ≤ retries + 1
      · simpa [hmax] using habsent
      · simpa [hmax] using habsent
  · cases hs

theorem Inv.step (h : Inv O init s) (hs : step O s l = some s') : Inv O init s' := by
  cases l with
  | invoke op =>
    cases hs
    exact h.invoke op
  | load k => exact h.load hs
  | read k => exact h.read hs
  | copy k a => exact h.copy hs
  | exchange k spurious => exact h.exchange hs

omit [Fintype ι] in
/-- Who is in the history has answered so, or is a read about to. -/
theorem Inv.answered (h : Inv O init s) {e : Entry ω ρ} (he : e ∈ s.history) : ∃ c : Call ω ρ,
    s.calls[e.call]? = some c ∧ c.op = e.op ∧
      (c.pc = .done e.answer ∨ O.isRead c.op = true ∧ ∃ ptr retries, c.pc = .loaded ptr retries) := by
  obtain ⟨c, hc, hop⟩ := h.known e he
  refine ⟨c, hc, hop, ?_⟩
  have hcall := h.calls e.call c hc
  unfold Call.Accounted at hcall
  cases hpc : c.pc with
  | load retries =>
    rw [hpc] at hcall
    exact absurd rfl (hcall e he)
  | loaded ptr retries =>
    refine .inr ⟨?_, ptr, retries, rfl⟩
    by_contra hread
    simp only [hpc, hread] at hcall
    exact hcall e he rfl
  | copied ptr own answer retries =>
    simp only [hpc] at hcall
    exact absurd rfl (hcall.1 e he)
  | done answer =>
    simp only [hpc] at hcall
    rw [List.inj_on_of_nodup_map h.once he hcall rfl]
    exact .inl rfl
  | failed =>
    rw [hpc] at hcall
    exact absurd rfl (hcall e he)

/-! ### While no update runs -/

def Pc.finished : Pc ρ → Bool
  | .done _ => true
  | .failed => true
  | _ => false

/-- No update is between its call and its return. -/
def State.Quiet (O : Object ι α ω ρ) (s : State ι α ω ρ) : Prop :=
  ∀ c ∈ s.calls, O.isRead c.op = true ∨ c.pc.finished = true

/-- The label does not call an update. -/
def Label.Reads (O : Object ι α ω ρ) : Label ω → Prop
  | .invoke op => O.isRead op = true
  | _ => True

omit [DecidableEq ι] [Fintype ι] in
theorem State.Quiet.setPc {pc : Pc ρ} (h : s.Quiet O)
    (hpc : O.isRead c.op = true ∨ pc.finished = true) : (s.setPc k c pc).Quiet O := by
  intro d hd
  rcases List.mem_or_eq_of_mem_set hd with hd | rfl
  · exact h d hd
  · exact hpc

theorem State.Quiet.step (h : s.Quiet O) (hinv : Inv O init s) (hs : step O s l = some s') (hl : l.Reads O) :
    s'.Quiet O ∧ s'.contents = s.contents := by
  cases l with
  | invoke op =>
    cases hs
    refine ⟨fun c hc => ?_, rfl⟩
    rcases List.mem_append.1 hc with hc | hc
    · exact h c hc
    · rw [List.mem_singleton.1 hc]
      exact .inl hl
  | load k =>
    obtain ⟨c, hc, hs⟩ := Option.bind_eq_some_iff.1 hs
    split at hs
    · next retries hpc =>
      have hread : O.isRead c.op = true := by simpa [hpc, Pc.finished] using h c (List.mem_of_getElem? hc)
      simp only [hread, if_true] at hs
      cases hs
      exact ⟨h.setPc (.inl hread), rfl⟩
    · cases hs
  | read k =>
    obtain ⟨c, hc, hs⟩ := Option.bind_eq_some_iff.1 hs
    split at hs
    · split at hs
      · cases hs
        exact ⟨h.setPc (.inr rfl), rfl⟩
      · cases hs
    · cases hs
  | copy k a =>
    obtain ⟨c, hc, hs⟩ := Option.bind_eq_some_iff.1 hs
    split at hs
    · next hpc =>
      split at hs
      · next hw =>
        have hread : O.isRead c.op = true := by simpa [hpc, Pc.finished] using h c (List.mem_of_getElem? hc)
        rw [hw.1] at hread
        cases hread
      · cases hs
    · cases hs
  | exchange k spurious =>
    obtain ⟨c, hc, hs⟩ := Option.bind_eq_some_iff.1 hs
    split at hs
    · next hpc =>
      have hwrite := hinv.calls k c hc
      simp only [Call.Accounted, hpc] at hwrite
      have hread : O.isRead c.op = true := by simpa [hpc, Pc.finished] using h c (List.mem_of_getElem? hc)
      rw [hwrite.2.1] at hread
      cases hread
    · cases hs

/-- While only reads run, the cells keep their values. -/
theorem contents_of_quiet {ls : List (Label ω)} (hr : StepSystem.run (CopyOnWrite.step O) s ls = some s')
    (hinv : Inv O init s) (h : s.Quiet O) (hls : ∀ l ∈ ls, l.Reads O) : s'.contents = s.contents := by
  induction ls generalizing s with
  | nil =>
    cases hr
    rfl
  | cons l ls ih =>
    obtain ⟨t, ht, hr⟩ := StepSystem.run_cons_eq_some.1 hr
    obtain ⟨hquiet, heq⟩ := h.step hinv ht (hls l (by simp))
    rw [ih hr (hinv.step ht) hquiet fun m hm => hls m (by simp [hm]), heq]

/-- Every reachable state is accounted for by its history. -/
theorem Inv.of_run {heap : ℕ → α} {pointer : ι → ℕ} {ls : List (Label ω)}
    (hr : StepSystem.run (CopyOnWrite.step O) (CopyOnWrite.start heap pointer) ls = some s) :
    Inv O (fun i => heap (pointer i)) s :=
  StepSystem.run_invariant (fun _ _ _ hs h => h.step hs) hr (.start O heap pointer)

end

end CopyOnWrite
