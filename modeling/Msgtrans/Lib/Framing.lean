import Mathlib.Data.List.Basic

/-!
# Receivers of self-delimiting frames

A receiver keeps a buffer of symbols; `append` adds what arrived, `call` tries to take one frame off
the front. `drain` calls until a call returns no frame, `feed` appends chunks and drains after each.
`Decodes R Ok enc` says what one call does when the buffer starts with an encoding, with a proper
prefix of one, or is empty; from it `feed_spec` gets whole runs: however the concatenation of the
encodings of `fs` is cut into chunks, the frames come out in order, no call fails, and after every
call the buffer is what was received minus what was consumed.
-/

namespace Framing

variable {σ α φ ε : Type*}

structure Receiver (σ α φ ε : Type*) where
  buf : σ → List α
  append : σ → List α → σ
  call : σ → Except ε (Option φ) × σ

/-- One call: its result and the state it leaves. -/
structure Call (σ φ ε : Type*) where
  result : Except ε (Option φ)
  after : σ

def Call.frame? (c : Call σ φ ε) : Option φ :=
  match c.result with
  | .ok r => r
  | .error _ => none

def Call.consumed (enc : φ → List α) (c : Call σ φ ε) : List α := (c.frame?.map enc).getD []

namespace Receiver

variable (R : Receiver σ α φ ε)

/-- Calls until no frame comes; `none` when `fuel` calls did not suffice. -/
def drain : ℕ → σ → Option (List (Call σ φ ε))
  | 0, _ => none
  | fuel + 1, s =>
    let c : Call σ φ ε := ⟨(R.call s).1, (R.call s).2⟩
    match c.result with
    | .ok (some _) => (drain fuel c.after).map (c :: ·)
    | _ => some [c]

def last (s : σ) (cs : List (Call σ φ ε)) : σ := (cs.getLast?.map Call.after).getD s

def feed (fuel : ℕ) : σ → List (List α) → Option (List (List (Call σ φ ε)))
  | _, [] => some []
  | s, chunk :: chunks =>
    let s := R.append s chunk
    (drain R fuel s).bind fun cs => (feed fuel (last s cs) chunks).map (cs :: ·)

/-- After every call of a round, `received = consumed ++ buffer`. -/
def Tally (enc : φ → List α) (received : List α) : List α → List (Call σ φ ε) → Prop
  | _, [] => True
  | consumed, c :: cs => received = consumed ++ c.consumed enc ++ R.buf c.after ∧
      Tally enc received (consumed ++ c.consumed enc) cs

/-- `Tally` over all rounds, `received` growing by one chunk a round. -/
def TallyRounds (enc : φ → List α) : List α → List α → List (List α) → List (List (Call σ φ ε)) → Prop
  | _, _, [], [] => True
  | received, consumed, chunk :: chunks, cs :: rounds => R.Tally enc (received ++ chunk) consumed cs ∧
      TallyRounds enc (received ++ chunk) (consumed ++ cs.flatMap (Call.consumed enc)) chunks rounds
  | _, _, _, _ => False

end Receiver

/-- What one call does on a buffer of encodings. -/
structure Decodes (R : Receiver σ α φ ε) (Ok : φ → Prop) (enc : φ → List α) : Prop where
  enc_ne_nil : ∀ f, enc f ≠ []
  buf_append : ∀ s c, R.buf (R.append s c) = R.buf s ++ c
  whole : ∀ s f tl, Ok f → R.buf s = enc f ++ tl →
    (R.call s).1 = .ok (some f) ∧ R.buf (R.call s).2 = tl
  part : ∀ s f, Ok f → R.buf s <+: enc f → (R.buf s).length < (enc f).length →
    (R.call s).1 = .ok none ∧ R.buf (R.call s).2 = R.buf s
  empty : ∀ s, R.buf s = [] → (R.call s).1 = .ok none ∧ R.buf (R.call s).2 = []

/-- A prefix of the encodings of `f :: fs` is a proper prefix of the first one or has it whole. -/
theorem prefix_flatMap_cons {enc : φ → List α} {b : List α} {f : φ} {fs : List φ}
    (h : b <+: (f :: fs).flatMap enc) :
    (b <+: enc f ∧ b.length < (enc f).length) ∨ ∃ tl, b = enc f ++ tl ∧ tl <+: fs.flatMap enc := by
  rw [List.flatMap_cons] at h
  rcases Nat.lt_or_ge b.length (enc f).length with hlt | hge
  · exact .inl ⟨List.prefix_of_prefix_length_le h (List.prefix_append ..) (Nat.le_of_lt hlt), hlt⟩
  · obtain ⟨tl, rfl⟩ := List.prefix_of_prefix_length_le (List.prefix_append ..) h hge
    exact .inr ⟨tl, rfl, (List.prefix_append_right_inj _).1 h⟩

namespace Decodes

variable {R : Receiver σ α φ ε} {Ok : φ → Prop} {enc : φ → List α}

theorem last_cons (s : σ) (c : Call σ φ ε) (cs : List (Call σ φ ε)) :
    Receiver.last s (c :: cs) = Receiver.last c.after cs := by
  cases cs <;> rfl

/-- A drain on a prefix of the encodings of `fs` takes the whole frames off and leaves a buffer that
holds no whole frame. The induction is on `fs`: each call takes off its head or stops. -/
theorem drain_spec (h : Decodes R Ok enc) {fs : List φ} (hok : ∀ f ∈ fs, Ok f) {s : σ}
    (hs : R.buf s <+: fs.flatMap enc) (received consumed : List α) (hr : received = consumed ++ R.buf s) :
    ∃ cs got rest, (∀ fuel, (R.buf s).length < fuel → R.drain fuel s = some cs) ∧ fs = got ++ rest ∧
      cs.filterMap Call.frame? = got ∧ (∀ c ∈ cs, ∃ r, c.result = .ok r) ∧
      R.Tally enc received consumed cs ∧ R.buf s = got.flatMap enc ++ R.buf (Receiver.last s cs) ∧
      (R.buf (Receiver.last s cs) = rest.flatMap enc → rest = []) := by
  induction fs generalizing s consumed with
  | nil =>
    have hnil : R.buf s = [] := List.prefix_nil.1 hs
    obtain ⟨h1, h2⟩ := h.empty s hnil
    refine ⟨[⟨(R.call s).1, (R.call s).2⟩], [], [], ?_, rfl, ?_, ?_, ?_, ?_, fun _ => rfl⟩
    · intro fuel hfuel
      obtain ⟨fuel, rfl⟩ := Nat.exists_eq_succ_of_ne_zero (Nat.ne_zero_of_lt hfuel)
      simp only [Receiver.drain, h1]
    · simp [Call.frame?, h1]
    · simp [h1]
    · refine ⟨?_, trivial⟩
      rw [hr, hnil, h2]
      simp [Call.consumed, Call.frame?, h1]
    · rw [hnil]
      exact h2.symm
  | cons f fs ih =>
    have hf : Ok f := hok f List.mem_cons_self
    rcases prefix_flatMap_cons hs with ⟨hpre, hlt⟩ | ⟨tl, hbuf, htl⟩
    · -- a proper prefix of the first frame: the call returns nothing
      obtain ⟨h1, h2⟩ := h.part s f hf hpre hlt
      refine ⟨[⟨(R.call s).1, (R.call s).2⟩], [], f :: fs, ?_, rfl, ?_, ?_, ?_, ?_, ?_⟩
      · intro fuel hfuel
        obtain ⟨fuel, rfl⟩ := Nat.exists_eq_succ_of_ne_zero (Nat.ne_zero_of_lt hfuel)
        simp only [Receiver.drain, h1]
      · simp [Call.frame?, h1]
      · simp [h1]
      · refine ⟨?_, trivial⟩
        rw [hr]
        simp [Call.consumed, Call.frame?, h1, h2]
      · exact h2.symm
      · intro hall
        have hlen : R.buf s = (f :: fs).flatMap enc := h2.symm.trans hall
        rw [hlen, List.flatMap_cons, List.length_append] at hlt
        omega
    · -- the first frame is whole: the call takes it off and the loop goes on
      obtain ⟨h1, h2⟩ := h.whole s f tl hf hbuf
      obtain ⟨cs, got, rest, hdrain, hfs, hgot, hres, htally, hcut, hrest⟩ :=
        ih (fun g hg => hok g (List.mem_cons_of_mem f hg)) (s := (R.call s).2) (by rwa [h2])
          (consumed ++ enc f) (by rw [hr, hbuf, h2, List.append_assoc])
      refine ⟨⟨(R.call s).1, (R.call s).2⟩ :: cs, f :: got, rest, ?_, by rw [hfs]; rfl, ?_, ?_, ?_, ?_, ?_⟩
      · intro fuel hfuel
        obtain ⟨fuel, rfl⟩ := Nat.exists_eq_succ_of_ne_zero (Nat.ne_zero_of_lt hfuel)
        have hpos := List.length_pos_of_ne_nil (h.enc_ne_nil f)
        have hlt : (R.buf (R.call s).2).length < fuel := by
          rw [hbuf, List.length_append] at hfuel
          rw [h2]
          omega
        simp only [Receiver.drain, h1, hdrain fuel hlt, Option.map_some]
      · simp [Call.frame?, h1, hgot]
      · rintro c hc
        rcases List.mem_cons.1 hc with rfl | hc
        · exact ⟨some f, h1⟩
        · exact hres c hc
      · have hcons : Call.consumed enc ⟨(R.call s).1, (R.call s).2⟩ = enc f := by
          simp [Call.consumed, Call.frame?, h1]
        refine ⟨?_, ?_⟩
        · rw [hcons, hr, hbuf, h2, List.append_assoc]
        · rw [hcons]
          exact htally
      · rw [last_cons, hbuf, List.flatMap_cons, List.append_assoc, ← hcut, h2]
      · rw [last_cons]
        exact hrest

theorem flatMap_consumed (cs : List (Call σ φ ε)) :
    cs.flatMap (Call.consumed enc) = (cs.filterMap Call.frame?).flatMap enc := by
  induction cs with
  | nil => rfl
  | cons c cs ih =>
    rw [List.flatMap_cons, ih]
    cases hc : c.frame? with
    | none => simp [Call.consumed, hc]
    | some f => simp [Call.consumed, hc]

/-- Feeding chunk by chunk, from a buffer that with the chunks makes up the encodings of `fs` and that
alone does not hold all of them. The induction is on the chunks, one drain a step. -/
theorem feed_spec (h : Decodes R Ok enc) {chunks : List (List α)} {fs : List φ} (hok : ∀ f ∈ fs, Ok f)
    {s : σ} (hs : R.buf s ++ chunks.flatten = fs.flatMap enc) (hstart : R.buf s = fs.flatMap enc → fs = [])
    (received consumed : List α) (hr : received = consumed ++ R.buf s) :
    ∃ rounds, (∀ fuel, (R.buf s ++ chunks.flatten).length < fuel → R.feed fuel s chunks = some rounds) ∧
      rounds.flatten.filterMap Call.frame? = fs ∧ (∀ c ∈ rounds.flatten, ∃ r, c.result = .ok r) ∧
      R.TallyRounds enc received consumed chunks rounds := by
  induction chunks generalizing s fs received consumed with
  | nil =>
    have hfs : fs = [] := hstart (by rw [← hs, List.flatten_nil, List.append_nil])
    subst hfs
    exact ⟨[], fun _ _ => rfl, rfl, by simp, trivial⟩
  | cons chunk chunks ih =>
    have happ := h.buf_append s chunk
    rw [List.flatten_cons, ← List.append_assoc, ← happ] at hs
    have hr' : received ++ chunk = consumed ++ R.buf (R.append s chunk) := by
      rw [hr, happ, List.append_assoc]
    obtain ⟨cs, got, rest, hdrain, rfl, hgot, hres, htally, hcut, hrest⟩ :=
      h.drain_spec hok (s := R.append s chunk) ⟨_, hs⟩ _ _ hr'
    rw [hcut, List.flatMap_append, List.append_assoc] at hs
    have hs' := List.append_cancel_left hs
    have hcons : cs.flatMap (Call.consumed enc) = got.flatMap enc := by rw [flatMap_consumed, hgot]
    obtain ⟨rounds, hfeed, hframes, hall, htallies⟩ :=
      ih (fun f hf => hok f (List.mem_append_right got hf)) hs' hrest (received ++ chunk)
        (consumed ++ cs.flatMap (Call.consumed enc))
        (by rw [hr', hcut, hcons, List.append_assoc])
    refine ⟨cs :: rounds, ?_, ?_, ?_, htally, htallies⟩
    · intro fuel hfuel
      have hlen := congrArg List.length hcut
      rw [happ, List.length_append, List.length_append] at hlen
      rw [List.flatten_cons, List.length_append, List.length_append] at hfuel
      have h1 : (R.buf (R.append s chunk)).length < fuel := by
        rw [happ, List.length_append]
        omega
      have h2 : (R.buf (Receiver.last (R.append s chunk) cs) ++ chunks.flatten).length < fuel := by
        rw [List.length_append]
        omega
      simp only [Receiver.feed, hdrain fuel h1, Option.bind_some, hfeed fuel h2, Option.map_some]
    · rw [List.flatten_cons, List.filterMap_append, hgot, hframes]
    · intro c hc
      rw [List.flatten_cons, List.mem_append] at hc
      exact hc.elim (hres c) (hall c)

end Decodes

end Framing
