import Mathlib.Data.List.Nodup

/-!
# A queue of commands and its one consumer

Commands are sent into a queue; the consumer takes them off one by one, executes each, replies to it, and stops
after one that `stops` it, or when nobody can send any more. Whatever is then left in the queue is lost.
`sent`, `executed` and `lost` are history.

`Inv` is what every operation keeps; with it the executed commands are the first ones sent, in that order, and
none follows one that stops the consumer.
-/

namespace CommandQueue

/-- Where the consumer stands. -/
inductive Phase (κ ο : Type*) where
  | receiving
  | executing (c : κ)
  | replying (c : κ) (o : ο)
  /-- it will not receive again, but the queue is still there -/
  | stopping
  | ended
deriving DecidableEq

structure State (κ ο : Type*) where
  queue : List κ
  phase : Phase κ ο
  sent : List κ
  executed : List (κ × ο)
  lost : List κ

variable {κ ο β : Type*} (stops : κ → ο → Bool)

namespace State

def new : State κ ο := ⟨[], .receiving, [], [], []⟩

/-- `none` when the queue is gone. -/
def send (s : State κ ο) (c : κ) : Option (State κ ο) :=
  match s.phase with
  | .ended => none
  | _ => some { s with queue := s.queue ++ [c], sent := s.sent ++ [c] }

def take (s : State κ ο) : Option (State κ ο) :=
  match s.phase, s.queue with
  | .receiving, c :: rest => some { s with phase := .executing c, queue := rest }
  | _, _ => none

/-- The execution ends with the outcome `o`. -/
def finish (s : State κ ο) (o : ο) : Option (κ × State κ ο) :=
  match s.phase with
  | .executing c => some (c, { s with phase := .replying c o, executed := s.executed ++ [(c, o)] })
  | _ => none

def reply (s : State κ ο) : Option ((κ × ο) × State κ ο) :=
  match s.phase with
  | .replying c o => some ((c, o), { s with phase := if stops c o then .stopping else .receiving })
  | _ => none

def exit (s : State κ ο) : Option (State κ ο) :=
  match s.phase with
  | .stopping => some { s with phase := .ended, queue := [], lost := s.queue }
  | _ => none

/-- Nobody can send any more, and everything sent is done. -/
def hangUp (s : State κ ο) : Option (State κ ο) :=
  match s.phase, s.queue with
  | .receiving, [] => some { s with phase := .ended }
  | _, _ => none

end State

namespace Phase

def current : Phase κ ο → List κ
  | .executing c => [c]
  | _ => []

/-- The command the consumer has not replied to. -/
def unanswered : Phase κ ο → List κ
  | .executing c | .replying c _ => [c]
  | _ => []

/-- A command has stopped the consumer. -/
def Stopped : Phase κ ο → Prop
  | .replying c o => stops c o
  | .stopping | .ended => True
  | _ => False

end Phase

/-- The commands whose reply is still to come, first the one that comes first. -/
def State.holding (s : State κ ο) : List κ := s.phase.unanswered ++ s.queue

structure Inv (s : State κ ο) : Prop where
  sent : s.sent = s.executed.map Prod.fst ++ s.phase.current ++ s.queue ++ s.lost
  lost : s.phase ≠ .ended → s.lost = []
  ended : s.phase = .ended → s.queue = []
  replying : ∀ c o, s.phase = .replying c o → (c, o) ∈ s.executed
  stopped : ∀ x ∈ s.executed, stops x.1 x.2 → s.phase.Stopped stops
  last : ∀ x ∈ s.executed.dropLast, ¬ stops x.1 x.2

variable {stops} {s s' : State κ ο} {c : κ} {o : ο} {x : κ × ο} {f : κ → β}

theorem inv_new : Inv stops (State.new : State κ ο) := by
  constructor <;> simp [State.new, Phase.current]

theorem Inv.send (h : Inv stops s) (hs : s.send c = some s') :
    s.phase ≠ .ended ∧ s' = { s with queue := s.queue ++ [c], sent := s.sent ++ [c] } ∧ Inv stops s' := by
  obtain ⟨queue, phase, sent, executed, lost⟩ := s
  have hne : phase ≠ .ended := by
    rintro rfl
    cases hs
  have hs' : s' = ⟨queue ++ [c], phase, sent ++ [c], executed, lost⟩ := by
    cases phase with
    | ended => cases hs
    | _ => exact (Option.some.inj hs).symm
  refine ⟨hne, hs', ?_⟩
  subst hs'
  obtain ⟨hsent, hlost, -, hreply, hstop, hlast⟩ := h
  have hl : lost = [] := hlost hne
  refine ⟨?_, hlost, fun he => absurd he hne, hreply, hstop, hlast⟩
  simp only at hsent ⊢
  simp [hsent, hl]

theorem Inv.take (h : Inv stops s) (hs : s.take = some s') :
    ∃ c rest, s.queue = c :: rest ∧ s.phase = .receiving ∧ s' = { s with phase := .executing c, queue := rest } ∧
      Inv stops s' := by
  obtain ⟨queue, phase, sent, executed, lost⟩ := s
  cases phase with
  | receiving =>
    cases queue with
    | nil => cases hs
    | cons c rest =>
      cases hs
      obtain ⟨hsent, hlost, -, -, hstop, hlast⟩ := h
      refine ⟨c, rest, rfl, rfl, rfl, ?_, fun _ => hlost nofun, nofun, nofun, hstop, hlast⟩
      simpa [Phase.current] using hsent
  | _ => cases hs

theorem Inv.finish (h : Inv stops s) (hs : s.finish o = some (c, s')) :
    s.phase = .executing c ∧ s' = { s with phase := .replying c o, executed := s.executed ++ [(c, o)] } ∧
      Inv stops s' := by
  obtain ⟨queue, phase, sent, executed, lost⟩ := s
  cases phase with
  | executing d =>
    cases hs
    obtain ⟨hsent, hlost, -, -, hstop, -⟩ := h
    refine ⟨rfl, rfl, ?_, fun _ => hlost nofun, nofun, ?_, ?_, ?_⟩
    · simpa [Phase.current] using hsent
    · rintro c' o' ⟨⟩
      exact List.mem_append_right _ List.mem_cons_self
    · intro x hx hstops
      rcases List.mem_append.1 hx with hx | hx
      · exact absurd (hstop x hx hstops) id
      · cases List.mem_singleton.1 hx
        exact hstops
    · intro x hx hstops
      rw [List.dropLast_concat] at hx
      exact hstop x hx hstops
  | _ => cases hs

theorem Inv.reply (h : Inv stops s) (hs : s.reply stops = some ((c, o), s')) :
    s.phase = .replying c o ∧ s' = { s with phase := if stops c o then .stopping else .receiving } ∧
      Inv stops s' := by
  obtain ⟨queue, phase, sent, executed, lost⟩ := s
  cases phase with
  | replying d o' =>
    cases hs
    obtain ⟨hsent, hlost, -, -, hstop, hlast⟩ := h
    refine ⟨rfl, rfl, ?_⟩
    by_cases hc : stops c o
    · rw [if_pos hc]
      exact ⟨hsent, fun _ => hlost nofun, nofun, nofun, fun _ _ _ => trivial, hlast⟩
    · rw [if_neg hc]
      exact ⟨hsent, fun _ => hlost nofun, nofun, nofun, fun x hx hs => hc (hstop x hx hs), hlast⟩
  | _ => cases hs

theorem Inv.exit (h : Inv stops s) (hs : s.exit = some s') :
    s.phase = .stopping ∧ s' = { s with phase := .ended, queue := [], lost := s.queue } ∧ Inv stops s' := by
  obtain ⟨queue, phase, sent, executed, lost⟩ := s
  cases phase with
  | stopping =>
    cases hs
    obtain ⟨hsent, hlost, -, -, -, hlast⟩ := h
    have hl : lost = [] := hlost nofun
    refine ⟨rfl, rfl, ?_, fun h => absurd rfl h, fun _ => rfl, nofun, fun _ _ _ => trivial, hlast⟩
    simpa [hl, Phase.current] using hsent
  | _ => cases hs

theorem Inv.hangUp (h : Inv stops s) (hs : s.hangUp = some s') :
    s.phase = .receiving ∧ s.queue = [] ∧ s' = { s with phase := .ended } ∧ Inv stops s' := by
  obtain ⟨queue, phase, sent, executed, lost⟩ := s
  cases phase with
  | receiving =>
    cases queue with
    | nil =>
      cases hs
      obtain ⟨hsent, -, -, -, -, hlast⟩ := h
      exact ⟨rfl, rfl, rfl, hsent, fun h => absurd rfl h, fun _ => rfl, nofun, fun _ _ _ => trivial, hlast⟩
    | cons c rest => cases hs
  | _ => cases hs

/-- The executed commands are the first ones sent, in that order. -/
theorem Inv.first_sent (h : Inv stops s) : s.executed.map Prod.fst <+: s.sent :=
  ⟨s.phase.current ++ s.queue ++ s.lost, by rw [h.sent]; simp⟩

/-- What stops the consumer is executed last. -/
theorem Inv.last_of_stops (h : Inv stops s) (hx : x ∈ s.executed) (hs : stops x.1 x.2) :
    ∃ before, s.executed = before ++ [x] := by
  have hne : s.executed ≠ [] := List.ne_nil_of_mem hx
  have he := List.dropLast_append_getLast hne
  rw [← he] at hx
  rcases List.mem_append.1 hx with hx | hx
  · exact absurd hs (h.last x hx)
  · exact ⟨_, by rw [List.mem_singleton.1 hx]; exact he.symm⟩

theorem Inv.mem_sent (h : Inv stops s) (hx : x ∈ s.executed) : x.1 ∈ s.sent :=
  h.first_sent.subset (List.mem_map_of_mem hx)

theorem Inv.holding_sent (h : Inv stops s) (hc : c ∈ s.holding) : c ∈ s.sent := by
  rcases List.mem_append.1 hc with hc | hc
  · cases hp : s.phase with
    | executing d =>
      rw [hp] at hc
      rw [h.sent, hp]
      exact List.mem_append_left _ (List.mem_append_left _ (List.mem_append_right _ hc))
    | replying d o =>
      rw [hp] at hc
      cases List.mem_singleton.1 hc
      exact h.mem_sent (h.replying c o hp)
    | _ => rw [hp] at hc; cases hc
  · rw [h.sent]
    exact List.mem_append_left _ (List.mem_append_right _ hc)

/-! Where all commands sent differ by `f` -/

theorem Inv.executed_nodup (h : Inv stops s) (hnd : (s.sent.map f).Nodup) :
    (s.executed.map fun x => f x.1).Nodup := by
  have hsub := h.first_sent.sublist.map f
  rw [List.map_map] at hsub
  exact hsub.nodup hnd

theorem Inv.queue_fresh (h : Inv stops s) (hnd : (s.sent.map f).Nodup) (hc : c ∈ s.queue) (hx : x ∈ s.executed) :
    f x.1 ≠ f c := by
  rw [h.sent, List.append_assoc, List.append_assoc, List.map_append, List.nodup_append] at hnd
  refine hnd.2.2 _ (List.mem_map_of_mem (List.mem_map_of_mem hx)) _ (List.mem_map_of_mem ?_)
  exact List.mem_append_right _ (List.mem_append_left _ hc)

/-- The unanswered command of what is executed is the one being replied to. -/
theorem Inv.replying_of_holding (h : Inv stops s) (hnd : (s.sent.map f).Nodup) (hc : c ∈ s.holding) (hx : x ∈ s.executed)
    (he : f c = f x.1) : s.phase = .replying x.1 x.2 := by
  rcases List.mem_append.1 hc with hc | hc
  · cases hp : s.phase with
    | executing d =>
      rw [hp] at hc
      cases List.mem_singleton.1 hc
      rw [h.sent, hp, List.append_assoc, List.append_assoc, List.map_append, List.nodup_append] at hnd
      exact absurd he.symm (hnd.2.2 _ (List.mem_map_of_mem (List.mem_map_of_mem hx)) _
        (List.mem_map_of_mem List.mem_cons_self))
    | replying d o =>
      rw [hp] at hc
      cases List.mem_singleton.1 hc
      have hxd : x = (c, o) :=
        List.inj_on_of_nodup_map (h.executed_nodup hnd) hx (h.replying c o hp) he.symm
      rw [hxd]
    | _ => rw [hp] at hc; cases hc
  · exact absurd he.symm (h.queue_fresh hnd hc hx)

end CommandQueue
