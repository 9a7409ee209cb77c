import Mathlib.Data.List.Basic
import Mathlib.Logic.Function.Basic
import Msgtrans.Lib.Run
import Msgtrans.Lib.TurnLoop

/-!
# Two loops at the ends of a link

Each end has a send queue and one loop, which either reads the next frame the other end put on the wire, or
takes the next packet off its queue and writes it, or meets something that moves nothing (a failure, an idle
wake-up), or stops and says goodbye with a last frame. The wire is FIFO in both directions and the connection's own
machinery may put control frames on it. A frame remembers what was written; the reading loop sees its content only.

`Flow` is what holds from one end to the other in every state: what was accepted is what was written and
what is still queued; what was written is what was read and what is still on the wire; a goodbye is the last frame.
-/

namespace Link

inductive Side where
  | left | right
deriving DecidableEq, Repr

def Side.peer : Side → Side
  | .left => .right
  | .right => .left

@[simp] theorem Side.peer_peer (d : Side) : d.peer.peer = d := by cases d <;> rfl

@[simp] theorem Side.peer_ne (d : Side) : d.peer ≠ d := by cases d <;> decide

@[simp] theorem Side.ne_peer (d : Side) : d ≠ d.peer := (Side.peer_ne d).symm

theorem Side.forall_iff {P : Side → Prop} (d : Side) : (∀ d', P d') ↔ P d ∧ P d.peer := by
  constructor
  · exact fun h => ⟨h d, h d.peer⟩
  · rintro ⟨h, h'⟩ d'
    by_cases hd : d' = d
    · exact hd ▸ h
    · have : d' = d.peer := by cases d <;> cases d' <;> first | rfl | exact absurd rfl hd
      exact this ▸ h'

variable {φ μ ο ε γ : Type*}

/-- What the loops and the wire are. -/
structure Kind (φ μ ο ε : Type*) where
  turn : ο → List ε × Bool
  encode : φ → μ
  read : μ → ο
  wrote : φ → ο
  stop : ο
  /-- what a loop that stops puts on the wire -/
  bye : Option μ
  isControl : μ → Bool
  /-- the outcomes that move nothing; the packet is the one a failed write was about -/
  idles : Option φ → ο → Bool
  stop_ends : (turn stop).2 = false

inductive Frame (φ μ : Type*) where
  | packet (p : φ)
  | control (m : μ)
  | bye (m : μ)

def Frame.packet? : Frame φ μ → Option φ
  | .packet p => some p
  | _ => none

def Frame.isBye : Frame φ μ → Bool
  | .bye _ => true
  | _ => false

inductive Act (φ μ ο : Type*) where
  | read (f : Frame φ μ)
  | wrote (p : φ)
  | idle (o : ο)
  | stop

namespace Act

def read? : Act φ μ ο → Option (Frame φ μ)
  | .read f => some f
  | _ => none

/-- The packet it has read. -/
def packet? (a : Act φ μ ο) : Option φ := a.read?.bind Frame.packet?

def wrote? : Act φ μ ο → Option φ
  | .wrote p => some p
  | _ => none

end Act

namespace Kind

variable (K : Kind φ μ ο ε)

def content : Frame φ μ → μ
  | .packet p => K.encode p
  | .control m => m
  | .bye m => m

def outcome : Act φ μ ο → ο
  | .read f => K.read (K.content f)
  | .wrote p => K.wrote p
  | .idle o => o
  | .stop => K.stop

def events (a : Act φ μ ο) : List ε := (K.turn (K.outcome a)).1

def goesOn (a : Act φ μ ο) : Bool := (K.turn (K.outcome a)).2

end Kind

/-- The same loop for packets of which the wire sees only a part. -/
def Kind.comap {ψ : Type*} (K : Kind φ μ ο ε) (f : ψ → φ) : Kind ψ μ ο ε where
  turn := K.turn
  encode p := K.encode (f p)
  read := K.read
  wrote p := K.wrote (f p)
  stop := K.stop
  bye := K.bye
  isControl := K.isControl
  idles head o := K.idles (head.map f) o
  stop_ends := K.stop_ends

/-- What a loop can meet that brings no packet. -/
def Kind.Meets (K : Kind φ μ ο ε) : Act φ μ ο → Prop
  | .read (.packet _) => False
  | .read (.control m) => K.isControl m = true
  | .read (.bye m) => K.bye = some m
  | .idle o => ∃ head, K.idles head o = true
  | .wrote _ => True
  | .stop => True

/-- One end: all packets its queue took, those not written yet, the frames it has not read, what its loop did. -/
structure End (φ μ ο : Type*) where
  accepted : List φ
  queue : List φ
  inbox : List (Frame φ μ)
  acts : List (Act φ μ ο)
  running : Bool

namespace End

def new : End φ μ ο := ⟨[], [], [], [], true⟩

def got (e : End φ μ ο) : List (Frame φ μ) := e.acts.filterMap Act.read?

def written (e : End φ μ ο) : List φ := e.acts.filterMap Act.wrote?

/-- The packets it has read. -/
def arrived (e : End φ μ ο) : List φ := e.got.filterMap Frame.packet?

/-- The packets on their way to it. -/
def coming (e : End φ μ ο) : List φ := e.inbox.filterMap Frame.packet?

def accept (e : End φ μ ο) (p : φ) : End φ μ ο :=
  { e with accepted := e.accepted ++ [p], queue := e.queue ++ [p] }

def put (e : End φ μ ο) (fs : List (Frame φ μ)) : End φ μ ο := { e with inbox := e.inbox ++ fs }

def act (K : Kind φ μ ο ε) (e : End φ μ ο) (a : Act φ μ ο) : End φ μ ο :=
  { e with acts := e.acts ++ [a], running := K.goesOn a }

def published (K : Kind φ μ ο ε) (e : End φ μ ο) : List ε := TurnLoop.emitted K.turn (e.acts.map K.outcome)

variable {K : Kind φ μ ο ε} {e : End φ μ ο} {p : φ} {fs : List (Frame φ μ)} {a : Act φ μ ο}

@[simp] theorem got_accept : (e.accept p).got = e.got := rfl
@[simp] theorem written_accept : (e.accept p).written = e.written := rfl
@[simp] theorem got_put : (e.put fs).got = e.got := rfl
@[simp] theorem written_put : (e.put fs).written = e.written := rfl

@[simp] theorem got_act : (e.act K a).got = e.got ++ a.read?.toList := by
  cases a <;> simp [got, act, Act.read?]

@[simp] theorem written_act : (e.act K a).written = e.written ++ a.wrote?.toList := by
  cases a <;> simp [written, act, Act.wrote?]

end End

theorem End.arrived_eq (e : End φ μ ο) : e.arrived = e.acts.filterMap Act.packet? := List.filterMap_filterMap

theorem End.mem_got {e : End φ μ ο} {f : Frame φ μ} : f ∈ e.got ↔ Act.read f ∈ e.acts := by
  constructor
  · intro hf
    obtain ⟨x, hx, hread⟩ := List.mem_filterMap.1 hf
    cases x with
    | read f' => cases hread; exact hx
    | wrote | idle | stop => cases hread
  · exact fun hf => List.mem_filterMap.2 ⟨_, hf, rfl⟩

abbrev State (φ μ ο : Type*) := Side → End φ μ ο

inductive Label (φ μ ο : Type*) where
  /-- a packet is handed to the queue of an end, which refuses it once the loop is gone -/
  | accept (d : Side) (p : φ)
  | read (d : Side)
  | write (d : Side)
  | idle (d : Side) (o : ο)
  | stop (d : Side)
  /-- the connection's machinery of this end writes a frame of its own -/
  | control (d : Side) (m : μ)

def start : State φ μ ο := fun _ => .new

/-- End `d` becomes `e` and the frames `fs` go to its peer. -/
def State.move (s : State φ μ ο) (d : Side) (e : End φ μ ο) (fs : List (Frame φ μ)) : State φ μ ο :=
  Function.update (Function.update s d e) d.peer ((s d.peer).put fs)

def step (K : Kind φ μ ο ε) (s : State φ μ ο) : Label φ μ ο → Option (State φ μ ο)
  | .accept d p => some (if (s d).running then s.move d ((s d).accept p) [] else s)
  | .read d =>
    match (s d).inbox with
    | f :: rest => if (s d).running then some (s.move d ({ s d with inbox := rest }.act K (.read f)) []) else none
    | [] => none
  | .write d =>
    match (s d).queue with
    | p :: rest =>
      if (s d).running then some (s.move d ({ s d with queue := rest }.act K (.wrote p)) [.packet p]) else none
    | [] => none
  | .idle d o =>
    if (s d).running ∧ K.idles (s d).queue.head? o then some (s.move d ((s d).act K (.idle o)) []) else none
  | .stop d =>
    if (s d).running then some (s.move d ((s d).act K .stop) (K.bye.toList.map .bye)) else none
  | .control d m => if (s d).running ∧ K.isControl m then some (s.move d (s d) [.control m]) else none

/-! ### What one step does -/

/-- What one end can do, with the frames it puts on the wire. -/
inductive Moves (K : Kind φ μ ο ε) (e : End φ μ ο) : End φ μ ο → List (Frame φ μ) → Prop
  | accept (p : φ) : Moves K e (e.accept p) []
  | read (f : Frame φ μ) (rest : List (Frame φ μ)) (h : e.inbox = f :: rest) :
    Moves K e ({ e with inbox := rest }.act K (.read f)) []
  | write (p : φ) (rest : List φ) (h : e.queue = p :: rest) :
    Moves K e ({ e with queue := rest }.act K (.wrote p)) [.packet p]
  | idle (o : ο) (h : K.idles e.queue.head? o = true) : Moves K e (e.act K (.idle o)) []
  | stop : Moves K e (e.act K .stop) (K.bye.toList.map .bye)
  | control (m : μ) (h : K.isControl m = true) : Moves K e e [.control m]

variable {K : Kind φ μ ο ε} {s s' : State φ μ ο} {l : Label φ μ ο} {a a' b b' e e' : End φ μ ο}
  {fs : List (Frame φ μ)}

/-- A step is a move of one end, which still runs, or a packet that is refused. -/
theorem step_cases (h : step K s l = some s') :
    s' = s ∨ ∃ d e fs, (s d).running = true ∧ Moves K (s d) e fs ∧ s' = s.move d e fs ∧
      (e.accepted = (s d).accepted ∨ ∃ p, l = .accept d p ∧ e.accepted = (s d).accepted ++ [p]) := by
  cases l with
  | accept d p =>
    simp only [step, Option.some.injEq] at h
    split at h
    · next hrun => exact .inr ⟨d, _, _, hrun, .accept p, h.symm, .inr ⟨p, rfl, rfl⟩⟩
    · exact .inl h.symm
  | read d =>
    simp only [step] at h
    split at h
    · next f rest hin =>
      obtain ⟨hrun, h⟩ := Option.ite_none_right_eq_some.1 h
      exact .inr ⟨d, _, _, hrun, .read f rest hin, (Option.some.inj h).symm, .inl rfl⟩
    · cases h
  | write d =>
    simp only [step] at h
    split at h
    · next p rest hq =>
      obtain ⟨hrun, h⟩ := Option.ite_none_right_eq_some.1 h
      exact .inr ⟨d, _, _, hrun, .write p rest hq, (Option.some.inj h).symm, .inl rfl⟩
    · cases h
  | idle d o =>
    obtain ⟨⟨hrun, hidle⟩, h⟩ := Option.ite_none_right_eq_some.1 h
    exact .inr ⟨d, _, _, hrun, .idle o hidle, (Option.some.inj h).symm, .inl rfl⟩
  | stop d =>
    obtain ⟨hrun, h⟩ := Option.ite_none_right_eq_some.1 h
    exact .inr ⟨d, _, _, hrun, .stop, (Option.some.inj h).symm, .inl rfl⟩
  | control d m =>
    obtain ⟨⟨hrun, hm⟩, h⟩ := Option.ite_none_right_eq_some.1 h
    exact .inr ⟨d, _, _, hrun, .control m hm, (Option.some.inj h).symm, .inl rfl⟩

@[simp] theorem State.move_self (s : State φ μ ο) (d : Side) : s.move d e fs d = e := by
  rw [State.move, Function.update_of_ne d.ne_peer, Function.update_self]

@[simp] theorem State.move_peer (s : State φ μ ο) (d : Side) : s.move d e fs d.peer = (s d.peer).put fs := by
  rw [State.move, Function.update_self]

theorem accepted_move (d d' : Side) :
    (s.move d e fs d').accepted = if d' = d then e.accepted else (s d').accepted := by
  split
  · next h => rw [h, State.move_self]
  · next h =>
    have : d' = d.peer := by cases d <;> cases d' <;> first | rfl | exact absurd rfl h
    rw [this, State.move_peer]
    rfl

theorem accepted_step (h : step K s l = some s') (d : Side) : (s' d).accepted = (s d).accepted ∨
    ∃ p, l = .accept d p ∧ (s' d).accepted = (s d).accepted ++ [p] := by
  rcases step_cases h with rfl | ⟨d', e, fs, -, -, rfl, hacc⟩
  · exact .inl rfl
  · rw [accepted_move]
    split
    · next hd => exact hd ▸ hacc
    · exact .inl rfl

/-- A loop that has ended stays so. -/
theorem running_of_step (h : step K s l = some s') {d : Side} (hrun : (s' d).running = true) : (s d).running = true := by
  rcases step_cases h with rfl | ⟨d', e, fs, hd', -, rfl, -⟩
  · exact hrun
  · by_cases hd : d = d'
    · rw [hd]
      exact hd'
    · obtain rfl : d = d'.peer := by cases d <;> cases d' <;> first | rfl | exact absurd rfl hd
      rwa [State.move_peer] at hrun

/-! ### A loop and what it published -/

/-- All its turns but the last went on; the last one did exactly while it runs. -/
structure End.Ran (K : Kind φ μ ο ε) (e : End φ μ ο) : Prop where
  wentOn : ∀ x ∈ e.acts.dropLast, K.goesOn x = true
  runs : e.running = true → ∀ x ∈ e.acts, K.goesOn x = true
  ended : e.running = false → ∃ before x, e.acts = before ++ [x] ∧ K.goesOn x = false
  idled : ∀ o, Act.idle o ∈ e.acts → ∃ head, K.idles head o = true

theorem End.Ran.act (h : e.Ran K) (hrun : e.running = true) (hacts : b.acts = e.acts) {x : Act φ μ ο}
    (hidle : ∀ o, x = .idle o → ∃ head, K.idles head o = true) : (b.act K x).Ran K := by
  have hall := h.runs hrun
  have heq : (b.act K x).acts = e.acts ++ [x] := by rw [← hacts]; rfl
  refine ⟨?_, fun hgo => ?_, fun hgo => ⟨e.acts, x, heq, hgo⟩, fun o ho => ?_⟩
  · rw [heq, List.dropLast_concat]
    exact hall
  · rw [heq]
    exact List.forall_mem_append.2 ⟨hall, List.forall_mem_singleton.2 hgo⟩
  · rw [heq, List.mem_append, List.mem_singleton] at ho
    exact ho.elim (h.idled o) fun ho => hidle o ho.symm

theorem End.Ran.congr (h : e.Ran K) (hacts : e'.acts = e.acts) (hrun : e'.running = e.running) : e'.Ran K := by
  refine ⟨?_, ?_, ?_, ?_⟩ <;> simp only [hacts, hrun]
  exacts [h.wentOn, h.runs, h.ended, h.idled]

theorem End.Ran.move (h : e.Ran K) (hrun : e.running = true) (hm : Moves K e e' fs) : e'.Ran K := by
  cases hm with
  | accept p => exact h.congr rfl rfl
  | read f rest hin => exact h.act (b := { e with inbox := rest }) hrun rfl fun _ ho => nomatch ho
  | write p rest hq => exact h.act (b := { e with queue := rest }) hrun rfl fun _ ho => nomatch ho
  | idle o hidle => exact h.act hrun rfl fun _ ho => by cases ho; exact ⟨_, hidle⟩
  | stop => exact h.act hrun rfl fun _ ho => nomatch ho
  | control m hm => exact h

/-- A turn that ended the loop is its last one. -/
theorem End.Ran.last_of_ends (h : e.Ran K) {x : Act φ μ ο} (hx : x ∈ e.acts) (hend : K.goesOn x = false) :
    ∃ before, e.acts = before ++ [x] ∧ ∀ y ∈ before, K.goesOn y = true := by
  rcases List.eq_nil_or_concat e.acts with hnil | ⟨before, z, hz⟩
  · rw [hnil] at hx
    cases hx
  · rw [List.concat_eq_append] at hz
    have hbefore := h.wentOn
    rw [hz, List.dropLast_concat] at hbefore
    rw [hz, List.mem_append, List.mem_singleton] at hx
    rcases hx with hx | rfl
    · rw [hbefore x hx] at hend
      cases hend
    · exact ⟨before, hz, hbefore⟩

theorem End.Ran.ending_eq (h : e.Ran K) (hrun : e.running = false) : ∃ x ∈ e.acts, K.goesOn x = false ∧
    TurnLoop.ending K.turn (e.acts.map K.outcome) = some (K.outcome x) := by
  obtain ⟨before, x, heq, hx⟩ := h.ended hrun
  have hmem : x ∈ e.acts := heq ▸ List.mem_append_right _ List.mem_cons_self
  obtain ⟨before', heq', hbefore⟩ := h.last_of_ends hmem hx
  refine ⟨x, hmem, hx, TurnLoop.ending_eq_some.2 ⟨⟨before'.map K.outcome, [], ?_, ?_⟩, hx⟩⟩
  · rw [heq', List.map_append]
    rfl
  · simpa [Kind.goesOn] using hbefore

theorem End.Ran.published_eq (h : e.Ran K) : e.published K = e.acts.flatMap K.events := by
  rcases List.eq_nil_or_concat e.acts with hnil | ⟨before, x, hx⟩
  · rw [End.published, hnil]
    rfl
  · rw [List.concat_eq_append] at hx
    have hbefore := h.wentOn
    rw [hx, List.dropLast_concat] at hbefore
    rw [End.published, hx, List.map_append, TurnLoop.emitted_append (by simpa [Kind.goesOn] using hbefore), List.flatMap_append,
      List.flatMap_map]
    congr 1
    simp only [List.map_cons, List.map_nil, TurnLoop.emitted, ite_self, List.append_nil, List.flatMap_cons, List.flatMap_nil]
    rfl

/-! ### From one end to the other -/

/-- What end `a` and the end `b` that reads from it have done. -/
structure Flow (K : Kind φ μ ο ε) (a b : End φ μ ο) : Prop where
  accepted : a.accepted = a.written ++ a.queue
  carried : b.arrived ++ b.coming = a.written
  controls : ∀ m, Frame.control m ∈ b.got ++ b.inbox → K.isControl m = true
  /-- a goodbye is the last frame, and `a` has stopped -/
  bye : (∀ f ∈ b.got ++ b.inbox, f.isBye = false) ∨ a.running = false ∧ Act.stop ∈ a.acts ∧
    ∃ before m, K.bye = some m ∧ b.got ++ b.inbox = before ++ [.bye m] ∧ ∀ f ∈ before, f.isBye = false

theorem Flow.start : Flow K (.new : End φ μ ο) .new :=
  ⟨rfl, rfl, fun _ h => absurd h List.not_mem_nil, .inl fun _ h => absurd h List.not_mem_nil⟩

/-- Moves of `b` that keep what is read and still to be read, and anything put into the inbox of `a`. -/
theorem Flow.frame (h : Flow K a b) (haccepted : a'.accepted = a.accepted) (hqueue : a'.queue = a.queue)
    (hacts : a'.acts = a.acts) (hrun : a'.running = a.running) (hin : b'.got ++ b'.inbox = b.got ++ b.inbox) :
    Flow K a' b' := by
  have hwritten : a'.written = a.written := by rw [End.written, End.written, hacts]
  refine ⟨by rw [haccepted, hwritten, hqueue]; exact h.accepted, ?_, by rw [hin]; exact h.controls, ?_⟩
  · have := h.carried
    rw [End.arrived, End.coming, ← List.filterMap_append] at this ⊢
    rw [hin, hwritten, this]
  · rw [hin, hrun, hacts]
    exact h.bye

/-- The frames a running end puts on the wire. -/
theorem Flow.put (h : Flow K a b) (hrun : a.running = true) (haccepted : a'.accepted = a'.written ++ a'.queue)
    (hwritten : a'.written = a.written ++ fs.filterMap Frame.packet?)
    (hcontrols : ∀ m, Frame.control m ∈ fs → K.isControl m = true)
    (hbye : (∀ f ∈ fs, f.isBye = false) ∨ a'.running = false ∧ Act.stop ∈ a'.acts ∧ ∃ m, K.bye = some m ∧ fs = [.bye m]) :
    Flow K a' (b.put fs) := by
  have hnone : ∀ f ∈ b.got ++ b.inbox, f.isBye = false := by
    rcases h.bye with h | ⟨h, -⟩
    · exact h
    · rw [hrun] at h
      cases h
  have hflow : (b.put fs).got ++ (b.put fs).inbox = b.got ++ b.inbox ++ fs := (List.append_assoc ..).symm
  refine ⟨haccepted, ?_, fun m hm => ?_, ?_⟩
  · have := h.carried
    rw [End.arrived, End.coming, ← List.filterMap_append] at this ⊢
    rw [hflow, List.filterMap_append, this, hwritten]
  · rw [hflow, List.mem_append] at hm
    exact hm.elim (h.controls m) (hcontrols m)
  · rw [hflow]
    rcases hbye with hbye | ⟨hstop, hmem, m, hm, rfl⟩
    · exact .inl (List.forall_mem_append.2 ⟨hnone, hbye⟩)
    · exact .inr ⟨hstop, hmem, _, m, hm, rfl, hnone⟩

theorem Flow.send (h : Flow K a b) (hrun : a.running = true) (hm : Moves K a a' fs) : Flow K a' (b.put fs) := by
  have hsame : a.accepted = a.written ++ [] ++ a.queue := by rw [List.append_nil]; exact h.accepted
  cases hm with
  | accept p =>
    refine h.put hrun ?_ (List.append_nil _).symm (by simp) (by simp)
    show a.accepted ++ [p] = a.written ++ (a.queue ++ [p])
    rw [h.accepted, List.append_assoc]
  | read f rest hin => exact h.put hrun (by rw [End.written_act]; exact hsame) (by rw [End.written_act]; rfl) (by simp) (by simp)
  | write p rest hq =>
    refine h.put hrun ?_ (by rw [End.written_act]; rfl) (by simp) (by simp [Frame.isBye])
    rw [End.written_act]
    show a.accepted = a.written ++ [p] ++ rest
    rw [h.accepted, hq, List.append_assoc, List.singleton_append]
  | idle o hidle => exact h.put hrun (by rw [End.written_act]; exact hsame) (by rw [End.written_act]; rfl) (by simp) (by simp)
  | stop =>
    refine h.put hrun (by rw [End.written_act]; exact hsame) ?_ (by simp) ?_
    · rw [End.written_act]
      cases K.bye <;> rfl
    · cases hbye : K.bye with
      | none => exact .inl fun f hf => absurd hf List.not_mem_nil
      | some m => exact .inr ⟨K.stop_ends, List.mem_append_right _ List.mem_cons_self, m, rfl, rfl⟩
  | control m hm =>
    exact h.put hrun h.accepted (List.append_nil _).symm (by simpa using hm) (by simp [Frame.isBye])

theorem Flow.receive (h : Flow K a b) (hm : Moves K b b' fs) : Flow K (a.put fs) b' := by
  refine h.frame rfl rfl rfl rfl ?_
  cases hm with
  | accept p => rfl
  | read f rest hin =>
    rw [End.got_act, hin]
    exact List.append_assoc ..
  | write p rest hq =>
    rw [End.got_act]
    exact congrArg (· ++ _) (List.append_nil b.got)
  | idle o hidle =>
    rw [End.got_act]
    exact congrArg (· ++ _) (List.append_nil b.got)
  | stop =>
    rw [End.got_act]
    exact congrArg (· ++ _) (List.append_nil b.got)
  | control m hm => rfl

/-! ### Runs -/

structure Inv (K : Kind φ μ ο ε) (s : State φ μ ο) : Prop where
  ran : ∀ d, (s d).Ran K
  flow : ∀ d, Flow K (s d) (s d.peer)

theorem Inv.start (K : Kind φ μ ο ε) : Inv K start :=
  ⟨fun _ => ⟨fun _ h => absurd h List.not_mem_nil, fun _ _ h => absurd h List.not_mem_nil, fun h => Bool.noConfusion h,
    fun _ h => absurd h List.not_mem_nil⟩, fun _ => .start⟩

theorem Inv.step (hs : step K s l = some s') (h : Inv K s) : Inv K s' := by
  rcases step_cases hs with rfl | ⟨d, e, fs, hrun, hm, rfl, -⟩
  · exact h
  · refine ⟨(Side.forall_iff d).2 ⟨?_, ?_⟩, (Side.forall_iff d).2 ⟨?_, ?_⟩⟩
    · rw [State.move_self]
      exact (h.ran d).move hrun hm
    · rw [State.move_peer]
      exact (h.ran d.peer).congr rfl rfl
    · rw [State.move_self, State.move_peer]
      exact (h.flow d).send hrun hm
    · rw [State.move_peer, Side.peer_peer, State.move_self]
      have hflow := h.flow d.peer
      rw [Side.peer_peer] at hflow
      exact hflow.receive hm

/-- What may be accepted is all that is accepted. -/
theorem accepted_of_run {Ok : φ → Prop} {ls : List (Label φ μ ο)} (hr : StepSystem.run (step K) start ls = some s)
    (hls : ∀ d p, Label.accept d p ∈ ls → Ok p) (d : Side) : ∀ p ∈ (s d).accepted, Ok p := by
  induction ls using List.reverseRecOn generalizing s with
  | nil =>
    cases hr
    exact fun p hp => absurd hp List.not_mem_nil
  | append_singleton ls l ih =>
    obtain ⟨t, ht, hl⟩ := StepSystem.run_concat_eq_some.1 hr
    have hold := ih ht fun d p hp => hls d p (List.mem_append_left _ hp)
    rcases accepted_step hl d with heq | ⟨p, rfl, heq⟩
    · rw [heq]
      exact hold
    · rw [heq]
      exact List.forall_mem_append.2 ⟨hold, List.forall_mem_singleton.2 (hls d p (by simp))⟩

theorem Inv.of_run {ls : List (Label φ μ ο)} (hr : StepSystem.run (Link.step K) Link.start ls = some s) : Inv K s :=
  StepSystem.run_invariant (fun _ _ _ hs h => h.step hs) hr (.start K)

/-! ### What the other end has read -/

theorem Flow.arrived_isPrefix (h : Flow K a b) : b.arrived <+: a.written := ⟨_, h.carried⟩

theorem Flow.written_isPrefix (h : Flow K a b) : a.written <+: a.accepted := ⟨_, h.accepted.symm⟩

theorem Inv.flow_to (h : Inv K s) (d : Side) : Flow K (s d.peer) (s d) := by
  have hflow := h.flow d.peer
  rwa [Side.peer_peer] at hflow

theorem Flow.accepted_eq (h : Flow K a b) : a.accepted = b.arrived ++ b.coming ++ a.queue := by
  rw [h.carried]
  exact h.accepted

/-- Who has read the goodbye has read everything that was written, and the other end stopped by itself. -/
theorem Flow.arrived_of_bye (h : Flow K a b) {m : μ} (hbye : Frame.bye m ∈ b.got) :
    b.arrived = a.written ∧ Act.stop ∈ a.acts ∧ K.bye = some m := by
  rcases h.bye with hnone | ⟨-, hstop, before, m', hm', heq, hbefore⟩
  · have := hnone _ (List.mem_append_left _ hbye)
    cases this
  · have hmem : Frame.bye m ∈ before ++ [.bye m'] := heq ▸ List.mem_append_left _ hbye
    have hm : K.bye = some m := by
      rcases List.mem_append.1 hmem with hmem | hmem
      · exact Bool.noConfusion (hbefore _ hmem : true = false)
      · cases List.mem_singleton.1 hmem
        exact hm'
    refine ⟨?_, hstop, hm⟩
    rcases List.eq_nil_or_concat b.inbox with hnil | ⟨init, f, hf⟩
    · have := h.carried
      rw [End.coming, hnil] at this
      rw [← this]
      exact (List.append_nil _).symm
    · -- otherwise the goodbye would be among the frames before the last one
      rw [hf, List.concat_eq_append, ← List.append_assoc] at heq
      obtain ⟨rfl, -⟩ := List.append_inj' heq rfl
      have := hbefore _ (List.mem_append_left _ hbye)
      cases this

/-- A loop meets packets, and what its kind lets it meet. -/
theorem Inv.meets (h : Inv K s) {d : Side} {x : Act φ μ ο} (hx : x ∈ (s d).acts) :
    (∃ p, x = .read (.packet p)) ∨ K.Meets x := by
  have hflow := h.flow_to d
  cases x with
  | read f =>
    have hgot : f ∈ (s d).got := End.mem_got.2 hx
    cases f with
    | packet p => exact .inl ⟨p, rfl⟩
    | control m => exact .inr (hflow.controls m (List.mem_append_left _ hgot))
    | bye m => exact .inr (hflow.arrived_of_bye hgot).2.2
  | wrote p => exact .inr trivial
  | idle o => exact .inr ((h.ran d).idled o hx)
  | stop => exact .inr trivial

/-- Nothing is left on the way from `d`, and nothing more was accepted there. -/
structure Drained (s t : State φ μ ο) (d : Side) : Prop where
  queue : (t d).queue = []
  inbox : (t d.peer).inbox = []
  accepted : (t d).accepted = (s d).accepted

/-- While both loops run, everything accepted can still be delivered: writing and reading brings it over.
The induction is on what is queued, counted twice, and on the wire. -/
theorem Inv.drains (h : Inv K s) {d : Side} (hd : (s d).running = true) (hp : (s d.peer).running = true)
    (hwrote : ∀ p, K.goesOn (.wrote p) = true)
    (hpacket : ∀ p ∈ (s d).accepted, K.goesOn (.read (.packet p)) = true)
    (hcontrol : ∀ m, K.isControl m = true → K.goesOn (.read (.control m)) = true) :
    ∃ ls t, StepSystem.run (Link.step K) s ls = some t ∧ Drained s t d := by
  generalize hn : 2 * (s d).queue.length + (s d.peer).inbox.length = n
  induction n using Nat.strongRecOn generalizing s with
  | ind n ih =>
    cases hq : (s d).queue with
    | cons p rest =>
      have hstep : Link.step K s (.write d) = some (s.move d ({ s d with queue := rest }.act K (.wrote p)) [.packet p]) := by
        rw [Link.step, hq]
        exact if_pos hd
      refine (ih _ ?_ (h.step hstep) (by rw [State.move_self]; exact hwrote p)
        (by rw [State.move_peer]; exact hp) (by rw [State.move_self]; exact hpacket) rfl).imp' (.write d :: ·) ?_
      · rw [← hn, State.move_self, State.move_peer, hq]
        simp only [End.act, End.put, List.length_append, List.length_cons, List.length_nil]
        omega
      · rintro ls ⟨t, hr, ht⟩
        refine ⟨t, StepSystem.run_cons_eq_some.2 ⟨_, hstep, hr⟩, { ht with accepted := ht.accepted.trans ?_ }⟩
        rw [State.move_self]
        rfl
    | nil =>
      have hflow := h.flow d
      cases hin : (s d.peer).inbox with
      | cons f rest =>
        have hmem : f ∈ (s d.peer).got ++ (s d.peer).inbox := by
          rw [hin]
          exact List.mem_append_right _ List.mem_cons_self
        have hgo : K.goesOn (.read f) = true := by
          cases f with
          | packet p =>
            refine hpacket p ?_
            rw [hflow.accepted_eq, End.coming, hin]
            simp [Frame.packet?]
          | control m => exact hcontrol m (hflow.controls m hmem)
          | bye m =>
            -- `d` has not stopped
            rcases hflow.bye with hnone | ⟨hstop, -⟩
            · exact absurd (hnone _ hmem) (by simp [Frame.isBye])
            · rw [hd] at hstop
              cases hstop
        have hstep : Link.step K s (.read d.peer) =
            some (s.move d.peer ({ s d.peer with inbox := rest }.act K (.read f)) []) := by
          rw [Link.step, hin]
          exact if_pos hp
        have hself : s.move d.peer ({ s d.peer with inbox := rest }.act K (.read f)) [] d = (s d).put [] := by
          have hpeer : s.move d.peer ({ s d.peer with inbox := rest }.act K (.read f)) [] d.peer.peer =
            (s d.peer.peer).put [] := State.move_peer s d.peer
          rwa [Side.peer_peer] at hpeer
        refine (ih _ ?_ (h.step hstep) (by rw [hself]; exact hd)
          (by rw [State.move_self]; exact hgo) (by rw [hself]; exact hpacket) rfl).imp' (.read d.peer :: ·) ?_
        · rw [← hn, hself, State.move_self, hin, hq]
          simp [End.act, End.put, hq]
        · rintro ls ⟨t, hr, ht⟩
          refine ⟨t, StepSystem.run_cons_eq_some.2 ⟨_, hstep, hr⟩, { ht with accepted := ht.accepted.trans ?_ }⟩
          rw [hself]
          rfl
      | nil => exact ⟨[], s, rfl, ⟨hq, hin, rfl⟩⟩

theorem Inv.arrived_of_drained (h : Inv K t) {d : Side} (ht : Drained s t d) : (t d.peer).arrived = (s d).accepted := by
  rw [← ht.accepted, (h.flow d).accepted_eq, End.coming, ht.inbox, ht.queue]
  simp

/-- What a loop publishes of one kind, when it does so in turns of one kind only. -/
theorem End.Ran.filterMap_published (h : e.Ran K) {δ : Type*} {f : ε → Option γ} {select : Act φ μ ο → Option δ}
    {g : δ → List γ} (hevents : ∀ x ∈ e.acts, (K.events x).filterMap f = ((select x).map g).getD []) :
    (e.published K).filterMap f = (e.acts.filterMap select).flatMap g := by
  rw [h.published_eq, List.filterMap_flatMap]
  have hall : ∀ acts : List (Act φ μ ο), (∀ x ∈ acts, (K.events x).filterMap f = ((select x).map g).getD []) →
      (acts.flatMap fun x => (K.events x).filterMap f) = (acts.filterMap select).flatMap g := by
    intro acts hacts
    induction acts with
    | nil => rfl
    | cons x acts ih =>
      rw [List.flatMap_cons, ih fun y hy => hacts y (List.mem_cons_of_mem _ hy), hacts x List.mem_cons_self,
        List.filterMap_cons]
      cases select x <;> rfl
  exact hall e.acts hevents

/-! ### What comes out -/

/-- A loop that brings out the packets that fit, as `f` sees them, and ends at one that does not. -/
structure Kind.Receives (K : Kind φ μ ο ε) (f : ε → Option φ) (ok fits : φ → Prop) : Prop where
  takes : ∀ p, ok p → fits p → (K.events (.read (.packet p))).filterMap f = [p]
  goesOn : ∀ p, fits p → K.goesOn (.read (.packet p)) = true
  refuses : ∀ p, ¬ fits p → (K.events (.read (.packet p))).filterMap f = []
  ends : ∀ p, ¬ fits p → K.goesOn (.read (.packet p)) = false
  quiet : ∀ x, K.Meets x → (K.events x).filterMap f = []
  wrote : ∀ p, K.goesOn (.wrote p) = true
  control : ∀ m, K.isControl m = true → K.goesOn (.read (.control m)) = true

theorem Kind.Meets.packet? {x : Act φ μ ο} (hx : K.Meets x) : x.packet? = none := by
  rcases x with (p | m | m) | p | o | _
  · exact hx.elim
  all_goals rfl

namespace Kind.Receives

variable {f : ε → Option φ} {ok fits : φ → Prop} {d : Side}

theorem filterMap_events (hK : K.Receives f ok fits) {acts : List (Act φ μ ο)}
    (hacts : ∀ x ∈ acts, (∃ p, x = .read (.packet p) ∧ ok p ∧ fits p) ∨ K.Meets x) :
    (acts.flatMap K.events).filterMap f = acts.filterMap Act.packet? := by
  induction acts with
  | nil => rfl
  | cons x acts ih =>
    rw [List.flatMap_cons, List.filterMap_append, ih fun y hy => hacts y (List.mem_cons_of_mem _ hy)]
    obtain ⟨p, rfl, hok, hfits⟩ | hx := hacts x List.mem_cons_self
    · rw [hK.takes p hok hfits]
      rfl
    · rw [hK.quiet x hx, List.filterMap_cons_none hx.packet?]
      rfl

/-- All that was read came out, or the last of it did not fit and ended the loop. -/
theorem filterMap_published (hK : K.Receives f ok fits) (h : Inv K s) (hok : ∀ p ∈ (s d).arrived, ok p) :
    ((s d).published K).filterMap f = (s d).arrived ∨ ∃ before p, (s d).acts = before ++ [.read (.packet p)] ∧ ¬ fits p ∧
      (s d).arrived = ((s d).published K).filterMap f ++ [p] ∧ (s d).running = false := by
  have hran := h.ran d
  have hmeets : ∀ acts, acts ⊆ (s d).acts → (∀ p, Act.read (.packet p) ∈ acts → fits p) →
      (acts.flatMap K.events).filterMap f = acts.filterMap Act.packet? := by
    intro acts hacts hfits
    refine hK.filterMap_events fun x hx => (h.meets (hacts hx)).imp_left ?_
    rintro ⟨p, rfl⟩
    refine ⟨p, rfl, hok p ?_, hfits p hx⟩
    rw [End.arrived_eq]
    exact List.mem_filterMap.2 ⟨_, hacts hx, rfl⟩
  rw [hran.published_eq]
  by_cases hfits : ∀ p, Act.read (.packet p) ∈ (s d).acts → fits p
  · left
    rw [hmeets _ (List.Subset.refl _) hfits, End.arrived_eq]
  · right
    simp only [not_forall] at hfits
    obtain ⟨p, hx, hnot⟩ := hfits
    have hend := hK.ends p hnot
    -- it is the last turn, so all before it fitted
    obtain ⟨before, heq, hbefore⟩ := hran.last_of_ends hx hend
    refine ⟨before, p, heq, hnot, ?_, ?_⟩
    · have hrec := hmeets before (heq ▸ List.subset_append_left ..) fun q hq => by
        by_contra hnot
        have := hbefore _ hq
        rw [hK.ends q hnot] at this
        cases this
      rw [End.arrived_eq, heq, List.filterMap_append, List.flatMap_append, List.filterMap_append, List.flatMap_singleton,
        hK.refuses p hnot, hrec, List.append_nil]
      rfl
    · rw [← Bool.not_eq_true]
      intro hrun
      rw [hran.runs hrun _ hx] at hend
      cases hend

theorem of_fits (hK : K.Receives f ok fits) (h : Inv K s) (hok : ∀ p ∈ (s d).arrived, ok p) (hfits : ∀ p ∈ (s d).arrived, fits p) :
    ((s d).published K).filterMap f = (s d).arrived := by
  refine (hK.filterMap_published h hok).resolve_right ?_
  rintro ⟨before, p, -, hnot, heq, -⟩
  refine hnot (hfits p ?_)
  rw [heq]
  exact List.mem_append_right _ List.mem_cons_self

theorem isPrefix (hK : K.Receives f ok fits) (h : Inv K s) (hok : ∀ p ∈ (s d).arrived, ok p) :
    ((s d).published K).filterMap f <+: (s d).arrived := by
  obtain heq | ⟨before, p, -, -, heq, -⟩ := hK.filterMap_published h hok
  · exact heq ▸ List.prefix_refl _
  · exact ⟨_, heq.symm⟩

/-- While both loops run, everything accepted can still come out, if it fits. -/
theorem delivers (hK : K.Receives f ok fits) (h : Inv K s) (hok : ∀ p ∈ (s d).accepted, ok p) (hfits : ∀ p ∈ (s d).accepted, fits p)
    (hd : (s d).running = true) (hp : (s d.peer).running = true) : ∃ ls t, StepSystem.run (Link.step K) s ls = some t ∧
      ((t d.peer).published K).filterMap f = (s d).accepted := by
  obtain ⟨ls, t, hr, hdrained⟩ := h.drains hd hp hK.wrote (fun p hp => hK.goesOn p (hfits p hp)) hK.control
  have ht : Inv K t := StepSystem.run_invariant (fun _ _ _ hs h => h.step hs) hr h
  have harrived := ht.arrived_of_drained hdrained
  refine ⟨ls, t, hr, (hK.of_fits ht ?_ ?_).trans harrived⟩
  · rwa [harrived]
  · rwa [harrived]

end Kind.Receives

end Link
