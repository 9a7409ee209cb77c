import Msgtrans.Lib.Indexed
import Msgtrans.Packet

/-!
# Pending requests (`RequestTracker`, `Transport::request`)

A request call draws a message id, registers it (`register_with_id` makes a oneshot channel and puts its
sender into the table, dropping a sender that was there), sends its packet and waits for the receiver
with a timeout; an entry stays in the table when the call leaves without its response. `complete` takes
an entry out and sends the response to the call that made it, if that still waits.

`Sound Fits` is what every way of issuing requests keeps up as long as no id is registered that a call
still waits on (`Sound.register`) and every response that completes a call fits it (`Sound.complete`).
-/

namespace Msgtrans

/-- The table maps an id to the call that holds the receiver of the entry's sender. -/
structure RequestTracker where
  pending : UInt32 → Option Nat
  nextId : UInt32

namespace RequestTracker

def new : RequestTracker := ⟨fun _ => none, 1⟩

def set (t : RequestTracker) (id : UInt32) (entry : Option Nat) : RequestTracker :=
  { t with pending := fun id' => if id' = id then entry else t.pending id' }

/-- The entry of `call` goes in; the sender it replaces, if any, is given back to be dropped. -/
def registerWithId (t : RequestTracker) (id : UInt32) (call : Nat) : RequestTracker × Option Nat :=
  (t.set id (some call), t.pending id)

/-- The entry comes out; its sender, if there was one, is given back to be used. -/
def complete (t : RequestTracker) (id : UInt32) : RequestTracker × Option Nat :=
  (t.set id none, t.pending id)

@[simp] theorem set_self (t : RequestTracker) (id : UInt32) (entry : Option Nat) :
    (t.set id entry).pending id = entry := if_pos rfl

theorem set_of_ne (t : RequestTracker) {id id' : UInt32} (entry : Option Nat) (h : id' ≠ id) :
    (t.set id entry).pending id' = t.pending id' := if_neg h

/-- Ids drawn from a counter that has not wrapped are equal exactly when the draws are. -/
theorem ofNat_eq_iff {m n : Nat} (hm : m < 2 ^ 32) (hn : n < 2 ^ 32) : UInt32.ofNat m = UInt32.ofNat n ↔ m = n := by
  rw [UInt32.ofNat_eq_iff_mod_eq_toNat, UInt32.toNat_ofNat_of_lt' hn, Nat.mod_eq_of_lt hm]

end RequestTracker

namespace Requests

open Indexed

variable {τ ρ : Type}

/-- The oneshot channel of a call. -/
inductive Slot (ρ : Type) where
  | empty
  | filled (reply : ρ)
  | dropped

inductive Outcome (ρ : Type) where
  | data (reply : ρ)
  | timeout
  | closed
  | sendFailed

inductive Phase (ρ : Type) where
  | drawn
  /-- the entry is made, the packet is being sent -/
  | registered
  | waiting
  | returned (outcome : Outcome ρ)

structure Call (τ ρ : Type) where
  tag : τ
  id : UInt32
  phase : Phase ρ
  slot : Slot ρ

def Call.inFlight (c : Call τ ρ) : Bool :=
  match c.phase with
  | .registered => true
  | .waiting => true
  | _ => false

/-- The call waits for its response. -/
def Call.Pending (c : Call τ ρ) : Prop := c.inFlight = true ∧ c.slot = .empty

/-- A tracker with all calls that used it, in the order in which they drew their ids. -/
structure Table (τ ρ : Type) where
  tracker : RequestTracker
  calls : List (Call τ ρ)

/-- Sending on, or dropping, the sender of call `d`: nothing happens when the receiver is gone. -/
def resolve (calls : List (Call τ ρ)) (d : Nat) (slot : Slot ρ) : List (Call τ ρ) :=
  match calls[d]? with
  | some e => if e.inFlight then calls.set d { e with slot := slot } else calls
  | none => calls

namespace Table

def setPhase (t : Table τ ρ) (i : Nat) (c : Call τ ρ) (phase : Phase ρ) : Table τ ρ :=
  { t with calls := t.calls.set i { c with phase := phase } }

def draw (t : Table τ ρ) (tag : τ) (id : UInt32) : Table τ ρ :=
  { t with calls := t.calls ++ [⟨tag, id, .drawn, .empty⟩] }

def register (t : Table τ ρ) (i : Nat) : Option (Table τ ρ) :=
  t.calls[i]?.bind fun c =>
    match c.phase with
    | .drawn =>
      let (tracker, replaced) := t.tracker.registerWithId c.id i
      let calls := replaced.elim t.calls fun d => resolve t.calls d .dropped
      some ⟨tracker, calls.set i { c with phase := .registered }⟩
    | _ => none

/-- `self.send(packet).await?`. -/
def sent (t : Table τ ρ) (i : Nat) (ok : Bool) : Option (Table τ ρ) :=
  t.calls[i]?.bind fun c =>
    match c.phase with
    | .registered =>
      some (t.setPhase i c (if ok then .waiting else .returned .sendFailed))
    | _ => none

/-- The receiver gives the response, or the error of a dropped sender. -/
def finish (t : Table τ ρ) (i : Nat) : Option (Table τ ρ) :=
  t.calls[i]?.bind fun c =>
    match c.phase, c.slot with
    | .waiting, .filled reply => some (t.setPhase i c (.returned (.data reply)))
    | .waiting, .dropped => some (t.setPhase i c (.returned .closed))
    | _, _ => none

/-- The timeout fires while the receiver has nothing. -/
def timeout (t : Table τ ρ) (i : Nat) : Option (Table τ ρ) :=
  t.calls[i]?.bind fun c =>
    match c.phase, c.slot with
    | .waiting, .empty => some (t.setPhase i c (.returned .timeout))
    | _, _ => none

/-- A response with message id `id` arrives. -/
def complete (t : Table τ ρ) (id : UInt32) (reply : ρ) : Table τ ρ :=
  let (tracker, sender) := t.tracker.complete id
  ⟨tracker, sender.elim t.calls fun d => resolve t.calls d (.filled reply)⟩

end Table

/-! ### Calls -/

/-- A call after `resolve` is as before, and not the one resolved, or it is that one with its new slot. -/
theorem resolve_cases {l : List (Call τ ρ)} {d j : Nat} {slot : Slot ρ} {c : Call τ ρ}
    (h : (resolve l d slot)[j]? = some c) :
    l[j]? = some c ∧ (j = d → c.inFlight = false) ∨
      j = d ∧ ∃ e, l[d]? = some e ∧ e.inFlight = true ∧ c = { e with slot := slot } := by
  unfold resolve at h
  cases hd : l[d]? with
  | none =>
    simp only [hd] at h
    refine .inl ⟨h, fun hj => ?_⟩
    rw [hj, hd] at h
    cases h
  | some e =>
    simp only [hd] at h
    by_cases hfl : e.inFlight = true
    · rw [if_pos hfl, getElem?_set_of_some hd] at h
      by_cases hj : j = d
      · rw [if_pos hj] at h
        exact .inr ⟨hj, e, rfl, hfl, (Option.some.inj h).symm⟩
      · rw [if_neg hj] at h
        exact .inl ⟨h, fun hj' => absurd hj' hj⟩
    · rw [if_neg hfl] at h
      refine .inl ⟨h, fun hj => ?_⟩
      rw [hj, hd] at h
      cases h
      exact Bool.eq_false_iff.2 hfl

theorem resolve_keeps {l : List (Call τ ρ)} {j : Nat} {c : Call τ ρ} (d : Nat) (slot : Slot ρ) (h : l[j]? = some c) :
    ∃ c', (resolve l d slot)[j]? = some c' ∧ c'.tag = c.tag ∧ c'.id = c.id ∧ c'.phase = c.phase := by
  unfold resolve
  cases hd : l[d]? with
  | none => exact ⟨c, h, rfl, rfl, rfl⟩
  | some e =>
    show ∃ c', (if e.inFlight then l.set d { e with slot := slot } else l)[j]? = some c' ∧ _
    by_cases hfl : e.inFlight = true
    · rw [if_pos hfl, getElem?_set_of_some hd]
      by_cases hj : j = d
      · rw [if_pos hj]
        rw [hj, hd] at h
        cases h
        exact ⟨_, rfl, rfl, rfl, rfl⟩
      · rw [if_neg hj]
        exact ⟨c, h, rfl, rfl, rfl⟩
    · rw [if_neg hfl]
      exact ⟨c, h, rfl, rfl, rfl⟩

theorem resolve_of_ne {l : List (Call τ ρ)} {d j : Nat} {slot : Slot ρ} {c : Call τ ρ} (h : l[j]? = some c)
    (hne : j ≠ d) : (resolve l d slot)[j]? = some c := by
  unfold resolve
  cases hd : l[d]? with
  | none => exact h
  | some e =>
    show (if e.inFlight then l.set d { e with slot := slot } else l)[j]? = some c
    split
    · exact (getElem?_set_of_some hd).trans ((if_neg hne).trans h)
    · exact h

/-- The tags and ids of all calls: only `draw` changes them. -/
def Table.headers (t : Table τ ρ) : List (τ × UInt32) := t.calls.map fun c => (c.tag, c.id)

theorem map_set_of_some {f : Call τ ρ → τ × UInt32} {l : List (Call τ ρ)} {i : Nat} {c c' : Call τ ρ}
    (h : l[i]? = some c) (hf : f c' = f c) : (l.set i c').map f = l.map f := by
  refine List.ext_getElem? fun j => ?_
  rw [List.getElem?_map, List.getElem?_map, getElem?_set_of_some h]
  by_cases hj : j = i
  · rw [if_pos hj, hj, h, Option.map_some, Option.map_some, hf]
  · rw [if_neg hj]

theorem map_resolve (l : List (Call τ ρ)) (d : Nat) (slot : Slot ρ) :
    (resolve l d slot).map (fun c => (c.tag, c.id)) = l.map fun c => (c.tag, c.id) := by
  unfold resolve
  cases hd : l[d]? with
  | none => rfl
  | some e =>
    show (if e.inFlight then l.set d { e with slot := slot } else l).map _ = _
    split
    · exact map_set_of_some hd rfl
    · rfl

namespace Table

variable {t t' : Table τ ρ} {i : Nat}

theorem headers_draw (t : Table τ ρ) (tag : τ) (id : UInt32) : (t.draw tag id).headers = t.headers ++ [(tag, id)] :=
  List.map_append

/-- What registering, answering and leaving do not touch. -/
structure Frame (t t' : Table τ ρ) : Prop where
  headers : t'.headers = t.headers
  nextId : t'.tracker.nextId = t.tracker.nextId

theorem length_headers (t : Table τ ρ) : t.headers.length = t.calls.length := List.length_map ..

theorem Frame.length_eq (h : Frame t t') : t'.calls.length = t.calls.length := by
  rw [← length_headers, h.headers, length_headers]

theorem frame_setPhase {c : Call τ ρ} (h : t.calls[i]? = some c) (phase : Phase ρ) : Frame t (t.setPhase i c phase) :=
  ⟨map_set_of_some h rfl, rfl⟩

theorem frame_register (h : t.register i = some t') : Frame t t' := by
  obtain ⟨c, hc, h⟩ := Option.bind_eq_some_iff.1 h
  split at h
  · cases h
    refine ⟨?_, rfl⟩
    show List.map _ (List.set _ i _) = _
    cases hrep : t.tracker.pending c.id with
    | none =>
      show List.map _ (List.set t.calls i _) = _
      exact map_set_of_some hc rfl
    | some d =>
      show List.map _ (List.set (resolve t.calls d .dropped) i _) = _
      obtain ⟨c', hc', htag, hid, -⟩ := resolve_keeps d .dropped hc
      rw [map_set_of_some hc' (by rw [htag, hid]), map_resolve]
      rfl
  · cases h

theorem frame_sent {ok : Bool} (h : t.sent i ok = some t') : Frame t t' := by
  obtain ⟨c, hc, h⟩ := Option.bind_eq_some_iff.1 h
  split at h
  · cases h
    exact frame_setPhase hc _
  · cases h

theorem frame_finish (h : t.finish i = some t') : Frame t t' := by
  obtain ⟨c, hc, h⟩ := Option.bind_eq_some_iff.1 h
  split at h
  · cases h
    exact frame_setPhase hc _
  · cases h
    exact frame_setPhase hc _
  · cases h

theorem frame_timeout (h : t.timeout i = some t') : Frame t t' := by
  obtain ⟨c, hc, h⟩ := Option.bind_eq_some_iff.1 h
  split at h
  · cases h
    exact frame_setPhase hc _
  · cases h

theorem frame_complete (t : Table τ ρ) (id : UInt32) (reply : ρ) : Frame t (t.complete id reply) := by
  refine ⟨?_, rfl⟩
  show List.map _ ((t.tracker.pending id).elim t.calls fun d => resolve t.calls d (.filled reply)) = _
  cases t.tracker.pending id with
  | none => rfl
  | some d => exact map_resolve ..

theorem headers_of_some {c : Call τ ρ} (h : t.calls[i]? = some c) : t.headers[i]? = some (c.tag, c.id) := by
  rw [headers, List.getElem?_map, h, Option.map_some]

end Table

theorem Call.not_pending_of_drawn {c : Call τ ρ} (h : c.phase = .drawn) : ¬ c.Pending := by
  simp [Pending, inFlight, h]

theorem Table.calls_draw {t : Table τ ρ} {tag : τ} {id : UInt32} {j : Nat} {d : Call τ ρ} :
    (t.draw tag id).calls[j]? = some d ↔
      t.calls[j]? = some d ∨ j = t.calls.length ∧ d = ⟨tag, id, .drawn, .empty⟩ := getElem?_concat_eq_some

/-! ### What a table keeps up -/

/-- Every waiting call owns the entry of its id, and every entry belongs to a call that was sent nothing yet.
This holds whatever ids are registered. -/
structure Linked (t : Table τ ρ) : Prop where
  owned : ∀ id d, t.tracker.pending id = some d →
    ∃ c : Call τ ρ, t.calls[d]? = some c ∧ c.id = id ∧ c.slot = .empty ∧ c.phase ≠ .drawn
  owns : ∀ (i : Nat) (c : Call τ ρ), t.calls[i]? = some c → c.Pending → t.tracker.pending c.id = some i
  started : ∀ (i : Nat) (c : Call τ ρ), t.calls[i]? = some c → c.phase = .drawn → c.slot = .empty

namespace Linked

variable {t t' : Table τ ρ} {i : Nat} {c : Call τ ρ}

theorem start : Linked (⟨.new, []⟩ : Table τ ρ) where
  owned := by simp [RequestTracker.new]
  owns := by simp
  started := by simp

theorem not_owned (h : Linked t) (hc : t.calls[i]? = some c) (hout : c.slot ≠ .empty ∨ c.phase = .drawn) (id : UInt32) :
    t.tracker.pending id ≠ some i := by
  intro hown
  obtain ⟨e, he, -, hslot, hphase⟩ := h.owned id i hown
  cases hc.symm.trans he
  exact hout.elim (fun h => h hslot) hphase

theorem setPhase (h : Linked t) {phase : Phase ρ} (hc : t.calls[i]? = some c) (hfl : c.inFlight = true)
    (hdrawn : phase ≠ .drawn) : Linked (t.setPhase i c phase) := by
  refine ⟨fun id d hd => ?_, fun j d hd hwait => ?_, fun j d hd hphase => ?_⟩
  · obtain ⟨e, he, hid, hslot, hne⟩ := h.owned id d hd
    by_cases hdi : d = i
    · subst hdi
      cases hc.symm.trans he
      exact ⟨_, getElem?_set_self_of_some hc, hid, hslot, hdrawn⟩
    · exact ⟨e, (getElem?_set_of_some hc).trans ((if_neg hdi).trans he), hid, hslot, hne⟩
  · rcases of_getElem?_set hc hd with ⟨rfl, rfl⟩ | ⟨-, hd⟩
    · exact h.owns j c hc ⟨hfl, hwait.2⟩
    · exact h.owns j d hd hwait
  · rcases of_getElem?_set hc hd with ⟨rfl, rfl⟩ | ⟨-, hd⟩
    · exact absurd hphase hdrawn
    · exact h.started j d hd hphase

theorem draw (h : Linked t) (tag : τ) (id : UInt32) : Linked (t.draw tag id) := by
  refine ⟨fun id' d hd => ?_, fun j d hd hwait => ?_, fun j d hd hphase => ?_⟩
  · obtain ⟨e, he, hrest⟩ := h.owned id' d hd
    exact ⟨e, Table.calls_draw.2 (.inl he), hrest⟩
  · rcases Table.calls_draw.1 hd with hd | ⟨-, rfl⟩
    · exact h.owns j d hd hwait
    · exact absurd hwait (Call.not_pending_of_drawn rfl)
  · rcases Table.calls_draw.1 hd with hd | ⟨-, rfl⟩
    · exact h.started j d hd hphase
    · rfl

/-- The calls once the owner of the entry of `id`, if there is one, was sent `slot`. -/
theorem elim_cases (h : Linked t) {id : UInt32} {slot : Slot ρ} {j : Nat} {d : Call τ ρ}
    (hd : ((t.tracker.pending id).elim t.calls fun k => resolve t.calls k slot)[j]? = some d) :
    t.calls[j]? = some d ∧ (d.Pending → d.id ≠ id) ∨
      ∃ e, t.calls[j]? = some e ∧ e.Pending ∧ e.id = id ∧ d = { e with slot := slot } := by
  cases hown : t.tracker.pending id with
  | none =>
    rw [hown] at hd
    refine .inl ⟨hd, fun hwait hid => ?_⟩
    rw [← hid, h.owns j d hd hwait] at hown
    cases hown
  | some k =>
    rw [hown, Option.elim_some] at hd
    rcases resolve_cases hd with ⟨hd, hgone⟩ | ⟨rfl, e, he, hfl, rfl⟩
    · refine .inl ⟨hd, fun hwait hid => ?_⟩
      rw [← hid, h.owns j d hd hwait] at hown
      cases hown
      exact nomatch (hgone rfl).symm.trans hwait.1
    · obtain ⟨e', he', hid, hslot, -⟩ := h.owned id j hown
      cases he.symm.trans he'
      exact .inr ⟨e, he, ⟨hfl, hslot⟩, hid, rfl⟩

/-- A call that does not own the entry of `id` is not touched. -/
theorem elim_of_ne (h : Linked t) {id : UInt32} {slot : Slot ρ} (hc : t.calls[i]? = some c) (hne : c.id ≠ id) :
    ((t.tracker.pending id).elim t.calls fun k => resolve t.calls k slot)[i]? = some c := by
  cases hown : t.tracker.pending id with
  | none => exact hc
  | some k =>
    refine resolve_of_ne hc ?_
    rintro rfl
    obtain ⟨e, he, hid, -⟩ := h.owned id i hown
    cases hc.symm.trans he
    exact hne hid

/-- A call that has drawn its id registers: its entry replaces the one under that id. -/
theorem register_eq (h : Linked t) (hs : t.register i = some t') : ∃ c : Call τ ρ, t.calls[i]? = some c ∧
    c.phase = .drawn ∧ t'.tracker = t.tracker.set c.id (some i) ∧
    (((t.tracker.pending c.id).elim t.calls fun k => resolve t.calls k .dropped)[i]? = some c ∧
      t'.calls = ((t.tracker.pending c.id).elim t.calls fun k => resolve t.calls k .dropped).set i
        { c with phase := .registered }) := by
  obtain ⟨c, hc, hs⟩ := Option.bind_eq_some_iff.1 hs
  split at hs
  · next hdrawn =>
    cases hs
    refine ⟨c, hc, hdrawn, rfl, ?_, rfl⟩
    cases hown : t.tracker.pending c.id with
    | none => exact hc
    | some k =>
      refine resolve_of_ne hc ?_
      rintro rfl
      exact h.not_owned hc (.inr hdrawn) c.id hown
  · cases hs

theorem register (h : Linked t) (hs : t.register i = some t') : Linked t' := by
  obtain ⟨c, hc, hdrawn, htracker, hget, hcalls⟩ := h.register_eq hs
  refine ⟨fun id d hd => ?_, fun j d hd hwait => ?_, fun j d hd hphase => ?_⟩
  · rw [htracker] at hd
    rw [hcalls, getElem?_set_of_some hget]
    by_cases hid : id = c.id
    · subst hid
      rw [RequestTracker.set_self] at hd
      cases hd
      exact ⟨_, if_pos rfl, rfl, h.started i c hc hdrawn, by simp⟩
    · rw [RequestTracker.set_of_ne _ _ hid] at hd
      obtain ⟨e, he, hide, hrest⟩ := h.owned id d hd
      have hdi : d ≠ i := by
        rintro rfl
        exact h.not_owned hc (.inr hdrawn) id hd
      exact ⟨e, (if_neg hdi).trans (h.elim_of_ne he fun heq => hid (hide.symm.trans heq)), hide, hrest⟩
  · rw [hcalls] at hd
    rw [htracker]
    rcases of_getElem?_set hget hd with ⟨rfl, rfl⟩ | ⟨-, hd⟩
    · exact RequestTracker.set_self ..
    · rcases h.elim_cases hd with ⟨hd, hne⟩ | ⟨e, -, -, -, rfl⟩
      · exact (RequestTracker.set_of_ne _ _ (hne hwait)).trans (h.owns j d hd hwait)
      · cases hwait.2
  · rw [hcalls] at hd
    rcases of_getElem?_set hget hd with ⟨rfl, rfl⟩ | ⟨-, hd⟩
    · cases hphase
    · rcases h.elim_cases hd with ⟨hd, -⟩ | ⟨e, he, hwait, -, rfl⟩
      · exact h.started j d hd hphase
      · exact absurd hwait (Call.not_pending_of_drawn hphase)

theorem complete (h : Linked t) (id : UInt32) (reply : ρ) : Linked (t.complete id reply) := by
  refine ⟨fun id' d hd => ?_, fun j d hd hwait => ?_, fun j d hd hphase => ?_⟩
  · have hne : id' ≠ id := by
      rintro rfl
      exact nomatch (RequestTracker.set_self ..).symm.trans hd
    obtain ⟨e, he, hide, hrest⟩ := h.owned id' d ((RequestTracker.set_of_ne _ _ hne).symm.trans hd)
    exact ⟨e, h.elim_of_ne he fun heq => hne (hide.symm.trans heq), hide, hrest⟩
  · rcases h.elim_cases hd with ⟨hd, hne⟩ | ⟨e, -, -, -, rfl⟩
    · exact (RequestTracker.set_of_ne _ _ (hne hwait)).trans (h.owns j d hd hwait)
    · cases hwait.2
  · rcases h.elim_cases hd with ⟨hd, -⟩ | ⟨e, he, hwait, -, rfl⟩
    · exact h.started j d hd hphase
    · exact absurd hwait (Call.not_pending_of_drawn hphase)

theorem sent {ok : Bool} (h : Linked t) (hs : t.sent i ok = some t') : Linked t' := by
  obtain ⟨c, hc, hs⟩ := Option.bind_eq_some_iff.1 hs
  split at hs
  · next hphase =>
    cases hs
    exact h.setPhase hc (by simp [Call.inFlight, hphase]) (by cases ok <;> simp)
  · cases hs

theorem finish (h : Linked t) (hs : t.finish i = some t') : Linked t' := by
  obtain ⟨c, hc, hs⟩ := Option.bind_eq_some_iff.1 hs
  split at hs
  · next reply hphase _ =>
    cases hs
    exact h.setPhase hc (by simp [Call.inFlight, hphase]) (by simp)
  · next hphase _ =>
    cases hs
    exact h.setPhase hc (by simp [Call.inFlight, hphase]) (by simp)
  · cases hs

theorem timeout (h : Linked t) (hs : t.timeout i = some t') : Linked t' := by
  obtain ⟨c, hc, hs⟩ := Option.bind_eq_some_iff.1 hs
  split at hs
  · next hphase _ =>
    cases hs
    exact h.setPhase hc (by simp [Call.inFlight, hphase]) (by simp)
  · cases hs

end Linked

/-- A call whose sender was not dropped, and that was sent nothing but what fits it. -/
structure Call.Ok (Fits : ρ → Prop) (c : Call τ ρ) : Prop where
  kept : c.slot ≠ .dropped
  fits : ∀ r, c.slot = .filled r → Fits r
  started : c.phase = .drawn → c.slot = .empty
  returned : ∀ r, c.phase = .returned (.data r) → c.slot = .filled r
  notFailed : c.phase ≠ .returned .closed

namespace Call.Ok

variable {Fits : ρ → Prop} {c : Call τ ρ}

theorem mono {Fits' : ρ → Prop} (h : c.Ok Fits) (hmono : ∀ r, Fits r → Fits' r) : c.Ok Fits' :=
  ⟨h.kept, fun r hr => hmono r (h.fits r hr), h.started, h.returned, h.notFailed⟩

theorem drawn (tag : τ) (id : UInt32) : (⟨tag, id, .drawn, .empty⟩ : Call τ ρ).Ok Fits := by
  constructor <;> simp

theorem move (h : c.Ok Fits) {phase : Phase ρ} (hdrawn : phase ≠ .drawn)
    (hdata : ∀ r, phase = .returned (.data r) → c.slot = .filled r) (hclosed : phase ≠ .returned .closed) :
    Ok Fits { c with phase := phase } :=
  ⟨h.kept, h.fits, fun hp => absurd hp hdrawn, hdata, hclosed⟩

theorem fill (h : c.Ok Fits) (hfl : c.inFlight = true) {r : ρ} (hr : Fits r) :
    Ok Fits { c with slot := .filled r } := by
  refine ⟨by simp, fun r' hr' => ?_, fun hp => ?_, fun r' hp => ?_, h.notFailed⟩
  · cases hr'
    exact hr
  · simp [inFlight, show c.phase = .drawn from hp] at hfl
  · simp [inFlight, show c.phase = .returned (.data r') from hp] at hfl

end Call.Ok

/-- Every waiting call owns the entry of its id, every entry belongs to a call that was sent nothing yet,
and nothing went wrong with any call. -/
structure Sound (Fits : Nat → ρ → Prop) (t : Table τ ρ) : Prop where
  owned : ∀ id d, t.tracker.pending id = some d →
    ∃ c : Call τ ρ, t.calls[d]? = some c ∧ c.id = id ∧ c.slot = .empty ∧ c.phase ≠ .drawn
  owns : ∀ (i : Nat) (c : Call τ ρ), t.calls[i]? = some c → c.Pending → t.tracker.pending c.id = some i
  ok : ∀ (i : Nat) (c : Call τ ρ), t.calls[i]? = some c → c.Ok (Fits i)

namespace Sound

variable {Fits : Nat → ρ → Prop} {t t' : Table τ ρ} {i : Nat} {c : Call τ ρ}

theorem mono {Fits' : Nat → ρ → Prop} (h : Sound Fits t) (hmono : ∀ i r, Fits i r → Fits' i r) :
    Sound Fits' t :=
  ⟨h.owned, h.owns, fun i c hc => (h.ok i c hc).mono (hmono i)⟩

theorem start : Sound Fits (⟨.new, []⟩ : Table τ ρ) where
  owned := by simp [RequestTracker.new]
  owns := by simp
  ok := by simp

theorem linked (h : Sound Fits t) : Linked t := ⟨h.owned, h.owns, fun i c hc => (h.ok i c hc).started⟩

theorem of_linked (h : Linked t) (hok : ∀ (i : Nat) (c : Call τ ρ), t.calls[i]? = some c → c.Ok (Fits i)) :
    Sound Fits t := ⟨h.owned, h.owns, hok⟩

theorem distinct (h : Sound Fits t) {j : Nat} {d : Call τ ρ} (hc : t.calls[i]? = some c)
    (hd : t.calls[j]? = some d) (hcwait : c.Pending) (hdwait : d.Pending) (hid : c.id = d.id) : i = j := by
  have hown := h.owns i c hc hcwait
  rw [hid, h.owns j d hd hdwait] at hown
  exact (Option.some.inj hown).symm

theorem setPhase (h : Sound Fits t) {phase : Phase ρ} (hc : t.calls[i]? = some c) (hfl : c.inFlight = true)
    (hdrawn : phase ≠ .drawn) (hdata : ∀ r, phase = .returned (.data r) → c.slot = .filled r)
    (hclosed : phase ≠ .returned .closed) : Sound Fits (t.setPhase i c phase) := by
  refine of_linked (h.linked.setPhase hc hfl hdrawn) fun j d hd => ?_
  rcases of_getElem?_set hc hd with ⟨rfl, rfl⟩ | ⟨-, hd⟩
  · exact (h.ok j c hc).move hdrawn hdata hclosed
  · exact h.ok j d hd

theorem draw (h : Sound Fits t) (tag : τ) (id : UInt32) : Sound Fits (t.draw tag id) := by
  refine of_linked (h.linked.draw tag id) fun j d hd => ?_
  rcases Table.calls_draw.1 hd with hd | ⟨-, rfl⟩
  · exact h.ok j d hd
  · exact .drawn tag id

/-- Registering an id no other call waits on: the entry it replaces, if any, is of a call that has left. -/
theorem register (h : Sound Fits t) (hs : t.register i = some t')
    (hfree : ∀ (c : Call τ ρ) (j : Nat) (d : Call τ ρ), t.calls[i]? = some c → t.calls[j]? = some d → d.Pending →
      d.id = c.id → j = i) : Sound Fits t' := by
  obtain ⟨c, hc, hdrawn, -, hget, hcalls⟩ := h.linked.register_eq hs
  refine of_linked (h.linked.register hs) fun j d hd => ?_
  rw [hcalls] at hd
  rcases of_getElem?_set hget hd with ⟨rfl, rfl⟩ | ⟨hj, hd⟩
  · exact (h.ok j c hc).move (by simp) (by simp) (by simp)
  · rcases h.linked.elim_cases hd with ⟨hd, -⟩ | ⟨e, he, hwait, hid, -⟩
    · exact h.ok j d hd
    · exact absurd (hfree c j e hc he hwait hid) hj

/-- A response fits every call that waits under its id. -/
theorem complete (h : Sound Fits t) {id : UInt32} {reply : ρ}
    (hfit : ∀ (d : Nat) (e : Call τ ρ), t.calls[d]? = some e → e.Pending → e.id = id → Fits d reply) :
    Sound Fits (t.complete id reply) := by
  refine of_linked (h.linked.complete id reply) fun j d hd => ?_
  rcases h.linked.elim_cases hd with ⟨hd, -⟩ | ⟨e, he, hwait, hid, rfl⟩
  · exact h.ok j d hd
  · exact (h.ok j e he).fill hwait.1 (hfit j e he hwait hid)

/-- Registering an id a call waits on drops the sender of that call. -/
theorem register_drops (h : Sound Fits t) {j : Nat} {d : Call τ ρ} (hc : t.calls[i]? = some c)
    (hs : t.register i = some t') (hd : t.calls[j]? = some d) (hwait : d.Pending) (hid : d.id = c.id) :
    ∃ d', t'.calls[j]? = some d' ∧ d'.slot = .dropped := by
  rw [Table.register, hc, Option.bind_some] at hs
  split at hs
  · next hdrawn =>
    have hji : j ≠ i := by
      rintro rfl
      cases hc.symm.trans hd
      exact Call.not_pending_of_drawn hdrawn hwait
    have hown : t.tracker.pending c.id = some j := hid ▸ h.owns j d hd hwait
    simp only [RequestTracker.registerWithId, hown, Option.elim_some] at hs
    cases hs
    obtain ⟨c', hc', -⟩ := resolve_keeps j .dropped hc
    refine ⟨{ d with slot := .dropped }, ?_, rfl⟩
    show (List.set (resolve t.calls j .dropped) i _)[j]? = _
    rw [getElem?_set_of_some hc', if_neg hji, resolve, hd]
    simp only [hwait.1, if_true, getElem?_set_of_some hd]
  · cases hs

theorem complete_fills (h : Sound Fits t) (hc : t.calls[i]? = some c) (hwait : c.Pending) (reply : ρ) :
    (t.complete c.id reply).calls[i]? = some { c with slot := .filled reply } := by
  simp only [Table.complete, RequestTracker.complete, h.owns i c hc hwait, Option.elim_some, resolve, hc,
    hwait.1, if_true, getElem?_set_of_some hc]

/-! The three ways a call moves on. -/

theorem sent {ok : Bool} (h : Sound Fits t) (hs : t.sent i ok = some t') : Sound Fits t' := by
  obtain ⟨c, hc, hs⟩ := Option.bind_eq_some_iff.1 hs
  split at hs
  · next hphase =>
    cases hs
    have hfl : c.inFlight = true := by simp [Call.inFlight, hphase]
    cases ok <;> exact h.setPhase hc hfl (by simp) (by simp) (by simp)
  · cases hs

theorem finish (h : Sound Fits t) (hs : t.finish i = some t') : Sound Fits t' := by
  obtain ⟨c, hc, hs⟩ := Option.bind_eq_some_iff.1 hs
  split at hs
  · next reply hphase hslot =>
    cases hs
    exact h.setPhase hc (by simp [Call.inFlight, hphase]) (by simp) (by simp [hslot]) (by simp)
  · next hphase hslot => exact absurd hslot (h.ok i c hc).kept
  · cases hs

theorem timeout (h : Sound Fits t) (hs : t.timeout i = some t') : Sound Fits t' := by
  obtain ⟨c, hc, hs⟩ := Option.bind_eq_some_iff.1 hs
  split at hs
  · next hphase hslot =>
    cases hs
    exact h.setPhase hc (by simp [Call.inFlight, hphase]) (by simp) (by simp) (by simp)
  · cases hs

end Sound

/-- Calls that wait have different ids and hold the entries of their ids, no call fails because another
took its entry, and what a call is given comes from its own request. -/
structure Undisturbed (origin : ρ → Nat) (t : Table τ ρ) : Prop where
  distinct : ∀ (i j : Nat) (c d : Call τ ρ), t.calls[i]? = some c → t.calls[j]? = some d → c.Pending → d.Pending →
    c.id = d.id → i = j
  registered : ∀ (i : Nat) (c : Call τ ρ), t.calls[i]? = some c → c.Pending → t.tracker.pending c.id = some i
  notFailed : ∀ (i : Nat) (c : Call τ ρ), t.calls[i]? = some c → c.slot ≠ .dropped ∧ c.phase ≠ .returned .closed
  own : ∀ (i : Nat) (c : Call τ ρ) (r : ρ), t.calls[i]? = some c →
    c.slot = .filled r ∨ c.phase = .returned (.data r) → origin r = i

namespace Sound

variable {origin : ρ → Nat} {t t' : Table τ ρ} {i j : Nat} {c d : Call τ ρ}

theorem undisturbed (h : Sound (fun i r => origin r = i) t) : Undisturbed origin t where
  distinct _ _ _ _ hc hd hcwait hdwait hid := h.distinct hc hd hcwait hdwait hid
  registered := h.owns
  notFailed i c hc := ⟨(h.ok i c hc).kept, (h.ok i c hc).notFailed⟩
  own i c r hc hr := (h.ok i c hc).fits r (hr.elim id ((h.ok i c hc).returned r))

/-- Where registering disturbs no call, no call was waiting under the id. -/
theorem not_pending_of_register {Fits : Nat → ρ → Prop} (h : Sound Fits t) (hc : t.calls[i]? = some c)
    (hs : t.register i = some t') (hlaw : Undisturbed origin t') (hd : t.calls[j]? = some d)
    (hid : d.id = c.id) : ¬ d.Pending := by
  intro hwait
  obtain ⟨d', hd', hslot⟩ := h.register_drops hc hs hd hwait hid
  exact (hlaw.notFailed j d' hd').1 hslot

/-- Where a response disturbs no call, it comes from the call that was waiting under its id. -/
theorem origin_of_complete {Fits : Nat → ρ → Prop} (h : Sound Fits t) {reply : ρ}
    (hlaw : Undisturbed origin (t.complete d.id reply)) (hd : t.calls[j]? = some d) (hwait : d.Pending) :
    origin reply = j :=
  hlaw.own j _ reply (h.complete_fills hd hwait reply) (.inl rfl)

end Sound

end Requests

end Msgtrans
