import Msgtrans.Lib.Run
import Msgtrans.RequestTracker
import Msgtrans.Transport

/-!
# What stays in the pending table (`Transport::request`, `request_with_options`)

Both calls register their id, send, and leave through one of four exits: an error of `send` (`?`), the
response, a dropped sender, the timeout. Only `complete` takes an entry out of the table, so the exits
after which no response came leave the entry behind. Nothing is assumed of the ids: they are the
callers' own. The table holds no entry of a call that has returned exactly as long as no call leaves
by one of these exits: `noLeak_iff`.
-/

namespace Msgtrans

namespace PendingTable

open Requests StepSystem

/-- The calls carry no tag; a reply is the packet of the response. -/
abbrev Table := Requests.Table Unit Packet

inductive Label where
  | request (packet : Packet)
  | requestWithOptions (options : TransportOptions)
  | sendWithOptions (options : TransportOptions)
  | register (i : Nat)
  | sent (i : Nat) (ok : Bool)
  | finish (i : Nat)
  | timeout (i : Nat)
  | onEvent (event : TransportEvent)

def withNextId (t : Table) (nextId : UInt32) : Table := { t with tracker := { t.tracker with nextId := nextId } }

def step (lib : CompressionLib) (t : Table) : Label → Option Table
  | .request packet =>
    -- "Not a Request packet" is returned before anything is registered
    some (if packet.header.packetType = .request then t.draw () packet.header.messageId else t)
  | .requestWithOptions options =>
    let (messageId, nextId) := Transport.messageIdOf options t.tracker.nextId
    some (withNextId (t.draw () messageId) nextId)
  | .sendWithOptions options => some (withNextId t (Transport.messageIdOf options t.tracker.nextId).2)
  | .register i => t.register i
  | .sent i ok => t.sent i ok
  | .finish i => t.finish i
  | .timeout i => t.timeout i
  | .onEvent event =>
    some ((Transport.onEvent lib event).completed.elim t fun packet => t.complete packet.header.messageId packet)

def start : Table := ⟨.new, []⟩

/-- No entry of the table was made by a call that has returned, and the entries are at most as many as the
calls that still wait. -/
structure NoLeak (t : Table) : Prop where
  returned : ∀ (i : Nat) (c : Call Unit Packet) (outcome : Outcome Packet), t.calls[i]? = some c →
    c.phase = .returned outcome → ∀ id, t.tracker.pending id ≠ some i
  bounded : ∀ ids : List UInt32, ids.Nodup → (∀ id ∈ ids, (t.tracker.pending id).isSome = true) →
    ids.length ≤ t.calls.countP Call.inFlight

/-- No call times out, and none whose response has not come yet fails to send. -/
def Answered (t : Table) : Label → Prop
  | .sent i false => ∀ c : Call Unit Packet, t.calls[i]? = some c → c.slot ≠ .empty
  | .timeout _ => False
  | _ => True

/-! ### Entries and calls -/

structure Inv (t : Table) : Prop where
  linked : Linked t
  returned : ∀ (i : Nat) (c : Call Unit Packet) (outcome : Outcome Packet), t.calls[i]? = some c →
    c.phase = .returned outcome → ∀ id, t.tracker.pending id ≠ some i

variable {lib : CompressionLib} {t t' : Table} {l : Label} {i : Nat} {c : Call Unit Packet}

theorem linked_withNextId (h : Linked t) (nextId : UInt32) : Linked (withNextId t nextId) :=
  ⟨h.owned, h.owns, h.started⟩

theorem linked_step (h : Linked t) (hs : step lib t l = some t') : Linked t' := by
  cases l with
  | request packet =>
    cases hs
    split
    · exact h.draw ..
    · exact h
  | requestWithOptions options =>
    cases hs
    exact linked_withNextId (h.draw ..) _
  | sendWithOptions options =>
    cases hs
    exact linked_withNextId h _
  | register i => exact h.register hs
  | sent i ok => exact h.sent hs
  | finish i => exact h.finish hs
  | timeout i => exact h.timeout hs
  | onEvent event =>
    cases hs
    cases (Transport.onEvent lib event).completed with
    | none => exact h
    | some packet => exact h.complete ..

namespace Inv

theorem start : Inv start := ⟨.start, by simp [PendingTable.start]⟩

/-- An entry is that of a call in flight with its id. -/
theorem alive (h : Inv t) {id : UInt32} (hown : t.tracker.pending id = some i) :
    ∃ c : Call Unit Packet, t.calls[i]? = some c ∧ c.id = id ∧ c.inFlight = true := by
  obtain ⟨c, hc, hid, -, hphase⟩ := h.linked.owned id i hown
  refine ⟨c, hc, hid, ?_⟩
  unfold Call.inFlight
  cases hp : c.phase with
  | drawn => exact absurd hp hphase
  | registered => rfl
  | waiting => rfl
  | returned outcome => exact absurd hown (h.returned i c outcome hc hp id)

theorem bounded (h : Inv t) {ids : List UInt32} (hnd : ids.Nodup)
    (hids : ∀ id ∈ ids, (t.tracker.pending id).isSome = true) : ids.length ≤ t.calls.countP Call.inFlight := by
  -- the entries of different ids belong to different calls
  have howner : ∀ id ∈ ids, t.tracker.pending id = some ((t.tracker.pending id).getD 0) := by
    intro id hid
    obtain ⟨k, hk⟩ := Option.isSome_iff_exists.1 (hids id hid)
    rw [hk, Option.getD_some]
  have hinj : (ids.map fun id => (t.tracker.pending id).getD 0).Nodup := by
    refine hnd.map_on fun id hid id' hid' heq => ?_
    obtain ⟨c, hc, hcid, -⟩ := h.alive (howner id hid)
    obtain ⟨c', hc', hcid', -⟩ := h.alive (howner id' hid')
    rw [heq] at hc
    cases hc.symm.trans hc'
    exact hcid.symm.trans hcid'
  have hfl : ∀ k ∈ ids.map fun id => (t.tracker.pending id).getD 0, ∃ c, t.calls[k]? = some c ∧ c.inFlight = true := by
    intro k hk
    obtain ⟨id, hid, rfl⟩ := List.mem_map.1 hk
    obtain ⟨c, hc, -, hfl⟩ := h.alive (howner id hid)
    exact ⟨c, hc, hfl⟩
  have hle := Indexed.length_le_countP hinj hfl
  rwa [List.length_map] at hle

theorem noLeak (h : Inv t) : NoLeak t := ⟨h.returned, fun _ => h.bounded⟩

theorem draw (h : Inv t) (id : UInt32) : Inv (t.draw () id) := by
  refine ⟨h.linked.draw () id, fun j d outcome hd hphase => ?_⟩
  rcases Table.calls_draw.1 hd with hd | ⟨-, rfl⟩
  · exact h.returned j d outcome hd hphase
  · cases hphase

theorem withNextId (h : Inv t) (nextId : UInt32) : Inv (withNextId t nextId) :=
  ⟨linked_withNextId h.linked nextId, h.returned⟩

/-- A call may go on waiting, and may return once no entry is its own. -/
theorem setPhase (h : Inv t) {phase : Phase Packet} (hl : Linked (t.setPhase i c phase)) (hc : t.calls[i]? = some c)
    (hout : ∀ outcome, phase = .returned outcome → c.slot ≠ .empty) : Inv (t.setPhase i c phase) := by
  refine ⟨hl, fun j d outcome hd hphase => ?_⟩
  rcases Indexed.of_getElem?_set hc hd with ⟨rfl, rfl⟩ | ⟨-, hd⟩
  · exact h.linked.not_owned hc (.inl (hout outcome hphase))
  · exact h.returned j d outcome hd hphase

theorem register (h : Inv t) (hs : t.register i = some t') : Inv t' := by
  obtain ⟨c, hc, hdrawn, htracker, hget, hcalls⟩ := h.linked.register_eq hs
  refine ⟨h.linked.register hs, fun j d outcome hd hphase id hown => ?_⟩
  rw [hcalls] at hd
  rw [htracker] at hown
  rcases Indexed.of_getElem?_set hget hd with ⟨rfl, rfl⟩ | ⟨hj, hd⟩
  · cases hphase
  · by_cases hid : id = c.id
    · subst hid
      rw [RequestTracker.set_self] at hown
      exact hj (Option.some.inj hown).symm
    · rw [RequestTracker.set_of_ne _ _ hid] at hown
      rcases h.linked.elim_cases hd with ⟨hd, -⟩ | ⟨e, he, -, -, rfl⟩
      · exact h.returned j d outcome hd hphase id hown
      · exact h.returned j e outcome he hphase id hown

theorem complete (h : Inv t) (id : UInt32) (reply : Packet) : Inv (t.complete id reply) := by
  refine ⟨h.linked.complete id reply, fun j d outcome hd hphase id' hown => ?_⟩
  have hne : id' ≠ id := by
    rintro rfl
    exact nomatch (RequestTracker.set_self ..).symm.trans hown
  have hown' : t.tracker.pending id' = some j := (RequestTracker.set_of_ne _ _ hne).symm.trans hown
  rcases h.linked.elim_cases hd with ⟨hd, -⟩ | ⟨e, he, -, -, rfl⟩
  · exact h.returned j d outcome hd hphase id' hown'
  · exact h.returned j e outcome he hphase id' hown'

theorem step (h : Inv t) (hs : step lib t l = some t') (hG : Answered t l) : Inv t' := by
  have hl := linked_step h.linked hs
  cases l with
  | request packet =>
    cases hs
    split
    · exact h.draw _
    · exact h
  | requestWithOptions options =>
    cases hs
    exact (h.draw _).withNextId _
  | sendWithOptions options =>
    cases hs
    exact h.withNextId _
  | register i => exact h.register hs
  | sent i ok =>
    obtain ⟨c, hc, hs⟩ := Option.bind_eq_some_iff.1 hs
    split at hs
    · cases hs
      refine h.setPhase hl hc fun outcome hphase => ?_
      cases ok with
      | true => cases hphase
      | false => exact hG c hc
    · cases hs
  | finish i =>
    obtain ⟨c, hc, hs⟩ := Option.bind_eq_some_iff.1 hs
    split at hs
    · next hslot =>
      cases hs
      exact h.setPhase hl hc fun _ _ => by simp [hslot]
    · next hslot =>
      cases hs
      exact h.setPhase hl hc fun _ _ => by simp [hslot]
    · cases hs
  | timeout i => exact hG.elim
  | onEvent event =>
    cases hs
    cases (Transport.onEvent lib event).completed with
    | none => exact h
    | some packet => exact h.complete ..

/-- A call that waits for its response and returns leaves its entry. -/
theorem answered (h : Inv t) (hs : PendingTable.step lib t l = some t') (hlaw : NoLeak t') : Answered t l := by
  have hleft : ∀ (i : Nat) (c : Call Unit Packet) (outcome : Outcome Packet), t.calls[i]? = some c → c.Pending →
      t' = t.setPhase i c (.returned outcome) → False := by
    rintro i c outcome hc hwait rfl
    exact hlaw.returned i _ outcome (Indexed.getElem?_set_self_of_some hc) rfl c.id
      (h.linked.owns i c hc hwait)
  unfold Answered
  split
  · next i =>
    intro c hc hslot
    obtain ⟨c', hc', hs⟩ := Option.bind_eq_some_iff.1 hs
    cases hc.symm.trans hc'
    split at hs
    · next hphase =>
      cases hs
      exact hleft i c _ hc ⟨by simp [Call.inFlight, hphase], hslot⟩ rfl
    · cases hs
  · next i =>
    obtain ⟨c, hc, hs⟩ := Option.bind_eq_some_iff.1 hs
    split at hs
    · next hphase hslot =>
      cases hs
      exact hleft i c _ hc ⟨by simp [Call.inFlight, hphase], hslot⟩ rfl
    · cases hs
  · trivial

end Inv

/-- In every state of a run the table holds no entry of a call that has returned exactly when no call left
before its response came. -/
theorem noLeak_iff {ls : List Label} (hr : run (step lib) start ls = some t) :
    Always (step lib) NoLeak start ls ↔ Meets (step lib) Answered start ls :=
  always_iff_meets_of_step (I := Inv) (fun _ => Inv.noLeak) (fun _ _ _ hs hG h => h.step hs hG)
    (fun _ _ _ hs h hlaw => h.answered hs hlaw) hr .start

theorem noLeak_iff_answered :
    let ls := [Label.request (.request 7 [1]), .register 0, .sent 0 true,
      .onEvent (.messageReceived (.response 7 [2])), .finish 0]
    Always (step ⟨none, none⟩) NoLeak start ls ↔ Meets (step ⟨none, none⟩) Answered start ls :=
  noLeak_iff (t := _) rfl

/-- One request, its id not pending, that times out, and one whose packet cannot be sent. -/
theorem exits_leak :
    (∃ t, run (step ⟨none, none⟩) start [.request (.request 7 [1]), .register 0, .sent 0 true, .timeout 0] = some t ∧
      ¬ NoLeak t) ∧
    ∃ t, run (step ⟨none, none⟩) start [.request (.request 7 [1]), .register 0, .sent 0 false] = some t ∧
      ¬ NoLeak t :=
  ⟨⟨_, rfl, fun h => h.returned 0 _ .timeout rfl rfl 7 rfl⟩, ⟨_, rfl, fun h => h.returned 0 _ .sendFailed rfl rfl 7 rfl⟩⟩

end PendingTable

end Msgtrans
