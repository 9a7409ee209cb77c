import Msgtrans.Lib.Run
import Msgtrans.Delivery
import Msgtrans.RequestTracker

/-!
# The message ids of a server's requests (`TransportServer::request` on clones)

The clones of a `TransportServer` share its sessions, so the requests they make on one session are
registered in the one `RequestTracker` of that session's `Transport`. Their ids are not shared: `clone`
gives the new value a `message_id_counter` of its own, which starts at 20000 again, and so the n-th ids
of all handles are equal. Calls stay apart exactly as long as no two of them with one number overlap:
`undisturbed_iff`.
-/

namespace Msgtrans

namespace HandleIds

open Requests StepSystem

/-- A `TransportServer` value; `drawn` is how many ids it has drawn. -/
structure Handle where
  messageIdCounter : UInt32
  drawn : Nat

def Handle.new : Handle := ⟨20000, 0⟩

def Handle.clone (_ : Handle) : Handle := ⟨20000, 0⟩

def Handle.fetchAdd (h : Handle) : Handle := ⟨h.messageIdCounter + 1, h.drawn + 1⟩

/-- A call was made through `handle`, which had drawn `number` ids before. -/
@[ext] structure Tag where
  handle : Nat
  number : Nat

/-- A response, with the call whose request it answers. -/
structure Reply where
  packet : Packet
  origin : Nat

abbrev Call := Requests.Call Tag Reply

/-- A server, its clones, and the `Transport` of one session. -/
structure State where
  handles : List Handle
  table : Requests.Table Tag Reply

def start : State := ⟨[.new], ⟨.new, []⟩⟩

inductive Label where
  | clone (handle : Nat)
  /-- an id is drawn for a packet that is no request on this session -/
  | send (handle : Nat)
  | request (handle : Nat)
  /-- the session is found and connected, and `Transport::request` registers the id -/
  | register (i : Nat)
  | sent (i : Nat) (ok : Bool)
  | finish (i : Nat)
  | timeout (i : Nat)
  /-- a response to the request of call `i` arrives -/
  | response (i : Nat) (responseData : Bytes)

def step (s : State) : Label → Option State
  | .clone k => s.handles[k]?.map fun h => { s with handles := s.handles ++ [h.clone] }
  | .send k => s.handles[k]?.map fun h => { s with handles := s.handles.set k h.fetchAdd }
  | .request k => s.handles[k]?.map fun h =>
    ⟨s.handles.set k h.fetchAdd, s.table.draw ⟨k, h.drawn⟩ h.messageIdCounter⟩
  | .register i => (s.table.register i).map fun table => { s with table := table }
  | .sent i ok => (s.table.sent i ok).map fun table => { s with table := table }
  | .finish i => (s.table.finish i).map fun table => { s with table := table }
  | .timeout i => (s.table.timeout i).map fun table => { s with table := table }
  | .response i responseData => s.table.calls[i]?.bind fun c =>
    match c.phase with
    | .drawn => none
    | _ => some { s with table := s.table.complete c.id ⟨responsePacket c.id responseData, i⟩ }

/-- No handle has drawn so many ids that they would repeat. -/
def State.Few (s : State) : Prop := ∀ h ∈ s.handles, 20000 + h.drawn ≤ 2 ^ 32

instance (s : State) : Decidable s.Few := inferInstanceAs (Decidable (∀ h ∈ s.handles, 20000 + h.drawn ≤ 2 ^ 32))

/-- No call of another handle with the number of call `i` waits. -/
def State.TwinsIdle (s : State) (i : Nat) : Prop :=
  ∀ (j : Nat) (c d : Call), s.table.calls[i]? = some c → s.table.calls[j]? = some d →
    c.tag.handle ≠ d.tag.handle → c.tag.number = d.tag.number → ¬ d.Pending

/-- When a call registers, and when a response to it arrives, no twin of it waits. -/
def Apart (s : State) : Label → Prop
  | .register i => s.TwinsIdle i
  | .response i _ => s.TwinsIdle i
  | _ => True

/-! ### Handles and ids -/

variable {s s' : State} {l : Label} {i j k : Nat} {c d : Call} {handle : Handle}

theorem few_set (hk : s.handles[k]? = some handle) (h : ∀ x ∈ s.handles.set k handle.fetchAdd, 20000 + x.drawn ≤ 2 ^ 32) :
    s.Few := by
  intro x hx
  obtain ⟨m, hm⟩ := List.mem_iff_getElem?.1 hx
  have hset : (s.handles.set k handle.fetchAdd)[m]? = if m = k then some handle.fetchAdd else s.handles[m]? :=
    Indexed.getElem?_set_of_some hk
  by_cases hmk : m = k
  · subst hmk
    cases hk.symm.trans hm
    have hlast := h handle.fetchAdd (List.mem_iff_getElem?.2 ⟨m, hset.trans (if_pos rfl)⟩)
    simp only [Handle.fetchAdd] at hlast
    omega
  · exact h x (List.mem_iff_getElem?.2 ⟨m, hset.trans ((if_neg hmk).trans hm)⟩)

/-- The draws of a handle only become more. -/
theorem few_of_step (hs : step s l = some s') (h : s'.Few) : s.Few := by
  cases l with
  | clone k =>
    obtain ⟨handle, -, rfl⟩ := Option.map_eq_some_iff.1 hs
    exact fun x hx => h x (List.mem_append_left _ hx)
  | send k =>
    obtain ⟨handle, hk, rfl⟩ := Option.map_eq_some_iff.1 hs
    exact few_set hk h
  | request k =>
    obtain ⟨handle, hk, rfl⟩ := Option.map_eq_some_iff.1 hs
    exact few_set hk h
  | register _ | sent _ _ | finish _ | timeout _ =>
    obtain ⟨t, -, rfl⟩ := Option.map_eq_some_iff.1 hs
    exact h
  | response i responseData =>
    obtain ⟨c, -, hs⟩ := Option.bind_eq_some_iff.1 hs
    split at hs
    · cases hs
    · cases hs
      exact h

/-- A counter stands where the draws of its handle have brought it, a call has the id of its number, and
no two calls of a handle have one number. -/
structure Ids (handles : List Handle) (headers : List (Tag × UInt32)) : Prop where
  counter : ∀ (k : Nat) (h : Handle), handles[k]? = some h → h.messageIdCounter = .ofNat (20000 + h.drawn)
  ids : ∀ (i : Nat) (tag : Tag) (id : UInt32), headers[i]? = some (tag, id) → id = UInt32.ofNat (20000 + tag.number) ∧
    ∃ h, handles[tag.handle]? = some h ∧ tag.number < h.drawn
  tags : ∀ (i j : Nat) (tag : Tag) (id id' : UInt32), headers[i]? = some (tag, id) → headers[j]? = some (tag, id') → i = j

namespace Ids

variable {handles : List Handle} {headers : List (Tag × UInt32)}

theorem start : Ids start.handles start.table.headers := by
  refine ⟨fun k h hk => ?_, fun _ _ _ h => (nomatch h), fun _ _ _ _ _ h => (nomatch h)⟩
  cases k with
  | zero =>
    cases hk
    rfl
  | succ k => cases hk

theorem clone (h : Ids handles headers) : Ids (handles ++ [handle.clone]) headers := by
  refine ⟨fun k x hk => ?_, fun i tag id hi => ?_, h.tags⟩
  · rcases Indexed.getElem?_concat_eq_some.1 hk with hk | ⟨-, rfl⟩
    · exact h.counter k x hk
    · rfl
  · obtain ⟨hid, x, hx, hlt⟩ := h.ids i tag id hi
    exact ⟨hid, x, Indexed.getElem?_concat_of_some hx, hlt⟩

theorem fetchAdd (h : Ids handles headers) (hk : handles[k]? = some handle) :
    Ids (handles.set k handle.fetchAdd) headers := by
  refine ⟨fun m x hm => ?_, fun i tag id hi => ?_, h.tags⟩
  · rcases Indexed.of_getElem?_set hk hm with ⟨-, rfl⟩ | ⟨-, hm⟩
    · show handle.messageIdCounter + 1 = .ofNat (20000 + (handle.drawn + 1))
      rw [h.counter k handle hk, ← Nat.add_assoc, UInt32.ofNat_add (20000 + handle.drawn) 1]
      rfl
    · exact h.counter m x hm
  · obtain ⟨hid, x, hx, hlt⟩ := h.ids i tag id hi
    refine ⟨hid, ?_⟩
    rw [Indexed.getElem?_set_of_some hk]
    by_cases hm : tag.handle = k
    · rw [hm, hk] at hx
      cases hx
      exact ⟨_, if_pos hm, Nat.lt_succ_of_lt hlt⟩
    · exact ⟨x, (if_neg hm).trans hx, hlt⟩

theorem request (h : Ids handles headers) (hk : handles[k]? = some handle) :
    Ids (handles.set k handle.fetchAdd) (headers ++ [(⟨k, handle.drawn⟩, handle.messageIdCounter)]) := by
  have hnew := h.fetchAdd hk
  -- no call has the number that is drawn now
  have hfresh : ∀ (i : Nat) (id : UInt32), headers[i]? ≠ some (⟨k, handle.drawn⟩, id) := by
    intro i id hi
    obtain ⟨-, x, hx, hlt⟩ := h.ids i _ id hi
    cases hk.symm.trans hx
    exact Nat.lt_irrefl _ hlt
  refine ⟨hnew.counter, fun i tag id hi => ?_, fun i j tag id id' hi hj => ?_⟩
  · rcases Indexed.getElem?_concat_eq_some.1 hi with hi | ⟨-, heq⟩
    · exact hnew.ids i tag id hi
    · cases heq
      exact ⟨h.counter k handle hk, _, Indexed.getElem?_set_self_of_some hk, Nat.lt_succ_self _⟩
  · rcases Indexed.getElem?_concat_eq_some.1 hi with hi | ⟨hilast, heq⟩
    · rcases Indexed.getElem?_concat_eq_some.1 hj with hj | ⟨-, heq⟩
      · exact h.tags i j tag id id' hi hj
      · cases heq
        exact absurd hi (hfresh i id)
    · rcases Indexed.getElem?_concat_eq_some.1 hj with hj | ⟨hjlast, -⟩
      · cases heq
        exact absurd hj (hfresh j id')
      · exact hilast.trans hjlast.symm

/-- As long as no counter wraps, ids are equal exactly when the numbers are. -/
theorem id_eq_iff (h : Ids s.handles s.table.headers) (hfew : s.Few) (hc : s.table.calls[i]? = some c)
    (hd : s.table.calls[j]? = some d) : c.id = d.id ↔ c.tag.number = d.tag.number := by
  have hbound : ∀ {m : Nat} {e : Call}, s.table.calls[m]? = some e →
      e.id = UInt32.ofNat (20000 + e.tag.number) ∧ 20000 + e.tag.number < 2 ^ 32 := by
    intro m e he
    obtain ⟨hid, x, hx, hlt⟩ := h.ids m _ _ (Table.headers_of_some he)
    have hx' := hfew x (List.mem_of_getElem? hx)
    exact ⟨hid, by omega⟩
  obtain ⟨hcid, hclt⟩ := hbound hc
  obtain ⟨hdid, hdlt⟩ := hbound hd
  rw [hcid, hdid, RequestTracker.ofNat_eq_iff hclt hdlt]
  omega

end Ids

/-! ### The law -/

structure Inv (s : State) : Prop where
  ids : Ids s.handles s.table.headers
  sound : Sound (fun i r => r.origin = i) s.table

namespace Inv

theorem start : Inv start := ⟨.start, .start⟩

theorem frame (h : Inv s) {t : Requests.Table Tag Reply} (hf : s.table.Frame t)
    (hsound : Sound (fun i r => r.origin = i) t) : Inv { s with table := t } :=
  ⟨hf.headers ▸ h.ids, hsound⟩

/-- A call that waits under the id of a call whose twins do not wait is that call. -/
theorem eq_of_idle (h : Inv s) (hfew : s.Few) (hidle : s.TwinsIdle i) (hc : s.table.calls[i]? = some c)
    (hd : s.table.calls[j]? = some d) (hwait : d.Pending) (hid : d.id = c.id) : j = i := by
  have hnum := (h.ids.id_eq_iff hfew hc hd).1 hid.symm
  by_cases hhandle : c.tag.handle = d.tag.handle
  · have hc' := Table.headers_of_some hc
    rw [Tag.ext hhandle hnum] at hc'
    exact h.ids.tags j i d.tag d.id c.id (Table.headers_of_some hd) hc'
  · exact absurd hwait (hidle j c d hc hd hhandle hnum)

theorem step (h : Inv s) (hfew : s.Few) (hs : step s l = some s') (hG : Apart s l) : Inv s' := by
  cases l with
  | clone k =>
    obtain ⟨handle, -, rfl⟩ := Option.map_eq_some_iff.1 hs
    exact ⟨h.ids.clone, h.sound⟩
  | send k =>
    obtain ⟨handle, hk, rfl⟩ := Option.map_eq_some_iff.1 hs
    exact ⟨h.ids.fetchAdd hk, h.sound⟩
  | request k =>
    obtain ⟨handle, hk, rfl⟩ := Option.map_eq_some_iff.1 hs
    refine ⟨?_, h.sound.draw ..⟩
    rw [Table.headers_draw]
    exact h.ids.request hk
  | register i =>
    obtain ⟨t, ht, rfl⟩ := Option.map_eq_some_iff.1 hs
    exact h.frame (Table.frame_register ht) (h.sound.register ht fun _ _ _ hc hd => h.eq_of_idle hfew hG hc hd)
  | sent i ok =>
    obtain ⟨t, ht, rfl⟩ := Option.map_eq_some_iff.1 hs
    exact h.frame (Table.frame_sent ht) (h.sound.sent ht)
  | finish i =>
    obtain ⟨t, ht, rfl⟩ := Option.map_eq_some_iff.1 hs
    exact h.frame (Table.frame_finish ht) (h.sound.finish ht)
  | timeout i =>
    obtain ⟨t, ht, rfl⟩ := Option.map_eq_some_iff.1 hs
    exact h.frame (Table.frame_timeout ht) (h.sound.timeout ht)
  | response i responseData =>
    obtain ⟨c, hc, hs⟩ := Option.bind_eq_some_iff.1 hs
    split at hs
    · cases hs
    · cases hs
      exact h.frame (Table.frame_complete ..) (h.sound.complete fun _ _ hd hwait hid =>
        (h.eq_of_idle hfew hG hc hd hwait hid).symm)

theorem apart (h : Inv s) (hfew : s.Few) (hs : HandleIds.step s l = some s')
    (hlaw : Undisturbed Reply.origin s'.table) : Apart s l := by
  cases l with
  | register i =>
    intro j c d hc hd _ hnum
    obtain ⟨t, ht, rfl⟩ := Option.map_eq_some_iff.1 hs
    exact h.sound.not_pending_of_register hc ht hlaw hd ((h.ids.id_eq_iff hfew hd hc).2 hnum.symm)
  | response i responseData =>
    intro j c d hc hd hhandle hnum hwait
    obtain ⟨c', hc', hs⟩ := Option.bind_eq_some_iff.1 hs
    cases hc.symm.trans hc'
    split at hs
    · cases hs
    · cases hs
      rw [(h.ids.id_eq_iff hfew hc hd).2 hnum] at hlaw
      have hij : i = j := h.sound.origin_of_complete hlaw hd hwait
      subst hij
      cases hc.symm.trans hd
      exact hhandle rfl
  | _ => trivial

end Inv

/-- In a run in which no counter wraps, no request of the server or a clone ever disturbs another exactly
when no two requests with one number, of different handles, overlap. -/
theorem undisturbed_iff {ls : List Label} (hr : run step start ls = some s) (hfew : s.Few) :
    Always step (fun s => Undisturbed Reply.origin s.table) start ls ↔ Meets step Apart start ls := by
  have hA := meets_of_back (fun _ _ _ => few_of_step) hr hfew
  exact always_iff_meets (fun _ h => h.sound.undisturbed)
    (fun t l t' hs hA hG (h : Inv t) => h.step (few_of_step hs (hA t' hs)) hs hG)
    (fun t l t' hs hA h hlaw => h.apart (few_of_step hs (hA t' hs)) hs hlaw) hr hA .start

theorem undisturbed_iff_in_turn :
    let ls := [Label.clone 0, .request 0, .register 0, .sent 0 true, .response 0 [1], .finish 0,
      .request 1, .register 1, .sent 1 true, .response 1 [2], .finish 1]
    Always step (fun s => Undisturbed Reply.origin s.table) start ls ↔ Meets step Apart start ls :=
  undisturbed_iff (s := _) rfl (by decide)

/-- A server and its clone make their first requests on one session at the same time: both have id 20000,
and the second to register fails the first. -/
theorem clone_request_fails :
    ∃ s, run step start [.clone 0, .request 0, .request 1, .register 0, .sent 0 true, .register 1, .finish 0] = some s ∧
      s.Few ∧ ¬ Undisturbed Reply.origin s.table :=
  ⟨_, rfl, by decide, fun h => (h.notFailed 0 _ rfl).2 rfl⟩

end HandleIds

end Msgtrans
