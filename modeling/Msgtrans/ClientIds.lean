import Msgtrans.Lib.Run
import Msgtrans.Delivery
import Msgtrans.RequestTracker

/-!
# The message ids of a client's requests

`TransportClient::request` draws its message id from the client's own `message_id_counter`,
`request_with_options` draws it from `next_id` of the `RequestTracker`. Both counters start at 1 and both
kinds of call register in that one tracker, so the n-th call of the one kind has the id of the n-th call of
the other. Calls stay apart exactly as long as no two such calls overlap: `noCrosstalk_iff`.
-/

namespace Msgtrans

namespace ClientIds

inductive Method where
  | request
  | requestWithOptions
deriving DecidableEq, Repr

/-- A response, with the call whose request it answers. -/
structure Reply where
  packet : Packet
  origin : Nat

abbrev Call := Requests.Call Method Reply

structure State where
  messageIdCounter : UInt32
  table : Requests.Table Method Reply

def start : State := ⟨1, ⟨.new, []⟩⟩

inductive Label where
  | request
  | requestWithOptions (options : TransportOptions)
  | register (i : Nat)
  | sent (i : Nat) (ok : Bool)
  | finish (i : Nat)
  | timeout (i : Nat)
  /-- a response to the request of call `i` arrives -/
  | response (i : Nat) (responseData : Bytes)

def step (s : State) : Label → Option State
  | .request => some ⟨s.messageIdCounter + 1, s.table.draw .request s.messageIdCounter⟩
  | .requestWithOptions options =>
    let (messageId, nextId) := Transport.messageIdOf options s.table.tracker.nextId
    let table := s.table.draw .requestWithOptions messageId
    if options.messageId.isNone then
      some { s with table := { table with tracker := { table.tracker with nextId := nextId } } }
    else none
  | .register i => (s.table.register i).map fun table => { s with table := table }
  | .sent i ok => (s.table.sent i ok).map fun table => { s with table := table }
  | .finish i => (s.table.finish i).map fun table => { s with table := table }
  | .timeout i => (s.table.timeout i).map fun table => { s with table := table }
  | .response i responseData => s.table.calls[i]?.bind fun c =>
    match c.phase with
    | .drawn => none
    | _ => some { s with table := s.table.complete c.id ⟨responsePacket c.id responseData, i⟩ }

/-- Calls that wait have different ids and hold the entries of their ids, no call fails because another
took its entry, and what a call is given answers its own request. -/
structure NoCrosstalk (s : State) : Prop where
  distinct : ∀ (i j : Nat) (c d : Call), s.table.calls[i]? = some c → s.table.calls[j]? = some d →
    c.Pending → d.Pending → c.id = d.id → i = j
  registered : ∀ (i : Nat) (c : Call), s.table.calls[i]? = some c → c.Pending →
    s.table.tracker.pending c.id = some i
  notFailed : ∀ (i : Nat) (c : Call), s.table.calls[i]? = some c → c.slot ≠ .dropped ∧ c.phase ≠ .returned .closed
  own : ∀ (i : Nat) (c : Call) (r : Reply), s.table.calls[i]? = some c →
    c.slot = .filled r ∨ c.phase = .returned (.data r) → r.origin = i

def number (headers : List (Method × UInt32)) (i : Nat) (method : Method) : Nat :=
  (headers.take i).countP fun h => h.1 = method

/-- The call of the other kind with the number of call `i` does not wait. -/
def State.CounterpartIdle (s : State) (i : Nat) : Prop :=
  ∀ (j : Nat) (c d : Call), s.table.calls[i]? = some c → s.table.calls[j]? = some d → c.tag ≠ d.tag →
    number s.table.headers i c.tag = number s.table.headers j d.tag → ¬ d.Pending

/-- When a call registers, and when a response to it arrives, its counterpart does not wait. -/
def Apart (s : State) : Label → Prop
  | .register i => s.CounterpartIdle i
  | .response i _ => s.CounterpartIdle i
  | _ => True

/-! ### Numbers of calls -/

section Number

variable {headers : List (Method × UInt32)} {i j : Nat} {m : Method} {id : UInt32}

theorem number_le (headers : List (Method × UInt32)) (i : Nat) (m : Method) : number headers i m ≤ headers.length := by
  refine Nat.le_trans List.countP_le_length ?_
  rw [List.length_take]
  exact Nat.min_le_right ..

theorem number_append (h : i ≤ headers.length) (rest : List (Method × UInt32)) :
    number (headers ++ rest) i m = number headers i m := by
  rw [number, List.take_append_of_le_length h, number]

theorem number_succ (h : headers[i]? = some (m, id)) (m' : Method) :
    number headers (i + 1) m' = number headers i m' + if m = m' then 1 else 0 := by
  rw [number, List.take_add_one, h, List.countP_append]
  simp [number]

theorem number_mono (h : i ≤ j) (m : Method) : number headers i m ≤ number headers j m :=
  (List.take_sublist_take_left h).countP_le

theorem number_lt (hi : headers[i]? = some (m, id)) (h : i < j) : number headers i m < number headers j m := by
  have hs := number_succ hi m
  rw [if_pos rfl] at hs
  have hle : number headers (i + 1) m ≤ number headers j m := number_mono h m
  omega

end Number

/-- Both counters, and the id of every call, say how many calls of the kind came before. -/
structure Ids (s : State) : Prop where
  messageIdCounter : s.messageIdCounter = .ofNat (number s.table.headers s.table.headers.length .request + 1)
  nextId : s.table.tracker.nextId = .ofNat (number s.table.headers s.table.headers.length .requestWithOptions + 1)
  ids : ∀ i m id, s.table.headers[i]? = some (m, id) → id = UInt32.ofNat (number s.table.headers i m + 1)

namespace Ids

variable {s s' : State} {i j : Nat} {c d : Call}

theorem start : Ids start := ⟨rfl, rfl, fun _ _ _ h => nomatch h⟩

theorem frame (h : Ids s) (hf : s.table.Frame s'.table) (hcounter : s'.messageIdCounter = s.messageIdCounter) : Ids s' := by
  refine ⟨?_, ?_, ?_⟩
  · rw [hcounter, hf.headers]
    exact h.messageIdCounter
  · rw [hf.nextId, hf.headers]
    exact h.nextId
  · rw [hf.headers]
    exact h.ids

theorem draw (h : Ids s) {m : Method} {id : UInt32} (hid : id = UInt32.ofNat (number s.table.headers s.table.headers.length m + 1))
    (hheaders : s'.table.headers = s.table.headers ++ [(m, id)])
    (hcounter : s'.messageIdCounter = if m = .request then s.messageIdCounter + 1 else s.messageIdCounter)
    (hnext : s'.table.tracker.nextId =
      if m = .requestWithOptions then s.table.tracker.nextId + 1 else s.table.tracker.nextId) : Ids s' := by
  have hcount : ∀ m', number (s.table.headers ++ [(m, id)]) (s.table.headers ++ [(m, id)]).length m' =
      number s.table.headers s.table.headers.length m' + if m = m' then 1 else 0 := by
    intro m'
    rw [List.length_append, List.length_singleton, number_succ List.getElem?_concat_length,
      number_append (Nat.le_refl _)]
  refine ⟨?_, ?_, fun i m' id' hi => ?_⟩
  · rw [hcounter, hheaders, hcount, h.messageIdCounter]
    split <;> simp [UInt32.ofNat_add]
  · rw [hnext, hheaders, hcount, h.nextId]
    split <;> simp [UInt32.ofNat_add]
  · rw [hheaders] at hi ⊢
    rcases Nat.lt_or_ge i s.table.headers.length with hlt | hge
    · rw [number_append hlt.le]
      rw [List.getElem?_append_left hlt] at hi
      exact h.ids i m' id' hi
    · have hlen := (List.getElem?_eq_some_iff.1 hi).1
      rw [List.length_append, List.length_singleton] at hlen
      obtain rfl : i = s.table.headers.length := by omega
      rw [List.getElem?_concat_length] at hi
      cases hi
      rw [number_append (Nat.le_refl _)]
      exact hid

/-- With fewer than 2^32 calls, ids are equal exactly when the numbers are. -/
theorem id_eq_iff (h : Ids s) (hfew : s.table.calls.length < 2 ^ 32) (hc : s.table.calls[i]? = some c)
    (hd : s.table.calls[j]? = some d) :
    c.id = d.id ↔ number s.table.headers i c.tag = number s.table.headers j d.tag := by
  rw [h.ids i _ _ (Requests.Table.headers_of_some hc), h.ids j _ _ (Requests.Table.headers_of_some hd)]
  have hbound : ∀ {k : Nat} {e : Call}, s.table.calls[k]? = some e → number s.table.headers k e.tag + 1 < 2 ^ 32 := by
    intro k e he
    have hlt := number_lt (Requests.Table.headers_of_some he) (List.getElem?_eq_some_iff.1 he).1
    have hle := number_le s.table.headers s.table.calls.length e.tag
    rw [Requests.Table.length_headers] at hle
    omega
  rw [RequestTracker.ofNat_eq_iff (hbound hc) (hbound hd)]
  omega

theorem eq_of_tag_eq (h : Ids s) (hfew : s.table.calls.length < 2 ^ 32) (hc : s.table.calls[i]? = some c)
    (hd : s.table.calls[j]? = some d) (htag : c.tag = d.tag) (hid : c.id = d.id) : i = j := by
  have hnum := (h.id_eq_iff hfew hc hd).1 hid
  rcases Nat.lt_trichotomy i j with hlt | heq | hgt
  · have := number_lt (Requests.Table.headers_of_some hc) hlt
    rw [htag] at this hnum
    omega
  · exact heq
  · have := number_lt (Requests.Table.headers_of_some hd) hgt
    rw [htag] at hnum
    omega

end Ids

/-! ### The law -/

structure Inv (s : State) : Prop where
  ids : Ids s
  sound : Requests.Sound (fun i r => r.origin = i) s.table

variable {s s' : State} {l : Label} {i : Nat} {c : Call}

theorem Inv.start : Inv start := ⟨.start, .start⟩

theorem noCrosstalk_iff_undisturbed : NoCrosstalk s ↔ Requests.Undisturbed Reply.origin s.table :=
  ⟨fun h => ⟨h.distinct, h.registered, h.notFailed, h.own⟩, fun h => ⟨h.distinct, h.registered, h.notFailed, h.own⟩⟩

theorem Inv.noCrosstalk (h : Inv s) : NoCrosstalk s := noCrosstalk_iff_undisturbed.2 h.sound.undisturbed

theorem Inv.eq_of_idle (h : Inv s) (hfew : s.table.calls.length < 2 ^ 32) (hidle : s.CounterpartIdle i)
    (hc : s.table.calls[i]? = some c) {j : Nat} {d : Call} (hd : s.table.calls[j]? = some d) (hwait : d.Pending)
    (hid : d.id = c.id) : j = i := by
  by_cases htag : d.tag = c.tag
  · exact h.ids.eq_of_tag_eq hfew hd hc htag hid
  · exact absurd hwait (hidle j c d hc hd (Ne.symm htag) ((h.ids.id_eq_iff hfew hc hd).1 hid.symm))

theorem Inv.register (h : Inv s) (hfew : s.table.calls.length < 2 ^ 32) (hidle : s.CounterpartIdle i)
    {t : Requests.Table Method Reply} (ht : s.table.register i = some t) : Inv { s with table := t } :=
  ⟨h.ids.frame (Requests.Table.frame_register ht) rfl, h.sound.register ht fun _ _ _ hc hd => h.eq_of_idle hfew hidle hc hd⟩

theorem Inv.response (h : Inv s) (hfew : s.table.calls.length < 2 ^ 32) (hidle : s.CounterpartIdle i)
    (hc : s.table.calls[i]? = some c) (packet : Packet) :
    Inv { s with table := s.table.complete c.id ⟨packet, i⟩ } :=
  ⟨h.ids.frame (Requests.Table.frame_complete ..) rfl,
    h.sound.complete fun _ _ hd hwait hid => (h.eq_of_idle hfew hidle hc hd hwait hid).symm⟩

theorem length_le (hs : step s l = some s') : s.table.calls.length ≤ s'.table.calls.length := by
  have hdraw : ∀ (method : Method) (id : UInt32), s.table.calls.length ≤ (s.table.draw method id).calls.length := by
    intro method id
    simp [Requests.Table.draw]
  cases l with
  | request =>
    cases hs
    exact hdraw ..
  | requestWithOptions options =>
    simp only [step] at hs
    split at hs
    · cases hs
      exact hdraw ..
    · cases hs
  | register i =>
    obtain ⟨t, ht, rfl⟩ := Option.map_eq_some_iff.1 hs
    exact (Requests.Table.frame_register ht).length_eq.ge
  | sent i ok =>
    obtain ⟨t, ht, rfl⟩ := Option.map_eq_some_iff.1 hs
    exact (Requests.Table.frame_sent ht).length_eq.ge
  | finish i =>
    obtain ⟨t, ht, rfl⟩ := Option.map_eq_some_iff.1 hs
    exact (Requests.Table.frame_finish ht).length_eq.ge
  | timeout i =>
    obtain ⟨t, ht, rfl⟩ := Option.map_eq_some_iff.1 hs
    exact (Requests.Table.frame_timeout ht).length_eq.ge
  | response i responseData =>
    obtain ⟨c, hc, hs⟩ := Option.bind_eq_some_iff.1 hs
    split at hs
    · cases hs
    · cases hs
      exact (Requests.Table.frame_complete ..).length_eq.ge

theorem Inv.step (h : Inv s) (hfew : s.table.calls.length < 2 ^ 32) (hs : step s l = some s') (hG : Apart s l) :
    Inv s' := by
  cases l with
  | request =>
    cases hs
    exact ⟨h.ids.draw h.ids.messageIdCounter (Requests.Table.headers_draw ..) rfl rfl, h.sound.draw ..⟩
  | requestWithOptions options =>
    simp only [ClientIds.step] at hs
    split at hs
    · next hnone =>
      have hid : options.messageId = none := Option.isNone_iff_eq_none.1 hnone
      simp only [Transport.messageIdOf, hid] at hs
      cases hs
      have hdraw := h.sound.draw Method.requestWithOptions s.table.tracker.nextId
      exact ⟨h.ids.draw h.ids.nextId (Requests.Table.headers_draw ..) rfl rfl, hdraw.owned, hdraw.owns, hdraw.ok⟩
    · cases hs
  | register i =>
    obtain ⟨t, ht, rfl⟩ := Option.map_eq_some_iff.1 hs
    exact h.register hfew hG ht
  | sent i ok =>
    obtain ⟨t, ht, rfl⟩ := Option.map_eq_some_iff.1 hs
    exact ⟨h.ids.frame (Requests.Table.frame_sent ht) rfl, h.sound.sent ht⟩
  | finish i =>
    obtain ⟨t, ht, rfl⟩ := Option.map_eq_some_iff.1 hs
    exact ⟨h.ids.frame (Requests.Table.frame_finish ht) rfl, h.sound.finish ht⟩
  | timeout i =>
    obtain ⟨t, ht, rfl⟩ := Option.map_eq_some_iff.1 hs
    exact ⟨h.ids.frame (Requests.Table.frame_timeout ht) rfl, h.sound.timeout ht⟩
  | response i responseData =>
    obtain ⟨c, hc, hs⟩ := Option.bind_eq_some_iff.1 hs
    split at hs
    · cases hs
    · cases hs
      exact h.response hfew hG hc _

/-- A step after which nothing went wrong kept counterparts apart: registering under the id of a waiting
call drops its sender, and a response under it goes to that call. -/
theorem apart_of_noCrosstalk (h : Inv s) (hfew : s.table.calls.length < 2 ^ 32) (hs : step s l = some s')
    (hlaw : NoCrosstalk s') : Apart s l := by
  cases l with
  | register i =>
    intro j c d hc hd _ hnum
    obtain ⟨t, ht, rfl⟩ := Option.map_eq_some_iff.1 hs
    have hid := (h.ids.id_eq_iff hfew hc hd).2 hnum
    exact h.sound.not_pending_of_register hc ht (noCrosstalk_iff_undisturbed.1 hlaw) hd hid.symm
  | response i responseData =>
    intro j c d hc hd htag hnum hwait
    obtain ⟨c', hc', hs⟩ := Option.bind_eq_some_iff.1 hs
    cases hc.symm.trans hc'
    split at hs
    · cases hs
    · cases hs
      have hlaw' := noCrosstalk_iff_undisturbed.1 hlaw
      rw [(h.ids.id_eq_iff hfew hc hd).2 hnum] at hlaw'
      have hij : i = j := h.sound.origin_of_complete hlaw' hd hwait
      subst hij
      cases hc.symm.trans hd
      exact htag rfl
  | _ => trivial

/-- In a run of fewer than 2^32 requests no call ever disturbs another exactly when calls of the two kinds
with one number never overlap. -/
theorem noCrosstalk_iff {ls : List Label} (hr : StepSystem.run step start ls = some s)
    (hfew : s.table.calls.length < 2 ^ 32) :
    StepSystem.Always step NoCrosstalk start ls ↔ StepSystem.Meets step Apart start ls := by
  have hA := StepSystem.meets_of_back (Q := fun t : State => t.table.calls.length < 2 ^ 32)
    (fun _ _ _ hs => Nat.lt_of_le_of_lt (length_le hs)) hr hfew
  exact StepSystem.always_iff_meets (fun _ => Inv.noCrosstalk)
    (fun t l t' hs hA hG h => h.step (Nat.lt_of_le_of_lt (length_le hs) (hA t' hs)) hs hG)
    (fun t l t' hs hA h hlaw => apart_of_noCrosstalk h (Nat.lt_of_le_of_lt (length_le hs) (hA t' hs)) hs hlaw)
    hr hA .start

def noOptions : TransportOptions := ⟨none, none, none, none⟩

theorem noCrosstalk_iff_in_turn :
    let ls := [.request, .register 0, .sent 0 true, .response 0 [1], .finish 0,
      .requestWithOptions noOptions, .register 1, .sent 1 true, .response 1 [2], .finish 1]
    StepSystem.Always step NoCrosstalk start ls ↔ StepSystem.Meets step Apart start ls :=
  noCrosstalk_iff rfl (by decide)

/-- The first call of each kind at the same time: both have id 1, and the second to register fails the first. -/
theorem first_calls_clash :
    ∃ s, StepSystem.run step start
        [.request, .requestWithOptions noOptions, .register 0, .sent 0 true, .register 1, .finish 0] = some s ∧
      s.table.calls.length < 2 ^ 32 ∧ ¬ NoCrosstalk s := by
  refine ⟨_, rfl, by decide, fun h => ?_⟩
  exact (h.notFailed 0 _ rfl).2 rfl

end ClientIds

end Msgtrans
