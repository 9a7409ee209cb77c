import Msgtrans.Lib.SocketAddr

/-!
# IPv6 addresses are read back from what is written

The text of an IPv6 address leaves out its first longest run of zeroes and writes an IPv4-mapped address with
a dotted quad; the reader tries a dotted quad before each group. `parse_display`: whatever was left out, the
address is read back, without the flow information that no text holds.
-/

namespace Net

/-! ### Where a reader finds nothing -/

theorem readNumber_of_noDigit {radix bound : ℕ} {maxDigits : Option ℕ} {z : Bool} {s : List Char}
    (h : NoDigit radix s) : readNumber radix maxDigits z bound s = none := by
  simp [readNumber, spanDigits_of_noDigit h]

theorem eq_of_readNumber {radix bound n : ℕ} {maxDigits : Option ℕ} {z : Bool} {s rest : List Char}
    (h : readNumber radix maxDigits z bound s = some (n, rest)) : rest = (spanDigits radix s).2 := by
  simp only [readNumber] at h
  split_ifs at h
  simp only [Option.some.injEq, Prod.mk.injEq] at h
  exact h.2.symm

theorem readSeparator_of_head {α : Type} {sep : Char} {index : ℕ} {inner : Reader α} {s : List Char}
    (hindex : index ≠ 0) (h : s.head? ≠ some sep) : readSeparator sep index inner s = none := by
  cases s with
  | nil => simp [readSeparator, readGivenChar, hindex]
  | cons c s =>
    have hc : c ≠ sep := by simpa using h
    simp [readSeparator, readGivenChar, hindex, hc]

/-- No octet is followed by a dot. -/
theorem readIpv4Addr_of_no_dot {s : List Char} (h : (spanDigits 10 s).2.head? ≠ some '.') :
    readIpv4Addr s = none := by
  have hfirst : readSeparator '.' 0 readOctet s = readOctet s := rfl
  cases ha : readOctet s with
  | none => simp [readIpv4Addr, hfirst, ha]
  | some r =>
    obtain ⟨a, rest⟩ := r
    have hrest := eq_of_readNumber ha
    have hsep : readSeparator '.' 1 readOctet rest = none := readSeparator_of_head (by decide) (by rwa [hrest])
    simp [readIpv4Addr, hfirst, ha, hsep]

/-- Hexadecimal digits are no octet either, unless a dot follows. -/
theorem head_spanDigits_ten {digits : List ℕ} {rest : List Char} (hd : ∀ d ∈ digits, d < 16)
    (hr : rest.head? ≠ some '.') (hn : NoDigit 16 rest) :
    (spanDigits 10 (digits.map Nat.digitChar ++ rest)).2.head? ≠ some '.' := by
  induction digits with
  | nil =>
    have h10 : NoDigit 10 rest := by
      intro c hc
      have h16 := hn c hc
      unfold toDigit at h16 ⊢
      split_ifs at h16 ⊢ <;> simp_all
      omega
    simpa [spanDigits_of_noDigit h10] using hr
  | cons d digits ih =>
    have hrest := ih fun x hx => hd x (by simp [hx])
    simp only [List.map_cons, List.cons_append, spanDigits]
    split
    · exact hrest
    · simp

theorem readIpv4Addr_hex (group : UInt16) {rest : List Char} (hr : rest.head? ≠ some '.') (hn : NoDigit 16 rest) :
    readIpv4Addr (hex group ++ rest) = none := by
  obtain ⟨digits, htext, hlt, -⟩ := exists_digits 16 group.toNat (by decide)
  rw [hex, htext]
  exact readIpv4Addr_of_no_dot (head_spanDigits_ten hlt hr hn)

/-! ### Groups -/

/-- What may follow groups: the closing bracket, a scope, or the two colons of the run that is left out. -/
def Closed (rest : List Char) : Prop :=
  ∃ c s, rest = c :: s ∧ (c = ']' ∨ c = '%' ∨ c = ':' ∧ ∃ s', s = ':' :: s')

namespace Closed
variable {rest : List Char}

theorem bracket (s : List Char) : Closed (']' :: s) := ⟨_, _, rfl, .inl rfl⟩

theorem percent (s : List Char) : Closed ('%' :: s) := ⟨_, _, rfl, .inr (.inl rfl)⟩

theorem colons (s : List Char) : Closed (':' :: ':' :: s) := ⟨_, _, rfl, .inr (.inr ⟨rfl, _, rfl⟩)⟩

theorem noDigit (h : Closed rest) : NoDigit 16 rest ∧ NoDigit 10 rest := by
  obtain ⟨c, s, rfl, hc⟩ := h
  rcases hc with rfl | rfl | ⟨rfl, -⟩ <;> exact ⟨noDigit_cons (by decide), noDigit_cons (by decide)⟩

theorem head_ne (h : Closed rest) : rest.head? ≠ some '.' := by
  obtain ⟨c, s, rfl, hc⟩ := h
  rcases hc with rfl | rfl | ⟨rfl, -⟩ <;> simp

theorem readIpv4Addr (h : Closed rest) : readIpv4Addr rest = none := by
  refine readIpv4Addr_of_no_dot ?_
  rw [spanDigits_of_noDigit h.noDigit.2]
  exact h.head_ne

/-- No separator and number start here. -/
theorem readSeparator {α : Type} {inner : Reader α} {index : ℕ} (h : Closed rest)
    (hfirst : inner rest = none) (hcolon : ∀ s, inner (':' :: s) = none) : readSeparator ':' index inner rest = none := by
  obtain ⟨c, s, rfl, hc⟩ := h
  unfold Net.readSeparator
  split
  next => exact hfirst
  next => rcases hc with rfl | rfl | ⟨rfl, s', rfl⟩ <;> simp [readGivenChar, hcolon]

theorem readGroups (h : Closed rest) (index room : ℕ) : readGroups index room rest = (([], false), rest) := by
  have hcolon (s : List Char) : NoDigit 16 (':' :: s) ∧ NoDigit 10 (':' :: s) :=
    ⟨noDigit_cons (by decide), noDigit_cons (by decide)⟩
  have hipv4 : Net.readSeparator ':' index Net.readIpv4Addr rest = none := by
    refine h.readSeparator h.readIpv4Addr fun s => readIpv4Addr_of_no_dot ?_
    simp [spanDigits_of_noDigit (hcolon s).2]
  have hgroup : Net.readSeparator ':' index readGroup rest = none :=
    h.readSeparator (readNumber_of_noDigit h.noDigit.1) fun s => readNumber_of_noDigit (hcolon s).1
  cases room with
  | zero => rfl
  | succ room => simp [Net.readGroups, hipv4, hgroup]

end Closed

def separator (index : ℕ) : List Char := if index = 0 then [] else [':']

theorem readSeparator_separator {α : Type} (index : ℕ) (inner : Reader α) (s : List Char) :
    readSeparator ':' index inner (separator index ++ s) = inner s := by
  unfold readSeparator separator
  split <;> simp [readGivenChar]

theorem readGroup_hex (group : UInt16) {rest : List Char} (hrest : NoDigit 16 rest) :
    readGroup (hex group ++ rest) = some (group.toNat, rest) := by
  have hlt := group.toNat_lt
  refine readNumber_toDigits (by decide) (by decide) ?_ group.toNat_lt hrest
  intro k hk
  obtain rfl : 4 = k := Option.some.inj hk
  exact (Nat.length_toDigits_le_iff (by decide) (by decide)).2 (by omega)

/-- The groups from number `index` on, as `fmtSubslice` writes them. -/
def groupsText (index : ℕ) : List UInt16 → List Char
  | [] => []
  | group :: groups => separator index ++ hex group ++ groupsText (index + 1) groups

theorem fmtSubslice_eq (groups : List UInt16) : fmtSubslice groups = groupsText 0 groups := by
  have htail (index : ℕ) (tail : List UInt16) :
      groupsText (index + 1) tail = tail.flatMap fun segment => ':' :: hex segment := by
    induction tail generalizing index with
    | nil => rfl
    | cons g tail ih => simp [groupsText, separator, ih]
  cases groups with
  | nil => rfl
  | cons g tail => simp [fmtSubslice, groupsText, separator, htail]

theorem groupsText_head (index : ℕ) (groups : List UInt16) {rest : List Char} (hrest : Closed rest) :
    NoDigit 16 (groupsText (index + 1) groups ++ rest) ∧ (groupsText (index + 1) groups ++ rest).head? ≠ some '.' := by
  cases groups with
  | nil => exact ⟨hrest.noDigit.1, hrest.head_ne⟩
  | cons g groups => exact ⟨noDigit_cons (by decide), by simp [groupsText, separator]⟩

theorem readGroups_cons (index room : ℕ) (group : UInt16) {rest : List Char} (hn : NoDigit 16 rest)
    (hdot : rest.head? ≠ some '.') : readGroups index (room + 1) (separator index ++ hex group ++ rest) =
      ((group :: (readGroups (index + 1) room rest).1.1, (readGroups (index + 1) room rest).1.2),
        (readGroups (index + 1) room rest).2) := by
  have hipv4 := readIpv4Addr_hex group hdot hn
  have hgroup := readGroup_hex group hn
  simp [readGroups, readSeparator_separator, hipv4, hgroup, List.append_assoc]

theorem readGroups_text (groups : List UInt16) (index room : ℕ) {rest : List Char} (hroom : groups.length ≤ room)
    (hrest : Closed rest) : readGroups index room (groupsText index groups ++ rest) = ((groups, false), rest) := by
  induction groups generalizing index room with
  | nil => exact hrest.readGroups index room
  | cons g groups ih =>
    obtain ⟨room, rfl⟩ := Nat.exists_eq_add_one_of_ne_zero (Nat.ne_of_gt (Nat.lt_of_lt_of_le (by simp) hroom) : room ≠ 0)
    obtain ⟨hn, hdot⟩ := groupsText_head index groups hrest
    have hgroups := ih (index + 1) room (by simpa using hroom)
    rw [groupsText, List.append_assoc, readGroups_cons index room g hn hdot, hgroups]

/-! ### The run of zeroes -/

structure Span.Zero (span : Span) (segments : List UInt16) : Prop where
  le : span.start + span.len ≤ segments.length
  zero : ∀ i, span.start ≤ i → i < span.start + span.len → segments[i]? = some 0

theorem Span.Zero.append {span : Span} {segments : List UInt16} (h : span.Zero segments) (l : List UInt16) :
    span.Zero (segments ++ l) := by
  have hle := h.le
  refine ⟨by simp; omega, fun i hi hlt => ?_⟩
  rw [List.getElem?_append_left (by omega)]
  exact h.zero i hi hlt

/-- The segments are what stands before the run, the run and what stands after it. -/
theorem Span.Zero.split {span : Span} {segments : List UInt16} (h : span.Zero segments) :
    segments.take span.start ++ List.replicate span.len 0 ++ segments.drop (span.start + span.len) = segments := by
  have hle := h.le
  have hrun : (segments.drop span.start).take span.len = List.replicate span.len 0 := by
    refine List.eq_replicate_iff.2 ⟨by simp; omega, fun b hb => ?_⟩
    obtain ⟨i, hi, rfl⟩ := List.getElem_of_mem hb
    simp only [List.length_take, List.length_drop] at hi
    have hzero := h.zero (span.start + i) (by omega) (by omega)
    rw [List.getElem?_eq_getElem (by omega)] at hzero
    simpa using hzero
  rw [← hrun, List.append_assoc, ← List.drop_drop, List.take_append_drop, List.take_append_drop]

structure SpansInv (segments : List UInt16) (spans : Span × Span) : Prop where
  longest : spans.1.Zero segments
  current : spans.2.Zero segments
  reaches : spans.2.len ≠ 0 → spans.2.start + spans.2.len = segments.length

theorem spansInv_foldl (segments : List UInt16) :
    SpansInv segments (segments.zipIdx.foldl nextSpans (⟨0, 0⟩, ⟨0, 0⟩)) := by
  induction segments using List.reverseRecOn with
  | nil => exact ⟨⟨by simp, by simp⟩, ⟨by simp, by simp⟩, by simp⟩
  | append_singleton segments segment ih =>
    rw [List.zipIdx_append, List.foldl_append]
    generalize segments.zipIdx.foldl nextSpans (⟨0, 0⟩, ⟨0, 0⟩) = spans at ih
    obtain ⟨longest, current⟩ := spans
    have hlongest := ih.longest.append [segment]
    simp only [List.zipIdx_cons, List.zipIdx_nil, List.foldl_cons, List.foldl_nil, nextSpans, Nat.zero_add]
    split
    next hzero =>
      -- where the run that the new segment belongs to starts
      obtain ⟨start, hstart, hend, hrun⟩ : ∃ start, (if current.len = 0 then segments.length else current.start) = start ∧
          start + current.len = segments.length ∧ ∀ i, start ≤ i → i < segments.length → segments[i]? = some 0 := by
        by_cases hlen : current.len = 0
        · exact ⟨segments.length, if_pos hlen, by omega, by omega⟩
        · have hreach : current.start + current.len = segments.length := ih.reaches hlen
          exact ⟨current.start, if_neg hlen, hreach, fun i hi hlt => ih.current.zero i hi (hreach ▸ hlt)⟩
      rw [hstart]
      have hcurrent : Span.Zero ⟨start, current.len + 1⟩ (segments ++ [segment]) := by
        refine ⟨by simp; omega, fun i hi hlt => ?_⟩
        dsimp only at hi hlt
        rcases Nat.lt_or_ge i segments.length with h | h
        · rw [List.getElem?_append_left h]
          exact hrun i hi h
        · obtain rfl : i = segments.length := by omega
          simp [hzero]
      refine ⟨?_, hcurrent, fun _ => by simp; omega⟩
      dsimp only
      split
      · exact hcurrent
      · exact hlongest
    next => exact ⟨hlongest, ⟨by simp, by simp⟩, by simp⟩

theorem zeroes_zero (segments : List UInt16) : (zeroes segments).Zero segments :=
  (spansInv_foldl segments).longest

/-! ### Addresses -/

theorem length_toList (ip : Ipv6Addr) : ip.toList.length = 8 := List.length_ofFn

theorem ofGroups_toList (ip : Ipv6Addr) : Ipv6Addr.ofGroups ip.toList = ip := by
  obtain ⟨segments⟩ := ip
  refine congrArg Ipv6Addr.mk (funext fun i => ?_)
  simp only [Ipv6Addr.toList, List.getD_eq_getElem?_getD, List.getElem?_ofFn, dif_pos i.isLt, Option.getD_some]

theorem groups_mapped (ab cd : UInt16) :
    Ipv4Addr.groups ⟨(ab / 256).toUInt8, ab.toUInt8, (cd / 256).toUInt8, cd.toUInt8⟩ = [ab, cd] := by
  have hword (x : UInt16) : (x / 256).toUInt8.toUInt16 * 256 + x.toUInt8.toUInt16 = x := by
    refine UInt16.toNat_inj.1 ?_
    have hx := x.toNat_lt
    simp
    omega
  simp only [Ipv4Addr.groups, hword]

/-- The part before the two colons and the one after them. -/
theorem readIpv6Addr_colons {head tail : List UInt16} {ipv4 : Bool} {s rest : List Char} (hhead : head.length < 8)
    (hs : readGroups 0 (8 - (head.length + 1)) s = ((tail, ipv4), rest)) :
    readIpv6Addr (groupsText 0 head ++ ':' :: ':' :: s) =
      some (.ofGroups (head ++ List.replicate (8 - head.length - tail.length) 0 ++ tail), rest) := by
  have hread := readGroups_text head 0 8 hhead.le (Closed.colons s)
  simp only [readIpv6Addr, hread, if_neg (Nat.ne_of_lt hhead), readGivenChar, if_true, Option.bind_eq_bind,
    Option.bind_some, hs]
  rfl

theorem readGroups_ipv4 (ip : Ipv4Addr) (room : ℕ) {rest : List Char} (hrest : NoDigit 10 rest) :
    readGroups 1 (room + 2) (':' :: (ip.display ++ rest)) = ((ip.groups, true), rest) := by
  have hread := readIpv4Addr_display ip hrest
  simp [readGroups, readSeparator, readGivenChar, hread]

theorem readIpv6Addr_mapped {ip : Ipv6Addr} {rest : List Char} (hrest : Closed rest)
    (hmapped : ip.toList.take 6 = [0, 0, 0, 0, 0, 0xffff]) :
    readIpv6Addr (ip.display ++ rest) = some (ip, rest) := by
  let ipv4 : Ipv4Addr := ⟨(ip.segments 6 / 256).toUInt8, (ip.segments 6).toUInt8, (ip.segments 7 / 256).toUInt8,
    (ip.segments 7).toUInt8⟩
  have hgroups : ipv4.groups = ip.toList.drop 6 := groups_mapped (ip.segments 6) (ip.segments 7)
  have hdisplay : ip.display = "::ffff:".toList ++ ipv4.display := by simp [Ipv6Addr.display, hmapped, ipv4]
  have htext : ip.display ++ rest =
      groupsText 0 [] ++ ':' :: ':' :: (separator 0 ++ hex 0xffff ++ ':' :: (ipv4.display ++ rest)) := by
    have hffff : hex 0xffff = "ffff".toList := by decide
    rw [hdisplay, hffff]
    simp [groupsText, separator]
  have htail : readGroups 0 7 (separator 0 ++ hex 0xffff ++ ':' :: (ipv4.display ++ rest)) =
      ((0xffff :: ip.toList.drop 6, true), rest) := by
    rw [readGroups_cons 0 6 0xffff (noDigit_cons (by decide)) (by simp), readGroups_ipv4 ipv4 4 hrest.noDigit.2, hgroups]
  rw [htext, @readIpv6Addr_colons [] _ _ _ _ (by simp) htail]
  have hlist : [] ++ List.replicate (8 - 0 - (0xffff :: ip.toList.drop 6).length) 0 ++ 0xffff :: ip.toList.drop 6 =
      ip.toList := by
    conv_rhs => rw [← List.take_append_drop 6 ip.toList, hmapped]
    simp [length_toList, List.replicate]
  rw [List.length_nil, hlist, ofGroups_toList]

theorem readIpv6Addr_display (ip : Ipv6Addr) {rest : List Char} (hrest : Closed rest) :
    readIpv6Addr (ip.display ++ rest) = some (ip, rest) := by
  have hlength := length_toList ip
  by_cases hmapped : ip.toList.take 6 = [0, 0, 0, 0, 0, 0xffff]
  · exact readIpv6Addr_mapped hrest hmapped
  simp only [Ipv6Addr.display, if_neg hmapped, fmtSubslice_eq]
  split
  next hlen =>
    have hspan := zeroes_zero ip.toList
    have hsplit := hspan.split
    have hle := hspan.le
    generalize zeroes ip.toList = span at *
    have htake : (ip.toList.take span.start).length = span.start := by simp; omega
    have hdrop : (ip.toList.drop (span.start + span.len)).length = 8 - span.start - span.len := by simp; omega
    have htail := readGroups_text (ip.toList.drop (span.start + span.len)) 0 (8 - ((ip.toList.take span.start).length + 1))
      (by omega) hrest
    have hread := readIpv6Addr_colons (by omega) htail
    rw [htake, hdrop, show 8 - span.start - (8 - span.start - span.len) = span.len by omega, hsplit,
      ofGroups_toList] at hread
    simpa using hread
  next =>
    have hread := readGroups_text ip.toList 0 8 (by omega) hrest
    simp [readIpv6Addr, hread, ofGroups_toList, hlength]

/-- What a text holds of an address. -/
def SocketAddr.written : SocketAddr → SocketAddr
  | .v4 ip port => .v4 ip port
  | .v6 ip port _ scopeId => .v6 ip port 0 scopeId

theorem closed_scopeText (scopeId : UInt32) (s : List Char) : Closed (scopeText scopeId ++ ']' :: s) := by
  unfold scopeText
  split
  · exact Closed.bracket s
  · exact Closed.percent _

theorem readScopeId_scopeText (scopeId : UInt32) (s : List Char) :
    (readScopeId (scopeText scopeId ++ ']' :: s)).getD (0, scopeText scopeId ++ ']' :: s) = (scopeId.toNat, ']' :: s) := by
  have hread : readNumber 10 none true (2 ^ 32) (decimal scopeId.toNat ++ ']' :: s) = some (scopeId.toNat, ']' :: s) :=
    readNumber_toDigits (by decide) (by decide) (by simp) scopeId.toNat_lt (noDigit_cons (by decide))
  unfold scopeText
  split
  next h => simp [readScopeId, readGivenChar, h]
  next => simp only [readScopeId, List.cons_append, readGivenChar, if_true, Option.bind_eq_bind, Option.bind_some, hread,
      Option.getD_some]

theorem parse_display (addr : SocketAddr) : SocketAddr.parse addr.display = some addr.written := by
  cases addr with
  | v4 ip port => exact parse_display_v4 ip port
  | v6 ip port flowinfo scopeId =>
    have hport := readPort_decimal port (noDigit_nil 10)
    rw [List.append_nil] at hport
    have hip := readIpv6Addr_display ip (closed_scopeText scopeId (':' :: decimal port.toNat))
    have hscope := readScopeId_scopeText scopeId (':' :: decimal port.toNat)
    have hv4 (s : List Char) : readSocketAddrV4 ('[' :: s) = none := rfl
    have hv6 : readSocketAddrV6 ('[' :: (ip.display ++ (scopeText scopeId ++ ']' :: ':' :: decimal port.toNat))) =
        some (.v6 ip port 0 scopeId, []) := by
      simp only [readSocketAddrV6, readGivenChar, if_true, Option.bind_eq_bind, Option.bind_some, hip, hscope, hport]
      simp
    simp [SocketAddr.parse, SocketAddr.display, readSocketAddr, hv4, hv6, SocketAddr.written]

/-- No other address is written like an IPv4 one. -/
theorem display_eq_v4_iff {addr : SocketAddr} {ip : Ipv4Addr} {port : UInt16} :
    addr.display = (SocketAddr.v4 ip port).display ↔ addr = .v4 ip port := by
  refine ⟨fun h => ?_, fun h => by rw [h]⟩
  have hparse := congrArg SocketAddr.parse h
  rw [parse_display, parse_display, Option.some.injEq] at hparse
  cases addr with
  | v4 ip' port' => exact hparse
  | v6 ip' port' flowinfo scopeId => cases hparse

theorem parse_eq_none {text : String} {c : Char} (hhead : text.toList.head? = some c)
    (hdigit : toDigit 10 c = none) (hc : c ≠ '[') : SocketAddr.parse text = none := by
  obtain ⟨s, htext⟩ := List.head?_eq_some_iff.1 hhead
  have hoctet : readSeparator '.' 0 readOctet (c :: s) = none := readNumber_of_noDigit (noDigit_cons hdigit)
  simp [SocketAddr.parse, htext, readSocketAddr, readSocketAddrV4, readIpv4Addr, hoctet, readSocketAddrV6, readGivenChar,
    hc]

end Net
