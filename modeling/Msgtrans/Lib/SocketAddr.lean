import Mathlib.Data.Fintype.Pi
import Mathlib.Data.List.OfFn

/-!
# Socket addresses and their texts

`parse` and `display` are `FromStr` and `Display` of the standard library's `SocketAddr`. A reader takes
a value off the front of a text; where it finds none, its caller goes on from where it was.
`parse_display_v4`: an IPv4 address is read back from what is written.
-/

namespace Net

structure Ipv4Addr where
  a : UInt8
  b : UInt8
  c : UInt8
  d : UInt8
  deriving DecidableEq, Repr

structure Ipv6Addr where
  segments : Fin 8 → UInt16
  deriving DecidableEq

inductive SocketAddr
  | v4 (ip : Ipv4Addr) (port : UInt16)
  | v6 (ip : Ipv6Addr) (port : UInt16) (flowinfo scopeId : UInt32)
  deriving DecidableEq

def SocketAddr.port : SocketAddr → UInt16
  | .v4 _ port => port
  | .v6 _ port _ _ => port

abbrev Reader (α : Type) := List Char → Option (α × List Char)

def readGivenChar (target : Char) : Reader Unit
  | [] => none
  | c :: s => if c = target then some ((), s) else none

def readSeparator {α : Type} (sep : Char) (index : ℕ) (inner : Reader α) : Reader α := fun s =>
  if index = 0 then inner s else (readGivenChar sep s).bind fun r => inner r.2

/-! ### Numbers -/

/-- `char::to_digit`, in the bases 10 and 16. -/
def toDigit (radix : ℕ) (c : Char) : Option ℕ :=
  let value :=
    if '0' ≤ c ∧ c ≤ '9' then c.toNat - '0'.toNat
    else if 'a' ≤ c ∧ c ≤ 'f' then c.toNat - 'a'.toNat + 10
    else if 'A' ≤ c ∧ c ≤ 'F' then c.toNat - 'A'.toNat + 10
    else radix
  if value < radix then some value else none

def spanDigits (radix : ℕ) : List Char → List ℕ × List Char
  | [] => ([], [])
  | c :: s =>
    match toDigit radix c with
    | some digit => let (digits, rest) := spanDigits radix s; (digit :: digits, rest)
    | none => ([], c :: s)

def digitsValue (radix : ℕ) (digits : List ℕ) : ℕ := digits.foldl (fun n digit => n * radix + digit) 0

/-- Numbers below `bound`, without a limit on the digits where `maxDigits` is `none`. -/
def readNumber (radix : ℕ) (maxDigits : Option ℕ) (allowZeroPrefix : Bool) (bound : ℕ) : Reader ℕ := fun s =>
  let (digits, rest) := spanDigits radix s
  if digits = [] then none
  else if maxDigits.any (· < digits.length) then none
  else if allowZeroPrefix = false ∧ digits.head? = some 0 ∧ 1 < digits.length then none
  else if digitsValue radix digits < bound then some (digitsValue radix digits, rest)
  else none

theorem digitsValue_concat (radix : ℕ) (digits : List ℕ) (d : ℕ) :
    digitsValue radix (digits ++ [d]) = digitsValue radix digits * radix + d := by
  simp [digitsValue, List.foldl_append]

/-- A digit as it is written. -/
theorem toDigit_digitChar {d radix : ℕ} (h : d < radix) (h16 : radix ≤ 16) : toDigit radix d.digitChar = some d := by
  have hall : ∀ d < 16, ∀ radix ≤ 16, d < radix → toDigit radix d.digitChar = some d := by decide
  exact hall d (by omega) radix h16 h

/-- What may follow a number: the digits end there. -/
def NoDigit (radix : ℕ) (rest : List Char) : Prop := ∀ c ∈ rest.head?, toDigit radix c = none

theorem spanDigits_of_noDigit {radix : ℕ} {rest : List Char} (h : NoDigit radix rest) :
    spanDigits radix rest = ([], rest) := by
  cases rest with
  | nil => rfl
  | cons c s => simp [spanDigits, h c rfl]

theorem spanDigits_append {radix : ℕ} {digits : List ℕ} {rest : List Char} (h16 : radix ≤ 16)
    (hd : ∀ d ∈ digits, d < radix) (hr : NoDigit radix rest) :
    spanDigits radix (digits.map Nat.digitChar ++ rest) = (digits, rest) := by
  induction digits with
  | nil => exact spanDigits_of_noDigit hr
  | cons d digits ih =>
    have hdigit := toDigit_digitChar (hd d (by simp)) h16
    simp [spanDigits, hdigit, ih fun x hx => hd x (by simp [hx])]

/-- The digits that are written for `n`, most significant first. -/
theorem exists_digits (radix n : ℕ) (hr : 1 < radix) : ∃ digits : List ℕ,
    Nat.toDigits radix n = digits.map Nat.digitChar ∧ (∀ d ∈ digits, d < radix) ∧ digitsValue radix digits = n ∧
    (digits.head? = some 0 → digits = [0]) := by
  induction n using Nat.strongRecOn with
  | _ n ih =>
    rw [Nat.toDigits_eq_if hr]
    split
    next hn => exact ⟨[n], by simp, by simpa using hn, by simp [digitsValue], by simp⟩
    next hn =>
      obtain ⟨digits, htext, hlt, hvalue, hzero⟩ := ih (n / radix) (Nat.div_lt_self (by omega) hr)
      have hmod : n % radix < radix := Nat.mod_lt n (by omega)
      refine ⟨digits ++ [n % radix], by simp [htext], ?_, ?_, ?_⟩
      · intro d hd
        rcases List.mem_append.1 hd with hd | hd
        · exact hlt d hd
        · exact (List.mem_singleton.1 hd) ▸ hmod
      · rw [digitsValue_concat, hvalue, Nat.div_add_mod']
      · intro h0
        -- a leading zero is the whole number, and the number is not smaller than the base
        have hpos : 0 < n / radix := Nat.div_pos (by omega) (by omega)
        cases digits with
        | nil => simp [digitsValue] at hvalue; omega
        | cons d digits =>
          obtain rfl : d = 0 := by simpa using h0
          rw [hzero rfl] at hvalue
          simp [digitsValue] at hvalue
          omega

theorem readNumber_toDigits {radix n bound : ℕ} {maxDigits : Option ℕ} {z : Bool} {rest : List Char} (hr : 1 < radix)
    (h16 : radix ≤ 16) (hmax : ∀ k ∈ maxDigits, (Nat.toDigits radix n).length ≤ k) (hn : n < bound)
    (hrest : NoDigit radix rest) :
    readNumber radix maxDigits z bound (Nat.toDigits radix n ++ rest) = some (n, rest) := by
  obtain ⟨digits, htext, hlt, hvalue, hzero⟩ := exists_digits radix n hr
  have hne : digits ≠ [] := by
    rintro rfl
    exact Nat.toDigits_ne_nil htext
  have hlen : ¬ maxDigits.any (· < digits.length) := by
    rw [htext, List.length_map] at hmax
    cases maxDigits with
    | none => simp
    | some k => simpa using hmax k rfl
  have hlead : ¬ (z = false ∧ digits.head? = some 0 ∧ 1 < digits.length) := by
    rintro ⟨-, h0, h1⟩
    rw [hzero h0] at h1
    simp at h1
  rw [htext]
  simp only [readNumber, spanDigits_append h16 hlt hrest]
  rw [if_neg hne, if_neg hlen, if_neg hlead, if_pos (by omega), hvalue]

/-! ### Reading addresses -/

/-- One part of a dotted quad: at most three digits and no octal. -/
def readOctet : Reader ℕ := readNumber 10 (some 3) false (2 ^ 8)

def readIpv4Addr : Reader Ipv4Addr := fun s => do
  let (a, s) ← readSeparator '.' 0 readOctet s
  let (b, s) ← readSeparator '.' 1 readOctet s
  let (c, s) ← readSeparator '.' 2 readOctet s
  let (d, s) ← readSeparator '.' 3 readOctet s
  return (⟨.ofNat a, .ofNat b, .ofNat c, .ofNat d⟩, s)

/-- The two groups that an embedded IPv4 address fills. -/
def Ipv4Addr.groups (ip : Ipv4Addr) : List UInt16 :=
  [ip.a.toUInt16 * 256 + ip.b.toUInt16, ip.c.toUInt16 * 256 + ip.d.toUInt16]

def readGroup : Reader ℕ := readNumber 16 (some 4) true (2 ^ 16)

/-- Groups of an IPv6 address, from the one of number `index` on and at most as many as there is room for; whether an
IPv4 address ends them, which takes the room of two. -/
def readGroups (index : ℕ) : ℕ → List Char → (List UInt16 × Bool) × List Char
  | 0, s => (([], false), s)
  | room + 1, s =>
    match if room = 0 then none else readSeparator ':' index readIpv4Addr s with
    | some (ip, s) => ((ip.groups, true), s)
    | none =>
      match readSeparator ':' index readGroup s with
      | some (group, s) =>
        let ((groups, ipv4), s) := readGroups (index + 1) room s
        ((.ofNat group :: groups, ipv4), s)
      | none => (([], false), s)

def Ipv6Addr.ofGroups (groups : List UInt16) : Ipv6Addr := ⟨fun i => groups.getD i 0⟩

def readIpv6Addr : Reader Ipv6Addr := fun s =>
  let ((head, ipv4), s) := readGroups 0 8 s
  if head.length = 8 then some (.ofGroups head, s)
  -- an IPv4 address is not allowed before `::`
  else if ipv4 then none
  else do
    let (_, s) ← readGivenChar ':' s
    let (_, s) ← readGivenChar ':' s
    let ((tail, _), s) := readGroups 0 (8 - (head.length + 1)) s
    return (.ofGroups (head ++ List.replicate (8 - head.length - tail.length) 0 ++ tail), s)

def readPort : Reader ℕ := fun s => do
  let (_, s) ← readGivenChar ':' s
  readNumber 10 none true (2 ^ 16) s

def readScopeId : Reader ℕ := fun s => do
  let (_, s) ← readGivenChar '%' s
  readNumber 10 none true (2 ^ 32) s

def readSocketAddrV4 : Reader SocketAddr := fun s => do
  let (ip, s) ← readIpv4Addr s
  let (port, s) ← readPort s
  return (.v4 ip (.ofNat port), s)

def readSocketAddrV6 : Reader SocketAddr := fun s => do
  let (_, s) ← readGivenChar '[' s
  let (ip, s) ← readIpv6Addr s
  let (scopeId, s) := (readScopeId s).getD (0, s)
  let (_, s) ← readGivenChar ']' s
  let (port, s) ← readPort s
  return (.v6 ip (.ofNat port) 0 (.ofNat scopeId), s)

def readSocketAddr : Reader SocketAddr := fun s => (readSocketAddrV4 s).or (readSocketAddrV6 s)

def SocketAddr.parse (text : String) : Option SocketAddr :=
  match readSocketAddr text.toList with
  | some (addr, []) => some addr
  | _ => none

/-! ### Writing them -/

def decimal (n : ℕ) : List Char := Nat.toDigits 10 n

def Ipv4Addr.display (ip : Ipv4Addr) : List Char :=
  decimal ip.a.toNat ++ '.' :: (decimal ip.b.toNat ++ '.' :: (decimal ip.c.toNat ++ '.' :: decimal ip.d.toNat))

structure Span where
  start : ℕ
  len : ℕ

/-- One more segment: the longest run of zeroes so far, and the one that reaches up to here. -/
def nextSpans : Span × Span → UInt16 × ℕ → Span × Span
  | (longest, current), (segment, i) =>
    if segment = 0 then
      let current : Span := ⟨if current.len = 0 then i else current.start, current.len + 1⟩
      (if current.len > longest.len then current else longest, current)
    else (longest, ⟨0, 0⟩)

def zeroes (segments : List UInt16) : Span := (segments.zipIdx.foldl nextSpans (⟨0, 0⟩, ⟨0, 0⟩)).1

def hex (segment : UInt16) : List Char := Nat.toDigits 16 segment.toNat

def fmtSubslice : List UInt16 → List Char
  | [] => []
  | first :: tail => hex first ++ tail.flatMap fun segment => ':' :: hex segment

def Ipv6Addr.toList (ip : Ipv6Addr) : List UInt16 := List.ofFn ip.segments

def Ipv6Addr.display (ip : Ipv6Addr) : List Char :=
  let segments := ip.toList
  if segments.take 6 = [0, 0, 0, 0, 0, 0xffff] then
    let (ab, cd) := (ip.segments 6, ip.segments 7)
    "::ffff:".toList ++ Ipv4Addr.display ⟨(ab / 256).toUInt8, ab.toUInt8, (cd / 256).toUInt8, cd.toUInt8⟩
  else
    let zeroes := zeroes segments
    if zeroes.len > 1 then
      fmtSubslice (segments.take zeroes.start) ++ "::".toList ++ fmtSubslice (segments.drop (zeroes.start + zeroes.len))
    else fmtSubslice segments

/-- Zero is not written. -/
def scopeText (scopeId : UInt32) : List Char := if scopeId = 0 then [] else '%' :: decimal scopeId.toNat

def SocketAddr.display : SocketAddr → String
  | .v4 ip port => String.ofList (ip.display ++ ':' :: decimal port.toNat)
  | .v6 ip port _ scopeId =>
    String.ofList ('[' :: (ip.display ++ (scopeText scopeId ++ ']' :: ':' :: decimal port.toNat)))

/-! ### Reading back what was written -/

theorem noDigit_nil (radix : ℕ) : NoDigit radix [] := by simp [NoDigit]

theorem noDigit_cons {radix : ℕ} {c : Char} {rest : List Char} (h : toDigit radix c = none) :
    NoDigit radix (c :: rest) := by
  simpa [NoDigit] using h

theorem readOctet_decimal (x : UInt8) {rest : List Char} (hrest : NoDigit 10 rest) :
    readOctet (decimal x.toNat ++ rest) = some (x.toNat, rest) := by
  refine readNumber_toDigits (by decide) (by decide) ?_ x.toNat_lt hrest
  intro k hk
  obtain rfl : 3 = k := Option.some.inj hk
  have hx := x.toNat_lt
  exact (Nat.length_toDigits_le_iff (by decide) (by decide)).2 (by omega)

theorem readIpv4Addr_display (ip : Ipv4Addr) {rest : List Char} (hrest : NoDigit 10 rest) :
    readIpv4Addr (ip.display ++ rest) = some (ip, rest) := by
  have hdot (s : List Char) : NoDigit 10 ('.' :: s) := noDigit_cons (by decide)
  simp only [Ipv4Addr.display, List.append_assoc, List.cons_append]
  simp [readIpv4Addr, readSeparator, readGivenChar, readOctet_decimal, hdot, hrest]

theorem readPort_decimal (port : UInt16) {rest : List Char} (hrest : NoDigit 10 rest) :
    readPort (':' :: (decimal port.toNat ++ rest)) = some (port.toNat, rest) := by
  simp only [readPort, readGivenChar, if_true, Option.bind_eq_bind, Option.bind_some]
  exact readNumber_toDigits (by decide) (by decide) (by simp) port.toNat_lt hrest

theorem parse_display_v4 (ip : Ipv4Addr) (port : UInt16) :
    SocketAddr.parse (SocketAddr.v4 ip port).display = some (.v4 ip port) := by
  have hport := readPort_decimal port (noDigit_nil 10)
  have hip : readIpv4Addr (ip.display ++ ':' :: decimal port.toNat) = some (ip, ':' :: decimal port.toNat) :=
    readIpv4Addr_display ip (noDigit_cons (by decide))
  rw [List.append_nil] at hport
  simp [SocketAddr.parse, SocketAddr.display, readSocketAddr, readSocketAddrV4, hip, hport]

end Net
