import Mathlib.Data.Nat.Digits.Lemmas

/-!
# Fixed-width big-endian numerals

`encode k n` writes `n` in `k` bytes, most significant first; `decode` reads any byte string. The
digits are Mathlib's `Nat.digitsAppend` and `Nat.ofDigits` in base 256.
-/

namespace BigEndian

variable {k n : ℕ} {bs : List UInt8}

def encode (k n : ℕ) : List UInt8 := ((Nat.digitsAppend 256 k n).map UInt8.ofNat).reverse

def decode (bs : List UInt8) : ℕ := Nat.ofDigits 256 (bs.reverse.map UInt8.toNat)

theorem mem_digits_lt {d : ℕ} (hd : d ∈ bs.map UInt8.toNat) : d < 256 := by
  obtain ⟨b, -, rfl⟩ := List.mem_map.1 hd
  exact b.toNat_lt

theorem length_encode (h : n < 256 ^ k) : (encode k n).length = k := by
  rw [encode, List.length_reverse, List.length_map, Nat.length_digitsAppend (by decide) k h]

theorem decode_lt : decode bs < 256 ^ bs.length := by
  have := Nat.ofDigits_lt_base_pow_length (b := 256) (l := bs.reverse.map UInt8.toNat) (by decide)
    fun _ => mem_digits_lt
  rwa [List.length_map, List.length_reverse] at this

theorem decode_encode : decode (encode k n) = n := by
  have hmap : ((Nat.digitsAppend 256 k n).map UInt8.ofNat).map UInt8.toNat =
      Nat.digitsAppend 256 k n := by
    rw [List.map_map]
    refine (List.map_congr_left fun d hd => ?_).trans (List.map_id _)
    exact UInt8.toNat_ofNat_of_lt (Nat.lt_of_mem_digitsAppend (by decide) k d hd)
  rw [decode, encode, List.reverse_reverse, hmap, Nat.digitsAppend, Nat.ofDigits_append_replicate_zero,
    Nat.ofDigits_digits]

theorem encode_decode (hk : bs.length = k) : encode k (decode bs) = bs := by
  have hdig := (Nat.setInvOn_digitsAppend_ofDigits (b := 256) (by decide) k).1
    (x := bs.reverse.map UInt8.toNat) ⟨by simp [hk], fun _ => mem_digits_lt⟩
  rw [encode, decode, hdig, List.map_map, ← List.map_reverse, List.reverse_reverse]
  refine (List.map_congr_left fun b _ => ?_).trans (List.map_id _)
  exact UInt8.ofNat_toNat

end BigEndian
