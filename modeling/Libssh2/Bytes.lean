import Mathlib.Data.Nat.Digits

namespace Libssh2

-- The contents of a CFData, of a CSSM_DATA or of a malloced block.
abbrev Bytes := List UInt8

theorem UInt8.ofNat_toNat (b : UInt8) : UInt8.ofNat b.toNat = b :=
  UInt8.toNat.inj (UInt8.toNat_ofNat_of_lt b.toNat_lt_size)

theorem UInt8.toNat_eq_zero {b : UInt8} : b.toNat = 0 ↔ b = 0 :=
  ⟨fun h => UInt8.toNat.inj (by simpa using h), fun h => by simp [h]⟩

section BigEndian

-- The value of a big-endian unsigned integer.
def bytesToNat (bs : Bytes) : Nat := Nat.ofDigits 256 (bs.reverse.map UInt8.toNat)

-- The minimal big-endian bytes of a number: no leading zero byte, and none at all for zero.
def natToBytes (n : Nat) : Bytes := ((Nat.digits 256 n).map UInt8.ofNat).reverse

theorem toNat_lt_of_mem {bs : Bytes} : ∀ d ∈ bs.map UInt8.toNat, d < 256 := by
  simp only [List.mem_map]
  rintro d ⟨b, -, rfl⟩
  exact b.toNat_lt_size

@[simp] theorem bytesToNat_nil : bytesToNat [] = 0 := rfl

theorem bytesToNat_cons (b : UInt8) (bs : Bytes) :
    bytesToNat (b :: bs) = b.toNat * 256 ^ bs.length + bytesToNat bs := by
  simp [bytesToNat, Nat.ofDigits_append, Nat.ofDigits_singleton]
  ring

@[simp] theorem bytesToNat_zero_cons (bs : Bytes) : bytesToNat (0 :: bs) = bytesToNat bs := by
  simp [bytesToNat_cons]

@[simp] theorem bytesToNat_replicate_zero_append (k : Nat) (bs : Bytes) :
    bytesToNat (List.replicate k 0 ++ bs) = bytesToNat bs := by
  induction k with
  | zero => rfl
  | succ k ih => simpa [List.replicate_succ] using ih

theorem bytesToNat_lt (bs : Bytes) : bytesToNat bs < 256 ^ bs.length := by
  have h := Nat.ofDigits_lt_base_pow_length (b := 256) (l := bs.reverse.map UInt8.toNat)
    (by norm_num) toNat_lt_of_mem
  simpa [bytesToNat] using h

@[simp] theorem bytesToNat_natToBytes (n : Nat) : bytesToNat (natToBytes n) = n := by
  have h : ∀ d ∈ Nat.digits 256 n, (UInt8.toNat ∘ UInt8.ofNat) d = id d := fun d hd =>
    UInt8.toNat_ofNat_of_lt (Nat.digits_lt_base (by norm_num) hd)
  simp only [bytesToNat, natToBytes, List.reverse_reverse, List.map_map]
  rw [List.map_congr_left (g := id) h, List.map_id, Nat.ofDigits_digits]

-- Bytes without a leading zero are the minimal bytes of their value.
theorem natToBytes_bytesToNat {b : UInt8} (hb : b ≠ 0) (bs : Bytes) :
    natToBytes (bytesToNat (b :: bs)) = b :: bs := by
  have hlast : ∀ h, ((b :: bs).reverse.map UInt8.toNat).getLast h ≠ 0 := by
    simpa [List.getLast_map] using fun h => hb (UInt8.toNat_eq_zero.mp h)
  rw [natToBytes, bytesToNat, Nat.digits_ofDigits 256 (by norm_num) _
    toNat_lt_of_mem hlast]
  simp [List.map_reverse, Function.comp_def, UInt8.ofNat_toNat]

theorem natToBytes_zero : natToBytes 0 = [] := by simp [natToBytes]

-- A positive number's minimal bytes start with a nonzero byte.
theorem natToBytes_cons {n : Nat} (hn : 0 < n) :
    ∃ b bs, b ≠ 0 ∧ natToBytes n = b :: bs := by
  obtain h | ⟨ds, d, hd⟩ := List.eq_nil_or_concat (Nat.digits 256 n)
  · exact absurd (Nat.digits_eq_nil_iff_eq_zero.mp h) hn.ne'
  have hlast : d ≠ 0 := by
    simpa [hd] using Nat.getLast_digit_ne_zero 256 hn.ne'
  have hlt : d < 256 := Nat.digits_lt_base (by norm_num) (by rw [hd]; simp)
  refine ⟨UInt8.ofNat d, (ds.map UInt8.ofNat).reverse, fun h => hlast ?_, by simp [natToBytes, hd, List.concat_eq_append]⟩
  simpa [UInt8.toNat_ofNat_of_lt hlt] using congrArg UInt8.toNat h

-- The minimal bytes fit in `k` bytes exactly when the number is below `256 ^ k`.
theorem natToBytes_length_le_iff (n k : Nat) : (natToBytes n).length ≤ k ↔ n < 256 ^ k := by
  have hlen : (natToBytes n).length = (Nat.digits 256 n).length := by simp [natToBytes]
  constructor
  · intro h
    calc n = bytesToNat (natToBytes n) := (bytesToNat_natToBytes n).symm
      _ < 256 ^ (natToBytes n).length := bytesToNat_lt _
      _ ≤ 256 ^ k := Nat.pow_le_pow_right (by norm_num) h
  · intro h
    rcases Nat.eq_zero_or_pos n with rfl | hn
    · simp [natToBytes_zero]
    have hle := Nat.base_pow_length_digits_le 256 n (by norm_num) hn.ne'
    rw [← hlen] at hle
    by_contra hk
    have : 256 ^ (k + 1) ≤ 256 ^ (natToBytes n).length :=
      Nat.pow_le_pow_right (by norm_num) (by omega)
    rw [pow_succ] at this
    omega

-- `n` as exactly `k` big-endian bytes, zero-padded on the left.
def natToFixedBytes (k n : Nat) : Bytes :=
  List.replicate (k - (natToBytes n).length) 0 ++ natToBytes n

theorem natToFixedBytes_length {k n : Nat} (h : n < 256 ^ k) : (natToFixedBytes k n).length = k := by
  have := (natToBytes_length_le_iff n k).mpr h
  simp [natToFixedBytes]
  omega

@[simp] theorem bytesToNat_natToFixedBytes (k n : Nat) : bytesToNat (natToFixedBytes k n) = n := by
  simp [natToFixedBytes]

end BigEndian

-- A `uint32_t` in network byte order, as `htonl` leaves it in memory: the low 32 bits of `n`.
def u32be (n : Nat) : Bytes :=
  [n / 2 ^ 24 % 256, n / 2 ^ 16 % 256, n / 2 ^ 8 % 256, n % 256].map UInt8.ofNat

-- Only the low 32 bits are written (4294967296 is 2 ^ 32, as simp writes it).
@[simp] theorem u32be_mod (n : Nat) : u32be (n % 4294967296) = u32be n := by
  simp only [u32be, List.map_cons, List.map_nil, List.cons.injEq, and_true]
  refine ⟨?_, ?_, ?_, ?_⟩ <;> congr 1 <;> omega

@[simp] theorem u32be_length (n : Nat) : (u32be n).length = 4 := rfl

theorem bytesToNat_u32be {n : Nat} (h : n < 2 ^ 32) : bytesToNat (u32be n) = n := by
  have hb : ∀ x, (UInt8.ofNat (x % 256)).toNat = x % 256 := fun x =>
    UInt8.toNat_ofNat_of_lt (Nat.mod_lt _ (by norm_num))
  simp only [u32be, List.map_cons, List.map_nil, bytesToNat_cons, List.length_cons,
    List.length_nil, bytesToNat_nil, hb]
  omega

-- The bytes of an ASCII string literal.
def asciiBytes (s : String) : Bytes := s.toList.map fun c => UInt8.ofNat c.toNat

end Libssh2
