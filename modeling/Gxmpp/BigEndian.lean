/-
The bytes of a number, the highest of them first.

`encode` gives as many bytes as are asked for, and what is above them is lost (`decode_encode`);
bytes are those of their number (`encode_decode`).
-/
import Mathlib.Algebra.Group.Nat.Defs

set_option autoImplicit false

namespace BigEndian

/-- The lowest `w` bytes of a number, the highest of them first. -/
def encode : ℕ → ℕ → List UInt8
  | 0, _ => []
  | w + 1, v => UInt8.ofNat (v / 2 ^ (8 * w)) :: encode w v

/-- The number of some bytes, the highest first. -/
def decode : List UInt8 → ℕ
  | [] => 0
  | b :: s => b.toNat * 2 ^ (8 * s.length) + decode s

@[simp] theorem length_encode (w v : ℕ) : (encode w v).length = w := by
  induction w with
  | zero => rfl
  | succ w ih => rw [encode, List.length_cons, ih]

theorem decode_lt (s : List UInt8) : decode s < 2 ^ (8 * s.length) := by
  induction s with
  | nil => exact Nat.one_pos
  | cons b s ih =>
    rw [decode, List.length_cons, Nat.mul_succ, Nat.add_comm (8 * s.length) 8, Nat.pow_add]
    have hb := b.toNat_lt
    calc b.toNat * 2 ^ (8 * s.length) + decode s
        < b.toNat * 2 ^ (8 * s.length) + 2 ^ (8 * s.length) := Nat.add_lt_add_left ih _
      _ = (b.toNat + 1) * 2 ^ (8 * s.length) := (Nat.succ_mul _ _).symm
      _ ≤ 2 ^ 8 * 2 ^ (8 * s.length) := Nat.mul_le_mul_right _ hb

/-- The bytes of a number are read as the number, as far as they go. -/
theorem decode_encode (w v : ℕ) : decode (encode w v) = v % 2 ^ (8 * w) := by
  induction w with
  | zero => simp [encode, decode, Nat.mod_one]
  | succ w ih =>
    rw [encode, decode, ih, length_encode, UInt8.toNat_ofNat', Nat.mul_succ,
      Nat.pow_add, Nat.mod_mul, Nat.mul_comm, Nat.add_comm]

/-- Bytes are those of their number, whatever is above it. -/
theorem encode_add (s : List UInt8) (k : ℕ) :
    encode s.length (k * 2 ^ (8 * s.length) + decode s) = s := by
  induction s generalizing k with
  | nil => rfl
  | cons b s ih =>
    have hsum : k * 2 ^ (8 * (b :: s).length) + decode (b :: s)
        = (k * 2 ^ 8 + b.toNat) * 2 ^ (8 * s.length) + decode s := by
      rw [decode, List.length_cons, Nat.mul_succ, Nat.add_comm (8 * s.length) 8,
        Nat.pow_add, ← Nat.mul_assoc, ← Nat.add_assoc, ← Nat.add_mul]
    have hquot : ((k * 2 ^ 8 + b.toNat) * 2 ^ (8 * s.length) + decode s)
        / 2 ^ (8 * s.length) = k * 2 ^ 8 + b.toNat := by
      rw [Nat.mul_comm, Nat.mul_add_div (Nat.two_pow_pos _),
        Nat.div_eq_of_lt (decode_lt s), Nat.add_zero]
    have hbyte : UInt8.ofNat (k * 2 ^ 8 + b.toNat) = b := by
      apply UInt8.toNat_inj.1
      rw [UInt8.toNat_ofNat', Nat.add_comm, Nat.add_mul_mod_self_right,
        Nat.mod_eq_of_lt b.toNat_lt]
    rw [hsum, List.length_cons, encode, hquot, hbyte, ih]

theorem encode_decode (s : List UInt8) : encode s.length (decode s) = s := by
  have hzero := encode_add s 0
  rwa [Nat.zero_mul, Nat.zero_add] at hzero

end BigEndian
