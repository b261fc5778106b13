import Mathlib.Algebra.Order.Ring.Nat
import Mathlib.Data.List.Basic
import Mathlib.Tactic.Ring

/-!
# Numbers in network byte order

`bigEndian k n` is the number `n` in `k` bytes, the most significant one first, and `ofBigEndian` reads
such bytes. The two are inverse to each other on numbers that fit.
-/

namespace BigEndian

def bigEndian : Nat → Nat → List UInt8
  | 0, _ => []
  | k + 1, n => UInt8.ofNat (n / 256 ^ k) :: bigEndian k n

def ofBigEndian : List UInt8 → Nat
  | [] => 0
  | b :: bs => b.toNat * 256 ^ bs.length + ofBigEndian bs

variable {k n : Nat}

@[simp] theorem bigEndian_length (k n : Nat) : (bigEndian k n).length = k := by
  induction k with
  | zero => rfl
  | succ k ih => rw [bigEndian, List.length_cons, ih]

theorem ofBigEndian_lt (bs : List UInt8) : ofBigEndian bs < 256 ^ bs.length := by
  induction bs with
  | nil => exact Nat.one_pos
  | cons b bs ih =>
      have hb : b.toNat + 1 ≤ 256 := b.toNat_lt
      rw [ofBigEndian, List.length_cons, Nat.pow_succ, Nat.mul_comm (256 ^ bs.length)]
      calc b.toNat * 256 ^ bs.length + ofBigEndian bs
          < (b.toNat + 1) * 256 ^ bs.length := by
            rw [Nat.add_mul]
            omega
        _ ≤ 256 * 256 ^ bs.length := Nat.mul_le_mul_right _ hb

theorem ofBigEndian_bigEndian_mod (k n : Nat) : ofBigEndian (bigEndian k n) = n % 256 ^ k := by
  induction k with
  | zero => simp [bigEndian, ofBigEndian, Nat.mod_one]
  | succ k ih =>
      have hsplit : n % 256 ^ (k + 1) = n % 256 ^ k + 256 ^ k * (n / 256 ^ k % 256) := by
        rw [Nat.pow_succ, Nat.mod_mul]
      rw [bigEndian, ofBigEndian, bigEndian_length, ih, UInt8.toNat_ofNat', hsplit, Nat.mul_comm,
        Nat.add_comm]

theorem ofBigEndian_bigEndian (h : n < 256 ^ k) : ofBigEndian (bigEndian k n) = n := by
  rw [ofBigEndian_bigEndian_mod, Nat.mod_eq_of_lt h]

theorem bigEndian_add_mul (k n m : Nat) : bigEndian k (m * 256 ^ k + n) = bigEndian k n := by
  induction k generalizing m with
  | zero => rfl
  | succ k ih =>
      have hpow : m * 256 ^ (k + 1) = 256 ^ k * (m * 256) := by ring
      have hhead : UInt8.ofNat ((256 ^ k * (m * 256) + n) / 256 ^ k) = UInt8.ofNat (n / 256 ^ k) := by
        apply UInt8.toNat_inj.mp
        rw [Nat.mul_add_div (Nat.pow_pos (by decide)), UInt8.toNat_ofNat', UInt8.toNat_ofNat',
          Nat.mul_add_mod_self_right]
      rw [bigEndian, bigEndian, hpow, hhead, Nat.mul_comm, ih]

theorem bigEndian_ofBigEndian (bs : List UInt8) : bigEndian bs.length (ofBigEndian bs) = bs := by
  induction bs with
  | nil => rfl
  | cons b bs ih =>
      have hlt := ofBigEndian_lt bs
      have hpos : 0 < 256 ^ bs.length := Nat.pow_pos (by decide)
      rw [List.length_cons, bigEndian, ofBigEndian, bigEndian_add_mul, ih, Nat.mul_comm,
        Nat.mul_add_div hpos, Nat.div_eq_of_lt hlt, Nat.add_zero, UInt8.ofNat_toNat]

end BigEndian
