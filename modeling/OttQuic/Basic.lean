import Mathlib.Algebra.Order.Ring.Int
import Mathlib.Data.List.Basic

/-!
# Buffers

A C buffer is the list of its bytes. A `Payload` is a buffer passed with a `uint32_t` length: its
bytes are fewer than `2^32`, so `length` is their exact number.
-/

namespace OttQuic

abbrev Bytes := List UInt8

/-- A buffer and its `uint32_t` length. -/
@[ext] structure Payload where
  bytes : Bytes
  fits : bytes.length < 2 ^ 32
  deriving DecidableEq

namespace Payload

/-- No bytes, the `NULL` payload of length 0. -/
def empty : Payload := ⟨[], Nat.two_pow_pos 32⟩

/-- The length as the code passes it. -/
def length (p : Payload) : UInt32 := UInt32.ofNat p.bytes.length

@[simp] theorem length_toNat (p : Payload) : p.length.toNat = p.bytes.length := by
  rw [length, UInt32.toNat_ofNat', Nat.mod_eq_of_lt p.fits]

theorem length_eq_zero {p : Payload} : p.length = 0 ↔ p.bytes = [] := by
  rw [← List.length_eq_zero_iff, ← length_toNat, ← UInt32.toNat_inj]
  simp

/-- What is left of the buffer after its first `n` bytes (`memmove` to the front). -/
def drop (p : Payload) (n : Nat) : Payload :=
  ⟨p.bytes.drop n, Nat.lt_of_le_of_lt (by simp) p.fits⟩

@[simp] theorem drop_bytes (p : Payload) (n : Nat) : (p.drop n).bytes = p.bytes.drop n := rfl

end Payload

theorem toNat_add_ofNat {a : UInt32} {n : Nat} (h : a.toNat + n < 2 ^ 32) :
    (a + UInt32.ofNat n).toNat = a.toNat + n := by
  rw [UInt32.toNat_add, UInt32.toNat_ofNat']
  omega

end OttQuic
