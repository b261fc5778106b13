import Mathlib.Algebra.Order.Ring.Nat
import Mathlib.Data.List.Basic

/-!
# Hashing block by block

A hash function over a message whose length is a multiple of the block size folds a compression function over the
blocks. `absorb` does so one element at a time: it collects a block and compresses it when it is full. `Absorbed` is
what a stream knows of the message it has been given, and `Absorbed.absorb` keeps it from one element to the next.
-/

namespace BlockHash

variable {α σ : Type*}

/-- The whole blocks of a message. -/
def blocks (size : Nat) (message : List α) : List (List α) :=
  (List.range (message.length / size)).map fun i => (message.drop (i * size)).take size

/-- The compression function over the whole blocks. -/
def hashBlocks (compress : σ → List α → σ) (size : Nat) (init : σ) (message : List α) : σ :=
  (blocks size message).foldl compress init

/-- A state and the elements that do not fill a block yet. -/
structure Stream (σ α : Type*) where
  state : σ
  buffer : List α

/-- The next element. -/
def absorb (compress : σ → List α → σ) (size : Nat) (s : Stream σ α) (c : α) : Stream σ α :=
  let buffer := s.buffer ++ [c]
  if buffer.length = size then ⟨compress s.state buffer, []⟩ else ⟨s.state, buffer⟩

section

variable {size : Nat} {a b message : List α} {c : α} {s : Stream σ α} {init : σ} {compress : σ → List α → σ}

/-! ### Blocks -/

@[simp] theorem blocks_nil : blocks size ([] : List α) = [] := by simp [blocks]

theorem blocks_block (hsize : 0 < size) (ha : a.length = size) : blocks size a = [a] := by
  rw [blocks, ha, Nat.div_self hsize]
  simp [List.take_of_length_le ha.le]

theorem blocks_append (hsize : 0 < size) (ha : size ∣ a.length) :
    blocks size (a ++ b) = blocks size a ++ blocks size b := by
  obtain ⟨n, hn⟩ := ha
  have hcount : (a ++ b).length / size = n + b.length / size := by
    rw [List.length_append, hn, Nat.mul_add_div hsize]
  rw [blocks, blocks, blocks, hcount, hn, Nat.mul_div_cancel_left n hsize, List.range_add, List.map_append,
    List.map_map]
  refine congrArg₂ _ (List.map_congr_left fun i hi => ?_) (List.map_congr_left fun i _ => ?_)
  · -- the block lies in `a`
    have hend : (i + 1) * size ≤ a.length := by
      rw [hn, Nat.mul_comm]
      exact Nat.mul_le_mul_left size (List.mem_range.mp hi)
    rw [Nat.succ_mul] at hend
    rw [List.drop_append_of_le_length (by omega), List.take_append_of_le_length (by rw [List.length_drop]; omega)]
  · have hstart : (n + i) * size = a.length + i * size := by rw [hn, Nat.add_mul, Nat.mul_comm n]
    rw [Function.comp_apply, hstart, List.drop_length_add_append]

theorem hashBlocks_append (hsize : 0 < size) (ha : size ∣ a.length) :
    hashBlocks compress size init (a ++ b) = hashBlocks compress size (hashBlocks compress size init a) b := by
  rw [hashBlocks, blocks_append hsize ha, List.foldl_append]
  rfl

theorem hashBlocks_block (hsize : 0 < size) (ha : a.length = size) :
    hashBlocks compress size init a = compress init a := by
  rw [hashBlocks, blocks_block hsize ha]
  rfl

/-! ### Streams -/

/-- The stream has been given the message: it has hashed the whole blocks and holds the rest. -/
structure Absorbed (compress : σ → List α → σ) (size : Nat) (init : σ) (message : List α) (s : Stream σ α) : Prop where
  split : ∃ whole, message = whole ++ s.buffer ∧ size ∣ whole.length ∧ s.state = hashBlocks compress size init whole
  room : s.buffer.length < size

theorem absorbed_nil (hsize : 0 < size) : Absorbed compress size init [] ⟨init, []⟩ :=
  ⟨⟨[], rfl, ⟨0, rfl⟩, by simp [hashBlocks]⟩, hsize⟩

theorem Absorbed.absorb (h : Absorbed compress size init message s) :
    Absorbed compress size init (message ++ [c]) (absorb compress size s c) := by
  obtain ⟨⟨whole, rfl, hwhole, hstate⟩, hroom⟩ := h
  have hsize := Nat.zero_lt_of_lt hroom
  rw [BlockHash.absorb]
  split_ifs with hfull
  · refine ⟨⟨whole ++ (s.buffer ++ [c]), by simp, ?_, ?_⟩, hsize⟩
    · rw [List.length_append, hfull]
      exact Nat.dvd_add_self_right.mpr hwhole
    · rw [hashBlocks_append hsize hwhole, hashBlocks_block hsize hfull, hstate]
  · refine ⟨⟨whole, by simp, hwhole, hstate⟩, ?_⟩
    rw [List.length_append, List.length_singleton] at hfull ⊢
    omega

theorem Absorbed.hashBlocks_append (h : Absorbed compress size init message s) (tail : List α) :
    hashBlocks compress size init (message ++ tail) = hashBlocks compress size s.state (s.buffer ++ tail) := by
  obtain ⟨⟨whole, rfl, hwhole, hstate⟩, hroom⟩ := h
  rw [List.append_assoc, BlockHash.hashBlocks_append (Nat.zero_lt_of_lt hroom) hwhole, hstate]

end

end BlockHash
