import Mathlib.Data.List.Basic

/-! # Lists in blocks

A list is cut into blocks of one size; the last one may be shorter.
-/
namespace IotRange
set_option autoImplicit false

universe u

section Block

variable {α : Type u} {size k : Nat} {xs : List α}

def block (size : Nat) (xs : List α) (k : Nat) : List α := (xs.drop (k * size)).take size

theorem length_block (size : Nat) (xs : List α) (k : Nat) :
    (block size xs k).length = min size (xs.length - k * size) := by
  rw [block, List.length_take, List.length_drop]

theorem getElem?_block {i : Nat} (hFrom : k * size ≤ i) (hTo : i < k * size + size) :
    (block size xs k)[i - k * size]? = xs[i]? := by
  rw [block, List.getElem?_take_of_lt (by omega), List.getElem?_drop, Nat.add_sub_cancel' hFrom]

/-- A full block stays what it is when more follows. -/
theorem block_append_left (h : k * size + size ≤ xs.length) (ys : List α) :
    block size (xs ++ ys) k = block size xs k := by
  rw [block, block, List.drop_append_of_le_length (by omega),
    List.take_append_of_le_length (by rw [List.length_drop]; omega)]

theorem flatMap_block (size : Nat) (xs : List α) (n : Nat) :
    (List.range n).flatMap (block size xs) = xs.take (n * size) := by
  induction n with
  | zero => rw [Nat.zero_mul, List.take_zero, List.range_zero, List.flatMap_nil]
  | succ n ih =>
    rw [List.range_succ, List.flatMap_append, ih, List.flatMap_singleton, block, Nat.succ_mul, ← List.take_add]

/-- The blocks that it takes to cover a list. -/
theorem flatMap_block_of_le {n : Nat} (h : xs.length ≤ n * size) : (List.range n).flatMap (block size xs) = xs := by
  rw [flatMap_block, List.take_of_length_le h]

/-- The full blocks end here. -/
def remainder (size : Nat) (xs : List α) : List α := xs.drop (xs.length / size * size)

theorem length_remainder (size : Nat) (xs : List α) : (remainder size xs).length = xs.length % size := by
  have := Nat.div_add_mod xs.length size
  rw [remainder, List.length_drop, Nat.mul_comm]
  omega

theorem remainder_append (size : Nat) (xs ys : List α) :
    (xs ++ ys).drop (xs.length / size * size) = remainder size xs ++ ys :=
  List.drop_append_of_le_length (Nat.div_mul_le_self _ _)

end Block

end IotRange
