import IotRange.Library.Blocks
import IotRange.Library.Bytes

/-! # Iterated hash functions

A compression function is folded over the full blocks of a message. A message that grows reaches the
next block exactly when its remainder does. HMAC (RFC 2104) is over any hash function and block size.
-/
namespace IotRange.BlockHash
set_option autoImplicit false

universe u v

section Absorb

variable {σ : Type u} {α : Type v} (compress : σ → List α → σ) (size : Nat)

def absorb (s : σ) (msg : List α) : σ :=
  (List.range (msg.length / size)).foldl (fun s k => compress s (block size msg k)) s

variable {size} {s : σ} {msg data : List α}

theorem foldl_block_append {n : Nat} (h : n * size ≤ msg.length) :
    (List.range n).foldl (fun s k => compress s (block size (msg ++ data) k)) s =
      (List.range n).foldl (fun s k => compress s (block size msg k)) s := by
  refine List.foldl_ext _ _ s fun t k hk => ?_
  have hFull : (k + 1) * size ≤ n * size := Nat.mul_le_mul_right size (List.mem_range.mp hk)
  rw [block_append_left (by rw [Nat.succ_mul] at hFull; omega)]

/-- Too short to fill the next block, `data` only extends the remainder. -/
theorem absorb_append_of_lt (h : (remainder size msg).length + data.length < size) :
    absorb compress size s (msg ++ data) = absorb compress size s msg ∧
      remainder size (msg ++ data) = remainder size msg ++ data := by
  rw [length_remainder] at h
  have hSame : (msg ++ data).length / size = msg.length / size := by
    rw [List.length_append, Nat.div_eq_iff (by omega)]
    have := Nat.div_add_mod' msg.length size
    omega
  constructor
  · rw [absorb, hSame]
    exact foldl_block_append compress (Nat.div_mul_le_self _ _)
  · rw [remainder, hSame, remainder_append]

/-- `data` that fills the next block completes it with the remainder. -/
theorem absorb_append_of_eq (hSize : 0 < size) (h : (remainder size msg).length + data.length = size) :
    absorb compress size s (msg ++ data) = compress (absorb compress size s msg) (remainder size msg ++ data) ∧
      remainder size (msg ++ data) = [] := by
  have hRemainder := length_remainder size msg
  have hMod := Nat.div_add_mod' msg.length size
  have hLength : (msg ++ data).length = (msg.length / size + 1) * size := by
    rw [List.length_append, Nat.succ_mul]
    omega
  have hNext : (msg ++ data).length / size = msg.length / size + 1 := by
    rw [hLength, Nat.mul_div_cancel _ hSize]
  have hBlock : block size (msg ++ data) (msg.length / size) = remainder size msg ++ data := by
    rw [block, remainder_append, List.take_of_length_le (by rw [List.length_append]; omega)]
  constructor
  · rw [absorb, hNext, List.range_succ, List.foldl_append, foldl_block_append compress (Nat.div_mul_le_self _ _),
      List.foldl_cons, List.foldl_nil, hBlock]
    rfl
  · rw [← List.length_eq_zero_iff, length_remainder, hLength, Nat.mul_mod_left]

end Absorb

/-! ## HMAC -/

section Hmac

variable (hash : List UInt8 → List UInt8) (size : Nat)

/-- The key, or its digest when it is longer than a block, with zeroes up to a block. -/
def hmacKey (key : List UInt8) : List UInt8 :=
  let k := if size < key.length then hash key else key
  k ++ List.replicate (size - k.length) 0

def xorPad (key : List UInt8) (pad : UInt8) : List UInt8 :=
  List.zipWith (· ^^^ ·) key (List.replicate size pad)

def hmac (key msg : List UInt8) : List UInt8 :=
  let k := hmacKey hash size key
  hash (xorPad size k 0x5C ++ hash (xorPad size k 0x36 ++ msg))

theorem xorPad_eq_map {key : List UInt8} (h : key.length = size) (pad : UInt8) :
    xorPad size key pad = key.map (· ^^^ pad) := by
  subst h
  induction key with
  | nil => rfl
  | cons b key ih => exact congrArg ((b ^^^ pad) :: ·) ih

end Hmac

end IotRange.BlockHash
