import Mathlib.Data.List.GetD
import Mathlib.Data.Vector.Basic

/-! # Byte strings, fixed-width words and bounds-checked reads

A pointer with a length is a list of bytes, a fixed-size array is a `Bytes n`.
Reads come in two forms: `byteAt` for positions that an earlier check keeps in range,
and `readAt`/`readRange`, which report the first position outside the string.
-/
namespace IotRange
set_option autoImplicit false

abbrev Bytes (n : Nat) := List.Vector UInt8 n

def byteAt (bytes : List UInt8) (i : Nat) : UInt8 := bytes.getD i 0

@[simp] theorem byteAt_zero (b : UInt8) (bytes : List UInt8) : byteAt (b :: bytes) 0 = b := rfl

@[simp] theorem byteAt_succ (b : UInt8) (bytes : List UInt8) (i : Nat) :
    byteAt (b :: bytes) (i + 1) = byteAt bytes i := rfl

theorem byteAt_take {bytes : List UInt8} {n i : Nat} (h : i < n) : byteAt (bytes.take n) i = byteAt bytes i := by
  simp [byteAt, List.getD_eq_getElem?_getD, h]

theorem byteAt_drop (bytes : List UInt8) (n i : Nat) : byteAt (bytes.drop n) i = byteAt bytes (n + i) := by
  simp [byteAt, List.getD_eq_getElem?_getD]

theorem byteAt_append_left {bytes : List UInt8} {i : Nat} (h : i < bytes.length) (rest : List UInt8) :
    byteAt (bytes ++ rest) i = byteAt bytes i := by
  simp [byteAt, List.getD_eq_getElem?_getD, List.getElem?_append_left h]

theorem drop_eq_cons {bytes : List UInt8} {n : Nat} (h : n < bytes.length) :
    bytes.drop n = byteAt bytes n :: bytes.drop (n + 1) := by
  rw [List.drop_eq_getElem_cons h, byteAt, List.getD_eq_getElem bytes 0 h]

theorem take_one_eq_iff {bytes : List UInt8} {a : UInt8} :
    bytes.take 1 = [a] ↔ ¬ bytes.length < 1 ∧ byteAt bytes 0 = a := by
  match bytes with
  | [] => simp
  | _ :: _ => simp

theorem take_two_eq_iff {bytes : List UInt8} {a b : UInt8} :
    bytes.take 2 = [a, b] ↔ ¬ bytes.length < 2 ∧ byteAt bytes 0 = a ∧ byteAt bytes 1 = b := by
  match bytes with
  | [] | [_] => simp
  | _ :: _ :: _ => simp

theorem length_take_toNat_lt (bytes : List UInt8) (n : UInt8) : (bytes.take n.toNat).length < 256 :=
  Nat.lt_of_le_of_lt (List.length_take_le _ _) n.toNat_lt

/-- A pointer with a `uint16_t` length. -/
structure Payload where
  bytes : List UInt8
  length_lt : bytes.length < 2 ^ 16
  deriving DecidableEq

def Payload.drop (p : Payload) (n : Nat) : Payload :=
  ⟨p.bytes.drop n, by have := p.length_lt; simp only [List.length_drop]; omega⟩

def ascii (chars : List Char) : List UInt8 := chars.map fun c => UInt8.ofNat c.toNat

/-! ## Writes -/

/-- `memcpy(buf + offset, data, length of data)`. -/
def writeAt (buf : List UInt8) (offset : Nat) (data : List UInt8) : List UInt8 :=
  buf.take offset ++ data ++ buf.drop (offset + data.length)

theorem length_writeAt {buf data : List UInt8} {offset : Nat} (h : offset + data.length ≤ buf.length) :
    (writeAt buf offset data).length = buf.length := by
  simp only [writeAt, List.length_append, List.length_take, List.length_drop]
  omega

theorem drop_writeAt {buf data : List UInt8} {offset : Nat} (h : offset ≤ buf.length) :
    (writeAt buf offset data).drop offset = data ++ buf.drop (offset + data.length) := by
  have hTake : (buf.take offset).length = offset := by simp [h]
  rw [writeAt, List.append_assoc]
  conv_lhs => rw [← hTake]
  simp [hTake]

/-- Two writes, one right behind the other. -/
theorem writeAt_writeAt {buf data more : List UInt8} {offset : Nat} (h : offset + data.length ≤ buf.length) :
    writeAt (writeAt buf offset data) (offset + data.length) more = writeAt buf offset (data ++ more) := by
  have hFront : (buf.take offset ++ data).length = offset + data.length := by
    rw [List.length_append, List.length_take, Nat.min_eq_left (by omega)]
  have hTake : (writeAt buf offset data).take (offset + data.length) = buf.take offset ++ data := by
    rw [writeAt, ← hFront, List.take_left]
  have hDrop : (writeAt buf offset data).drop (offset + data.length + more.length) =
      buf.drop (offset + (data ++ more).length) := by
    rw [writeAt, ← List.drop_drop, ← hFront, List.drop_left, List.drop_drop, hFront, List.length_append, Nat.add_assoc]
  rw [writeAt, hTake, hDrop, writeAt, List.append_assoc (buf.take offset)]

theorem writeAt_nil (buf : List UInt8) (offset : Nat) : writeAt buf offset [] = buf := by
  rw [writeAt, List.append_nil, List.length_nil, Nat.add_zero, List.take_append_drop]

theorem writeAt_zero (buf data : List UInt8) : writeAt buf 0 data = data ++ buf.drop data.length := by
  rw [writeAt, List.take_zero, List.nil_append, Nat.zero_add]

def Bytes.write {n : Nat} (buf : Bytes n) (offset : Nat) (data : List UInt8)
    (h : offset + data.length ≤ n) : Bytes n :=
  ⟨writeAt buf.toList offset data, by rw [length_writeAt (by simpa using h), buf.toList_length]⟩

@[simp] theorem Bytes.toList_write {n : Nat} (buf : Bytes n) (offset : Nat) (data : List UInt8)
    (h : offset + data.length ≤ n) : (buf.write offset data h).toList = writeAt buf.toList offset data := rfl

/-! ## Big-endian words -/

def be16 (v : UInt16) : List UInt8 := [(v >>> 8).toUInt8, v.toUInt8]

def be32 (v : UInt32) : List UInt8 :=
  [(v >>> 24).toUInt8, (v >>> 16).toUInt8, (v >>> 8).toUInt8, v.toUInt8]

def readBe16 (bytes : List UInt8) : UInt16 :=
  (byteAt bytes 0).toUInt16 <<< 8 ||| (byteAt bytes 1).toUInt16

def readBe32 (bytes : List UInt8) : UInt32 :=
  (byteAt bytes 0).toUInt32 <<< 24 ||| (byteAt bytes 1).toUInt32 <<< 16 |||
    (byteAt bytes 2).toUInt32 <<< 8 ||| (byteAt bytes 3).toUInt32

theorem readBe16_take {n : Nat} (h : 2 ≤ n) (bytes : List UInt8) : readBe16 (bytes.take n) = readBe16 bytes := by
  rw [readBe16, readBe16, byteAt_take (by omega), byteAt_take (by omega)]

theorem readBe32_take {n : Nat} (h : 4 ≤ n) (bytes : List UInt8) : readBe32 (bytes.take n) = readBe32 bytes := by
  rw [readBe32, readBe32, byteAt_take (by omega), byteAt_take (by omega), byteAt_take (by omega),
    byteAt_take (by omega)]

@[simp] theorem length_be16 (v : UInt16) : (be16 v).length = 2 := rfl

@[simp] theorem length_be32 (v : UInt32) : (be32 v).length = 4 := rfl

theorem be16_readBe16 (a b : UInt8) (rest : List UInt8) : be16 (readBe16 (a :: b :: rest)) = [a, b] := by
  have hHigh : ((a.toUInt16 <<< 8 ||| b.toUInt16) >>> 8).toUInt8 = a := by
    apply UInt8.toBitVec_inj.mp
    apply BitVec.eq_of_getLsbD_eq
    intro i hi
    simp
    grind
  have hLow : (a.toUInt16 <<< 8 ||| b.toUInt16).toUInt8 = b := by
    apply UInt8.toBitVec_inj.mp
    apply BitVec.eq_of_getLsbD_eq
    intro i hi
    simp
  simp only [be16, readBe16, byteAt_zero, byteAt_succ, hHigh, hLow]

theorem readBe16_be16 (v : UInt16) (rest : List UInt8) : readBe16 (be16 v ++ rest) = v := by
  simp only [be16, readBe16, List.cons_append, List.nil_append, byteAt_zero, byteAt_succ]
  apply UInt16.toBitVec_inj.mp
  apply BitVec.eq_of_getLsbD_eq
  intro i hi
  simp [-UInt16.toUInt16_toUInt8]
  grind

theorem be32_readBe32 (a b c d : UInt8) (rest : List UInt8) :
    be32 (readBe32 (a :: b :: c :: d :: rest)) = [a, b, c, d] := by
  simp only [be32, readBe32, byteAt_zero, byteAt_succ, List.cons.injEq, and_true]
  refine ⟨?_, ?_, ?_, ?_⟩
  all_goals
    apply UInt8.toBitVec_inj.mp
    apply BitVec.eq_of_getLsbD_eq
    intro i hi
    simp
  all_goals grind

theorem readBe32_be32 (v : UInt32) (rest : List UInt8) : readBe32 (be32 v ++ rest) = v := by
  simp only [be32, readBe32, List.cons_append, List.nil_append, byteAt_zero, byteAt_succ]
  apply UInt32.toBitVec_inj.mp
  apply BitVec.eq_of_getLsbD_eq
  intro i hi
  simp [-UInt32.toUInt32_toUInt8]
  grind

/-! ## Reads that report a position outside the string -/

structure OutOfBounds where
  index : Nat
  deriving DecidableEq, Repr

def readAt (bytes : List UInt8) (i : Nat) : Except OutOfBounds UInt8 :=
  if i < bytes.length then .ok (byteAt bytes i) else .error ⟨i⟩

/-- Every byte of `bytes[offset, offset + count)`, as `memcmp` and `memcpy` read it. -/
def readRange (bytes : List UInt8) (offset count : Nat) : Except OutOfBounds (List UInt8) :=
  if offset + count ≤ bytes.length then .ok ((bytes.drop offset).take count)
  else .error ⟨max offset bytes.length⟩

theorem readAt_of_lt {bytes : List UInt8} {i : Nat} (h : i < bytes.length) :
    readAt bytes i = .ok (byteAt bytes i) := if_pos h

theorem readRange_of_le {bytes : List UInt8} {offset count : Nat} (h : offset + count ≤ bytes.length) :
    readRange bytes offset count = .ok ((bytes.drop offset).take count) := if_pos h

/-! ## Constant-time comparison -/

/-- `diff |= expected[i] ^ received[i]` over all positions, with no early exit. -/
def xorDiff (expected received : List UInt8) : UInt8 :=
  (expected.zip received).foldl (fun diff p => diff ||| (p.1 ^^^ p.2)) 0

theorem or_eq_zero_iff (a b : UInt8) : a ||| b = 0 ↔ a = 0 ∧ b = 0 := by
  simp only [← UInt8.toBitVec_inj, UInt8.toBitVec_or]
  exact BitVec.or_eq_zero_iff

theorem foldl_xor_eq_zero_iff (pairs : List (UInt8 × UInt8)) (diff : UInt8) :
    pairs.foldl (fun diff p => diff ||| (p.1 ^^^ p.2)) diff = 0 ↔
      diff = 0 ∧ ∀ p ∈ pairs, p.1 = p.2 := by
  induction pairs generalizing diff with
  | nil => simp
  | cons p pairs ih =>
    rw [List.foldl_cons, ih, or_eq_zero_iff, UInt8.xor_eq_zero_iff, and_assoc, List.forall_mem_cons]

theorem xorDiff_eq_zero_iff {expected received : List UInt8} (h : expected.length = received.length) :
    xorDiff expected received = 0 ↔ expected = received := by
  rw [xorDiff, foldl_xor_eq_zero_iff]
  simp only [true_and]
  induction expected generalizing received with
  | nil => simp_all [eq_comm]
  | cons a expected ih =>
    cases received with
    | nil => cases h
    | cons b received =>
      rw [List.zip_cons_cons, List.forall_mem_cons, ih (by simpa using h), List.cons.injEq]

end IotRange
