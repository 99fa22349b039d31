import IotRange.AppAuth.Sha256Transform
import Mathlib.Data.List.Infix

/-! # Streaming SHA-256 and HMAC

A context holds a message: the length, the hash value over its full blocks and the rest at the front
of the buffer. Updates append to the message, and `sha256_finish` pads what is held.
-/
namespace IotRange.Sha256Streaming
open AppAuth Fips180 BlockHash
set_option autoImplicit false

/-- The hash value and the buffer after a message; behind the remainder the buffer may hold anything. -/
structure Buffers (ctx : Sha256Ctx) (msg : List UInt8) : Prop where
  state : words ctx.state = absorb compress 64 initialHash msg
  buf : remainder 64 msg <+: ctx.buf.toList

structure Holds (ctx : Sha256Ctx) (msg : List UInt8) : Prop extends Buffers ctx msg where
  count : ctx.count = UInt64.ofNat msg.length

/-! ## The buffer -/

section Buffer

variable {buf : Bytes sha256BlockSize} {front data : List UInt8}

/-- Written behind a known front, the data belongs to the front. -/
theorem prefix_write (h : front <+: buf.toList) {offset : Nat} (hOffset : offset = front.length)
    (hFits : offset + data.length ≤ sha256BlockSize) : front ++ data <+: (buf.write offset data hFits).toList := by
  subst hOffset
  rw [Bytes.toList_write, writeAt, List.prefix_iff_eq_take.mp h |>.symm]
  exact List.prefix_append _ _

theorem prefix_zeroFill (h : front <+: buf.toList) {idx stop : Nat} (hIdx : idx = front.length)
    (hStop : idx ≤ stop ∧ stop ≤ sha256BlockSize) :
    front ++ List.replicate (stop - front.length) 0 <+: (zeroFill buf idx stop hStop).toList := by
  subst hIdx
  exact prefix_write h rfl _

theorem prefix_cleared (buf : Bytes sha256BlockSize) :
    List.replicate 56 0 <+: (zeroFill buf 0 56 lengthField_le).toList :=
  prefix_zeroFill List.nil_prefix rfl lengthField_le

theorem eq_of_prefix_of_full (h : front <+: buf.toList) (hFull : front.length = sha256BlockSize) : buf.toList = front :=
  (h.eq_of_length (hFull.trans buf.toList_length.symm)).symm

end Buffer

/-! ## Updates -/

section Update

variable {ctx : Sha256Ctx} {msg piece : List UInt8} {idx : Nat}

theorem Buffers.write (h : Buffers ctx msg) (hIdx : idx = msg.length % 64)
    (hFits : idx + piece.length ≤ sha256BlockSize) :
    remainder 64 msg ++ piece <+: (ctx.buf.write idx piece hFits).toList :=
  prefix_write h.buf (hIdx.trans (length_remainder 64 msg).symm) hFits

/-- A piece that leaves the block open. -/
theorem Buffers.extend (h : Buffers ctx msg) (hIdx : idx = msg.length % 64)
    (hFits : idx + piece.length ≤ sha256BlockSize) (hShort : idx + piece.length ≠ sha256BlockSize) :
    Buffers { ctx with buf := ctx.buf.write idx piece hFits } (msg ++ piece) := by
  have hLength : (remainder 64 msg).length + piece.length < 64 := by
    rw [length_remainder, ← hIdx]
    exact lt_of_le_of_ne hFits hShort
  obtain ⟨hAbsorbed, hRemainder⟩ := absorb_append_of_lt compress (s := initialHash) hLength
  refine ⟨h.state.trans hAbsorbed.symm, ?_⟩
  rw [hRemainder]
  exact h.write hIdx hFits

/-- A piece that completes the block. -/
theorem Buffers.complete (h : Buffers ctx msg) {block : Bytes sha256BlockSize}
    (hBlock : block.toList = remainder 64 msg ++ piece) (count : UInt64) (buf : Bytes sha256BlockSize) :
    Buffers ⟨sha256Transform ctx.state block, count, buf⟩ (msg ++ piece) := by
  have hLength : (remainder 64 msg).length + piece.length = 64 := by
    rw [← List.length_append, ← hBlock, block.toList_length]
  obtain ⟨hAbsorbed, hRemainder⟩ := absorb_append_of_eq compress (s := initialHash) (by decide) hLength
  refine ⟨?_, ?_⟩
  · rw [words_sha256Transform, h.state, hBlock, hAbsorbed]
  · rw [hRemainder]
    exact List.nil_prefix

end Update

theorem count_sha256UpdateLoop (ctx : Sha256Ctx) (idx : Fin sha256BlockSize) (data : List UInt8) :
    (sha256UpdateLoop ctx idx data).count = ctx.count := by
  fun_induction sha256UpdateLoop ctx idx data with
  | case1 => rfl
  | case2 => assumption
  | case3 => assumption

theorem buffers_sha256UpdateLoop {ctx : Sha256Ctx} {idx : Fin sha256BlockSize} {data msg : List UInt8}
    (h : Buffers ctx msg) (hIdx : idx.val = msg.length % 64) :
    Buffers (sha256UpdateLoop ctx idx data) (msg ++ data) := by
  fun_induction sha256UpdateLoop ctx idx data generalizing msg with
  | case1 ctx idx => rwa [List.append_nil]
  | case2 ctx idx data hData fill hFill filled hFull =>
    rename_i ih
    have hTake : (data.take fill).length = fill := List.length_take_of_le (Nat.min_le_right _ _)
    have hWritten := h.write hIdx hFill
    have hLength : (remainder 64 msg ++ data.take fill).length = sha256BlockSize := by
      rw [List.length_append, length_remainder, ← hIdx, hTake, hFull]
    have hNext : Buffers ⟨sha256Transform filled.state filled.buf, filled.count, filled.buf⟩ (msg ++ data.take fill) :=
      h.complete (eq_of_prefix_of_full hWritten hLength) _ _
    have hSplit : msg ++ data = msg ++ data.take fill ++ data.drop fill := by
      rw [List.append_assoc, List.take_append_drop]
    rw [hSplit]
    refine ih hNext ?_
    rw [List.length_append, hTake]
    change 0 = _
    have : idx.val + fill = 64 := hFull
    omega
  | case3 ctx idx data hData fill hFill filled hShort =>
    rename_i ih
    have hTake : (data.take fill).length = fill := List.length_take_of_le (Nat.min_le_right _ _)
    have hNext := h.extend hIdx hFill (hTake.symm ▸ hShort)
    have hSplit : msg ++ data = msg ++ data.take fill ++ data.drop fill := by
      rw [List.append_assoc, List.take_append_drop]
    rw [hSplit]
    refine ih hNext ?_
    rw [List.length_append, hTake]
    change idx.val + fill = _
    have : idx.val + (data.take fill).length ≤ 64 := hFill
    have : idx.val + fill ≠ 64 := hShort
    omega

/-! ## Messages -/

theorem words_sha256Init (ctx : Sha256Ctx) : words (sha256Init ctx).state = initialHash := by
  -- the initial state does not depend on the context
  have hInit : words (sha256Init Sha256Ctx.uninit).state = initialHash := by
    rw [initialHash, words, Sha256Regs.vars, Vars.mk.injEq]
    refine ⟨?_, ?_, ?_, ?_, ?_, ?_, ?_, ?_⟩
    all_goals decide +kernel
  exact hInit

theorem holds_sha256Init (ctx : Sha256Ctx) : Holds (sha256Init ctx) [] where
  state := words_sha256Init ctx
  buf := List.nil_prefix
  count := rfl

section Messages

variable {ctx : Sha256Ctx} {msg : List UInt8}

theorem Holds.index (h : Holds ctx msg) : (sha256Index ctx.count).val = msg.length % 64 := by
  change ctx.count.toNat % 64 = _
  rw [h.count, UInt64.toNat_ofNat']
  exact Nat.mod_mod_of_dvd _ (by decide)

theorem Holds.update (h : Holds ctx msg) (data : List UInt8) : Holds (sha256Update ctx data) (msg ++ data) where
  toBuffers := buffers_sha256UpdateLoop ⟨h.state, h.buf⟩ h.index
  count := by
    rw [sha256Update, count_sha256UpdateLoop, h.count, List.length_append, UInt64.ofNat_add]

theorem Holds.updates (h : Holds ctx msg) (parts : List (List UInt8)) :
    Holds (parts.foldl sha256Update ctx) (msg ++ parts.flatten) := by
  induction parts generalizing ctx msg with
  | nil => rwa [List.flatten_nil, List.append_nil]
  | cons data parts ih =>
    rw [List.foldl_cons, List.flatten_cons, ← List.append_assoc]
    exact ih (h.update data)

end Messages

/-! ## Finishing -/

theorem lengthField_eq (n : Nat) {bits : UInt64} (h : bits.toNat = 8 * n % 2 ^ 64) :
    sha256Put32be (bits >>> 32).toUInt32 ++ sha256Put32be bits.toUInt32 = lengthField n := by
  simp only [sha256Put32be, be32, lengthField, List.map_cons, List.map_nil, List.cons_append, List.nil_append,
    List.cons.injEq, and_true]
  refine ⟨?_, ?_, ?_, ?_, ?_, ?_, ?_, ?_⟩
  all_goals
    apply UInt8.toNat_inj.mp
    simp only [UInt32.toNat_toUInt8, UInt32.toNat_shiftRight, UInt64.toNat_toUInt32, UInt64.toNat_shiftRight,
      UInt8.toNat_ofNat', h, Nat.shiftRight_eq_div_pow, UInt32.reduceToNat, UInt64.reduceToNat, Nat.reduceMod,
      Nat.reducePow]
    omega

theorem Holds.bits {ctx : Sha256Ctx} {msg : List UInt8} (h : Holds ctx msg) :
    (ctx.count * 8).toNat = 8 * msg.length % 2 ^ 64 := by
  rw [h.count, UInt64.toNat_mul, UInt64.toNat_ofNat', Nat.mul_comm 8]
  exact Nat.mod_mul_mod _ _ _

section Finish

variable {buf : Bytes sha256BlockSize} {front : List UInt8}

/-- The last block: a front of 56 bytes and the length in bits. -/
theorem toList_lastBlock (h : front <+: buf.toList) (hFront : front.length = 56) (hi lo : UInt32)
    (hHigh : 56 + (sha256Put32be hi).length ≤ sha256BlockSize)
    (hLow : 60 + (sha256Put32be lo).length ≤ sha256BlockSize) :
    ((buf.write 56 (sha256Put32be hi) hHigh).write 60 (sha256Put32be lo) hLow).toList =
      front ++ (sha256Put32be hi ++ sha256Put32be lo) := by
  have hHighWritten := prefix_write h hFront.symm hHigh
  have hLength : (front ++ sha256Put32be hi).length = 60 := by
    rw [List.length_append, hFront, length_sha256Put32be]
  rw [← List.append_assoc]
  refine eq_of_prefix_of_full (prefix_write hHighWritten hLength.symm hLow) ?_
  rw [List.length_append, hLength, length_sha256Put32be]

end Finish

theorem padding_of_short {n : Nat} (h : n % 64 + 1 ≤ 56) :
    padding n = [0x80] ++ List.replicate (56 - (n % 64 + 1)) 0 ++ lengthField n := by
  have hZeros : padZeros n = 56 - (n % 64 + 1) := padZeros_eq_iff.mpr (by omega)
  rw [padding, hZeros]
  rfl

/-- No room for the length: the zeroes go on for 56 bytes of another block. -/
theorem padding_of_long {n : Nat} (h : 56 < n % 64 + 1) :
    padding n = ([0x80] ++ List.replicate (64 - (n % 64 + 1)) 0) ++ (List.replicate 56 0 ++ lengthField n) := by
  have hZeros : padZeros n = 64 - (n % 64 + 1) + 56 := padZeros_eq_iff.mpr (by omega)
  rw [padding, hZeros, List.replicate_add, List.append_assoc, List.append_assoc]
  rfl

section Padded

variable {ctx : Sha256Ctx} {msg : List UInt8} {idx : Fin sha256BlockSize}

/-- The byte 0x80 behind the message, and zeroes up to `stop`. -/
theorem prefix_marked (h : Buffers ctx msg) (hIdx : idx.val = msg.length % 64) {stop : Nat}
    (hStop : idx.val + 1 ≤ stop ∧ stop ≤ sha256BlockSize) :
    remainder 64 msg ++ ([0x80] ++ List.replicate (stop - (msg.length % 64 + 1)) 0) <+:
      (zeroFill (ctx.buf.write idx.val [0x80] (pad_le idx)) (idx.val + 1) stop hStop).toList := by
  have hRemainder := length_remainder 64 msg
  have hMarked := prefix_write h.buf (hIdx.trans hRemainder.symm) (pad_le idx)
  have hLength : (remainder 64 msg ++ [(0x80 : UInt8)]).length = msg.length % 64 + 1 := by
    rw [List.length_append, hRemainder, List.length_singleton]
  have hFilled := prefix_zeroFill hMarked (hLength ▸ congrArg (· + 1) hIdx) hStop
  rwa [hLength, List.append_assoc] at hFilled

theorem length_marked (msg : List UInt8) {stop : Nat} (hStop : msg.length % 64 + 1 ≤ stop) :
    (remainder 64 msg ++ ([(0x80 : UInt8)] ++ List.replicate (stop - (msg.length % 64 + 1)) 0)).length = stop := by
  rw [List.length_append, List.length_append, List.length_replicate, List.length_singleton, length_remainder]
  omega

/-- Filled up to the end of a block, nothing is left over. -/
theorem remainder_marked (msg : List UInt8) :
    remainder 64 (msg ++ ([0x80] ++ List.replicate (64 - (msg.length % 64 + 1)) 0)) = [] := by
  rw [← List.length_eq_zero_iff, length_remainder, List.length_append, List.length_append, List.length_replicate,
    List.length_singleton]
  omega

end Padded

/-- Everything that `sha256_finish` transforms is the padding of the message. -/
theorem words_sha256Finish {ctx : Sha256Ctx} {msg : List UInt8} (h : Holds ctx msg) :
    words (sha256Finish ctx).1.state = absorb compress 64 initialHash (msg ++ padding msg.length) := by
  have hLength := lengthField_eq msg.length h.bits
  have hBuffers := h.toBuffers
  have hIdx := h.index
  unfold sha256Finish
  dsimp only
  split
  · rename_i hLong
    rw [hIdx] at hLong
    -- the block with the mark, then one of zeroes and the length
    have hFirst := eq_of_prefix_of_full (prefix_marked hBuffers hIdx (rest_le _))
      (length_marked msg (Nat.mod_lt _ (by decide)))
    have hBetween := hBuffers.complete hFirst ctx.count ctx.buf
    have hZeros := prefix_cleared (zeroFill (ctx.buf.write (sha256Index ctx.count).val [0x80] (pad_le _))
      ((sha256Index ctx.count).val + 1) sha256BlockSize (rest_le _))
    have hBlock := toList_lastBlock hZeros rfl ((ctx.count * 8) >>> 32).toUInt32 (ctx.count * 8).toUInt32
      (put32be_le _ (Nat.le_add_right 60 4)) (put32be_le _ (Nat.le_refl 64))
    rw [hLength] at hBlock
    rw [padding_of_long hLong, ← List.append_assoc]
    refine (hBetween.complete ?_ 0 ctx.buf).state
    rw [remainder_marked]
    exact hBlock
  · rename_i hShort
    rw [hIdx] at hShort
    have hFilled := prefix_marked hBuffers hIdx (front_le _ (hIdx ▸ hShort))
    have hBlock := toList_lastBlock hFilled (length_marked msg (not_lt.mp hShort)) ((ctx.count * 8) >>> 32).toUInt32
      (ctx.count * 8).toUInt32 (put32be_le _ (Nat.le_add_right 60 4)) (put32be_le _ (Nat.le_refl 64))
    rw [hLength, List.append_assoc] at hBlock
    rw [padding_of_short (not_lt.mp hShort)]
    exact (hBuffers.complete hBlock 0 ctx.buf).state

theorem toList_sha256Finish {ctx : Sha256Ctx} {msg : List UInt8} (h : Holds ctx msg) :
    (sha256Finish ctx).2.toList = sha256 msg := by
  have hDigest : (sha256Finish ctx).2.toList = (sha256Finish ctx).1.state.toList.flatMap sha256Put32be := rfl
  rw [hDigest, digest_words, words_sha256Finish h, sha256]

/-- However a message is cut into updates, and whatever the context held before, the result is the
digest of the message. -/
theorem sha256_streaming (ctx : Sha256Ctx) (parts : List (List UInt8)) :
    (sha256Finish (parts.foldl sha256Update (sha256Init ctx))).2.toList = sha256 parts.flatten :=
  toList_sha256Finish ((holds_sha256Init ctx).updates parts)

/-! ## HMAC -/

theorem hmacKeyPad_eq (ctx : Sha256Ctx) (key : List UInt8) : (hmacKeyPad ctx key).2 = hmacKey sha256 64 key := by
  have hDigest : (sha256Finish (sha256Update (sha256Init ctx) key)).2.toList = sha256 key :=
    toList_sha256Finish ((holds_sha256Init ctx).update key)
  unfold hmacKeyPad hmacKey
  dsimp only
  split
  · rw [length_sha256]
    exact congrArg (· ++ _) hDigest
  · rfl

theorem length_hmacKey (key : List UInt8) : (hmacKey sha256 64 key).length = 64 := by
  rw [hmacKey, List.length_append, List.length_replicate]
  split
  · rw [length_sha256]
  · omega

/-- One of the two hashes: the padded key, then the message. -/
theorem toList_keyed (ctx : Sha256Ctx) (key msg : List UInt8) :
    (sha256Finish (sha256Update (sha256Update (sha256Init ctx) key) msg)).2.toList = sha256 (key ++ msg) :=
  toList_sha256Finish (((holds_sha256Init ctx).update key).update msg)

theorem hmacSha256_eq_hmac (key msg : List UInt8) : (hmacSha256 key msg).toList = hmac sha256 64 key msg := by
  have hKey := hmacKeyPad_eq Sha256Ctx.uninit key
  have hPad (pad : UInt8) :
      (hmacKeyPad Sha256Ctx.uninit key).2.map (· ^^^ pad) = xorPad 64 (hmacKey sha256 64 key) pad := by
    rw [hKey, xorPad_eq_map 64 (length_hmacKey key)]
  unfold hmacSha256 hmac
  dsimp only
  rw [toList_keyed, toList_keyed, hPad, hPad]

end IotRange.Sha256Streaming
