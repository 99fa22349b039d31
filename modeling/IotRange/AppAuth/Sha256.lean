import IotRange.Library.Bytes

/-! # SHA-256 and HMAC-SHA256 (app_auth.c)

The hash context is passed through every call, as the C code passes its pointer. A context on the
stack is uninitialised before `sha256_init`; its buffer is taken as zero here and is written
before it is read.
-/
namespace IotRange.AppAuth
set_option autoImplicit false

abbrev sha256BlockSize : Nat := 64
abbrev sha256HashSize : Nat := 32

abbrev Sha256State := List.Vector UInt32 8

structure Sha256Ctx where
  state : Sha256State
  count : UInt64
  buf : Bytes sha256BlockSize

def sha256K : List UInt32 := [
  0x428a2f98, 0x71374491, 0xb5c0fbcf, 0xe9b5dba5,
  0x3956c25b, 0x59f111f1, 0x923f82a4, 0xab1c5ed5,
  0xd807aa98, 0x12835b01, 0x243185be, 0x550c7dc3,
  0x72be5d74, 0x80deb1fe, 0x9bdc06a7, 0xc19bf174,
  0xe49b69c1, 0xefbe4786, 0x0fc19dc6, 0x240ca1cc,
  0x2de92c6f, 0x4a7484aa, 0x5cb0a9dc, 0x76f988da,
  0x983e5152, 0xa831c66d, 0xb00327c8, 0xbf597fc7,
  0xc6e00bf3, 0xd5a79147, 0x06ca6351, 0x14292967,
  0x27b70a85, 0x2e1b2138, 0x4d2c6dfc, 0x53380d13,
  0x650a7354, 0x766a0abb, 0x81c2c92e, 0x92722c85,
  0xa2bfe8a1, 0xa81a664b, 0xc24b8b70, 0xc76c51a3,
  0xd192e819, 0xd6990624, 0xf40e3585, 0x106aa070,
  0x19a4c116, 0x1e376c08, 0x2748774c, 0x34b0bcb5,
  0x391c0cb3, 0x4ed8aa4a, 0x5b9cca4f, 0x682e6ff3,
  0x748f82ee, 0x78a5636f, 0x84c87814, 0x8cc70208,
  0x90befffa, 0xa4506ceb, 0xbef9a3f7, 0xc67178f2]

def sha256Rotr (x n : UInt32) : UInt32 := (x >>> n) ||| (x <<< (32 - n))

def sha256Ch (x y z : UInt32) : UInt32 := (x &&& y) ^^^ (~~~x &&& z)

def sha256Maj (x y z : UInt32) : UInt32 := (x &&& y) ^^^ (x &&& z) ^^^ (y &&& z)

def sha256Bsig0 (x : UInt32) : UInt32 := sha256Rotr x 2 ^^^ sha256Rotr x 13 ^^^ sha256Rotr x 22

def sha256Bsig1 (x : UInt32) : UInt32 := sha256Rotr x 6 ^^^ sha256Rotr x 11 ^^^ sha256Rotr x 25

def sha256Ssig0 (x : UInt32) : UInt32 := sha256Rotr x 7 ^^^ sha256Rotr x 18 ^^^ (x >>> 3)

def sha256Ssig1 (x : UInt32) : UInt32 := sha256Rotr x 17 ^^^ sha256Rotr x 19 ^^^ (x >>> 10)

def sha256Get32be (p : List UInt8) : UInt32 := readBe32 p

def sha256Put32be (v : UInt32) : List UInt8 := be32 v

@[simp] theorem length_sha256Put32be (v : UInt32) : (sha256Put32be v).length = 4 := rfl

def sha256Schedule (block : Bytes sha256BlockSize) : List UInt32 :=
  let w := (List.range 16).map fun i => sha256Get32be (block.toList.drop (i * 4))
  (List.range' 16 48).foldl (fun w i =>
    w ++ [sha256Ssig1 (w.getD (i - 2) 0) + w.getD (i - 7) 0 +
      sha256Ssig0 (w.getD (i - 15) 0) + w.getD (i - 16) 0]) w

structure Sha256Regs where
  a : UInt32
  b : UInt32
  c : UInt32
  d : UInt32
  e : UInt32
  f : UInt32
  g : UInt32
  h : UInt32

/-- The working variables before the first round. -/
def Sha256Regs.ofState (state : Sha256State) : Sha256Regs :=
  ⟨state.get 0, state.get 1, state.get 2, state.get 3, state.get 4, state.get 5, state.get 6, state.get 7⟩

def sha256Round (r : Sha256Regs) (k w : UInt32) : Sha256Regs :=
  let t1 := r.h + sha256Bsig1 r.e + sha256Ch r.e r.f r.g + k + w
  let t2 := sha256Bsig0 r.a + sha256Maj r.a r.b r.c
  ⟨t1 + t2, r.a, r.b, r.c, r.d + t1, r.e, r.f, r.g⟩

def sha256Transform (state : Sha256State) (block : Bytes sha256BlockSize) : Sha256State :=
  let w := sha256Schedule block
  let r := (List.range 64).foldl (fun r i => sha256Round r (sha256K.getD i 0) (w.getD i 0)) (Sha256Regs.ofState state)
  ⟨[state.get 0 + r.a, state.get 1 + r.b, state.get 2 + r.c, state.get 3 + r.d,
    state.get 4 + r.e, state.get 5 + r.f, state.get 6 + r.g, state.get 7 + r.h], rfl⟩

def sha256Init (ctx : Sha256Ctx) : Sha256Ctx :=
  { ctx with
    state := ⟨[0x6a09e667, 0xbb67ae85, 0x3c6ef372, 0xa54ff53a,
      0x510e527f, 0x9b05688c, 0x1f83d9ab, 0x5be0cd19], rfl⟩
    count := 0 }

/-- `while (len > 0)`: fill the buffer from `idx` on and transform each full block. -/
def sha256UpdateLoop (ctx : Sha256Ctx) (idx : Fin sha256BlockSize) (data : List UInt8) : Sha256Ctx :=
  if _h : data = [] then ctx
  else
    let fill := min (sha256BlockSize - idx.val) data.length
    have hFill : idx.val + (data.take fill).length ≤ sha256BlockSize := by
      simp only [List.length_take]
      omega
    let ctx := { ctx with buf := ctx.buf.write idx.val (data.take fill) hFill }
    if hFull : idx.val + fill = sha256BlockSize then
      sha256UpdateLoop { ctx with state := sha256Transform ctx.state ctx.buf } 0 (data.drop fill)
    else sha256UpdateLoop ctx ⟨idx.val + fill, by omega⟩ (data.drop fill)
termination_by data.length
decreasing_by
  all_goals
    have hPos := List.length_pos_iff.mpr _h
    simp only [List.length_drop]
    omega

def sha256Index (count : UInt64) : Fin sha256BlockSize := ⟨count.toNat % 64, Nat.mod_lt _ (by decide)⟩

def sha256Update (ctx : Sha256Ctx) (data : List UInt8) : Sha256Ctx :=
  let idx := sha256Index ctx.count
  sha256UpdateLoop { ctx with count := ctx.count + UInt64.ofNat data.length } idx data

/-- Zeroes from `idx` up to `stop`, as the two `memset` calls of `sha256_finish`. -/
def zeroFill (buf : Bytes sha256BlockSize) (idx stop : Nat) (h : idx ≤ stop ∧ stop ≤ sha256BlockSize) :
    Bytes sha256BlockSize :=
  buf.write idx (List.replicate (stop - idx) 0) (by simp only [List.length_replicate]; omega)

section Padding

variable (idx : Fin sha256BlockSize)

theorem pad_le : idx.val + [(0x80 : UInt8)].length ≤ sha256BlockSize := idx.isLt

theorem rest_le : idx.val + 1 ≤ sha256BlockSize ∧ sha256BlockSize ≤ sha256BlockSize := ⟨idx.isLt, Nat.le_refl _⟩

theorem front_le (h : ¬ 56 < idx.val + 1) : idx.val + 1 ≤ 56 ∧ 56 ≤ sha256BlockSize := ⟨not_lt.mp h, by decide⟩

theorem lengthField_le : 0 ≤ 56 ∧ 56 ≤ sha256BlockSize := by decide

end Padding

theorem put32be_le (v : UInt32) {offset : Nat} (h : offset + 4 ≤ sha256BlockSize) :
    offset + (sha256Put32be v).length ≤ sha256BlockSize := by
  rwa [length_sha256Put32be]

theorem length_digest (state : List.Vector UInt32 8) :
    (state.toList.flatMap sha256Put32be).length = sha256HashSize := by
  simp [List.length_flatMap, sha256Put32be, be32]

def sha256Finish (ctx : Sha256Ctx) : Sha256Ctx × Bytes sha256HashSize :=
  let bits := ctx.count * 8
  let idx := sha256Index ctx.count
  let ctx := { ctx with buf := ctx.buf.write idx.val [0x80] (pad_le idx) }
  let padded : Sha256Ctx :=
    if h : 56 < idx.val + 1 then
      let buf := zeroFill ctx.buf (idx.val + 1) sha256BlockSize (rest_le idx)
      { ctx with state := sha256Transform ctx.state buf, buf := zeroFill buf 0 56 lengthField_le }
    else { ctx with buf := zeroFill ctx.buf (idx.val + 1) 56 (front_le idx h) }
  let buf := padded.buf.write 56 (sha256Put32be (bits >>> 32).toUInt32) (put32be_le _ (Nat.le_add_right 60 4))
  let buf := buf.write 60 (sha256Put32be bits.toUInt32) (put32be_le _ (Nat.le_refl 64))
  let ctx := { padded with state := sha256Transform padded.state buf, buf := buf }
  (ctx, ⟨ctx.state.toList.flatMap sha256Put32be, length_digest ctx.state⟩)

def Sha256Ctx.uninit : Sha256Ctx := ⟨List.Vector.replicate 8 0, 0, List.Vector.replicate 64 0⟩

/-- `key_pad`: the key, or its digest when it is longer than a block, padded with zeroes. -/
def hmacKeyPad (ctx : Sha256Ctx) (key : List UInt8) : Sha256Ctx × List UInt8 :=
  if sha256BlockSize < key.length then
    let (ctx, digest) := sha256Finish (sha256Update (sha256Init ctx) key)
    (ctx, digest.toList ++ List.replicate (sha256BlockSize - sha256HashSize) 0)
  else (ctx, key ++ List.replicate (sha256BlockSize - key.length) 0)

def hmacSha256 (key msg : List UInt8) : Bytes sha256HashSize :=
  let (ctx, keyPad) := hmacKeyPad Sha256Ctx.uninit key
  let innerKey := keyPad.map (· ^^^ 0x36)
  let (ctx, innerHash) := sha256Finish (sha256Update (sha256Update (sha256Init ctx) innerKey) msg)
  let outerKey := keyPad.map (· ^^^ 0x5C)
  (sha256Finish (sha256Update (sha256Update (sha256Init ctx) outerKey) innerHash.toList)).2

def computePasswordHash (password sn salt : List UInt8) : Bytes sha256HashSize :=
  let ctx := sha256Init Sha256Ctx.uninit
  (sha256Finish (sha256Update (sha256Update (sha256Update ctx password) sn) salt)).2

end IotRange.AppAuth
