import IotRange.Library.BlockHash
import Mathlib.Data.Nat.NthRoot.Defs
import Mathlib.Data.Nat.Prime.Basic

/-! # SHA-256 (FIPS 180-4)

The functions, the constants, the message schedule, the padding and the digest as the standard gives
them. Words are `BitVec 32`, the constants are roots of primes, and the schedule is a recursion.
-/
namespace IotRange.Fips180
open BlockHash
set_option autoImplicit false

abbrev Word := BitVec 32

/-! ## Functions -/

def ch (x y z : Word) : Word := (x &&& y) ^^^ (~~~x &&& z)

def maj (x y z : Word) : Word := (x &&& y) ^^^ (x &&& z) ^^^ (y &&& z)

def bigSigma0 (x : Word) : Word := x.rotateRight 2 ^^^ x.rotateRight 13 ^^^ x.rotateRight 22

def bigSigma1 (x : Word) : Word := x.rotateRight 6 ^^^ x.rotateRight 11 ^^^ x.rotateRight 25

def smallSigma0 (x : Word) : Word := x.rotateRight 7 ^^^ x.rotateRight 18 ^^^ x >>> 3

def smallSigma1 (x : Word) : Word := x.rotateRight 17 ^^^ x.rotateRight 19 ^^^ x >>> 10

/-! ## Constants -/

/-- The first sixty-four primes. -/
def primes : List Nat := (List.range 312).filter fun n => n.Prime

/-- The first thirty-two bits of the fractional part of the `n`-th root of `p`. -/
def rootBits (n p : Nat) : Word := BitVec.ofNat 32 (Nat.nthRoot n (p * 2 ^ (32 * n)))

def roundConstant (t : Nat) : Word := rootBits 3 (primes.getD t 0)

/-- The eight working variables, and the hash value. -/
structure Vars where
  a : Word
  b : Word
  c : Word
  d : Word
  e : Word
  f : Word
  g : Word
  h : Word

def initialHash : Vars :=
  ⟨rootBits 2 2, rootBits 2 3, rootBits 2 5, rootBits 2 7, rootBits 2 11, rootBits 2 13, rootBits 2 17, rootBits 2 19⟩

/-! ## Computation -/

/-- The big-endian word at the front of a byte string. -/
def word (bytes : List UInt8) : Word :=
  (byteAt bytes 0).toBitVec ++ (byteAt bytes 1).toBitVec ++ (byteAt bytes 2).toBitVec ++ (byteAt bytes 3).toBitVec

def schedule (m : List UInt8) (t : Nat) : Word :=
  if t < 16 then word (m.drop (4 * t))
  else smallSigma1 (schedule m (t - 2)) + schedule m (t - 7) + smallSigma0 (schedule m (t - 15)) + schedule m (t - 16)

def round (v : Vars) (k w : Word) : Vars :=
  let t1 := v.h + bigSigma1 v.e + ch v.e v.f v.g + k + w
  let t2 := bigSigma0 v.a + maj v.a v.b v.c
  ⟨t1 + t2, v.a, v.b, v.c, v.d + t1, v.e, v.f, v.g⟩

def rounds (m : List UInt8) (v : Vars) : Nat → Vars
  | 0 => v
  | t + 1 => round (rounds m v t) (roundConstant t) (schedule m t)

def compress (hash : Vars) (m : List UInt8) : Vars :=
  let v := rounds m hash 64
  ⟨v.a + hash.a, v.b + hash.b, v.c + hash.c, v.d + hash.d, v.e + hash.e, v.f + hash.f, v.g + hash.g, v.h + hash.h⟩

/-! ## Padding and digest -/

/-- The smallest number of zero bytes that leaves eight bytes for the length. -/
def padZeros (length : Nat) : Nat := (119 - length % 64) % 64

theorem padZeros_eq_iff {length zeros : Nat} :
    padZeros length = zeros ↔ zeros < 64 ∧ (length + 1 + zeros) % 64 = 56 := by
  unfold padZeros
  omega

/-- The length in bits, in eight bytes. -/
def lengthField (length : Nat) : List UInt8 :=
  [56, 48, 40, 32, 24, 16, 8, 0].map fun i => UInt8.ofNat (8 * length / 2 ^ i)

def padding (length : Nat) : List UInt8 := 0x80 :: (List.replicate (padZeros length) 0 ++ lengthField length)

def wordBytes (w : Word) : List UInt8 := [24, 16, 8, 0].map fun i => UInt8.ofBitVec (w.extractLsb' i 8)

def digest (v : Vars) : List UInt8 := [v.a, v.b, v.c, v.d, v.e, v.f, v.g, v.h].flatMap wordBytes

def sha256 (msg : List UInt8) : List UInt8 :=
  digest (absorb compress 64 initialHash (msg ++ padding msg.length))

theorem length_sha256 (msg : List UInt8) : (sha256 msg).length = 32 := rfl

end IotRange.Fips180
