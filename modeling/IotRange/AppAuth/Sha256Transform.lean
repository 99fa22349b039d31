import IotRange.AppAuth.Sha256
import IotRange.Library.Fips180

/-! # `sha256_transform` against the standard

Word by word: the functions, the table of constants, the schedule that the code fills in order, and
the sixty-four rounds.
-/
namespace IotRange.AppAuth
open Fips180 BlockHash
set_option autoImplicit false

section Functions

variable (x y z : UInt32)

theorem toBitVec_sha256Ch : (sha256Ch x y z).toBitVec = ch x.toBitVec y.toBitVec z.toBitVec := rfl

theorem toBitVec_sha256Maj : (sha256Maj x y z).toBitVec = maj x.toBitVec y.toBitVec z.toBitVec := rfl

theorem toBitVec_sha256Bsig0 : (sha256Bsig0 x).toBitVec = bigSigma0 x.toBitVec := rfl

theorem toBitVec_sha256Bsig1 : (sha256Bsig1 x).toBitVec = bigSigma1 x.toBitVec := rfl

theorem toBitVec_sha256Ssig0 : (sha256Ssig0 x).toBitVec = smallSigma0 x.toBitVec := rfl

theorem toBitVec_sha256Ssig1 : (sha256Ssig1 x).toBitVec = smallSigma1 x.toBitVec := rfl

theorem toBitVec_sha256Get32be (p : List UInt8) : (sha256Get32be p).toBitVec = word p := by
  apply BitVec.eq_of_getLsbD_eq
  intro i hi
  simp [sha256Get32be, readBe32, word]
  grind

theorem sha256Put32be_eq : sha256Put32be x = wordBytes x.toBitVec := by
  simp only [sha256Put32be, be32, wordBytes, List.map_cons, List.map_nil, List.cons.injEq, and_true]
  refine ⟨?_, ?_, ?_, ?_⟩
  all_goals
    apply UInt8.toBitVec_inj.mp
    apply BitVec.eq_of_getLsbD_eq
    intro i hi
    simp [BitVec.getLsbD_extractLsb']

end Functions

/-- The table holds the roots of the primes. -/
theorem map_sha256K : sha256K.map UInt32.toBitVec = primes.map (rootBits 3) := by decide +kernel

theorem toBitVec_sha256K {t : Nat} (h : t < 64) : (sha256K.getD t 0).toBitVec = roundConstant t := by
  have hTable := congrArg (fun ks : List Word => ks[t]?) map_sha256K
  have hLength := congrArg List.length map_sha256K
  rw [List.length_map, List.length_map] at hLength
  have hCode : t < sha256K.length := h
  have hPrime : t < primes.length := hLength ▸ hCode
  simp only [List.getElem?_map, List.getElem?_eq_getElem hCode, List.getElem?_eq_getElem hPrime,
    Option.map_some, Option.some.injEq] at hTable
  rw [roundConstant, List.getD_eq_getElem _ _ hCode, List.getD_eq_getElem _ _ hPrime, hTable]

/-! ## The schedule -/

/-- The words that the code has filled in so far. -/
structure Filled (m : List UInt8) (w : List UInt32) (n : Nat) : Prop where
  length : w.length = n
  word : ∀ t < n, (w.getD t 0).toBitVec = schedule m t

theorem Filled.concat {m : List UInt8} {w : List UInt32} {n : Nat} (h : Filled m w n) {x : UInt32}
    (hx : x.toBitVec = schedule m n) : Filled m (w ++ [x]) (n + 1) where
  length := by rw [List.length_append, h.length, List.length_singleton]
  word t ht := by
    obtain hBefore | rfl := Nat.lt_succ_iff_lt_or_eq.mp ht
    · rw [List.getD_append _ _ _ _ (by rwa [h.length]), h.word t hBefore]
    · rw [List.getD_append_right _ _ _ _ (le_of_eq h.length), h.length, Nat.sub_self, List.getD_cons_zero, hx]

theorem filled_block (m : List UInt8) :
    Filled m ((List.range 16).map fun i => sha256Get32be (m.drop (i * 4))) 16 where
  length := by rw [List.length_map, List.length_range]
  word t ht := by
    have hLength : t < ((List.range 16).map fun i => sha256Get32be (m.drop (i * 4))).length := by
      rwa [List.length_map, List.length_range]
    rw [List.getD_eq_getElem _ _ hLength, List.getElem_map, List.getElem_range, toBitVec_sha256Get32be, schedule,
      if_pos ht, Nat.mul_comm]

theorem Filled.next {m : List UInt8} {w : List UInt32} {n : Nat} (h : Filled m w n) (hn : 16 ≤ n) :
    Filled m (w ++ [sha256Ssig1 (w.getD (n - 2) 0) + w.getD (n - 7) 0 + sha256Ssig0 (w.getD (n - 15) 0) +
      w.getD (n - 16) 0]) (n + 1) := by
  apply h.concat
  rw [schedule, if_neg (not_lt.mpr hn), UInt32.toBitVec_add, UInt32.toBitVec_add, UInt32.toBitVec_add,
    toBitVec_sha256Ssig1, toBitVec_sha256Ssig0, h.word (n - 2) (by omega), h.word (n - 7) (by omega),
    h.word (n - 15) (by omega), h.word (n - 16) (by omega)]

theorem filled_sha256Schedule (block : Bytes sha256BlockSize) : Filled block.toList (sha256Schedule block) 64 := by
  have hFold (n : Nat) : Filled block.toList ((List.range' 16 n).foldl (fun w i =>
      w ++ [sha256Ssig1 (w.getD (i - 2) 0) + w.getD (i - 7) 0 + sha256Ssig0 (w.getD (i - 15) 0) +
        w.getD (i - 16) 0]) ((List.range 16).map fun i => sha256Get32be (block.toList.drop (i * 4)))) (16 + n) := by
    induction n with
    | zero => exact filled_block block.toList
    | succ n ih =>
      rw [List.range'_1_concat, List.foldl_append, List.foldl_cons, List.foldl_nil]
      exact ih.next (Nat.le_add_right 16 n)
  exact hFold 48

/-! ## The rounds -/

def Sha256Regs.vars (r : Sha256Regs) : Vars :=
  ⟨r.a.toBitVec, r.b.toBitVec, r.c.toBitVec, r.d.toBitVec, r.e.toBitVec, r.f.toBitVec, r.g.toBitVec, r.h.toBitVec⟩

theorem vars_sha256Round (r : Sha256Regs) (k w : UInt32) :
    (sha256Round r k w).vars = round r.vars k.toBitVec w.toBitVec := by
  simp only [sha256Round, Sha256Regs.vars, Fips180.round, UInt32.toBitVec_add, toBitVec_sha256Bsig1,
    toBitVec_sha256Bsig0, toBitVec_sha256Ch, toBitVec_sha256Maj]

theorem vars_foldl {m : List UInt8} {w : List UInt32} (h : Filled m w 64) (r : Sha256Regs) {n : Nat} (hn : n ≤ 64) :
    ((List.range n).foldl (fun r i => sha256Round r (sha256K.getD i 0) (w.getD i 0)) r).vars =
      rounds m r.vars n := by
  induction n with
  | zero => rfl
  | succ n ih =>
    rw [List.range_succ, List.foldl_append, List.foldl_cons, List.foldl_nil, vars_sha256Round, ih (by omega),
      toBitVec_sha256K hn, h.word n hn, rounds]

/-- The hash value that a state of the code stands for. -/
def words (state : Sha256State) : Vars := (Sha256Regs.ofState state).vars

/-- The sums at the end, which the standard writes the other way round. -/
theorem words_add (s : Sha256State) (r : Sha256Regs) :
    words ⟨[s.get 0 + r.a, s.get 1 + r.b, s.get 2 + r.c, s.get 3 + r.d, s.get 4 + r.e, s.get 5 + r.f,
      s.get 6 + r.g, s.get 7 + r.h], rfl⟩ =
      ⟨r.vars.a + (words s).a, r.vars.b + (words s).b, r.vars.c + (words s).c, r.vars.d + (words s).d,
        r.vars.e + (words s).e, r.vars.f + (words s).f, r.vars.g + (words s).g, r.vars.h + (words s).h⟩ := by
  rw [words, Sha256Regs.vars, Vars.mk.injEq]
  refine ⟨?_, ?_, ?_, ?_, ?_, ?_, ?_, ?_⟩
  all_goals exact BitVec.add_comm _ _

theorem words_sha256Transform (state : Sha256State) (block : Bytes sha256BlockSize) :
    words (sha256Transform state block) = compress (words state) block.toList := by
  have hRounds : _ = rounds block.toList (words state) 64 :=
    vars_foldl (filled_sha256Schedule block) (Sha256Regs.ofState state) (le_refl 64)
  rw [compress, ← hRounds]
  exact words_add state _

theorem digest_words (state : Sha256State) : state.toList.flatMap sha256Put32be = digest (words state) := by
  have hEntries : state.toList = [state.get 0, state.get 1, state.get 2, state.get 3, state.get 4, state.get 5,
      state.get 6, state.get 7] := by
    conv_lhs => rw [← List.Vector.ofFn_get state]
    rfl
  rw [hEntries, digest]
  simp only [List.flatMap_cons, List.flatMap_nil, sha256Put32be_eq]
  rfl

end IotRange.AppAuth
