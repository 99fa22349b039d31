import IotRange.Library.Bytes
import Mathlib.Data.Nat.Digits.Lemmas

/-! # Numbers in text

What `printf` writes for a number, and what `strtoul` and `strtol` with base 0 and a 32-bit `long`
read. A number that is followed by no digit or letter is read back as it was.
-/
namespace IotRange
set_option autoImplicit false

abbrev Text := List UInt8

def text (s : String) : Text := ascii s.toList

/-! ## Digits -/

def digitByte (d : Nat) : UInt8 := UInt8.ofNat (if d < 10 then 48 + d else 87 + d)

/-- At least 36 for anything but a digit or a letter. -/
def digitValue (b : UInt8) : Nat :=
  if 48 ≤ b ∧ b ≤ 57 then b.toNat - 48
  else if 97 ≤ b ∧ b ≤ 122 then b.toNat - 87
  else if 65 ≤ b ∧ b ≤ 90 then b.toNat - 55
  else 36

def isDigit (base : Nat) (b : UInt8) : Bool := digitValue b < base

/-- Most significant digit first. -/
def digits (base n : Nat) : Text := if n = 0 then [48] else (Nat.digits base n).reverse.map digitByte

/-- The digits in front. -/
def numeral (base : Nat) (s : Text) : Nat :=
  (s.takeWhile (isDigit base)).foldl (fun n b => n * base + digitValue b) 0

/-- No digit of any base in front. -/
def Ends (s : Text) : Prop := ∀ b ∈ s.head?, 36 ≤ digitValue b

theorem ends_nil : Ends [] := fun _ hHead => nomatch hHead

theorem ends_cons {c : UInt8} {s : Text} (h : 36 ≤ digitValue c) : Ends (c :: s) := by
  intro b hb
  obtain rfl := Option.some.inj hb
  exact h

section Digits

variable {base d n : Nat} {s : Text}

theorem digitValue_digitByte (h : d < 36) : digitValue (digitByte d) = d := by
  have hAll : ∀ d : Fin 36, digitValue (digitByte d.val) = d.val := by decide
  exact hAll ⟨d, h⟩

theorem digits_eq (h : n ≠ 0) : digits base n = (Nat.digits base n).reverse.map digitByte := if_neg h

theorem exists_of_mem (hBase : 1 < base) {b : UInt8} (h : b ∈ digits base n) : ∃ d < base, b = digitByte d := by
  by_cases hZero : n = 0
  · rw [digits, if_pos hZero, List.mem_singleton] at h
    exact ⟨0, Nat.zero_lt_of_lt hBase, h⟩
  · rw [digits_eq hZero, List.mem_map] at h
    obtain ⟨d, hMem, rfl⟩ := h
    exact ⟨d, Nat.digits_lt_base hBase (List.mem_reverse.mp hMem), rfl⟩

theorem isDigit_of_mem (hBase : 1 < base) (hMax : base ≤ 36) {b : UInt8} (h : b ∈ digits base n) :
    isDigit base b = true := by
  obtain ⟨d, hLt, rfl⟩ := exists_of_mem hBase h
  rw [isDigit, digitValue_digitByte (hLt.trans_le hMax), decide_eq_true_iff]
  exact hLt

theorem digits_ne_nil (base n : Nat) : digits base n ≠ [] := by
  by_cases hZero : n = 0
  · rw [digits, if_pos hZero]
    exact List.cons_ne_nil _ _
  · rw [digits_eq hZero, Ne, List.map_eq_nil_iff, List.reverse_eq_nil_iff]
    exact Nat.digits_ne_nil_iff_ne_zero.mpr hZero

theorem takeWhile_of_ends (hMax : base ≤ 36) (h : Ends s) : s.takeWhile (isDigit base) = [] := by
  cases s with
  | nil => rfl
  | cons b s =>
    have hValue := h b rfl
    rw [List.takeWhile_cons_of_neg]
    rw [isDigit, decide_eq_true_iff]
    omega

theorem numeral_append {ds : Text} (hDigits : ∀ b ∈ ds, isDigit base b = true) (hMax : base ≤ 36) (h : Ends s) :
    numeral base (ds ++ s) = ds.foldl (fun n b => n * base + digitValue b) 0 := by
  rw [numeral, List.takeWhile_append_of_pos hDigits, takeWhile_of_ends hMax h, List.append_nil]

theorem foldl_digits (hBase : 1 < base) (hMax : base ≤ 36) (n : Nat) :
    (digits base n).foldl (fun n b => n * base + digitValue b) 0 = n := by
  by_cases hZero : n = 0
  · rw [hZero]
    exact Nat.zero_mul base
  · have hFold (ds : List Nat) (h : ∀ d ∈ ds, d < 36) :
        (ds.reverse.map digitByte).foldl (fun n b => n * base + digitValue b) 0 = Nat.ofDigits base ds := by
      induction ds with
      | nil => rfl
      | cons d ds ih =>
        rw [List.forall_mem_cons] at h
        rw [List.reverse_cons, List.map_append, List.foldl_append, ih h.2, Nat.ofDigits_cons]
        change Nat.ofDigits base ds * base + digitValue (digitByte d) = _
        rw [digitValue_digitByte h.1, Nat.mul_comm, Nat.add_comm]
    rw [digits_eq hZero, hFold _ fun d hMem => (Nat.digits_lt_base hBase hMem).trans_le hMax, Nat.ofDigits_digits]

theorem numeral_digits (hBase : 1 < base) (hMax : base ≤ 36) (n : Nat) (h : Ends s) :
    numeral base (digits base n ++ s) = n := by
  rw [numeral_append (fun b => isDigit_of_mem hBase hMax) hMax h, foldl_digits hBase hMax]

/-- `%0*x` and the like: zeros in front up to a width. -/
def padded (width base n : Nat) : Text := List.replicate (width - (digits base n).length) 48 ++ digits base n

theorem isDigit_padded {width : Nat} (hBase : 1 < base) (hMax : base ≤ 36) {b : UInt8} (h : b ∈ padded width base n) :
    isDigit base b = true := by
  obtain hZero | hDigit := List.mem_append.mp h
  · rw [List.eq_of_mem_replicate hZero, isDigit, decide_eq_true_iff]
    exact Nat.zero_lt_of_lt hBase
  · exact isDigit_of_mem hBase hMax hDigit

theorem numeral_padded (width : Nat) (hBase : 1 < base) (hMax : base ≤ 36) (n : Nat) (h : Ends s) :
    numeral base (padded width base n ++ s) = n := by
  have hZeros (k : Nat) : (List.replicate k (48 : UInt8)).foldl (fun n b => n * base + digitValue b) 0 = 0 := by
    induction k with
    | zero => rfl
    | succ k ih =>
      rw [List.replicate_succ, List.foldl_cons, Nat.zero_mul]
      exact ih
  rw [numeral_append (fun b => isDigit_padded hBase hMax) hMax h, padded, List.foldl_append, hZeros,
    foldl_digits hBase hMax]

/-- The digit in front is `0` for 0 only. -/
theorem head_digits (hBase : 1 < base) (hMax : base ≤ 36) (h : n ≠ 0) :
    ∃ b rest, digits base n = b :: rest ∧ b ≠ 48 := by
  have hNe := Nat.digits_ne_nil_iff_ne_zero (b := base).mpr h
  have hLast := Nat.getLast_digit_ne_zero base h
  obtain ⟨d, ds, hReverse⟩ := List.exists_cons_of_ne_nil (mt List.reverse_eq_nil_iff.mp hNe)
  have hHead : (Nat.digits base n).getLast hNe = d := by
    rw [List.getLast_eq_head_reverse]
    simp only [hReverse, List.head_cons]
  have hLt : d < base := by
    rw [← hHead]
    exact Nat.digits_lt_base hBase (List.getLast_mem hNe)
  refine ⟨digitByte d, ds.map digitByte, ?_, fun hZero => ?_⟩
  · rw [digits_eq h, hReverse]
    rfl
  · have hValue := digitValue_digitByte (hLt.trans_le hMax)
    rw [hZero] at hValue
    exact hLast (hHead.trans hValue.symm)

end Digits

/-! ## `%d` -/

def decimal (z : Int) : Text := if z < 0 then 45 :: digits 10 z.natAbs else digits 10 z.natAbs

theorem digits_inj {base : Nat} (hBase : 1 < base) (hMax : base ≤ 36) {n n' : Nat} {s s' : Text} (h : Ends s)
    (h' : Ends s') (hEq : digits base n ++ s = digits base n' ++ s') : n = n' ∧ s = s' := by
  have hSame : n = n' := by
    rw [← numeral_digits hBase hMax n h, hEq, numeral_digits hBase hMax n' h']
  rw [hSame] at hEq
  exact ⟨hSame, List.append_cancel_left hEq⟩

theorem padded_inj {base width : Nat} (hBase : 1 < base) (hMax : base ≤ 36) {n n' : Nat} {s s' : Text} (h : Ends s)
    (h' : Ends s') (hEq : padded width base n ++ s = padded width base n' ++ s') : n = n' ∧ s = s' := by
  have hSame : n = n' := by
    rw [← numeral_padded width hBase hMax n h, hEq, numeral_padded width hBase hMax n' h']
  rw [hSame] at hEq
  exact ⟨hSame, List.append_cancel_left hEq⟩

theorem decimal_inj {z z' : Int} {s s' : Text} (h : Ends s) (h' : Ends s') (hEq : decimal z ++ s = decimal z' ++ s') :
    z = z' ∧ s = s' := by
  have hMinus (n : Nat) (s s' : Text) : digits 10 n ++ s ≠ 45 :: s' := by
    intro hCons
    obtain ⟨b, rest, hDigits⟩ := List.exists_cons_of_ne_nil (digits_ne_nil 10 n)
    rw [hDigits, List.cons_append] at hCons
    have hMem : 45 ∈ digits 10 n := by
      rw [hDigits, (List.cons.inj hCons).1]
      exact List.mem_cons_self
    exact absurd (isDigit_of_mem (by decide) (by decide) hMem) (by decide)
  unfold decimal at hEq
  split at hEq
  · split at hEq
    · obtain ⟨hAbs, hRest⟩ := digits_inj (by decide) (by decide) h h' (List.cons.inj hEq).2
      exact ⟨by omega, hRest⟩
    · exact absurd hEq.symm (hMinus _ _ _)
  · split at hEq
    · exact absurd hEq (hMinus _ _ _)
    · obtain ⟨hAbs, hRest⟩ := digits_inj (by decide) (by decide) h h' hEq
      exact ⟨by omega, hRest⟩

/-! ## `strtoul` and `strtol` -/

def isSpace (b : UInt8) : Bool := b = 32 || 9 ≤ b && b ≤ 13

/-- The sign, and what follows it. -/
def splitSign (s : Text) : Bool × Text :=
  match s.dropWhile isSpace with
  | 45 :: s => (true, s)
  | 43 :: s => (false, s)
  | s => (false, s)

/-- `0x` for base 16, another `0` for base 8. -/
def magnitude (s : Text) : Nat :=
  match s with
  | 48 :: b :: s => if b = 120 ∨ b = 88 then numeral 16 s else numeral 8 (b :: s)
  | s => numeral 10 s

def strtoul (s : Text) : UInt32 :=
  let (neg, s) := splitSign s
  if 2 ^ 32 ≤ magnitude s then 0xFFFFFFFF
  else if neg then -UInt32.ofNat (magnitude s)
  else UInt32.ofNat (magnitude s)

def strtol (s : Text) : Int32 :=
  let (neg, s) := splitSign s
  if neg then if 2 ^ 31 < magnitude s then Int32.minValue else Int32.ofInt (-magnitude s)
  else if 2 ^ 31 ≤ magnitude s then Int32.maxValue
  else Int32.ofNat (magnitude s)

section ReadBack

variable {s : Text}

theorem splitSign_digits (n : Nat) (s : Text) : splitSign (digits 10 n ++ s) = (false, digits 10 n ++ s) := by
  obtain ⟨b, rest, hEq⟩ := List.exists_cons_of_ne_nil (digits_ne_nil 10 n)
  have hMem : b ∈ digits 10 n := by
    rw [hEq]
    exact List.mem_cons_self
  obtain ⟨d, hLt, rfl⟩ := exists_of_mem (by decide) hMem
  have hOthers :
      ∀ d : Fin 10, isSpace (digitByte d.val) = false ∧ digitByte d.val ≠ 45 ∧ digitByte d.val ≠ 43 := by decide
  obtain ⟨hSpace, hMinus, hPlus⟩ := hOthers ⟨d, hLt⟩
  rw [splitSign, hEq, List.cons_append, List.dropWhile_cons_of_neg (by rw [hSpace]; exact Bool.false_ne_true)]
  split
  · rename_i hCons
    exact absurd (List.cons.inj hCons).1 hMinus
  · rename_i hCons
    exact absurd (List.cons.inj hCons).1 hPlus
  · rfl

theorem magnitude_digits (n : Nat) (h : Ends s) : magnitude (digits 10 n ++ s) = n := by
  by_cases hZero : n = 0
  · rw [hZero]
    cases s with
    | nil => rfl
    | cons b s =>
      have hLetter : ¬ (b = 120 ∨ b = 88) := by
        rintro (rfl | rfl)
        · exact absurd (h 120 rfl) (by decide)
        · exact absurd (h 88 rfl) (by decide)
      change (if b = 120 ∨ b = 88 then _ else _) = 0
      rw [if_neg hLetter, numeral, takeWhile_of_ends (by decide) h]
      rfl
  · have hBase : 1 < 10 := by decide
    obtain ⟨b, rest, hEq, hHead⟩ := head_digits hBase (by decide) hZero
    rw [magnitude]
    · exact numeral_digits (by decide) (by decide) n h
    · intro b' s' hCons
      rw [hEq, List.cons_append] at hCons
      exact absurd (List.cons.inj hCons).1 hHead

theorem strtoul_digits {n : Nat} (hLt : n < 2 ^ 32) (h : Ends s) : strtoul (digits 10 n ++ s) = UInt32.ofNat n := by
  rw [strtoul, splitSign_digits]
  dsimp only
  rw [magnitude_digits n h, if_neg (Nat.not_le.mpr hLt), if_neg Bool.false_ne_true]

theorem strtoul_decimal {n : Nat} (hLt : n < 2 ^ 32) (h : Ends s) : strtoul (decimal n ++ s) = UInt32.ofNat n := by
  have hDigits : decimal n = digits 10 n := by
    rw [decimal, if_neg (Int.not_lt.mpr (Int.natCast_nonneg n))]
    rfl
  rw [hDigits, strtoul_digits hLt h]

/-- `0x%02x` and the like. -/
theorem strtoul_hex (width : Nat) {n : Nat} (hLt : n < 2 ^ 32) (h : Ends s) :
    strtoul (48 :: 120 :: padded width 16 n ++ s) = UInt32.ofNat n := by
  have hSign : splitSign (48 :: 120 :: padded width 16 n ++ s) = (false, 48 :: 120 :: padded width 16 n ++ s) := rfl
  have hMagnitude : magnitude (48 :: 120 :: padded width 16 n ++ s) = n :=
    numeral_padded width (by decide) (by decide) n h
  rw [strtoul, hSign]
  dsimp only
  rw [hMagnitude, if_neg (Nat.not_le.mpr hLt), if_neg Bool.false_ne_true]

theorem strtol_decimal {z : Int} (hMin : -2 ^ 31 ≤ z) (hMax : z < 2 ^ 31) (h : Ends s) :
    strtol (decimal z ++ s) = Int32.ofInt z := by
  by_cases hNeg : z < 0
  · have hSign : splitSign (45 :: digits 10 z.natAbs ++ s) = (true, digits 10 z.natAbs ++ s) := rfl
    rw [decimal, if_pos hNeg, strtol, hSign]
    dsimp only
    rw [magnitude_digits _ h, if_pos rfl, if_neg (by omega)]
    congr 1
    omega
  · rw [decimal, if_neg hNeg, strtol, splitSign_digits]
    dsimp only
    rw [magnitude_digits _ h, if_neg Bool.false_ne_true, if_neg (by omega), ← Int32.ofInt_eq_ofNat]
    congr 1
    omega

end ReadBack

end IotRange
