import IotRange.Library.Blocks
import IotRange.Library.Text

/-! # Hex dumps

A row is a label, a colon and the bytes as pairs of hex digits. A dump reads back as its bytes.
-/
namespace IotRange
set_option autoImplicit false

/-! ## Widths -/

section Width

variable {base width n : Nat}

theorem length_digits_le (hBase : 1 < base) (hWidth : 0 < width) (h : n < base ^ width) :
    (digits base n).length ≤ width := by
  by_cases hZero : n = 0
  · rw [digits, if_pos hZero]
    exact hWidth
  · rw [digits_eq hZero, List.length_map, List.length_reverse]
    exact (Nat.digits_length_le_iff hBase n).mpr h

theorem length_padded (hBase : 1 < base) (hWidth : 0 < width) (h : n < base ^ width) :
    (padded width base n).length = width := by
  rw [padded, List.length_append, List.length_replicate, Nat.sub_add_cancel (length_digits_le hBase hWidth h)]

end Width

/-! ## Rows -/

def hexByte (b : UInt8) : Text := 32 :: padded 2 16 b.toNat

def hexRow (label : Text) (bytes : List UInt8) : Text := label ++ 58 :: bytes.flatMap hexByte

/-- Every three characters are a byte. -/
def rowBytes : Text → List UInt8
  | _ :: high :: low :: s => UInt8.ofNat (digitValue high * 16 + digitValue low) :: rowBytes s
  | _ => []

def readRow (s : Text) : List UInt8 := rowBytes ((s.dropWhile (· ≠ 58)).drop 1)

def readLabel (s : Text) : Nat := numeral 16 s

section Rows

variable {label : Text} {bytes : List UInt8}

theorem length_hexByte (b : UInt8) : (hexByte b).length = 3 := by
  have hBase : 1 < 16 := by decide
  rw [hexByte, List.length_cons, length_padded hBase (by decide) b.toNat_lt]

theorem length_hexRow (label : Text) (bytes : List UInt8) :
    (hexRow label bytes).length = label.length + 1 + 3 * bytes.length := by
  have hBytes : (bytes.flatMap hexByte).length = 3 * bytes.length := by
    induction bytes with
    | nil => rfl
    | cons b bytes ih =>
      rw [List.flatMap_cons, List.length_append, length_hexByte, ih, List.length_cons]
      omega
  rw [hexRow, List.length_append, List.length_cons, hBytes]
  omega

theorem rowBytes_hexByte (b : UInt8) (s : Text) : rowBytes (hexByte b ++ s) = b :: rowBytes s := by
  have hBase : 1 < 16 := by decide
  have hLength : (padded 2 16 b.toNat).length = 2 := length_padded hBase (by decide) b.toNat_lt
  have hDigits : ∀ c ∈ padded 2 16 b.toNat, isDigit 16 c = true := fun _ => isDigit_padded hBase (by decide)
  have hValue := numeral_padded 2 hBase (by decide) b.toNat ends_nil
  rw [numeral_append hDigits (by decide) ends_nil] at hValue
  obtain ⟨high, low, hPair⟩ := List.length_eq_two.mp hLength
  rw [hPair, List.foldl_cons, List.foldl_cons, List.foldl_nil, Nat.zero_mul, Nat.zero_add] at hValue
  rw [hexByte, hPair]
  change UInt8.ofNat (digitValue high * 16 + digitValue low) :: rowBytes s = b :: rowBytes s
  rw [hValue, UInt8.ofNat_toNat]

theorem rowBytes_flatMap (bytes : List UInt8) : rowBytes (bytes.flatMap hexByte) = bytes := by
  induction bytes with
  | nil => rfl
  | cons b bytes ih => rw [List.flatMap_cons, rowBytes_hexByte, ih]

theorem readRow_hexRow (h : ∀ b ∈ label, isDigit 16 b = true) (bytes : List UInt8) :
    readRow (hexRow label bytes) = bytes := by
  have hColon : ∀ b ∈ label, decide (b ≠ 58) = true := fun b hb => by
    rw [decide_eq_true_iff]
    rintro rfl
    exact absurd (h 58 hb) (by decide)
  rw [readRow, hexRow, List.dropWhile_append_of_pos hColon]
  exact rowBytes_flatMap bytes

theorem readLabel_hexRow (width n : Nat) (bytes : List UInt8) : readLabel (hexRow (padded width 16 n) bytes) = n :=
  numeral_padded width (by decide) (by decide) n (ends_cons (by decide))

end Rows

end IotRange
