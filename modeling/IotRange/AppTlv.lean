import IotRange.Library.Bytes
import IotRange.Library.Framing

/-! # TLV encoding and decoding (app_tlv.c)

The decoder works on a 16-bit offset into the data. Its meaning is a framing of the bytes from
that offset on: `tlvDecodeField_eq` connects the two, and the scan is read off the framing.
-/
namespace IotRange.AppTlv
set_option autoImplicit false

/-- `[FIELD_ID(1), LEN(1), VALUE(LEN)]`. -/
structure Tlv where
  fieldId : UInt8
  value : List UInt8
  length_lt : value.length < 256
  deriving DecidableEq

/-- `-1` and `-2` of `tlv_decode_field`. -/
inductive TlvError
  | header
  | value
  deriving DecidableEq, Repr

/-- The bytes stored at `buf` and the number returned. -/
def tlvEncodeField (fieldId : UInt8) (value : List UInt8) : List UInt8 × UInt8 :=
  (fieldId :: UInt8.ofNat value.length :: value, 2 + UInt8.ofNat value.length)

def Tlv.ofSlice (fieldId valueLen : UInt8) (from_ : List UInt8) : Tlv :=
  ⟨fieldId, from_.take valueLen.toNat, length_take_toNat_lt from_ valueLen⟩

def tlvDecodeField (data : Payload) (offset : UInt16) : Except TlvError (Tlv × UInt16) :=
  if data.bytes.length < offset.toNat + 2 then .error .header
  else
    let fieldId := byteAt data.bytes offset.toNat
    let valueLen := byteAt data.bytes (offset.toNat + 1)
    let offset := offset + 2
    if data.bytes.length < offset.toNat + valueLen.toNat then .error .value
    else .ok (Tlv.ofSlice fieldId valueLen (data.bytes.drop offset.toNat), offset + valueLen.toUInt16)

/-! ## The framing behind the offsets -/

namespace Tlv

def bytes (t : Tlv) : List UInt8 := t.fieldId :: UInt8.ofNat t.value.length :: t.value

@[simp] theorem length_bytes (t : Tlv) : t.bytes.length = 2 + t.value.length := by
  simp only [bytes, List.length_cons]
  omega

@[simp] theorem toNat_length (t : Tlv) : (UInt8.ofNat t.value.length).toNat = t.value.length :=
  UInt8.toNat_ofNat_of_lt' t.length_lt

def split : List UInt8 → Except TlvError (Tlv × List UInt8)
  | [] => .error .header
  | [_] => .error .header
  | fieldId :: valueLen :: rest =>
    if rest.length < valueLen.toNat then .error .value
    else .ok (ofSlice fieldId valueLen rest, rest.drop valueLen.toNat)

theorem split_eq_ok (s : List UInt8) (t : Tlv) (rest : List UInt8) :
    split s = .ok (t, rest) ↔ s = t.bytes ++ rest := by
  constructor
  · intro h
    fun_cases split s
    case case1 | case2 => cases h
    case case3 => simp_all [split]
    case case4 fieldId valueLen rest' hLength =>
      rw [split, if_neg hLength] at h
      cases h
      have hTake : (rest'.take valueLen.toNat).length = valueLen.toNat := by
        rw [List.length_take]
        omega
      simp [bytes, ofSlice, hTake]
  · rintro rfl
    have hLength : ¬ (t.value ++ rest).length < t.value.length := by simp
    simp only [bytes, List.cons_append, split, toNat_length, if_neg hLength, ofSlice,
      List.take_left', List.drop_left']

end Tlv

def tlvFraming : Framing UInt8 Tlv TlvError where
  encode := Tlv.bytes
  decode := Tlv.split
  encode_ne_nil _ := List.cons_ne_nil _ _
  decode_eq_ok := Tlv.split_eq_ok

abbrev encodeAll (ts : List Tlv) : List UInt8 := ts.flatMap Tlv.bytes

theorem length_encodeAll_cons (t : Tlv) (ts : List Tlv) :
    (encodeAll (t :: ts)).length = t.bytes.length + (encodeAll ts).length := by
  rw [encodeAll, List.flatMap_cons, List.length_append]

theorem two_mul_length_le (ts : List Tlv) : 2 * ts.length ≤ (encodeAll ts).length := by
  induction ts with
  | nil => exact Nat.zero_le _
  | cons t ts ih =>
    rw [length_encodeAll_cons, Tlv.length_bytes, List.length_cons]
    omega

theorem tlvDecodeField_eq (data : Payload) (offset : UInt16) :
    tlvDecodeField data offset =
      (Tlv.split (data.bytes.drop offset.toNat)).map fun p =>
        (p.1, UInt16.ofNat (data.bytes.length - p.2.length)) := by
  have hData := data.length_lt
  unfold tlvDecodeField
  split
  · rename_i hHeader
    have hShort : (data.bytes.drop offset.toNat).length ≤ 1 := by
      rw [List.length_drop]
      omega
    match hDrop : data.bytes.drop offset.toNat with
    | [] | [_] => rfl
    | _ :: _ :: _ => simp [hDrop] at hShort
  · rename_i hHeader
    have hOffset : (offset + 2).toNat = offset.toNat + 2 := by
      rw [UInt16.toNat_add, show (2 : UInt16).toNat = 2 from rfl]
      omega
    rw [drop_eq_cons (by omega : offset.toNat < data.bytes.length),
      drop_eq_cons (by omega : offset.toNat + 1 < data.bytes.length), Tlv.split]
    simp only [hOffset, List.length_drop, Nat.add_assoc, Nat.reduceAdd]
    by_cases hValue : data.bytes.length < offset.toNat + (2 + (byteAt data.bytes (offset.toNat + 1)).toNat)
    · rw [if_pos hValue, if_pos (by omega)]
      rfl
    · rw [if_neg hValue, if_neg (by omega)]
      simp only [Except.map, List.length_drop, Except.ok.injEq, Prod.mk.injEq, true_and]
      apply UInt16.toNat_inj.mp
      rw [UInt16.toNat_add, hOffset, UInt8.toNat_toUInt16, UInt16.toNat_ofNat']
      omega

theorem tlvDecodeField_eq_ok {data : Payload} {offset next : UInt16} {t : Tlv}
    (h : tlvDecodeField data offset = .ok (t, next)) :
    data.bytes.drop offset.toNat = t.bytes ++ data.bytes.drop next.toNat ∧
      next.toNat = offset.toNat + t.bytes.length ∧ next.toNat ≤ data.bytes.length := by
  have hData := data.length_lt
  rw [tlvDecodeField_eq] at h
  match hSplit : Tlv.split (data.bytes.drop offset.toNat) with
  | .error e => simp [hSplit, Except.map] at h
  | .ok (t', rest) =>
    rw [hSplit] at h
    obtain ⟨rfl, hEq⟩ := Prod.mk.inj (Except.ok.inj h)
    change UInt16.ofNat (data.bytes.length - rest.length) = next at hEq
    have hBytes := (Tlv.split_eq_ok _ _ _).mp hSplit
    have hLength := congrArg List.length hBytes
    rw [List.length_drop, List.length_append] at hLength
    have hPos : 0 < t'.bytes.length := List.length_pos_iff.mpr (List.cons_ne_nil _ _)
    have hNext : next.toNat = offset.toNat + t'.bytes.length := by
      rw [← hEq, UInt16.toNat_ofNat']
      omega
    refine ⟨?_, hNext, by omega⟩
    rw [hNext, ← List.drop_drop, hBytes, List.drop_left]

theorem tlvDecodeField_of_append {data : Payload} {offset : UInt16} {t : Tlv} {rest : List UInt8}
    (h : data.bytes.drop offset.toNat = t.bytes ++ rest) :
    ∃ next, tlvDecodeField data offset = .ok (t, next) ∧ data.bytes.drop next.toNat = rest := by
  have hSplit := (Tlv.split_eq_ok _ _ _).mpr h
  refine ⟨UInt16.ofNat (data.bytes.length - rest.length), ?_, ?_⟩
  · rw [tlvDecodeField_eq, hSplit]
    rfl
  · have hDecode : tlvDecodeField data offset = .ok (t, UInt16.ofNat (data.bytes.length - rest.length)) := by
      rw [tlvDecodeField_eq, hSplit]
      rfl
    have hBytes := (tlvDecodeField_eq_ok hDecode).1
    rw [h] at hBytes
    exact (List.append_cancel_left hBytes).symm

/-! ## Decoding one TLV after another -/

/-- Calls of `tlv_decode_field` from an offset on, the TLVs they yield and the offset they end at. -/
inductive Decodes (data : Payload) : UInt16 → List Tlv → UInt16 → Prop
  | nil (offset : UInt16) : Decodes data offset [] offset
  | cons {offset next last : UInt16} {t : Tlv} {ts : List Tlv}
      (head : tlvDecodeField data offset = .ok (t, next)) (tail : Decodes data next ts last) :
      Decodes data offset (t :: ts) last

theorem decodes_encodeAll {data : Payload} {ts : List Tlv} {offset : UInt16}
    (hOffset : offset.toNat ≤ data.bytes.length) (h : data.bytes.drop offset.toNat = encodeAll ts) :
    Decodes data offset ts (UInt16.ofNat data.bytes.length) := by
  induction ts generalizing offset with
  | nil =>
    have hEnd : data.bytes.length = offset.toNat :=
      Nat.le_antisymm (List.drop_eq_nil_iff.mp h) hOffset
    rw [hEnd, UInt16.ofNat_toNat]
    exact .nil offset
  | cons t ts ih =>
    obtain ⟨next, hDecode, hRest⟩ := tlvDecodeField_of_append h
    obtain ⟨-, -, hNext⟩ := tlvDecodeField_eq_ok hDecode
    exact .cons hDecode (ih hNext hRest)

/-- The bytes passed over are the encodings of what was decoded. -/
theorem Decodes.bytes {data : Payload} {ts : List Tlv} {offset last : UInt16} (h : Decodes data offset ts last) :
    data.bytes.drop offset.toNat = encodeAll ts ++ data.bytes.drop last.toNat ∧
      last.toNat = offset.toNat + (encodeAll ts).length := by
  induction h with
  | nil offset => exact ⟨rfl, rfl⟩
  | cons head _ ih =>
    obtain ⟨hBytes, hNext, -⟩ := tlvDecodeField_eq_ok head
    obtain ⟨hRest, hLast⟩ := ih
    rw [encodeAll, List.flatMap_cons, List.append_assoc, ← hRest, List.length_append, hLast]
    exact ⟨hBytes, by rw [hNext, Nat.add_assoc]⟩

/-! ## Scanning a whole list -/

/-- `while (offset < data_len)`: the number of TLVs met, counted in 8 bits. -/
def tlvScan (data : Payload) (offset : UInt16) (actualCount : UInt8) : Except TlvError UInt8 :=
  if offset.toNat < data.bytes.length then
    match _h : tlvDecodeField data offset with
    | .error e => .error e
    | .ok (_, next) => tlvScan data next (actualCount + 1)
  else .ok actualCount
termination_by data.bytes.length - offset.toNat
decreasing_by
  obtain ⟨-, hNext, hLe⟩ := tlvDecodeField_eq_ok _h
  rw [Tlv.length_bytes] at hNext
  omega

theorem tlvScan_unfold (data : Payload) (offset : UInt16) (actualCount : UInt8) :
    tlvScan data offset actualCount =
      if offset.toNat < data.bytes.length then
        match tlvDecodeField data offset with
        | .error e => .error e
        | .ok (_, next) => tlvScan data next (actualCount + 1)
      else .ok actualCount := by
  rw [tlvScan]
  split
  · split
    · rename_i hDecode
      rw [hDecode]
    · rename_i hDecode
      rw [hDecode]
  · rfl

/-- `true` is the result `0`, `false` is `-1`. -/
def tlvValidatePayload (data : Payload) (fieldCount : UInt8) : Bool :=
  match tlvScan data 0 0 with
  | .error _ => false
  | .ok actualCount => actualCount == fieldCount

theorem tlvScan_eq (data : Payload) (offset : UInt16) (actualCount : UInt8) :
    tlvScan data offset actualCount =
      (tlvFraming.splitAll (data.bytes.drop offset.toNat)).map fun ts => actualCount + UInt8.ofNat ts.length := by
  fun_induction tlvScan data offset actualCount with
  | case1 offset actualCount hOffset e hDecode =>
    have hNonempty : data.bytes.drop offset.toNat ≠ [] := by
      rw [Ne, List.drop_eq_nil_iff]
      omega
    rw [tlvDecodeField_eq] at hDecode
    match hSplit : Tlv.split (data.bytes.drop offset.toNat) with
    | .error e' =>
      rw [hSplit] at hDecode
      cases hDecode
      rw [tlvFraming.splitAll_of_error hNonempty hSplit]
      rfl
    | .ok (t, rest) =>
      rw [hSplit] at hDecode
      cases hDecode
  | case2 offset actualCount hOffset t next hDecode ih =>
    obtain ⟨hBytes, -, -⟩ := tlvDecodeField_eq_ok hDecode
    rw [hBytes, show t.bytes = tlvFraming.encode t from rfl, Framing.splitAll_encode, ih]
    cases tlvFraming.splitAll (data.bytes.drop next.toNat) with
    | error e => rfl
    | ok ts =>
      simp only [Except.map, List.length_cons, Except.ok.injEq]
      rw [UInt8.ofNat_add, UInt8.add_assoc, UInt8.add_comm 1]
      rfl
  | case3 offset actualCount hOffset =>
    rw [List.drop_eq_nil_of_le (by omega), Framing.splitAll_nil]
    simp [Except.map]

/-- The pre-scan accepts exactly the data whose TLV count agrees with the declared one modulo 256. -/
theorem tlvValidatePayload_iff (data : Payload) (fieldCount : UInt8) :
    tlvValidatePayload data fieldCount = true ↔
      ∃ ts, data.bytes = encodeAll ts ∧ UInt8.ofNat ts.length = fieldCount := by
  rw [tlvValidatePayload, tlvScan_eq]
  simp only [show (0 : UInt16).toNat = 0 from rfl, List.drop_zero, UInt8.zero_add]
  cases hSplit : tlvFraming.splitAll data.bytes with
  | error e =>
    simp only [Except.map, Bool.false_eq_true, false_iff]
    rintro ⟨ts, hBytes, -⟩
    rw [tlvFraming.splitAll_eq_ok.mpr hBytes] at hSplit
    cases hSplit
  | ok ts =>
    have hBytes := tlvFraming.splitAll_eq_ok.mp hSplit
    simp only [Except.map, beq_iff_eq]
    constructor
    · intro hCount
      exact ⟨ts, hBytes, hCount⟩
    · rintro ⟨ts', hBytes', hCount⟩
      rw [tlvFraming.flatMap_encode_injective (hBytes.symm.trans hBytes')]
      exact hCount

end IotRange.AppTlv
