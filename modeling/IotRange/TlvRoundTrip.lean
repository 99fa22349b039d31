import IotRange.AppTlv
import IotRange.Library.Reassembly

/-! # TLV lists, written and read back

`tlv_encode_field` returns 2 + `value_len` in eight bits, so the field behind a long value is written
over it. The long value itself can only be the last one of a list that comes back.
-/
namespace IotRange.TlvRoundTrip
open AppTlv
set_option autoImplicit false

/-- `pos += tlv_encode_field(&buf[pos], ...)`, one field after another: the buffer and `pos` after it. -/
def encodeFields (buf : List UInt8) (pos : Nat) : List Tlv → List UInt8 × Nat
  | [] => (buf, pos)
  | t :: ts =>
    let (bytes, ret) := tlvEncodeField t.fieldId t.value
    encodeFields (writeAt buf pos bytes) (pos + ret.toNat) ts

def ReturnsSize (t : Tlv) : Prop := (tlvEncodeField t.fieldId t.value).2.toNat = 2 + t.value.length

/-- Whatever the buffer held, decoding from its start gives the list and ends at the total length. -/
def ReadsBack (ts : List Tlv) : Prop :=
  ∀ (buf : List UInt8) (data : Payload), (encodeAll ts).length ≤ buf.length →
    data.bytes = (encodeFields buf 0 ts).1.take (encodeAll ts).length →
      Decodes data 0 ts (UInt16.ofNat (encodeAll ts).length)

structure RoundTrips (ts : List Tlv) : Prop where
  returned : ∀ t ∈ ts, ReturnsSize t
  readBack : ReadsBack ts

/-! ## What is returned -/

section Return

variable (t : Tlv)

theorem toNat_tlvEncodeField :
    (tlvEncodeField t.fieldId t.value).2.toNat = (2 + t.value.length) % 256 := by
  have hLength := t.toNat_length
  rw [tlvEncodeField, UInt8.toNat_add, hLength]
  rfl

theorem returnsSize_iff : ReturnsSize t ↔ t.value.length ≤ 253 := by
  have hLength := t.length_lt
  rw [ReturnsSize, toNat_tlvEncodeField]
  omega

theorem toNat_tlvEncodeField_le : (tlvEncodeField t.fieldId t.value).2.toNat ≤ t.bytes.length := by
  rw [toNat_tlvEncodeField, Tlv.length_bytes]
  exact Nat.mod_le _ _

theorem toNat_tlvEncodeField_of_short (h : t.value.length ≤ 253) :
    (tlvEncodeField t.fieldId t.value).2.toNat = t.bytes.length := by
  rw [Tlv.length_bytes]
  exact (returnsSize_iff t).mpr h

/-- The field behind a long value is written 256 bytes too early. -/
theorem toNat_tlvEncodeField_of_long (h : 253 < t.value.length) :
    (tlvEncodeField t.fieldId t.value).2.toNat + 256 = t.bytes.length := by
  have hLength := t.length_lt
  rw [toNat_tlvEncodeField, Tlv.length_bytes]
  omega

end Return

/-! ## Lists that are written one behind the other -/

theorem encodeFields_cons (buf : List UInt8) (pos : Nat) (t : Tlv) (ts : List Tlv) :
    encodeFields buf pos (t :: ts) =
      encodeFields (writeAt buf pos t.bytes) (pos + (tlvEncodeField t.fieldId t.value).2.toNat) ts := rfl

/-- With short values in front of the last field the buffer holds the encodings in a row. -/
theorem encodeFields_of_short {buf : List UInt8} {pos : Nat} {ts : List Tlv}
    (h : ∀ t ∈ ts.dropLast, t.value.length ≤ 253) (hFits : pos + (encodeAll ts).length ≤ buf.length) :
    (encodeFields buf pos ts).1 = writeAt buf pos (encodeAll ts) := by
  induction ts generalizing buf pos with
  | nil => exact (writeAt_nil buf pos).symm
  | cons t ts ih =>
    rw [length_encodeAll_cons] at hFits
    rw [encodeFields_cons]
    cases ts with
    | nil =>
      rw [encodeAll, List.flatMap_cons, List.flatMap_nil, List.append_nil]
      rfl
    | cons next ts =>
      rw [List.dropLast_cons_cons, List.forall_mem_cons] at h
      have hLength : (writeAt buf pos t.bytes).length = buf.length := length_writeAt (by omega)
      rw [toNat_tlvEncodeField_of_short t h.1, ih h.2 (by rw [hLength]; omega), writeAt_writeAt (by omega)]
      rfl

/-! ## Lists with a long value in front -/

/-- Nothing is written at or behind the end that the encodings would have. -/
theorem getElem?_encodeFields {buf : List UInt8} {pos i : Nat} {ts : List Tlv}
    (hFits : pos + (encodeAll ts).length ≤ buf.length) (h : pos + (encodeAll ts).length ≤ i) :
    (encodeFields buf pos ts).1[i]? = buf[i]? := by
  induction ts generalizing buf pos with
  | nil => rfl
  | cons t ts ih =>
    rw [length_encodeAll_cons] at h hFits
    have hReturned := toNat_tlvEncodeField_le t
    have hLength : (writeAt buf pos t.bytes).length = buf.length := length_writeAt (by omega)
    rw [encodeFields_cons, ih (by rw [hLength]; omega) (by omega)]
    exact getElem?_writeAt_of_outside (by omega) (.inr (by omega))

/-- Behind a long value the fields end early, and the last byte stays what it was. -/
theorem getElem?_encodeFields_of_long {buf : List UInt8} {pos : Nat} {ts : List Tlv}
    (hFits : pos + (encodeAll ts).length ≤ buf.length) (h : ∃ t ∈ ts.dropLast, 253 < t.value.length) :
    (encodeFields buf pos ts).1[pos + (encodeAll ts).length - 1]? = buf[pos + (encodeAll ts).length - 1]? := by
  induction ts generalizing buf pos with
  | nil => rfl
  | cons t ts ih =>
    cases ts with
    | nil =>
      obtain ⟨long, hLong, -⟩ := h
      exact absurd hLong List.not_mem_nil
    | cons next ts =>
      have hNext := next.length_bytes
      have hRest := length_encodeAll_cons next ts
      have hReturned := toNat_tlvEncodeField_le t
      have hLength : (writeAt buf pos t.bytes).length = buf.length := by
        rw [length_encodeAll_cons] at hFits
        exact length_writeAt (by omega)
      rw [length_encodeAll_cons t] at hFits ⊢
      rw [encodeFields_cons]
      have hOutside : (writeAt buf pos t.bytes)[pos + (t.bytes.length + (encodeAll (next :: ts)).length) - 1]? =
          buf[pos + (t.bytes.length + (encodeAll (next :: ts)).length) - 1]? :=
        getElem?_writeAt_of_outside (by omega) (.inr (by omega))
      rw [← hOutside]
      by_cases hLong : 253 < t.value.length
      · have hEarly := toNat_tlvEncodeField_of_long t hLong
        exact getElem?_encodeFields (by rw [hLength]; omega) (by omega)
      · have hLater : ∃ t ∈ (next :: ts).dropLast, 253 < t.value.length := by
          rw [List.dropLast_cons_cons] at h
          obtain ⟨long, hMem, hValue⟩ := h
          obtain rfl | hMem := List.mem_cons.mp hMem
          · exact absurd hValue hLong
          · exact ⟨long, hMem, hValue⟩
        rw [toNat_tlvEncodeField_of_short t (not_lt.mp hLong), ← Nat.add_assoc]
        exact ih (by rw [hLength]; omega) hLater

/-! ## Reading back -/

section ReadBack

variable {ts : List Tlv}

theorem readsBack_of_short (h : ∀ t ∈ ts.dropLast, t.value.length ≤ 253) : ReadsBack ts := by
  intro buf data hFits hData
  rw [encodeFields_of_short h (by omega), writeAt_zero, List.take_left] at hData
  rw [← hData]
  exact decodes_encodeAll (Nat.zero_le _) hData

/-- A list that comes back is all that the buffer holds. -/
theorem take_of_readsBack (h : ReadsBack ts) (hTotal : (encodeAll ts).length < 2 ^ 16) {buf : List UInt8}
    (hFits : (encodeAll ts).length ≤ buf.length) :
    (encodeFields buf 0 ts).1.take (encodeAll ts).length = encodeAll ts := by
  have hLength : ((encodeFields buf 0 ts).1.take (encodeAll ts).length).length ≤ (encodeAll ts).length :=
    List.length_take_le _ _
  let data : Payload := ⟨(encodeFields buf 0 ts).1.take (encodeAll ts).length, Nat.lt_of_le_of_lt hLength hTotal⟩
  obtain ⟨hBytes, -⟩ := (h buf data hFits rfl).bytes
  have hEnd : data.bytes.drop (UInt16.ofNat (encodeAll ts).length).toNat = [] := by
    rw [UInt16.toNat_ofNat_of_lt' hTotal]
    exact List.drop_eq_nil_of_le hLength
  rwa [hEnd, List.append_nil] at hBytes

/-- The last byte of the buffer shows through behind a long value. -/
theorem getElem?_of_readsBack (h : ReadsBack ts) (hTotal : (encodeAll ts).length < 2 ^ 16)
    (hLong : ∃ t ∈ ts.dropLast, 253 < t.value.length) (b : UInt8) :
    (encodeAll ts)[(encodeAll ts).length - 1]? = some b := by
  have hPos : 0 < (encodeAll ts).length := by
    obtain ⟨long, hMem, -⟩ := hLong
    cases ts with
    | nil => exact absurd hMem List.not_mem_nil
    | cons t ts =>
      rw [length_encodeAll_cons, Tlv.length_bytes]
      omega
  have hLength : (List.replicate (encodeAll ts).length b).length = (encodeAll ts).length := List.length_replicate
  have hTake := take_of_readsBack h hTotal hLength.ge
  have hByte : (encodeFields (List.replicate (encodeAll ts).length b) 0 ts).1[0 + (encodeAll ts).length - 1]? = _ :=
    getElem?_encodeFields_of_long (by rw [hLength, Nat.zero_add]) hLong
  rw [Nat.zero_add, List.getElem?_replicate_of_lt (by omega)] at hByte
  have hInside := List.getElem?_take_of_lt (l := (encodeFields (List.replicate (encodeAll ts).length b) 0 ts).1)
    (by omega : (encodeAll ts).length - 1 < (encodeAll ts).length)
  rw [hTake] at hInside
  exact hInside.trans hByte

/-- The long values that come back are those at the end of a list. -/
theorem readsBack_iff (hTotal : (encodeAll ts).length < 2 ^ 16) :
    ReadsBack ts ↔ ∀ t ∈ ts.dropLast, t.value.length ≤ 253 := by
  constructor
  · intro h
    by_contra hLong
    push Not at hLong
    have hZero := getElem?_of_readsBack h hTotal hLong 0
    rw [getElem?_of_readsBack h hTotal hLong 1] at hZero
    cases hZero
  · exact readsBack_of_short

end ReadBack

/-- The list makes the round trip exactly when every value leaves room for its header in eight bits. -/
theorem roundTrips_iff (ts : List Tlv) : RoundTrips ts ↔ ∀ t ∈ ts, t.value.length ≤ 253 := by
  constructor
  · exact fun h t ht => (returnsSize_iff t).mp (h.returned t ht)
  · intro h
    refine ⟨fun t ht => (returnsSize_iff t).mpr (h t ht), ?_⟩
    exact readsBack_of_short fun t ht => h t (List.dropLast_subset ts ht)

def modeField : Tlv := Tlv.ofSlice 0x20 1 [0x01]
def longField : Tlv := Tlv.ofSlice 0x30 254 (List.replicate 254 0)

theorem length_longField : longField.value.length = 254 := by
  rw [longField, Tlv.ofSlice, List.length_take, List.length_replicate]
  rfl

/-- The field behind a value of 254 bytes is written over it. -/
theorem longField_not_roundTrips :
    (encodeAll [longField, modeField]).length = 259 ∧ ¬ RoundTrips [longField, modeField] := by
  have hTotal : (encodeAll [longField, modeField]).length = 259 := by
    rw [length_encodeAll_cons, Tlv.length_bytes, length_longField]
    rfl
  refine ⟨hTotal, fun h => ?_⟩
  have hShort := (readsBack_iff (by rw [hTotal]; decide)).mp h.readBack longField (List.mem_singleton_self _)
  rw [length_longField] at hShort
  exact absurd hShort (by decide)

end IotRange.TlvRoundTrip
