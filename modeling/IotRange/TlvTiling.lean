import IotRange.AppTlv

/-! # What a TLV scan passes over

From offset 0 on, calls of `tlv_decode_field` cut the data into TLVs without gap or overlap, and
they stop at the end of the data or at an error after at most half as many calls as there are bytes.
-/
namespace IotRange.TlvTiling
open AppTlv
set_option autoImplicit false

/-- Neither `*offset += 2` nor `*offset += *value_len` wraps or leaves the data. -/
structure Advances (data : Payload) (offset : UInt16) : Prop where
  header : ¬ data.bytes.length < offset.toNat + 2 →
    (offset + 2).toNat = offset.toNat + 2 ∧ (offset + 2).toNat ≤ data.bytes.length
  value : ∀ t next, tlvDecodeField data offset = .ok (t, next) →
    next = offset + 2 + (UInt8.ofNat t.value.length).toUInt16 ∧ next.toNat = offset.toNat + (2 + t.value.length) ∧
      next.toNat ≤ data.bytes.length

/-- Where the calls end. -/
def Stops (data : Payload) (offset : UInt16) : Prop :=
  offset.toNat = data.bytes.length ∨
    offset.toNat < data.bytes.length ∧ ∃ e, tlvDecodeField data offset = .error e

/-- `while (offset < data_len)`, given up after so many tests of the condition. -/
def scanLoop (data : Payload) : Nat → UInt16 → UInt8 → Option (Except TlvError UInt8)
  | 0, _, _ => none
  | fuel + 1, offset, actualCount =>
    if offset.toNat < data.bytes.length then
      match tlvDecodeField data offset with
      | .error e => some (.error e)
      | .ok (_, next) => scanLoop data fuel next (actualCount + 1)
    else some (.ok actualCount)

structure Tiles (data : Payload) : Prop where
  advances : ∀ ts offset, Decodes data 0 ts offset → Advances data offset
  /-- The TLVs so far are the data so far, and half as many calls as bytes bring the offset there. -/
  contiguous : ∀ ts offset, Decodes data 0 ts offset → offset.toNat ≤ data.bytes.length ∧
    data.bytes.take offset.toNat = encodeAll ts ∧ 2 * ts.length ≤ offset.toNat
  ends : ∃ ts offset, Decodes data 0 ts offset ∧ Stops data offset
  whole : ∀ ts, Decodes data 0 ts (UInt16.ofNat data.bytes.length) ↔ data.bytes = encodeAll ts
  fails : (∃ ts offset e, Decodes data 0 ts offset ∧ offset.toNat < data.bytes.length ∧
    tlvDecodeField data offset = .error e) ↔ ¬ ∃ ts, data.bytes = encodeAll ts
  unique : ∀ ts ts', data.bytes = encodeAll ts → data.bytes = encodeAll ts' → ts = ts'
  terminates : ∀ fuel, data.bytes.length / 2 < fuel → scanLoop data fuel 0 0 = some (tlvScan data 0 0)

section Offsets

variable {data : Payload} {offset next : UInt16} {t : Tlv} {ts : List Tlv}

theorem advances (data : Payload) (offset : UInt16) : Advances data offset := by
  have hData := data.length_lt
  have hHeader : ¬ data.bytes.length < offset.toNat + 2 → (offset + 2).toNat = offset.toNat + 2 := by
    intro hFits
    rw [UInt16.toNat_add, show (2 : UInt16).toNat = 2 from rfl]
    omega
  refine ⟨fun hFits => ⟨hHeader hFits, ?_⟩, fun t next hDecode => ?_⟩
  · rw [hHeader hFits]
    exact not_lt.mp hFits
  · obtain ⟨-, hNext, hLe⟩ := tlvDecodeField_eq_ok hDecode
    rw [Tlv.length_bytes] at hNext
    refine ⟨?_, hNext, hLe⟩
    apply UInt16.toNat_inj.mp
    rw [UInt16.toNat_add, hHeader (by omega), UInt8.toNat_toUInt16, t.toNat_length]
    omega

theorem contiguous (h : Decodes data 0 ts offset) :
    offset.toNat ≤ data.bytes.length ∧ data.bytes.take offset.toNat = encodeAll ts := by
  obtain ⟨hBytes, hOffset⟩ := h.bytes
  rw [UInt16.toNat_zero, Nat.zero_add] at hOffset
  rw [UInt16.toNat_zero, List.drop_zero] at hBytes
  have hLength := congrArg List.length hBytes
  rw [List.length_append] at hLength
  refine ⟨by omega, ?_⟩
  rw [hOffset, hBytes, List.take_left]

/-- From any offset in the data the calls stop. -/
theorem exists_stops {offset : UInt16} (h : offset.toNat ≤ data.bytes.length) :
    ∃ ts last, Decodes data offset ts last ∧ Stops data last := by
  induction hLeft : data.bytes.length - offset.toNat using Nat.strong_induction_on generalizing offset with
  | _ left ih =>
    obtain hEnd | hInside := Nat.eq_or_lt_of_le h
    · exact ⟨[], offset, .nil offset, .inl hEnd⟩
    · cases hDecode : tlvDecodeField data offset with
      | error e => exact ⟨[], offset, .nil offset, .inr ⟨hInside, e, hDecode⟩⟩
      | ok p =>
        obtain ⟨t, next⟩ := p
        obtain ⟨-, hNext, hLe⟩ := (advances data offset).value t next hDecode
        obtain ⟨ts, last, hDecodes, hStops⟩ := ih (data.bytes.length - next.toNat) (by omega) hLe rfl
        exact ⟨t :: ts, last, .cons hDecode hDecodes, hStops⟩

theorem decodes_whole_iff : Decodes data 0 ts (UInt16.ofNat data.bytes.length) ↔ data.bytes = encodeAll ts := by
  constructor
  · intro h
    have hAll := (contiguous h).2
    rwa [UInt16.toNat_ofNat_of_lt' data.length_lt, List.take_length] at hAll
  · intro h
    exact decodes_encodeAll (Nat.zero_le _) h

/-- In front of a list of TLVs the next call succeeds. -/
theorem not_error_of_encodeAll {ts' : List Tlv} {e : TlvError} (h : Decodes data 0 ts offset)
    (hInside : offset.toNat < data.bytes.length) (hWhole : data.bytes = encodeAll ts') :
    tlvDecodeField data offset ≠ .error e := by
  obtain ⟨hBytes, -⟩ := h.bytes
  rw [UInt16.toNat_zero, List.drop_zero, hWhole] at hBytes
  obtain ⟨zs, -, hRest⟩ := tlvFraming.suffix_of_prefix hBytes
  cases zs with
  | nil =>
    rw [← hWhole, List.flatMap_nil, List.drop_eq_nil_iff] at hRest
    exact absurd hInside (not_lt.mpr hRest)
  | cons z zs =>
    rw [← hWhole, List.flatMap_cons] at hRest
    obtain ⟨next, hDecode, -⟩ := tlvDecodeField_of_append hRest
    rw [hDecode]
    exact fun hError => by cases hError

theorem fails_iff :
    (∃ ts offset e, Decodes data 0 ts offset ∧ offset.toNat < data.bytes.length ∧
      tlvDecodeField data offset = .error e) ↔ ¬ ∃ ts, data.bytes = encodeAll ts := by
  constructor
  · rintro ⟨ts, offset, e, hDecodes, hInside, hError⟩ ⟨ts', hWhole⟩
    exact not_error_of_encodeAll hDecodes hInside hWhole hError
  · intro hNone
    have hStart : (0 : UInt16).toNat ≤ data.bytes.length := Nat.zero_le _
    obtain ⟨ts, offset, hDecodes, hEnd | ⟨hInside, e, hError⟩⟩ := exists_stops hStart
    · refine absurd ⟨ts, ?_⟩ hNone
      have hAll := (contiguous hDecodes).2
      rwa [hEnd, List.take_length] at hAll
    · exact ⟨ts, offset, e, hDecodes, hInside, hError⟩

/-- Each test of the condition but the last one is followed by a call that takes two bytes or more. -/
theorem scanLoop_eq {fuel : Nat} {actualCount : UInt8} (h : data.bytes.length - offset.toNat < 2 * fuel) :
    scanLoop data fuel offset actualCount = some (tlvScan data offset actualCount) := by
  induction fuel generalizing offset actualCount with
  | zero => exact absurd h (Nat.not_lt_zero _)
  | succ fuel ih =>
    rw [scanLoop, tlvScan_unfold]
    by_cases hInside : offset.toNat < data.bytes.length
    · rw [if_pos hInside, if_pos hInside]
      cases hDecode : tlvDecodeField data offset with
      | error e => rfl
      | ok p =>
        obtain ⟨t, next⟩ := p
        obtain ⟨-, hNext, hLe⟩ := (advances data offset).value t next hDecode
        exact ih (by omega)
    · rw [if_neg hInside, if_neg hInside]

end Offsets

/-- The scan of any data ends, and what it passes over are the TLVs of the data, without gap or overlap. -/
theorem tiles (data : Payload) : Tiles data where
  advances _ offset _ := advances data offset
  contiguous ts offset h := by
    obtain ⟨hLe, hBytes⟩ := contiguous h
    have hLength := congrArg List.length hBytes
    rw [List.length_take_of_le hLe] at hLength
    exact ⟨hLe, hBytes, hLength ▸ two_mul_length_le ts⟩
  ends := exists_stops (Nat.zero_le _)
  whole _ := decodes_whole_iff
  fails := fails_iff
  unique _ _ h h' := tlvFraming.flatMap_encode_injective (h.symm.trans h')
  terminates fuel h := scanLoop_eq (by rw [UInt16.toNat_zero]; omega)

end IotRange.TlvTiling
