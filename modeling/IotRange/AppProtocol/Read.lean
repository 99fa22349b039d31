import IotRange.AppFields
import IotRange.AppTlv
import Mathlib.Algebra.GroupWithZero.Nat

/-! # CMD 0x01, reading fields (app_protocol.c)

The response buffer is the bytes written so far, so its length is the C code's `pos`. Each field
appends one TLV; `appendFields_of_fits` gives the two loops over field ids in closed form.
-/
namespace IotRange.AppProtocol
open AppFields AppTlv
set_option autoImplicit false

def allReadableFields : List UInt8 := [
  fieldDeviceState, fieldDeviceType, fieldModel, fieldSn, fieldFwVer, fieldHwVer,
  fieldProtocolVersion, fieldBattery, fieldTemperature, fieldDistance, fieldPosition,
  fieldMode, fieldUpdateInterval, fieldInstallLocation, fieldGnssFix, fieldLatitude,
  fieldLongitude, fieldAltitude]

/-- `sizeof(val_buf)`. -/
def valBufSize : Nat := 32

/-- The returned code, `0` for an unsupported field and `0xFF` for a full buffer, and the buffer. -/
def appendFieldToResp (f : Store) (fieldId : UInt8) (resp : List UInt8) (respMax : Nat) : UInt8 × List UInt8 :=
  let value := appFieldGet f fieldId valBufSize
  if value.length = 0 then (0, resp)
  else
    let tlvSize := 2 + UInt8.ofNat value.length
    if resp.length + tlvSize.toNat > respMax then (0xFF, resp)
    else (tlvSize, resp ++ (tlvEncodeField fieldId value).1)

def appendFields (counts : UInt8 → Bool) (f : Store) (respMax : Nat) :
    List UInt8 → List UInt8 → UInt8 → Except UInt8 (List UInt8 × UInt8)
  | [], resp, actualCount => .ok (resp, actualCount)
  | fieldId :: fieldIds, resp, actualCount =>
    let (ret, resp) := appendFieldToResp f fieldId resp respMax
    if ret = 0xFF then .error fieldId
    else appendFields counts f respMax fieldIds resp (if counts ret then actualCount + 1 else actualCount)

/-- `resp[2]` is filled in last. -/
def finishRead : Except UInt8 (List UInt8 × UInt8) → List UInt8
  | .error fieldId => [cmdRead, Status.unknown.code, fieldId]
  | .ok (resp, actualCount) => writeAt resp 2 [actualCount]

def readAllFields (f : Store) (respMax : Nat) : List UInt8 :=
  finishRead (appendFields (0 < ·) f respMax allReadableFields [cmdRead, Status.ok.code, 0] 0)

def readListedFields (f : Store) (fieldIds : List UInt8) (respMax : Nat) : List UInt8 :=
  match fieldIds.find? fun fieldId => (appFieldGet f fieldId valBufSize).length = 0 with
  | some fieldId => [cmdRead, Status.unsupported.code, fieldId]
  | none => finishRead (appendFields (fun _ => true) f respMax fieldIds [cmdRead, Status.ok.code, 0] 0)

def handleCmdRead (f : Store) (req : List UInt8) (respMax : Nat) : Store × List UInt8 :=
  if req.length < 6 then
    (f, if respMax < 3 then [] else [cmdRead, Status.paramLen.code, 0x00])
  else
    let f := appFieldSetUnixtime f (readBe32 (req.drop 1))
    let fieldCount := byteAt req 5
    let fieldList := req.drop 6
    let fieldListLen := UInt8.ofNat (req.length - 6)
    if respMax < 3 then (f, [])
    else if fieldCount = 0 then (f, readAllFields f respMax)
    else if fieldCount > fieldListLen then (f, [cmdRead, Status.paramLen.code, 0x00])
    else (f, readListedFields f (fieldList.take fieldCount.toNat) respMax)

/-! ## One field -/

theorem length_appFieldGet_le (f : Store) (fieldId : UInt8) : (appFieldGet f fieldId valBufSize).length ≤ 8 := by
  unfold appFieldGet
  split
  · exact Nat.zero_le _
  · split
    all_goals first | decide | simp [valBufSize, putU16Be, putU32Be]

/-- The size of a readable field's TLV, the same in every store. -/
def replySize (fieldId : UInt8) : Nat :=
  match fieldId with
  | fieldModel => 2 + gModel.length
  | fieldSn => 2 + gSn.length
  | _ => 2 + fieldValueLen fieldId

theorem length_appFieldGet (f : Store) {fieldId : UInt8} (h : fieldIsReadable fieldId = true) :
    2 + (appFieldGet f fieldId valBufSize).length = replySize fieldId := by
  unfold fieldIsReadable at h
  split at h
  all_goals first | rfl | cases h

theorem three_le_replySize {fieldId : UInt8} (h : fieldIsReadable fieldId = true) : 3 ≤ replySize fieldId := by
  unfold fieldIsReadable at h
  split at h
  all_goals first | decide | cases h

theorem appFieldGet_ne_nil_iff (f : Store) (fieldId : UInt8) :
    appFieldGet f fieldId valBufSize ≠ [] ↔ fieldIsReadable fieldId = true := by
  constructor
  · intro hNonempty
    by_contra hReadable
    exact hNonempty (appFieldGet_of_not_readable (Bool.eq_false_iff.mpr hReadable))
  · intro hReadable hNil
    have hSize := length_appFieldGet f hReadable
    have hThree := three_le_replySize hReadable
    rw [hNil, List.length_nil] at hSize
    omega

def fieldTlv (f : Store) (fieldId : UInt8) : Tlv :=
  ⟨fieldId, appFieldGet f fieldId valBufSize, Nat.lt_of_le_of_lt (length_appFieldGet_le f fieldId) (by decide)⟩

theorem toNat_tlvSize (f : Store) (fieldId : UInt8) :
    (2 + UInt8.ofNat (appFieldGet f fieldId valBufSize).length).toNat = (fieldTlv f fieldId).bytes.length := by
  have hLength := length_appFieldGet_le f fieldId
  rw [UInt8.toNat_add, UInt8.toNat_ofNat_of_lt' (Nat.lt_of_le_of_lt hLength (by decide)), Tlv.length_bytes]
  exact Nat.mod_eq_of_lt (Nat.lt_of_le_of_lt (Nat.add_le_add_left hLength 2) (by decide))

theorem appendFieldToResp_eq {f : Store} {fieldId : UInt8} {resp : List UInt8} {respMax : Nat}
    (h : fieldIsReadable fieldId = true) :
    appendFieldToResp f fieldId resp respMax =
      if resp.length + (fieldTlv f fieldId).bytes.length ≤ respMax then
        (UInt8.ofNat (fieldTlv f fieldId).bytes.length, resp ++ (fieldTlv f fieldId).bytes)
      else (0xFF, resp) := by
  have hPos := List.length_pos_iff.mpr ((appFieldGet_ne_nil_iff f fieldId).mpr h)
  have hSize := toNat_tlvSize f fieldId
  simp only [appendFieldToResp, if_neg (Nat.ne_of_gt hPos), hSize]
  by_cases hFits : resp.length + (fieldTlv f fieldId).bytes.length ≤ respMax
  · rw [if_neg (not_lt.mpr hFits), if_pos hFits, ← hSize, UInt8.ofNat_toNat]
    rfl
  · rw [if_pos (not_le.mp hFits), if_neg hFits]

@[simp] theorem appFieldGet_appFieldSetUnixtime (f : Store) (ts : UInt32) (fieldId : UInt8) (bufMax : Nat) :
    appFieldGet (appFieldSetUnixtime f ts) fieldId bufMax = appFieldGet f fieldId bufMax := rfl

/-! ## The loops -/

def fieldTlvs (f : Store) (fieldIds : List UInt8) : List UInt8 := encodeAll (fieldIds.map (fieldTlv f))

@[simp] theorem fieldTlvs_cons (f : Store) (fieldId : UInt8) (fieldIds : List UInt8) :
    fieldTlvs f (fieldId :: fieldIds) = (fieldTlv f fieldId).bytes ++ fieldTlvs f fieldIds := rfl

theorem length_fieldTlvs (f : Store) {fieldIds : List UInt8}
    (h : ∀ fieldId ∈ fieldIds, fieldIsReadable fieldId = true) :
    (fieldTlvs f fieldIds).length = (fieldIds.map replySize).sum := by
  induction fieldIds with
  | nil => rfl
  | cons fieldId fieldIds ih =>
    rw [List.forall_mem_cons] at h
    rw [fieldTlvs_cons, List.length_append, ih h.2, Tlv.length_bytes, List.map_cons, List.sum_cons,
      ← length_appFieldGet f h.1]
    rfl

theorem tlvSize_ne (f : Store) (fieldId : UInt8) :
    UInt8.ofNat (fieldTlv f fieldId).bytes.length ≠ 0xFF ∧ UInt8.ofNat (fieldTlv f fieldId).bytes.length ≠ 0 := by
  have hLength := length_appFieldGet_le f fieldId
  have hSize : (UInt8.ofNat (fieldTlv f fieldId).bytes.length).toNat =
    2 + (appFieldGet f fieldId valBufSize).length := by
    rw [Tlv.length_bytes]
    exact UInt8.toNat_ofNat_of_lt' (Nat.lt_of_le_of_lt (Nat.add_le_add_left hLength 2) (by decide))
  constructor <;> intro hEq <;> rw [hEq] at hSize
  · change 255 = _ at hSize
    omega
  · change 0 = _ at hSize
    omega

section Loop

variable {counts : UInt8 → Bool} {f : Store} {fieldIds resp : List UInt8} {actualCount : UInt8} {respMax : Nat}

theorem appendFields_of_fits (hCounts : ∀ ret, ret ≠ 0 → counts ret = true)
    (h : ∀ fieldId ∈ fieldIds, fieldIsReadable fieldId = true)
    (hFits : resp.length + (fieldTlvs f fieldIds).length ≤ respMax) :
    appendFields counts f respMax fieldIds resp actualCount =
      .ok (resp ++ fieldTlvs f fieldIds, actualCount + UInt8.ofNat fieldIds.length) := by
  induction fieldIds generalizing resp actualCount with
  | nil => simp [appendFields, fieldTlvs]
  | cons fieldId fieldIds ih =>
    rw [List.forall_mem_cons] at h
    rw [fieldTlvs_cons, List.length_append] at hFits
    obtain ⟨hSize, hZero⟩ := tlvSize_ne f fieldId
    have hOne : resp.length + (fieldTlv f fieldId).bytes.length ≤ respMax := by omega
    have hRest : (resp ++ (fieldTlv f fieldId).bytes).length + (fieldTlvs f fieldIds).length ≤ respMax := by
      rw [List.length_append]
      omega
    simp only [appendFields, appendFieldToResp_eq h.1, if_pos hOne, if_neg hSize, hCounts _ hZero, if_true]
    rw [ih h.2 hRest, fieldTlvs_cons, List.append_assoc, List.length_cons, UInt8.ofNat_add, UInt8.add_assoc,
      UInt8.add_comm 1]
    rfl

theorem appendFields_of_full (h : ∀ fieldId ∈ fieldIds, fieldIsReadable fieldId = true)
    (hResp : resp.length ≤ respMax) (hFull : respMax < resp.length + (fieldTlvs f fieldIds).length) :
    ∃ fieldId, appendFields counts f respMax fieldIds resp actualCount = .error fieldId := by
  induction fieldIds generalizing resp actualCount with
  | nil =>
    simp only [fieldTlvs, encodeAll, List.map_nil, List.flatMap_nil, List.length_nil] at hFull
    omega
  | cons fieldId fieldIds ih =>
    rw [List.forall_mem_cons] at h
    rw [fieldTlvs_cons, List.length_append] at hFull
    obtain ⟨hSize, -⟩ := tlvSize_ne f fieldId
    simp only [appendFields, appendFieldToResp_eq h.1]
    by_cases hOne : resp.length + (fieldTlv f fieldId).bytes.length ≤ respMax
    · simp only [if_pos hOne, if_neg hSize]
      refine ih h.2 ?_ ?_
      · rwa [List.length_append]
      · rw [List.length_append]
        omega
    · exact ⟨fieldId, by simp only [if_neg hOne, if_true]⟩

end Loop

/-! ## Replies -/

def readHeader (count : UInt8) : List UInt8 := [cmdRead, Status.ok.code, count]

theorem writeAt_header (rest : List UInt8) (count : UInt8) :
    writeAt ([cmdRead, Status.ok.code, 0] ++ rest) 2 [count] = readHeader count ++ rest := by
  simp [writeAt, readHeader]

def ReadFits (fieldIds : List UInt8) (respMax : Nat) : Prop :=
  (∀ fieldId ∈ fieldIds, fieldIsReadable fieldId = true) ∧ 3 + (fieldIds.map replySize).sum ≤ respMax

def fieldsReply (f : Store) (fieldIds : List UInt8) : List UInt8 :=
  readHeader (UInt8.ofNat fieldIds.length) ++ fieldTlvs f fieldIds

theorem length_fieldsReply (f : Store) {fieldIds : List UInt8}
    (h : ∀ fieldId ∈ fieldIds, fieldIsReadable fieldId = true) :
    (fieldsReply f fieldIds).length = 3 + (fieldIds.map replySize).sum := by
  rw [fieldsReply, List.length_append, length_fieldTlvs f h]
  rfl

section Reply

variable {f : Store} {fieldIds : List UInt8} {respMax : Nat}

theorem finishRead_of_fits {counts : UInt8 → Bool} (hCounts : ∀ ret, ret ≠ 0 → counts ret = true)
    (h : ReadFits fieldIds respMax) :
    finishRead (appendFields counts f respMax fieldIds [cmdRead, Status.ok.code, 0] 0) =
      fieldsReply f fieldIds := by
  have hFits : [cmdRead, Status.ok.code, 0].length + (fieldTlvs f fieldIds).length ≤ respMax := by
    rw [length_fieldTlvs f h.1]
    exact h.2
  rw [appendFields_of_fits hCounts h.1 hFits, finishRead, writeAt_header, UInt8.zero_add, fieldsReply]

/-- With readable ids the loop ends in the whole reply or in the error reply. -/
theorem finishRead_cases {counts : UInt8 → Bool} (hCounts : ∀ ret, ret ≠ 0 → counts ret = true) (hMax : 3 ≤ respMax)
    (hReadable : ∀ fieldId ∈ fieldIds, fieldIsReadable fieldId = true) :
    let reply := finishRead (appendFields counts f respMax fieldIds [cmdRead, Status.ok.code, 0] 0)
    (∃ fieldId, reply = [cmdRead, Status.unknown.code, fieldId]) ∨
      (ReadFits fieldIds respMax ∧ reply = fieldsReply f fieldIds) := by
  by_cases hFits : 3 + (fieldIds.map replySize).sum ≤ respMax
  · exact .inr ⟨⟨hReadable, hFits⟩, finishRead_of_fits hCounts ⟨hReadable, hFits⟩⟩
  · have hFull : respMax < [cmdRead, Status.ok.code, 0].length + (fieldTlvs f fieldIds).length := by
      rw [length_fieldTlvs f hReadable]
      exact not_le.mp hFits
    obtain ⟨fieldId, hError⟩ : ∃ fieldId, appendFields counts f respMax fieldIds
        [cmdRead, Status.ok.code, 0] 0 = .error fieldId := appendFields_of_full hReadable hMax hFull
    exact .inl ⟨fieldId, by rw [hError]; rfl⟩

/-- An id that cannot be read and a full buffer have a status each. -/
theorem readListedFields_outcomes (f : Store) (fieldIds : List UInt8) (hMax : 3 ≤ respMax) :
    (∃ status fieldId, (status = Status.unsupported ∨ status = Status.unknown) ∧
        readListedFields f fieldIds respMax = [cmdRead, status.code, fieldId]) ∨
      (ReadFits fieldIds respMax ∧ readListedFields f fieldIds respMax = fieldsReply f fieldIds) := by
  match hFind : fieldIds.find? fun fieldId => (appFieldGet f fieldId valBufSize).length = 0 with
  | some fieldId =>
    refine .inl ⟨.unsupported, fieldId, .inl rfl, ?_⟩
    rw [readListedFields, hFind]
  | none =>
    have hReadable : ∀ fieldId ∈ fieldIds, fieldIsReadable fieldId = true := by
      intro fieldId hMem
      exact (appFieldGet_ne_nil_iff f fieldId).mp (by simpa using List.find?_eq_none.mp hFind fieldId hMem)
    rw [readListedFields, hFind]
    obtain ⟨fieldId, hUnknown⟩ | hFull := finishRead_cases (f := f) (fun _ _ => rfl) hMax hReadable
    · exact .inl ⟨.unknown, fieldId, .inr rfl, hUnknown⟩
    · exact .inr hFull

theorem readListedFields_cases (hMax : 3 ≤ respMax) :
    (∃ status fieldId, status ≠ Status.ok ∧
        readListedFields f fieldIds respMax = [cmdRead, status.code, fieldId]) ∨
      (ReadFits fieldIds respMax ∧ readListedFields f fieldIds respMax = fieldsReply f fieldIds) := by
  refine (readListedFields_outcomes f fieldIds hMax).imp_left ?_
  rintro ⟨status, fieldId, rfl | rfl, hRefused⟩
  · exact ⟨.unsupported, fieldId, by decide, hRefused⟩
  · exact ⟨.unknown, fieldId, by decide, hRefused⟩

theorem readListedFields_of_readable (h : ∀ fieldId ∈ fieldIds, fieldIsReadable fieldId = true) :
    readListedFields f fieldIds respMax =
      finishRead (appendFields (fun _ => true) f respMax fieldIds [cmdRead, Status.ok.code, 0] 0) := by
  have hFind : (fieldIds.find? fun fieldId => (appFieldGet f fieldId valBufSize).length = 0) = none := by
    rw [List.find?_eq_none]
    intro fieldId hMem
    simpa using (appFieldGet_ne_nil_iff f fieldId).mpr (h fieldId hMem)
  rw [readListedFields, hFind]

theorem readListedFields_of_fits (h : ReadFits fieldIds respMax) :
    readListedFields f fieldIds respMax = fieldsReply f fieldIds := by
  rw [readListedFields_of_readable h.1]
  exact finishRead_of_fits (fun _ _ => rfl) h

theorem length_readListedFields_of_not_fits (hMax : 3 ≤ respMax) (h : ¬ ReadFits fieldIds respMax) :
    (readListedFields f fieldIds respMax).length = 3 := by
  obtain ⟨status, fieldId, -, hRefused⟩ | ⟨hFits, -⟩ := readListedFields_cases (f := f) hMax
  · rw [hRefused]
    rfl
  · exact absurd hFits h

theorem readFits_allReadableFields (h : 90 ≤ respMax) : ReadFits allReadableFields respMax :=
  ⟨List.all_eq_true.mp rfl, h⟩

theorem readAllFields_of_fits (h : 90 ≤ respMax) : readAllFields f respMax = fieldsReply f allReadableFields :=
  finishRead_of_fits (fun ret hRet => by simpa using UInt8.pos_iff_ne_zero.mpr hRet) (readFits_allReadableFields h)

end Reply

end IotRange.AppProtocol
