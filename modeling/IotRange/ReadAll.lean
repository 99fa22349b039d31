import IotRange.AppProtocol

/-! # Reading everything

FIELD_COUNT 0 and the list of all readable ids go through two loops. They agree, since every
readable field has a value in every store.
-/
namespace IotRange.ReadAll
open AppFields AppProtocol
set_option autoImplicit false

/-- The ids that `field_is_readable` accepts, in ascending order. -/
def readableIds : List UInt8 := ((List.range 256).map UInt8.ofNat).filter fieldIsReadable

/-- CMD 0x01 with a timestamp and a list of ids; without ids FIELD_COUNT is 0. -/
def readRequest (ts : UInt32) (fieldIds : List UInt8) : List UInt8 :=
  cmdRead :: (be32 ts ++ UInt8.ofNat fieldIds.length :: fieldIds)

/-- The table of the first loop is in step with the switch of `field_is_readable`. -/
theorem readableIds_eq : readableIds = allReadableFields := by decide

theorem mem_readableIds_iff {fieldId : UInt8} : fieldId ∈ readableIds ↔ fieldIsReadable fieldId = true := by
  rw [readableIds, List.mem_filter, List.mem_map]
  refine and_iff_right ⟨fieldId.toNat, ?_, UInt8.ofNat_toNat⟩
  exact List.mem_range.mpr fieldId.toNat_lt

section Loops

variable {f : Store} {fieldIds resp : List UInt8} {actualCount : UInt8} {respMax : Nat}

/-- Readable fields count in either loop. -/
theorem appendFields_congr {counts counts' : UInt8 → Bool} (hCounts : ∀ ret, ret ≠ 0 → counts ret = true)
    (hCounts' : ∀ ret, ret ≠ 0 → counts' ret = true) (h : ∀ fieldId ∈ fieldIds, fieldIsReadable fieldId = true) :
    appendFields counts f respMax fieldIds resp actualCount =
      appendFields counts' f respMax fieldIds resp actualCount := by
  induction fieldIds generalizing resp actualCount with
  | nil => rfl
  | cons fieldId fieldIds ih =>
    rw [List.forall_mem_cons] at h
    have hRet : (appendFieldToResp f fieldId resp respMax).1 ≠ 0 := by
      rw [appendFieldToResp_eq h.1]
      split
      · exact (tlvSize_ne f fieldId).2
      · exact (by decide : (0xFF : UInt8) ≠ 0)
    simp only [appendFields, hCounts _ hRet, hCounts' _ hRet, ih h.2]

theorem readAllFields_eq (f : Store) (respMax : Nat) :
    readAllFields f respMax = readListedFields f readableIds respMax := by
  have hReadable : ∀ fieldId ∈ readableIds, fieldIsReadable fieldId = true := fun _ => mem_readableIds_iff.mp
  rw [readListedFields_of_readable hReadable, readAllFields, ← readableIds_eq]
  rw [appendFields_congr (fun ret hRet => by simpa using UInt8.pos_iff_ne_zero.mpr hRet) (fun _ _ => rfl) hReadable]

end Loops

/-! ## The two requests -/

section Requests

variable {f : Store} {ts : UInt32} {fieldIds rest : List UInt8} {respMax : Nat}

theorem handleCmdRead_readRequest (ts : UInt32) (fieldIds rest : List UInt8) (respMax : Nat) :
    handleCmdRead f (readRequest ts fieldIds ++ rest) respMax =
      let f := appFieldSetUnixtime f ts
      if respMax < 3 then (f, [])
      else if UInt8.ofNat fieldIds.length = 0 then (f, readAllFields f respMax)
      else if UInt8.ofNat fieldIds.length > UInt8.ofNat (fieldIds ++ rest).length then
        (f, [cmdRead, Status.paramLen.code, 0x00])
      else (f, readListedFields f ((fieldIds ++ rest).take (UInt8.ofNat fieldIds.length).toNat) respMax) := by
  have hLength : ¬ (readRequest ts fieldIds ++ rest).length < 6 := not_lt.mpr (Nat.le_add_left 6 _)
  have hTimestamp : readBe32 ((readRequest ts fieldIds ++ rest).drop 1) = ts := readBe32_be32 ts _
  rw [handleCmdRead, if_neg hLength, hTimestamp]
  rfl

theorem handleCmdRead_all (f : Store) (ts : UInt32) (rest : List UInt8) (respMax : Nat) :
    handleCmdRead f (readRequest ts [] ++ rest) respMax =
      (appFieldSetUnixtime f ts, if respMax < 3 then [] else readAllFields (appFieldSetUnixtime f ts) respMax) := by
  rw [handleCmdRead_readRequest]
  split
  · rfl
  · exact if_pos rfl

theorem handleCmdRead_listed (h : fieldIds ≠ []) (hLength : fieldIds.length < 256) :
    handleCmdRead f (readRequest ts fieldIds) respMax =
      (appFieldSetUnixtime f ts,
        if respMax < 3 then [] else readListedFields (appFieldSetUnixtime f ts) fieldIds respMax) := by
  have hCount : (UInt8.ofNat fieldIds.length).toNat = fieldIds.length := UInt8.toNat_ofNat_of_lt' hLength
  have hNonzero : UInt8.ofNat fieldIds.length ≠ 0 := by
    intro hZero
    rw [hZero] at hCount
    exact h (List.length_eq_zero_iff.mp hCount.symm)
  rw [← List.append_nil (readRequest ts fieldIds), handleCmdRead_readRequest, List.append_nil, hCount, List.take_length]
  dsimp only
  rw [if_neg hNonzero, if_neg (UInt8.lt_irrefl _)]
  split <;> rfl

end Requests

/-- FIELD_COUNT 0 and the list of all readable ids have the same reply and the same effect, also when
the buffer is too small, and 256 bytes are always enough. -/
theorem readAll_agrees (f : Store) (ts : UInt32) (rest : List UInt8) (respMax : Nat) :
    handleCmdRead f (readRequest ts [] ++ rest) respMax = handleCmdRead f (readRequest ts readableIds) respMax ∧
      AnsweredOk (handleCmdRead f (readRequest ts [] ++ rest) appProtoRespMax).2 ∧
      AnsweredOk (handleCmdRead f (readRequest ts readableIds) appProtoRespMax).2 := by
  have hListed (max : Nat) : handleCmdRead f (readRequest ts readableIds) max = _ :=
    handleCmdRead_listed (by rw [readableIds_eq]; decide) (by rw [readableIds_eq]; decide)
  have hSame (max : Nat) :
      handleCmdRead f (readRequest ts [] ++ rest) max = handleCmdRead f (readRequest ts readableIds) max := by
    rw [handleCmdRead_all, hListed, readAllFields_eq]
  have hOk : AnsweredOk (handleCmdRead f (readRequest ts [] ++ rest) appProtoRespMax).2 := by
    rw [handleCmdRead_all]
    dsimp only
    rw [if_neg (by decide), readAllFields_of_fits (by decide)]
    rfl
  exact ⟨hSame respMax, hOk, hSame appProtoRespMax ▸ hOk⟩

end IotRange.ReadAll
