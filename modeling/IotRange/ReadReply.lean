import IotRange.AppProtocol.Replies

/-! # What an accepted CMD 0x01 says

The reply is read back twice: by decoding its TLVs one after another, and by the shell's search
for one field.
-/
namespace IotRange.ReadReply
open AppFields AppTlv AppProtocol
set_option autoImplicit false

/-! ## The shell's search (shell_cmd.c) -/

/-- `for (i = 0; i < count; i++)`. -/
def findField (resp : Payload) (targetFid : UInt8) : Nat → UInt16 → Option (List UInt8)
  | 0, _ => none
  | remaining + 1, off =>
    match tlvDecodeField resp off with
    | .error _ => none
    | .ok (t, next) => if t.fieldId = targetFid then some t.value else findField resp targetFid remaining next

/-- The value found, `none` for `NULL`. -/
def tlvFindField (resp : Payload) (targetFid : UInt8) : Option (List UInt8) :=
  if resp.bytes.length < 3 then none else findField resp targetFid (byteAt resp.bytes 2).toNat 3

theorem findField_of_decodes {resp : Payload} {off last : UInt16} {ts : List Tlv} (h : Decodes resp off ts last)
    (targetFid : UInt8) :
    findField resp targetFid ts.length off = (ts.find? fun t => t.fieldId = targetFid).map Tlv.value := by
  induction h with
  | nil _ => rfl
  | @cons off next last t ts head _ ih =>
    rw [List.length_cons, findField, head, List.find?_cons]
    dsimp only
    by_cases hFid : t.fieldId = targetFid
    · rw [if_pos hFid, decide_eq_true hFid]
      rfl
    · rw [if_neg hFid, decide_eq_false hFid, ih]

/-! ## The replies of CMD 0x01 -/

/-- The ids a CMD 0x01 asks for. -/
def askedIds (req : List UInt8) : List UInt8 :=
  if byteAt req 5 = 0 then allReadableFields else requestedIds req

theorem length_askedIds_lt (req : List UInt8) : (askedIds req).length < 256 := by
  unfold askedIds
  split
  · exact (by decide : allReadableFields.length < 256)
  · exact length_take_toNat_lt _ _

section Reply

variable {f : Store} {req fieldIds : List UInt8} {respMax : Nat}

theorem handleCmdRead_cases (f : Store) (req : List UInt8) (respMax : Nat) :
    (handleCmdRead f req respMax).2 = [] ∨
      (∃ status fieldId, status ≠ Status.ok ∧ (handleCmdRead f req respMax).2 = [cmdRead, status.code, fieldId]) ∨
      (ReadFits (askedIds req) respMax ∧ (handleCmdRead f req respMax).2 = fieldsReply f (askedIds req)) := by
  unfold handleCmdRead
  split
  · dsimp only
    split
    · exact .inl rfl
    · exact .inr (.inl ⟨.paramLen, 0x00, by decide, rfl⟩)
  · dsimp only
    split
    · exact .inl rfl
    · rename_i hMax
      split
      · rename_i hCount
        rw [askedIds, if_pos hCount]
        have hCounts : ∀ ret : UInt8, ret ≠ 0 → decide (0 < ret) = true := fun ret hRet => by
          simpa using UInt8.pos_iff_ne_zero.mpr hRet
        obtain ⟨fieldId, hUnknown⟩ | ⟨hFits, hFull⟩ :=
          finishRead_cases (f := appFieldSetUnixtime f (readBe32 (req.drop 1))) hCounts (not_lt.mp hMax)
            (List.all_eq_true.mp rfl : ∀ fieldId ∈ allReadableFields, fieldIsReadable fieldId = true)
        · exact .inr (.inl ⟨.unknown, fieldId, by decide, hUnknown⟩)
        · exact .inr (.inr ⟨hFits, hFull⟩)
      · rename_i hCount
        split
        · exact .inr (.inl ⟨.paramLen, 0x00, by decide, rfl⟩)
        · rw [askedIds, if_neg hCount]
          exact .inr (readListedFields_cases (not_lt.mp hMax))

theorem length_handleCmdRead_lt (f : Store) (req : List UInt8) (respMax : UInt16) :
    (handleCmdRead f req respMax.toNat).2.length < 2 ^ 16 := by
  obtain hNil | ⟨status, fieldId, -, hRefused⟩ | ⟨hFits, hFull⟩ := handleCmdRead_cases f req respMax.toNat
  · rw [hNil]
    decide
  · rw [hRefused]
    exact (by decide : 3 < 2 ^ 16)
  · rw [hFull, length_fieldsReply f hFits.1]
    exact Nat.lt_of_le_of_lt hFits.2 respMax.toNat_lt

/-- The response buffer up to the returned length. -/
def readReply (f : Store) (req : Payload) (respMax : UInt16) : Payload :=
  ⟨(handleCmdRead f req.bytes respMax.toNat).2, length_handleCmdRead_lt f req.bytes respMax⟩

theorem readReply_of_answeredOk {f : Store} {req : Payload} {respMax : UInt16}
    (h : AnsweredOk (readReply f req respMax).bytes) :
    (readReply f req respMax).bytes = fieldsReply f (askedIds req.bytes) := by
  obtain hNil | ⟨status, fieldId, hStatus, hRefused⟩ | ⟨-, hFull⟩ := handleCmdRead_cases f req.bytes respMax.toNat
  · change (handleCmdRead f req.bytes respMax.toNat).2[1]? = _ at h
    rw [hNil] at h
    cases h
  · change (handleCmdRead f req.bytes respMax.toNat).2[1]? = _ at h
    rw [hRefused] at h
    exact absurd (Status.code_injective (Option.some.inj h)) hStatus
  · exact hFull

theorem decodes_of_fieldsReply {resp : Payload} {f : Store} {fieldIds : List UInt8}
    (h : resp.bytes = fieldsReply f fieldIds) :
    Decodes resp 3 (fieldIds.map (fieldTlv f)) (UInt16.ofNat resp.bytes.length) := by
  have hLength : (3 : UInt16).toNat ≤ resp.bytes.length := by
    rw [h, fieldsReply, List.length_append]
    exact Nat.le_add_right 3 _
  have hBytes : resp.bytes.drop (3 : UInt16).toNat = encodeAll (fieldIds.map (fieldTlv f)) := by
    rw [h]
    rfl
  exact decodes_encodeAll hLength hBytes

theorem find_fieldTlv (f : Store) (fieldIds : List UInt8) (targetFid : UInt8) :
    ((fieldIds.map (fieldTlv f)).find? fun t => t.fieldId = targetFid).map Tlv.value =
      if targetFid ∈ fieldIds then some (appFieldGet f targetFid valBufSize) else none := by
  induction fieldIds with
  | nil => rfl
  | cons fieldId fieldIds ih =>
    rw [List.map_cons, List.find?_cons]
    by_cases hFid : fieldId = targetFid
    · rw [decide_eq_true (p := (fieldTlv f fieldId).fieldId = targetFid) hFid,
        if_pos (List.mem_cons.mpr (.inl hFid.symm)), ← hFid]
      rfl
    · rw [decide_eq_false (p := (fieldTlv f fieldId).fieldId = targetFid) hFid, ih]
      simp only [List.mem_cons, Ne.symm hFid, false_or]

/-- An accepted read decodes to the fields asked for, and the shell finds those fields and no others. -/
theorem faithful_read {f : Store} {req : Payload} {respMax : UInt16}
    (hOk : AnsweredOk (readReply f req respMax).bytes) :
    ∃ ts, Decodes (readReply f req respMax) 3 ts (UInt16.ofNat (readReply f req respMax).bytes.length) ∧
      ts.length = (byteAt (readReply f req respMax).bytes 2).toNat ∧
      (ts.map fun t => (t.fieldId, t.value)) =
        ((askedIds req.bytes).map fun fieldId => (fieldId, appFieldGet f fieldId valBufSize)) ∧
      ∀ targetFid, tlvFindField (readReply f req respMax) targetFid =
        if targetFid ∈ askedIds req.bytes then some (appFieldGet f targetFid valBufSize) else none := by
  have hReply := readReply_of_answeredOk hOk
  have hDecodes := decodes_of_fieldsReply hReply
  have hCount : (byteAt (readReply f req respMax).bytes 2).toNat = (askedIds req.bytes).length := by
    rw [hReply]
    exact UInt8.toNat_ofNat_of_lt' (length_askedIds_lt req.bytes)
  have hShort : ¬ (readReply f req respMax).bytes.length < 3 := by
    rw [hReply, fieldsReply, List.length_append]
    exact Nat.not_lt.mpr (Nat.le_add_right 3 _)
  refine ⟨_, hDecodes, ?_, ?_, fun targetFid => ?_⟩
  · rw [List.length_map, hCount]
  · rw [List.map_map]
    rfl
  · have hFind := findField_of_decodes hDecodes targetFid
    rw [List.length_map] at hFind
    rw [tlvFindField, if_neg hShort, hCount, hFind, find_fieldTlv]

end Reply

/-- Reads BATTERY twice and then MODE. -/
def batteryModeReq : Payload := ⟨[0x01, 0, 0, 0, 0, 0x03, 0x10, 0x10, 0x20], by decide⟩

theorem faithful_read_batteryMode :
    tlvFindField (readReply Store.static batteryModeReq 256) fieldMode = some [0x02] := by
  have hOk : AnsweredOk (readReply Store.static batteryModeReq 256).bytes := by decide
  obtain ⟨-, -, -, -, hFind⟩ := faithful_read hOk
  exact hFind fieldMode

end IotRange.ReadReply
