import IotRange.AppConfig.Ndef
import IotRange.AppProtocol.Replies
import IotRange.Device

/-! # The NFC reply record

The reply to an NFC command is one short record, whose payload length is one byte. Every reply
shorter than the reply buffer is read back from the file; the one that fills it is not.
-/
namespace IotRange.NfcReply
open AppAuth AppConfig AppProtocol AppFields Device Ndef
set_option autoImplicit false

def CarriesReply (file reply : List UInt8) : Prop :=
  ∃ record : ShortRecord, shortRecord.decode (fileMessage file) = .ok (record, []) ∧
    fileLength file = record.bytes.length ∧ record.flags = mb ||| me ||| sr ||| tnfExternal ∧
    record.type = appConfigInfoType ∧ record.payload = reply

/-- A CMD 0x01 whose listed fields fill the reply buffer to the last byte. -/
structure FillsReply (req : List UInt8) : Prop where
  lists : ListsFields req
  readable : ∀ fieldId ∈ requestedIds req, fieldIsReadable fieldId = true
  full : 3 + ((requestedIds req).map replySize).sum = appProtoRespMax

/-! ## Reply lengths -/

section Length

variable (env : Env) (s : AppState) (channel : Channel) (req : Payload)

theorem length_reply_iff :
    (processAppPayload env s channel req appProtoRespMax).2.length ≤ appProtoRespMax ∧
      ((processAppPayload env s channel req appProtoRespMax).2.length = appProtoRespMax ↔
        FillsReply req.bytes) := by
  refine ⟨length_reply_le_respMax env s channel req, ?_⟩
  by_cases hLists : ListsFields req.bytes
  · rw [processAppPayload_of_read hLists.cmd, handleCmdRead_of_listsFields hLists (by decide)]
    by_cases hFits : ReadFits (requestedIds req.bytes) appProtoRespMax
    · rw [readListedFields_of_fits hFits, length_fieldsReply _ hFits.1]
      exact ⟨fun hFull => ⟨hLists, hFits.1, hFull⟩, FillsReply.full⟩
    · rw [length_readListedFields_of_not_fits (by decide) hFits]
      refine ⟨fun hThree => absurd hThree (by decide), ?_⟩
      intro hFills
      exact absurd ⟨hFills.readable, hFills.full.le⟩ hFits
  · refine ⟨?_, fun hFills => absurd hFills.lists hLists⟩
    intro hFull
    have hShort := length_reply_of_not_listsFields env s channel hLists
    rw [hFull] at hShort
    exact absurd hShort (by decide)

end Length

/-! ## The record in the file -/

def responseRecord (payload : List UInt8) : List UInt8 :=
  [mb ||| me ||| sr ||| tnfExternal, appConfigInfoTypeLen.toUInt8, UInt8.ofNat payload.length] ++
    appConfigInfoType ++ payload

theorem length_responseRecord (payload : List UInt8) : (responseRecord payload).length = 19 + payload.length := by
  rw [responseRecord, List.length_append]
  rfl

theorem ndefEncodeResponse_eq {payload : List UInt8} {dstLen : UInt32} (hMax : payload.length ≤ appProtoRespMax) :
    ndefEncodeResponse payload dstLen =
      if dstLen.toNat < 19 + payload.length then none else some (responseRecord payload) := by
  have hTotal : (3 + appConfigInfoTypeLen + UInt32.ofNat payload.length).toNat = 19 + payload.length := by
    rw [UInt32.toNat_add, UInt32.toNat_ofNat_of_lt' (Nat.lt_of_le_of_lt hMax (by decide))]
    exact Nat.mod_eq_of_lt (Nat.lt_of_le_of_lt (Nat.add_le_add_left hMax 19) (by decide))
  unfold ndefEncodeResponse
  dsimp only
  simp only [UInt32.lt_iff_toNat_lt, hTotal, UInt32.toUInt8_ofNat', responseRecord]

theorem carriesReply_responseRecord_iff {file payload : List UInt8}
    (hLength : fileLength file = (responseRecord payload).length)
    (hMessage : fileMessage file = responseRecord payload) : CarriesReply file payload ↔ payload.length < 256 := by
  constructor
  · rintro ⟨record, -, -, -, -, hPayload⟩
    rw [← hPayload]
    exact record.length_payload_lt
  · intro hPayload
    let record : ShortRecord := ⟨mb ||| me ||| sr ||| tnfExternal, appConfigInfoType, payload, by decide, hPayload⟩
    have hBytes : responseRecord payload = record.bytes := by
      rw [responseRecord, ShortRecord.bytes]
      rfl
    refine ⟨record, ?_, ?_, rfl, rfl, rfl⟩
    · rw [hMessage, hBytes]
      exact (shortRecord.decode_eq_ok _ _ _).mpr (List.append_nil _).symm
    · rw [hLength, hBytes]

def replyFile (buf : Buffer) (reply : List UInt8) : List UInt8 :=
  be16 (UInt16.ofNat (responseRecord reply).length) ++ responseRecord reply ++
    buf.bytes.drop (2 + (responseRecord reply).length)

section File

variable {buf : Buffer} {reply : List UInt8}

theorem fileLength_replyFile (hMax : reply.length ≤ appProtoRespMax) :
    fileLength (replyFile buf reply) = (responseRecord reply).length := by
  rw [fileLength, replyFile, List.append_assoc, readBe16_be16, length_responseRecord]
  exact UInt16.toNat_ofNat_of_lt' (Nat.lt_of_le_of_lt (Nat.add_le_add_left hMax 19) (by decide))

theorem fileMessage_replyFile (hMax : reply.length ≤ appProtoRespMax) :
    fileMessage (replyFile buf reply) = responseRecord reply := by
  rw [fileMessage, fileLength_replyFile hMax, replyFile, List.append_assoc]
  exact List.take_left

theorem carriesReply_replyFile_iff (hMax : reply.length ≤ appProtoRespMax) :
    CarriesReply (replyFile buf reply) reply ↔ reply.length ≠ appProtoRespMax :=
  (carriesReply_responseRecord_iff (fileLength_replyFile hMax) (fileMessage_replyFile hMax)).trans
    (lt_iff_le_and_ne.trans (and_iff_right hMax))

theorem fileEncode_responseRecord {lib : NdefFileLib} (hLib : lib.Documented)
    (hMax : reply.length ≤ appProtoRespMax) (hFits : 21 + reply.length ≤ buf.bytes.length) :
    lib.fileEncode (writeAt buf.bytes lib.msgOffset (responseRecord reply))
        (UInt32.ofNat (responseRecord reply).length) = .ok (replyFile buf reply) := by
  have hRecord := length_responseRecord reply
  have hInside : 2 + (responseRecord reply).length ≤ buf.bytes.length := by omega
  have hLength : (responseRecord reply).length < 2 ^ 16 := by
    rw [hRecord]
    exact Nat.lt_of_le_of_lt (Nat.add_le_add_left hMax 19) (by decide)
  have hToNat : (UInt32.ofNat (responseRecord reply).length).toNat = (responseRecord reply).length :=
    UInt32.toNat_ofNat_of_lt' (hLength.trans (by decide))
  rw [hLib.msgOffset, hLib.fileEncode _ _ (by rw [length_writeAt hInside]; omega) (by rwa [hToNat]),
    UInt32.toUInt16_ofNat', writeAt, List.take_zero, List.nil_append, Nat.zero_add, length_be16,
    drop_writeAt (by omega), replyFile, List.append_assoc]

end File

/-! ## The handler -/

section Handler

variable {lib : NdefFileLib} {env : Env} {d : Device} {buf : Buffer} {req : Payload}

theorem toNat_msgSizeGet (hLib : lib.Documented) (hTwo : 2 ≤ buf.bytes.length) :
    (lib.msgSizeGet buf.length).toNat = buf.bytes.length - 2 := by
  have hLe : (2 : UInt32) ≤ buf.length := by
    rw [UInt32.le_iff_toNat_le, buf.toNat_length]
    exact hTwo
  rw [hLib.msgSizeGet, UInt32.toNat_sub_of_le _ _ hLe, buf.toNat_length]
  rfl

/-- A parsed command moves the device as an NFC request does, and its reply goes into the file if it fits. -/
theorem appConfigHandleNdef_eq (hLib : lib.Documented) (hTwo : 2 ≤ buf.bytes.length)
    (hReq : ndefRequest (buf.bytes.drop lib.msgOffset) (lib.msgSizeGet buf.length) = .ok (some req)) :
    appConfigHandleNdef lib env d buf =
      .ok (if (handleRequest env d .nfc req).2.length = 0 ∨
          buf.bytes.length < 21 + (handleRequest env d .nfc req).2.length then
          (false, (handleRequest env d .nfc req).1, buf.bytes)
        else (true, (handleRequest env d .nfc req).1, replyFile buf (handleRequest env d .nfc req).2)) := by
  have hMax := (length_reply_iff env d.toAppState .nfc req).1
  have hEncode : ndefEncodeResponse _ (lib.msgSizeGet buf.length) = _ := ndefEncodeResponse_eq hMax
  rw [toNat_msgSizeGet hLib hTwo] at hEncode
  change _ = Except.ok (if (processAppPayload env d.toAppState .nfc req appProtoRespMax).2.length = 0 ∨
    buf.bytes.length < 21 + (processAppPayload env d.toAppState .nfc req appProtoRespMax).2.length then _ else _)
  unfold appConfigHandleNdef
  dsimp only
  rw [hReq]
  simp only [bind, Except.bind, pure, Except.pure]
  split
  · rw [if_pos (.inl (by assumption))]
    rfl
  · rename_i hReply
    rw [hEncode]
    by_cases hFits : buf.bytes.length - 2 < 19 + (processAppPayload env d.toAppState .nfc req appProtoRespMax).2.length
    · rw [if_pos hFits, if_pos (.inr (by omega))]
      rfl
    · rw [if_neg hFits, if_neg (not_or.mpr ⟨hReply, by omega⟩)]
      simp only [fileEncode_responseRecord hLib hMax (by omega : _ ≤ buf.bytes.length)]
      rfl

theorem appConfigHandleNdef_of_request (hLib : lib.Documented) (hSize : 2 + 19 + appProtoRespMax ≤ buf.bytes.length)
    (hReq : ndefRequest (buf.bytes.drop lib.msgOffset) (lib.msgSizeGet buf.length) = .ok (some req)) :
    appConfigHandleNdef lib env d buf =
      .ok (if (handleRequest env d .nfc req).2.length = 0 then (false, (handleRequest env d .nfc req).1, buf.bytes)
        else (true, (handleRequest env d .nfc req).1, replyFile buf (handleRequest env d .nfc req).2)) := by
  have hMax : (handleRequest env d .nfc req).2.length ≤ appProtoRespMax :=
    (length_reply_iff env d.toAppState .nfc req).1
  rw [appConfigHandleNdef_eq hLib ((by decide : 2 ≤ 2 + 19 + appProtoRespMax).trans hSize) hReq]
  simp only [or_iff_left (by omega : ¬ buf.bytes.length < 21 + (handleRequest env d .nfc req).2.length)]

theorem carriesReply_handleRequest_iff :
    CarriesReply (replyFile buf (handleRequest env d .nfc req).2) (handleRequest env d .nfc req).2 ↔
      ¬ FillsReply req.bytes := by
  obtain ⟨hMax, hFull⟩ := length_reply_iff env d.toAppState .nfc req
  rw [← hFull]
  exact carriesReply_replyFile_iff hMax

/-- The file left behind carries the reply unless the reply has the 256 bytes that one length byte
cannot tell from none. -/
theorem carriesReply_iff {d' : Device} {file : List UInt8} (hLib : lib.Documented)
    (hSize : 2 + 19 + appProtoRespMax ≤ buf.bytes.length)
    (hReq : ndefRequest (buf.bytes.drop lib.msgOffset) (lib.msgSizeGet buf.length) = .ok (some req))
    (hTrue : appConfigHandleNdef lib env d buf = .ok (true, d', file)) :
    CarriesReply file (processAppPayload env d.toAppState .nfc req appProtoRespMax).2 ↔ ¬ FillsReply req.bytes := by
  rw [appConfigHandleNdef_of_request hLib hSize hReq] at hTrue
  split at hTrue
  · cases hTrue
  · obtain ⟨-, -, rfl⟩ := Prod.mk.inj (Except.ok.inj hTrue)
    exact carriesReply_handleRequest_iff

end Handler

/-! ## Two files -/

def commandFile (req : List UInt8) : List UInt8 :=
  be16 (UInt16.ofNat (commandRecord req).length) ++ (commandRecord req ++ List.replicate 300 0)

theorem length_commandFile (req : List UInt8) : (commandFile req).length = 320 + req.length := by
  rw [commandFile, List.length_append, List.length_append, length_commandRecord, List.length_replicate, length_be16]
  omega

def commandBuffer (req : List UInt8) (h : req.length < 256) : Buffer :=
  ⟨commandFile req, by rw [length_commandFile]; omega⟩

theorem ndefRequest_commandBuffer {req : Payload} (hNonempty : req.bytes ≠ []) (hShort : req.bytes.length < 256) :
    ndefRequest ((commandBuffer req.bytes hShort).bytes.drop t4tNdefFile.msgOffset)
      (t4tNdefFile.msgSizeGet (commandBuffer req.bytes hShort).length) = .ok (some req) := by
  have hSize : 2 ≤ (commandBuffer req.bytes hShort).length := by
    rw [UInt32.le_iff_toNat_le, Buffer.toNat_length, commandBuffer, length_commandFile]
    exact Nat.le_trans (by decide) (Nat.le_add_right 320 _)
  refine ndefRequest_commandRecord hNonempty hShort ?_
  have hSizeGet : t4tNdefFile.msgSizeGet (commandBuffer req.bytes hShort).length =
      (commandBuffer req.bytes hShort).length - 2 := rfl
  have hTwo : (2 : UInt32).toNat = 2 := rfl
  rw [hSizeGet, UInt32.toNat_sub_of_le _ _ hSize, Buffer.toNat_length, commandBuffer, length_commandFile,
    List.length_append, length_commandRecord, List.length_replicate, hTwo]
  omega

theorem appConfigHandleNdef_commandBuffer {req : Payload} (env : Env) (d : Device) (hNonempty : req.bytes ≠ [])
    (hShort : req.bytes.length < 256) (hReply : (handleRequest env d .nfc req).2.length ≠ 0) :
    appConfigHandleNdef t4tNdefFile env d (commandBuffer req.bytes hShort) =
      .ok (true, (handleRequest env d .nfc req).1,
        replyFile (commandBuffer req.bytes hShort) (handleRequest env d .nfc req).2) := by
  have hSize : 2 + 19 + appProtoRespMax ≤ (commandBuffer req.bytes hShort).bytes.length := by
    rw [commandBuffer, length_commandFile]
    exact Nat.le_trans (by decide) (Nat.le_add_right 320 _)
  rw [appConfigHandleNdef_of_request documented_t4tNdefFile hSize (ndefRequest_commandBuffer hNonempty hShort),
    if_neg hReply]

def idleEnv : Env := ⟨0, List.Vector.replicate 8 0⟩

def lockReq : Payload := ⟨[0x03, 0x04], by decide⟩

theorem carriesReply_lock :
    CarriesReply (replyFile (commandBuffer lockReq.bytes (by decide)) (handleRequest idleEnv boot .nfc lockReq).2)
      (processAppPayload idleEnv boot.toAppState .nfc lockReq appProtoRespMax).2 := by
  have hNonempty : lockReq.bytes ≠ [] := by decide
  have hShort : lockReq.bytes.length < 256 := by decide
  have hReply : (handleRequest idleEnv boot .nfc lockReq).2.length ≠ 0 := by decide
  refine (carriesReply_iff documented_t4tNdefFile ?_ (ndefRequest_commandBuffer hNonempty hShort)
    (appConfigHandleNdef_commandBuffer idleEnv boot hNonempty hShort hReply)).mpr ?_
  · rw [commandBuffer, length_commandFile]
    decide
  · intro hFills
    exact absurd hFills.lists.cmd (by decide)

/-- DEVICE_STATE 83 times and TEMPERATURE once: `3 + 83 * 3 + 4 = 256`. -/
def fullReadReq : Payload :=
  ⟨[0x01, 0, 0, 0, 0, 84] ++ List.replicate 83 fieldDeviceState ++ [fieldTemperature], by decide⟩

theorem fillsReply_fullReadReq : FillsReply fullReadReq.bytes where
  lists := ⟨rfl, by decide, by decide, by decide⟩
  readable := List.all_eq_true.mp rfl
  full := rfl

theorem fullRead_not_carried :
    ∃ d' file, appConfigHandleNdef t4tNdefFile idleEnv boot (commandBuffer fullReadReq.bytes (by decide)) =
        .ok (true, d', file) ∧
      ¬ CarriesReply file (processAppPayload idleEnv boot.toAppState .nfc fullReadReq appProtoRespMax).2 := by
  have hNonempty : fullReadReq.bytes ≠ [] := by decide
  have hReply : (handleRequest idleEnv boot .nfc fullReadReq).2.length ≠ 0 := by
    have hFull := (length_reply_iff idleEnv boot.toAppState .nfc fullReadReq).2.mpr fillsReply_fullReadReq
    exact fun hZero => absurd (hFull.symm.trans hZero) (by decide)
  refine ⟨_, _, appConfigHandleNdef_commandBuffer idleEnv boot hNonempty (by decide) hReply, ?_⟩
  exact fun hCarries => carriesReply_handleRequest_iff.mp hCarries fillsReply_fullReadReq

end IotRange.NfcReply
