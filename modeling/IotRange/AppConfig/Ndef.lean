import IotRange.AppConfig.Ble
import IotRange.Library.Ndef

/-! # The NFC entry point (app_config.c)

Every read of the message is checked, so reading outside it is a result of its own; the parser's
`false` is `none`. The NFC library is a parameter.
-/
namespace IotRange.AppConfig
open AppAuth AppProtocol
set_option autoImplicit false

/-- A pointer with a `uint32_t` length. -/
structure Buffer where
  bytes : List UInt8
  length_lt : bytes.length < 2 ^ 32
  deriving DecidableEq

def Buffer.length (buf : Buffer) : UInt32 := UInt32.ofNat buf.bytes.length

@[simp] theorem Buffer.toNat_length (buf : Buffer) : buf.length.toNat = buf.bytes.length :=
  UInt32.toNat_ofNat_of_lt' buf.length_lt

def appConfigCmdType : List UInt8 :=
  ascii ['u', 'l', 'p', 'i', 'n', 't', 'e', 'r', 'n', 'a', 'l', ':', 'c', 'm', 'd']
abbrev appConfigCmdTypeLen : UInt8 := 15

def appConfigInfoType : List UInt8 :=
  ascii ['u', 'l', 'p', 'i', 'n', 't', 'e', 'r', 'n', 'a', 'l', ':', 'i', 'n', 'f', 'o']
abbrev appConfigInfoTypeLen : UInt32 := 16

/-! ## Parsing a command record -/

/-- `cmd_out`, `payload_out` as a position in the message, and `payload_len_out`. -/
structure ExtCmd where
  cmd : UInt8
  payloadOffset : UInt32
  payloadLen : UInt32
  deriving DecidableEq

/-- `payload_len` and `header_len`, in short or long form. -/
def parsePayloadLen (msg : List UInt8) (msgLen : UInt32) (flags : UInt8) :
    Except OutOfBounds (Option (UInt32 × UInt32)) :=
  if flags &&& Ndef.sr ≠ 0 then do
    let payloadLen ← readAt msg 2
    return some (payloadLen.toUInt32, 3)
  else if msgLen < 6 then return none
  else do
    let payloadLen ← readRange msg 2 4
    return some (readBe32 payloadLen, 6)

/-- `header_len` with the ID length and the ID. -/
def parseIdLen (msg : List UInt8) (msgLen : UInt32) (flags : UInt8) (headerLen : UInt32) :
    Except OutOfBounds (Option UInt32) :=
  if flags &&& Ndef.il = 0 then return some headerLen
  else if msgLen < headerLen + 1 then return none
  else do
    let idLen ← readAt msg headerLen.toNat
    return some (headerLen + (1 + idLen.toUInt32))

/-- From the length comparison on. -/
def parseTypeAndCmd (msg : List UInt8) (msgLen : UInt32) (typeLen : UInt8) (payloadLen headerLen : UInt32) :
    Except OutOfBounds (Option ExtCmd) :=
  if msgLen < headerLen + typeLen.toUInt32 + payloadLen then return none
  else if typeLen ≠ appConfigCmdTypeLen then return none
  else do
    let type ← readRange msg headerLen.toNat appConfigCmdTypeLen.toNat
    if type ≠ appConfigCmdType then return none
    else if payloadLen < 1 then return none
    else
      let payloadOffset := headerLen + typeLen.toUInt32
      let cmd ← readAt msg payloadOffset.toNat
      return some ⟨cmd, payloadOffset, payloadLen⟩

def ndefParseExtCmd (msg : List UInt8) (msgLen : UInt32) : Except OutOfBounds (Option ExtCmd) :=
  if msgLen < 3 then return none
  else do
    let flags ← readAt msg 0
    if flags &&& Ndef.tnfMask ≠ Ndef.tnfExternal then return none
    else
      let typeLen ← readAt msg 1
      let some (payloadLen, headerLen) ← parsePayloadLen msg msgLen flags | return none
      let some headerLen ← parseIdLen msg msgLen flags headerLen | return none
      parseTypeAndCmd msg msgLen typeLen payloadLen headerLen

/-! ## The parser on the whole message -/

def lengthsEnd (msg : List UInt8) : Nat := if byteAt msg 0 &&& Ndef.sr ≠ 0 then 3 else 6

def payloadLength (msg : List UInt8) : UInt32 :=
  if byteAt msg 0 &&& Ndef.sr ≠ 0 then (byteAt msg 2).toUInt32 else readBe32 (msg.drop 2)

def headerLength (msg : List UInt8) : Nat :=
  if byteAt msg 0 &&& Ndef.il = 0 then lengthsEnd msg
  else lengthsEnd msg + (1 + (byteAt msg (lengthsEnd msg)).toNat)

/-- An external record with all its length bytes. -/
structure HasHeader (msg : List UInt8) : Prop where
  external : byteAt msg 0 &&& Ndef.tnfMask = Ndef.tnfExternal
  lengths : lengthsEnd msg ≤ msg.length
  id : byteAt msg 0 &&& Ndef.il ≠ 0 → lengthsEnd msg < msg.length

theorem lengthsEnd_mem (msg : List UInt8) : 3 ≤ lengthsEnd msg ∧ lengthsEnd msg ≤ 6 := by
  unfold lengthsEnd
  split <;> decide

theorem headerLength_le (msg : List UInt8) : headerLength msg ≤ 262 := by
  have hEnd := lengthsEnd_mem msg
  have hId := (byteAt msg (lengthsEnd msg)).toNat_lt
  unfold headerLength
  split <;> omega

section Parse

variable {msg : List UInt8} {msgLen : UInt32}

theorem msgLen_lt_iff {n : UInt32} (hLen : msg.length = msgLen.toNat) : msgLen < n ↔ msg.length < n.toNat := by
  rw [UInt32.lt_iff_toNat_lt, hLen]

theorem parsePayloadLen_eq (hLen : msg.length = msgLen.toNat) (hShort : 3 ≤ msg.length) :
    parsePayloadLen msg msgLen (byteAt msg 0) =
      .ok (if lengthsEnd msg ≤ msg.length then some (payloadLength msg, UInt32.ofNat (lengthsEnd msg))
        else none) := by
  unfold parsePayloadLen lengthsEnd payloadLength
  by_cases hSr : byteAt msg 0 &&& Ndef.sr ≠ 0
  · rw [if_pos hSr, if_pos hSr, if_pos hSr, if_pos hShort, readAt_of_lt (by omega)]
    rfl
  · have hSix : msgLen < 6 ↔ msg.length < 6 := msgLen_lt_iff hLen
    rw [if_neg hSr, if_neg hSr, if_neg hSr]
    by_cases hLong : msg.length < 6
    · rw [if_pos (hSix.mpr hLong), if_neg (by omega)]
      rfl
    · rw [if_neg (mt hSix.mp hLong), if_pos (by omega), readRange_of_le (by omega)]
      exact congrArg (fun n => Except.ok (some (n, (6 : UInt32)))) (readBe32_take (le_refl 4) _)

theorem parseIdLen_eq (hLen : msg.length = msgLen.toNat) :
    parseIdLen msg msgLen (byteAt msg 0) (UInt32.ofNat (lengthsEnd msg)) =
      .ok (if byteAt msg 0 &&& Ndef.il ≠ 0 → lengthsEnd msg < msg.length then some (UInt32.ofNat (headerLength msg))
        else none) := by
  have hEnd := lengthsEnd_mem msg
  have hToNat : (UInt32.ofNat (lengthsEnd msg)).toNat = lengthsEnd msg :=
    UInt32.toNat_ofNat_of_lt' (Nat.lt_of_le_of_lt hEnd.2 (by decide))
  unfold parseIdLen headerLength
  by_cases hIl : byteAt msg 0 &&& Ndef.il = 0
  · rw [if_pos hIl, if_pos hIl, if_pos fun h => absurd hIl h]
    rfl
  · rw [if_neg hIl, if_neg hIl]
    have hNext : (UInt32.ofNat (lengthsEnd msg) + 1).toNat = lengthsEnd msg + 1 := by
      rw [UInt32.toNat_add, hToNat, show (1 : UInt32).toNat = 1 from rfl]
      omega
    by_cases hInside : lengthsEnd msg < msg.length
    · rw [if_neg (by rw [msgLen_lt_iff hLen, hNext]; omega), if_pos fun _ => hInside, hToNat, readAt_of_lt hInside,
        UInt32.ofNat_add, UInt32.ofNat_add, UInt32.ofNat_uInt8ToNat]
      rfl
    · rw [if_pos (by rw [msgLen_lt_iff hLen, hNext]; omega), if_neg fun h => hInside (h hIl)]
      rfl

/-- The header is read inside the message, whatever follows it. -/
theorem ndefParseExtCmd_of_hasHeader (hLen : msg.length = msgLen.toNat) (h : HasHeader msg) :
    ndefParseExtCmd msg msgLen =
      parseTypeAndCmd msg msgLen (byteAt msg 1) (payloadLength msg) (UInt32.ofNat (headerLength msg)) := by
  have hThree : msgLen < 3 ↔ msg.length < 3 := msgLen_lt_iff hLen
  have hShort : 3 ≤ msg.length := (lengthsEnd_mem msg).1.trans h.lengths
  rw [ndefParseExtCmd, if_neg (mt hThree.mp (not_lt.mpr hShort)), readAt_of_lt (by omega), readAt_of_lt (by omega)]
  simp only [bind, Except.bind, ne_eq, if_neg (not_not.mpr h.external), parsePayloadLen_eq hLen hShort,
    if_pos h.lengths, parseIdLen_eq hLen, if_pos h.id]

theorem ndefParseExtCmd_of_not_hasHeader (hLen : msg.length = msgLen.toNat) (h : ¬ HasHeader msg) :
    ndefParseExtCmd msg msgLen = .ok none := by
  have hThree : msgLen < 3 ↔ msg.length < 3 := msgLen_lt_iff hLen
  by_cases hShort : msg.length < 3
  · rw [ndefParseExtCmd, if_pos (hThree.mpr hShort)]
    rfl
  · rw [ndefParseExtCmd, if_neg (mt hThree.mp hShort), readAt_of_lt (by omega), readAt_of_lt (by omega)]
    simp only [bind, Except.bind]
    by_cases hExternal : byteAt msg 0 &&& Ndef.tnfMask = Ndef.tnfExternal
    · rw [if_neg (not_not.mpr hExternal), parsePayloadLen_eq hLen (not_lt.mp hShort)]
      by_cases hLengths : lengthsEnd msg ≤ msg.length
      · have hId : ¬ (byteAt msg 0 &&& Ndef.il ≠ 0 → lengthsEnd msg < msg.length) := fun hId =>
          h ⟨hExternal, hLengths, hId⟩
        simp only [if_pos hLengths, parseIdLen_eq hLen, if_neg hId]
        rfl
      · simp only [if_neg hLengths]
        rfl
    · rw [if_pos hExternal]
      rfl

theorem parseTypeAndCmd_of_typeLen {typeLen : UInt8} (h : typeLen ≠ appConfigCmdTypeLen)
    (payloadLen headerLen : UInt32) :
    parseTypeAndCmd msg msgLen typeLen payloadLen headerLen = .ok none := by
  rw [parseTypeAndCmd, if_pos h, ite_self]
  rfl

/-- The extent is compared modulo `2 ^ 32`; the type and the command byte are then read where they are. -/
theorem parseTypeAndCmd_eq (hLen : msg.length = msgLen.toNat) {headerLen : Nat} (hHeader : headerLen ≤ 262)
    (payloadLen : UInt32) :
    parseTypeAndCmd msg msgLen appConfigCmdTypeLen payloadLen (UInt32.ofNat headerLen) =
      if msg.length < (headerLen + 15 + payloadLen.toNat) % 2 ^ 32 then .ok none
      else if msg.length < headerLen + 15 then .error ⟨max headerLen msg.length⟩
      else if (msg.drop headerLen).take 15 ≠ appConfigCmdType ∨ payloadLen = 0 then .ok none
      else if msg.length = headerLen + 15 then .error ⟨headerLen + 15⟩
      else .ok (some ⟨byteAt msg (headerLen + 15), UInt32.ofNat (headerLen + 15), payloadLen⟩) := by
  have hHeaderNat : (UInt32.ofNat headerLen).toNat = headerLen :=
    UInt32.toNat_ofNat_of_lt' (Nat.lt_of_le_of_lt hHeader (by decide))
  have hOffset : UInt32.ofNat headerLen + appConfigCmdTypeLen.toUInt32 = UInt32.ofNat (headerLen + 15) :=
    (UInt32.ofNat_add headerLen 15).symm
  have hOffsetNat : (UInt32.ofNat (headerLen + 15)).toNat = headerLen + 15 :=
    UInt32.toNat_ofNat_of_lt' (Nat.lt_of_le_of_lt (Nat.add_le_add_right hHeader 15) (by decide))
  have hExtent : msgLen < UInt32.ofNat (headerLen + 15) + payloadLen ↔
      msg.length < (headerLen + 15 + payloadLen.toNat) % 2 ^ 32 := by
    rw [msgLen_lt_iff hLen, UInt32.toNat_add, hOffsetNat]
  have hTypeLen : appConfigCmdTypeLen.toNat = 15 := rfl
  have hOne : payloadLen < 1 ↔ payloadLen = 0 := by
    rw [UInt32.lt_iff_toNat_lt, ← UInt32.toNat_inj]
    exact Nat.lt_one_iff
  unfold parseTypeAndCmd
  simp only [hOffset, hOffsetNat, hHeaderNat, hTypeLen, ne_eq, not_true, if_false]
  split
  · rw [if_pos (hExtent.mp ‹_›)]
    rfl
  · rw [if_neg (mt hExtent.mpr ‹_›)]
    by_cases hType : msg.length < headerLen + 15
    · rw [if_pos hType, readRange, if_neg (not_le.mpr hType)]
      rfl
    · rw [if_neg hType, readRange_of_le (not_lt.mp hType)]
      simp only [bind, Except.bind]
      split
      · rw [if_pos (.inl ‹_›)]
        rfl
      · split
        · rw [if_pos (.inr (hOne.mp ‹_›))]
          rfl
        · rename_i hMatch hPayload
          rw [if_neg (not_or.mpr ⟨hMatch, mt hOne.mpr hPayload⟩)]
          by_cases hEnd : msg.length = headerLen + 15
          · rw [if_pos hEnd, readAt, if_neg (by omega)]
          · rw [if_neg hEnd, readAt_of_lt (by omega)]
            rfl

end Parse

/-- The end of the payload, as a number that does not wrap. -/
def recordExtent (msg : List UInt8) : Nat := headerLength msg + (byteAt msg 1).toNat + (payloadLength msg).toNat

/-! ## Encoding a reply -/

/-- The bytes stored at `dst`; none is the error `-1`. -/
def ndefEncodeResponse (payload : List UInt8) (dstLen : UInt32) : Option (List UInt8) :=
  let payLen := UInt32.ofNat payload.length
  let total := 3 + appConfigInfoTypeLen + payLen
  if dstLen < total then none
  else
    some ([Ndef.mb ||| Ndef.me ||| Ndef.sr ||| Ndef.tnfExternal, appConfigInfoTypeLen.toUInt8, payLen.toUInt8] ++
      appConfigInfoType ++ payload)

/-! ## One written NDEF file -/

/-- `nfc_t4t_ndef_file_msg_get` as an offset, `nfc_t4t_ndef_file_msg_size_get`, and
`nfc_t4t_ndef_file_encode` as the buffer it leaves, or its error. -/
structure NdefFileLib where
  msgOffset : Nat
  msgSizeGet : UInt32 → UInt32
  fileEncode : List UInt8 → UInt32 → Except Int (List UInt8)

/-- The documented behaviour: two bytes of length in front of the message. -/
structure NdefFileLib.Documented (lib : NdefFileLib) : Prop where
  msgOffset : lib.msgOffset = 2
  msgSizeGet : ∀ size, lib.msgSizeGet size = size - 2
  fileEncode : ∀ file size, 2 ≤ file.length → size.toNat < 2 ^ 16 →
    lib.fileEncode file size = .ok (writeAt file 0 (be16 size.toUInt16))

def t4tNdefFile : NdefFileLib where
  msgOffset := 2
  msgSizeGet size := size - 2
  fileEncode file size := .ok (writeAt file 0 (be16 size.toUInt16))

theorem documented_t4tNdefFile : t4tNdefFile.Documented := ⟨rfl, fun _ => rfl, fun _ _ _ _ => rfl⟩

/-- The request handed to `process_app_payload`, after `print_frame` has read the whole payload. -/
def ndefRequest (msg : List UInt8) (msgLen : UInt32) : Except OutOfBounds (Option Payload) := do
  let some c ← ndefParseExtCmd msg msgLen | return none
  let payload ← readRange msg c.payloadOffset.toNat c.payloadLen.toNat
  return some ⟨payload.take c.payloadLen.toUInt16.toNat,
    Nat.lt_of_le_of_lt (List.length_take_le _ _) c.payloadLen.toUInt16.toNat_lt⟩

/-- The payload of the parsed command, all of which `print_frame` shows. -/
def ndefFrame (msg : List UInt8) (msgLen : UInt32) : Except OutOfBounds (Option (List UInt8)) := do
  let some c ← ndefParseExtCmd msg msgLen | return none
  let payload ← readRange msg c.payloadOffset.toNat c.payloadLen.toNat
  return some payload

/-- The returned flag, and the device and the buffer afterwards. -/
def appConfigHandleNdef (lib : NdefFileLib) (env : Env) (d : Device) (buf : Buffer) :
    Except OutOfBounds (Bool × Device × List UInt8) := do
  let msgSize := lib.msgSizeGet buf.length
  let some req ← ndefRequest (buf.bytes.drop lib.msgOffset) msgSize | return (false, d, buf.bytes)
  let (s, resp) := processAppPayload env d.toAppState .nfc req appProtoRespMax
  let d := { d with toAppState := s }
  if resp.length = 0 then return (false, d, buf.bytes)
  else
    match ndefEncodeResponse resp msgSize with
    | none => return (false, d, buf.bytes)
    | some rawMsg =>
      let file := writeAt buf.bytes lib.msgOffset rawMsg
      match lib.fileEncode file (UInt32.ofNat rawMsg.length) with
      | .error _ => return (false, d, file)
      | .ok file => return (true, d, file)

/-! ## The request in a frame -/

/-- `(uint16_t)payload_len` bytes of the frame. -/
def frameRequest (frame : List UInt8) : Payload :=
  ⟨frame.take (frame.length % 2 ^ 16), Nat.lt_of_le_of_lt (List.length_take_le _ _) (Nat.mod_lt _ (by decide))⟩

theorem ndefRequest_eq (msg : List UInt8) (msgLen : UInt32) :
    ndefRequest msg msgLen = (ndefFrame msg msgLen).map (Option.map frameRequest) := by
  unfold ndefRequest ndefFrame
  match ndefParseExtCmd msg msgLen with
  | .error e => rfl
  | .ok none => rfl
  | .ok (some c) =>
    by_cases hFits : c.payloadOffset.toNat + c.payloadLen.toNat ≤ msg.length
    · have hLength : ((msg.drop c.payloadOffset.toNat).take c.payloadLen.toNat).length = c.payloadLen.toNat := by
        rw [List.length_take, List.length_drop]
        omega
      simp only [bind, Except.bind, readRange_of_le hFits]
      change Except.ok (some (Payload.mk _ _)) = Except.ok (some (Payload.mk _ _))
      congr
      rw [hLength, UInt32.toNat_toUInt16]
    · simp only [bind, Except.bind, readRange, if_neg hFits]
      rfl

/-! ## A short command record -/

def commandRecord (req : List UInt8) : List UInt8 :=
  [Ndef.mb ||| Ndef.me ||| Ndef.sr ||| Ndef.tnfExternal, appConfigCmdTypeLen, UInt8.ofNat req.length] ++
    (appConfigCmdType ++ req)

theorem length_commandRecord (req : List UInt8) : (commandRecord req).length = 18 + req.length := by
  rw [commandRecord, List.length_append, List.length_append, ← Nat.add_assoc]
  rfl

theorem ndefParseExtCmd_commandRecord {req rest : List UInt8} {msgLen : UInt32} (hNonempty : req ≠ [])
    (hShort : req.length < 256) (hLen : (commandRecord req ++ rest).length = msgLen.toNat) :
    ndefParseExtCmd (commandRecord req ++ rest) msgLen =
      .ok (some ⟨byteAt (commandRecord req ++ rest) 18, 18, (UInt8.ofNat req.length).toUInt32⟩) := by
  have hLength : (commandRecord req ++ rest).length = 18 + req.length + rest.length := by
    rw [List.length_append, length_commandRecord]
  have hPos := List.length_pos_iff.mpr hNonempty
  have hPayload : (UInt8.ofNat req.length).toUInt32.toNat = req.length := by
    rw [UInt8.toNat_toUInt32, UInt8.toNat_ofNat_of_lt' hShort]
  have hZero : (UInt8.ofNat req.length).toUInt32 ≠ 0 := by
    rw [Ne, ← UInt32.toNat_inj, hPayload]
    exact Nat.ne_of_gt hPos
  have hFlags : byteAt (commandRecord req ++ rest) 0 = 0xD4 := rfl
  have hSr : byteAt (commandRecord req ++ rest) 0 &&& Ndef.sr ≠ 0 := by
    rw [hFlags]
    decide
  have hNoId : byteAt (commandRecord req ++ rest) 0 &&& Ndef.il = 0 := by
    rw [hFlags]
    decide
  have hEnd : lengthsEnd (commandRecord req ++ rest) = 3 := if_pos hSr
  have hHeaderLen : headerLength (commandRecord req ++ rest) = 3 := by
    rw [headerLength, if_pos hNoId, hEnd]
  have hPayloadLen : payloadLength (commandRecord req ++ rest) = (UInt8.ofNat req.length).toUInt32 := if_pos hSr
  have hTypeLen : byteAt (commandRecord req ++ rest) 1 = appConfigCmdTypeLen := rfl
  have hHeader : HasHeader (commandRecord req ++ rest) := by
    refine ⟨by rw [hFlags]; decide, ?_, fun h => absurd hNoId h⟩
    rw [hEnd, hLength]
    omega
  have hType : ((commandRecord req ++ rest).drop 3).take 15 = appConfigCmdType := rfl
  rw [ndefParseExtCmd_of_hasHeader hLen hHeader, hTypeLen, hPayloadLen, hHeaderLen,
    parseTypeAndCmd_eq hLen (by decide), hPayload, hLength, if_neg (by omega), if_neg (by omega),
    if_neg (not_or.mpr ⟨not_not.mpr hType, hZero⟩), if_neg (by omega)]
  rfl

theorem ndefRequest_commandRecord {req : Payload} {rest : List UInt8} {msgLen : UInt32} (hNonempty : req.bytes ≠ [])
    (hShort : req.bytes.length < 256) (hLen : (commandRecord req.bytes ++ rest).length = msgLen.toNat) :
    ndefRequest (commandRecord req.bytes ++ rest) msgLen = .ok (some req) := by
  have hPayload : (UInt8.ofNat req.bytes.length).toUInt32.toNat = req.bytes.length := by
    rw [UInt8.toNat_toUInt32, UInt8.toNat_ofNat_of_lt' hShort]
  have hTruncated : (UInt8.ofNat req.bytes.length).toUInt32.toUInt16.toNat = req.bytes.length := by
    rw [UInt32.toNat_toUInt16, hPayload, Nat.mod_eq_of_lt (hShort.trans (by decide))]
  have hDrop : ((commandRecord req.bytes ++ rest).drop 18).take req.bytes.length = req.bytes := List.take_left
  have hInside : (18 : UInt32).toNat + req.bytes.length ≤ (commandRecord req.bytes ++ rest).length := by
    rw [List.length_append, length_commandRecord]
    exact Nat.le_add_right _ _
  rw [ndefRequest, ndefParseExtCmd_commandRecord hNonempty hShort hLen]
  simp only [bind, Except.bind]
  rw [hPayload, readRange_of_le hInside]
  change Except.ok (some (Payload.mk _ _)) = _
  congr
  rw [hTruncated]
  change List.take _ (((commandRecord req.bytes ++ rest).drop 18).take req.bytes.length) = _
  rw [hDrop, List.take_length]

end IotRange.AppConfig
