import IotRange.AppConfig.Ble
import IotRange.Library.Traced

/-! # The functions with their buffer accesses

Each function of the request path once more, under its own name, with the indices it touches: of
the request, of the response buffer it is given and of the OTA buffer. A TLV value is a pointer
into the request. Without the log each one is the function of the model.
-/
namespace IotRange.Accesses
open AppAuth AppFields AppTlv AppProtocol AppConfig
set_option autoImplicit false

inductive Access
  | reqRead (i : Nat)
  | respWrite (i : Nat)
  | otaWrite (i : Nat)

/-- `req[i]`. -/
def readReq (req : List UInt8) (i : Nat) : Traced Access UInt8 := ⟨byteAt req i, [.reqRead i]⟩

/-- `n` bytes from `&req[i]` on. -/
def readReqRange (req : List UInt8) (i n : Nat) : Traced Access (List UInt8) :=
  ⟨(req.drop i).take n, (List.range' i n).map .reqRead⟩

@[simp] theorem value_readReq (req : List UInt8) (i : Nat) : (readReq req i).value = byteAt req i := rfl

@[simp] theorem value_readReqRange (req : List UInt8) (i n : Nat) :
    (readReqRange req i n).value = (req.drop i).take n := rfl

/-- Bytes stored from `&resp[pos]` on. -/
def writeResp (pos : Nat) (bytes : List UInt8) : Traced Access PUnit :=
  ⟨⟨⟩, (List.range' pos bytes.length).map .respWrite⟩

/-- `n` bytes stored from `&g_ota.buf[offset]` on. -/
def writeOta (offset n : Nat) : Traced Access PUnit := ⟨⟨⟩, (List.range' offset n).map .otaWrite⟩

/-- The whole response at once. -/
def answer {σ : Type} (s : σ) (resp : List UInt8) : Traced Access (σ × List UInt8) := do
  writeResp 0 resp
  pure (s, resp)

/-! ## TLVs (app_tlv.c) -/

/-- A decoded TLV, its value a pointer into the request. -/
structure TlvRef where
  fieldId : UInt8
  value : Nat
  valueLen : UInt8

def TlvRef.tlv (req : List UInt8) (r : TlvRef) : Tlv := Tlv.ofSlice r.fieldId r.valueLen (req.drop r.value)

/-- `data` is `&req[data]`. -/
def tlvDecodeField (req : List UInt8) (data : Nat) (dataLen offset : UInt16) :
    Traced Access (Except TlvError (TlvRef × UInt16)) :=
  if dataLen.toNat < offset.toNat + 2 then pure (.error .header)
  else do
    let fieldId ← readReq req (data + offset.toNat)
    let valueLen ← readReq req (data + (offset.toNat + 1))
    let offset := offset + 2
    if dataLen.toNat < offset.toNat + valueLen.toNat then pure (.error .value)
    else pure (.ok (⟨fieldId, data + offset.toNat, valueLen⟩, offset + valueLen.toUInt16))

theorem tlvDecodeField_eq_ok {req : List UInt8} {data : Nat} {dataLen offset next : UInt16} {r : TlvRef}
    (h : (tlvDecodeField req data dataLen offset).value = .ok (r, next)) :
    offset.toNat < next.toNat ∧ next.toNat ≤ dataLen.toNat ∧
      r.value + r.valueLen.toNat ≤ data + dataLen.toNat := by
  have hDataLen := dataLen.toNat_lt
  unfold tlvDecodeField at h
  split at h
  · cases h
  · rename_i hHeader
    have hOffset : (offset + 2).toNat = offset.toNat + 2 := by
      rw [UInt16.toNat_add, show (2 : UInt16).toNat = 2 from rfl]
      omega
    rw [Traced.value_bind, Traced.value_bind, Traced.value_ite, value_readReq, value_readReq, hOffset] at h
    split at h
    · cases h
    · rename_i hValue
      obtain ⟨rfl, rfl⟩ := Prod.mk.inj (Except.ok.inj h)
      have hNext : (offset + 2 + (byteAt req (data + (offset.toNat + 1))).toUInt16).toNat =
          offset.toNat + 2 + (byteAt req (data + (offset.toNat + 1))).toNat := by
        rw [UInt16.toNat_add, hOffset, UInt8.toNat_toUInt16]
        exact Nat.mod_eq_of_lt (Nat.lt_of_le_of_lt (Nat.not_lt.mp hValue) hDataLen)
      dsimp only
      omega

def tlvScan (req : List UInt8) (data : Nat) (dataLen offset : UInt16) (actualCount : UInt8) :
    Traced Access (Except TlvError UInt8) :=
  if offset.toNat < dataLen.toNat then
    (tlvDecodeField req data dataLen offset).bindWith fun
      | .error e, _ => pure (.error e)
      | .ok (_, next), _h => tlvScan req data dataLen next (actualCount + 1)
  else pure (.ok actualCount)
termination_by dataLen.toNat - offset.toNat
decreasing_by
  obtain ⟨hNext, hLe, -⟩ := tlvDecodeField_eq_ok _h
  omega

theorem tlvScan_unfold (req : List UInt8) (data : Nat) (dataLen offset : UInt16) (actualCount : UInt8) :
    tlvScan req data dataLen offset actualCount =
      if offset.toNat < dataLen.toNat then do
        match ← tlvDecodeField req data dataLen offset with
        | .error e => pure (.error e)
        | .ok (_, next) => tlvScan req data dataLen next (actualCount + 1)
      else pure (.ok actualCount) := by
  rw [tlvScan]
  split
  · refine Traced.bindWith_eq_bind ?_
    rintro (e | ⟨r, next⟩) _
    · rfl
    · rfl
  · rfl

def tlvValidatePayload (req : List UInt8) (data : Nat) (dataLen : UInt16) (fieldCount : UInt8) :
    Traced Access Bool := do
  match ← tlvScan req data dataLen 0 0 with
  | .error _ => pure false
  | .ok actualCount => pure (actualCount == fieldCount)

/-! ## Fields (app_fields.c) -/

def getU16Be (req : List UInt8) (buf : Nat) : Traced Access UInt16 := do
  let bytes ← readReqRange req buf 2
  pure (AppFields.getU16Be bytes)

def getU32Be (req : List UInt8) (buf : Nat) : Traced Access UInt32 := do
  let bytes ← readReqRange req buf 4
  pure (AppFields.getU32Be bytes)

def appFieldValidate (req : List UInt8) (fieldId : UInt8) (value : Nat) (len : UInt8) : Traced Access Status :=
  if !fieldIsReadable fieldId then pure .unsupported
  else if !fieldIsWritable fieldId then pure .unsupported
  else
    let expectedLen := fieldValueLen fieldId
    if expectedLen > 0 ∧ len.toNat ≠ expectedLen then pure .paramLen
    else
      match fieldId with
      | fieldMode => do
        let mode ← readReq req value
        pure (if mode < 0x01 ∨ mode > 0x03 then .paramValue else .ok)
      | fieldUpdateInterval => pure .ok
      | fieldInstallLocation => do
        let lat ← getU32Be req value
        let lng ← getU32Be req (value + 4)
        pure (if lat.toInt32 < -900000000 ∨ lat.toInt32 > 900000000 ∨ lng.toInt32 < -1800000000 ∨
            lng.toInt32 > 1800000000 then .paramValue
          else .ok)
      | _ => pure .ok

def appFieldSet (req : List UInt8) (f : Store) (fieldId : UInt8) (value : Nat) : Traced Access Store :=
  match fieldId with
  | fieldMode => do
    let mode ← readReq req value
    pure { f with mode := mode }
  | fieldUpdateInterval => do
    let updateInterval ← getU16Be req value
    pure { f with updateInterval := updateInterval }
  | fieldInstallLocation => do
    let lat ← getU32Be req value
    let lng ← getU32Be req (value + 4)
    pure { f with
      installLat := lat.toInt32
      installLng := lng.toInt32
      gnssFix := 0x01
      latitude := lat.toInt32
      longitude := lng.toInt32
      altitude := 0 }
  | _ => pure f

/-! ## CMD 0x01 and CMD 0x02 (app_protocol.c) -/

def answer3 {σ : Type} (s : σ) (respMax : Nat) (cmd status third : UInt8) : Traced Access (σ × List UInt8) :=
  if respMax < 3 then pure (s, []) else answer s [cmd, status, third]

def appendFieldToResp (f : Store) (fieldId : UInt8) (resp : List UInt8) (respMax : Nat) :
    Traced Access (UInt8 × List UInt8) :=
  let value := appFieldGet f fieldId valBufSize
  if value.length = 0 then pure (0, resp)
  else
    let tlvSize := 2 + UInt8.ofNat value.length
    if resp.length + tlvSize.toNat > respMax then pure (0xFF, resp)
    else do
      writeResp resp.length (tlvEncodeField fieldId value).1
      pure (tlvSize, resp ++ (tlvEncodeField fieldId value).1)

/-- The ids come from the request or from a table, one after another. -/
def appendFields (counts : UInt8 → Bool) (f : Store) (respMax : Nat) :
    List (Traced Access UInt8) → List UInt8 → UInt8 → Traced Access (Except UInt8 (List UInt8 × UInt8))
  | [], resp, actualCount => pure (.ok (resp, actualCount))
  | fetch :: fetches, resp, actualCount => do
    let fieldId ← fetch
    let (ret, resp) ← appendFieldToResp f fieldId resp respMax
    if ret = 0xFF then pure (.error fieldId)
    else appendFields counts f respMax fetches resp (if counts ret then actualCount + 1 else actualCount)

def finishRead (f : Store) : Except UInt8 (List UInt8 × UInt8) → Traced Access (Store × List UInt8)
  | .error fieldId => answer f [cmdRead, Status.unknown.code, fieldId]
  | .ok (resp, actualCount) => do
    writeResp 2 [actualCount]
    pure (f, writeAt resp 2 [actualCount])

def checkFields (f : Store) : List (Traced Access UInt8) → Traced Access (Option UInt8)
  | [] => pure none
  | fetch :: fetches => do
    let fieldId ← fetch
    if (appFieldGet f fieldId valBufSize).length = 0 then pure (some fieldId) else checkFields f fetches

def readAllFields (f : Store) (respMax : Nat) : Traced Access (Store × List UInt8) := do
  let result ← appendFields (0 < ·) f respMax (allReadableFields.map pure) [cmdRead, Status.ok.code, 0] 0
  finishRead f result

def readListedFields (f : Store) (fetches : List (Traced Access UInt8)) (respMax : Nat) :
    Traced Access (Store × List UInt8) := do
  match ← checkFields f fetches with
  | some fieldId => answer f [cmdRead, Status.unsupported.code, fieldId]
  | none =>
    let result ← appendFields (fun _ => true) f respMax fetches [cmdRead, Status.ok.code, 0] 0
    finishRead f result

def handleCmdRead (f : Store) (req : List UInt8) (respMax : Nat) : Traced Access (Store × List UInt8) :=
  if req.length < 6 then answer3 f respMax cmdRead Status.paramLen.code 0x00
  else do
    let ts ← getU32Be req 1
    let f := appFieldSetUnixtime f ts
    let fieldCount ← readReq req 5
    let fieldListLen := UInt8.ofNat (req.length - 6)
    if respMax < 3 then pure (f, [])
    else do
      writeResp 0 [cmdRead, Status.ok.code]
      if fieldCount = 0 then readAllFields f respMax
      else if fieldCount > fieldListLen then answer f [cmdRead, Status.paramLen.code, 0x00]
      else readListedFields f ((List.range' 6 fieldCount.toNat).map (readReq req)) respMax

def cacheTlvs (req : List UInt8) (tlvData : Nat) (tlvLen : UInt16) :
    Nat → UInt16 → List TlvRef → Traced Access (Except (Status × UInt8) (List TlvRef))
  | 0, _, cache => pure (.ok cache)
  | remaining + 1, offset, cache =>
    if cache.length ≥ writeCacheMax then pure (.error (.paramLen, 0x00))
    else do
      match ← tlvDecodeField req tlvData tlvLen offset with
      | .error _ => pure (.error (.paramLen, 0x00))
      | .ok (r, offset) =>
        let status ← appFieldValidate req r.fieldId r.value r.valueLen
        if status ≠ .ok then pure (.error (status, r.fieldId))
        else cacheTlvs req tlvData tlvLen remaining offset (cache ++ [r])

def parseWrite (req : List UInt8) : Traced Access (Except (Status × UInt8) (List TlvRef)) :=
  if req.length < 2 then pure (.error (.paramLen, 0x00))
  else do
    let fieldCount ← readReq req 1
    if fieldCount = 0 then pure (.error (.paramLen, 0x00))
    else do
      let tlvLen := UInt16.ofNat (req.length - 2)
      let complete ← tlvValidatePayload req 2 tlvLen fieldCount
      if !complete then pure (.error (.paramLen, 0x00))
      else cacheTlvs req 2 tlvLen fieldCount.toNat 0 []

def applyCache (req : List UInt8) : Store → List TlvRef → Traced Access Store
  | f, [] => pure f
  | f, r :: cache => do
    let f ← appFieldSet req f r.fieldId r.value
    applyCache req f cache

def handleCmdWrite (uptime : Nat) (s : AppState) (channel : Channel) (req : List UInt8) (respMax : Nat) :
    Traced Access (AppState × List UInt8) := do
  match ← parseWrite req with
  | .error (status, third) => answer3 s respMax cmdWrite status.code third
  | .ok cache =>
    let (authSt, auth) := if writeExempt s.fields then (.ok, s.auth) else appAuthCheckWrite uptime s.auth channel
    if authSt ≠ .ok then answer3 { s with auth := auth } respMax cmdWrite authSt.code 0x00
    else do
      let fields ← applyCache req s.fields cache
      let fields := if writeExempt fields then appFieldMarkFactoryInitDone fields else fields
      answer3 ⟨fields, auth⟩ respMax cmdWrite Status.ok.code 0x00

/-! ## CMD 0x03 (app_auth.c) -/

def authToken (env : Env) (a : Auth) (data : List UInt8) (channel : Channel) : Traced Access (Auth × List UInt8) :=
  if data.length < 34 then answer a [cmdAuth, Status.paramLen.code, authSubcmdToken]
  else if !channelNonceValid a channel then
    answer a [cmdAuth, Status.authState.code, authSubcmdToken, authStateLocked]
  else do
    let expected := expectedToken a (channelNonce a channel)
    let received ← readReqRange data 2 32
    let a := setChannelNonceValid a channel false
    if xorDiff expected.toList received = 0 then
      answer (channelUnlock env.uptime a channel) [cmdAuth, Status.ok.code, authSubcmdToken, authStateUnlocked]
    else answer (channelLock a channel) [cmdAuth, Status.authFailed.code, authSubcmdToken, authStateLocked]

def authChangePwd (env : Env) (a : Auth) (data : List UInt8) (channel : Channel) :
    Traced Access (Auth × List UInt8) :=
  let (st, a) := appAuthCheckWrite env.uptime a channel
  if st ≠ .ok then answer a [cmdAuth, st.code, authSubcmdChangePwd]
  else if h : data.length < 34 then answer a [cmdAuth, Status.paramLen.code, authSubcmdChangePwd]
  else do
    let _ ← readReqRange data 2 32
    answer { a with passwordHash := ⟨credential data, length_credential h⟩ }
      [cmdAuth, Status.ok.code, authSubcmdChangePwd]

def appAuthHandleCmd (env : Env) (a : Auth) (data : List UInt8) (channel : Channel) :
    Traced Access (Auth × List UInt8) :=
  if data.length < 2 then pure (a, [])
  else do
    let cmd ← readReq data 0
    if cmd ≠ cmdAuth then pure (a, [])
    else do
      let subcmd ← readReq data 1
      match subcmd with
      | authSubcmdNonce =>
        let a := setChannelNonceValid (setChannelNonce a channel env.rand) channel true
        answer a ([cmdAuth, Status.ok.code, authSubcmdNonce] ++ (channelNonce a channel).toList)
      | authSubcmdToken => authToken env a data channel
      | authSubcmdChangePwd => authChangePwd env a data channel
      | authSubcmdLock => answer (channelLock a channel) [cmdAuth, Status.ok.code, authSubcmdLock]
      | subcmd => answer a [cmdAuth, Status.unsupported.code, subcmd]

/-! ## CMD 0x04 and the entry point (app_protocol.c) -/

def answer4 {σ : Type} (s : σ) (respMax : Nat) (status third fourth : UInt8) : Traced Access (σ × List UInt8) :=
  if respMax < 4 then pure (s, []) else answer s [cmdAction, status, third, fourth]

def actionPowerOff (uptime : Nat) (s : AppState) (channel : Channel) (respMax : Nat) :
    Traced Access (AppState × List UInt8) :=
  let (authSt, auth) := appAuthCheckWrite uptime s.auth channel
  let s := { s with auth := auth }
  if authSt ≠ .ok then answer4 s respMax authSt.code 0x02 s.fields.deviceState.code
  else
    let s := { s with fields := appFieldSetDeviceState s.fields .powerOff }
    answer4 s respMax Status.ok.code 0x02 s.fields.deviceState.code

def actionFactoryReset (uptime : Nat) (s : AppState) (channel : Channel) (req : List UInt8) (respMax : Nat) :
    Traced Access (AppState × List UInt8) :=
  let (authSt, auth) := appAuthCheckWrite uptime s.auth channel
  let s := { s with auth := auth }
  if authSt ≠ .ok then answer4 s respMax authSt.code 0x03 s.fields.deviceState.code
  else if req.length < 9 then answer4 s respMax Status.paramValue.code 0x03 s.fields.deviceState.code
  else do
    let word ← readReqRange req 2 7
    if word ≠ factoryWord then answer4 s respMax Status.paramValue.code 0x03 s.fields.deviceState.code
    else
      answer4 (⟨appFieldsInit s.fields, appAuthResetPassword s.auth⟩ : AppState) respMax Status.ok.code 0x03
        DeviceState.factory.code

def handleCmdAction (uptime : Nat) (s : AppState) (channel : Channel) (req : List UInt8) (respMax : Nat) :
    Traced Access (AppState × List UInt8) :=
  if req.length < 2 then answer4 s respMax Status.paramLen.code 0x00 0x00
  else do
    let subcmd ← readReq req 1
    match subcmd with
    | 0x01 =>
      let s := { s with fields := appFieldSetDeviceState s.fields .powerOn }
      answer4 s respMax Status.ok.code 0x01 s.fields.deviceState.code
    | 0x02 => actionPowerOff uptime s channel respMax
    | 0x03 => actionFactoryReset uptime s channel req respMax
    | subcmd => answer3 s respMax cmdAction Status.unsupported.code subcmd

def processAppPayload (env : Env) (s : AppState) (channel : Channel) (req : List UInt8) (respMax : Nat) :
    Traced Access (AppState × List UInt8) :=
  if req.length < 1 then pure (s, [])
  else do
    let cmd ← readReq req 0
    match cmd with
    | cmdRead =>
      let (fields, resp) ← handleCmdRead s.fields req respMax
      pure ({ s with fields := fields }, resp)
    | cmdWrite => handleCmdWrite env.uptime s channel req respMax
    | cmdAuth =>
      let (auth, resp) ← appAuthHandleCmd env s.auth req channel
      pure ({ s with auth := auth }, resp)
    | cmdAction => handleCmdAction env.uptime s channel req respMax
    | cmd => if respMax < 2 then pure (s, []) else answer s [cmd, Status.unsupported.code]

/-! ## The BLE entry point (app_config.c) -/

def printFrame (buf : List UInt8) : Traced Access PUnit := do
  let _ ← readReqRange buf 0 buf.length

def otaStart (ota : OtaState) (data : List UInt8) : Traced Access (OtaState × List UInt8) := do
  let totalSize ← (if data.length ≥ 5 then getU32Be data 1 else pure 0)
  answer { active := true, done := false, totalSize := totalSize, nextIdx := 0, bytesReceived := 0, buf := ota.buf }
    [cmdOtaStart, Status.ok.code]

def otaData (ota : OtaState) (data : List UInt8) : Traced Access (OtaState × List UInt8) :=
  if !ota.active then answer ota [cmdOtaData, Status.otaState.code]
  else if data.length ≥ 4 then do
    let idx ← getU16Be data 1
    let packet := data.drop 3
    let offset := idx.toNat * otaPktData
    if h : offset + packet.length ≤ otaBufSize then do
      let _ ← readReqRange data 3 packet.length
      writeOta offset packet.length
      pure ({ ota with
        buf := ota.buf.write offset packet h
        bytesReceived := ota.bytesReceived + UInt32.ofNat packet.length
        nextIdx := idx + 1 }, [])
    else pure ({ ota with nextIdx := idx + 1 }, [])
  else pure (ota, [])

def otaEnd (ota : OtaState) : Traced Access (OtaState × List UInt8) :=
  answer { ota with active := false, done := true } [cmdOtaEnd, Status.ok.code]

def otaChecked (env : Env) (d : Device) (cmd : UInt8) (body : OtaState → Traced Access (OtaState × List UInt8)) :
    Traced Access (Device × List UInt8) :=
  let (authSt, auth) := appAuthCheckWrite env.uptime d.auth .ble
  let d := { d with auth := auth }
  if authSt ≠ .ok then answer d [cmd, authSt.code]
  else do
    let (ota, resp) ← body d.ota
    pure ({ d with ota := ota }, resp)

def appConfigHandleBle (env : Env) (d : Device) (data : List UInt8) : Traced Access (Device × List UInt8) :=
  if data.length < 1 then pure (d, [])
  else do
    let cmd ← readReq data 0
    let _ ← (if cmd ≠ cmdOtaData then printFrame data else pure ⟨⟩)
    match cmd with
    | cmdOtaStart => otaChecked env d cmdOtaStart (otaStart · data)
    | cmdOtaData => otaChecked env d cmdOtaData (otaData · data)
    | cmdOtaEnd => otaChecked env d cmdOtaEnd otaEnd
    | _ =>
      let (s, internalBuf) ← processAppPayload env d.toAppState .ble data appProtoRespMax
      answer { d with toAppState := s } internalBuf

/-! ## Without the log -/

section Tlv

variable {req : Payload} {data : Nat} {dataLen : UInt16}

theorem value_tlvDecodeField (hLen : dataLen.toNat = req.bytes.length - data) (offset : UInt16) :
    (tlvDecodeField req.bytes data dataLen offset).value.map (fun p => (p.1.tlv req.bytes, p.2)) =
      AppTlv.tlvDecodeField (req.drop data) offset := by
  have hLength : (req.drop data).bytes.length = dataLen.toNat := by rw [hLen, Payload.drop, List.length_drop]
  have hByte (i : Nat) : byteAt (req.drop data).bytes i = byteAt req.bytes (data + i) := byteAt_drop req.bytes data i
  have hDrop (i : Nat) : (req.drop data).bytes.drop i = req.bytes.drop (data + i) := List.drop_drop
  unfold tlvDecodeField AppTlv.tlvDecodeField
  simp only [hLength, hByte, hDrop]
  split
  · rfl
  · rw [Traced.value_bind, Traced.value_bind, Traced.value_ite, value_readReq, value_readReq]
    split <;> rfl

theorem value_of_decode_error (hLen : dataLen.toNat = req.bytes.length - data) {offset : UInt16} {e : TlvError}
    (h : AppTlv.tlvDecodeField (req.drop data) offset = .error e) :
    (tlvDecodeField req.bytes data dataLen offset).value = .error e := by
  rw [← value_tlvDecodeField hLen] at h
  match hValue : (tlvDecodeField req.bytes data dataLen offset).value with
  | .error _ =>
    rw [hValue] at h
    exact congrArg Except.error (Except.error.inj h)
  | .ok _ =>
    rw [hValue] at h
    cases h

theorem value_of_decode_ok (hLen : dataLen.toNat = req.bytes.length - data) {offset next : UInt16} {t : Tlv}
    (h : AppTlv.tlvDecodeField (req.drop data) offset = .ok (t, next)) :
    ∃ r : TlvRef, r.tlv req.bytes = t ∧ (tlvDecodeField req.bytes data dataLen offset).value = .ok (r, next) := by
  rw [← value_tlvDecodeField hLen] at h
  match hValue : (tlvDecodeField req.bytes data dataLen offset).value with
  | .error _ =>
    rw [hValue] at h
    cases h
  | .ok (r, next') =>
    rw [hValue] at h
    obtain ⟨hTlv, rfl⟩ := Prod.mk.inj (Except.ok.inj h)
    exact ⟨r, hTlv, rfl⟩

theorem value_tlvScan (hLen : dataLen.toNat = req.bytes.length - data) (offset : UInt16) (actualCount : UInt8) :
    (tlvScan req.bytes data dataLen offset actualCount).value = AppTlv.tlvScan (req.drop data) offset actualCount := by
  have hLength : (req.drop data).bytes.length = dataLen.toNat := by rw [hLen, Payload.drop, List.length_drop]
  induction offset, actualCount using AppTlv.tlvScan.induct (req.drop data) with
  | case1 offset actualCount hOffset e hDecode =>
    rw [tlvScan_unfold, AppTlv.tlvScan_unfold, if_pos hOffset, if_pos (hLength ▸ hOffset), Traced.value_bind,
      value_of_decode_error hLen hDecode, hDecode]
    rfl
  | case2 offset actualCount hOffset t next hDecode ih =>
    obtain ⟨r, -, hValue⟩ := value_of_decode_ok hLen hDecode
    rw [tlvScan_unfold, AppTlv.tlvScan_unfold, if_pos hOffset, if_pos (hLength ▸ hOffset), Traced.value_bind, hValue,
      hDecode]
    exact ih
  | case3 offset actualCount hOffset =>
    rw [tlvScan_unfold, AppTlv.tlvScan_unfold, if_neg hOffset, if_neg (hLength ▸ hOffset)]
    rfl

end Tlv

section Fields

variable {req : List UInt8} {r : TlvRef}

/-- The value lies inside the request. -/
def TlvRef.Fits (r : TlvRef) (n : Nat) : Prop := r.value + r.valueLen.toNat ≤ n

@[simp] theorem fieldId_tlv (req : List UInt8) (r : TlvRef) : (r.tlv req).fieldId = r.fieldId := rfl

theorem value_tlv (req : List UInt8) (r : TlvRef) :
    (r.tlv req).value = (req.drop r.value).take r.valueLen.toNat := rfl

theorem length_value_tlv (h : r.Fits req.length) : (r.tlv req).value.length = r.valueLen.toNat := by
  have hFits : r.value + r.valueLen.toNat ≤ req.length := h
  rw [value_tlv, List.length_take, List.length_drop]
  omega

theorem byteAt_value_tlv (req : List UInt8) (h : 0 < r.valueLen.toNat) :
    byteAt (r.tlv req).value 0 = byteAt req r.value := by
  rw [value_tlv, byteAt_take h, byteAt_drop, Nat.add_zero]

theorem value_getU16Be (req : List UInt8) (buf : Nat) : (getU16Be req buf).value = readBe16 (req.drop buf) :=
  readBe16_take (le_refl 2) _

theorem value_getU32Be (req : List UInt8) (buf : Nat) : (getU32Be req buf).value = readBe32 (req.drop buf) :=
  readBe32_take (le_refl 4) _

theorem getU16Be_value_tlv (h : r.valueLen.toNat = 2) :
    AppFields.getU16Be (r.tlv req).value = (getU16Be req r.value).value := by
  rw [value_getU16Be, value_tlv, h]
  exact readBe16_take (le_refl 2) _

theorem getU32Be_value_tlv (req : List UInt8) (h : r.valueLen.toNat = 8) :
    AppFields.getU32Be (r.tlv req).value = (getU32Be req r.value).value ∧
      AppFields.getU32Be ((r.tlv req).value.drop 4) = (getU32Be req (r.value + 4)).value := by
  rw [value_getU32Be, value_getU32Be, value_tlv, h]
  constructor
  · exact readBe32_take (by decide) _
  · rw [List.drop_take, List.drop_drop]
    exact readBe32_take (le_refl 4) _

theorem value_appFieldValidate (h : r.Fits req.length) :
    (appFieldValidate req r.fieldId r.value r.valueLen).value =
      AppFields.appFieldValidate r.fieldId (r.tlv req).value := by
  have hLength := length_value_tlv h
  have hMode : 0 < r.valueLen.toNat → byteAt (r.tlv req).value 0 = byteAt req r.value := byteAt_value_tlv req
  have hLocation : r.valueLen.toNat = 8 → _ := getU32Be_value_tlv req
  obtain ⟨fieldId, value, valueLen⟩ := r
  unfold appFieldValidate AppFields.appFieldValidate
  dsimp only at hMode hLocation ⊢
  rw [hLength]
  split
  · rfl
  · split
    · rfl
    · split
      · rfl
      · rename_i hLen
        split
        · have hOne : valueLen.toNat = 1 := not_not.mp fun hNe => hLen ⟨by decide, hNe⟩
          rw [hMode (hOne ▸ Nat.one_pos)]
          rfl
        · rfl
        · have hEight : valueLen.toNat = 8 := not_not.mp fun hNe => hLen ⟨by decide, hNe⟩
          obtain ⟨hLat, hLng⟩ := hLocation hEight
          rw [hLat, hLng]
          rfl
        · try split
          all_goals first | contradiction | rfl

/-- A cached TLV: it lies inside the request and has been validated. -/
structure TlvRef.Checked (req : List UInt8) (r : TlvRef) : Prop where
  fits : r.Fits req.length
  valid : AppFields.appFieldValidate r.fieldId (r.tlv req).value = .ok

theorem TlvRef.Checked.cases (h : r.Checked req) :
    (r.fieldId = fieldMode ∧ r.valueLen.toNat = 1) ∨ (r.fieldId = fieldUpdateInterval ∧ r.valueLen.toNat = 2) ∨
      (r.fieldId = fieldInstallLocation ∧ r.valueLen.toNat = 8) := by
  have hCases := writable_cases h.valid
  rwa [length_value_tlv h.fits] at hCases

theorem value_appFieldSet (f : Store) (h : r.Checked req) :
    (appFieldSet req f r.fieldId r.value).value = AppFields.appFieldSet f r.fieldId (r.tlv req).value := by
  obtain ⟨hField, hLen⟩ | ⟨hField, hLen⟩ | ⟨hField, hLen⟩ := h.cases
  · rw [hField]
    change { f with mode := byteAt req r.value } = { f with mode := byteAt (r.tlv req).value 0 }
    rw [byteAt_value_tlv req (hLen ▸ Nat.one_pos)]
  · rw [hField]
    change _ = { f with updateInterval := AppFields.getU16Be (r.tlv req).value }
    rw [getU16Be_value_tlv hLen]
    rfl
  · obtain ⟨hLat, hLng⟩ := getU32Be_value_tlv req hLen
    rw [hField]
    unfold AppFields.appFieldSet
    dsimp only
    rw [hLat, hLng]
    rfl

theorem value_applyCache (f : Store) {cache : List TlvRef} (h : ∀ r ∈ cache, r.Checked req) :
    (applyCache req f cache).value = AppProtocol.applyCache f (cache.map (TlvRef.tlv req)) := by
  induction cache generalizing f with
  | nil => rfl
  | cons r cache ih =>
    rw [List.forall_mem_cons] at h
    rw [applyCache, Traced.value_bind, ih _ h.2, value_appFieldSet f h.1]
    rfl

end Fields

section Write

variable {req : Payload} {data : Nat} {dataLen : UInt16}

theorem fits_of_decode {offset next : UInt16} {r : TlvRef} (hLen : dataLen.toNat = req.bytes.length - data)
    (hData : data ≤ req.bytes.length) (h : (tlvDecodeField req.bytes data dataLen offset).value = .ok (r, next)) :
    r.Fits req.bytes.length := by
  obtain ⟨-, -, hValue⟩ := tlvDecodeField_eq_ok h
  rw [TlvRef.Fits]
  omega

theorem value_cacheTlvs (hLen : dataLen.toNat = req.bytes.length - data) (hData : data ≤ req.bytes.length)
    (remaining : Nat) (offset : UInt16) (cache : List TlvRef) :
    (cacheTlvs req.bytes data dataLen remaining offset cache).value.map (List.map (TlvRef.tlv req.bytes)) =
      AppProtocol.cacheTlvs (req.drop data) remaining offset (cache.map (TlvRef.tlv req.bytes)) := by
  induction remaining generalizing offset cache with
  | zero => rfl
  | succ remaining ih =>
    rw [cacheTlvs, AppProtocol.cacheTlvs, List.length_map]
    split
    · rfl
    · rw [Traced.value_bind]
      cases hDecode : AppTlv.tlvDecodeField (req.drop data) offset with
      | error e =>
        rw [value_of_decode_error hLen hDecode]
        rfl
      | ok decoded =>
        obtain ⟨t, next⟩ := decoded
        obtain ⟨r, rfl, hValue⟩ := value_of_decode_ok hLen hDecode
        have hValidate := value_appFieldValidate (fits_of_decode hLen hData hValue)
        rw [hValue]
        dsimp only
        rw [Traced.value_bind, hValidate, Traced.value_ite, fieldId_tlv]
        split
        · rfl
        · rw [ih, List.map_append]
          rfl

theorem checked_cacheTlvs (hLen : dataLen.toNat = req.bytes.length - data) (hData : data ≤ req.bytes.length)
    {remaining : Nat} {offset : UInt16} {cache out : List TlvRef} (hCache : ∀ r ∈ cache, r.Checked req.bytes)
    (h : (cacheTlvs req.bytes data dataLen remaining offset cache).value = .ok out) :
    ∀ r ∈ out, r.Checked req.bytes := by
  induction remaining generalizing offset cache with
  | zero =>
    obtain rfl := Except.ok.inj h
    exact hCache
  | succ remaining ih =>
    rw [cacheTlvs] at h
    split at h
    · cases h
    · rw [Traced.value_bind] at h
      match hDecode : (tlvDecodeField req.bytes data dataLen offset).value with
      | .error e =>
        rw [hDecode] at h
        cases h
      | .ok (r, next) =>
        have hFits := fits_of_decode hLen hData hDecode
        rw [hDecode] at h
        dsimp only at h
        rw [Traced.value_bind, value_appFieldValidate hFits, Traced.value_ite] at h
        split at h
        · cases h
        · rename_i hValid
          refine ih (fun r' hr' => ?_) h
          obtain hOld | hNew := List.mem_append.mp hr'
          · exact hCache r' hOld
          · obtain rfl := List.mem_singleton.mp hNew
            exact ⟨hFits, not_not.mp hValid⟩

theorem toNat_tlvLen (req : Payload) : (UInt16.ofNat (req.bytes.length - 2)).toNat = req.bytes.length - 2 :=
  UInt16.toNat_ofNat_of_lt' (Nat.lt_of_le_of_lt (Nat.sub_le _ 2) req.length_lt)

theorem value_parseWrite (req : Payload) :
    (parseWrite req.bytes).value.map (List.map (TlvRef.tlv req.bytes)) = AppProtocol.parseWrite req := by
  have hLen := toNat_tlvLen req
  unfold parseWrite AppProtocol.parseWrite
  split
  · rfl
  · rename_i hLength
    dsimp only
    rw [Traced.value_bind, Traced.value_ite, value_readReq]
    split
    · rfl
    · have hScan : (tlvValidatePayload req.bytes 2 (UInt16.ofNat (req.bytes.length - 2)) (byteAt req.bytes 1)).value =
          AppTlv.tlvValidatePayload (req.drop 2) (byteAt req.bytes 1) := by
        rw [tlvValidatePayload, AppTlv.tlvValidatePayload, Traced.value_bind, value_tlvScan hLen]
        cases AppTlv.tlvScan (req.drop 2) 0 0 <;> rfl
      rw [Traced.value_bind, Traced.value_ite, hScan]
      split
      · rfl
      · exact value_cacheTlvs hLen (Nat.not_lt.mp hLength) _ 0 []

theorem checked_parseWrite {req : Payload} {cache : List TlvRef} (h : (parseWrite req.bytes).value = .ok cache) :
    ∀ r ∈ cache, r.Checked req.bytes := by
  unfold parseWrite at h
  split at h
  · cases h
  · rename_i hLength
    rw [Traced.value_bind, Traced.value_ite] at h
    split at h
    · cases h
    · rw [Traced.value_bind, Traced.value_ite] at h
      split at h
      · cases h
      · exact checked_cacheTlvs (toNat_tlvLen req) (Nat.not_lt.mp hLength) (List.forall_mem_nil _) h

theorem value_answer3 {σ : Type} (s : σ) (respMax : Nat) (cmd status third : UInt8) :
    (answer3 s respMax cmd status third).value = (s, reply3 respMax cmd status third) := by
  unfold answer3 reply3
  split <;> rfl

theorem value_answer4 {σ : Type} (s : σ) (respMax : Nat) (status third fourth : UInt8) :
    (answer4 s respMax status third fourth).value = (s, reply4 respMax status third fourth) := by
  unfold answer4 reply4
  split <;> rfl

theorem value_handleCmdWrite (uptime : Nat) (s : AppState) (channel : Channel) (req : Payload) (respMax : Nat) :
    (handleCmdWrite uptime s channel req.bytes respMax).value =
      AppProtocol.handleCmdWrite uptime s channel req respMax := by
  unfold handleCmdWrite AppProtocol.handleCmdWrite
  rw [Traced.value_bind, ← value_parseWrite]
  match hParse : (parseWrite req.bytes).value with
  | .error (status, third) => exact value_answer3 s respMax cmdWrite status.code third
  | .ok cache =>
    dsimp only [Except.map]
    generalize (if writeExempt s.fields = true then (Status.ok, s.auth)
      else appAuthCheckWrite uptime s.auth channel) = check
    rw [Traced.value_ite]
    split
    · exact value_answer3 _ respMax cmdWrite _ 0x00
    · rw [Traced.value_bind, value_answer3, value_applyCache s.fields (checked_parseWrite hParse)]

end Write

section Read

variable (f : Store) (respMax : Nat)

theorem value_appendFieldToResp (fieldId : UInt8) (resp : List UInt8) :
    (appendFieldToResp f fieldId resp respMax).value = AppProtocol.appendFieldToResp f fieldId resp respMax := by
  unfold appendFieldToResp AppProtocol.appendFieldToResp
  dsimp only
  split
  · rfl
  · split <;> rfl

theorem value_appendFields (counts : UInt8 → Bool) (fetches : List (Traced Access UInt8)) (resp : List UInt8)
    (actualCount : UInt8) :
    (appendFields counts f respMax fetches resp actualCount).value =
      AppProtocol.appendFields counts f respMax (fetches.map Traced.value) resp actualCount := by
  induction fetches generalizing resp actualCount with
  | nil => rfl
  | cons fetch fetches ih =>
    rw [appendFields, List.map_cons, AppProtocol.appendFields, Traced.value_bind, Traced.value_bind,
      value_appendFieldToResp]
    dsimp only
    rw [Traced.value_ite, ih]
    rfl

theorem value_finishRead (result : Except UInt8 (List UInt8 × UInt8)) :
    (finishRead f result).value = (f, AppProtocol.finishRead result) := by
  cases result <;> rfl

theorem value_checkFields (fetches : List (Traced Access UInt8)) :
    (checkFields f fetches).value =
      (fetches.map Traced.value).find? fun fieldId => (appFieldGet f fieldId valBufSize).length = 0 := by
  induction fetches with
  | nil => rfl
  | cons fetch fetches ih =>
    rw [checkFields, List.map_cons, List.find?_cons, Traced.value_bind, Traced.value_ite, ih]
    split
    · rename_i hZero
      rw [decide_eq_true hZero]
      rfl
    · rename_i hZero
      rw [decide_eq_false hZero]

theorem value_readListedFields (fetches : List (Traced Access UInt8)) :
    (readListedFields f fetches respMax).value =
      (f, AppProtocol.readListedFields f (fetches.map Traced.value) respMax) := by
  rw [readListedFields, AppProtocol.readListedFields, Traced.value_bind, value_checkFields]
  cases (fetches.map Traced.value).find? fun fieldId => (appFieldGet f fieldId valBufSize).length = 0 with
  | some _ => rfl
  | none =>
    dsimp only
    rw [Traced.value_bind, value_finishRead, value_appendFields]

theorem map_byteAt_range' (bytes : List UInt8) {i n : Nat} (h : i + n ≤ bytes.length) :
    (List.range' i n).map (byteAt bytes) = (bytes.drop i).take n := by
  induction n generalizing i with
  | zero => rfl
  | succ n ih =>
    have hHead : i < bytes.length := by omega
    rw [List.range'_succ, List.map_cons, ih (by omega), drop_eq_cons hHead, List.take_succ_cons]

theorem value_handleCmdRead (req : List UInt8) :
    (handleCmdRead f req respMax).value = AppProtocol.handleCmdRead f req respMax := by
  unfold handleCmdRead AppProtocol.handleCmdRead
  split
  · exact value_answer3 f respMax cmdRead _ 0x00
  · rename_i hLength
    rw [Traced.value_bind, Traced.value_bind, value_getU32Be, value_readReq]
    dsimp only
    rw [Traced.value_ite]
    split
    · rfl
    · rw [Traced.value_bind, Traced.value_ite]
      split
      · rw [readAllFields, Traced.value_bind, value_finishRead, value_appendFields, List.map_map]
        rfl
      · rw [Traced.value_ite]
        split
        · rfl
        · rename_i hIds
          rw [gt_iff_lt, UInt8.lt_iff_toNat_lt, UInt8.toNat_ofNat'] at hIds
          have hFetched : ((List.range' 6 (byteAt req 5).toNat).map (readReq req)).map Traced.value =
              (req.drop 6).take (byteAt req 5).toNat := by
            rw [List.map_map]
            exact map_byteAt_range' req (by omega)
          rw [value_readListedFields, hFetched]

end Read

section Auth

variable (env : Env) (a : Auth) (data : List UInt8) (channel : Channel)

theorem value_authToken : (authToken env a data channel).value = AppAuth.authToken env a data channel := by
  unfold authToken AppAuth.authToken
  split
  · rfl
  · split
    · rfl
    · rw [Traced.value_bind, Traced.value_ite]
      rfl

theorem value_authChangePwd : (authChangePwd env a data channel).value = AppAuth.authChangePwd env a data channel := by
  unfold authChangePwd AppAuth.authChangePwd
  dsimp only
  split
  · rfl
  · split <;> rfl

theorem value_appAuthHandleCmd :
    (appAuthHandleCmd env a data channel).value = AppAuth.appAuthHandleCmd env a data channel := by
  unfold appAuthHandleCmd AppAuth.appAuthHandleCmd
  by_cases hLength : data.length < 2
  · rw [if_pos hLength, if_pos (.inl hLength)]
    rfl
  · rw [if_neg hLength, Traced.value_bind, Traced.value_ite, value_readReq]
    by_cases hCmd : byteAt data 0 = cmdAuth
    · rw [if_neg (not_not.mpr hCmd), if_neg (not_or.mpr ⟨hLength, not_not.mpr hCmd⟩), Traced.value_bind, value_readReq]
      generalize byteAt data 1 = subcmd
      split
      · rfl
      · exact value_authToken env a data channel
      · exact value_authChangePwd env a data channel
      · rfl
      · try split
        all_goals first | contradiction | rfl
    · rw [if_pos hCmd, if_pos (.inr hCmd)]
      rfl

end Auth

section Entry

variable (env : Env) (channel : Channel) (req : Payload) (respMax : Nat)

theorem value_actionPowerOff (uptime : Nat) (s : AppState) :
    (actionPowerOff uptime s channel respMax).value = AppProtocol.actionPowerOff uptime s channel respMax := by
  unfold actionPowerOff AppProtocol.actionPowerOff
  dsimp only
  split <;> exact value_answer4 _ respMax _ 0x02 _

theorem value_actionFactoryReset (uptime : Nat) (s : AppState) (req : List UInt8) :
    (actionFactoryReset uptime s channel req respMax).value =
      AppProtocol.actionFactoryReset uptime s channel req respMax := by
  unfold actionFactoryReset AppProtocol.actionFactoryReset
  dsimp only
  rw [Traced.value_ite, value_answer4]
  split
  · rfl
  · by_cases hShort : req.length < 9
    · rw [if_pos hShort, if_pos (.inl hShort), value_answer4]
    · rw [if_neg hShort, Traced.value_bind, Traced.value_ite, value_readReqRange, value_answer4, value_answer4]
      by_cases hWord : (req.drop 2).take 7 = factoryWord
      · rw [if_neg (not_not.mpr hWord), if_neg (not_or.mpr ⟨hShort, not_not.mpr hWord⟩)]
      · rw [if_pos hWord, if_pos (.inr hWord)]

theorem value_handleCmdAction (uptime : Nat) (s : AppState) (req : List UInt8) :
    (handleCmdAction uptime s channel req respMax).value =
      AppProtocol.handleCmdAction uptime s channel req respMax := by
  unfold handleCmdAction AppProtocol.handleCmdAction
  split
  · exact value_answer4 s respMax _ 0x00 0x00
  · rw [Traced.value_bind, value_readReq]
    generalize byteAt req 1 = subcmd
    split
    · exact value_answer4 _ respMax _ 0x01 _
    · exact value_actionPowerOff channel respMax uptime s
    · exact value_actionFactoryReset channel respMax uptime s req
    · refine (value_answer3 s respMax cmdAction _ _).trans ?_
      try split
      all_goals first | contradiction | rfl

theorem value_processAppPayload (s : AppState) :
    (processAppPayload env s channel req.bytes respMax).value =
      AppProtocol.processAppPayload env s channel req respMax := by
  unfold processAppPayload AppProtocol.processAppPayload
  split
  · rfl
  · rw [Traced.value_bind, value_readReq]
    generalize byteAt req.bytes 0 = cmd
    split
    · rw [Traced.value_bind, value_handleCmdRead]
      rfl
    · exact value_handleCmdWrite env.uptime s channel req respMax
    · rw [Traced.value_bind, value_appAuthHandleCmd]
      rfl
    · exact value_handleCmdAction channel respMax env.uptime s req.bytes
    · rw [Traced.value_ite]
      split
      all_goals
        try split
        all_goals first | contradiction | rfl

theorem value_otaChecked (d : Device) (cmd : UInt8) {body : OtaState → Traced Access (OtaState × List UInt8)}
    {body' : OtaState → OtaState × List UInt8} (h : ∀ ota, (body ota).value = body' ota) :
    (otaChecked env d cmd body).value = AppConfig.otaChecked env d cmd body' := by
  unfold otaChecked AppConfig.otaChecked
  dsimp only
  rw [Traced.value_ite, Traced.value_bind, h]
  rfl

theorem value_otaStart (ota : OtaState) (data : List UInt8) :
    (otaStart ota data).value = AppConfig.otaStart ota data := by
  rw [otaStart, AppConfig.otaStart, Traced.value_bind, Traced.value_ite, value_getU32Be]
  rfl

theorem value_otaData (ota : OtaState) (data : List UInt8) : (otaData ota data).value = AppConfig.otaData ota data := by
  unfold otaData AppConfig.otaData
  split
  · rfl
  · split
    · rw [Traced.value_bind, value_getU16Be]
      dsimp only
      split <;> rfl
    · rfl

theorem value_appConfigHandleBle (d : Device) :
    (appConfigHandleBle env d req.bytes).value = AppConfig.appConfigHandleBle env d req := by
  unfold appConfigHandleBle AppConfig.appConfigHandleBle
  split
  · rfl
  · rw [Traced.value_bind, value_readReq, Traced.value_bind]
    generalize byteAt req.bytes 0 = cmd
    split
    · exact value_otaChecked env d cmdOtaStart (value_otaStart · req.bytes)
    · exact value_otaChecked env d cmdOtaData (value_otaData · req.bytes)
    · exact value_otaChecked env d cmdOtaEnd (fun _ => rfl)
    · rw [Traced.value_bind, value_processAppPayload]
      obtain ⟨s, internalBuf⟩ := AppProtocol.processAppPayload env d.toAppState .ble req appProtoRespMax
      dsimp only
      try split
      all_goals first | contradiction | rfl

end Entry

end IotRange.Accesses
