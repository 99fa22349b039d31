import IotRange.OtaTransfer

/-! # Requests delivered again

A client that has missed a reply sends its request once more. Only NONCE and OTA_DATA do something
new then; any other request finds its work done, or at most clears an NFC window that has passed.
-/
namespace IotRange.Retransmission
open AppAuth AppFields AppTlv AppProtocol AppConfig Device OtaTransfer
set_option autoImplicit false

/-- What the access check alone does. -/
def checked (uptime : Nat) (channel : Channel) (d : Device) : Device :=
  { d with auth := (appAuthCheckWrite uptime d.auth channel).2 }

def handle (channel : Channel) (req : Payload) (env : Env) (d : Device) : Device := (handleRequest env d channel req).1

/-- The second time changes nothing, or what the access check changes. -/
def Settles (channel : Channel) (h : Env → Device → Device) : Prop :=
  ∀ env env' d, h env' (h env d) = h env d ∨ h env' (h env d) = checked env'.uptime channel (h env d)

/-! ## Requests behind the access check -/

section Gated

variable {channel : Channel} {h : Env → Device → Device} {u : Device → Device}

/-- A request that updates the device where its channel is writable, and is refused elsewhere. -/
structure Gated (channel : Channel) (h : Env → Device → Device) (u : Device → Device) : Prop where
  accepted : ∀ env d, Writable d.auth channel env.uptime → h env d = u d
  refused : ∀ env d, ¬ Writable d.auth channel env.uptime → h env d = checked env.uptime channel d
  again : ∀ d, u (u d) = u d

/-- A channel that has been found closed stays so, whatever the clock says. -/
theorem not_writable_checked {uptime : Nat} {a : Auth} (h : ¬ Writable a channel uptime) (uptime' : Nat) :
    ¬ Writable (appAuthCheckWrite uptime a channel).2 channel uptime' := by
  cases channel with
  | ble =>
    cases hUnlocked : a.bleUnlocked with
    | false => simp [Writable, appAuthCheckWrite, hUnlocked]
    | true => exact absurd (by simp [Writable, appAuthCheckWrite, hUnlocked]) h
  | nfc =>
    by_cases hWindow : 0 < a.nfcAuthUntilMs
    · by_cases hNow : uptime ≤ a.nfcAuthUntilMs
      · exact absurd (by simp [Writable, appAuthCheckWrite, hWindow, hNow]) h
      · simp [Writable, appAuthCheckWrite, hWindow, hNow]
    · simp [Writable, appAuthCheckWrite, hWindow]

theorem Gated.settles (hGated : Gated channel h u) : Settles channel h := by
  intro env env' d
  by_cases hLater : Writable (h env d).auth channel env'.uptime
  · by_cases hNow : Writable d.auth channel env.uptime
    · left
      rw [hGated.accepted env' _ hLater, hGated.accepted env d hNow, hGated.again]
    · rw [hGated.refused env d hNow] at hLater
      exact absurd hLater (not_writable_checked hNow env'.uptime)
  · exact .inr (hGated.refused env' _ hLater)

theorem settles_of_fixed (hFixed : ∀ env env' d, h env' (h env d) = h env d) : Settles channel h :=
  fun env env' d => .inl (hFixed env env' d)

end Gated

/-! ## Writing the same values again -/

section Writes

theorem appFieldSet_cases (fieldId : UInt8) :
    fieldId = fieldMode ∨ fieldId = fieldUpdateInterval ∨ fieldId = fieldInstallLocation ∨
      ∀ f value, appFieldSet f fieldId value = f := by
  by_cases hMode : fieldId = fieldMode
  · exact .inl hMode
  by_cases hInterval : fieldId = fieldUpdateInterval
  · exact .inr (.inl hInterval)
  by_cases hLocation : fieldId = fieldInstallLocation
  · exact .inr (.inr (.inl hLocation))
  refine .inr (.inr (.inr fun f value => ?_))
  unfold appFieldSet
  split
  · exact absurd rfl hMode
  · exact absurd rfl hInterval
  · exact absurd rfl hLocation
  · rfl

theorem appFieldSet_override (f : Store) (fieldId : UInt8) (value value' : List UInt8) :
    appFieldSet (appFieldSet f fieldId value) fieldId value' = appFieldSet f fieldId value' := by
  obtain rfl | rfl | rfl | hOther := appFieldSet_cases fieldId
  · rfl
  · rfl
  · rfl
  · rw [hOther f value]

theorem appFieldSet_comm (f : Store) {fieldId fieldId' : UInt8} (h : fieldId ≠ fieldId') (value value' : List UInt8) :
    appFieldSet (appFieldSet f fieldId value) fieldId' value' =
      appFieldSet (appFieldSet f fieldId' value') fieldId value := by
  obtain hFirst | hFirst | hFirst | hOther := appFieldSet_cases fieldId
  case inr.inr.inr => rw [hOther, hOther]
  all_goals
    subst hFirst
    obtain hSecond | hSecond | hSecond | hOther := appFieldSet_cases fieldId'
    case inr.inr.inr => rw [hOther, hOther]
    all_goals
      subst hSecond
      first | exact absurd rfl h | rfl

/-- A store in which a TLV's field may differ: the TLV makes up for it, before other TLVs or after. -/
theorem appFieldSet_applyCache (t : Tlv) (cache : List Tlv) {f f' : Store}
    (h : appFieldSet f t.fieldId t.value = appFieldSet f' t.fieldId t.value) :
    appFieldSet (applyCache f cache) t.fieldId t.value = appFieldSet (applyCache f' cache) t.fieldId t.value := by
  induction cache generalizing f f' with
  | nil => exact h
  | cons u cache ih =>
    refine ih ?_
    dsimp only
    by_cases hSame : u.fieldId = t.fieldId
    · rw [hSame, appFieldSet_override, appFieldSet_override, h]
    · rw [appFieldSet_comm f hSame, appFieldSet_comm f' hSame, h]

theorem applyCache_again (f : Store) (cache : List Tlv) :
    applyCache (applyCache f cache) cache = applyCache f cache := by
  induction cache using List.reverseRecOn with
  | nil => rfl
  | append_singleton cache t ih =>
    have hConcat (f : Store) : applyCache f (cache ++ [t]) = appFieldSet (applyCache f cache) t.fieldId t.value :=
      List.foldl_append
    rw [hConcat, hConcat,
      appFieldSet_applyCache t cache (appFieldSet_override (applyCache f cache) t.fieldId t.value t.value), ih]

/-- The fields of a write do not see the factory flag. -/
theorem applyCache_appFieldMarkFactoryInitDone (f : Store) (cache : List Tlv) :
    applyCache (appFieldMarkFactoryInitDone f) cache = appFieldMarkFactoryInitDone (applyCache f cache) := by
  induction cache generalizing f with
  | nil => rfl
  | cons t cache ih =>
    have hSet : appFieldSet (appFieldMarkFactoryInitDone f) t.fieldId t.value =
        appFieldMarkFactoryInitDone (appFieldSet f t.fieldId t.value) := by
      unfold appFieldMarkFactoryInitDone
      rw [deviceState_appFieldSet]
      obtain hId | hId | hId | hOther := appFieldSet_cases t.fieldId
      case inr.inr.inr => rw [hOther, hOther]
      all_goals
        rw [hId]
        dsimp only
        split <;> rfl
    exact (congrArg (applyCache · cache) hSet).trans (ih _)

theorem applyWrite_again (f : Store) (cache : List Tlv) :
    applyWrite (applyWrite f cache) cache = applyWrite f cache := by
  rw [applyWrite, if_neg (by rw [writeExempt_applyWrite]; exact Bool.false_ne_true), applyWrite]
  split
  · rw [applyCache_appFieldMarkFactoryInitDone, applyCache_again]
  · exact applyCache_again f cache

end Writes

/-! ## Request by request -/

section Requests

variable {channel : Channel} {req : Payload}

theorem handle_of_not_isOta (h : ¬ IsOta req.bytes) (env : Env) (d : Device) :
    handle channel req env d =
      { d with toAppState := (processAppPayload env d.toAppState channel req appProtoRespMax).1 } := by
  cases channel with
  | nfc => rfl
  | ble =>
    obtain ⟨hOta, -⟩ | ⟨-, hEq⟩ := appConfigHandleBle_cases env d req
    · exact absurd hOta h
    · exact congrArg Prod.fst hEq

theorem settles_read (h : HasCmd cmdRead req.bytes) : Settles channel (handle channel req) := by
  have hNotOta := not_isOta_of_hasCmd h (by decide) (by decide) (by decide)
  refine settles_of_fixed fun env env' d => ?_
  rw [handle_of_not_isOta hNotOta, handle_of_not_isOta hNotOta, processAppPayload_of_read h,
    processAppPayload_of_read h, fields_handleCmdRead, fields_handleCmdRead]
  obtain hEq | ⟨ts, hEq⟩ := readEffect_cases req
  all_goals
    rw [hEq]
    rfl

theorem handle_write_cases (h : HasCmd cmdWrite req.bytes) (env : Env) (d : Device) :
    (∃ e, parseWrite req = .error e ∧ handle channel req env d = d) ∨
      ∃ cache, parseWrite req = .ok cache ∧ handle channel req env d =
        if writeExempt d.fields = true ∨ Writable d.auth channel env.uptime then
          { d with fields := applyWrite d.fields cache }
        else checked env.uptime channel d := by
  rw [handle_of_not_isOta (not_isOta_of_write h), processAppPayload_of_write h]
  obtain ⟨status, third, -, hError, hEq⟩ | ⟨cache, hOk, hExempt, hClosed, hEq⟩ | ⟨cache, hOk, hAllowed, hEq⟩ :=
    handleCmdWrite_cases env.uptime d.toAppState channel req appProtoRespMax
  · exact .inl ⟨(status, third), hError, by rw [hEq]⟩
  · refine .inr ⟨cache, hOk, ?_⟩
    rw [hEq, if_neg (not_or.mpr ⟨by rw [hExempt]; exact Bool.false_ne_true, hClosed⟩)]
    rfl
  · exact .inr ⟨cache, hOk, by rw [hEq, if_pos hAllowed]⟩

theorem handle_of_parseWrite (h : HasCmd cmdWrite req.bytes) {cache : List Tlv} (hParse : parseWrite req = .ok cache)
    (env : Env) (d : Device) :
    handle channel req env d =
      if writeExempt d.fields = true ∨ Writable d.auth channel env.uptime then
        { d with fields := applyWrite d.fields cache }
      else checked env.uptime channel d := by
  obtain ⟨e, hError, -⟩ | ⟨cache', hOk, hEq⟩ := @handle_write_cases channel req h env d
  · cases hParse.symm.trans hError
  · obtain rfl := Except.ok.inj (hParse.symm.trans hOk)
    exact hEq

theorem settles_write (h : HasCmd cmdWrite req.bytes) : Settles channel (handle channel req) := by
  cases hParse : parseWrite req with
  | error e =>
    have hSame (env : Env) (d : Device) : handle channel req env d = d := by
      obtain ⟨_, -, hSame⟩ | ⟨cache, hOk, -⟩ := @handle_write_cases channel req h env d
      · exact hSame
      · cases hParse.symm.trans hOk
    refine settles_of_fixed fun env env' d => ?_
    rw [hSame, hSame]
  | ok cache =>
    intro env env' d
    by_cases hAllowed : writeExempt d.fields = true ∨ Writable d.auth channel env.uptime
    · rw [handle_of_parseWrite h hParse env d, if_pos hAllowed, handle_of_parseWrite h hParse]
      split
      · left
        dsimp only
        rw [applyWrite_again]
      · exact .inr rfl
    · rw [handle_of_parseWrite h hParse env d, if_neg hAllowed, handle_of_parseWrite h hParse, if_neg]
      · exact .inr rfl
      · rw [not_or] at hAllowed ⊢
        exact ⟨hAllowed.1, not_writable_checked hAllowed.2 env'.uptime⟩

/-! ### CMD 0x03 -/

section Auth

variable {a : Auth} {data : List UInt8}

theorem authToken_again (env env' : Env) :
    (authToken env' (authToken env a data channel).1 data channel).1 = (authToken env a data channel).1 := by
  have hSpent (a : Auth) (h : channelNonceValid a channel = false) : (authToken env' a data channel).1 = a := by
    unfold authToken
    split
    · rfl
    · rw [h]
      rfl
  by_cases hLength : data.length < 34
  · have hSame (env : Env) (a : Auth) : (authToken env a data channel).1 = a := by
      rw [authToken, if_pos hLength]
    rw [hSame, hSame]
  · cases hValid : channelNonceValid a channel with
    | false =>
      refine hSpent _ ?_
      rw [authToken, if_neg hLength, hValid]
      exact hValid
    | true =>
      refine hSpent _ ?_
      rw [authToken, if_neg hLength, hValid]
      simp only [Bool.not_true, Bool.false_eq_true, if_false]
      split <;> cases channel <;> rfl

theorem channelLock_again (a : Auth) : channelLock (channelLock a channel) channel = channelLock a channel := by
  cases channel <;> rfl

/-- What an accepted CHANGE_PWD does. -/
def changed (data : List UInt8) (a : Auth) : Auth :=
  if h : data.length < 34 then a else { a with passwordHash := ⟨credential data, length_credential h⟩ }

theorem changed_again (a : Auth) : changed data (changed data a) = changed data a := by
  unfold changed
  split <;> rfl

theorem authChangePwd_eq (env : Env) (a : Auth) :
    (authChangePwd env a data channel).1 =
      if Writable a channel env.uptime then changed data a else (appAuthCheckWrite env.uptime a channel).2 := by
  by_cases hWritable : Writable a channel env.uptime
  · rw [if_pos hWritable, authChangePwd, appAuthCheckWrite_of_writable _ _ hWritable, changed]
    dsimp only
    rw [if_neg (not_not.mpr rfl)]
    split <;> rfl
  · have hStatus : (appAuthCheckWrite env.uptime a channel).1 ≠ .ok := hWritable
    rw [if_neg hWritable, authChangePwd]
    dsimp only
    rw [if_pos hStatus]

end Auth

section AuthRequests

variable (h : HasCmd cmdAuth req.bytes)

include h

theorem handle_auth (env : Env) (d : Device) : handle channel req env d =
    { d with auth := (appAuthHandleCmd env d.auth req.bytes channel).1 } := by
  rw [handle_of_not_isOta (not_isOta_of_hasCmd h (by decide) (by decide) (by decide)), processAppPayload_of_auth h]

theorem settles_auth_of_fixed {u : Auth → Auth} (hEq : ∀ env a, (appAuthHandleCmd env a req.bytes channel).1 = u a)
    (hAgain : ∀ a, u (u a) = u a) : Settles channel (handle channel req) := by
  refine settles_of_fixed fun env env' d => ?_
  rw [handle_auth h, handle_auth h, hEq, hEq, hAgain]

theorem settles_token (hToken : IsAuth authSubcmdToken req.bytes) : Settles channel (handle channel req) := by
  refine settles_of_fixed fun env env' d => ?_
  rw [handle_auth h, handle_auth h, appAuthHandleCmd_of_token _ hToken, appAuthHandleCmd_of_token _ hToken,
    authToken_again]

theorem settles_changePwd (hChange : IsAuth authSubcmdChangePwd req.bytes) : Settles channel (handle channel req) := by
  obtain ⟨hGo, hSub⟩ := isAuth_iff.mp hChange
  have hHandled (env : Env) (a : Auth) :
      appAuthHandleCmd env a req.bytes channel = authChangePwd env a req.bytes channel := by
    rw [appAuthHandleCmd, if_neg hGo, hSub]
    rfl
  refine Gated.settles (u := fun d => { d with auth := changed req.bytes d.auth }) ⟨?_, ?_, ?_⟩
  · intro env d hWritable
    rw [handle_auth h, hHandled, authChangePwd_eq, if_pos hWritable]
  · intro env d hClosed
    rw [handle_auth h, hHandled, authChangePwd_eq, if_neg hClosed]
    rfl
  · intro d
    dsimp only
    rw [changed_again]

theorem settles_lock (hLock : IsAuth authSubcmdLock req.bytes) : Settles channel (handle channel req) := by
  obtain ⟨hGo, hSub⟩ := isAuth_iff.mp hLock
  refine settles_auth_of_fixed h (u := fun a => channelLock a channel) (fun env a => ?_) fun a => channelLock_again a
  rw [appAuthHandleCmd, if_neg hGo, hSub]
  rfl

theorem settles_auth (hNonce : ¬ IsAuth authSubcmdNonce req.bytes) : Settles channel (handle channel req) := by
  by_cases hToken : IsAuth authSubcmdToken req.bytes
  · exact settles_token h hToken
  by_cases hChange : IsAuth authSubcmdChangePwd req.bytes
  · exact settles_changePwd h hChange
  by_cases hLock : IsAuth authSubcmdLock req.bytes
  · exact settles_lock h hLock
  -- What is left is too short or has an unknown subcommand.
  refine settles_auth_of_fixed h (u := id) (fun env a => ?_) fun _ => rfl
  unfold appAuthHandleCmd
  split
  · rfl
  · rename_i hGo
    split
    · exact absurd (isAuth_iff.mpr ⟨hGo, ‹_›⟩) hNonce
    · exact absurd (isAuth_iff.mpr ⟨hGo, ‹_›⟩) hToken
    · exact absurd (isAuth_iff.mpr ⟨hGo, ‹_›⟩) hChange
    · exact absurd (isAuth_iff.mpr ⟨hGo, ‹_›⟩) hLock
    · rfl

end AuthRequests

section ActionRequests

variable (h : HasCmd cmdAction req.bytes)

include h

theorem handle_action (env : Env) (d : Device) : handle channel req env d =
    { d with toAppState := (handleCmdAction env.uptime d.toAppState channel req.bytes appProtoRespMax).1 } := by
  rw [handle_of_not_isOta (not_isOta_of_hasCmd h (by decide) (by decide) (by decide)), processAppPayload_of_action h]

theorem settles_action_of_fixed {u : AppState → AppState}
    (hEq : ∀ uptime s, (handleCmdAction uptime s channel req.bytes appProtoRespMax).1 = u s)
    (hAgain : ∀ s, u (u s) = u s) : Settles channel (handle channel req) := by
  refine settles_of_fixed fun env env' d => ?_
  rw [handle_action h, handle_action h, hEq, hEq, hAgain]

variable (hLength : ¬ req.bytes.length < 2)

include hLength

theorem settles_powerOff (hOff : byteAt req.bytes 1 = 0x02) : Settles channel (handle channel req) := by
  have hHandled (env : Env) (s : AppState) : handleCmdAction env.uptime s channel req.bytes appProtoRespMax =
      actionPowerOff env.uptime s channel appProtoRespMax := by
    rw [handleCmdAction, if_neg hLength, hOff]
    rfl
  refine Gated.settles (u := fun d => { d with fields := appFieldSetDeviceState d.fields .powerOff })
    ⟨?_, ?_, fun _ => rfl⟩
  · intro env d hWritable
    rw [handle_action h, hHandled, actionPowerOff_eq, if_pos hWritable]
  · intro env d hClosed
    rw [handle_action h, hHandled, actionPowerOff_eq, if_neg hClosed]
    rfl

theorem settles_factoryReset (hReset : byteAt req.bytes 1 = 0x03) : Settles channel (handle channel req) := by
  have hHandled (env : Env) (s : AppState) : handleCmdAction env.uptime s channel req.bytes appProtoRespMax =
      actionFactoryReset env.uptime s channel req.bytes appProtoRespMax := by
    rw [handleCmdAction, if_neg hLength, hReset]
    rfl
  let u : Device → Device := fun d =>
    if Confirmed req.bytes then { d with fields := appFieldsInit d.fields, auth := appAuthResetPassword d.auth } else d
  refine Gated.settles (u := u) ⟨?_, ?_, ?_⟩
  · intro env d hWritable
    rw [handle_action h, hHandled, actionFactoryReset_eq, if_neg (not_not.mpr hWritable)]
    dsimp only [u]
    split <;> rfl
  · intro env d hClosed
    rw [handle_action h, hHandled, actionFactoryReset_eq, if_pos hClosed]
    rfl
  · intro d
    dsimp only [u]
    split <;> rfl

end ActionRequests

theorem settles_action (h : HasCmd cmdAction req.bytes) : Settles channel (handle channel req) := by
  by_cases hLength : req.bytes.length < 2
  · exact settles_action_of_fixed h (u := id)
      (fun uptime s => by rw [handleCmdAction, if_pos hLength]; rfl) fun _ => rfl
  by_cases hOn : byteAt req.bytes 1 = 0x01
  · refine settles_action_of_fixed h (u := fun s => { s with fields := appFieldSetDeviceState s.fields .powerOn })
      (fun uptime s => ?_) fun _ => rfl
    rw [handleCmdAction, if_neg hLength, hOn]
    rfl
  by_cases hOff : byteAt req.bytes 1 = 0x02
  · exact settles_powerOff h hLength hOff
  by_cases hReset : byteAt req.bytes 1 = 0x03
  · exact settles_factoryReset h hLength hReset
  refine settles_action_of_fixed h (u := id) (fun uptime s => ?_) fun _ => rfl
  rw [handleCmdAction, if_neg hLength]
  split
  · exact absurd ‹_› hOn
  · exact absurd ‹_› hOff
  · exact absurd ‹_› hReset
  · rfl

theorem checked_ble (uptime : Nat) (d : Device) : checked uptime .ble d = d := by
  obtain hSame | ⟨hNfc, -⟩ := appAuthCheckWrite_eq_or d.auth .ble uptime
  · rw [checked, hSame]
  · cases hNfc

theorem settles_otaChecked {cmd : UInt8} {body : OtaState → OtaState × List UInt8}
    (hHandle : ∀ env d, handle .ble req env d = (otaChecked env d cmd body).1)
    (hAgain : ∀ ota, (body (body ota).1).1 = (body ota).1) : Settles .ble (handle .ble req) := by
  refine Gated.settles (u := fun d => { d with ota := (body d.ota).1 }) ⟨?_, ?_, ?_⟩
  · intro env d hWritable
    rw [hHandle, otaChecked_of_writable hWritable]
  · intro env d hClosed
    rw [hHandle, otaChecked_of_not_writable hClosed, checked_ble]
  · intro d
    dsimp only
    rw [hAgain]

/-- Any request but NONCE and, on BLE, OTA_DATA. -/
theorem settles (hNonce : ¬ IsAuth authSubcmdNonce req.bytes)
    (hData : ¬ (channel = .ble ∧ HasCmd cmdOtaData req.bytes)) :
    Settles channel (handle channel req) := by
  by_cases hRead : HasCmd cmdRead req.bytes
  · exact settles_read hRead
  by_cases hWrite : HasCmd cmdWrite req.bytes
  · exact settles_write hWrite
  by_cases hAuth : HasCmd cmdAuth req.bytes
  · exact settles_auth hAuth hNonce
  by_cases hAction : HasCmd cmdAction req.bytes
  · exact settles_action hAction
  by_cases hOta : channel = .ble ∧ IsOta req.bytes
  · obtain ⟨rfl, hStart | hPacket | hEnd⟩ := hOta
    · exact settles_otaChecked (fun env d => congrArg Prod.fst (appConfigHandleBle_of_start env d hStart)) fun _ => rfl
    · exact absurd ⟨rfl, hPacket⟩ hData
    · exact settles_otaChecked (fun env d => congrArg Prod.fst (appConfigHandleBle_of_end env d hEnd)) fun _ => rfl
  have hSame (env : Env) (d : Device) : handle channel req env d = d := by
    have hProcess : (processAppPayload env d.toAppState channel req appProtoRespMax).1 = d.toAppState := by
      unfold processAppPayload
      split
      · rfl
      · rename_i hLength
        split
        · exact absurd (take_one_eq_iff.mpr ⟨hLength, ‹_›⟩) hRead
        · exact absurd (take_one_eq_iff.mpr ⟨hLength, ‹_›⟩) hWrite
        · exact absurd (take_one_eq_iff.mpr ⟨hLength, ‹_›⟩) hAuth
        · exact absurd (take_one_eq_iff.mpr ⟨hLength, ‹_›⟩) hAction
        · rfl
    cases channel with
    | nfc =>
      change { d with toAppState := (processAppPayload env d.toAppState .nfc req appProtoRespMax).1 } = d
      rw [hProcess]
    | ble =>
      rw [handle_of_not_isOta (fun h => hOta ⟨rfl, h⟩), hProcess]
  refine settles_of_fixed fun env env' d => ?_
  rw [hSame, hSame]

end Requests

/-! ## Any number of times -/

section Runs

variable {channel : Channel} {req : Payload}

/-- The request, delivered under some clock and random bytes. -/
def deliver (channel : Channel) (req : Payload) (env : Env) : Event := ⟨env.uptime, .request channel env.rand req⟩

theorem next_deliver (d : Device) (env : Env) : machine.next d (deliver channel req env) = handle channel req env d :=
  rfl

def clearWindow (d : Device) : Device := { d with auth := { d.auth with nfcAuthUntilMs := 0 } }

/-- The NFC window of `d` has passed at one of the deliveries, which has cleared it. -/
structure Lapsed (channel : Channel) (envs : List Env) (d d' : Device) : Prop where
  nfc : channel = .nfc
  armed : 0 < d.auth.nfcAuthUntilMs
  late : ∃ env ∈ envs, d.auth.nfcAuthUntilMs < env.uptime
  cleared : d' = clearWindow d

theorem checked_eq_or (channel : Channel) (env : Env) (d : Device) :
    checked env.uptime channel d = d ∨ Lapsed channel [env] d (checked env.uptime channel d) := by
  obtain hSame | ⟨rfl, hArmed, hLate, hEq⟩ := appAuthCheckWrite_eq_or d.auth channel env.uptime
  · left
    rw [checked, hSame]
  · refine .inr ⟨rfl, hArmed, ⟨env, List.mem_singleton_self env, hLate⟩, ?_⟩
    rw [checked, hEq]
    rfl

theorem Lapsed.append {envs : List Env} {d d' : Device} (h : Lapsed channel envs d d') (last : Env) :
    Lapsed channel (envs ++ [last]) d d' := by
  obtain ⟨env, hMem, hLate⟩ := h.late
  exact ⟨h.nfc, h.armed, ⟨env, List.mem_append_left _ hMem, hLate⟩, h.cleared⟩

theorem run_deliver_append (channel : Channel) (req : Payload) (d : Device) (envs : List Env) (last : Env) :
    machine.run d ((envs ++ [last]).map (deliver channel req)) =
      handle channel req last (machine.run d (envs.map (deliver channel req))) := by
  rw [List.map_append, Machine.run_append]
  rfl

/-- Delivered again, however often and late, a request changes nothing, or it clears an NFC window
that has passed. -/
theorem redelivered (hNonce : ¬ IsAuth authSubcmdNonce req.bytes)
    (hData : ¬ (channel = .ble ∧ HasCmd cmdOtaData req.bytes)) (d : Device) (env : Env) (envs : List Env) :
    machine.run d ((env :: envs).map (deliver channel req)) = machine.next d (deliver channel req env) ∨
      Lapsed channel envs (machine.next d (deliver channel req env))
        (machine.run d ((env :: envs).map (deliver channel req))) := by
  induction envs using List.reverseRecOn with
  | nil => exact .inl rfl
  | append_singleton envs last ih =>
    have hLast := run_deliver_append channel req d (env :: envs) last
    rw [List.cons_append] at hLast
    -- the state before the last delivery is itself one after a delivery
    have hBefore : ∃ env' d', machine.run d ((env :: envs).map (deliver channel req)) = handle channel req env' d' := by
      rcases List.eq_nil_or_concat envs with rfl | ⟨init, env', rfl⟩
      · exact ⟨env, d, rfl⟩
      · refine ⟨env', machine.run d ((env :: init).map (deliver channel req)), ?_⟩
        rw [List.concat_eq_append, ← List.cons_append, run_deliver_append]
    obtain ⟨env', d', hState⟩ := hBefore
    have hSettled := settles hNonce hData env' last d'
    rw [← hState, ← hLast] at hSettled
    obtain hSame | hChecked := hSettled
    · rw [hSame]
      exact ih.imp_right fun hLapsed => hLapsed.append last
    rw [hChecked]
    obtain hFirst | hLapsed := ih
    · rw [hFirst]
      obtain hEq | hLapsed := checked_eq_or channel last (machine.next d (deliver channel req env))
      · exact .inl hEq
      · obtain ⟨late, hMem, hLate⟩ := hLapsed.late
        exact .inr ⟨hLapsed.nfc, hLapsed.armed, ⟨late, List.mem_append_right _ hMem, hLate⟩, hLapsed.cleared⟩
    · obtain hEq | hAgain := checked_eq_or channel last (machine.run d ((env :: envs).map (deliver channel req)))
      · rw [hEq]
        exact .inr (hLapsed.append last)
      · have hArmed := hAgain.armed
        rw [hLapsed.cleared] at hArmed
        exact absurd hArmed (lt_irrefl 0)

def lockRequest : Payload := ⟨[cmdAuth, authSubcmdLock], by decide⟩

def quiet (uptime : Nat) : Env := ⟨uptime, List.Vector.replicate 8 0⟩

theorem redelivered_lock :
    machine.run Device.boot ([quiet 1, quiet 2, quiet 3].map (deliver .nfc lockRequest)) =
        machine.next Device.boot (deliver .nfc lockRequest (quiet 1)) ∨
      Lapsed .nfc [quiet 2, quiet 3] (machine.next Device.boot (deliver .nfc lockRequest (quiet 1)))
        (machine.run Device.boot ([quiet 1, quiet 2, quiet 3].map (deliver .nfc lockRequest))) :=
  redelivered (by decide) (by decide) Device.boot (quiet 1) [quiet 2, quiet 3]

/-! ### OTA_DATA -/

/-- The bytes that a packet adds to the count. -/
def counted (data : List UInt8) (ota : OtaState) : UInt32 := (otaData ota data).1.bytesReceived - ota.bytesReceived

def addCounted (n : UInt32) (d : Device) : Device :=
  { d with ota := { d.ota with bytesReceived := d.ota.bytesReceived + n } }

/-- A packet that is not stored moves `next_idx` at most. -/
theorem otaData_of_not_fits (ota : OtaState) (data : List UInt8)
    (h : ¬ (ota.active = true ∧ 4 ≤ data.length ∧ packetOffset data + (data.drop 3).length ≤ otaBufSize)) :
    (otaData ota data).1 = ota ∨ (otaData ota data).1 = { ota with nextIdx := readBe16 (data.drop 1) + 1 } := by
  unfold packetOffset at h
  unfold otaData
  split
  · exact .inl rfl
  · rename_i hActive
    split
    · rename_i hLength
      right
      dsimp only
      rw [dif_neg fun hFits => h ⟨by simpa using hActive, hLength, hFits⟩]
    · exact .inl rfl

theorem otaData_again (ota : OtaState) (data : List UInt8) :
    (otaData (otaData ota data).1 data).1 =
      { (otaData ota data).1 with bytesReceived := (otaData ota data).1.bytesReceived + counted data ota } := by
  by_cases h : ota.active = true ∧ 4 ≤ data.length ∧ packetOffset data + (data.drop 3).length ≤ otaBufSize
  · obtain ⟨hActive, hLength, hFits⟩ := h
    have hBuf : (ota.buf.write (packetOffset data) (data.drop 3) hFits).write (packetOffset data) (data.drop 3) hFits =
        ota.buf.write (packetOffset data) (data.drop 3) hFits :=
      Subtype.ext (writeAt_again (by rwa [ota.buf.toList_length]))
    rw [counted, otaData_of_fits hActive hLength hFits, otaData_of_fits (by exact hActive) hLength hFits]
    dsimp only
    rw [hBuf, UInt32.add_comm ota.bytesReceived, UInt32.add_sub_cancel]
  · obtain hSame | hMoved := otaData_of_not_fits ota data h
    · rw [counted, hSame, hSame, UInt32.sub_self, UInt32.add_zero]
    · rw [counted, hMoved]
      dsimp only
      rw [UInt32.sub_self, UInt32.add_zero]
      obtain hSame | hMoved := otaData_of_not_fits { ota with nextIdx := readBe16 (data.drop 1) + 1 } data h
      · exact hSame
      · exact hMoved

/-- What was counted before does not matter to a packet. -/
theorem otaData_counted (ota : OtaState) (data : List UInt8) (n : UInt32) :
    (otaData { ota with bytesReceived := ota.bytesReceived + n } data).1 =
      { (otaData ota data).1 with bytesReceived := (otaData ota data).1.bytesReceived + n } := by
  unfold otaData
  dsimp only
  split
  · rfl
  · split
    · dsimp only
      split
      · dsimp only
        rw [UInt32.add_assoc, UInt32.add_comm n, ← UInt32.add_assoc]
      · rfl
    · rfl

theorem handle_of_otaData (hData : HasCmd cmdOtaData req.bytes) (env : Env) (d : Device) :
    handle .ble req env d =
      if Writable d.auth .ble env.uptime then { d with ota := (otaData d.ota req.bytes).1 } else d := by
  rw [handle, handleRequest, appConfigHandleBle_of_data env d hData]
  by_cases hWritable : Writable d.auth .ble env.uptime
  · rw [otaChecked_of_writable hWritable, if_pos hWritable]
  · rw [otaChecked_of_not_writable hWritable, if_neg hWritable]

/-- One delivery more: BLE is still unlocked, or still locked, whatever the clock says. -/
theorem handle_otaData_again (hData : HasCmd cmdOtaData req.bytes) (env env' : Env) (d : Device) (n : UInt32) :
    handle .ble req env' (addCounted n (handle .ble req env d)) =
      addCounted (n + ((handle .ble req env d).ota.bytesReceived - d.ota.bytesReceived)) (handle .ble req env d) := by
  by_cases hWritable : Writable d.auth .ble env.uptime
  · have hStill : Writable (addCounted n { d with ota := (otaData d.ota req.bytes).1 }).auth .ble env'.uptime :=
      hWritable
    rw [handle_of_otaData hData, handle_of_otaData hData, if_pos hWritable, if_pos hStill]
    unfold addCounted
    dsimp only
    rw [otaData_counted, otaData_again, counted, UInt32.add_assoc, UInt32.add_comm _ n]
  · have hStill : ¬ Writable (addCounted n d).auth .ble env'.uptime := hWritable
    rw [handle_of_otaData hData, handle_of_otaData hData, if_neg hWritable, if_neg hStill, UInt32.sub_self,
      UInt32.add_zero]

/-- A packet delivered again is stored where it was and counted once more. -/
theorem redelivered_otaData (hData : HasCmd cmdOtaData req.bytes) (d : Device) (env : Env) (envs : List Env) :
    machine.run d ((env :: envs).map (deliver .ble req)) =
      addCounted (UInt32.ofNat envs.length *
          ((machine.next d (deliver .ble req env)).ota.bytesReceived - d.ota.bytesReceived))
        (machine.next d (deliver .ble req env)) := by
  induction envs using List.reverseRecOn with
  | nil =>
    have hNone : UInt32.ofNat ([] : List Env).length = 0 := rfl
    rw [hNone, UInt32.zero_mul, addCounted, UInt32.add_zero]
    rfl
  | append_singleton envs last ih =>
    rw [← List.cons_append, run_deliver_append, ih, next_deliver, handle_otaData_again hData, List.length_append,
      List.length_singleton, UInt32.ofNat_add, UInt32.add_mul, UInt32.ofNat_one, UInt32.one_mul]

def dataRequest : Payload := ⟨[cmdOtaData, 0x00, 0x01, 0xCD], by decide⟩

/-- Unlocked, with a transfer going on. -/
def transferring : Device :=
  { Device.boot with
    auth := { Device.boot.auth with bleUnlocked := true }
    ota := { Device.boot.ota with active := true } }

theorem redelivered_otaData_transferring :
    machine.run transferring ([quiet 1, quiet 2].map (deliver .ble dataRequest)) =
      addCounted (UInt32.ofNat 1 *
          ((machine.next transferring (deliver .ble dataRequest (quiet 1))).ota.bytesReceived -
            transferring.ota.bytesReceived))
        (machine.next transferring (deliver .ble dataRequest (quiet 1))) :=
  redelivered_otaData (by decide) transferring (quiet 1) [quiet 2]

end Runs

end IotRange.Retransmission
