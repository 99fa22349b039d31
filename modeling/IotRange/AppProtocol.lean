import IotRange.AppProtocol.Read
import IotRange.AppProtocol.Write

/-! # Actions and the common entry point (app_protocol.c)

Every request has one effect on the fields, one action on its channel's session and at most one
new password hash; `processAppPayload` is described by these three and by its reply.
-/
namespace IotRange.AppProtocol
open AppAuth AppFields AppTlv
set_option autoImplicit false

def reply4 (respMax : Nat) (status third fourth : UInt8) : List UInt8 :=
  if respMax < 4 then [] else [cmdAction, status, third, fourth]

def factoryWord : List UInt8 := ascii ['F', 'A', 'C', 'T', 'O', 'R', 'Y']

/-- The switch case of power off. -/
def actionPowerOff (uptime : Nat) (s : AppState) (channel : Channel) (respMax : Nat) : AppState × List UInt8 :=
  let (authSt, auth) := appAuthCheckWrite uptime s.auth channel
  let s := { s with auth := auth }
  if authSt ≠ .ok then (s, reply4 respMax authSt.code 0x02 s.fields.deviceState.code)
  else
    let s := { s with fields := appFieldSetDeviceState s.fields .powerOff }
    (s, reply4 respMax Status.ok.code 0x02 s.fields.deviceState.code)

/-- The switch case of factory reset. -/
def actionFactoryReset (uptime : Nat) (s : AppState) (channel : Channel) (req : List UInt8) (respMax : Nat) :
    AppState × List UInt8 :=
  let (authSt, auth) := appAuthCheckWrite uptime s.auth channel
  let s := { s with auth := auth }
  if authSt ≠ .ok then (s, reply4 respMax authSt.code 0x03 s.fields.deviceState.code)
  else if req.length < 9 ∨ (req.drop 2).take 7 ≠ factoryWord then
    (s, reply4 respMax Status.paramValue.code 0x03 s.fields.deviceState.code)
  else
    (⟨appFieldsInit s.fields, appAuthResetPassword s.auth⟩,
      reply4 respMax Status.ok.code 0x03 DeviceState.factory.code)

def handleCmdAction (uptime : Nat) (s : AppState) (channel : Channel) (req : List UInt8) (respMax : Nat) :
    AppState × List UInt8 :=
  if req.length < 2 then (s, reply4 respMax Status.paramLen.code 0x00 0x00)
  else
    match byteAt req 1 with
    | 0x01 =>
      let s := { s with fields := appFieldSetDeviceState s.fields .powerOn }
      (s, reply4 respMax Status.ok.code 0x01 s.fields.deviceState.code)
    | 0x02 => actionPowerOff uptime s channel respMax
    | 0x03 => actionFactoryReset uptime s channel req respMax
    | subcmd => (s, reply3 respMax cmdAction Status.unsupported.code subcmd)

def processAppPayload (env : Env) (s : AppState) (channel : Channel) (req : Payload) (respMax : Nat) :
    AppState × List UInt8 :=
  if req.bytes.length < 1 then (s, [])
  else
    match byteAt req.bytes 0 with
    | cmdRead =>
      let (fields, resp) := handleCmdRead s.fields req.bytes respMax
      ({ s with fields := fields }, resp)
    | cmdWrite => handleCmdWrite env.uptime s channel req respMax
    | cmdAuth =>
      let (auth, resp) := appAuthHandleCmd env s.auth req.bytes channel
      ({ s with auth := auth }, resp)
    | cmdAction => handleCmdAction env.uptime s channel req.bytes respMax
    | cmd => (s, if respMax < 2 then [] else [cmd, Status.unsupported.code])

/-! ## The effect of a request -/

inductive FieldEffect
  | keep
  | stamp (ts : UInt32)
  | write (cache : List Tlv)
  | power (state : DeviceState)
  | reset

def FieldEffect.apply (f : Store) : FieldEffect → Store
  | keep => f
  | stamp ts => appFieldSetUnixtime f ts
  | write cache => applyWrite f cache
  | power state => appFieldSetDeviceState f state
  | reset => appFieldsInit f

section Effects

variable (env : Env) (s : AppState) (channel : Channel) (req : Payload) (respMax : Nat)

def Confirmed (req : List UInt8) : Prop := ¬ (req.length < 9 ∨ (req.drop 2).take 7 ≠ factoryWord)

instance (req : List UInt8) : Decidable (Confirmed req) := inferInstanceAs (Decidable (¬ _))

def writeEffect : FieldEffect :=
  match parseWrite req with
  | .error _ => .keep
  | .ok cache => if writeExempt s.fields = true ∨ Writable s.auth channel env.uptime then .write cache else .keep

def actionEffect : FieldEffect :=
  if req.bytes.length < 2 then .keep
  else
    match byteAt req.bytes 1 with
    | 0x01 => .power .powerOn
    | 0x02 => if Writable s.auth channel env.uptime then .power .powerOff else .keep
    | 0x03 => if Writable s.auth channel env.uptime ∧ Confirmed req.bytes then .reset else .keep
    | _ => .keep

def readEffect : FieldEffect :=
  if req.bytes.length < 6 then .keep else .stamp (readBe32 (req.bytes.drop 1))

def fieldEffect : FieldEffect :=
  if req.bytes.length < 1 then .keep
  else
    match byteAt req.bytes 0 with
    | cmdRead => readEffect req
    | cmdWrite => writeEffect env s channel req
    | cmdAuth => .keep
    | cmdAction => actionEffect env s channel req
    | _ => .keep

theorem fields_handleCmdRead (f : Store) :
    (handleCmdRead f req.bytes respMax).1 = (readEffect req).apply f := by
  unfold handleCmdRead readEffect
  split
  · rfl
  · dsimp only
    split
    · rfl
    · split
      · rfl
      · split <;> rfl

theorem fields_handleCmdWrite :
    (handleCmdWrite env.uptime s channel req respMax).1.fields =
      (writeEffect env s channel req).apply s.fields := by
  unfold writeEffect
  rcases handleCmdWrite_cases env.uptime s channel req respMax with
    ⟨status, third, -, hParse, hEq⟩ | ⟨cache, hParse, hExempt, hWritable, hEq⟩ | ⟨cache, hParse, hAllowed, hEq⟩
  · rw [hEq, hParse]
    rfl
  · rw [hEq, hParse]
    dsimp only
    rw [if_neg (by simp [hExempt, hWritable])]
    rfl
  · rw [hEq, hParse]
    dsimp only
    rw [if_pos hAllowed]
    rfl

theorem actionPowerOff_eq (uptime : Nat) :
    actionPowerOff uptime s channel respMax =
      if Writable s.auth channel uptime then
        ({ s with fields := appFieldSetDeviceState s.fields .powerOff },
          reply4 respMax Status.ok.code 0x02 DeviceState.powerOff.code)
      else
        ({ s with auth := (appAuthCheckWrite uptime s.auth channel).2 },
          reply4 respMax (appAuthCheckWrite uptime s.auth channel).1.code 0x02 s.fields.deviceState.code) := by
  by_cases hWritable : Writable s.auth channel uptime
  · rw [actionPowerOff, appAuthCheckWrite_of_writable _ _ hWritable, if_pos hWritable]
    rfl
  · have hStatus : (appAuthCheckWrite uptime s.auth channel).1 ≠ .ok := hWritable
    rw [actionPowerOff, if_neg hWritable]
    dsimp only
    rw [if_pos hStatus]

theorem actionFactoryReset_eq (uptime : Nat) (req : List UInt8) :
    actionFactoryReset uptime s channel req respMax =
      if ¬ Writable s.auth channel uptime then
        ({ s with auth := (appAuthCheckWrite uptime s.auth channel).2 },
          reply4 respMax (appAuthCheckWrite uptime s.auth channel).1.code 0x03 s.fields.deviceState.code)
      else if Confirmed req then
        (⟨appFieldsInit s.fields, appAuthResetPassword s.auth⟩,
          reply4 respMax Status.ok.code 0x03 DeviceState.factory.code)
      else (s, reply4 respMax Status.paramValue.code 0x03 s.fields.deviceState.code) := by
  by_cases hWritable : Writable s.auth channel uptime
  · rw [actionFactoryReset, appAuthCheckWrite_of_writable _ _ hWritable, if_neg (not_not.mpr hWritable)]
    dsimp only
    rw [if_neg (not_not.mpr rfl)]
    by_cases hConfirmed : Confirmed req
    · rw [if_neg hConfirmed, if_pos hConfirmed]
    · rw [if_pos (not_not.mp hConfirmed), if_neg hConfirmed]
  · have hStatus : (appAuthCheckWrite uptime s.auth channel).1 ≠ .ok := hWritable
    rw [actionFactoryReset, if_pos hWritable]
    dsimp only
    rw [if_pos hStatus]

theorem fields_handleCmdAction :
    (handleCmdAction env.uptime s channel req.bytes respMax).1.fields =
      (actionEffect env s channel req).apply s.fields := by
  unfold handleCmdAction actionEffect
  split
  · rfl
  · split
    · rfl
    · rw [actionPowerOff_eq]
      split <;> rfl
    · rw [actionFactoryReset_eq]
      by_cases hWritable : Writable s.auth channel env.uptime
      · rw [if_neg (not_not.mpr hWritable)]
        by_cases hConfirmed : Confirmed req.bytes
        · rw [if_pos hConfirmed, if_pos ⟨hWritable, hConfirmed⟩]
          rfl
        · rw [if_neg hConfirmed, if_neg fun h => hConfirmed h.2]
          rfl
      · rw [if_pos hWritable, if_neg fun h => hWritable h.1]
        rfl
    · rfl

theorem fields_processAppPayload :
    (processAppPayload env s channel req respMax).1.fields = (fieldEffect env s channel req).apply s.fields := by
  unfold processAppPayload fieldEffect
  split
  · rfl
  · split
    · exact fields_handleCmdRead req respMax s.fields
    · exact fields_handleCmdWrite env s channel req respMax
    · rfl
    · exact fields_handleCmdAction env s channel req respMax
    · rfl

/-! ## The action on the channel's session -/

def writeAction (f : Store) : SessionAction :=
  match parseWrite req with
  | .error _ => .skip
  | .ok _ => if writeExempt f then .skip else .expire (WithTop.some env.uptime)

def actionAction : SessionAction :=
  if req.bytes.length < 2 then .skip
  else
    match byteAt req.bytes 1 with
    | 0x01 => .skip
    | 0x02 => .expire (WithTop.some env.uptime)
    | 0x03 => .expire (WithTop.some env.uptime)
    | _ => .skip

def sessionAction (f : Store) : SessionAction :=
  if req.bytes.length < 1 then .skip
  else
    match byteAt req.bytes 0 with
    | cmdRead => .skip
    | cmdWrite => writeAction env req f
    | cmdAuth => authAction env channel req.bytes
    | cmdAction => actionAction env req
    | _ => .skip

theorem acts_handleCmdWrite :
    Acts s.auth (handleCmdWrite env.uptime s channel req respMax).1.auth channel
      (writeAction env req s.fields) := by
  have hCheck := acts_appAuthCheckWrite s.auth channel env.uptime
  unfold writeAction
  rcases handleCmdWrite_cases env.uptime s channel req respMax with
    ⟨status, third, -, hParse, hEq⟩ | ⟨cache, hParse, hExempt, -, hEq⟩ | ⟨cache, hParse, hAllowed, hEq⟩
  · rw [hEq, hParse]
    exact Acts.skip s.auth channel
  · rw [hEq, hParse, hExempt]
    exact hCheck
  · rw [hEq, hParse]
    cases hExempt : writeExempt s.fields with
    | true => exact Acts.skip s.auth channel
    | false =>
      have hWritable : Writable s.auth channel env.uptime := hAllowed.resolve_left (by simp [hExempt])
      rw [appAuthCheckWrite_of_writable _ _ hWritable] at hCheck
      exact hCheck

theorem acts_actionPowerOff :
    Acts s.auth (actionPowerOff env.uptime s channel respMax).1.auth channel
      (.expire (WithTop.some env.uptime)) := by
  have hCheck := acts_appAuthCheckWrite s.auth channel env.uptime
  unfold actionPowerOff
  dsimp only
  split <;> exact hCheck

theorem acts_actionFactoryReset (req : List UInt8) :
    Acts s.auth (actionFactoryReset env.uptime s channel req respMax).1.auth channel
      (.expire (WithTop.some env.uptime)) := by
  have hCheck := acts_appAuthCheckWrite s.auth channel env.uptime
  unfold actionFactoryReset
  dsimp only
  split
  · exact hCheck
  · split
    · exact hCheck
    · constructor
      · rw [session_appAuthResetPassword]
        exact hCheck.session_eq
      · intro c hc
        rw [session_appAuthResetPassword]
        exact hCheck.frame c hc

theorem acts_handleCmdAction :
    Acts s.auth (handleCmdAction env.uptime s channel req.bytes respMax).1.auth channel (actionAction env req) := by
  unfold handleCmdAction actionAction
  split
  · exact Acts.skip s.auth channel
  · split
    · exact Acts.skip s.auth channel
    · exact acts_actionPowerOff env s channel respMax
    · exact acts_actionFactoryReset env s channel respMax req.bytes
    · exact Acts.skip s.auth channel

theorem acts_processAppPayload :
    Acts s.auth (processAppPayload env s channel req respMax).1.auth channel
      (sessionAction env channel req s.fields) := by
  unfold processAppPayload sessionAction
  split
  · exact Acts.skip s.auth channel
  · split
    · exact Acts.skip s.auth channel
    · exact acts_handleCmdWrite env s channel req respMax
    · exact acts_appAuthHandleCmd env s.auth channel req.bytes
    · exact acts_handleCmdAction env s channel req respMax
    · exact Acts.skip s.auth channel

/-! ## Requests by command -/

end Effects

def HasCmd (cmd : UInt8) (req : List UInt8) : Prop := req.take 1 = [cmd]

def IsAction (subcmd : UInt8) (req : List UInt8) : Prop := req.take 2 = [cmdAction, subcmd]

def AnsweredOk (resp : List UInt8) : Prop := resp[1]? = some Status.ok.code

instance (cmd : UInt8) : DecidablePred (HasCmd cmd) := fun _ => inferInstanceAs (Decidable (_ = _))
instance (subcmd : UInt8) : DecidablePred (IsAction subcmd) := fun _ => inferInstanceAs (Decidable (_ = _))
instance : DecidablePred AnsweredOk := fun _ => inferInstanceAs (Decidable (_ = _))

theorem hasCmd_of_isAction {subcmd : UInt8} {req : List UInt8} (h : IsAction subcmd req) :
    HasCmd cmdAction req := by
  obtain ⟨hLength, hCmd, -⟩ := take_two_eq_iff.mp h
  exact take_one_eq_iff.mpr ⟨by omega, hCmd⟩

theorem hasCmd_of_isAuth {subcmd : UInt8} {req : List UInt8} (h : IsAuth subcmd req) : HasCmd cmdAuth req := by
  obtain ⟨hLength, hCmd, -⟩ := take_two_eq_iff.mp h
  exact take_one_eq_iff.mpr ⟨by omega, hCmd⟩

theorem HasCmd.unique {cmd cmd' : UInt8} {req : List UInt8} (h : HasCmd cmd req) (h' : HasCmd cmd' req) :
    cmd = cmd' :=
  List.singleton_inj.mp (h.symm.trans h')

section Commands

variable {env : Env} {s : AppState} {channel : Channel} {req : Payload} {respMax : Nat}

theorem processAppPayload_of_read (h : HasCmd cmdRead req.bytes) :
    processAppPayload env s channel req respMax =
      ({ s with fields := (handleCmdRead s.fields req.bytes respMax).1 },
        (handleCmdRead s.fields req.bytes respMax).2) := by
  obtain ⟨hLength, hCmd⟩ := take_one_eq_iff.mp h
  rw [processAppPayload, if_neg hLength, hCmd]
  rfl

theorem processAppPayload_of_write (h : HasCmd cmdWrite req.bytes) :
    processAppPayload env s channel req respMax = handleCmdWrite env.uptime s channel req respMax := by
  obtain ⟨hLength, hCmd⟩ := take_one_eq_iff.mp h
  rw [processAppPayload, if_neg hLength, hCmd]
  rfl

theorem processAppPayload_of_auth (h : HasCmd cmdAuth req.bytes) :
    processAppPayload env s channel req respMax =
      ({ s with auth := (appAuthHandleCmd env s.auth req.bytes channel).1 },
        (appAuthHandleCmd env s.auth req.bytes channel).2) := by
  obtain ⟨hLength, hCmd⟩ := take_one_eq_iff.mp h
  rw [processAppPayload, if_neg hLength, hCmd]
  rfl

theorem processAppPayload_of_action (h : HasCmd cmdAction req.bytes) :
    processAppPayload env s channel req respMax = handleCmdAction env.uptime s channel req.bytes respMax := by
  obtain ⟨hLength, hCmd⟩ := take_one_eq_iff.mp h
  rw [processAppPayload, if_neg hLength, hCmd]
  rfl

theorem handleCmdAction_of_reset (h : IsAction 0x03 req.bytes) :
    handleCmdAction env.uptime s channel req.bytes respMax =
      actionFactoryReset env.uptime s channel req.bytes respMax := by
  obtain ⟨hLength, -, hSub⟩ := take_two_eq_iff.mp h
  rw [handleCmdAction, if_neg hLength, hSub]
  rfl

theorem writeAction_eq_or (env : Env) (req : Payload) (f : Store) :
    writeAction env req f = .skip ∨ writeAction env req f = .expire (WithTop.some env.uptime) := by
  unfold writeAction
  split
  · exact .inl rfl
  · split
    · exact .inl rfl
    · exact .inr rfl

theorem actionAction_eq_or (env : Env) (req : Payload) :
    actionAction env req = .skip ∨ actionAction env req = .expire (WithTop.some env.uptime) := by
  unfold actionAction
  split
  · exact .inl rfl
  · split
    · exact .inl rfl
    · exact .inr rfl
    · exact .inr rfl
    · exact .inl rfl

theorem sessionAction_cases (env : Env) (channel : Channel) (req : Payload) (f : Store) :
    sessionAction env channel req f = authAction env channel req.bytes ∨
      (authAction env channel req.bytes = .skip ∧
        sessionAction env channel req f = .expire (WithTop.some env.uptime)) := by
  unfold sessionAction
  split
  · rename_i hLength
    exact .inl (if_pos (.inl (by omega))).symm
  · have hSkip : ∀ {cmd}, byteAt req.bytes 0 = cmd → cmd ≠ cmdAuth → authAction env channel req.bytes = .skip :=
      fun hCmd hNe => authAction_of_not_auth (hCmd ▸ hNe)
    split
    · rename_i hCmd
      exact .inl (hSkip hCmd (by decide)).symm
    · rename_i hCmd
      rw [hSkip hCmd (by decide)]
      exact (writeAction_eq_or env req f).imp_right fun h => ⟨rfl, h⟩
    · exact .inl rfl
    · rename_i hCmd
      rw [hSkip hCmd (by decide)]
      exact (actionAction_eq_or env req).imp_right fun h => ⟨rfl, h⟩
    · rename_i hAuth _
      exact .inl (authAction_of_not_auth hAuth).symm

theorem sessionAction_expire {env : Env} {channel : Channel} {req : Payload} {f : Store} {now : WithTop Nat}
    (h : sessionAction env channel req f = .expire now) : now = WithTop.some env.uptime := by
  rcases sessionAction_cases env channel req f with hEq | ⟨-, hEq⟩
  · rw [h] at hEq
    rcases authAction_cases env channel req.bytes with
      ⟨-, hAuth⟩ | ⟨-, hAuth⟩ | ⟨-, hAuth⟩ | ⟨-, -, -, hAuth | hAuth⟩ <;> rw [hAuth] at hEq
    case inr.inr.inr.inr => exact ChallengeResponse.Action.expire.inj hEq
    all_goals cases hEq
  · rw [h] at hEq
    exact ChallengeResponse.Action.expire.inj hEq

/-- Where the exemption is lost, CMD 0x02 checks the session; nothing else depends on the fields. -/
theorem sessionAction_of_writeExempt (env : Env) (channel : Channel) (req : Payload) {f f' : Store}
    (h : writeExempt f = true → writeExempt f' = true) :
    sessionAction env channel req f = sessionAction env channel req f' ∨
      (sessionAction env channel req f = .expire (WithTop.some env.uptime) ∧
        sessionAction env channel req f' = .skip) := by
  have hWrite : writeAction env req f = writeAction env req f' ∨
      (writeAction env req f = .expire (WithTop.some env.uptime) ∧ writeAction env req f' = .skip) := by
    unfold writeAction
    split
    · exact .inl rfl
    · cases hExempt : writeExempt f with
      | true =>
        left
        rw [h hExempt]
      | false =>
        cases writeExempt f' with
        | true => exact .inr ⟨rfl, rfl⟩
        | false => exact .inl rfl
  unfold sessionAction
  split
  · exact .inl rfl
  · split
    · exact .inl rfl
    · exact hWrite
    · exact .inl rfl
    · exact .inl rfl
    · exact .inl rfl

theorem authAction_of_sessionAction {env : Env} {channel : Channel} {req : Payload} {f : Store}
    {action : SessionAction}
    (h : sessionAction env channel req f = action) (hExpire : action ≠ .expire (WithTop.some env.uptime)) :
    authAction env channel req.bytes = action := by
  rcases sessionAction_cases env channel req f with hEq | ⟨-, hEq⟩
  · exact hEq.symm.trans h
  · exact absurd (h.symm.trans hEq) hExpire

theorem sessionAction_of_auth {env : Env} {channel : Channel} {req : Payload} {f : Store}
    (h : HasCmd cmdAuth req.bytes) : sessionAction env channel req f = authAction env channel req.bytes := by
  obtain ⟨hLength, hCmd⟩ := take_one_eq_iff.mp h
  rw [sessionAction, if_neg hLength, hCmd]
  rfl

theorem sessionAction_of_write {env : Env} {channel : Channel} {req : Payload} {f : Store}
    (h : HasCmd cmdWrite req.bytes) : sessionAction env channel req f = writeAction env req f := by
  obtain ⟨hLength, hCmd⟩ := take_one_eq_iff.mp h
  rw [sessionAction, if_neg hLength, hCmd]
  rfl

theorem readEffect_cases (req : Payload) : readEffect req = .keep ∨ ∃ ts, readEffect req = .stamp ts := by
  unfold readEffect
  split
  · exact .inl rfl
  · exact .inr ⟨_, rfl⟩

theorem writeEffect_cases (env : Env) (s : AppState) (channel : Channel) (req : Payload) :
    writeEffect env s channel req = .keep ∨
      ∃ cache, parseWrite req = .ok cache ∧ (writeExempt s.fields = true ∨ Writable s.auth channel env.uptime) ∧
        writeEffect env s channel req = .write cache := by
  unfold writeEffect
  split
  · exact .inl rfl
  · rename_i cache hParse
    split
    · rename_i hAllowed
      exact .inr ⟨cache, hParse, hAllowed, rfl⟩
    · exact .inl rfl

theorem actionEffect_cases (env : Env) (s : AppState) (channel : Channel) {req : Payload}
    (hCmd : byteAt req.bytes 0 = cmdAction) :
    actionEffect env s channel req = .keep ∨
      (IsAction 0x01 req.bytes ∧ actionEffect env s channel req = .power .powerOn) ∨
      (IsAction 0x02 req.bytes ∧ Writable s.auth channel env.uptime ∧
        actionEffect env s channel req = .power .powerOff) ∨
      (IsAction 0x03 req.bytes ∧ Writable s.auth channel env.uptime ∧ Confirmed req.bytes ∧
        actionEffect env s channel req = .reset) := by
  unfold actionEffect
  split
  · exact .inl rfl
  · rename_i hLength
    have hAction : ∀ {subcmd}, byteAt req.bytes 1 = subcmd → IsAction subcmd req.bytes :=
      fun hSub => take_two_eq_iff.mpr ⟨hLength, hCmd, hSub⟩
    split
    · rename_i hSub
      exact .inr (.inl ⟨hAction hSub, rfl⟩)
    · rename_i hSub
      split
      · rename_i hWritable
        exact .inr (.inr (.inl ⟨hAction hSub, hWritable, rfl⟩))
      · exact .inl rfl
    · rename_i hSub
      split
      · rename_i hBoth
        exact .inr (.inr (.inr ⟨hAction hSub, hBoth.1, hBoth.2, rfl⟩))
      · exact .inl rfl
    · exact .inl rfl

theorem fieldEffect_cases (env : Env) (s : AppState) (channel : Channel) (req : Payload) :
    fieldEffect env s channel req = .keep ∨
      (∃ ts, fieldEffect env s channel req = .stamp ts) ∨
      (∃ cache, HasCmd cmdWrite req.bytes ∧ parseWrite req = .ok cache ∧
        (writeExempt s.fields = true ∨ Writable s.auth channel env.uptime) ∧
        fieldEffect env s channel req = .write cache) ∨
      (IsAction 0x01 req.bytes ∧ fieldEffect env s channel req = .power .powerOn) ∨
      (IsAction 0x02 req.bytes ∧ Writable s.auth channel env.uptime ∧
        fieldEffect env s channel req = .power .powerOff) ∨
      (IsAction 0x03 req.bytes ∧ Writable s.auth channel env.uptime ∧ Confirmed req.bytes ∧
        fieldEffect env s channel req = .reset) := by
  unfold fieldEffect
  split
  · exact .inl rfl
  · rename_i hLength
    split
    · exact (readEffect_cases req).imp_right .inl
    · rename_i hCmd
      refine (writeEffect_cases env s channel req).imp_right ?_
      rintro ⟨cache, hParse, hAllowed, hEq⟩
      exact .inr (.inl ⟨cache, take_one_eq_iff.mpr ⟨hLength, hCmd⟩, hParse, hAllowed, hEq⟩)
    · exact .inl rfl
    · rename_i hCmd
      exact (actionEffect_cases env s channel hCmd).imp_right fun hCases => .inr (.inr hCases)
    · exact .inl rfl

theorem fieldEffect_of_auth (h : HasCmd cmdAuth req.bytes) : fieldEffect env s channel req = .keep := by
  obtain ⟨hLength, hCmd⟩ := take_one_eq_iff.mp h
  rw [fieldEffect, if_neg hLength, hCmd]
  rfl

theorem fieldEffect_of_action (h : HasCmd cmdAction req.bytes) :
    fieldEffect env s channel req = actionEffect env s channel req := by
  obtain ⟨hLength, hCmd⟩ := take_one_eq_iff.mp h
  rw [fieldEffect, if_neg hLength, hCmd]
  rfl

theorem applied_of_answeredOk (h : HasCmd cmdWrite req.bytes)
    (hOk : AnsweredOk (processAppPayload env s channel req respMax).2) :
    ∃ cache, parseWrite req = .ok cache ∧ (writeExempt s.fields = true ∨ Writable s.auth channel env.uptime) ∧
      (processAppPayload env s channel req respMax).1 = { s with fields := applyWrite s.fields cache } := by
  have hStatus : ∀ {status third}, status ≠ Status.ok →
    ¬ AnsweredOk (reply3 respMax cmdWrite status.code third) := by
    intro status third hNe
    unfold AnsweredOk reply3
    split <;> simp [hNe]
  rw [processAppPayload_of_write h] at hOk ⊢
  rcases handleCmdWrite_cases env.uptime s channel req respMax with
    ⟨status, third, hNe, -, hEq⟩ | ⟨cache, -, -, hWritable, hEq⟩ | ⟨cache, hParse, hAllowed, hEq⟩
  · rw [hEq] at hOk
    exact absurd hOk (hStatus hNe)
  · rw [hEq] at hOk
    exact absurd hOk (hStatus hWritable)
  · exact ⟨cache, hParse, hAllowed, congrArg Prod.fst hEq⟩

theorem answeredOk_write_iff (h : HasCmd cmdWrite req.bytes) (hMax : 3 ≤ respMax) :
    AnsweredOk (processAppPayload env s channel req respMax).2 ↔
      ∃ cache, parseWrite req = .ok cache ∧ (writeExempt s.fields = true ∨ Writable s.auth channel env.uptime) := by
  constructor
  · intro hOk
    obtain ⟨cache, hParse, hAllowed, -⟩ := applied_of_answeredOk h hOk
    exact ⟨cache, hParse, hAllowed⟩
  · rintro ⟨cache, hParse, hAllowed⟩
    rw [processAppPayload_of_write h]
    rcases handleCmdWrite_cases env.uptime s channel req respMax with
      ⟨status, third, -, hError, -⟩ | ⟨cache', -, hExempt, hWritable, -⟩ | ⟨cache', -, -, hEq⟩
    · rw [hParse] at hError
      cases hError
    · rw [hExempt] at hAllowed
      exact absurd (hAllowed.resolve_left nofun) hWritable
    · rw [hEq, reply3, if_neg (not_lt.mpr hMax)]
      rfl

theorem processAppPayload_of_reset (h : IsAction 0x03 req.bytes) (hWritable : Writable s.auth channel env.uptime)
    (hConfirmed : Confirmed req.bytes) :
    (processAppPayload env s channel req respMax).1 = ⟨appFieldsInit s.fields, appAuthResetPassword s.auth⟩ := by
  rw [processAppPayload_of_action (hasCmd_of_isAction h), handleCmdAction_of_reset h, actionFactoryReset_eq,
    if_neg (not_not.mpr hWritable), if_pos hConfirmed]

theorem answeredOk_reset_iff (h : IsAction 0x03 req.bytes) (hMax : 4 ≤ respMax) :
    AnsweredOk (processAppPayload env s channel req respMax).2 ↔
      Writable s.auth channel env.uptime ∧ Confirmed req.bytes := by
  rw [processAppPayload_of_action (hasCmd_of_isAction h), handleCmdAction_of_reset h, actionFactoryReset_eq]
  by_cases hWritable : Writable s.auth channel env.uptime
  · rw [if_neg (not_not.mpr hWritable)]
    by_cases hConfirmed : Confirmed req.bytes
    · simp [AnsweredOk, reply4, not_lt.mpr hMax, hWritable, hConfirmed]
    · simp [AnsweredOk, reply4, not_lt.mpr hMax, hConfirmed]
  · have hStatus : (appAuthCheckWrite env.uptime s.auth channel).1 ≠ .ok := hWritable
    simp [AnsweredOk, reply4, not_lt.mpr hMax, hWritable, hStatus]

/-! ## The password hash -/

theorem passwordHash_handleCmdWrite (uptime : Nat) :
    (handleCmdWrite uptime s channel req respMax).1.auth.passwordHash = s.auth.passwordHash := by
  rcases handleCmdWrite_cases uptime s channel req respMax with
    ⟨_, _, -, -, hEq⟩ | ⟨_, -, -, -, hEq⟩ | ⟨_, -, -, hEq⟩ <;> rw [hEq]
  exact passwordHash_appAuthCheckWrite s.auth channel uptime

theorem passwordHash_handleCmdAction (uptime : Nat) (hAction : HasCmd cmdAction req.bytes) :
    (handleCmdAction uptime s channel req.bytes respMax).1.auth.passwordHash = s.auth.passwordHash ∨
      (IsAction 0x03 req.bytes ∧ Writable s.auth channel uptime ∧ Confirmed req.bytes) := by
  unfold handleCmdAction
  split
  · exact .inl rfl
  · rename_i hLength
    split
    · exact .inl rfl
    · left
      rw [actionPowerOff_eq]
      split
      · rfl
      · exact passwordHash_appAuthCheckWrite s.auth channel uptime
    · rename_i hSub
      rw [actionFactoryReset_eq]
      split
      · exact .inl (passwordHash_appAuthCheckWrite s.auth channel uptime)
      · rename_i hWritable
        split
        · rename_i hConfirmed
          refine .inr ⟨take_two_eq_iff.mpr ⟨hLength, ?_, hSub⟩, not_not.mp hWritable, hConfirmed⟩
          exact (take_one_eq_iff.mp hAction).2
        · exact .inl rfl
    · exact .inl rfl

/-- Only CHANGE_PWD and factory reset replace the hash, and both need a writable channel. -/
theorem passwordHash_processAppPayload :
    (processAppPayload env s channel req respMax).1.auth.passwordHash = s.auth.passwordHash ∨
      (Writable s.auth channel env.uptime ∧
        ((IsAuth authSubcmdChangePwd req.bytes ∧ AnsweredOk (processAppPayload env s channel req respMax).2) ∨
          (IsAction 0x03 req.bytes ∧ Confirmed req.bytes))) := by
  by_cases hAuth : HasCmd cmdAuth req.bytes
  · rw [processAppPayload_of_auth hAuth]
    refine (passwordHash_appAuthHandleCmd s.auth).imp_right ?_
    rintro ⟨hChange, hWritable, -, hReply⟩
    exact ⟨hWritable, .inl ⟨hChange, by rw [hReply]; rfl⟩⟩
  by_cases hAction : HasCmd cmdAction req.bytes
  · rw [processAppPayload_of_action hAction]
    refine (passwordHash_handleCmdAction env.uptime hAction).imp_right ?_
    rintro ⟨hReset, hWritable, hConfirmed⟩
    exact ⟨hWritable, .inr ⟨hReset, hConfirmed⟩⟩
  left
  by_cases hWrite : HasCmd cmdWrite req.bytes
  · rw [processAppPayload_of_write hWrite]
    exact passwordHash_handleCmdWrite env.uptime
  unfold processAppPayload
  split
  · rfl
  · rename_i hLength
    split
    · rfl
    · exact absurd (take_one_eq_iff.mpr ⟨hLength, ‹_›⟩) hWrite
    · exact absurd (take_one_eq_iff.mpr ⟨hLength, ‹_›⟩) hAuth
    · exact absurd (take_one_eq_iff.mpr ⟨hLength, ‹_›⟩) hAction
    · rfl

end Commands

end IotRange.AppProtocol
