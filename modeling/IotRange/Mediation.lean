import IotRange.Device

/-! # Complete mediation

A request on a channel that is not writable changes nothing that needs authentication.
-/
namespace IotRange.Mediation
open AppAuth AppFields AppProtocol AppConfig Device ChallengeResponse
set_option autoImplicit false

theorem passwordHash_of_not_writable {env : Env} {s : AppState} {channel : Channel} {req : Payload} {respMax : Nat}
    (h : ¬ Writable s.auth channel env.uptime) :
    (processAppPayload env s channel req respMax).1.auth.passwordHash = s.auth.passwordHash :=
  passwordHash_processAppPayload.resolve_right fun hChanged => h hChanged.1

/-- The device state moves to POWER_ON only, and the configuration moves by the exempt write only. -/
theorem fields_of_not_writable {env : Env} {s : AppState} {channel : Channel} (req : Payload)
    (h : ¬ Writable s.auth channel env.uptime) :
    (((fieldEffect env s channel req).apply s.fields).deviceState = s.fields.deviceState ∨
        ((fieldEffect env s channel req).apply s.fields).deviceState = .powerOn) ∧
      (((fieldEffect env s channel req).apply s.fields).config = s.fields.config ∨
        (writeExempt s.fields = true ∧ HasCmd cmdWrite req.bytes ∧ ∃ cache, parseWrite req = .ok cache)) := by
  rcases fieldEffect_cases env s channel req with hEq | ⟨ts, hEq⟩ | ⟨cache, hWrite, hParse, hAllowed, hEq⟩ |
    ⟨-, hEq⟩ | ⟨-, hWritable, -⟩ | ⟨-, hWritable, -⟩
  · rw [hEq]
    exact ⟨.inl rfl, .inl rfl⟩
  · rw [hEq]
    exact ⟨.inl rfl, .inl rfl⟩
  · have hExempt := hAllowed.resolve_right h
    rw [hEq, FieldEffect.apply, deviceState_applyWrite, if_pos hExempt]
    exact ⟨.inr rfl, .inr ⟨hExempt, hWrite, cache, hParse⟩⟩
  · rw [hEq]
    exact ⟨.inr rfl, .inl rfl⟩
  · exact absurd hWritable h
  · exact absurd hWritable h

/-- A locked channel opens only for the right token against a valid nonce. -/
theorem token_of_opened {env : Env} {s : AppState} {channel : Channel} {req : Payload} {respMax t : Nat}
    (h : ¬ Writable s.auth channel env.uptime) (ht : env.uptime ≤ t)
    (hOpened : Writable (processAppPayload env s channel req respMax).1.auth channel t) :
    IsToken req.bytes ∧ channelNonceValid s.auth channel = true ∧
      credential req.bytes = (expectedToken s.auth (channelNonce s.auth channel)).toList := by
  rw [writable_iff_open] at h hOpened
  have hOpened := hOpened.mono (WithTop.coe_le_coe.mpr ht)
  rw [(acts_processAppPayload env s channel req respMax).session_eq] at hOpened
  rcases Session.open_apply _ hOpened with ⟨token, deadline, hAction, hAccepts, -⟩ | ⟨hOpen, -⟩
  · obtain ⟨hToken, hCredential, -⟩ := isToken_of_present (authAction_of_sessionAction hAction nofun)
    refine ⟨hToken, ?_, ?_⟩
    · exact (live_session s.auth channel).symm.trans hAccepts.1
    · rw [← hCredential, hAccepts.2, challenge_session]
      rfl
  · exact absurd hOpen h

theorem complete_mediation (env : Env) (d : Device) (channel : Channel) (req : Payload)
    (hLocked : ¬ Writable d.auth channel env.uptime) :
    (handleRequest env d channel req).1.auth.passwordHash = d.auth.passwordHash ∧
      (handleRequest env d channel req).1.ota = d.ota ∧
      ((handleRequest env d channel req).1.fields.deviceState ≠ d.fields.deviceState →
        (handleRequest env d channel req).1.fields.deviceState ≠ .powerOff ∧
          (handleRequest env d channel req).1.fields.deviceState ≠ .factory) ∧
      ((handleRequest env d channel req).1.fields.config ≠ d.fields.config →
        d.fields.deviceState = .factory ∧ d.fields.factoryInitDone = false ∧ HasCmd cmdWrite req.bytes ∧
          AnsweredOk (handleRequest env d channel req).2) ∧
      ∀ t, env.uptime ≤ t → Writable (handleRequest env d channel req).1.auth channel t →
        IsToken req.bytes ∧ channelNonceValid d.auth channel = true ∧
          credential req.bytes = (expectedToken d.auth (channelNonce d.auth channel)).toList := by
  have hState := toAppState_handleRequest env d channel req
  have hFields : (handleRequest env d channel req).1.fields =
      (fieldEffect env d.toAppState channel req).apply d.fields := by
    rw [hState]
    exact fields_processAppPayload env d.toAppState channel req appProtoRespMax
  obtain ⟨hDeviceState, hConfig⟩ := fields_of_not_writable req hLocked
  rw [← hFields] at hDeviceState hConfig
  refine ⟨?_, ?_, ?_, ?_, ?_⟩
  · rw [hState]
    exact passwordHash_of_not_writable hLocked
  · refine (ota_handleRequest env d channel req).resolve_right ?_
    rintro ⟨rfl, hWritable⟩
    exact hLocked hWritable
  · intro hMoved
    rw [hDeviceState.resolve_left hMoved]
    decide
  · intro hMoved
    obtain ⟨hExempt, hWrite, cache, hParse⟩ := hConfig.resolve_left hMoved
    obtain ⟨hFactory, hInit⟩ := of_decide_eq_true hExempt
    refine ⟨hFactory, by simpa using hInit, hWrite, ?_⟩
    rw [reply_handleRequest env d channel (not_isOta_of_write hWrite),
      answeredOk_write_iff hWrite (by decide)]
    exact ⟨cache, hParse, .inl hExempt⟩
  · intro t ht hOpened
    rw [hState] at hOpened
    exact token_of_opened hLocked ht hOpened

def powerOffRequest : Payload := ⟨[0x04, 0x02], by decide⟩

theorem complete_mediation_powerOff :
    (handleRequest ⟨7, List.Vector.replicate 8 0⟩ boot .nfc powerOffRequest).1.auth.passwordHash =
        boot.auth.passwordHash ∧
      ∀ t, 7 ≤ t →
        ¬ Writable (handleRequest ⟨7, List.Vector.replicate 8 0⟩ boot .nfc powerOffRequest).1.auth .nfc t := by
  obtain ⟨hHash, -, -, -, hOpened⟩ :=
    complete_mediation ⟨7, List.Vector.replicate 8 0⟩ boot .nfc powerOffRequest (by decide)
  refine ⟨hHash, ?_⟩
  intro t ht hWritable
  have hToken := (hOpened t ht hWritable).1
  revert hToken
  decide

end IotRange.Mediation
