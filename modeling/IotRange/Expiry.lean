import IotRange.AppProtocol.Replies
import IotRange.Handshake
import IotRange.Revocation

/-! # AUTH_EXPIRED

The check that finds the window over clears it, so AUTH_EXPIRED is answered once for a window, and after
it the channel is as locked as one that was never open.
-/
namespace IotRange.Expiry
open AppAuth AppFields AppTlv AppProtocol AppConfig Device Sessions Revocation ChallengeResponse
set_option autoImplicit false

def ReportsExpired (reply : List UInt8) : Prop := reply[1]? = some Status.authExpired.code

instance : DecidablePred ReportsExpired := fun _ => inferInstanceAs (Decidable (_ = _))

theorem checkExpired_iff {a : Auth} {channel : Channel} {uptime : Nat} :
    (appAuthCheckWrite uptime a channel).1 = .authExpired ↔
      channel = .nfc ∧ 0 < a.nfcAuthUntilMs ∧ a.nfcAuthUntilMs < uptime := by
  cases channel with
  | ble =>
    refine ⟨fun h => ?_, fun h => (by cases h.1)⟩
    simp only [appAuthCheckWrite] at h
    split at h <;> cases h
  | nfc =>
    rw [appAuthCheckWrite]
    by_cases hOpened : 0 < a.nfcAuthUntilMs
    · rw [if_pos hOpened]
      by_cases hOver : a.nfcAuthUntilMs < uptime
      · rw [if_neg (not_le.mpr hOver)]
        exact ⟨fun _ => ⟨rfl, hOpened, hOver⟩, fun _ => rfl⟩
      · rw [if_pos (not_lt.mp hOver)]
        exact ⟨fun h => (by cases h), fun h => absurd h.2.2 hOver⟩
    · rw [if_neg hOpened]
      exact ⟨fun h => (by cases h), fun h => absurd h.2.1 hOpened⟩

/-! ## Replies -/

section Replies

theorem reportsExpired_iff {cmd : UInt8} {status : Status} {rest : List UInt8} :
    ReportsExpired (cmd :: status.code :: rest) ↔ status = .authExpired :=
  Option.some_inj.trans Status.code_inj

theorem not_reportsExpired {cmd : UInt8} {status : Status} {rest : List UInt8} (h : status ≠ .authExpired) :
    ¬ ReportsExpired (cmd :: status.code :: rest) :=
  mt reportsExpired_iff.mp h

theorem not_reportsExpired_nil : ¬ ReportsExpired [] := nofun

theorem not_reportsExpired_fieldsReply (f : Store) (fieldIds : List UInt8) :
    ¬ ReportsExpired (fieldsReply f fieldIds) :=
  not_reportsExpired nofun

theorem not_reportsExpired_handleCmdRead (f : Store) (req : List UInt8) :
    ¬ ReportsExpired (handleCmdRead f req appProtoRespMax).2 := by
  have hMax : 3 ≤ appProtoRespMax := by decide
  unfold handleCmdRead
  split
  · rw [if_neg (not_lt.mpr hMax)]
    exact not_reportsExpired nofun
  · dsimp only
    rw [if_neg (not_lt.mpr hMax)]
    split
    · rw [readAllFields_of_fits (by decide)]
      exact not_reportsExpired_fieldsReply _ _
    · split
      · exact not_reportsExpired nofun
      · obtain ⟨status, fieldId, hStatus, hRefused⟩ | ⟨-, hReply⟩ :=
          readListedFields_outcomes (appFieldSetUnixtime f (readBe32 (req.drop 1)))
            ((req.drop 6).take (byteAt req 5).toNat) hMax
        · dsimp only
          rw [hRefused]
          obtain rfl | rfl := hStatus <;> exact not_reportsExpired nofun
        · dsimp only
          rw [hReply]
          exact not_reportsExpired_fieldsReply _ _

theorem appFieldValidate_ne (fieldId : UInt8) (value : List UInt8) : appFieldValidate fieldId value ≠ .authExpired := by
  unfold appFieldValidate
  split
  · nofun
  · split
    · nofun
    · dsimp only
      split
      · nofun
      · split
        · split <;> nofun
        · nofun
        · split <;> nofun
        · nofun

theorem cacheTlvs_ne {tlvData : Payload} {remaining : Nat} {offset : UInt16} {cache : List Tlv} {status : Status}
    {third : UInt8} (h : cacheTlvs tlvData remaining offset cache = .error (status, third)) :
    status ≠ .authExpired := by
  induction remaining generalizing offset cache with
  | zero => cases h
  | succ remaining ih =>
    rw [cacheTlvs] at h
    split at h
    · cases h
      decide
    · split at h
      · cases h
        decide
      · dsimp only at h
        split at h
        · cases h
          exact appFieldValidate_ne _ _
        · exact ih h

theorem parseWrite_ne {req : Payload} {status : Status} {third : UInt8} (h : parseWrite req = .error (status, third)) :
    status ≠ .authExpired := by
  unfold parseWrite at h
  split at h
  · cases h
    decide
  · dsimp only at h
    split at h
    · cases h
      decide
    · split at h
      · cases h
        decide
      · exact cacheTlvs_ne h

end Replies

/-! ## Requests -/

/-- AUTH_EXPIRED is the answer to a request that comes to the check and finds the window over. -/
def Accounts (a : Auth) (channel : Channel) (uptime : Nat) (action : SessionAction) (reply : List UInt8) : Prop :=
  ReportsExpired reply ↔
    action = .expire (WithTop.some uptime) ∧ (appAuthCheckWrite uptime a channel).1 = .authExpired

section Requests

variable {env : Env} {s : AppState} {channel : Channel} {req : Payload} {data : List UInt8} {a : Auth}
variable {uptime : Nat} {action : SessionAction} {status : Status}

theorem accounts_of_not {reply : List UInt8} (h : ¬ ReportsExpired reply)
    (hAction : action ≠ .expire (WithTop.some uptime)) :
    Accounts a channel uptime action reply :=
  ⟨fun hExpired => absurd hExpired h, fun hExpired => absurd hExpired.1 hAction⟩

theorem accounts_of_writable {reply : List UInt8} (h : ¬ ReportsExpired reply) (hWritable : Writable a channel uptime) :
    Accounts a channel uptime action reply :=
  ⟨fun hExpired => absurd hExpired h, fun hExpired => by cases hWritable.symm.trans hExpired.2⟩

theorem accounts_of_check {reply : List UInt8}
    (h : ReportsExpired reply ↔ (appAuthCheckWrite uptime a channel).1 = .authExpired) :
    Accounts a channel uptime (.expire (WithTop.some uptime)) reply :=
  h.trans (and_iff_right rfl).symm

theorem accounts_handleCmdWrite :
    Accounts s.auth channel env.uptime (writeAction env req s.fields)
      (handleCmdWrite env.uptime s channel req appProtoRespMax).2 := by
  unfold writeAction
  obtain ⟨status, third, -, hParse, hEq⟩ | ⟨cache, hParse, hExempt, -, hEq⟩ | ⟨cache, hParse, hAllowed, hEq⟩ :=
    handleCmdWrite_cases env.uptime s channel req appProtoRespMax
  all_goals rw [hEq, hParse]
  · exact accounts_of_not (not_reportsExpired (parseWrite_ne hParse)) nofun
  · dsimp only
    rw [hExempt]
    exact accounts_of_check reportsExpired_iff
  · dsimp only
    split
    · exact accounts_of_not (not_reportsExpired nofun) nofun
    · rename_i hExempt
      exact accounts_of_writable (not_reportsExpired nofun) (hAllowed.resolve_left hExempt)

theorem accounts_authToken :
    Accounts a channel env.uptime (tokenAction env channel data) (authToken env a data channel).2 := by
  unfold authToken tokenAction
  split
  · exact accounts_of_not (not_reportsExpired nofun) nofun
  · split
    · exact accounts_of_not (not_reportsExpired nofun) nofun
    · dsimp only
      split <;> exact accounts_of_not (not_reportsExpired nofun) nofun

theorem accounts_authChangePwd :
    Accounts a channel env.uptime (.expire (WithTop.some env.uptime)) (authChangePwd env a data channel).2 := by
  refine accounts_of_check ?_
  unfold authChangePwd
  generalize appAuthCheckWrite env.uptime a channel = checked
  obtain ⟨status, a'⟩ := checked
  dsimp only
  split
  · exact reportsExpired_iff
  · rename_i hOk
    obtain rfl := not_not.mp hOk
    split <;> exact ⟨fun h => absurd h (not_reportsExpired nofun), nofun⟩

theorem accounts_appAuthHandleCmd :
    Accounts a channel env.uptime (authAction env channel data) (appAuthHandleCmd env a data channel).2 := by
  unfold appAuthHandleCmd authAction
  split
  · exact accounts_of_not not_reportsExpired_nil nofun
  · split
    · exact accounts_of_not (not_reportsExpired nofun) nofun
    · exact accounts_authToken
    · exact accounts_authChangePwd
    · exact accounts_of_not (not_reportsExpired nofun) nofun
    · exact accounts_of_not (not_reportsExpired nofun) nofun

theorem accounts_handleCmdAction :
    Accounts s.auth channel env.uptime (actionAction env req)
      (handleCmdAction env.uptime s channel req.bytes appProtoRespMax).2 := by
  unfold handleCmdAction actionAction
  split
  · exact accounts_of_not (not_reportsExpired nofun) nofun
  · split
    · exact accounts_of_not (not_reportsExpired nofun) nofun
    · rw [actionPowerOff_eq]
      split
      · rename_i hWritable
        exact accounts_of_writable (not_reportsExpired nofun) hWritable
      · exact accounts_of_check reportsExpired_iff
    · rw [actionFactoryReset_eq]
      split
      · exact accounts_of_check reportsExpired_iff
      · rename_i hWritable
        split <;> exact accounts_of_writable (not_reportsExpired nofun) (not_not.mp hWritable)
    · exact accounts_of_not (not_reportsExpired nofun) nofun

theorem accounts_processAppPayload (env : Env) (s : AppState) (channel : Channel) (req : Payload) :
    Accounts s.auth channel env.uptime (sessionAction env channel req s.fields)
      (processAppPayload env s channel req appProtoRespMax).2 := by
  unfold processAppPayload sessionAction
  split
  · exact accounts_of_not not_reportsExpired_nil nofun
  · split
    · exact accounts_of_not (not_reportsExpired_handleCmdRead _ _) nofun
    · exact accounts_handleCmdWrite
    · exact accounts_appAuthHandleCmd
    · exact accounts_handleCmdAction
    · rw [if_neg (by decide)]
      exact accounts_of_not (not_reportsExpired nofun) nofun

/-! The check of BLE has no window. -/

theorem not_reportsExpired_otaChecked {d : Device} {cmd : UInt8} {body : OtaState → OtaState × List UInt8}
    (h : ∀ ota, ¬ ReportsExpired (body ota).2) : ¬ ReportsExpired (otaChecked env d cmd body).2 := by
  by_cases hWritable : Writable d.auth .ble env.uptime
  · rw [otaChecked_of_writable hWritable]
    exact h d.ota
  · rw [otaChecked_of_not_writable hWritable]
    intro hExpired
    cases (checkExpired_iff.mp (reportsExpired_iff.mp hExpired)).1

theorem not_reportsExpired_otaData (ota : OtaState) : ¬ ReportsExpired (otaData ota data).2 := by
  unfold otaData
  split
  · exact not_reportsExpired nofun
  · split <;> exact not_reportsExpired_nil

theorem not_reportsExpired_ble (env : Env) (d : Device) (req : Payload) :
    ¬ ReportsExpired (appConfigHandleBle env d req).2 := by
  unfold appConfigHandleBle
  split
  · exact not_reportsExpired_nil
  · split
    · exact not_reportsExpired_otaChecked fun _ => not_reportsExpired nofun
    · exact not_reportsExpired_otaChecked not_reportsExpired_otaData
    · exact not_reportsExpired_otaChecked fun _ => not_reportsExpired nofun
    · intro hExpired
      cases (checkExpired_iff.mp ((accounts_processAppPayload env d.toAppState .ble req).mp hExpired).2).1

end Requests

/-! ## Runs -/

def AnswersExpired (channel : Channel) (d : Device) (e : Event) : Prop :=
  Requests channel (fun _ => ReportsExpired (machine.output d e)) e

/-- A TOKEN request that is answered OK. -/
def Accepted (channel : Channel) (d : Device) (e : Event) : Prop :=
  Requests channel (fun data => IsToken data ∧ AnsweredOk (machine.output d e)) e

instance (channel : Channel) : DecidableRel (AnswersExpired channel) :=
  fun _ _ => inferInstanceAs (Decidable (Requests _ _ _))

instance (channel : Channel) : DecidableRel (Accepted channel) :=
  fun _ _ => inferInstanceAs (Decidable (Requests _ _ _))

section Runs

variable {channel : Channel} {d : Device} {e : Event}

/-- On NFC it is answered exactly when the request comes to the check after the window. -/
theorem answersExpired_iff :
    AnswersExpired .nfc d e ↔ eventAction .nfc d e = .expire (WithTop.some e.uptime) ∧
      0 < d.auth.nfcAuthUntilMs ∧ d.auth.nfcAuthUntilMs < e.uptime := by
  obtain ⟨uptime, input⟩ := e
  cases input with
  | bleDisconnect => exact ⟨fun h => h.elim, nofun⟩
  | request c rand req =>
    cases c with
    | ble => exact ⟨fun h => (by cases h.1), nofun⟩
    | nfc =>
      have hAccounts := accounts_processAppPayload ⟨uptime, rand⟩ d.toAppState .nfc req
      rw [Accounts, checkExpired_iff, and_iff_right rfl] at hAccounts
      exact (and_iff_right rfl).trans hAccounts

theorem not_answersExpired_ble (d : Device) (e : Event) : ¬ AnswersExpired .ble d e := by
  intro h
  obtain ⟨rand, req, hInput, hExpired⟩ := requests_iff.mp h
  rw [Machine.output, step_of_request hInput] at hExpired
  exact not_reportsExpired_ble ⟨e.uptime, rand⟩ d req hExpired

/-- The window that is open at time zero is open or over. -/
theorem writable_zero_iff {a : Auth} : Writable a .nfc 0 ↔ 0 < a.nfcAuthUntilMs := by
  unfold Writable appAuthCheckWrite
  by_cases hOpened : 0 < a.nfcAuthUntilMs
  · rw [if_pos hOpened, if_pos (Nat.zero_le _)]
    exact ⟨fun _ => hOpened, fun _ => rfl⟩
  · rw [if_neg hOpened]
    exact ⟨nofun, fun h => absurd h hOpened⟩

theorem accepted_of_presents (h : Presents channel d e) : Accepted channel d e := by
  obtain ⟨⟨hToken, hValid⟩, hCredential⟩ := h
  have hAwaits : (session d.auth channel).Awaits (channelNonce d.auth channel) :=
    ⟨(live_session _ _).trans hValid, challenge_session _ _⟩
  obtain ⟨hOutput, -⟩ := Handshake.accepted_of_awaits hAwaits hToken hCredential
  obtain ⟨rand, req, hInput, hIsToken⟩ := requests_iff.mp hToken
  refine requests_of_request hInput ⟨hIsToken, ?_⟩
  rw [hOutput]
  rfl

theorem oneShot : machine.OneShot (fun d => 0 < d.auth.nfcAuthUntilMs) (Accepted .nfc) (AnswersExpired .nfc) where
  required _ _ h := (answersExpired_iff.mp h).2.1
  spent d e h := by
    obtain ⟨hAction, hOpened, hOver⟩ := answersExpired_iff.mp h
    have hDeadline : (session d.auth .nfc).openUntil = some (WithTop.some d.auth.nfcAuthUntilMs) :=
      if_neg (Nat.ne_of_gt hOpened)
    rw [← writable_zero_iff, writable_iff_open, session_next, hAction, Session.apply,
      if_pos ⟨_, hDeadline, WithTop.coe_lt_coe.mpr hOver⟩]
    rintro ⟨_, hNone, _⟩
    cases hNone
  armedOnly d e h := by
    rw [← writable_zero_iff] at h ⊢
    exact (presents_of_opened h).symm.imp_right accepted_of_presents

/-- BLE never gets AUTH_EXPIRED. NFC gets it at most once between two accepted TOKENs, and over a run
at most once for each of them. -/
theorem expired_le_accepted :
    (∀ d e, ¬ AnswersExpired .ble d e) ∧
      (∀ d e, AnswersExpired .nfc d e ↔ eventAction .nfc d e = .expire (WithTop.some e.uptime) ∧
        0 < d.auth.nfcAuthUntilMs ∧ d.auth.nfcAuthUntilMs < e.uptime) ∧
      (∀ d is, (∀ p ∈ machine.situations d is, ¬ Accepted .nfc p.1 p.2) →
        (machine.situations d is).countP (fun p => AnswersExpired .nfc p.1 p.2) ≤ 1) ∧
      ∀ is, (machine.situations boot is).countP (fun p => AnswersExpired .nfc p.1 p.2) ≤
        (machine.situations boot is).countP fun p => Accepted .nfc p.1 p.2 := by
  refine ⟨not_answersExpired_ble, fun _ _ => answersExpired_iff, oneShot.countP_uses_le_one, fun is => ?_⟩
  have hCount := oneShot.countP_uses_le boot is
  have hBoot : Machine.held (fun d : Device => 0 < d.auth.nfcAuthUntilMs) boot = 0 := rfl
  omega

end Runs

end IotRange.Expiry
