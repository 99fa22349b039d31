import IotRange.Isolation

/-! # Replacing the password

CHANGE_PWD and factory reset replace the password hash and leave every session as it is: an open
one stays open, and a closed one opens only for a token made with the hash of its moment.
-/
namespace IotRange.Revocation
open AppAuth AppFields AppProtocol AppConfig Device ChallengeResponse Sessions Provisioning Isolation History
set_option autoImplicit false

/-- An accepted CHANGE_PWD or an accepted factory reset on the channel. -/
def Replaces (channel : Channel) (d : Device) (e : Event) : Prop :=
  Requests channel (fun data => (IsAuth authSubcmdChangePwd data ∨ IsAction 0x03 data) ∧
    AnsweredOk (machine.output d e)) e

def newPasswordHash (data : List UInt8) : List UInt8 :=
  if IsAuth authSubcmdChangePwd data then credential data else defaultPasswordHash.toList

/-- A TOKEN request with the expected token of the channel's valid nonce under the hash of its moment. -/
def Presents (channel : Channel) (d : Device) (e : Event) : Prop :=
  Compared channel d e ∧
    Requests channel (fun data => credential data = (expectedToken d.auth (channelNonce d.auth channel)).toList) e

/-- From time `t` on the channel is not writable before a right token has been presented on it. -/
def Locked (channel : Channel) (t : Nat) (d : Device) : Prop :=
  ∀ later t', t ≤ t' → Writable (machine.run d later).auth channel t' →
    ∃ pre token post, later = pre ++ token :: post ∧ Presents channel (machine.run d pre) token

section Replacement

variable {channel : Channel} {d : Device} {e : Event}

theorem auth_next_of_replaces (h : Replaces channel d e) :
    ∃ rand req passwordHash, e.input = .request channel rand req ∧
      passwordHash.toList = newPasswordHash req.bytes ∧
      (machine.next d e).auth = { d.auth with passwordHash := passwordHash } := by
  obtain ⟨rand, req, hInput, hKind, hOk⟩ := requests_iff.mp h
  refine ⟨rand, req, ?_⟩
  rcases hKind with hChange | hReset
  · have hAuth := hasCmd_of_isAuth hChange
    obtain ⟨hCmd, hSub⟩ := isAuth_iff.mp hChange
    have hHandled : appAuthHandleCmd ⟨e.uptime, rand⟩ d.auth req.bytes channel =
        authChangePwd ⟨e.uptime, rand⟩ d.auth req.bytes channel := by
      rw [appAuthHandleCmd, if_neg hCmd, hSub]
      rfl
    rw [output_of_request hInput (not_isOta_of_isAuth hChange), processAppPayload_of_auth hAuth, hHandled] at hOk
    obtain ⟨-, hLength, hNext⟩ := authChangePwd_of_answeredOk _ _ _ _ hOk
    refine ⟨⟨credential req.bytes, length_credential hLength⟩, hInput, ?_, ?_⟩
    · rw [newPasswordHash, if_pos hChange]
      rfl
    · rw [auth_next_of_request hInput, processAppPayload_of_auth hAuth, hHandled]
      exact hNext
  · have hNotChange : ¬ IsAuth authSubcmdChangePwd req.bytes := fun hChange =>
      absurd ((hasCmd_of_isAuth hChange).unique (hasCmd_of_isAction hReset)) (by decide)
    have hAccepted : ResetAccepted d e := isRequest_iff.mpr ⟨channel, rand, req, hInput, hReset, hOk⟩
    obtain ⟨hWritable, hConfirmed⟩ := (resetAccepted_iff hInput hReset).mp hAccepted
    refine ⟨defaultPasswordHash, hInput, ?_, ?_⟩
    · rw [newPasswordHash, if_neg hNotChange]
    · rw [auth_next_of_request hInput, processAppPayload_of_reset hReset hWritable hConfirmed]
      rfl

theorem session_next_of_replaces (h : Replaces channel d e) (c : Channel) :
    session (machine.next d e).auth c = session d.auth c := by
  obtain ⟨rand, req, passwordHash, -, -, hNext⟩ := auth_next_of_replaces h
  rw [hNext]
  cases c <;> rfl

theorem passwordHash_next_of_not_replaces (h : ∀ c, ¬ Replaces c d e) :
    (machine.next d e).auth.passwordHash = d.auth.passwordHash := by
  apply passwordHash_next_of_allowed
  constructor
  · intro hAccepted
    obtain ⟨c, rand, req, hInput, hChange, hOk⟩ := isRequest_iff.mp hAccepted
    exact h c (requests_of_request hInput ⟨.inl hChange, hOk⟩)
  · intro hAccepted
    obtain ⟨c, rand, req, hInput, hReset, hOk⟩ := isRequest_iff.mp hAccepted
    exact h c (requests_of_request hInput ⟨.inr hReset, hOk⟩)

theorem passwordHash_run_of_not_replaces (later : List Event)
    (h : ∀ p ∈ machine.situations d later, ∀ c, ¬ Replaces c p.1 p.2) :
    (machine.run d later).auth.passwordHash = d.auth.passwordHash := by
  induction later generalizing d with
  | nil => rfl
  | cons e later ih =>
    rw [Machine.situations_cons, List.forall_mem_cons] at h
    rw [Machine.run_cons, ih h.2, passwordHash_next_of_not_replaces h.1]

/-- One step opens a channel only for a right token. -/
theorem presents_of_opened {t : Nat} (h : Writable (machine.next d e).auth channel t) :
    Presents channel d e ∨ Writable d.auth channel t := by
  rw [writable_iff_open, session_next] at h
  rcases Session.open_apply _ h with ⟨token, deadline, hAction, hAccepts, -⟩ | ⟨hOpen, -⟩
  · left
    obtain ⟨rand, req, hInput, hToken, rfl, -⟩ := request_of_present hAction
    have hLive := (live_session _ _).symm.trans hAccepts.1
    refine ⟨⟨requests_of_request hInput hToken, hLive⟩, requests_of_request hInput ?_⟩
    rw [hAccepts.2, challenge_session]
    rfl
  · exact .inr ((writable_iff_open _ _ _).mpr hOpen)

theorem locked_of_not_writable {t : Nat} (h : ¬ Writable d.auth channel t) : Locked channel t d := by
  intro later t' ht hWritable
  have hClosed : ¬ Writable d.auth channel t' := by
    rw [writable_iff_open] at h ⊢
    exact fun hOpen => h (hOpen.mono (WithTop.coe_le_coe.mpr ht))
  obtain ⟨pre, token, post, hSplit, hPresents, -⟩ : Since (fun pre token => Presents channel (machine.run d pre) token)
      (fun _ _ => True) later := by
    refine since_of_raised (fun es => Writable (machine.run d es).auth channel t') hClosed ?_ later hWritable
    intro es e hOpened
    rw [Machine.run_append, Machine.run_cons, Machine.run_nil] at hOpened
    exact (presents_of_opened hOpened).imp_right fun hOpen => ⟨hOpen, trivial⟩
  exact ⟨pre, token, post, hSplit, hPresents⟩

/-- What revoking the sessions of the replaced password would mean. -/
def Revokes (channel : Channel) (d : Device) (e : Event) : Prop :=
  (∀ c ≠ channel, Locked c e.uptime (machine.next d e)) ∧
    (ResetAccepted d e → Locked channel e.uptime (machine.next d e))

/-- A replacement changes the hash and no session, and what is locked then opens only for a new token. -/
theorem sessions_outlive_replacement (h : Replaces channel d e) :
    (∃ rand req, e.input = .request channel rand req ∧
        (machine.next d e).auth.passwordHash.toList = newPasswordHash req.bytes) ∧
      (∀ c, session (machine.next d e).auth c = session d.auth c ∧
        ∀ t, (Writable (machine.next d e).auth c t ↔ Writable d.auth c t) ∧
          (¬ Writable (machine.next d e).auth c t → Locked c t (machine.next d e))) ∧
      ∀ later, (∀ p ∈ machine.situations (machine.next d e) later, ∀ c, ¬ Replaces c p.1 p.2) →
        (machine.run (machine.next d e) later).auth.passwordHash = (machine.next d e).auth.passwordHash := by
  refine ⟨?_, fun c => ⟨session_next_of_replaces h c, fun t => ⟨?_, locked_of_not_writable⟩⟩,
    passwordHash_run_of_not_replaces⟩
  · obtain ⟨rand, req, passwordHash, hInput, hHash, hNext⟩ := auth_next_of_replaces h
    refine ⟨rand, req, hInput, ?_⟩
    rw [hNext]
    exact hHash
  · rw [writable_iff_open, writable_iff_open, session_next_of_replaces h]

end Replacement

/-! ## Both channels open under the old hash -/

theorem writable_of_handshake (d : Device) (channel : Channel) {nonce rand : Bytes 8} {asked presented t : Nat}
    (ht : WithTop.some t ≤ unlockDeadline presented channel) :
    Writable (machine.next (machine.next d ⟨asked, .request channel nonce nonceRequest⟩)
      ⟨presented, .request channel rand (tokenRequest (expectedToken d.auth nonce))⟩).auth channel t := by
  have hAuth : IsAuth authSubcmdNonce nonceRequest.bytes := rfl
  have hIssued : session (machine.next d ⟨asked, .request channel nonce nonceRequest⟩).auth channel =
      (session d.auth channel).apply (respond d.auth) (.issue nonce) := by
    rw [session_next, eventAction_of_auth rfl hAuth, authAction_of_nonce hAuth]
  have hHash : respond (machine.next d ⟨asked, .request channel nonce nonceRequest⟩).auth = respond d.auth :=
    respond_eq (by cases channel <;> rfl)
  rw [writable_iff_open, session_next, eventAction_of_token rfl (isToken_tokenRequest _), credential_tokenRequest,
    hIssued, hHash]
  exact Session.open_present _ ⟨rfl, rfl⟩ ht

def bleNonceEvent : Event := ⟨2, .request .ble nonce nonceRequest⟩
def bleTokenEvent (a : Auth) : Event := ⟨3, .request .ble noRand (tokenRequest (expectedToken a nonce))⟩
def resetEvent : Event := ⟨4, .request .ble noRand ⟨[0x04, 0x03] ++ factoryWord, by decide⟩⟩

def unlockBle (d : Device) : Device := machine.next (machine.next d bleNonceEvent) (bleTokenEvent d.auth)

theorem resetAccepted_unlockBle (d : Device) : ResetAccepted (unlockBle d) resetEvent := by
  have hReset : IsAction 0x03 ([0x04, 0x03] ++ factoryWord) := rfl
  have hConfirmed : Confirmed ([0x04, 0x03] ++ factoryWord) := by decide
  have hWritable : Writable (unlockBle d).auth .ble 4 := writable_of_handshake d .ble le_top
  exact (resetAccepted_iff rfl hReset).mpr ⟨hWritable, hConfirmed⟩

theorem replaces_of_resetAccepted {d : Device} (h : ResetAccepted d resetEvent) : Replaces .ble d resetEvent := by
  obtain ⟨c, rand, req, hInput, hKind, hOk⟩ := isRequest_iff.mp h
  obtain ⟨rfl, -, -⟩ := Input.request.inj hInput
  exact requests_of_request hInput ⟨.inr hKind, hOk⟩

/-- NFC has unlocked, then BLE. -/
def bothOpen : Device := unlockBle unlocked

theorem session_bothOpen_nfc : session bothOpen.auth .nfc = ⟨nonce, false, some (WithTop.some 300001)⟩ := by
  have hToken (d : Device) (a : Auth) : eventAction .nfc d (bleTokenEvent a) = .skip := rfl
  have hNonce (d : Device) : eventAction .nfc d bleNonceEvent = .skip := rfl
  rw [bothOpen, unlockBle, session_next, hToken, Session.apply, session_next, hNonce, Session.apply, session_unlocked]

theorem replaces_resetEvent : Replaces .ble bothOpen resetEvent :=
  replaces_of_resetAccepted (resetAccepted_unlockBle unlocked)

theorem sessions_outlive_resetEvent :
    session (machine.next bothOpen resetEvent).auth .nfc = session bothOpen.auth .nfc :=
  ((sessions_outlive_replacement replaces_resetEvent).2.1 .nfc).1

theorem reachable_bothOpen : Reachable bothOpen := by
  refine ⟨unlockEvents ++ [bleNonceEvent, bleTokenEvent unlocked.auth], ?_⟩
  rw [Machine.run_append, ← unlocked, Machine.run_cons, Machine.run_cons, Machine.run_nil, bothOpen, unlockBle]

/-- A factory reset on BLE leaves the NFC window open. -/
theorem resetEvent_not_revokes :
    Reachable bothOpen ∧ Replaces .ble bothOpen resetEvent ∧ ¬ Revokes .ble bothOpen resetEvent := by
  refine ⟨reachable_bothOpen, replaces_resetEvent, fun hRevokes => ?_⟩
  have hWritable : Writable (machine.next bothOpen resetEvent).auth .nfc 4 := by
    rw [writable_iff_open, session_next_of_replaces replaces_resetEvent, session_bothOpen_nfc]
    exact ⟨_, rfl, WithTop.coe_le_coe.mpr (by decide)⟩
  have hRun : Writable (machine.run (machine.next bothOpen resetEvent) []).auth .nfc 4 := by
    rw [Machine.run_nil]
    exact hWritable
  obtain ⟨pre, token, post, hSplit, -⟩ := hRevokes.1 .nfc (by decide) [] 4 (le_refl 4) hRun
  simp at hSplit

end IotRange.Revocation
