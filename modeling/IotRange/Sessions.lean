import IotRange.Device

/-! # Sessions over whole runs

Every event is one action on each channel's session. Unlock provenance and single use of nonces
are the challenge-response rules read along a run.
-/
namespace IotRange.Sessions
open AppAuth AppFields AppProtocol AppConfig Device ChallengeResponse
set_option autoImplicit false

def Requests (channel : Channel) (P : List UInt8 → Prop) (e : Event) : Prop :=
  e.IsRequest fun c data => c = channel ∧ P data

instance (channel : Channel) (P : List UInt8 → Prop) [DecidablePred P] : DecidablePred (Requests channel P) :=
  fun _ => inferInstanceAs (Decidable (Event.IsRequest _ _))

def eventAction (channel : Channel) (d : Device) (e : Event) : SessionAction :=
  match e.input with
  | .request c rand req => if c = channel then sessionAction ⟨e.uptime, rand⟩ c req d.fields else .skip
  | .bleDisconnect => if channel = .ble then .lock else .skip

theorem session_next (channel : Channel) (d : Device) (e : Event) :
    session (machine.next d e).auth channel =
      (session d.auth channel).apply (respond d.auth) (eventAction channel d e) := by
  obtain ⟨uptime, input⟩ := e
  cases input with
  | request c rand req =>
    have hState : (machine.next d ⟨uptime, .request c rand req⟩).toAppState =
        (processAppPayload ⟨uptime, rand⟩ d.toAppState c req appProtoRespMax).1 :=
      toAppState_handleRequest ⟨uptime, rand⟩ d c req
    have hActs := acts_processAppPayload ⟨uptime, rand⟩ d.toAppState c req appProtoRespMax
    rw [hState]
    simp only [eventAction]
    split
    · rename_i hChannel
      exact hChannel ▸ hActs.session_eq
    · rename_i hChannel
      exact hActs.frame channel (Ne.symm hChannel)
  | bleDisconnect =>
    have hActs := acts_appAuthBleDisconnect d.auth
    cases channel with
    | ble => exact hActs.session_eq
    | nfc => exact hActs.frame .nfc (by decide)

section Actions

variable {channel : Channel} {d : Device} {e : Event}

theorem requests_iff {P : List UInt8 → Prop} :
    Requests channel P e ↔ ∃ rand req, e.input = .request channel rand req ∧ P req.bytes := by
  rw [Requests, isRequest_iff]
  constructor
  · rintro ⟨c, rand, req, hInput, rfl, hP⟩
    exact ⟨rand, req, hInput, hP⟩
  · rintro ⟨rand, req, hInput, hP⟩
    exact ⟨channel, rand, req, hInput, rfl, hP⟩

theorem eventAction_of_request {rand : Bytes 8} {req : Payload} (h : e.input = .request channel rand req) :
    eventAction channel d e = sessionAction ⟨e.uptime, rand⟩ channel req d.fields := by
  simp only [eventAction, h, if_true]

theorem eventAction_of_auth {subcmd : UInt8} {rand : Bytes 8} {req : Payload}
    (h : e.input = .request channel rand req) (hAuth : IsAuth subcmd req.bytes) :
    eventAction channel d e = authAction ⟨e.uptime, rand⟩ channel req.bytes :=
  (eventAction_of_request h).trans (sessionAction_of_auth (hasCmd_of_isAuth hAuth))

theorem request_of_eventAction {action : SessionAction} (h : eventAction channel d e = action)
    (hSkip : action ≠ .skip) (hLock : action ≠ .lock) :
    ∃ rand req, e.input = .request channel rand req ∧
      sessionAction ⟨e.uptime, rand⟩ channel req d.fields = action := by
  obtain ⟨uptime, input⟩ := e
  cases input with
  | request c rand req =>
    simp only [eventAction] at h
    split at h
    · rename_i hChannel
      obtain rfl := hChannel
      exact ⟨rand, req, rfl, h⟩
    · exact absurd h.symm hSkip
  | bleDisconnect =>
    simp only [eventAction] at h
    split at h
    · exact absurd h.symm hLock
    · exact absurd h.symm hSkip

theorem request_of_issue {nonce : Bytes 8} (h : eventAction channel d e = .issue nonce) :
    ∃ rand req, e.input = .request channel rand req ∧ IsAuth authSubcmdNonce req.bytes ∧ nonce = rand := by
  obtain ⟨rand, req, hInput, hAction⟩ := request_of_eventAction h nofun nofun
  exact ⟨rand, req, hInput, isAuth_of_issue (authAction_of_sessionAction hAction nofun)⟩

theorem request_of_present {token : List UInt8} {deadline : WithTop Nat}
    (h : eventAction channel d e = .present token deadline) :
    ∃ rand req, e.input = .request channel rand req ∧ IsToken req.bytes ∧ token = credential req.bytes ∧
      deadline = unlockDeadline e.uptime channel := by
  obtain ⟨rand, req, hInput, hAction⟩ := request_of_eventAction h nofun nofun
  exact ⟨rand, req, hInput, isToken_of_present (authAction_of_sessionAction hAction nofun)⟩

theorem requests_of_lock (h : eventAction channel d e = .lock) :
    Requests channel (IsAuth authSubcmdLock) e ∨ (channel = .ble ∧ e.input = .bleDisconnect) := by
  obtain ⟨uptime, input⟩ := e
  cases input with
  | request c rand req =>
    simp only [eventAction] at h
    split at h
    · rename_i hChannel
      exact .inl ⟨hChannel, isAuth_of_lock (authAction_of_sessionAction h nofun)⟩
    · cases h
  | bleDisconnect =>
    simp only [eventAction] at h
    split at h
    · rename_i hChannel
      exact .inr ⟨hChannel, rfl⟩
    · cases h

theorem now_of_expire {now : WithTop Nat} (h : eventAction channel d e = .expire now) :
    now = WithTop.some e.uptime := by
  obtain ⟨rand, req, -, hAction⟩ := request_of_eventAction h nofun nofun
  exact sessionAction_expire hAction

theorem eventAction_of_nonce (h : Requests channel (IsAuth authSubcmdNonce) e) :
    ∃ nonce, eventAction channel d e = .issue nonce := by
  obtain ⟨rand, req, hInput, hNonce⟩ := requests_iff.mp h
  exact ⟨rand, (eventAction_of_auth hInput hNonce).trans (authAction_of_nonce hNonce)⟩

theorem eventAction_of_lock (h : Requests channel (IsAuth authSubcmdLock) e) : eventAction channel d e = .lock := by
  obtain ⟨rand, req, hInput, hLock⟩ := requests_iff.mp h
  exact (eventAction_of_auth hInput hLock).trans (authAction_of_lock hLock)

theorem eventAction_of_token {rand : Bytes 8} {req : Payload} (h : e.input = .request channel rand req)
    (hToken : IsToken req.bytes) :
    eventAction channel d e = .present (credential req.bytes) (unlockDeadline e.uptime channel) :=
  (eventAction_of_auth h hToken.1).trans (authAction_of_token hToken)

theorem eventAction_of_disconnect (h : e.input = .bleDisconnect) : eventAction .ble d e = .lock := by
  simp only [eventAction, h, if_true]

theorem output_of_auth {rand : Bytes 8} {req : Payload} (h : e.input = .request channel rand req)
    (hAuth : HasCmd cmdAuth req.bytes) :
    machine.output d e = authReply (respond d.auth) (session d.auth channel) ⟨e.uptime, rand⟩ req.bytes := by
  rw [output_of_request h (not_isOta_of_hasCmd hAuth (by decide) (by decide) (by decide)),
    processAppPayload_of_auth hAuth]
  exact reply_appAuthHandleCmd ⟨e.uptime, rand⟩ d.auth channel req.bytes

end Actions

theorem run_concat (es : List Event) (e : Event) :
    machine.run boot (es ++ [e]) = machine.next (machine.run boot es) e := by
  rw [Machine.run_append, Machine.run_cons, Machine.run_nil]

/-! ## Unlock provenance -/

open History

def Issues (channel : Channel) (nonce : Bytes 8) (pre : List Event) (e : Event) : Prop :=
  Requests channel (IsAuth authSubcmdNonce) e ∧
    machine.output (machine.run boot pre) e = [cmdAuth, Status.ok.code, authSubcmdNonce] ++ nonce.toList

def LatestNonce (channel : Channel) (es : List Event) (nonce : Bytes 8) : Prop :=
  Since (Issues channel nonce) (fun _ e => ¬ Requests channel (IsAuth authSubcmdNonce) e) es

/-- A TOKEN request that is compared with the expected token of the stored nonce. -/
def Compared (channel : Channel) (d : Device) (e : Event) : Prop :=
  Requests channel IsToken e ∧ channelNonceValid d.auth channel = true

def Mismatched (channel : Channel) (d : Device) (e : Event) : Prop :=
  Compared channel d e ∧
    Requests channel (fun data => credential data ≠ (expectedToken d.auth (channelNonce d.auth channel)).toList) e

/-- A TOKEN request answering the latest nonce under the password hash of its moment, late enough for `t`. -/
def Unlocks (channel : Channel) (t : Nat) (pre : List Event) (e : Event) : Prop :=
  Requests channel IsToken e ∧
    (∃ nonce, LatestNonce channel pre nonce ∧
      Requests channel (fun data => credential data = (expectedToken (machine.run boot pre).auth nonce).toList) e) ∧
    (channel = .nfc → t ≤ e.uptime + nfcAuthWindowMs)

/-- No LOCK and no mismatched TOKEN on the channel, and for BLE no disconnect. -/
def Undisturbed (channel : Channel) (pre : List Event) (e : Event) : Prop :=
  ¬ Requests channel (IsAuth authSubcmdLock) e ∧ ¬ Mismatched channel (machine.run boot pre) e ∧
    (channel = .ble → e.input ≠ .bleDisconnect)

theorem latestNonce_of_live (channel : Channel) (es : List Event)
    (h : channelNonceValid (machine.run boot es).auth channel = true) :
    LatestNonce channel es (channelNonce (machine.run boot es).auth channel) := by
  generalize hNonce : channelNonce (machine.run boot es).auth channel = nonce
  let raised := fun es : List Event => channelNonceValid (machine.run boot es).auth channel = true ∧
    channelNonce (machine.run boot es).auth channel = nonce
  refine since_of_raised raised ?_ ?_ es ⟨h, hNonce⟩
  · rintro ⟨hBoot, -⟩
    cases channel <;> cases hBoot
  · rintro es e ⟨hLive, hNonce⟩
    rw [run_concat, ← live_session, session_next] at hLive
    rw [run_concat, ← challenge_session, session_next] at hNonce
    rcases Session.live_apply _ hLive with ⟨issued, hAction, hChallenge⟩ | ⟨hBefore, hSame, hNoIssue, -, -⟩
    · left
      obtain ⟨rand, req, hInput, hAuth, rfl⟩ := request_of_issue hAction
      refine ⟨requests_iff.mpr ⟨issued, req, hInput, hAuth⟩, ?_⟩
      rw [output_of_auth hInput (hasCmd_of_isAuth hAuth)]
      obtain ⟨hCmd, hSub⟩ := isAuth_iff.mp hAuth
      rw [authReply_of_nonce hCmd hSub, ← hNonce, hChallenge]
    · right
      rw [live_session] at hBefore
      rw [hSame, challenge_session] at hNonce
      refine ⟨⟨hBefore, hNonce⟩, ?_⟩
      intro hRequest
      obtain ⟨issued, hAction⟩ := eventAction_of_nonce hRequest
      exact hNoIssue issued hAction

theorem not_writable_boot (channel : Channel) (t : Nat) : ¬ Writable boot.auth channel t := by
  cases channel <;> nofun

theorem requests_of_request {channel : Channel} {e : Event} {rand : Bytes 8} {req : Payload} {P : List UInt8 → Prop}
    (h : e.input = .request channel rand req) (hP : P req.bytes) : Requests channel P e :=
  requests_iff.mpr ⟨rand, req, h, hP⟩

theorem rejects_of_mismatched {channel : Channel} {d : Device} {e : Event} (h : Mismatched channel d e) :
    ∃ token deadline, eventAction channel d e = .present token deadline ∧
      (session d.auth channel).Rejects (respond d.auth) token := by
  obtain ⟨⟨hToken, hValid⟩, hWrong⟩ := h
  obtain ⟨rand, req, hInput, hToken⟩ := requests_iff.mp hToken
  obtain ⟨rand', req', hInput', hWrong⟩ := requests_iff.mp hWrong
  obtain ⟨-, rfl, rfl⟩ := Input.request.inj (hInput.symm.trans hInput')
  refine ⟨_, _, eventAction_of_token hInput hToken, ?_, ?_⟩
  · rwa [live_session]
  · rwa [challenge_session]

/-- A writable channel was unlocked by the right token and nothing has locked it since. -/
theorem unlock_provenance (channel : Channel) (es : List Event) (t : Nat)
    (h : Writable (machine.run boot es).auth channel t) : Since (Unlocks channel t) (Undisturbed channel) es := by
  refine since_of_raised (fun es => Writable (machine.run boot es).auth channel t) ?_ ?_ es h
  · exact not_writable_boot channel t
  · intro es e hWritable
    rw [run_concat, writable_iff_open, session_next] at hWritable
    rcases Session.open_apply _ hWritable with
      ⟨token, deadline, hAction, hAccepts, hDeadline⟩ | ⟨hOpen, hLock, hReject⟩
    · left
      obtain ⟨rand, req, hInput, hToken, rfl, rfl⟩ := request_of_present hAction
      refine ⟨requests_of_request hInput hToken, ?_, ?_⟩
      · have hLive := (live_session _ _).symm.trans hAccepts.1
        refine ⟨_, latestNonce_of_live channel es hLive, requests_of_request hInput ?_⟩
        rw [hAccepts.2, challenge_session]
        rfl
      · rintro rfl
        exact WithTop.coe_le_coe.mp hDeadline
    · right
      refine ⟨(writable_iff_open _ _ _).mpr hOpen, ?_, ?_, ?_⟩
      · intro hRequest
        exact hLock (eventAction_of_lock hRequest)
      · intro hMismatched
        obtain ⟨token, deadline, hAction, hRejects⟩ := rejects_of_mismatched hMismatched
        exact hReject token deadline hAction hRejects
      · rintro rfl hDisconnect
        exact hLock (eventAction_of_disconnect hDisconnect)

def nonceRequest : Payload := ⟨[0x03, 0x01], by decide⟩

def tokenRequest (token : Bytes 32) : Payload :=
  ⟨[0x03, 0x02] ++ token.toList, by rw [List.length_append, List.Vector.toList_length]; decide⟩

theorem isToken_tokenRequest (token : Bytes 32) : IsToken (tokenRequest token).bytes := by
  refine ⟨rfl, ?_⟩
  rw [tokenRequest, List.length_append, List.Vector.toList_length]
  decide

theorem credential_tokenRequest (token : Bytes 32) : credential (tokenRequest token).bytes = token.toList :=
  List.take_of_length_le (le_of_eq token.toList_length)

def unlockRun : List Event :=
  [⟨1, .request .nfc (List.Vector.replicate 8 0x5A) nonceRequest⟩,
    ⟨2, .request .nfc (List.Vector.replicate 8 0)
      (tokenRequest (expectedToken boot.auth (List.Vector.replicate 8 0x5A)))⟩]

theorem writable_unlockRun : Writable (machine.run boot unlockRun).auth .nfc 300002 := by
  rw [writable_iff_open, unlockRun, Machine.run_cons, Machine.run_cons, Machine.run_nil, session_next,
    eventAction_of_token rfl (isToken_tokenRequest _), credential_tokenRequest]
  refine Session.open_present _ ⟨rfl, rfl⟩ ?_
  exact WithTop.coe_le_coe.mpr (by decide)

theorem unlock_provenance_unlockRun : Since (Unlocks .nfc 300002) (Undisturbed .nfc) unlockRun :=
  unlock_provenance .nfc unlockRun 300002 writable_unlockRun

/-! ## Nonces are used once -/

instance (channel : Channel) : DecidableRel (Compared channel) :=
  fun _ _ => inferInstanceAs (Decidable (_ ∧ _))

def Consumes (channel : Channel) (d : Device) (e : Event) : Prop :=
  Compared channel d e ∨ Requests channel (IsAuth authSubcmdLock) e ∨ (channel = .ble ∧ e.input = .bleDisconnect)

theorem oneShot (channel : Channel) :
    machine.OneShot (fun d => channelNonceValid d.auth channel = true)
      (fun _ e => Requests channel (IsAuth authSubcmdNonce) e) (Compared channel) where
  required := fun _ _ h => h.2
  spent := by
    rintro d e ⟨hToken, -⟩ hValid
    obtain ⟨rand, req, hInput, hToken⟩ := requests_iff.mp hToken
    rw [← live_session, session_next, eventAction_of_token hInput hToken, Session.live_apply_present] at hValid
    cases hValid
  armedOnly := by
    intro d e hValid
    rw [← live_session, session_next] at hValid
    rcases Session.live_apply _ hValid with ⟨nonce, hAction, -⟩ | ⟨hLive, -⟩
    · right
      obtain ⟨rand, req, hInput, hAuth, -⟩ := request_of_issue hAction
      exact requests_of_request hInput hAuth
    · left
      rwa [live_session] at hLive

theorem not_valid_of_consumes {channel : Channel} {d : Device} {e : Event} (h : Consumes channel d e) :
    ¬ channelNonceValid (machine.next d e).auth channel = true := by
  rcases h with hCompared | hLock | ⟨rfl, hDisconnect⟩
  · exact (oneShot channel).spent d e hCompared
  · rw [← live_session, session_next, eventAction_of_lock hLock]
    nofun
  · rw [← live_session, session_next, eventAction_of_disconnect hDisconnect]
    nofun

theorem refused_of_not_valid {channel : Channel} {d : Device} {e : Event} (h : Requests channel IsToken e)
    (hValid : ¬ channelNonceValid d.auth channel = true) :
    machine.output d e = [cmdAuth, Status.authState.code, authSubcmdToken, authStateLocked] ∧
      (machine.next d e).auth = d.auth := by
  obtain ⟨rand, req, hInput, hToken⟩ := requests_iff.mp h
  have hHandled : processAppPayload ⟨e.uptime, rand⟩ d.toAppState channel req appProtoRespMax =
      (d.toAppState, [cmdAuth, Status.authState.code, authSubcmdToken, authStateLocked]) := by
    rw [processAppPayload_of_auth (hasCmd_of_isAuth hToken.1), appAuthHandleCmd_of_not_valid hToken hValid]
  constructor
  · rw [output_of_request hInput (not_isOta_of_isAuth hToken.1), hHandled]
  · rw [auth_next_of_request hInput, hHandled]

/-- A consumed nonce never answers again, and comparisons pay for themselves with NONCE requests. -/
theorem nonce_single_use (channel : Channel) :
    (∀ d e mid tok, Consumes channel d e → (∀ m ∈ mid, ¬ Requests channel (IsAuth authSubcmdNonce) m) →
      Requests channel IsToken tok →
        machine.output (machine.run (machine.next d e) mid) tok =
            [cmdAuth, Status.authState.code, authSubcmdToken, authStateLocked] ∧
          (machine.next (machine.run (machine.next d e) mid) tok).auth =
            (machine.run (machine.next d e) mid).auth) ∧
      (∀ d seg, (∀ m ∈ seg, ¬ Requests channel (IsAuth authSubcmdNonce) m) →
        (machine.situations d seg).countP (fun p => Compared channel p.1 p.2) ≤ 1) ∧
      ∀ es, (machine.situations boot es).countP (fun p => Compared channel p.1 p.2) ≤
        es.countP (fun e => Requests channel (IsAuth authSubcmdNonce) e) := by
  refine ⟨?_, ?_, ?_⟩
  · intro d e mid tok hConsumes hMid hToken
    exact refused_of_not_valid hToken
      ((oneShot channel).unarmed_run (not_valid_of_consumes hConsumes) (machine.forall_situations hMid))
  · intro d seg hSeg
    exact (oneShot channel).countP_uses_le_one d seg (machine.forall_situations hSeg)
  · intro es
    have hCount := (oneShot channel).countP_uses_le boot es
    have hBoot : Machine.held (fun d : Device => channelNonceValid d.auth channel = true) boot = 0 := by
      cases channel <;> rfl
    rw [hBoot, machine.countP_situations (fun e => Requests channel (IsAuth authSubcmdNonce) e)] at hCount
    omega

end IotRange.Sessions
