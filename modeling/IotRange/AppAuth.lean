import IotRange.AppAuth.Sha256
import IotRange.AppProtocol.Constants
import IotRange.Library.ChallengeResponse
import Mathlib.Order.WithBot

/-! # Authentication and sessions (app_auth.c)

The module's variables are one record that every call passes on; the clock and the random source
are read through the request's environment. Each channel's nonce and unlock state is one
challenge-response session: `session` reads it off, and every operation is one action on it.
-/
namespace IotRange.AppAuth
open AppProtocol
set_option autoImplicit false

/-- `k_uptime_get()` and the bytes `sys_rand_get` delivers while one request is handled. -/
structure Env where
  uptime : Nat
  rand : Bytes 8

structure Auth where
  passwordHash : Bytes 32
  nonceBle : Bytes 8
  nonceBleValid : Bool
  nonceNfc : Bytes 8
  nonceNfcValid : Bool
  bleUnlocked : Bool
  nfcAuthUntilMs : Nat

def gSn : List UInt8 := ascii ['1', '2', '3', '4', '5', '6']
def gSalt : List UInt8 :=
  ascii ['R', 'L', '_', 'R', 'A', 'N', 'G', 'E', '_', 'A', 'U', 'T', 'H', '_', 'V', '1']
def defaultPassword : List UInt8 := ascii ['1', '2', '3', '4', '5', '6']
def nfcAuthWindowMs : Nat := 5 * 60 * 1000

/-- The static initialisers. -/
def Auth.static : Auth where
  passwordHash := List.Vector.replicate 32 0
  nonceBle := List.Vector.replicate 8 0
  nonceBleValid := false
  nonceNfc := List.Vector.replicate 8 0
  nonceNfcValid := false
  bleUnlocked := false
  nfcAuthUntilMs := 0

def channelNonce (a : Auth) : Channel → Bytes 8
  | .ble => a.nonceBle
  | .nfc => a.nonceNfc

def setChannelNonce (a : Auth) (channel : Channel) (nonce : Bytes 8) : Auth :=
  match channel with
  | .ble => { a with nonceBle := nonce }
  | .nfc => { a with nonceNfc := nonce }

def channelNonceValid (a : Auth) : Channel → Bool
  | .ble => a.nonceBleValid
  | .nfc => a.nonceNfcValid

def setChannelNonceValid (a : Auth) (channel : Channel) (valid : Bool) : Auth :=
  match channel with
  | .ble => { a with nonceBleValid := valid }
  | .nfc => { a with nonceNfcValid := valid }

def channelLock (a : Auth) (channel : Channel) : Auth :=
  match channel with
  | .ble => setChannelNonceValid { a with bleUnlocked := false } .ble false
  | .nfc => setChannelNonceValid { a with nfcAuthUntilMs := 0 } .nfc false

def channelUnlock (uptime : Nat) (a : Auth) (channel : Channel) : Auth :=
  match channel with
  | .ble => { a with bleUnlocked := true }
  | .nfc => { a with nfcAuthUntilMs := uptime + nfcAuthWindowMs }

def appAuthInit (a : Auth) : Auth :=
  { a with passwordHash := computePasswordHash defaultPassword gSn gSalt }

def appAuthResetPassword (a : Auth) : Auth :=
  { a with passwordHash := computePasswordHash defaultPassword gSn gSalt }

/-- The hash that both of them store. -/
def defaultPasswordHash : Bytes 32 := computePasswordHash defaultPassword gSn gSalt

def appAuthCheckWrite (uptime : Nat) (a : Auth) (channel : Channel) : Status × Auth :=
  match channel with
  | .ble => if a.bleUnlocked then (.ok, a) else (.authRequired, a)
  | .nfc =>
    if 0 < a.nfcAuthUntilMs then
      if uptime ≤ a.nfcAuthUntilMs then (.ok, a)
      else (.authExpired, { a with nfcAuthUntilMs := 0 })
    else (.authRequired, a)

def expectedToken (a : Auth) (nonce : Bytes 8) : Bytes 32 :=
  hmacSha256 a.passwordHash.toList (nonce.toList ++ gSn)

/-- `&data[2]`, 32 bytes. -/
def credential (data : List UInt8) : List UInt8 := (data.drop 2).take 32

theorem length_credential {data : List UInt8} (h : ¬ data.length < 34) : (credential data).length = 32 := by
  simp only [credential, List.length_take, List.length_drop]
  omega

/-- The switch case of TOKEN. -/
def authToken (env : Env) (a : Auth) (data : List UInt8) (channel : Channel) : Auth × List UInt8 :=
  if data.length < 34 then (a, [cmdAuth, Status.paramLen.code, authSubcmdToken])
  else if !channelNonceValid a channel then
    (a, [cmdAuth, Status.authState.code, authSubcmdToken, authStateLocked])
  else
    let expected := expectedToken a (channelNonce a channel)
    let diff := xorDiff expected.toList (credential data)
    let a := setChannelNonceValid a channel false
    if diff = 0 then
      (channelUnlock env.uptime a channel, [cmdAuth, Status.ok.code, authSubcmdToken, authStateUnlocked])
    else (channelLock a channel, [cmdAuth, Status.authFailed.code, authSubcmdToken, authStateLocked])

/-- The switch case of CHANGE_PWD. -/
def authChangePwd (env : Env) (a : Auth) (data : List UInt8) (channel : Channel) : Auth × List UInt8 :=
  let (st, a) := appAuthCheckWrite env.uptime a channel
  if st ≠ .ok then (a, [cmdAuth, st.code, authSubcmdChangePwd])
  else if h : data.length < 34 then (a, [cmdAuth, Status.paramLen.code, authSubcmdChangePwd])
  else
    ({ a with passwordHash := ⟨credential data, length_credential h⟩ },
      [cmdAuth, Status.ok.code, authSubcmdChangePwd])

def appAuthHandleCmd (env : Env) (a : Auth) (data : List UInt8) (channel : Channel) : Auth × List UInt8 :=
  if data.length < 2 ∨ byteAt data 0 ≠ cmdAuth then (a, [])
  else
    match byteAt data 1 with
    | authSubcmdNonce =>
      let a := setChannelNonceValid (setChannelNonce a channel env.rand) channel true
      (a, [cmdAuth, Status.ok.code, authSubcmdNonce] ++ (channelNonce a channel).toList)
    | authSubcmdToken => authToken env a data channel
    | authSubcmdChangePwd => authChangePwd env a data channel
    | authSubcmdLock => (channelLock a channel, [cmdAuth, Status.ok.code, authSubcmdLock])
    | subcmd => (a, [cmdAuth, Status.unsupported.code, subcmd])

def appAuthBleDisconnect (a : Auth) : Auth := { a with bleUnlocked := false, nonceBleValid := false }

/-! ## Sessions -/

open ChallengeResponse

/-- BLE stays unlocked for the connection, so its deadline is `⊤`; an NFC window of 0 is none. -/
def session (a : Auth) : Channel → Session (Bytes 8) (WithTop Nat)
  | .ble => ⟨a.nonceBle, a.nonceBleValid, if a.bleUnlocked then some ⊤ else none⟩
  | .nfc =>
    ⟨a.nonceNfc, a.nonceNfcValid, if a.nfcAuthUntilMs = 0 then none else some (WithTop.some a.nfcAuthUntilMs)⟩

def respond (a : Auth) (nonce : Bytes 8) : List UInt8 := (expectedToken a nonce).toList

abbrev SessionAction := Action (Bytes 8) (List UInt8) (WithTop Nat)

def unlockDeadline (uptime : Nat) : Channel → WithTop Nat
  | .ble => ⊤
  | .nfc => WithTop.some (uptime + nfcAuthWindowMs)

def tokenAction (env : Env) (channel : Channel) (data : List UInt8) : SessionAction :=
  if data.length < 34 then .skip else .present (credential data) (unlockDeadline env.uptime channel)

/-- What a CMD 0x03 request asks of its channel's session. -/
def authAction (env : Env) (channel : Channel) (data : List UInt8) : SessionAction :=
  if data.length < 2 ∨ byteAt data 0 ≠ cmdAuth then .skip
  else
    match byteAt data 1 with
    | authSubcmdNonce => .issue env.rand
    | authSubcmdToken => tokenAction env channel data
    | authSubcmdChangePwd => .expire (WithTop.some env.uptime)
    | authSubcmdLock => .lock
    | _ => .skip

def checkStatus (s : Session (Bytes 8) (WithTop Nat)) (uptime : Nat) : Status :=
  match s.openUntil with
  | none => .authRequired
  | some deadline => if WithTop.some uptime ≤ deadline then .ok else .authExpired

def tokenReply (respond : Bytes 8 → List UInt8) (s : Session (Bytes 8) (WithTop Nat))
    (data : List UInt8) : List UInt8 :=
  if data.length < 34 then [cmdAuth, Status.paramLen.code, authSubcmdToken]
  else if !s.live then [cmdAuth, Status.authState.code, authSubcmdToken, authStateLocked]
  else if credential data = respond s.challenge then
    [cmdAuth, Status.ok.code, authSubcmdToken, authStateUnlocked]
  else [cmdAuth, Status.authFailed.code, authSubcmdToken, authStateLocked]

def changePwdReply (status : Status) (data : List UInt8) : List UInt8 :=
  if status ≠ .ok then [cmdAuth, status.code, authSubcmdChangePwd]
  else if data.length < 34 then [cmdAuth, Status.paramLen.code, authSubcmdChangePwd]
  else [cmdAuth, Status.ok.code, authSubcmdChangePwd]

def authReply (respond : Bytes 8 → List UInt8) (s : Session (Bytes 8) (WithTop Nat)) (env : Env)
    (data : List UInt8) : List UInt8 :=
  if data.length < 2 ∨ byteAt data 0 ≠ cmdAuth then []
  else
    match byteAt data 1 with
    | authSubcmdNonce => [cmdAuth, Status.ok.code, authSubcmdNonce] ++ env.rand.toList
    | authSubcmdToken => tokenReply respond s data
    | authSubcmdChangePwd => changePwdReply (checkStatus s env.uptime) data
    | authSubcmdLock => [cmdAuth, Status.ok.code, authSubcmdLock]
    | subcmd => [cmdAuth, Status.unsupported.code, subcmd]

theorem authReply_of_nonce {respond : Bytes 8 → List UInt8} {s : Session (Bytes 8) (WithTop Nat)} {env : Env}
    {data : List UInt8} (hCmd : ¬ (data.length < 2 ∨ byteAt data 0 ≠ cmdAuth))
    (hSub : byteAt data 1 = authSubcmdNonce) :
    authReply respond s env data = [cmdAuth, Status.ok.code, authSubcmdNonce] ++ env.rand.toList := by
  rw [authReply, if_neg hCmd, hSub]
  rfl

theorem authReply_of_changePwd {respond : Bytes 8 → List UInt8} {s : Session (Bytes 8) (WithTop Nat)} {env : Env}
    {data : List UInt8} (hCmd : ¬ (data.length < 2 ∨ byteAt data 0 ≠ cmdAuth))
    (hSub : byteAt data 1 = authSubcmdChangePwd) :
    authReply respond s env data = changePwdReply (checkStatus s env.uptime) data := by
  rw [authReply, if_neg hCmd, hSub]
  rfl

def Writable (a : Auth) (channel : Channel) (uptime : Nat) : Prop :=
  (appAuthCheckWrite uptime a channel).1 = .ok

instance (a : Auth) (channel : Channel) (uptime : Nat) : Decidable (Writable a channel uptime) :=
  inferInstanceAs (Decidable (_ = _))

theorem writable_iff_open (a : Auth) (channel : Channel) (uptime : Nat) :
    Writable a channel uptime ↔ (session a channel).Open (WithTop.some uptime) := by
  cases channel with
  | ble => cases hUnlocked : a.bleUnlocked <;> simp [Writable, appAuthCheckWrite, session, Session.Open, hUnlocked]
  | nfc =>
    unfold Writable appAuthCheckWrite session Session.Open
    by_cases hZero : a.nfcAuthUntilMs = 0
    · simp [hZero]
    · by_cases hNow : uptime ≤ a.nfcAuthUntilMs <;> simp [hZero, hNow, Nat.pos_of_ne_zero hZero]

@[simp] theorem challenge_session (a : Auth) (channel : Channel) :
    (session a channel).challenge = channelNonce a channel := by
  cases channel <;> rfl

@[simp] theorem live_session (a : Auth) (channel : Channel) :
    (session a channel).live = channelNonceValid a channel := by
  cases channel <;> rfl

theorem xorDiff_credential_iff (a : Auth) (nonce : Bytes 8) {data : List UInt8} (h : ¬ data.length < 34) :
    xorDiff (expectedToken a nonce).toList (credential data) = 0 ↔ credential data = respond a nonce := by
  rw [xorDiff_eq_zero_iff (by rw [List.Vector.toList_length, length_credential h]), respond, eq_comm]

/-! ## Each operation is an action on its channel's session -/

/-- `a'` comes from `a` by an action on one channel's session; the other session is the same. -/
structure Acts (a a' : Auth) (channel : Channel) (action : SessionAction) : Prop where
  session_eq : session a' channel = (session a channel).apply (respond a) action
  frame : ∀ c ≠ channel, session a' c = session a c

section Operations

variable (env : Env) (a : Auth) (channel : Channel) (data : List UInt8)

theorem Acts.skip : Acts a a channel .skip := ⟨rfl, fun _ _ => rfl⟩

@[simp] theorem session_appAuthResetPassword (c : Channel) :
    session (appAuthResetPassword a) c = session a c := by
  cases c <;> rfl

theorem acts_channelLock : Acts a (channelLock a channel) channel .lock := by
  constructor
  · cases channel <;> rfl
  · intro c hc
    cases channel <;> cases c <;> first | rfl | contradiction

theorem session_channelUnlock (uptime : Nat) :
    session (channelUnlock uptime a channel) channel =
      { session a channel with openUntil := some (unlockDeadline uptime channel) } := by
  cases channel with
  | ble => rfl
  | nfc =>
    have hPos : (channelUnlock uptime a .nfc).nfcAuthUntilMs ≠ 0 := by
      simp [channelUnlock, nfcAuthWindowMs]
    simp only [session, if_neg hPos]
    rfl

theorem session_setChannelNonceValid (valid : Bool) :
    session (setChannelNonceValid a channel valid) channel = { session a channel with live := valid } := by
  cases channel <;> rfl

theorem acts_appAuthBleDisconnect : Acts a (appAuthBleDisconnect a) .ble .lock := by
  constructor
  · rfl
  · intro c hc
    cases c with
    | ble => contradiction
    | nfc => rfl

theorem acts_issue :
    Acts a (setChannelNonceValid (setChannelNonce a channel env.rand) channel true) channel
      (.issue env.rand) := by
  constructor
  · cases channel <;> rfl
  · intro c hc
    cases channel <;> cases c <;> first | rfl | contradiction

theorem appAuthCheckWrite_eq_or (uptime : Nat) :
    (appAuthCheckWrite uptime a channel).2 = a ∨
      (channel = .nfc ∧ 0 < a.nfcAuthUntilMs ∧ a.nfcAuthUntilMs < uptime ∧
        appAuthCheckWrite uptime a channel = (.authExpired, { a with nfcAuthUntilMs := 0 })) := by
  cases channel with
  | ble =>
    left
    simp only [appAuthCheckWrite]
    split <;> rfl
  | nfc =>
    unfold appAuthCheckWrite
    by_cases hPos : 0 < a.nfcAuthUntilMs
    · by_cases hNow : uptime ≤ a.nfcAuthUntilMs
      · left
        simp [hPos, hNow]
      · right
        rw [if_pos hPos, if_neg hNow]
        exact ⟨rfl, hPos, not_le.mp hNow, rfl⟩
    · left
      simp [hPos]

@[simp] theorem passwordHash_appAuthCheckWrite (uptime : Nat) :
    (appAuthCheckWrite uptime a channel).2.passwordHash = a.passwordHash := by
  rcases appAuthCheckWrite_eq_or a channel uptime with h | ⟨-, -, -, h⟩ <;> rw [h]

theorem appAuthCheckWrite_of_writable {uptime : Nat} (h : Writable a channel uptime) :
    appAuthCheckWrite uptime a channel = (.ok, a) := by
  rcases appAuthCheckWrite_eq_or a channel uptime with hEq | ⟨-, -, -, hEq⟩
  · exact Prod.ext h hEq
  · rw [Writable, hEq] at h
    cases h

theorem appAuthCheckWrite_fst (uptime : Nat) :
    (appAuthCheckWrite uptime a channel).1 = checkStatus (session a channel) uptime := by
  cases channel with
  | ble => cases hUnlocked : a.bleUnlocked <;> simp [session, appAuthCheckWrite, checkStatus, hUnlocked]
  | nfc =>
    by_cases hZero : a.nfcAuthUntilMs = 0
    · simp [session, appAuthCheckWrite, checkStatus, hZero]
    · by_cases hNow : uptime ≤ a.nfcAuthUntilMs <;>
        simp [session, appAuthCheckWrite, checkStatus, hZero, hNow, Nat.pos_of_ne_zero hZero]

theorem acts_appAuthCheckWrite (uptime : Nat) :
    Acts a (appAuthCheckWrite uptime a channel).2 channel (.expire (WithTop.some uptime)) := by
  constructor
  · cases channel with
    | ble => cases hUnlocked : a.bleUnlocked <;> simp [session, appAuthCheckWrite, Session.apply, hUnlocked]
    | nfc =>
      by_cases hZero : a.nfcAuthUntilMs = 0
      · simp [session, appAuthCheckWrite, Session.apply, hZero]
      · by_cases hNow : uptime ≤ a.nfcAuthUntilMs <;>
          simp [session, appAuthCheckWrite, Session.apply, hZero, hNow, Nat.pos_of_ne_zero hZero]
  · intro c hc
    rcases appAuthCheckWrite_eq_or a channel uptime with hEq | ⟨rfl, -, -, hEq⟩
    · rw [hEq]
    · rw [hEq]
      cases c with
      | ble => rfl
      | nfc => contradiction

theorem acts_authToken : Acts a (authToken env a data channel).1 channel (tokenAction env channel data) := by
  unfold authToken tokenAction
  by_cases hLength : data.length < 34
  · simp only [if_pos hLength]
    exact Acts.skip a channel
  · simp only [if_neg hLength, xorDiff_credential_iff _ _ hLength]
    cases hValid : channelNonceValid a channel with
    | false =>
      refine ⟨?_, fun _ _ => rfl⟩
      rw [Session.apply_present_of_not_live _ (by simpa using hValid)]
      rfl
    | true =>
      have hLive : (session a channel).live = true := by simpa using hValid
      simp only [Bool.not_true, Bool.false_eq_true, if_false]
      split
      · rename_i hToken
        refine ⟨?_, ?_⟩
        · rw [Session.apply, if_pos hLive, if_pos (by simpa using hToken), session_channelUnlock,
            session_setChannelNonceValid]
        · intro c hc
          cases channel <;> cases c <;> first | rfl | contradiction
      · rename_i hToken
        refine ⟨?_, ?_⟩
        · rw [Session.apply, if_pos hLive, if_neg (by simpa using hToken)]
          cases channel <;> rfl
        · intro c hc
          cases channel <;> cases c <;> first | rfl | contradiction

theorem reply_authToken :
    (authToken env a data channel).2 = tokenReply (respond a) (session a channel) data := by
  unfold authToken tokenReply
  by_cases hLength : data.length < 34
  · simp only [if_pos hLength]
  · simp only [if_neg hLength, live_session, challenge_session, xorDiff_credential_iff _ _ hLength]
    split
    · rfl
    · split <;> rfl

theorem acts_authChangePwd : Acts a (authChangePwd env a data channel).1 channel
    (.expire (WithTop.some env.uptime)) := by
  have hCheck := acts_appAuthCheckWrite a channel env.uptime
  unfold authChangePwd
  split
  rename_i st a' hEq
  rw [hEq] at hCheck
  split
  · exact hCheck
  · split
    · exact hCheck
    · refine ⟨?_, ?_⟩
      · rw [← hCheck.session_eq]
        cases channel <;> rfl
      · intro c hc
        rw [← hCheck.frame c hc]
        cases c <;> rfl

theorem reply_authChangePwd :
    (authChangePwd env a data channel).2 =
      changePwdReply (checkStatus (session a channel) env.uptime) data := by
  rw [← appAuthCheckWrite_fst]
  unfold authChangePwd changePwdReply
  split
  rename_i st a' hEq
  simp only [hEq]
  split
  · rfl
  · split <;> rfl

theorem passwordHash_authChangePwd :
    (authChangePwd env a data channel).1.passwordHash = a.passwordHash ∨
      (Writable a channel env.uptime ∧ ¬ data.length < 34 ∧
        (authChangePwd env a data channel).2 = [cmdAuth, Status.ok.code, authSubcmdChangePwd]) := by
  have hHash := passwordHash_appAuthCheckWrite a channel env.uptime
  unfold authChangePwd
  split
  rename_i st a' hEq
  rw [hEq] at hHash
  split
  · exact .inl hHash
  · rename_i hSt
    split
    · exact .inl hHash
    · rename_i hLength
      refine .inr ⟨?_, hLength, rfl⟩
      rw [Writable, hEq]
      exact not_not.mp hSt

/-- An accepted CHANGE_PWD replaces the hash and nothing else. -/
theorem authChangePwd_of_answeredOk (h : (authChangePwd env a data channel).2[1]? = some Status.ok.code) :
    Writable a channel env.uptime ∧ ∃ hLength : ¬ data.length < 34,
      (authChangePwd env a data channel).1 =
        { a with passwordHash := ⟨credential data, length_credential hLength⟩ } := by
  by_cases hWritable : Writable a channel env.uptime
  · refine ⟨hWritable, ?_⟩
    simp only [authChangePwd, appAuthCheckWrite_of_writable a channel hWritable, ne_eq, not_true_eq_false, if_false]
      at h ⊢
    split at h
    · cases h
    · rename_i hLength
      exact ⟨hLength, by rw [dif_neg hLength]⟩
  · have hStatus : (appAuthCheckWrite env.uptime a channel).1 ≠ .ok := hWritable
    simp only [authChangePwd, if_pos hStatus] at h
    exact absurd (Status.code_injective (Option.some.inj h)) hStatus

theorem passwordHash_authToken : (authToken env a data channel).1.passwordHash = a.passwordHash := by
  unfold authToken
  split
  · rfl
  · split
    · rfl
    · dsimp only
      split <;> cases channel <;> rfl

theorem acts_appAuthHandleCmd :
    Acts a (appAuthHandleCmd env a data channel).1 channel (authAction env channel data) := by
  unfold appAuthHandleCmd authAction
  split
  · exact Acts.skip a channel
  · split
    · exact acts_issue env a channel
    · exact acts_authToken env a channel data
    · exact acts_authChangePwd env a channel data
    · exact acts_channelLock a channel
    · exact Acts.skip a channel

theorem reply_appAuthHandleCmd :
    (appAuthHandleCmd env a data channel).2 = authReply (respond a) (session a channel) env data := by
  unfold appAuthHandleCmd authReply
  split
  · rfl
  · split
    · cases channel <;> rfl
    · exact reply_authToken env a channel data
    · exact reply_authChangePwd env a channel data
    · rfl
    · rfl

end Operations

/-! ## Requests of CMD 0x03 -/

def IsAuth (subcmd : UInt8) (data : List UInt8) : Prop := data.take 2 = [cmdAuth, subcmd]

instance (subcmd : UInt8) : DecidablePred (IsAuth subcmd) := fun _ => inferInstanceAs (Decidable (_ = _))

theorem isAuth_iff {subcmd : UInt8} {data : List UInt8} :
    IsAuth subcmd data ↔ ¬ (data.length < 2 ∨ byteAt data 0 ≠ cmdAuth) ∧ byteAt data 1 = subcmd := by
  rw [IsAuth, take_two_eq_iff, not_or, not_not, and_assoc]

def IsToken (data : List UInt8) : Prop := IsAuth authSubcmdToken data ∧ 34 ≤ data.length

instance : DecidablePred IsToken := fun _ => inferInstanceAs (Decidable (_ ∧ _))

section Requests

variable {env : Env} {channel : Channel} {data : List UInt8}

theorem IsAuth.unique {subcmd subcmd' : UInt8} (h : IsAuth subcmd data) (h' : IsAuth subcmd' data) :
    subcmd = subcmd' :=
  (isAuth_iff.mp h).2.symm.trans (isAuth_iff.mp h').2

theorem authAction_of_not_auth (h : byteAt data 0 ≠ cmdAuth) : authAction env channel data = .skip :=
  if_pos (.inr h)

theorem authAction_of_nonce (h : IsAuth authSubcmdNonce data) :
    authAction env channel data = .issue env.rand := by
  obtain ⟨hCmd, hSub⟩ := isAuth_iff.mp h
  rw [authAction, if_neg hCmd, hSub]
  rfl

theorem authAction_of_token (h : IsToken data) :
    authAction env channel data = .present (credential data) (unlockDeadline env.uptime channel) := by
  obtain ⟨hCmd, hSub⟩ := isAuth_iff.mp h.1
  rw [authAction, if_neg hCmd, hSub]
  exact if_neg (not_lt.mpr h.2)

theorem appAuthHandleCmd_of_token (a : Auth) (h : IsAuth authSubcmdToken data) :
    appAuthHandleCmd env a data channel = authToken env a data channel := by
  obtain ⟨hCmd, hSub⟩ := isAuth_iff.mp h
  rw [appAuthHandleCmd, if_neg hCmd, hSub]
  rfl

theorem appAuthHandleCmd_of_not_valid {a : Auth} (h : IsToken data)
    (hValid : ¬ channelNonceValid a channel = true) :
    appAuthHandleCmd env a data channel =
      (a, [cmdAuth, Status.authState.code, authSubcmdToken, authStateLocked]) := by
  rw [appAuthHandleCmd_of_token a h.1, authToken, if_neg (not_lt.mpr h.2), if_pos (by simpa using hValid)]

theorem authAction_of_lock (h : IsAuth authSubcmdLock data) : authAction env channel data = .lock := by
  obtain ⟨hCmd, hSub⟩ := isAuth_iff.mp h
  rw [authAction, if_neg hCmd, hSub]
  rfl

theorem authAction_cases (env : Env) (channel : Channel) (data : List UInt8) :
    (IsAuth authSubcmdNonce data ∧ authAction env channel data = .issue env.rand) ∨
      (IsToken data ∧ authAction env channel data =
        .present (credential data) (unlockDeadline env.uptime channel)) ∨
      (IsAuth authSubcmdLock data ∧ authAction env channel data = .lock) ∨
      (¬ IsAuth authSubcmdNonce data ∧ ¬ IsToken data ∧ ¬ IsAuth authSubcmdLock data ∧
        (authAction env channel data = .skip ∨
          authAction env channel data = .expire (WithTop.some env.uptime))) := by
  by_cases hNonce : IsAuth authSubcmdNonce data
  · exact .inl ⟨hNonce, authAction_of_nonce hNonce⟩
  by_cases hToken : IsToken data
  · exact .inr (.inl ⟨hToken, authAction_of_token hToken⟩)
  by_cases hLock : IsAuth authSubcmdLock data
  · exact .inr (.inr (.inl ⟨hLock, authAction_of_lock hLock⟩))
  refine .inr (.inr (.inr ⟨hNonce, hToken, hLock, ?_⟩))
  unfold authAction
  split
  · exact .inl rfl
  · rename_i hCmd
    split
    · rename_i hSub
      exact absurd (isAuth_iff.mpr ⟨hCmd, hSub⟩) hNonce
    · rename_i hSub
      rw [tokenAction, if_pos]
      · exact .inl rfl
      · exact not_le.mp fun hLength => hToken ⟨isAuth_iff.mpr ⟨hCmd, hSub⟩, hLength⟩
    · exact .inr rfl
    · rename_i hSub
      exact absurd (isAuth_iff.mpr ⟨hCmd, hSub⟩) hLock
    · exact .inl rfl

theorem isAuth_of_issue {nonce : Bytes 8} (h : authAction env channel data = .issue nonce) :
    IsAuth authSubcmdNonce data ∧ nonce = env.rand := by
  rcases authAction_cases env channel data with
    ⟨hNonce, hEq⟩ | ⟨-, hEq⟩ | ⟨-, hEq⟩ | ⟨-, -, -, hEq | hEq⟩ <;> rw [hEq] at h
  · exact ⟨hNonce, (Action.issue.inj h).symm⟩
  all_goals cases h

theorem isToken_of_present {token : List UInt8} {deadline : WithTop Nat}
    (h : authAction env channel data = .present token deadline) :
    IsToken data ∧ token = credential data ∧ deadline = unlockDeadline env.uptime channel := by
  rcases authAction_cases env channel data with
    ⟨-, hEq⟩ | ⟨hToken, hEq⟩ | ⟨-, hEq⟩ | ⟨-, -, -, hEq | hEq⟩ <;> rw [hEq] at h
  · cases h
  · obtain ⟨hCredential, hDeadline⟩ := Action.present.inj h
    exact ⟨hToken, hCredential.symm, hDeadline.symm⟩
  all_goals cases h

theorem isAuth_of_lock (h : authAction env channel data = .lock) : IsAuth authSubcmdLock data := by
  rcases authAction_cases env channel data with
    ⟨-, hEq⟩ | ⟨-, hEq⟩ | ⟨hLock, -⟩ | ⟨-, -, -, hEq | hEq⟩
  case inr.inr.inl => exact hLock
  all_goals cases hEq.symm.trans h

theorem tokenReply_of_accepts {respond : Bytes 8 → List UInt8} {s : Session (Bytes 8) (WithTop Nat)}
    (h : IsToken data) (hAccepts : s.Accepts respond (credential data)) :
    tokenReply respond s data = [cmdAuth, Status.ok.code, authSubcmdToken, authStateUnlocked] := by
  rw [tokenReply, if_neg (not_lt.mpr h.2), hAccepts.1, if_neg (by decide), if_pos hAccepts.2]

theorem authReply_of_token {respond : Bytes 8 → List UInt8} {s : Session (Bytes 8) (WithTop Nat)}
    (h : IsAuth authSubcmdToken data) : authReply respond s env data = tokenReply respond s data := by
  obtain ⟨hCmd, hSub⟩ := isAuth_iff.mp h
  rw [authReply, if_neg hCmd, hSub]
  rfl

theorem passwordHash_appAuthHandleCmd (a : Auth) :
    (appAuthHandleCmd env a data channel).1.passwordHash = a.passwordHash ∨
      (IsAuth authSubcmdChangePwd data ∧ Writable a channel env.uptime ∧ ¬ data.length < 34 ∧
        (appAuthHandleCmd env a data channel).2 = [cmdAuth, Status.ok.code, authSubcmdChangePwd]) := by
  rw [isAuth_iff]
  unfold appAuthHandleCmd
  split
  · exact .inl rfl
  · rename_i hCmd
    split
    · left; cases channel <;> rfl
    · exact .inl (passwordHash_authToken env a channel data)
    · rename_i hSub
      exact (passwordHash_authChangePwd env a channel data).imp_right fun h => ⟨⟨hCmd, hSub⟩, h⟩
    · left; cases channel <;> rfl
    · exact .inl rfl

end Requests

end IotRange.AppAuth
