import IotRange.Provisioning
import IotRange.Sessions

/-! # Channel isolation

Deleting the other channel's events leaves the BLE session as it is. An NFC session may hold on to
a deadline that has passed: only a check clears it, and CMD 0x02 skips the check on a device that
nothing has taken out of its factory state.
-/
namespace IotRange.Isolation
open AppAuth AppFields AppTlv AppProtocol AppConfig Device Sessions Provisioning WriteCommand ChallengeResponse
set_option autoImplicit false

def OnChannel (channel : Channel) (e : Event) : Prop :=
  match e.input with
  | .request c _ _ => c = channel
  | .bleDisconnect => channel = .ble

instance (channel : Channel) : DecidablePred (OnChannel channel) := fun e =>
  match h : e.input with
  | .request c _ _ => decidable_of_iff (c = channel) (by rw [OnChannel, h])
  | .bleDisconnect => decidable_of_iff (channel = .ble) (by rw [OnChannel, h])

def ChangeAccepted (d : Device) (e : Event) : Prop :=
  e.IsRequest fun _ data => IsAuth authSubcmdChangePwd data ∧ AnsweredOk (machine.output d e)

def Allowed (d : Device) (e : Event) : Prop := ¬ ChangeAccepted d e ∧ ¬ ResetAccepted d e

/-- The check result at the event's clock value, and the reply when the event is a CMD 0x03. -/
abbrev Observation := Status × List UInt8

def observation (channel : Channel) (d : Device) (e : Event) : Observation :=
  ((appAuthCheckWrite e.uptime d.auth channel).1,
    if e.IsRequest fun _ data => HasCmd cmdAuth data then machine.output d e else [])

def see (channel : Channel) (d : Device) (e : Event) : List Observation :=
  if OnChannel channel e then [observation channel d e] else []

/-! ## Sessions that differ in an uncollected deadline -/

section Ahead

variable {s s' : Session (Bytes 8) (WithTop Nat)} {uptime : Nat}

theorem checkStatus_ahead (h : Session.Ahead (WithTop.some uptime) s s') :
    checkStatus s uptime = checkStatus s' uptime ∨
      (checkStatus s uptime = .authRequired ∧ checkStatus s' uptime = .authExpired) := by
  rcases h.openUntil with hEq | ⟨hNone, deadline, hMem, hPassed⟩
  · left
    rw [checkStatus, checkStatus, hEq]
  · right
    rw [Option.mem_def] at hMem
    rw [checkStatus, checkStatus, hNone, hMem]
    exact ⟨rfl, if_neg (not_le.mpr hPassed)⟩

theorem authReply_ahead (respond : Bytes 8 → List UInt8) (rand : Bytes 8) (data : List UInt8)
    (h : Session.Ahead (WithTop.some uptime) s s') :
    authReply respond s ⟨uptime, rand⟩ data = authReply respond s' ⟨uptime, rand⟩ data ∨
      (checkStatus s uptime = .authRequired ∧ checkStatus s' uptime = .authExpired ∧
        authReply respond s ⟨uptime, rand⟩ data = [cmdAuth, Status.authRequired.code, authSubcmdChangePwd] ∧
        authReply respond s' ⟨uptime, rand⟩ data = [cmdAuth, Status.authExpired.code, authSubcmdChangePwd]) := by
  unfold authReply
  split
  · exact .inl rfl
  · split
    · exact .inl rfl
    · left
      rw [tokenReply, tokenReply, h.live, h.challenge]
    · rcases checkStatus_ahead h with hEq | ⟨hRequired, hExpired⟩
      · left
        rw [hEq]
      · right
        rw [hRequired, hExpired]
        exact ⟨rfl, rfl, rfl, rfl⟩
    · exact .inl rfl
    · exact .inl rfl

end Ahead

/-! ## The password hash -/

theorem respond_eq {a a' : Auth} (h : a.passwordHash = a'.passwordHash) : respond a = respond a' := by
  funext nonce
  rw [respond, respond, expectedToken, expectedToken, h]

theorem passwordHash_next_of_allowed {d : Device} {e : Event} (h : Allowed d e) :
    (machine.next d e).auth.passwordHash = d.auth.passwordHash := by
  cases hInput : e.input with
  | request c rand req =>
    rw [auth_next_of_request hInput]
    refine passwordHash_processAppPayload.resolve_right ?_
    rintro ⟨hWritable, ⟨hChange, hOk⟩ | ⟨hReset, hConfirmed⟩⟩
    · rw [← output_of_request hInput (not_isOta_of_isAuth hChange)] at hOk
      exact h.1 (isRequest_iff.mpr ⟨c, rand, req, hInput, hChange, hOk⟩)
    · exact h.2 ((resetAccepted_iff hInput hReset).mpr ⟨hWritable, hConfirmed⟩)
  | bleDisconnect =>
    obtain ⟨uptime, input⟩ := e
    obtain rfl := hInput
    rfl

/-! ## Two devices side by side -/

/-- The same hash, the first session ahead of the second, and no exemption that the second lacks. -/
structure Related (channel : Channel) (t : Nat) (d d' : Device) : Prop where
  passwordHash : d.auth.passwordHash = d'.auth.passwordHash
  session : Session.Ahead (WithTop.some t) (session d.auth channel) (session d'.auth channel)
  writeExempt : writeExempt d.fields = true → writeExempt d'.fields = true

section Related

variable {channel : Channel} {t : Nat} {d d' : Device} {e : Event}

theorem Related.mono {t' : Nat} (h : Related channel t d d') (ht : t ≤ t') : Related channel t' d d' where
  passwordHash := h.passwordHash
  session := h.session.mono (WithTop.coe_le_coe.mpr ht)
  writeExempt := h.writeExempt

theorem Related.writable_iff (h : Related channel t d d') :
    Writable d.auth channel t ↔ Writable d'.auth channel t := by
  rw [writable_iff_open, writable_iff_open]
  exact h.session.open_iff

theorem request_of_onChannel {c : Channel} {rand : Bytes 8} {req : Payload} (h : OnChannel channel e)
    (hInput : e.input = .request c rand req) : c = channel := by
  rwa [OnChannel, hInput] at h

theorem Related.output_auth (h : Related channel e.uptime d d') {rand : Bytes 8} {req : Payload}
    (hInput : e.input = .request channel rand req) (hAuth : HasCmd cmdAuth req.bytes) :
    machine.output d e = machine.output d' e ∨
      (checkStatus (AppAuth.session d.auth channel) e.uptime = .authRequired ∧
        checkStatus (AppAuth.session d'.auth channel) e.uptime = .authExpired ∧
        machine.output d e = [cmdAuth, Status.authRequired.code, authSubcmdChangePwd] ∧
        machine.output d' e = [cmdAuth, Status.authExpired.code, authSubcmdChangePwd]) := by
  rw [output_of_auth hInput hAuth, output_of_auth hInput hAuth, respond_eq h.passwordHash]
  exact authReply_ahead (respond d'.auth) rand req.bytes h.session

theorem Related.allowed (h : Related channel e.uptime d d') (hOn : OnChannel channel e) (hAllowed : Allowed d e) :
    Allowed d' e := by
  constructor
  · intro hChange
    obtain ⟨c, rand, req, hInput, hAuth, hOk⟩ := isRequest_iff.mp hChange
    obtain rfl := request_of_onChannel hOn hInput
    rcases h.output_auth hInput (hasCmd_of_isAuth hAuth) with hEq | ⟨-, -, -, hExpired⟩
    · rw [← hEq] at hOk
      exact hAllowed.1 (isRequest_iff.mpr ⟨c, rand, req, hInput, hAuth, hOk⟩)
    · rw [hExpired] at hOk
      revert hOk
      decide
  · intro hResetAccepted
    obtain ⟨c, rand, req, hInput, hReset, -⟩ := isRequest_iff.mp hResetAccepted
    obtain rfl := request_of_onChannel hOn hInput
    rw [resetAccepted_iff hInput hReset, ← h.writable_iff] at hResetAccepted
    exact hAllowed.2 ((resetAccepted_iff hInput hReset).mpr hResetAccepted)

theorem writeExempt_next_of_powerOff {c : Channel} {rand : Bytes 8} {req : Payload}
    (hInput : e.input = .request c rand req) (hAction : IsAction 0x02 req.bytes) (h : Writable d.auth c e.uptime) :
    AppProtocol.writeExempt (machine.next d e).fields = false := by
  obtain ⟨hLength, -, hSub⟩ := take_two_eq_iff.mp hAction
  rw [fields_next_of_request hInput, fieldEffect_of_action (hasCmd_of_isAction hAction), actionEffect,
    if_neg hLength, hSub]
  dsimp only
  rw [if_pos h]
  rfl

theorem Related.writeExempt_next (h : Related channel e.uptime d d') (hOn : OnChannel channel e)
    (hAllowed : Allowed d e)
    (hExempt : AppProtocol.writeExempt (machine.next d e).fields = true) :
    AppProtocol.writeExempt (machine.next d' e).fields = true := by
  have hBefore := (writeExempt_of_next hExempt).resolve_right hAllowed.2
  have hBefore' := h.writeExempt hBefore
  cases hInput : e.input with
  | bleDisconnect =>
    rw [fields_next_of_disconnect hInput]
    exact hBefore'
  | request c rand req =>
    obtain rfl := request_of_onChannel hOn hInput
    rw [fields_next_of_request hInput]
    rcases fieldEffect_cases ⟨e.uptime, rand⟩ d'.toAppState c req with hEq | ⟨ts, hEq⟩ |
      ⟨cache, hCmd, hParse, -, hEq⟩ |
      ⟨hAction, -⟩ | ⟨hAction, hWritable, -⟩ | ⟨-, -, -, hEq⟩
    · rw [hEq]
      exact hBefore'
    · rw [hEq]
      exact hBefore'
    · have hAccepted : WriteAccepted d e := by
        refine isRequest_iff.mpr ⟨c, rand, req, hInput, hCmd, ?_⟩
        rw [output_of_request hInput (not_isOta_of_write hCmd)]
        exact (answeredOk_write_iff hCmd (by decide)).mpr ⟨cache, hParse, .inl hBefore⟩
      rw [writeExempt_next_of_accepted hAccepted] at hExempt
      cases hExempt
    · rw [writeExempt_next_of_powerOn (isRequest_iff.mpr ⟨c, rand, req, hInput, hAction⟩)] at hExempt
      cases hExempt
    · rw [writeExempt_next_of_powerOff hInput hAction (h.writable_iff.mpr hWritable)] at hExempt
      cases hExempt
    · rw [hEq]
      rfl

theorem Related.session_next (h : Related channel e.uptime d d') :
    Session.Ahead (WithTop.some e.uptime) (AppAuth.session (machine.next d e).auth channel)
      (AppAuth.session (machine.next d' e).auth channel) := by
  rw [Sessions.session_next, Sessions.session_next, respond_eq h.passwordHash]
  cases hInput : e.input with
  | bleDisconnect =>
    simp only [eventAction, hInput]
    refine h.session.apply_same _ ?_
    intro now hEq
    split at hEq <;> cases hEq
  | request c rand req =>
    simp only [eventAction, hInput]
    split
    · rcases sessionAction_of_writeExempt ⟨e.uptime, rand⟩ c req h.writeExempt with hSame | ⟨hExpire, hSkip⟩
      · rw [hSame]
        exact h.session.apply_same _ fun _ => sessionAction_expire
      · rw [hExpire, hSkip]
        exact h.session.expire_left _
    · refine h.session.apply_same _ ?_
      intro now hEq
      cases hEq

theorem Related.next (h : Related channel t d d') (ht : t ≤ e.uptime) (hOn : OnChannel channel e)
    (hAllowed : Allowed d e) :
    Related channel e.uptime (machine.next d e) (machine.next d' e) := by
  have hNow := h.mono ht
  refine ⟨?_, hNow.session_next, hNow.writeExempt_next hOn hAllowed⟩
  rw [passwordHash_next_of_allowed hAllowed, passwordHash_next_of_allowed (hNow.allowed hOn hAllowed)]
  exact h.passwordHash

theorem eventAction_of_hidden (hOff : ¬ OnChannel channel e) : eventAction channel d e = .skip := by
  cases hInput : e.input with
  | request c rand req =>
    simp only [OnChannel, hInput] at hOff
    simp only [eventAction, hInput, if_neg hOff]
  | bleDisconnect =>
    simp only [OnChannel, hInput] at hOff
    simp only [eventAction, hInput, if_neg hOff]

/-- An event of the other channel moves the first device alone. -/
theorem Related.next_hidden (h : Related channel t d d') (ht : t ≤ e.uptime) (hOff : ¬ OnChannel channel e)
    (hAllowed : Allowed d e) : Related channel e.uptime (machine.next d e) d' := by
  have hNow := h.mono ht
  refine ⟨?_, ?_, ?_⟩
  · rw [passwordHash_next_of_allowed hAllowed]
    exact h.passwordHash
  · rw [Sessions.session_next, eventAction_of_hidden hOff]
    exact hNow.session
  · intro hExempt
    exact h.writeExempt ((writeExempt_of_next hExempt).resolve_right hAllowed.2)

end Related

/-! ## Whole runs -/

/-- Equal, or AUTH_REQUIRED for AUTH_EXPIRED in the check result and in a CHANGE_PWD reply. -/
def Agrees (o o' : Observation) : Prop :=
  o = o' ∨ (o.1 = .authRequired ∧ o'.1 = .authExpired ∧
    (o.2 = o'.2 ∨ (o.2 = [cmdAuth, Status.authRequired.code, authSubcmdChangePwd] ∧
      o'.2 = [cmdAuth, Status.authExpired.code, authSubcmdChangePwd])))

theorem Related.agrees {channel : Channel} {d d' : Device} {e : Event} (h : Related channel e.uptime d d')
    (hOn : OnChannel channel e) : Agrees (observation channel d e) (observation channel d' e) := by
  have hStatus := checkStatus_ahead h.session
  rw [← appAuthCheckWrite_fst, ← appAuthCheckWrite_fst] at hStatus
  unfold Agrees observation
  by_cases hAuth : e.IsRequest fun _ data => HasCmd cmdAuth data
  · simp only [if_pos hAuth]
    obtain ⟨c, rand, req, hInput, hCmd⟩ := isRequest_iff.mp hAuth
    obtain rfl := request_of_onChannel hOn hInput
    rcases h.output_auth hInput hCmd with hOutput | ⟨hRequired, hExpired, hOutput, hOutput'⟩
    · rw [hOutput]
      rcases hStatus with hSame | ⟨hRequired, hExpired⟩
      · exact .inl (by rw [hSame])
      · exact .inr ⟨hRequired, hExpired, .inl rfl⟩
    · rw [← appAuthCheckWrite_fst] at hRequired hExpired
      exact .inr ⟨hRequired, hExpired, .inr ⟨hOutput, hOutput'⟩⟩
  · simp only [if_neg hAuth]
    rcases hStatus with hSame | ⟨hRequired, hExpired⟩
    · exact .inl (by rw [hSame])
    · exact .inr ⟨hRequired, hExpired, .inl trivial⟩

theorem session_eq_of_ahead_ble {t : WithTop Nat} {a a' : Auth}
    (h : Session.Ahead t (session a .ble) (session a' .ble)) : session a .ble = session a' .ble := by
  have hOpen : (session a .ble).openUntil = (session a' .ble).openUntil := by
    refine h.openUntil.resolve_right ?_
    rintro ⟨-, deadline, hMem, hPassed⟩
    simp only [session] at hMem
    split at hMem
    · obtain rfl := Option.mem_some_iff.mp hMem
      exact not_top_lt hPassed
    · cases hMem
  cases hSession : session a .ble
  cases hSession' : session a' .ble
  rw [hSession, hSession'] at h hOpen
  obtain rfl := h.challenge
  obtain rfl := h.live
  obtain rfl := hOpen
  rfl

theorem Related.timeless {t t' : Nat} {d d' : Device} (h : Related .ble t d d') : Related .ble t' d d' where
  passwordHash := h.passwordHash
  session := session_eq_of_ahead_ble h.session ▸ Session.Ahead.refl _ _
  writeExempt := h.writeExempt

theorem see_of_hidden {channel : Channel} {d : Device} {e : Event} (h : ¬ OnChannel channel e) :
    see channel d e = [] := if_neg h

theorem unwinding_nfc :
    Machine.Unwinding machine Event.uptime (OnChannel .nfc) Allowed (see .nfc) (Related .nfc) Agrees where
  hidden := by
    intro t d d' e h ht hAllowed hOff
    exact ⟨see_of_hidden hOff, h.next_hidden ht hOff hAllowed⟩
  visible := by
    intro t d d' e h ht hAllowed hOn
    refine ⟨?_, h.next ht hOn hAllowed⟩
    rw [see, see, if_pos hOn, if_pos hOn]
    exact .cons ((h.mono ht).agrees hOn) .nil

theorem unwinding_ble :
    Machine.Unwinding machine (fun _ => 0) (OnChannel .ble) Allowed (see .ble) (Related .ble) Eq where
  hidden := by
    intro t d d' e h _ hAllowed hOff
    exact ⟨see_of_hidden hOff, (Related.next_hidden (t := 0) h.timeless (Nat.zero_le _) hOff hAllowed).timeless⟩
  visible := by
    intro t d d' e h _ hAllowed hOn
    have hNow : Related .ble e.uptime d d' := h.timeless
    refine ⟨?_, (hNow.next (le_refl _) hOn hAllowed).timeless⟩
    rw [see, see, if_pos hOn, if_pos hOn]
    refine .cons ?_ .nil
    refine (hNow.agrees hOn).resolve_right ?_
    rintro ⟨-, hExpired, -⟩
    simp only [observation, appAuthCheckWrite] at hExpired
    split at hExpired <;> cases hExpired

theorem Related.refl (channel : Channel) (t : Nat) (d : Device) : Related channel t d d :=
  ⟨rfl, Session.Ahead.refl _ _, id⟩

theorem bleUnlocked_of_session {a a' : Auth} (h : session a .ble = session a' .ble) :
    a.bleUnlocked = a'.bleUnlocked := by
  have hOpen := congrArg Session.openUntil h
  simp only [session] at hOpen
  cases hUnlocked : a.bleUnlocked <;> cases hUnlocked' : a'.bleUnlocked <;> simp_all

theorem nfcAuthUntilMs_of_ahead {t : Nat} {a a' : Auth}
    (h : Session.Ahead (WithTop.some t) (session a .nfc) (session a' .nfc)) :
    a.nfcAuthUntilMs = a'.nfcAuthUntilMs ∨ (a.nfcAuthUntilMs = 0 ∧ a'.nfcAuthUntilMs < t) := by
  rcases h.openUntil with hEq | ⟨hNone, deadline, hMem, hPassed⟩
  · left
    simp only [session] at hEq
    split at hEq <;> split at hEq
    · rename_i hZero hZero'
      rw [hZero, hZero']
    · cases hEq
    · cases hEq
    · exact WithTop.coe_inj.mp (Option.some.inj hEq)
  · right
    simp only [session] at hNone hMem
    split at hNone
    · rename_i hZero
      split at hMem
      · cases hMem
      · obtain rfl := Option.mem_some_iff.mp hMem
        exact ⟨hZero, WithTop.coe_lt_coe.mp hPassed⟩
    · cases hNone

/-! ### Runs in which the other channel leaves the exemption alone -/

/-- The event takes the device out of its exempt state. -/
def EndsExemption (d : Device) (e : Event) : Prop :=
  writeExempt d.fields = true ∧ writeExempt (machine.next d e).fields = false

/-- Two devices that the channel's user cannot tell apart, whatever the clock says. -/
structure Alike (channel : Channel) (d d' : Device) : Prop where
  passwordHash : d.auth.passwordHash = d'.auth.passwordHash
  session : session d.auth channel = session d'.auth channel
  writeExempt : writeExempt d.fields = writeExempt d'.fields

section Alike

variable {channel : Channel} {d d' : Device} {e : Event}

theorem Alike.refl (channel : Channel) (d : Device) : Alike channel d d := ⟨rfl, rfl, rfl⟩

theorem Alike.symm (h : Alike channel d d') : Alike channel d' d :=
  ⟨h.passwordHash.symm, h.session.symm, h.writeExempt.symm⟩

theorem Alike.related (h : Alike channel d d') (t : Nat) : Related channel t d d' :=
  ⟨h.passwordHash, h.session ▸ Session.Ahead.refl _ _, fun hExempt => h.writeExempt ▸ hExempt⟩

theorem alike_of_related {t : Nat} (h : Related channel t d d') (h' : Related channel t d' d) : Alike channel d d' :=
  ⟨h.passwordHash, h.session.antisymm h'.session, Bool.eq_iff_iff.mpr ⟨h.writeExempt, h'.writeExempt⟩⟩

theorem Alike.next (h : Alike channel d d') (hOn : OnChannel channel e) (hAllowed : Allowed d e) :
    Alike channel (machine.next d e) (machine.next d' e) := by
  have hAllowed' := (h.related e.uptime).allowed hOn hAllowed
  exact alike_of_related ((h.related e.uptime).next (le_refl _) hOn hAllowed)
    ((h.symm.related e.uptime).next (le_refl _) hOn hAllowed')

theorem writeExempt_next_of_keeps (hAllowed : Allowed d e) (hKeeps : ¬ EndsExemption d e) :
    writeExempt (machine.next d e).fields = writeExempt d.fields := by
  refine Bool.eq_iff_iff.mpr ⟨fun hAfter => (writeExempt_of_next hAfter).resolve_right hAllowed.2, fun hBefore => ?_⟩
  by_contra hEnds
  exact hKeeps ⟨hBefore, Bool.eq_false_of_not_eq_true hEnds⟩

theorem Alike.next_hidden (h : Alike channel d d') (hOff : ¬ OnChannel channel e) (hAllowed : Allowed d e)
    (hKeeps : ¬ EndsExemption d e) : Alike channel (machine.next d e) d' := by
  have hExempt := (writeExempt_next_of_keeps hAllowed hKeeps).trans h.writeExempt
  refine ⟨?_, ?_, hExempt⟩
  · rw [passwordHash_next_of_allowed hAllowed]
    exact h.passwordHash
  · rw [Sessions.session_next, eventAction_of_hidden hOff]
    exact h.session

theorem agrees_antisymm {o o' : Observation} (h : Agrees o o') (h' : Agrees o' o) : o = o' := by
  obtain hSame | ⟨hRequired, -, -⟩ := h
  · exact hSame
  · obtain hSame | ⟨-, hExpired, -⟩ := h'
    · exact hSame.symm
    · cases hRequired.symm.trans hExpired

theorem Alike.observation_eq (h : Alike channel d d') (hOn : OnChannel channel e) :
    observation channel d e = observation channel d' e :=
  agrees_antisymm ((h.related e.uptime).agrees hOn) ((h.symm.related e.uptime).agrees hOn)

end Alike

theorem unwinding_alike (channel : Channel) :
    Machine.Unwinding machine (fun _ => 0) (OnChannel channel)
      (fun d e => Allowed d e ∧ (¬ OnChannel channel e → ¬ EndsExemption d e)) (see channel)
      (fun _ => Alike channel) Eq where
  hidden := by
    rintro - d d' e h - ⟨hAllowed, hKeeps⟩ hOff
    exact ⟨see_of_hidden hOff, h.next_hidden hOff hAllowed (hKeeps hOff)⟩
  visible := by
    rintro - d d' e h - ⟨hAllowed, -⟩ hOn
    refine ⟨?_, h.next hOn hAllowed⟩
    rw [see, see, if_pos hOn, if_pos hOn]
    exact .cons (h.observation_eq hOn) .nil

/-- A device that is not exempt does not become so again. -/
theorem keeps_of_not_writeExempt {d : Device} (h : writeExempt d.fields = false) {es : List Event}
    (hAllowed : ∀ p ∈ machine.situations d es, Allowed p.1 p.2) :
    ∀ p ∈ machine.situations d es, ¬ EndsExemption p.1 p.2 := by
  rintro p hp ⟨hExempt, -⟩
  obtain ⟨pre, post, rfl, hState⟩ := machine.mem_situations_iff.mp hp
  rw [Machine.situations_append, List.forall_mem_append] at hAllowed
  have hNever : writeExempt (machine.run d pre).fields = false := by
    refine machine.run_invariant_of_situations (I := fun d => writeExempt d.fields = false) (Q := Allowed) ?_ d pre
      hAllowed.1 h
    intro d e hNow hBefore
    have hKeeps : ¬ EndsExemption d e := fun hEnds => by cases hBefore.symm.trans hEnds.1
    exact (writeExempt_next_of_keeps hNow hKeeps).trans hBefore
  rw [hState] at hExempt
  cases hNever.symm.trans hExempt

/-- A clock that stands still does not go back. -/
theorem isChain_zero (es : List Event) : ((0 : Nat) :: es.map fun _ => 0).IsChain (· ≤ ·) := by
  rw [List.map_const', ← List.replicate_succ]
  exact List.isChain_replicate_of_rel _ (le_refl 0)

/-- NFC sees what it sees in the run without the BLE events, and ends with the same session. -/
structure NfcIsolated (d : Device) (es : List Event) : Prop where
  observed : machine.observe (see .nfc) d es = machine.observe (see .nfc) d (es.filter (OnChannel .nfc))
  nonce : (machine.run d es).auth.nonceNfc = (machine.run d (es.filter (OnChannel .nfc))).auth.nonceNfc
  nonceValid : (machine.run d es).auth.nonceNfcValid = (machine.run d (es.filter (OnChannel .nfc))).auth.nonceNfcValid
  authUntil : (machine.run d es).auth.nfcAuthUntilMs = (machine.run d (es.filter (OnChannel .nfc))).auth.nfcAuthUntilMs

theorem nfcAuthUntilMs_of_session {a a' : Auth} (h : session a .nfc = session a' .nfc) :
    a.nfcAuthUntilMs = a'.nfcAuthUntilMs := by
  have hAhead : Session.Ahead (WithTop.some 0) (session a .nfc) (session a' .nfc) := by
    rw [h]
    exact Session.Ahead.refl _ _
  obtain hEq | ⟨-, hPassed⟩ := nfcAuthUntilMs_of_ahead hAhead
  · exact hEq
  · exact absurd hPassed (Nat.not_lt_zero _)

theorem nfcIsolated {d : Device} {es : List Event} (hAllowed : ∀ p ∈ machine.situations d es, Allowed p.1 p.2)
    (hKeeps : ∀ p ∈ machine.situations d es, ¬ OnChannel .nfc p.2 → ¬ EndsExemption p.1 p.2) : NfcIsolated d es := by
  obtain ⟨hSeen, hFinal⟩ := (unwinding_alike .nfc).run (Alike.refl .nfc d) (isChain_zero es)
    fun p hp => ⟨hAllowed p hp, hKeeps p hp⟩
  exact ⟨List.forall₂_eq_eq_eq ▸ hSeen, congrArg Session.challenge hFinal.session,
    congrArg Session.live hFinal.session, nfcAuthUntilMs_of_session hFinal.session⟩

/-- What a channel's user sees, and its final session, with the other channel's events deleted. Only
where a BLE event ends the exemption may NFC see a difference, and then only about a window that has passed. -/
theorem channel_isolation (d : Device) (es : List Event)
    (hAllowed : ∀ p ∈ machine.situations d es, Allowed p.1 p.2) :
    (machine.observe (see .ble) d es = machine.observe (see .ble) d (es.filter (OnChannel .ble)) ∧
        (machine.run d es).auth.nonceBle = (machine.run d (es.filter (OnChannel .ble))).auth.nonceBle ∧
        (machine.run d es).auth.nonceBleValid = (machine.run d (es.filter (OnChannel .ble))).auth.nonceBleValid ∧
        (machine.run d es).auth.bleUnlocked = (machine.run d (es.filter (OnChannel .ble))).auth.bleUnlocked) ∧
      (writeExempt d.fields = false ∨
          (∀ p ∈ machine.situations d es, ¬ OnChannel .nfc p.2 → ¬ EndsExemption p.1 p.2) → NfcIsolated d es) ∧
      ((es.map Event.uptime).IsChain (· ≤ ·) →
        List.Forall₂ Agrees (machine.observe (see .nfc) d es)
            (machine.observe (see .nfc) d (es.filter (OnChannel .nfc))) ∧
          (machine.run d es).auth.nonceNfc = (machine.run d (es.filter (OnChannel .nfc))).auth.nonceNfc ∧
          (machine.run d es).auth.nonceNfcValid = (machine.run d (es.filter (OnChannel .nfc))).auth.nonceNfcValid ∧
          ((machine.run d es).auth.nfcAuthUntilMs =
            (machine.run d (es.filter (OnChannel .nfc))).auth.nfcAuthUntilMs ∨
            ((machine.run d es).auth.nfcAuthUntilMs = 0 ∧
              (machine.run d (es.filter (OnChannel .nfc))).auth.nfcAuthUntilMs <
                Machine.lastClock Event.uptime 0 es))) := by
  refine ⟨?_, ?_, ?_⟩
  · obtain ⟨hSeen, hFinal⟩ := unwinding_ble.run (Related.refl .ble 0 d) (isChain_zero es) hAllowed
    have hSession := session_eq_of_ahead_ble hFinal.session
    refine ⟨List.forall₂_eq_eq_eq ▸ hSeen, ?_, ?_, ?_⟩
    · exact congrArg Session.challenge hSession
    · exact congrArg Session.live hSession
    · exact bleUnlocked_of_session hSession
  · rintro (hRequired | hKeeps)
    · exact nfcIsolated hAllowed fun p hp _ => keeps_of_not_writeExempt hRequired hAllowed p hp
    · exact nfcIsolated hAllowed hKeeps
  · intro hSorted
    have hClock : (0 :: es.map Event.uptime).IsChain (· ≤ ·) := by
      cases es with
      | nil => exact .singleton 0
      | cons e es => exact List.isChain_cons_cons.mpr ⟨Nat.zero_le _, hSorted⟩
    obtain ⟨hSeen, hFinal⟩ := unwinding_nfc.run (Related.refl .nfc 0 d) hClock hAllowed
    exact ⟨hSeen, hFinal.session.challenge, hFinal.session.live, nfcAuthUntilMs_of_ahead hFinal.session⟩

/-! ## A deadline that only the interleaved run collects -/

def nonce : Bytes 8 := List.Vector.replicate 8 0x5A
def noRand : Bytes 8 := List.Vector.replicate 8 0

def unlockEvents : List Event :=
  [⟨0, .request .nfc nonce nonceRequest⟩, ⟨1, .request .nfc noRand (tokenRequest (expectedToken boot.auth nonce))⟩]

def powerOnEvent : Event := ⟨2, .request .ble noRand ⟨[0x04, 0x01], by decide⟩⟩
def writeEvent : Event := ⟨400000, .request .nfc noRand modeWrite⟩
def changePwdEvent : Event := ⟨400001, .request .nfc noRand ⟨[0x03, 0x03], by decide⟩⟩

/-- NFC unlocks, BLE powers on, and after the window NFC writes and asks for a password change. -/
def expiryRun : List Event := unlockEvents ++ [powerOnEvent, writeEvent, changePwdEvent]

def unlocked : Device := machine.run boot unlockEvents

theorem session_unlocked : session unlocked.auth .nfc = ⟨nonce, false, some (WithTop.some 300001)⟩ := by
  have hIssued : session (machine.next boot ⟨0, .request .nfc nonce nonceRequest⟩).auth .nfc =
    ⟨nonce, true, none⟩ := rfl
  have hHash : respond (machine.next boot ⟨0, .request .nfc nonce nonceRequest⟩).auth = respond boot.auth :=
    respond_eq rfl
  have hToken : (expectedToken boot.auth nonce).toList = respond boot.auth nonce := rfl
  rw [unlocked, unlockEvents, Machine.run_cons, Machine.run_cons, Machine.run_nil, session_next,
    eventAction_of_token rfl (isToken_tokenRequest _), credential_tokenRequest, hIssued, hHash, Session.apply,
    if_pos rfl, if_pos hToken]
  rfl

theorem fields_unlocked : unlocked.fields = boot.fields := by
  have hNonce : HasCmd cmdAuth nonceRequest.bytes := rfl
  have hToken : HasCmd cmdAuth (tokenRequest (expectedToken boot.auth nonce)).bytes := rfl
  rw [unlocked, unlockEvents, Machine.run_cons, Machine.run_cons, Machine.run_nil,
    fields_next_of_request rfl, fieldEffect_of_auth hToken, FieldEffect.apply, fields_next_of_request rfl,
    fieldEffect_of_auth hNonce, FieldEffect.apply]

theorem eventAction_writeEvent (d : Device) :
    eventAction .nfc d writeEvent = if writeExempt d.fields then .skip else .expire (WithTop.some 400000) := by
  have hCmd : HasCmd cmdWrite modeWrite.bytes := rfl
  rw [eventAction_of_request rfl, sessionAction_of_write hCmd, writeAction, parseWrite_modeWrite]
  rfl

theorem session_interleaved :
    session (machine.next (machine.next unlocked powerOnEvent) writeEvent).auth .nfc = ⟨nonce, false, none⟩ := by
  have hPowerOn : PowerOn powerOnEvent := rfl
  have hSkip : eventAction .nfc unlocked powerOnEvent = .skip := rfl
  have hPowered : session (machine.next unlocked powerOnEvent).auth .nfc =
      ⟨nonce, false, some (WithTop.some 300001)⟩ := by
    rw [session_next, hSkip, session_unlocked]
    rfl
  have hPassed : ∃ deadline ∈ some (WithTop.some 300001), deadline < (WithTop.some 400000) :=
    ⟨_, rfl, WithTop.coe_lt_coe.mpr (by decide)⟩
  rw [session_next, eventAction_writeEvent, writeExempt_next_of_powerOn hPowerOn, if_neg Bool.false_ne_true,
    hPowered, Session.apply, if_pos hPassed]

theorem session_deleted :
    session (machine.next unlocked writeEvent).auth .nfc = ⟨nonce, false, some (WithTop.some 300001)⟩ := by
  rw [session_next, eventAction_writeEvent, fields_unlocked, show writeExempt boot.fields = true from rfl,
    if_pos rfl, session_unlocked]
  rfl

theorem allowed_of_requests {d : Device} {e : Event}
    (hChange : ¬ e.IsRequest fun _ data => IsAuth authSubcmdChangePwd data ∧ 34 ≤ data.length)
    (hReset : ¬ e.IsRequest fun _ data => IsAction 0x03 data) : Allowed d e := by
  constructor
  · intro hAccepted
    obtain ⟨c, rand, req, hInput, hAuth, hOk⟩ := isRequest_iff.mp hAccepted
    refine hChange (isRequest_iff.mpr ⟨c, rand, req, hInput, hAuth, ?_⟩)
    obtain ⟨hCmd, hSub⟩ := isAuth_iff.mp hAuth
    rw [output_of_auth hInput (hasCmd_of_isAuth hAuth), authReply_of_changePwd hCmd hSub, changePwdReply] at hOk
    by_contra hLength
    split at hOk
    · rename_i hStatus
      exact hStatus (Status.code_injective (Option.some.inj hOk))
    · rw [if_pos (not_le.mp hLength)] at hOk
      revert hOk
      decide
  · intro hAccepted
    obtain ⟨c, rand, req, hInput, hAction, -⟩ := isRequest_iff.mp hAccepted
    exact hReset (isRequest_iff.mpr ⟨c, rand, req, hInput, hAction⟩)

theorem allowed_of_forall {es : List Event}
    (h : ∀ e ∈ es, (¬ e.IsRequest fun _ data => IsAuth authSubcmdChangePwd data ∧ 34 ≤ data.length) ∧
      ¬ e.IsRequest fun _ data => IsAction 0x03 data) (d : Device) :
    ∀ p ∈ machine.situations d es, Allowed p.1 p.2 := by
  intro p hp
  obtain ⟨hChange, hReset⟩ := machine.forall_situations h p hp
  exact allowed_of_requests hChange hReset

theorem allowed_expiryRun (d : Device) {es : List Event} (h : ∀ e ∈ es, e ∈ expiryRun) :
    ∀ p ∈ machine.situations d es, Allowed p.1 p.2 := by
  have hAll : ∀ e ∈ expiryRun, (¬ e.IsRequest fun _ data => IsAuth authSubcmdChangePwd data ∧ 34 ≤ data.length) ∧
      ¬ e.IsRequest fun _ data => IsAction 0x03 data := by
    simp only [expiryRun, unlockEvents, List.cons_append, List.nil_append, List.forall_mem_cons]
    exact ⟨⟨by decide, by decide⟩, ⟨by decide, by decide⟩, ⟨by decide, by decide⟩, ⟨by decide, by decide⟩,
      ⟨by decide, by decide⟩, List.forall_mem_nil _⟩
  exact allowed_of_forall (fun e he => hAll e (h e he)) d

/-- Once the device is powered on the run may be repeated, with a clock that goes back, and NFC sees
nothing of BLE. From boot the last check and reply may differ. -/
theorem nfc_agrees_expiryRun :
    NfcIsolated (machine.next boot powerOnEvent) (expiryRun ++ expiryRun) ∧
      List.Forall₂ Agrees (machine.observe (see .nfc) boot expiryRun)
        (machine.observe (see .nfc) boot (expiryRun.filter (OnChannel .nfc))) := by
  have hTwice : ∀ e ∈ expiryRun ++ expiryRun, e ∈ expiryRun := fun e he => (List.mem_append.mp he).elim id id
  exact ⟨(channel_isolation (machine.next boot powerOnEvent) (expiryRun ++ expiryRun)
      (allowed_expiryRun _ hTwice)).2.1 (.inl rfl),
    ((channel_isolation boot expiryRun (allowed_expiryRun boot fun _ => id)).2.2 (by decide)).1⟩

/-- The two runs disagree on the last NFC check, which the reply to CHANGE_PWD reports. -/
theorem expiryRun_not_isolated :
    (∀ p ∈ machine.situations boot expiryRun, Allowed p.1 p.2) ∧
      machine.observe (see .nfc) boot expiryRun ≠
        machine.observe (see .nfc) boot (expiryRun.filter (OnChannel .nfc)) := by
  refine ⟨allowed_expiryRun boot fun _ => id, ?_⟩
  intro hSame
  have hInterleaved : expiryRun = unlockEvents ++ [powerOnEvent, writeEvent] ++ [changePwdEvent] := rfl
  have hDeleted : expiryRun.filter (OnChannel .nfc) = unlockEvents ++ [writeEvent] ++ [changePwdEvent] := rfl
  have hSee (d : Device) : see .nfc d changePwdEvent = [observation .nfc d changePwdEvent] := if_pos rfl
  rw [hDeleted, hInterleaved, Machine.observe_concat, Machine.observe_concat, hSee, hSee] at hSame
  have hLast := (List.append_inj' hSame (by rw [List.length_singleton, List.length_singleton])).2
  have hStatus := congrArg Prod.fst (List.singleton_inj.mp hLast)
  simp only [observation, appAuthCheckWrite_fst] at hStatus
  rw [Machine.run_append, Machine.run_append, ← unlocked, Machine.run_cons, Machine.run_cons, Machine.run_cons,
    Machine.run_nil, Machine.run_nil, session_interleaved, session_deleted, checkStatus, checkStatus] at hStatus
  have hPassed : ¬ WithTop.some changePwdEvent.uptime ≤ (WithTop.some 300001) := by
    rw [WithTop.coe_le_coe]
    exact not_le.mpr (by decide)
  dsimp only at hStatus
  rw [if_neg hPassed] at hStatus
  cases hStatus

end IotRange.Isolation
