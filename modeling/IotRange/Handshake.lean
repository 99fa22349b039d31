import IotRange.Revocation

/-! # The handshake of an honest client

A nonce that was handed out waits for its token through all other traffic, and what the token opens
stays open until something closes it.
-/
namespace IotRange.Handshake
open AppAuth AppFields AppProtocol AppConfig Device ChallengeResponse Sessions Revocation
set_option autoImplicit false

section Step

variable {channel : Channel} {d : Device} {e : Event} {nonce : Bytes 8}

/-- What would spend the nonce or replace it. -/
def Interferes (channel : Channel) (e : Event) : Prop :=
  Requests channel (IsAuth authSubcmdNonce) e ∨ Requests channel (IsAuth authSubcmdLock) e ∨
    Requests channel IsToken e ∨ (channel = .ble ∧ e.input = .bleDisconnect)

/-- What closes an open channel. -/
def Closes (channel : Channel) (d : Device) (e : Event) : Prop :=
  Requests channel (IsAuth authSubcmdLock) e ∨ Mismatched channel d e ∨ (channel = .ble ∧ e.input = .bleDisconnect)

theorem awaits_next (h : (session d.auth channel).Awaits nonce) (hOther : ¬ Interferes channel e) :
    (session (machine.next d e).auth channel).Awaits nonce := by
  rw [session_next]
  refine h.apply _ ?_ ?_ ?_
  · intro issued hAction
    obtain ⟨rand, req, hInput, hNonce, -⟩ := request_of_issue hAction
    exact hOther (.inl (requests_of_request hInput hNonce))
  · intro hAction
    obtain hLock | hDisconnect := requests_of_lock hAction
    · exact hOther (.inr (.inl hLock))
    · exact hOther (.inr (.inr (.inr hDisconnect)))
  · intro token deadline hAction
    obtain ⟨rand, req, hInput, hToken, -⟩ := request_of_present hAction
    exact hOther (.inr (.inr (.inl (requests_of_request hInput hToken))))

theorem awaits_next_of_nonce (h : Requests channel (IsAuth authSubcmdNonce) e)
    (hAnswer : machine.output d e = [cmdAuth, Status.ok.code, authSubcmdNonce] ++ nonce.toList) :
    (session (machine.next d e).auth channel).Awaits nonce := by
  obtain ⟨rand, req, hInput, hNonce⟩ := requests_iff.mp h
  obtain ⟨hCmd, hSub⟩ := isAuth_iff.mp hNonce
  rw [output_of_auth hInput (hasCmd_of_isAuth hNonce), authReply_of_nonce hCmd hSub] at hAnswer
  obtain rfl : rand = nonce := List.Vector.toList_injective (List.append_cancel_left hAnswer)
  rw [session_next, eventAction_of_auth hInput hNonce, authAction_of_nonce hNonce]
  exact Session.awaits_issue _ _ rand

theorem not_replaces_of_nonce (h : Requests channel (IsAuth authSubcmdNonce) e) (c : Channel) : ¬ Replaces c d e := by
  intro hReplaces
  obtain ⟨rand, req, hInput, hNonce⟩ := requests_iff.mp h
  obtain ⟨rand', req', hInput', hKind, -⟩ := requests_iff.mp hReplaces
  obtain ⟨-, rfl, rfl⟩ := Input.request.inj (hInput.symm.trans hInput')
  obtain hChange | hReset := hKind
  · exact absurd (hNonce.unique hChange) (by decide)
  · exact absurd ((hasCmd_of_isAuth hNonce).unique (hasCmd_of_isAction hReset)) (by decide)

theorem mismatched_of_rejects {token : List UInt8} {deadline : WithTop Nat}
    (h : eventAction channel d e = .present token deadline)
    (hRejects : (session d.auth channel).Rejects (respond d.auth) token) : Mismatched channel d e := by
  obtain ⟨rand, req, hInput, hToken, rfl, -⟩ := request_of_present h
  refine ⟨⟨requests_of_request hInput hToken, ?_⟩, requests_of_request hInput ?_⟩
  · rw [← live_session]
    exact hRejects.1
  · have hWrong := hRejects.2
    rwa [challenge_session] at hWrong

theorem le_unlockDeadline {t uptime : Nat} (h : channel = .nfc → t ≤ uptime + nfcAuthWindowMs) :
    WithTop.some t ≤ unlockDeadline uptime channel := by
  cases channel with
  | ble => exact le_top
  | nfc => exact WithTop.coe_le_coe.mpr (h rfl)

theorem writable_next {t : Nat} (h : Writable d.auth channel t) (hOpen : ¬ Closes channel d e) (hNow : e.uptime ≤ t)
    (hWindow : channel = .nfc → t ≤ e.uptime + nfcAuthWindowMs) : Writable (machine.next d e).auth channel t := by
  rw [writable_iff_open] at h ⊢
  rw [session_next]
  refine h.apply _ ?_ ?_ ?_
  · intro hAction
    obtain hLock | hDisconnect := requests_of_lock hAction
    · exact hOpen (.inl hLock)
    · exact hOpen (.inr (.inr hDisconnect))
  · intro now hAction
    rw [now_of_expire hAction]
    exact WithTop.coe_le_coe.mpr hNow
  · intro token deadline hAction
    refine ⟨fun hRejects => hOpen (.inr (.inl (mismatched_of_rejects hAction hRejects))), ?_⟩
    obtain ⟨rand, req, -, -, -, rfl⟩ := request_of_present hAction
    exact le_unlockDeadline hWindow

end Step

/-! ## From the nonce to the token -/

section Token

variable {channel : Channel} {d : Device} {e : Event} {nonce : Bytes 8}

/-- The token for the nonce under the current hash is accepted. -/
theorem accepted_of_awaits (h : (session d.auth channel).Awaits nonce) (hToken : Requests channel IsToken e)
    (hCredential : Requests channel (fun data => credential data = (expectedToken d.auth nonce).toList) e) :
    machine.output d e = [cmdAuth, Status.ok.code, authSubcmdToken, authStateUnlocked] ∧
      ∀ t, (channel = .nfc → t ≤ e.uptime + nfcAuthWindowMs) → Writable (machine.next d e).auth channel t := by
  obtain ⟨rand, req, hInput, hToken⟩ := requests_iff.mp hToken
  obtain ⟨rand', req', hInput', hCredential⟩ := requests_iff.mp hCredential
  obtain ⟨-, rfl, rfl⟩ := Input.request.inj (hInput.symm.trans hInput')
  have hAccepts : (session d.auth channel).Accepts (respond d.auth) (credential req.bytes) := by
    rw [hCredential]
    exact h.accepts _
  constructor
  · rw [output_of_auth hInput (hasCmd_of_isAuth hToken.1), authReply_of_token hToken.1,
      tokenReply_of_accepts hToken hAccepts]
  · intro t hWindow
    rw [writable_iff_open, session_next, eventAction_of_token hInput hToken]
    exact Session.open_present _ hAccepts (le_unlockDeadline hWindow)

/-- What is open stays open up to `t`, as long as the clock has not passed `t` and nothing closes it. -/
theorem writable_run {start t : Nat} {later : List Event} (h : Writable d.auth channel t)
    (hClock : (start :: (later.map Event.uptime ++ [t])).IsChain (· ≤ ·))
    (hWindow : channel = .nfc → t ≤ start + nfcAuthWindowMs)
    (hOpen : ∀ p ∈ machine.situations d later, ¬ Closes channel p.1 p.2) :
    Writable (machine.run d later).auth channel t := by
  rw [List.isChain_iff_pairwise, List.pairwise_cons, List.pairwise_append] at hClock
  obtain ⟨hStart, -, -, hEnd⟩ := hClock
  have hTimes : ∀ e ∈ later, start ≤ e.uptime ∧ e.uptime ≤ t := fun e he =>
    ⟨hStart _ (List.mem_append_left _ (List.mem_map_of_mem he)),
      hEnd _ (List.mem_map_of_mem he) t (List.mem_singleton_self t)⟩
  refine machine.run_invariant_of_situations (I := fun d => Writable d.auth channel t)
    (Q := fun d e => ¬ Closes channel d e ∧ start ≤ e.uptime ∧ e.uptime ≤ t) ?_ d later ?_ h
  · rintro d e ⟨hStays, hFrom, hTo⟩ hWritable
    refine writable_next hWritable hStays hTo fun hNfc => ?_
    have := hWindow hNfc
    omega
  · intro p hp
    exact ⟨hOpen p hp, machine.forall_situations (p := fun e => start ≤ e.uptime ∧ e.uptime ≤ t) hTimes p hp⟩

end Token

/-- The token for an answered nonce is accepted after any other traffic, and the channel is then
writable up to its deadline, again through any traffic that does not close it. -/
theorem honest_handshake (channel : Channel) (d : Device) (ask tok : Event) (mid : List Event) (nonce : Bytes 8)
    (hAsk : Requests channel (IsAuth authSubcmdNonce) ask)
    (hAnswer : machine.output d ask = [cmdAuth, Status.ok.code, authSubcmdNonce] ++ nonce.toList)
    (hMid : ∀ e ∈ mid, ¬ Interferes channel e)
    (hHash : ∀ p ∈ machine.situations (machine.next d ask) mid, ∀ c, ¬ Replaces c p.1 p.2)
    (hToken : Requests channel IsToken tok)
    (hCredential : Requests channel (fun data => credential data = (expectedToken d.auth nonce).toList) tok) :
    (machine.run (machine.next d ask) mid).auth.passwordHash = d.auth.passwordHash ∧
      machine.output (machine.run (machine.next d ask) mid) tok =
        [cmdAuth, Status.ok.code, authSubcmdToken, authStateUnlocked] ∧
      ∀ later t, (tok.uptime :: (later.map Event.uptime ++ [t])).IsChain (· ≤ ·) →
        (channel = .nfc → t ≤ tok.uptime + nfcAuthWindowMs) →
        (∀ p ∈ machine.situations (machine.next (machine.run (machine.next d ask) mid) tok) later,
          ¬ Closes channel p.1 p.2) →
        Writable (machine.run (machine.next (machine.run (machine.next d ask) mid) tok) later).auth channel t := by
  have hCurrent : (machine.run (machine.next d ask) mid).auth.passwordHash = d.auth.passwordHash := by
    rw [passwordHash_run_of_not_replaces mid hHash, passwordHash_next_of_not_replaces (not_replaces_of_nonce hAsk)]
  have hAwaits : (session (machine.run (machine.next d ask) mid).auth channel).Awaits nonce :=
    machine.run_invariant_of (I := fun d => (session d.auth channel).Awaits nonce)
      (fun _ _ hOther hWaits => awaits_next hWaits hOther) _ mid hMid (awaits_next_of_nonce hAsk hAnswer)
  rw [show expectedToken d.auth nonce = expectedToken (machine.run (machine.next d ask) mid).auth nonce by
    rw [expectedToken, expectedToken, hCurrent]] at hCredential
  obtain ⟨hAccepted, hWritable⟩ := accepted_of_awaits hAwaits hToken hCredential
  exact ⟨hCurrent, hAccepted, fun later t hClock hWindow hOpen =>
    writable_run (hWritable t hWindow) hClock hWindow hOpen⟩

/-! ## An NFC handshake in the middle of BLE traffic -/

section Interleaved

open Isolation WriteCommand

theorem not_replaces_of_allowed {channel : Channel} {d : Device} {e : Event} (h : Allowed d e) :
    ¬ Replaces channel d e := by
  intro hReplaces
  obtain ⟨rand, req, hInput, hKind, hOk⟩ := requests_iff.mp hReplaces
  obtain hChange | hReset := hKind
  · exact h.1 (isRequest_iff.mpr ⟨channel, rand, req, hInput, hChange, hOk⟩)
  · exact h.2 (isRequest_iff.mpr ⟨channel, rand, req, hInput, hReset, hOk⟩)

theorem not_closes_of_requests {channel : Channel} {d : Device} {e : Event}
    (hLock : ¬ Requests channel (IsAuth authSubcmdLock) e) (hToken : ¬ Requests channel IsToken e)
    (hDisconnect : ¬ (channel = .ble ∧ e.input = .bleDisconnect)) : ¬ Closes channel d e := by
  rintro (hAsked | hMismatched | hLost)
  · exact hLock hAsked
  · exact hToken hMismatched.1.1
  · exact hDisconnect hLost

def nfcNonceEvent : Event := ⟨1, .request .nfc nonce nonceRequest⟩

/-- BLE unlocks, NFC spends the factory write, BLE powers the device on and is then lost. -/
def betweenEvents : List Event :=
  [bleNonceEvent, bleTokenEvent boot.auth, ⟨4, .request .nfc noRand modeWrite⟩,
    ⟨5, .request .ble noRand ⟨[cmdAction, 0x01], by decide⟩⟩, ⟨6, .bleDisconnect⟩]

def nfcTokenEvent : Event := ⟨100000, .request .nfc noRand (tokenRequest (expectedToken boot.auth nonce))⟩

/-- NFC writes and asks for another nonce, BLE fails to change the password and asks for a lock. -/
def laterEvents : List Event :=
  [⟨200000, .request .nfc noRand modeWrite⟩, ⟨200001, .request .nfc noRand nonceRequest⟩,
    ⟨200002, .request .ble noRand ⟨[cmdAuth, authSubcmdChangePwd], by decide⟩⟩,
    ⟨200003, .request .ble noRand ⟨[cmdAuth, authSubcmdLock, 0x00], by decide⟩⟩]

theorem not_interferes_between : ∀ e ∈ betweenEvents, ¬ Interferes .nfc e := by
  simp only [betweenEvents, List.forall_mem_cons]
  refine ⟨?_, ?_, ?_, ?_, ?_, List.forall_mem_nil _⟩ <;>
    · rintro (h | h | h | ⟨h, -⟩)
      all_goals revert h; decide

theorem allowed_between (d : Device) : ∀ p ∈ machine.situations d betweenEvents, Allowed p.1 p.2 := by
  refine allowed_of_forall ?_ d
  simp only [betweenEvents, List.forall_mem_cons]
  exact ⟨⟨by decide, by decide⟩, ⟨by decide, by decide⟩, ⟨by decide, by decide⟩, ⟨by decide, by decide⟩,
    ⟨by decide, by decide⟩, List.forall_mem_nil _⟩

theorem not_closes_later (d : Device) : ∀ p ∈ machine.situations d laterEvents, ¬ Closes .nfc p.1 p.2 := by
  have hAll : ∀ e ∈ laterEvents, ¬ Requests .nfc (IsAuth authSubcmdLock) e ∧ ¬ Requests .nfc IsToken e := by decide
  intro p hp
  obtain ⟨hLock, hToken⟩ := machine.forall_situations hAll p hp
  exact not_closes_of_requests hLock hToken fun h => by cases h.1

/-- The window ends 300 seconds after the token, and NFC is writable up to then. -/
theorem honest_handshake_interleaved :
    machine.output (machine.run boot (nfcNonceEvent :: betweenEvents)) nfcTokenEvent =
        [cmdAuth, Status.ok.code, authSubcmdToken, authStateUnlocked] ∧
      Writable (machine.run (machine.next (machine.run boot (nfcNonceEvent :: betweenEvents)) nfcTokenEvent)
        laterEvents).auth .nfc 400000 := by
  have hNonce : Requests .nfc (IsAuth authSubcmdNonce) nfcNonceEvent := ⟨rfl, rfl⟩
  have hToken : Requests .nfc IsToken nfcTokenEvent := ⟨rfl, isToken_tokenRequest _⟩
  have hCredential : Requests .nfc (fun data => credential data = (expectedToken boot.auth nonce).toList)
      nfcTokenEvent := ⟨rfl, credential_tokenRequest _⟩
  obtain ⟨-, hAccepted, hStays⟩ := honest_handshake .nfc boot nfcNonceEvent nfcTokenEvent betweenEvents nonce hNonce rfl
    not_interferes_between (fun p hp _ => not_replaces_of_allowed (allowed_between _ p hp)) hToken hCredential
  rw [Machine.run_cons]
  exact ⟨hAccepted, hStays laterEvents 400000 (by decide) (fun _ => by decide) (not_closes_later _)⟩

end Interleaved

end IotRange.Handshake
