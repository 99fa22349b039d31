import Mathlib.Order.Lattice

/-! # Challenge-response sessions

A verifier issues challenges, opens a session when the response to the live challenge is
presented, and closes it on a wrong response, on a lock or when its deadline has passed.
Nonces, tokens and times are arbitrary; the response function stands for the shared secret.
-/
namespace IotRange.ChallengeResponse
set_option autoImplicit false

universe u v w

structure Session (N : Type u) (τ : Type v) where
  challenge : N
  live : Bool
  openUntil : Option τ

inductive Action (N : Type u) (T : Type w) (τ : Type v)
  | skip
  | expire (now : τ)
  | issue (nonce : N)
  | present (token : T) (deadline : τ)
  | lock

variable {N : Type u} {T : Type w} {τ : Type v} [LinearOrder τ]

namespace Session

def Open (s : Session N τ) (t : τ) : Prop := ∃ deadline, s.openUntil = some deadline ∧ t ≤ deadline

theorem Open.mono {s : Session N τ} {t t' : τ} (h : s.Open t') (ht : t ≤ t') : s.Open t :=
  h.imp fun _ hDeadline => ⟨hDeadline.1, ht.trans hDeadline.2⟩

variable [DecidableEq T] (respond : N → T)

/-- Presenting consumes the live challenge whatever the token is; without one nothing happens. -/
def apply (s : Session N τ) : Action N T τ → Session N τ
  | .skip => s
  | .expire now => if ∃ deadline ∈ s.openUntil, deadline < now then { s with openUntil := none } else s
  | .issue nonce => { s with challenge := nonce, live := true }
  | .present token deadline =>
    if s.live then
      { s with live := false, openUntil := if token = respond s.challenge then some deadline else none }
    else s
  | .lock => { s with live := false, openUntil := none }

def Accepts (s : Session N τ) (token : T) : Prop := s.live = true ∧ token = respond s.challenge

/-- The presented token is compared with the live challenge's response and differs. -/
def Rejects (s : Session N τ) (token : T) : Prop := s.live = true ∧ token ≠ respond s.challenge

/-- An open session was open before, or was opened by the right response to the live challenge. -/
theorem open_apply {s : Session N τ} {a : Action N T τ} {t : τ} (h : (s.apply respond a).Open t) :
    (∃ token deadline, a = .present token deadline ∧ s.Accepts respond token ∧ t ≤ deadline) ∨
      (s.Open t ∧ a ≠ .lock ∧ ∀ token deadline, a = .present token deadline → ¬ s.Rejects respond token) := by
  cases a with
  | skip => exact .inr ⟨h, nofun, nofun⟩
  | expire now =>
    simp only [apply] at h
    split at h
    · simp [Open] at h
    · exact .inr ⟨h, nofun, nofun⟩
  | issue nonce => exact .inr ⟨h, nofun, nofun⟩
  | lock => simp [apply, Open] at h
  | present token deadline =>
    by_cases hLive : s.live = true
    · obtain ⟨deadline', hOpen, ht⟩ := h
      rw [apply, if_pos hLive] at hOpen
      split at hOpen
      · rename_i hToken
        obtain rfl := Option.some.inj hOpen
        exact .inl ⟨token, deadline, rfl, ⟨hLive, hToken⟩, ht⟩
      · cases hOpen
    · rw [apply, if_neg hLive] at h
      exact .inr ⟨h, nofun, fun _ _ _ hRejects => hLive hRejects.1⟩

theorem open_present {s : Session N τ} {token : T} {deadline t : τ} (h : s.Accepts respond token)
    (ht : t ≤ deadline) :
    (s.apply respond (.present token deadline)).Open t := by
  rw [apply, if_pos h.1, if_pos h.2]
  exact ⟨deadline, rfl, ht⟩

theorem live_apply {s : Session N τ} {a : Action N T τ} (h : (s.apply respond a).live = true) :
    (∃ nonce, a = .issue nonce ∧ (s.apply respond a).challenge = nonce) ∨
      (s.live = true ∧ (s.apply respond a).challenge = s.challenge ∧ (∀ nonce, a ≠ .issue nonce) ∧
        a ≠ .lock ∧ ∀ token deadline, a ≠ .present token deadline) := by
  cases a with
  | skip => exact .inr ⟨h, rfl, nofun, nofun, nofun⟩
  | expire now =>
    have hSame : (s.apply respond (.expire now)).live = s.live ∧
        (s.apply respond (.expire now)).challenge = s.challenge := by
      simp only [apply]
      split <;> exact ⟨rfl, rfl⟩
    exact .inr ⟨hSame.1 ▸ h, hSame.2, nofun, nofun, nofun⟩
  | issue nonce => exact .inl ⟨nonce, rfl, rfl⟩
  | lock => simp [apply] at h
  | present token deadline =>
    simp only [apply] at h
    split at h
    · cases h
    · contradiction

/-- What is neither a lock, a rejected token nor an expiry after `t` leaves the session open at `t`. -/
theorem Open.apply {s : Session N τ} {a : Action N T τ} {t : τ} (h : s.Open t) (hLock : a ≠ .lock)
    (hExpire : ∀ now, a = .expire now → now ≤ t)
    (hPresent : ∀ token deadline, a = .present token deadline → ¬ s.Rejects respond token ∧ t ≤ deadline) :
    (s.apply respond a).Open t := by
  obtain ⟨deadline, hOpen, ht⟩ := h
  cases a with
  | skip => exact ⟨deadline, hOpen, ht⟩
  | issue nonce => exact ⟨deadline, hOpen, ht⟩
  | lock => exact absurd rfl hLock
  | expire now =>
    have hKept : ¬ ∃ passed ∈ s.openUntil, passed < now := by
      rintro ⟨passed, hPassed, hNow⟩
      obtain rfl := Option.some.inj (hOpen.symm.trans hPassed)
      exact absurd ((hExpire now rfl).trans ht) (not_le.mpr hNow)
    rw [Session.apply, if_neg hKept]
    exact ⟨deadline, hOpen, ht⟩
  | present token later =>
    obtain ⟨hReject, hLater⟩ := hPresent token later rfl
    by_cases hLive : s.live = true
    · have hToken : token = respond s.challenge := by
        by_contra hWrong
        exact hReject ⟨hLive, hWrong⟩
      exact open_present respond ⟨hLive, hToken⟩ hLater
    · rw [Session.apply, if_neg hLive]
      exact ⟨deadline, hOpen, ht⟩

/-- The session waits for the response to a challenge. -/
def Awaits (s : Session N τ) (nonce : N) : Prop := s.live = true ∧ s.challenge = nonce

theorem awaits_issue (s : Session N τ) (nonce : N) : (s.apply respond (.issue nonce)).Awaits nonce := ⟨rfl, rfl⟩

omit [LinearOrder τ] [DecidableEq T] in
theorem Awaits.accepts {s : Session N τ} {nonce : N} (h : s.Awaits nonce) : s.Accepts respond (respond nonce) :=
  ⟨h.1, congrArg respond h.2.symm⟩

theorem Awaits.apply {s : Session N τ} {nonce : N} {a : Action N T τ} (h : s.Awaits nonce)
    (hIssue : ∀ nonce, a ≠ .issue nonce) (hLock : a ≠ .lock)
    (hPresent : ∀ token deadline, a ≠ .present token deadline) :
    (s.apply respond a).Awaits nonce := by
  cases a with
  | skip => exact h
  | issue other => exact absurd rfl (hIssue other)
  | lock => exact absurd rfl hLock
  | present token deadline => exact absurd rfl (hPresent token deadline)
  | expire now =>
    simp only [Session.apply]
    split <;> exact h

theorem apply_present_of_not_live {s : Session N τ} (h : s.live = false) (token : T) (deadline : τ) :
    s.apply respond (.present token deadline) = s := by
  simp [apply, h]

theorem live_apply_present (s : Session N τ) (token : T) (deadline : τ) :
    (s.apply respond (.present token deadline)).live = false := by
  simp only [apply]
  split
  · rfl
  · simpa using ‹¬ s.live = true›

/-! ## Sessions that differ in an uncollected deadline -/

/-- `s` and `s'` agree, or `s` has already collected the deadline that passed before `t` and `s'` still holds. -/
structure Ahead (t : τ) (s s' : Session N τ) : Prop where
  challenge : s.challenge = s'.challenge
  live : s.live = s'.live
  openUntil : s.openUntil = s'.openUntil ∨ (s.openUntil = none ∧ ∃ deadline ∈ s'.openUntil, deadline < t)

theorem Ahead.refl (t : τ) (s : Session N τ) : Ahead t s s := ⟨rfl, rfl, .inl rfl⟩

/-- Each ahead of the other, two sessions hold the same. -/
theorem Ahead.antisymm {t : τ} {s s' : Session N τ} (h : Ahead t s s') (h' : Ahead t s' s) : s = s' := by
  have hOpen : s.openUntil = s'.openUntil := by
    refine h.openUntil.resolve_right ?_
    rintro ⟨hNone, deadline, hMem, -⟩
    obtain hEq | ⟨hNone', -⟩ := h'.openUntil
    · rw [hEq, hNone] at hMem
      cases hMem
    · rw [hNone'] at hMem
      cases hMem
  cases s
  cases s'
  obtain rfl := h.challenge
  obtain rfl := h.live
  obtain rfl := hOpen
  rfl

theorem Ahead.mono {t t' : τ} {s s' : Session N τ} (h : Ahead t s s') (ht : t ≤ t') : Ahead t' s s' where
  challenge := h.challenge
  live := h.live
  openUntil := h.openUntil.imp_right fun ⟨hNone, deadline, hMem, hLt⟩ =>
    ⟨hNone, deadline, hMem, hLt.trans_le ht⟩

theorem Ahead.open_iff {t : τ} {s s' : Session N τ} (h : Ahead t s s') : s.Open t ↔ s'.Open t := by
  rcases h.openUntil with hEq | ⟨hNone, deadline, hMem, hLt⟩
  · rw [Open, Open, hEq]
  · rw [Option.mem_def] at hMem
    simp [Open, hNone, hMem, hLt]

theorem Ahead.expire_left {t : τ} {s s' : Session N τ} (h : Ahead t s s') :
    Ahead t (s.apply respond (.expire t)) s' := by
  simp only [apply]
  split
  · rename_i hPassed
    refine ⟨h.challenge, h.live, .inr ⟨rfl, ?_⟩⟩
    rcases h.openUntil with hEq | ⟨-, hDead⟩
    · rwa [hEq] at hPassed
    · exact hDead
  · exact h

theorem Ahead.expire_both {t : τ} {s s' : Session N τ} (h : Ahead t s s') :
    Ahead t (s.apply respond (.expire t)) (s'.apply respond (.expire t)) := by
  rcases h.openUntil with hEq | ⟨hNone, hDead⟩
  · simp only [apply, hEq]
    split
    · exact ⟨h.challenge, h.live, .inl rfl⟩
    · exact h
  · have hLeft : ¬ ∃ deadline ∈ s.openUntil, deadline < t := by simp [hNone]
    rw [apply, apply, if_neg hLeft, if_pos hDead]
    exact ⟨h.challenge, h.live, .inl hNone⟩

theorem Ahead.apply_same {t : τ} {s s' : Session N τ} (h : Ahead t s s') {a : Action N T τ}
    (ha : ∀ now, a = .expire now → now = t) : Ahead t (s.apply respond a) (s'.apply respond a) := by
  cases a with
  | skip => exact h
  | expire now =>
    obtain rfl := ha now rfl
    exact h.expire_both respond
  | issue nonce => exact ⟨rfl, rfl, h.openUntil⟩
  | lock => exact ⟨h.challenge, rfl, .inl rfl⟩
  | present token deadline =>
    simp only [apply]
    rw [h.live, h.challenge]
    split
    · exact ⟨rfl, rfl, .inl rfl⟩
    · exact h

end Session

end IotRange.ChallengeResponse
