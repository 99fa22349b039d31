import IotRange.Library.Credit
import IotRange.RetryBudget

/-! # How long a reply keeps the radio busy

Every reply brings at most `RESP_RETRY_MAX` calls of `bt_nus_send` with it, and once the work item
has fired that often without a newer reply, nothing waits any more.
-/
namespace IotRange.Quiescence
open AppAuth AppProtocol AppConfig BleUart BleReplies RetryBudget Mailbox
set_option autoImplicit false

section Attempts

variable {Conn : Type}

instance (s : State Conn) (i : Input Conn) : Decidable (Answered s i) :=
  match h : replyOp s i with
  | .put reply => isTrue ⟨reply, replyOp_eq_put_iff.mp h⟩
  | .keep | .drop | .clear => isFalse fun ⟨_, hReply⟩ => by cases h.symm.trans (replyOp_eq_put_iff.mpr hReply)

/-- `bt_nus_send` is called. -/
def Sends (s : State Conn) (i : Input Conn) : Prop := ((machine Conn).output s i).isSome = true

instance (s : State Conn) (i : Input Conn) : Decidable (Sends s i) := inferInstanceAs (Decidable (_ = true))

/-- The work item fires. -/
def Fires : Input Conn → Prop
  | .retryWork _ => True
  | .received _ _ _ | .sendEnabled _ _ | .disconnected | .elsewhere _ => False

instance : DecidablePred (@Fires Conn) := fun i => by cases i <;> unfold Fires <;> infer_instance

/-- The calls that the reply that waits still has. -/
def sendsLeft (s : State Conn) : Nat := if s.held = none then 0 else respRetryMax.toNat - s.retryCnt.toNat

variable {s : State Conn} {i : Input Conn}

theorem sendsLeft_of_none (h : s.held = none) : sendsLeft s = 0 := if_pos h

theorem sendsLeft_le (s : State Conn) : sendsLeft s ≤ respRetryMax.toNat := by
  unfold sendsLeft
  split
  · exact Nat.zero_le _
  · exact Nat.sub_le _ _

theorem sendsLeft_pos (h : s.held ≠ none) (hCnt : s.retryCnt < respRetryMax) : 0 < sendsLeft s := by
  rw [sendsLeft, if_neg h]
  exact Nat.sub_pos_of_lt hCnt

theorem held_of_sends (h : Sends s i) : s.held ≠ none := by
  obtain ⟨sent, hSent⟩ := Option.isSome_iff_exists.mp h
  exact held_ne_none_of_mem_output hSent

/-- A call that fails lowers what is left by one, and every other call ends the reply. -/
theorem sendsLeft_of_sends (h : Sends s i) (hCnt : s.retryCnt < respRetryMax) :
    1 + sendsLeft ((machine Conn).next s i) ≤ sendsLeft s := by
  have hPos := sendsLeft_pos (held_of_sends h) hCnt
  cases counts_next s i with
  | again hFailed hLast hHeld hNext =>
    have hLeft : sendsLeft ((machine Conn).next s i) = respRetryMax.toNat - (s.retryCnt.toNat + 1) := by
      rw [sendsLeft, hHeld, if_neg (held_of_sends h), hNext, toNat_retryCnt_succ hCnt]
    have hNow : sendsLeft s = respRetryMax.toNat - s.retryCnt.toNat := if_neg (held_of_sends h)
    omega
  | ended _ hNone _ =>
    rw [sendsLeft_of_none hNone]
    exact hPos
  | silent hSilent _ =>
    -- A call without a failure is one that took the reply.
    obtain ⟨sent, hSent⟩ := Option.isSome_iff_exists.mp h
    have hOk : SentOk s i := ⟨sent, hSent, not_not.mp fun hErr => hSilent ⟨sent, hSent, hErr⟩⟩
    rw [sendsLeft_of_none (not_not.mp (oneShot.spent s i hOk))]
    exact hPos

/-- Without a call and without a newer reply there is no more left than before. -/
theorem sendsLeft_next_le (hSends : ¬ Sends s i) (hAnswered : ¬ Answered s i) :
    sendsLeft ((machine Conn).next s i) ≤ sendsLeft s := by
  by_cases hNext : ((machine Conn).next s i).held = none
  · rw [sendsLeft_of_none hNext]
    exact Nat.zero_le _
  · have hHeld : s.held ≠ none := (oneShot.armedOnly s i hNext).resolve_right hAnswered
    cases counts_next s i with
    | again hFailed _ _ _ =>
      obtain ⟨sent, hSent, -⟩ := hFailed
      exact absurd (Option.isSome_iff_exists.mpr ⟨sent, hSent⟩) hSends
    | ended _ hNone _ => exact absurd hNone hNext
    | silent _ hCnt => rw [sendsLeft, sendsLeft, if_neg hNext, if_neg hHeld, hCnt]

theorem paid :
    (machine Conn).Paid (fun s => s.retryCnt < respRetryMax) sendsLeft respRetryMax.toNat Answered Sends where
  keeps _ i hCnt := retryCnt_next_lt hCnt i
  pays s i hCnt := by
    by_cases hSends : Sends s i
    · rw [if_pos hSends]
      exact (sendsLeft_of_sends hSends hCnt).trans (Nat.le_add_right _ _)
    · rw [if_neg hSends, Nat.zero_add]
      by_cases hAnswered : Answered s i
      · rw [if_pos hAnswered]
        exact (sendsLeft_le _).trans (Nat.le_add_left _ _)
      · rw [if_neg hAnswered]
        exact sendsLeft_next_le hSends hAnswered

end Attempts

/-! ## Runs -/

section Runs

variable {Conn : Type} (device : Device)

theorem retryCnt_boot : (State.boot device : State Conn).retryCnt < respRetryMax :=
  (by decide : (0 : UInt8) < respRetryMax)

/-- The calls of a run are at most thirty for each of its replies. -/
theorem sends_le (is : List (Input Conn)) :
    ((machine Conn).situations (.boot device) is).countP (fun p => Sends p.1 p.2) ≤
      respRetryMax.toNat * ((machine Conn).situations (.boot device) is).countP (fun p => Answered p.1 p.2) := by
  have hCount := paid.countP_uses_le (@retryCnt_boot Conn device) is
  rw [sendsLeft_of_none (held_boot device), Nat.zero_add] at hCount
  exact (Nat.le_add_right _ _).trans hCount

theorem sends_of_fires {s : State Conn} (hSound : s.Sound) (hHeld : s.held ≠ none) {i : Input Conn} (h : Fires i) :
    Sends s i := by
  cases i with
  | retryWork err =>
    obtain ⟨reply, hReply⟩ := Option.ne_none_iff_exists'.mp hHeld
    obtain ⟨hPending, conn, hConn, -⟩ := held_eq_some_iff.mp hReply
    have hStep : (machine Conn).step s (.retryWork err) = sendPendingResp { s with sendRetryWork := false } err :=
      if_pos (hSound.scheduled hHeld)
    rw [Sends, Machine.output, hStep,
      sendPendingResp_of_pending (s := { s with sendRetryWork := false }) hPending hConn err]
    rfl
  | received | sendEnabled | disconnected | elsewhere => exact h.elim

/-- Once the work item has fired thirty times without a newer reply, no reply waits. -/
theorem rests {pre is : List (Input Conn)}
    (hQuiet : ∀ p ∈ (machine Conn).situations ((machine Conn).run (.boot device) pre) is, ¬ Answered p.1 p.2)
    (hFires : respRetryMax.toNat ≤ is.countP fun i => Fires i) :
    ((machine Conn).run (.boot device) (pre ++ is)).held = none := by
  rw [Machine.run_append]
  by_contra hHeld
  have hCnt : ((machine Conn).run (.boot device) pre).retryCnt < respRetryMax :=
    retryCnt_run_lt (retryCnt_boot device) pre
  -- The reply that waits at the end has waited all the time, so every firing was a call.
  have hWaits :
      ∀ p ∈ (machine Conn).situations ((machine Conn).run (.boot device) pre) is, Fires p.2 → Sends p.1 p.2 := by
    intro p hp hFire
    obtain ⟨before, after, rfl, hState⟩ := (machine Conn).mem_situations_iff.mp hp
    have hSound : p.1.Sound := by
      rw [hState, ← Machine.run_append]
      exact sound_run device (pre ++ before)
    refine sends_of_fires hSound (fun hNone => ?_) hFire
    rw [Machine.situations_append, List.forall_mem_append, ← hState] at hQuiet
    rw [Machine.run_append, ← hState] at hHeld
    exact oneShot.unarmed_run (not_not.mpr hNone) hQuiet.2 hHeld
  have hSends : is.countP (fun i => Fires i) ≤
      ((machine Conn).situations ((machine Conn).run (.boot device) pre) is).countP fun p => Sends p.1 p.2 := by
    rw [← (machine Conn).countP_situations (fun i => decide (Fires i)) ((machine Conn).run (.boot device) pre) is]
    exact List.countP_mono_left fun p hp hFire => by simpa using hWaits p hp (by simpa using hFire)
  have hCount := paid.countP_uses_le_potential hCnt hQuiet
  have hLeft := sendsLeft_pos hHeld (retryCnt_run_lt hCnt is)
  have hMost := sendsLeft_le ((machine Conn).run (.boot device) pre)
  omega

/-- A reply that cannot be sent. -/
theorem rests_powerOn :
    ((machine Unit).run (.boot Device.boot) ([powerOn] ++ List.replicate 30 (.retryWork (-22)))).held = none := by
  refine rests Device.boot (fun p hp => ?_) (by decide)
  have hInput : p.2 = .retryWork (-22) :=
    (machine Unit).forall_situations (p := fun i => i = .retryWork (-22)) (fun i hi => List.eq_of_mem_replicate hi) p hp
  rw [hInput]
  exact not_answered_retryWork _

end Runs

end IotRange.Quiescence
