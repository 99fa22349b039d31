import IotRange.BleReplies

/-! # The retry budget of a reply

`retry_cnt` is a static variable. A reply that has been sent and one that has used up its attempts
reset it, but a disconnect and a newer reply do not, so failures of an earlier reply may count
against a later one.
-/
namespace IotRange.RetryBudget
open AppAuth AppProtocol AppConfig BleUart BleReplies Mailbox
set_option autoImplicit false

section Budget

variable {Conn : Type}

/-- `bt_nus_send` is called and fails. -/
def Failed (s : State Conn) (i : Input Conn) : Prop := ∃ sent ∈ (machine Conn).output s i, sent.err ≠ 0

instance (s : State Conn) (i : Input Conn) : Decidable (Failed s i) :=
  inferInstanceAs (Decidable (∃ sent ∈ (machine Conn).output s i, sent.err ≠ 0))

/-- A failure after which the reply waits no longer. -/
def Abandons (s : State Conn) (i : Input Conn) : Prop := Failed s i ∧ ((machine Conn).next s i).held = none

def failures (s : State Conn) (is : List (Input Conn)) : Nat :=
  ((machine Conn).situations s is).countP fun p => Failed p.1 p.2

/-- However a run goes on without a newer reply, the reply that waits now is abandoned only after
`RESP_RETRY_MAX` failures from now on. -/
def FullBudget (s : State Conn) : Prop :=
  ∀ mid i, (∀ p ∈ (machine Conn).situations s mid, ¬ Answered p.1 p.2) → Abandons ((machine Conn).run s mid) i →
    respRetryMax.toNat ≤ failures s (mid ++ [i])

/-- Every reply of the run has the whole budget when it is queued. -/
def KeepsBudget (device : Device) (is : List (Input Conn)) : Prop :=
  ∀ p ∈ (machine Conn).situations (.boot device) is, Answered p.1 p.2 → FullBudget ((machine Conn).next p.1 p.2)

theorem failures_concat (s : State Conn) (is : List (Input Conn)) (i : Input Conn) :
    failures s (is ++ [i]) = failures s is + if Failed ((machine Conn).run s is) i then 1 else 0 := by
  simp [failures, List.countP_cons]

theorem failures_le_length (s : State Conn) (is : List (Input Conn)) : failures s is ≤ is.length := by
  induction is using List.reverseRecOn with
  | nil => exact Nat.le_refl 0
  | append_singleton is i ih =>
    rw [failures_concat, List.length_append, List.length_singleton]
    split <;> omega

end Budget

/-! ## What a step does to the counter -/

section Step

variable {Conn : Type} {s : State Conn} {i : Input Conn}

/-- A step from `s` to `t` counts a failure that is not the last one, or it ends the reply and resets
the counter, or it makes no attempt. -/
inductive Counts (s t : State Conn) (failed : Prop) : Prop
  | again (hFailed : failed) (hLast : ¬ LastAttempt s) (hHeld : t.held = s.held) (hCnt : t.retryCnt = s.retryCnt + 1)
  | ended (hEnd : LastAttempt s ∨ ¬ failed) (hNone : t.held = none) (hCnt : t.retryCnt = 0)
  | silent (hSilent : ¬ failed) (hCnt : t.retryCnt = s.retryCnt)

theorem Counts.congr {s' t : State Conn} {failed : Prop} (h : Counts s' t failed) (hHeld : s'.held = s.held)
    (hCnt : s'.retryCnt = s.retryCnt) : Counts s t failed := by
  have hLast : LastAttempt s' ↔ LastAttempt s := by rw [LastAttempt, LastAttempt, hCnt]
  cases h with
  | again hFailed hMore hWaits hNext =>
    exact .again hFailed (hLast.not.mp hMore) (hWaits.trans hHeld) (by rw [hNext, hCnt])
  | ended hEnd hNone hNext => exact .ended (hEnd.imp_left hLast.mp) hNone hNext
  | silent hSilent hNext => exact .silent hSilent (hNext.trans hCnt)

theorem not_failed_none : ¬ ∃ sent ∈ (none : Option (NusSend Conn)), sent.err ≠ 0 := by
  rintro ⟨sent, hSent, -⟩
  cases hSent

theorem counts_sendPendingResp (s : State Conn) (err : Int) :
    Counts s (sendPendingResp s err).1 (∃ sent ∈ (sendPendingResp s err).2, sent.err ≠ 0) := by
  cases hHeld : s.held with
  | none =>
    rw [sendPendingResp_of_none hHeld]
    exact .silent not_failed_none rfl
  | some reply =>
    obtain ⟨hPending, conn, hConn, rfl⟩ := held_eq_some_iff.mp hHeld
    rw [sendPendingResp_of_pending hPending hConn]
    by_cases hEnd : err = 0 ∨ LastAttempt s
    · have hNone : ({ s with respPending := false, retryCnt := 0 } : State Conn).held = none := by
        rw [State.held, hConn]
        rfl
      rw [if_pos hEnd]
      refine .ended (hEnd.symm.imp id ?_) hNone rfl
      rintro hErr ⟨sent, hSent, hFailed⟩
      obtain rfl := Option.some.inj hSent
      exact hFailed hErr
    · have hWaits : ({ s with retryCnt := s.retryCnt + 1, sendRetryWork := true } : State Conn).held = some _ :=
        held_eq_some_iff.mpr ⟨hPending, conn, hConn, rfl⟩
      rw [if_neg hEnd]
      rw [not_or] at hEnd
      exact .again ⟨_, rfl, hEnd.1⟩ hEnd.2 (hWaits.trans hHeld.symm) rfl

theorem retryCnt_btReceiveCb (s : State Conn) (conn : Conn) (env : Env) (data : Payload) :
    (btReceiveCb s conn env data).retryCnt = s.retryCnt := by
  by_cases hReply : (appConfigHandleBle env s.device data).2 = []
  · rw [btReceiveCb_of_silent conn hReply]
  · obtain ⟨buf, len, -, -, hNext⟩ := btReceiveCb_of_reply conn hReply
    rw [hNext]

theorem counts_of_attempt {r : State Conn × Option (NusSend Conn)} (h : Attempt s r) :
    Counts s r.1 (∃ sent ∈ r.2, sent.err ≠ 0) := by
  cases h with
  | sends subscribed work err => exact (counts_sendPendingResp _ err).congr rfl rfl
  | rests => exact .silent not_failed_none rfl

theorem counts_next (s : State Conn) (i : Input Conn) : Counts s ((machine Conn).next s i) (Failed s i) := by
  cases i with
  | received conn env data => exact .silent not_failed_none (retryCnt_btReceiveCb s conn env data)
  | retryWork err => exact counts_of_attempt (attempt_sendRetryHandler s err)
  | sendEnabled enabled err => exact counts_of_attempt (attempt_nusSendEnabledCb s enabled err)
  | disconnected | elsewhere => exact .silent not_failed_none rfl

theorem held_of_failed (h : Failed s i) : s.held ≠ none := by
  obtain ⟨sent, hSent, -⟩ := h
  exact held_ne_none_of_mem_output hSent

theorem abandons_iff : Abandons s i ↔ Failed s i ∧ LastAttempt s := by
  refine and_congr_right fun hFailed => ?_
  cases counts_next s i with
  | again _ hLast hHeld _ =>
    rw [hHeld]
    exact iff_of_false (held_of_failed hFailed) hLast
  | ended hEnd hNone _ => exact iff_of_true hNone (hEnd.resolve_right (not_not.mpr hFailed))
  | silent hSilent _ => exact absurd hFailed hSilent

/-- A reply that `bt_nus_send` takes is not abandoned. -/
theorem not_abandons_of_taken (t : State Conn) : ¬ Abandons t (.retryWork 0) := by
  rintro ⟨⟨sent, hSent, hErr⟩, -⟩
  have hOutput : (sendRetryHandler t 0).2 = some sent := hSent
  unfold sendRetryHandler at hOutput
  split at hOutput
  · cases hHeld : ({ t with sendRetryWork := false } : State Conn).held with
    | none =>
      rw [sendPendingResp_of_none hHeld] at hOutput
      cases hOutput
    | some reply =>
      obtain ⟨hPending, conn, hConn, -⟩ := held_eq_some_iff.mp hHeld
      rw [sendPendingResp_of_pending hPending hConn] at hOutput
      obtain rfl := Option.some.inj hOutput
      exact hErr rfl
  · cases hOutput

theorem toNat_retryCnt_succ (h : s.retryCnt < respRetryMax) : (s.retryCnt + 1).toNat = s.retryCnt.toNat + 1 := by
  have hMax : respRetryMax.toNat = 30 := rfl
  have hCnt : s.retryCnt.toNat < respRetryMax.toNat := h
  rw [UInt8.toNat_add, UInt8.toNat_one]
  exact Nat.mod_eq_of_lt (by omega)

theorem lastAttempt_iff (h : s.retryCnt < respRetryMax) :
    LastAttempt s ↔ respRetryMax.toNat ≤ s.retryCnt.toNat + 1 := by
  rw [LastAttempt, ge_iff_le, UInt8.le_iff_toNat_le, toNat_retryCnt_succ h]

/-- The counter stays below its maximum. -/
theorem retryCnt_next_lt (h : s.retryCnt < respRetryMax) (i : Input Conn) :
    ((machine Conn).next s i).retryCnt < respRetryMax := by
  cases counts_next s i with
  | again _ hLast _ hCnt =>
    rw [hCnt, UInt8.lt_iff_toNat_lt, toNat_retryCnt_succ h]
    exact Nat.not_le.mp (mt (lastAttempt_iff h).mpr hLast)
  | ended _ _ hCnt =>
    rw [hCnt]
    decide
  | silent _ hCnt =>
    rw [hCnt]
    exact h

theorem retryCnt_run_lt (h : s.retryCnt < respRetryMax) (is : List (Input Conn)) :
    ((machine Conn).run s is).retryCnt < respRetryMax :=
  (machine Conn).run_invariant (I := fun t => t.retryCnt < respRetryMax) (fun _ i h => retryCnt_next_lt h i) s is h

/-- Queuing a reply leaves the counter alone. -/
theorem answered_next (h : Answered s i) :
    ((machine Conn).next s i).held ≠ none ∧ ((machine Conn).next s i).retryCnt = s.retryCnt := by
  obtain ⟨reply, hReply⟩ := h
  have hHeld : ((machine Conn).next s i).held ≠ none := by
    rw [holds_machine, replyOp_eq_put_iff.mpr hReply]
    exact Option.some_ne_none _
  obtain ⟨env, data, rfl, -⟩ := hReply
  exact ⟨hHeld, retryCnt_btReceiveCb s reply.conn env data⟩

end Step

/-! ## Runs -/

section Runs

variable {Conn : Type} {s : State Conn}

/-- While the reply waits, the counter grows with its failures. -/
theorem retryCnt_run (h : s.retryCnt < respRetryMax) {mid : List (Input Conn)}
    (hMid : ∀ p ∈ (machine Conn).situations s mid, ¬ Answered p.1 p.2)
    (hHeld : ((machine Conn).run s mid).held ≠ none) :
    ((machine Conn).run s mid).retryCnt.toNat = s.retryCnt.toNat + failures s mid := by
  induction mid using List.reverseRecOn with
  | nil => rfl
  | append_singleton mid i ih =>
    rw [Machine.situations_append, List.forall_mem_append] at hMid
    obtain ⟨hMid, hNow⟩ := hMid
    have hQuiet : ¬ Answered ((machine Conn).run s mid) i := hNow (_, i) List.mem_cons_self
    rw [Machine.run_append, Machine.run_cons, Machine.run_nil] at hHeld ⊢
    -- No reply has been queued by this step, so the one that waits after it waited before it.
    have hBefore : ((machine Conn).run s mid).held ≠ none := (oneShot.armedOnly _ i hHeld).resolve_right hQuiet
    have hCount := ih hMid hBefore
    rw [failures_concat]
    cases counts_next ((machine Conn).run s mid) i with
    | again hFailed _ _ hCnt =>
      rw [if_pos hFailed, hCnt, toNat_retryCnt_succ (retryCnt_run_lt h mid), hCount, Nat.add_assoc]
    | ended _ hNone _ => exact absurd hNone hHeld
    | silent hSilent hCnt => rw [if_neg hSilent, hCnt, hCount, Nat.add_zero]

theorem fullBudget_of_retryCnt (h : s.retryCnt = 0) : FullBudget s := by
  intro mid i hMid hAbandons
  have hStart : s.retryCnt < respRetryMax := by
    rw [h]
    decide
  have hCount := retryCnt_run hStart hMid (held_of_failed hAbandons.1)
  have hLast := (lastAttempt_iff (retryCnt_run_lt hStart mid)).mp (abandons_iff.mp hAbandons).2
  rw [hCount, h, UInt8.toNat_zero, Nat.zero_add] at hLast
  rw [failures_concat, if_pos hAbandons.1]
  exact hLast

theorem not_answered_retryWork (err : Int) : ¬ Answered s (.retryWork err) := by
  rintro ⟨reply, env, data, hInput, -⟩
  cases hInput

theorem failed_retryWork (hSound : s.Sound) (hHeld : s.held ≠ none) {err : Int} (hErr : err ≠ 0) :
    Failed s (.retryWork err) := by
  obtain ⟨reply, hReply⟩ := Option.ne_none_iff_exists'.mp hHeld
  obtain ⟨hPending, conn, hConn, -⟩ := held_eq_some_iff.mp hReply
  have hStep : (machine Conn).step s (.retryWork err) = sendPendingResp { s with sendRetryWork := false } err :=
    if_pos (hSound.scheduled hHeld)
  have hSend := sendPendingResp_of_pending (s := { s with sendRetryWork := false }) hPending hConn err
  refine ⟨⟨conn, s.respBuf, s.respLenPending, err⟩, ?_, hErr⟩
  rw [Machine.output, hStep, hSend]
  rfl

/-- If every attempt fails, the reply is abandoned when the counter has reached its maximum. -/
theorem exists_abandons {err : Int} (hErr : err ≠ 0) (hSound : s.Sound) (hHeld : s.held ≠ none)
    (h : s.retryCnt < respRetryMax) :
    ∃ mid i, (∀ p ∈ (machine Conn).situations s mid, ¬ Answered p.1 p.2) ∧
      Abandons ((machine Conn).run s mid) i ∧ s.retryCnt.toNat + (mid ++ [i]).length ≤ respRetryMax.toNat := by
  induction hLeft : respRetryMax.toNat - s.retryCnt.toNat using Nat.strong_induction_on generalizing s with
  | _ n ih =>
    have hFailed := failed_retryWork hSound hHeld hErr
    have hCnt : s.retryCnt.toNat < respRetryMax.toNat := h
    cases counts_next s (.retryWork err) with
    | again _ _ hWaits hNext =>
      have hSucc : ((machine Conn).next s (.retryWork err)).retryCnt.toNat = s.retryCnt.toNat + 1 := by
        rw [hNext, toNat_retryCnt_succ h]
      have hLess : respRetryMax.toNat - ((machine Conn).next s (.retryWork err)).retryCnt.toNat < n := by omega
      obtain ⟨mid, i, hMid, hAbandons, hLength⟩ :=
        ih _ hLess (sound_next hSound _) (hWaits ▸ hHeld) (retryCnt_next_lt h _) rfl
      refine ⟨.retryWork err :: mid, i, List.forall_mem_cons.mpr ⟨not_answered_retryWork err, hMid⟩, hAbandons, ?_⟩
      rw [List.cons_append, List.length_cons]
      omega
    | ended _ hNone _ => exact ⟨[], .retryWork err, List.forall_mem_nil _, ⟨hFailed, hNone⟩, hCnt⟩
    | silent hSilent _ => exact absurd hFailed hSilent

theorem fullBudget_iff (hSound : s.Sound) (hHeld : s.held ≠ none) (h : s.retryCnt < respRetryMax) :
    FullBudget s ↔ s.retryCnt = 0 := by
  constructor
  · intro hBudget
    obtain ⟨mid, i, hMid, hAbandons, hLength⟩ := exists_abandons (by decide : (-22 : Int) ≠ 0) hSound hHeld h
    have hFailures := (hBudget mid i hMid hAbandons).trans (failures_le_length s (mid ++ [i]))
    exact UInt8.toNat_inj.mp (Nat.le_zero.mp (by omega))
  · exact fullBudget_of_retryCnt

/-- A reply that has one attempt left is abandoned after its first failure. -/
theorem not_fullBudget_of_lastAttempt (hSound : s.Sound) (hHeld : s.held ≠ none) (hLast : LastAttempt s) :
    ¬ FullBudget s := by
  intro hBudget
  have hFailed : Failed s (.retryWork (-22)) := failed_retryWork hSound hHeld (by decide)
  have hFailures := hBudget [] (.retryWork (-22)) (List.forall_mem_nil _) (abandons_iff.mpr ⟨hFailed, hLast⟩)
  have hOne : respRetryMax.toNat ≤ 1 := hFailures.trans (failures_le_length s [.retryWork (-22)])
  exact absurd hOne (by decide)

variable (device : Device)

theorem KeepsBudget.fullBudget {pre : List (Input Conn)} {req : Input Conn} (h : KeepsBudget device (pre ++ [req]))
    (hAnswered : Answered ((machine Conn).run (.boot device) pre) req) :
    FullBudget ((machine Conn).run (.boot device) (pre ++ [req])) := by
  rw [Machine.run_append]
  exact h (_, req) ((machine Conn).mem_situations_iff.mpr ⟨pre, [], rfl, rfl⟩) hAnswered

/-- A run gives each of its replies the whole budget exactly if no reply is queued while failures of
an earlier one are counted. -/
theorem keepsBudget_iff (is : List (Input Conn)) :
    KeepsBudget device is ↔
      ∀ p ∈ (machine Conn).situations (.boot device) is, Answered p.1 p.2 → p.1.retryCnt = 0 := by
  refine forall₂_congr fun p hp => ?_
  obtain ⟨pre, post, -, hState⟩ := (machine Conn).mem_situations_iff.mp hp
  have hSound : p.1.Sound := hState ▸ sound_run device pre
  have hBoot : (0 : UInt8) < respRetryMax := by decide
  have hBound : p.1.retryCnt < respRetryMax := hState ▸ retryCnt_run_lt (s := .boot device) hBoot pre
  refine forall_congr' fun hAnswered => ?_
  obtain ⟨hHeld, hCnt⟩ := answered_next hAnswered
  rw [fullBudget_iff (sound_next hSound p.2) hHeld (retryCnt_next_lt hBound p.2), hCnt]

end Runs

def powerOn : Input Unit := .received () ⟨0, List.Vector.replicate 8 0⟩ powerOnReq

theorem answered_powerOn (s : State Unit) : Answered s powerOn :=
  ⟨⟨(), [cmdAction, Status.ok.code, 0x01, DeviceState.powerOn.code]⟩, _, powerOnReq, rfl, rfl, List.cons_ne_nil _ _⟩

/-- POWER ON, a failure of every attempt but the last one, and a disconnect. -/
def lostReply : List (Input Unit) := powerOn :: List.replicate 29 (.retryWork (-22)) ++ [.disconnected]

theorem retryCnt_lostReply : ((machine Unit).run (.boot Device.boot) lostReply).retryCnt = 29 := rfl

/-- The reply to the next connection's POWER ON is abandoned after its first failure. -/
theorem lostReply_not_keepsBudget : ¬ KeepsBudget Device.boot (lostReply ++ [powerOn]) := by
  intro hKeeps
  have hAnswered := answered_powerOn ((machine Unit).run (.boot Device.boot) lostReply)
  obtain ⟨hHeld, hCnt⟩ := answered_next hAnswered
  refine not_fullBudget_of_lastAttempt (sound_run Device.boot (lostReply ++ [powerOn])) ?_ ?_
    (hKeeps.fullBudget Device.boot hAnswered)
  · rw [Machine.run_append]
    exact hHeld
  · rw [LastAttempt, Machine.run_append, Machine.run_cons, Machine.run_nil, hCnt, retryCnt_lostReply]
    decide

end IotRange.RetryBudget
