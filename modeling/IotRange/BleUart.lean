import IotRange.AppProtocol.Replies
import IotRange.Device
import IotRange.Library.Mailbox

/-! # Sending BLE replies (ble_uart.c)

A reply waits in one buffer until `bt_nus_send` takes it. Each callback is one step; what
`bt_nus_send` returns comes with the input, and the NFC side and the shell may change the device
in between. Advertising, pairing, LEDs and `current_conn` are left out: no reply depends on them.
-/
namespace IotRange.BleUart
open AppAuth AppProtocol AppConfig Mailbox
set_option autoImplicit false

def respRetryMax : UInt8 := 30

structure State (Conn : Type) where
  device : Device
  nusTxSubscribed : Bool
  respPending : Bool
  respLenPending : UInt16
  respConn : Option Conn
  respBuf : Bytes appProtoRespMax
  retryCnt : UInt8
  /-- `send_retry_work` is scheduled. -/
  sendRetryWork : Bool

/-- A call of `bt_nus_send` and its result. -/
structure NusSend (Conn : Type) where
  conn : Conn
  data : Bytes appProtoRespMax
  len : UInt16
  err : Int

inductive Input (Conn : Type)
  | received (conn : Conn) (env : Env) (data : Payload)
  | retryWork (err : Int)
  | sendEnabled (enabled : Bool) (err : Int)
  | disconnected
  | elsewhere (device : Device)

theorem length_otaChecked_le (env : Env) (d : Device) (cmd : UInt8) {body : OtaState → OtaState × List UInt8}
    (h : ∀ ota, (body ota).2.length ≤ 2) : (otaChecked env d cmd body).2.length ≤ 2 := by
  unfold otaChecked
  dsimp only
  split
  · exact Nat.le_refl 2
  · exact h d.ota

theorem length_otaData_le (ota : OtaState) (data : List UInt8) : (otaData ota data).2.length ≤ 2 := by
  unfold otaData
  split
  · exact Nat.le_refl 2
  · split <;> exact Nat.zero_le 2

theorem length_appConfigHandleBle_le (env : Env) (d : Device) (data : Payload) :
    (appConfigHandleBle env d data).2.length ≤ appProtoRespMax := by
  have hTwo : 2 ≤ appProtoRespMax := by decide
  have hStart : ∀ ota, (otaStart ota data.bytes).2.length ≤ 2 := fun _ => Nat.le_refl 2
  have hData : ∀ ota, (otaData ota data.bytes).2.length ≤ 2 := fun ota => length_otaData_le ota data.bytes
  have hEnd : ∀ ota, (otaEnd ota).2.length ≤ 2 := fun _ => Nat.le_refl 2
  unfold appConfigHandleBle
  split
  · exact Nat.zero_le _
  · split
    · exact (length_otaChecked_le env d cmdOtaStart hStart).trans hTwo
    · exact (length_otaChecked_le env d cmdOtaData hData).trans hTwo
    · exact (length_otaChecked_le env d cmdOtaEnd hEnd).trans hTwo
    · exact length_reply_le_respMax env d.toAppState .ble data

section Callbacks

variable {Conn : Type} (s : State Conn)

/-- The static variables. -/
def State.boot (device : Device) : State Conn where
  device := device
  nusTxSubscribed := false
  respPending := false
  respLenPending := 0
  respConn := none
  respBuf := List.Vector.replicate appProtoRespMax 0
  retryCnt := 0
  sendRetryWork := false

def sendPendingResp (err : Int) : State Conn × Option (NusSend Conn) :=
  match s.respConn with
  | none => (s, none)
  | some conn =>
    if !s.respPending then (s, none)
    else
      let sent : NusSend Conn := ⟨conn, s.respBuf, s.respLenPending, err⟩
      if err ≠ 0 then
        let s := { s with retryCnt := s.retryCnt + 1 }
        if s.retryCnt ≥ respRetryMax then ({ s with respPending := false, retryCnt := 0 }, some sent)
        else ({ s with sendRetryWork := true }, some sent)
      else ({ s with respPending := false, retryCnt := 0 }, some sent)

/-- The work item runs only when it is scheduled. -/
def sendRetryHandler (err : Int) : State Conn × Option (NusSend Conn) :=
  if s.sendRetryWork then sendPendingResp { s with sendRetryWork := false } err else (s, none)

def nusSendEnabledCb (enabled : Bool) (err : Int) : State Conn × Option (NusSend Conn) :=
  let s := { s with nusTxSubscribed := enabled }
  if s.nusTxSubscribed then sendPendingResp s err else (s, none)

def disconnected : State Conn :=
  { s with
    respConn := none
    respPending := false
    nusTxSubscribed := false
    device := { s.device with auth := appAuthBleDisconnect s.device.auth } }

/-- `app_config_handle_ble` writes its reply into `resp_buf`. -/
def btReceiveCb (conn : Conn) (env : Env) (data : Payload) : State Conn :=
  if data.bytes.length < 1 then s
  else
    let handled := appConfigHandleBle env s.device data
    have hFits : 0 + handled.2.length ≤ appProtoRespMax := by
      rw [Nat.zero_add]
      exact length_appConfigHandleBle_le env s.device data
    let respLen := UInt16.ofNat handled.2.length
    let s := { s with device := handled.1, respBuf := s.respBuf.write 0 handled.2 hFits }
    if respLen > 0 then
      { s with respConn := some conn, respPending := true, respLenPending := respLen, sendRetryWork := true }
    else s

def step : Input Conn → State Conn × Option (NusSend Conn)
  | .received conn env data => (btReceiveCb s conn env data, none)
  | .retryWork err => sendRetryHandler s err
  | .sendEnabled enabled err => nusSendEnabledCb s enabled err
  | .disconnected => (disconnected s, none)
  | .elsewhere device => ({ s with device := device }, none)

end Callbacks

def machine (Conn : Type) : Machine (State Conn) (Input Conn) (Option (NusSend Conn)) := ⟨step⟩

/-! ## The reply that waits -/

structure Reply (Conn : Type) where
  conn : Conn
  bytes : List UInt8

/-- The bytes that `bt_nus_send` is asked to send. -/
def NusSend.reply {Conn : Type} (sent : NusSend Conn) : Reply Conn := ⟨sent.conn, sent.data.toList.take sent.len.toNat⟩

section Slot

variable {Conn : Type} (s : State Conn)

def State.held : Option (Reply Conn) :=
  match s.respConn with
  | none => none
  | some conn => if s.respPending then some ⟨conn, s.respBuf.toList.take s.respLenPending.toNat⟩ else none

/-- The attempt that brings `retry_cnt` to its maximum is the last one. -/
def LastAttempt : Prop := s.retryCnt + 1 ≥ respRetryMax

instance : Decidable (LastAttempt s) := inferInstanceAs (Decidable (_ ≥ _))

def sendOp : Option (NusSend Conn) → Op (Reply Conn)
  | none => .keep
  | some sent => if sent.err = 0 ∨ LastAttempt s then .drop else .keep

/-- What a callback does to the reply that waits. -/
def replyOp (i : Input Conn) : Op (Reply Conn) :=
  match i with
  | .received conn env data =>
    let resp := (appConfigHandleBle env s.device data).2
    if resp = [] then .keep else .put ⟨conn, resp⟩
  | .retryWork _ | .sendEnabled _ _ => sendOp s ((machine Conn).output s i)
  | .disconnected => .clear
  | .elsewhere _ => .keep

variable {s}

theorem held_eq_some_iff {reply : Reply Conn} :
    s.held = some reply ↔ s.respPending = true ∧ ∃ conn, s.respConn = some conn ∧
      (⟨conn, s.respBuf.toList.take s.respLenPending.toNat⟩ : Reply Conn) = reply := by
  unfold State.held
  cases s.respConn with
  | none => simp
  | some conn => cases s.respPending <;> simp

theorem sendPendingResp_of_none (h : s.held = none) (err : Int) : sendPendingResp s err = (s, none) := by
  obtain ⟨device, subscribed, pending, len, conn, buf, cnt, work⟩ := s
  cases conn with
  | none => rfl
  | some conn =>
    cases pending with
    | false => rfl
    | true => cases h

/-- A reply that waits is sent from its buffer, and stays after a failed attempt that is not the last. -/
theorem sendPendingResp_of_pending {conn : Conn} (hPending : s.respPending = true) (hConn : s.respConn = some conn)
    (err : Int) :
    sendPendingResp s err =
      (if err = 0 ∨ LastAttempt s then { s with respPending := false, retryCnt := 0 }
        else { s with retryCnt := s.retryCnt + 1, sendRetryWork := true },
        some ⟨conn, s.respBuf, s.respLenPending, err⟩) := by
  have hGo : ¬ (!s.respPending) = true := by rw [hPending]; decide
  rw [sendPendingResp, hConn]
  dsimp only
  rw [if_neg hGo]
  by_cases hErr : err = 0
  · rw [if_neg (not_not.mpr hErr), if_pos (Or.inl hErr)]
  · rw [if_pos hErr]
    by_cases hLast : s.retryCnt + 1 ≥ respRetryMax
    · have hDrop : err = 0 ∨ LastAttempt s := .inr hLast
      rw [if_pos hLast, if_pos hDrop]
    · have hKeep : ¬ (err = 0 ∨ LastAttempt s) := not_or.mpr ⟨hErr, hLast⟩
      rw [if_neg hLast, if_neg hKeep]

/-- A callback that may send calls `send_pending_resp`, or it leaves the reply alone. -/
inductive Attempt (s : State Conn) : State Conn × Option (NusSend Conn) → Prop
  | sends (subscribed work : Bool) (err : Int) :
      Attempt s (sendPendingResp { s with nusTxSubscribed := subscribed, sendRetryWork := work } err)
  | rests (subscribed : Bool) : Attempt s ({ s with nusTxSubscribed := subscribed }, none)

theorem attempt_sendRetryHandler (s : State Conn) (err : Int) : Attempt s (sendRetryHandler s err) := by
  unfold sendRetryHandler
  split
  · exact .sends s.nusTxSubscribed false err
  · exact .rests s.nusTxSubscribed

theorem attempt_nusSendEnabledCb (s : State Conn) (enabled : Bool) (err : Int) :
    Attempt s (nusSendEnabledCb s enabled err) := by
  cases enabled with
  | true => exact .sends true s.sendRetryWork err
  | false => exact .rests false

theorem held_sendPendingResp (err : Int) :
    (sendPendingResp s err).1.held = slot s.held (sendOp s (sendPendingResp s err).2) := by
  cases hHeld : s.held with
  | none => rw [sendPendingResp_of_none hHeld, hHeld, sendOp, slot]
  | some reply =>
    obtain ⟨hPending, conn, hConn, rfl⟩ := held_eq_some_iff.mp hHeld
    rw [sendPendingResp_of_pending hPending hConn]
    dsimp only [sendOp]
    split
    · rw [State.held, hConn]
      rfl
    · exact held_eq_some_iff.mpr ⟨hPending, conn, hConn, rfl⟩

theorem Attempt.held {r : State Conn × Option (NusSend Conn)} (h : Attempt s r) :
    r.1.held = slot s.held (sendOp s r.2) := by
  cases h with
  | sends subscribed work err => exact held_sendPendingResp err
  | rests => rfl

theorem btReceiveCb_of_silent (conn : Conn) {env : Env} {data : Payload}
    (h : (appConfigHandleBle env s.device data).2 = []) :
    btReceiveCb s conn env data = { s with device := (appConfigHandleBle env s.device data).1 } := by
  unfold btReceiveCb
  split
  · rename_i hLength
    rw [appConfigHandleBle, if_pos hLength]
  · have hZero : ¬ UInt16.ofNat (appConfigHandleBle env s.device data).2.length > 0 := by
      rw [h]
      decide
    have hBuf (hFits : 0 + (appConfigHandleBle env s.device data).2.length ≤ appProtoRespMax) :
        s.respBuf.write 0 (appConfigHandleBle env s.device data).2 hFits = s.respBuf := by
      apply List.Vector.toList_injective
      rw [Bytes.toList_write, h, writeAt_nil]
    dsimp only
    rw [if_neg hZero, hBuf]

theorem btReceiveCb_of_reply (conn : Conn) {env : Env} {data : Payload}
    (h : (appConfigHandleBle env s.device data).2 ≠ []) :
    ∃ buf len, buf.toList.take len.toNat = (appConfigHandleBle env s.device data).2 ∧ len.toNat ≤ appProtoRespMax ∧
      btReceiveCb s conn env data =
        { s with
          device := (appConfigHandleBle env s.device data).1
          respPending := true
          respLenPending := len
          respConn := some conn
          respBuf := buf
          sendRetryWork := true } := by
  have hLength := length_appConfigHandleBle_le env s.device data
  have hLen : (UInt16.ofNat (appConfigHandleBle env s.device data).2.length).toNat =
      (appConfigHandleBle env s.device data).2.length :=
    UInt16.toNat_ofNat_of_lt' (Nat.lt_of_le_of_lt hLength (by decide))
  have hPos : UInt16.ofNat (appConfigHandleBle env s.device data).2.length > 0 := by
    rw [gt_iff_lt, UInt16.lt_iff_toNat_lt, hLen]
    exact List.length_pos_iff.mpr h
  have hData : ¬ data.bytes.length < 1 := fun hShort => h (by rw [appConfigHandleBle, if_pos hShort])
  refine ⟨s.respBuf.write 0 (appConfigHandleBle env s.device data).2 ((Nat.zero_add _).trans_le hLength),
    UInt16.ofNat (appConfigHandleBle env s.device data).2.length, ?_, hLen.trans_le hLength, ?_⟩
  · rw [Bytes.toList_write, writeAt_zero, hLen, List.take_left]
  · rw [btReceiveCb, if_neg hData]
    exact if_pos hPos

theorem device_btReceiveCb (conn : Conn) (env : Env) (data : Payload) :
    (btReceiveCb s conn env data).device = (appConfigHandleBle env s.device data).1 := by
  by_cases hSilent : (appConfigHandleBle env s.device data).2 = []
  · rw [btReceiveCb_of_silent conn hSilent]
  · obtain ⟨buf, len, -, -, hNext⟩ := btReceiveCb_of_reply conn hSilent
    rw [hNext]

theorem device_sendPendingResp (err : Int) : (sendPendingResp s err).1.device = s.device := by
  cases hHeld : s.held with
  | none => rw [sendPendingResp_of_none hHeld]
  | some reply =>
    obtain ⟨hPending, conn, hConn, -⟩ := held_eq_some_iff.mp hHeld
    rw [sendPendingResp_of_pending hPending hConn]
    dsimp only
    split <;> rfl

theorem Attempt.device {r : State Conn × Option (NusSend Conn)} (h : Attempt s r) : r.1.device = s.device := by
  cases h with
  | sends subscribed work err => exact device_sendPendingResp err
  | rests => rfl

theorem held_btReceiveCb (conn : Conn) (env : Env) (data : Payload) :
    (btReceiveCb s conn env data).held = slot s.held (replyOp s (.received conn env data)) := by
  dsimp only [replyOp]
  by_cases hSilent : (appConfigHandleBle env s.device data).2 = []
  · rw [if_pos hSilent, btReceiveCb_of_silent conn hSilent]
    rfl
  · obtain ⟨buf, len, hReply, -, hNext⟩ := btReceiveCb_of_reply conn hSilent
    rw [if_neg hSilent, hNext, ← hReply]
    rfl

theorem holds_machine : Holds (machine Conn) State.held replyOp := by
  intro s i
  cases i with
  | received conn env data => exact held_btReceiveCb conn env data
  | retryWork err => exact (attempt_sendRetryHandler s err).held
  | sendEnabled enabled err => exact (attempt_nusSendEnabledCb s enabled err).held
  | disconnected => rfl
  | elsewhere device => rfl

theorem Attempt.held_of_output {r : State Conn × Option (NusSend Conn)} (h : Attempt s r) {sent : NusSend Conn}
    (hSent : r.2 = some sent) : s.held = some sent.reply ∧ sent.len = s.respLenPending := by
  cases h with
  | sends subscribed work err =>
    cases hHeld : ({ s with nusTxSubscribed := subscribed, sendRetryWork := work } : State Conn).held with
    | none =>
      rw [sendPendingResp_of_none hHeld] at hSent
      cases hSent
    | some reply =>
      obtain ⟨hPending, conn, hConn, rfl⟩ := held_eq_some_iff.mp hHeld
      rw [sendPendingResp_of_pending hPending hConn] at hSent
      obtain rfl := Option.some.inj hSent
      exact ⟨hHeld, rfl⟩
  | rests => cases hSent

/-- `bt_nus_send` gets the reply that waits. -/
theorem held_of_output {i : Input Conn} {sent : NusSend Conn} (h : (machine Conn).output s i = some sent) :
    s.held = some sent.reply ∧ sent.len = s.respLenPending := by
  cases i with
  | received | disconnected | elsewhere => cases h
  | retryWork err => exact (attempt_sendRetryHandler s err).held_of_output h
  | sendEnabled enabled err => exact (attempt_nusSendEnabledCb s enabled err).held_of_output h

theorem held_ne_none_of_mem_output {i : Input Conn} {sent : NusSend Conn} (h : sent ∈ (machine Conn).output s i) :
    s.held ≠ none := by
  rw [(held_of_output (Option.mem_def.mp h)).1]
  exact Option.some_ne_none _

end Slot

/-! ## The length and the work item -/

/-- The length is one of the buffer, and a reply that waits has its work item scheduled. -/
structure State.Sound {Conn : Type} (s : State Conn) : Prop where
  len : s.respLenPending.toNat ≤ appProtoRespMax
  scheduled : s.held ≠ none → s.sendRetryWork = true

section Sound

variable {Conn : Type} {s : State Conn}

theorem sound_sendPendingResp (hLen : s.respLenPending.toNat ≤ appProtoRespMax) (err : Int) :
    (sendPendingResp s err).1.Sound := by
  cases hHeld : s.held with
  | none =>
    rw [sendPendingResp_of_none hHeld]
    exact ⟨hLen, fun hSome => absurd hHeld hSome⟩
  | some reply =>
    obtain ⟨hPending, conn, hConn, -⟩ := held_eq_some_iff.mp hHeld
    rw [sendPendingResp_of_pending hPending hConn]
    dsimp only
    split
    · refine ⟨hLen, fun hSome => absurd ?_ hSome⟩
      rw [State.held, hConn]
      rfl
    · exact ⟨hLen, fun _ => rfl⟩

theorem Attempt.sound {r : State Conn × Option (NusSend Conn)} (h : Attempt s r) (hSound : s.Sound) : r.1.Sound := by
  cases h with
  | sends subscribed work err =>
    apply sound_sendPendingResp
    exact hSound.len
  | rests => exact ⟨hSound.len, hSound.scheduled⟩

theorem sound_btReceiveCb (h : s.Sound) (conn : Conn) (env : Env) (data : Payload) :
    (btReceiveCb s conn env data).Sound := by
  by_cases hSilent : (appConfigHandleBle env s.device data).2 = []
  · rw [btReceiveCb_of_silent conn hSilent]
    exact ⟨h.len, h.scheduled⟩
  · obtain ⟨buf, len, -, hLen, hNext⟩ := btReceiveCb_of_reply conn hSilent
    rw [hNext]
    exact ⟨hLen, fun _ => rfl⟩

theorem sound_next (h : s.Sound) (i : Input Conn) : ((machine Conn).next s i).Sound := by
  cases i with
  | received conn env data => exact sound_btReceiveCb h conn env data
  | retryWork err => exact (attempt_sendRetryHandler s err).sound h
  | sendEnabled enabled err => exact (attempt_nusSendEnabledCb s enabled err).sound h
  | disconnected => exact ⟨h.len, fun hHeld => absurd rfl hHeld⟩
  | elsewhere device => exact ⟨h.len, h.scheduled⟩

end Sound

end IotRange.BleUart
