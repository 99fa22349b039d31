import IotRange.FlashUpdate
import IotRange.Library.Simulation
import IotRange.NfcReply
import IotRange.ShellCmd

/-! # The whole program

BLE, the tag, the flash and the shell act on one device. Each handler is one step, in any order.
What the firmware does once it has read the message outside its buffer is left open.
-/
namespace IotRange.Program
open AppAuth AppProtocol AppConfig Device NfcReply Machine
set_option autoImplicit false

/-- The libraries and CONFIG_NDEF_FILE_SIZE. -/
structure Platform where
  lib : NdefFileLib
  documented : lib.Documented
  files : NdefFile.FileSystem
  size : Nat
  two_le_size : 2 ≤ size
  size_lt : size < 2 ^ 32

structure State (p : Platform) (Conn : Type) where
  /-- ble_uart.c, with the device. -/
  ble : BleUart.State Conn
  /-- main.c, with the tag. -/
  flash : FlashUpdate.State p.size p.files.Fs
  outOfBounds : Bool

inductive Input (size : Nat) (Conn : Type)
  | received (conn : Conn) (env : Env) (data : Payload)
  | retryWork (err : Int)
  | sendEnabled (enabled : Bool) (err : Int)
  | disconnected (uptime : Nat)
  | tagWrite (file : Bytes size)
  | ndefUpdated (env : Env) (dataLength : Nat)
  | callback
  | loop
  | setter (c : SetterCall)
  | configGet (env : Env)

structure Output (Conn : Type) where
  sent : Option (BleUart.NusSend Conn)
  flashed : Option (List UInt8)

namespace Platform

variable (p : Platform)

def buffer (file : Bytes p.size) : Buffer := ⟨file.toList, file.toList_length.trans_lt p.size_lt⟩

variable {p} (env : Env) (d : Device) (buf : Bytes p.size)

/-- The request that `app_config_handle_ndef` finds in `ndef_msg_buf`. -/
def tagRequest : Except OutOfBounds (Option Payload) :=
  ndefRequest ((p.buffer buf).bytes.drop p.lib.msgOffset) (p.lib.msgSizeGet (p.buffer buf).length)

@[simp] theorem length_buffer : (p.buffer buf).bytes.length = p.size := buf.toList_length

theorem length_replyFile (reply : List UInt8) (hFits : 21 + reply.length ≤ p.size) :
    (replyFile (p.buffer buf) reply).length = p.size := by
  have hDrop : ((p.buffer buf).bytes.drop (2 + (responseRecord reply).length)).length =
      p.size - (2 + (responseRecord reply).length) := by rw [List.length_drop, length_buffer]
  rw [replyFile, List.length_append, List.length_append, hDrop, length_be16, length_responseRecord]
  omega

/-- Without a request nothing changes; with one the device handles it, and the reply replaces the
message if it fits. -/
theorem appConfigHandleNdef_cases :
    (∃ e, tagRequest buf = .error e ∧ appConfigHandleNdef p.lib env d (p.buffer buf) = .error e) ∨
      (tagRequest buf = .ok none ∧
        appConfigHandleNdef p.lib env d (p.buffer buf) = .ok (false, d, buf.toList)) ∨
      ∃ req, tagRequest buf = .ok (some req) ∧
        appConfigHandleNdef p.lib env d (p.buffer buf) =
          .ok (if (handleRequest env d .nfc req).2.length = 0 ∨
              p.size < 21 + (handleRequest env d .nfc req).2.length then
              (false, (handleRequest env d .nfc req).1, buf.toList)
            else (true, (handleRequest env d .nfc req).1,
              replyFile (p.buffer buf) (handleRequest env d .nfc req).2)) := by
  match hReq : tagRequest buf with
  | .error e =>
    refine .inl ⟨e, rfl, ?_⟩
    rw [tagRequest] at hReq
    rw [appConfigHandleNdef]
    dsimp only
    rw [hReq]
    rfl
  | .ok none =>
    refine .inr (.inl ⟨rfl, ?_⟩)
    rw [tagRequest] at hReq
    rw [appConfigHandleNdef]
    dsimp only
    rw [hReq]
    rfl
  | .ok (some req) =>
    have hTwo : 2 ≤ (p.buffer buf).bytes.length := (length_buffer buf).symm ▸ p.two_le_size
    refine .inr (.inr ⟨req, rfl, ?_⟩)
    rw [appConfigHandleNdef_eq p.documented hTwo hReq, length_buffer]
    rfl

variable {env d buf} in
theorem length_appConfigHandleNdef {handled : Bool} {d' : Device} {file : List UInt8}
    (h : appConfigHandleNdef p.lib env d (p.buffer buf) = .ok (handled, d', file)) :
    file.length = p.size := by
  obtain ⟨e, -, hEq⟩ | ⟨-, hEq⟩ | ⟨req, -, hEq⟩ := appConfigHandleNdef_cases env d buf
  · cases hEq.symm.trans h
  · obtain ⟨-, -, rfl⟩ := Prod.mk.inj (Except.ok.inj (hEq.symm.trans h))
    exact buf.toList_length
  · have hOk := Except.ok.inj (hEq.symm.trans h)
    split at hOk
    · obtain ⟨-, -, rfl⟩ := Prod.mk.inj hOk
      exact buf.toList_length
    · rename_i hReply
      obtain ⟨-, -, rfl⟩ := Prod.mk.inj hOk
      exact length_replyFile buf _ (not_lt.mp (not_or.mp hReply).2)

/-- `app_config_handle_ndef` on `ndef_msg_buf`. -/
def handleNdef : Except OutOfBounds (Bool × Device × Bytes p.size) :=
  match h : appConfigHandleNdef p.lib env d (p.buffer buf) with
  | .error e => .error e
  | .ok (handled, d', file) => .ok (handled, d', ⟨file, length_appConfigHandleNdef h⟩)

variable {env d buf} in
theorem handleNdef_eq_ok_iff {handled : Bool} {d' : Device} {file : Bytes p.size} :
    handleNdef env d buf = .ok (handled, d', file) ↔
      appConfigHandleNdef p.lib env d (p.buffer buf) = .ok (handled, d', file.toList) := by
  unfold handleNdef
  constructor
  · intro h
    split at h
    · cases h
    · rename_i hOk
      obtain ⟨rfl, rfl, rfl⟩ := by simpa using Except.ok.inj h
      exact hOk
  · intro h
    split
    · rename_i hError
      cases hError.symm.trans h
    · rename_i hOk
      obtain ⟨rfl, rfl, rfl⟩ := by simpa using Except.ok.inj (hOk.symm.trans h)
      rfl

variable {env d buf} in
theorem handleNdef_eq_error {e : OutOfBounds} (h : handleNdef env d buf = .error e) :
    appConfigHandleNdef p.lib env d (p.buffer buf) = .error e := by
  unfold handleNdef at h
  split at h
  · rename_i hError
    rw [hError, Except.error.inj h]
  · cases h

/-- The inputs of the device in what the NFC side handles. -/
def tagInputs : List LocalInput :=
  match tagRequest buf with
  | .ok (some req) => [.wire ⟨env.uptime, .request .nfc env.rand req⟩]
  | .ok none | .error _ => []

/-- The device after a tag that has been read inside its buffer. -/
theorem device_handleNdef {handled : Bool} {d' : Device} {file : Bytes p.size}
    (h : handleNdef env d buf = .ok (handled, d', file)) : localMachine.run d (tagInputs env buf) = d' := by
  have hOk := handleNdef_eq_ok_iff.mp h
  obtain ⟨e, -, hEq⟩ | ⟨hReq, hEq⟩ | ⟨req, hReq, hEq⟩ := appConfigHandleNdef_cases env d buf
  · cases hEq.symm.trans hOk
  · rw [tagInputs, hReq]
    exact congrArg (fun r : Bool × Device × List UInt8 => r.2.1) (Except.ok.inj (hEq.symm.trans hOk))
  · have hPair := Except.ok.inj (hEq.symm.trans hOk)
    rw [tagInputs, hReq]
    split at hPair <;> exact congrArg (fun r : Bool × Device × List UInt8 => r.2.1) hPair

variable {env d buf} in
theorem handleNdef_of_request {req : Payload} (hReq : tagRequest buf = .ok (some req)) :
    (((handleRequest env d .nfc req).2 = [] ∨ p.size < 21 + (handleRequest env d .nfc req).2.length) ∧
        handleNdef env d buf = .ok (false, (handleRequest env d .nfc req).1, buf)) ∨
      ∃ file : Bytes p.size, (handleRequest env d .nfc req).2 ≠ [] ∧
        file.toList = replyFile (p.buffer buf) (handleRequest env d .nfc req).2 ∧
        handleNdef env d buf = .ok (true, (handleRequest env d .nfc req).1, file) := by
  obtain ⟨e, hNone, -⟩ | ⟨hNone, -⟩ | ⟨req', hReq', hEq⟩ := appConfigHandleNdef_cases env d buf
  · cases hNone.symm.trans hReq
  · cases hNone.symm.trans hReq
  · obtain rfl := Option.some.inj (Except.ok.inj (hReq'.symm.trans hReq))
    simp only [List.length_eq_zero_iff] at hEq
    split at hEq
    · rename_i hSilent
      exact .inl ⟨hSilent, handleNdef_eq_ok_iff.mpr hEq⟩
    · rename_i hAnswered
      obtain ⟨hReply, hFits⟩ := not_or.mp hAnswered
      refine .inr ⟨⟨_, length_replyFile buf _ (not_lt.mp hFits)⟩, hReply, rfl, handleNdef_eq_ok_iff.mpr hEq⟩

theorem tagInputs_of_error {e : OutOfBounds} (h : handleNdef env d buf = .error e) : tagInputs env buf = [] := by
  obtain ⟨e', hReq, -⟩ | ⟨hReq, -⟩ | ⟨req, hReq, hEq⟩ := appConfigHandleNdef_cases env d buf
  · rw [tagInputs, hReq]
  · rw [tagInputs, hReq]
  · cases hEq.symm.trans (handleNdef_eq_error h)

end Platform

/-! ## The steps -/

section Step

variable {p : Platform} {Conn : Type} (s : State p Conn)

/-- A step of ble_uart.c. -/
def bleStep (i : BleUart.Input Conn) : State p Conn × Output Conn :=
  ({ s with ble := (BleUart.machine Conn).next s.ble i }, ⟨(BleUart.machine Conn).output s.ble i, none⟩)

/-- A step of main.c. -/
def flashStep (i : FlashUpdate.Input p.size) : State p Conn × Output Conn :=
  ({ s with flash := (FlashUpdate.machine p.files p.size).next s.flash i },
    ⟨none, (FlashUpdate.machine p.files p.size).output s.flash i⟩)

def deviceStep (d : Device) : State p Conn × Output Conn := bleStep s (.elsewhere d)

/-- `nfc_callback` waits for the callback before it. -/
def nfcCallback (env : Env) (dataLength : Nat) : State p Conn × Output Conn :=
  match s.flash.callback with
  | .idle =>
    if 0 < dataLength then
      match Platform.handleNdef env s.ble.device s.flash.ndefMsgBuf with
      | .error _ => ({ s with outOfBounds := true }, ⟨none, none⟩)
      | .ok (handled, d, file) => flashStep (deviceStep s d).1 (.updated dataLength handled file)
    else (s, ⟨none, none⟩)
  | _ => (s, ⟨none, none⟩)

def step (i : Input p.size Conn) : State p Conn × Output Conn :=
  if s.outOfBounds then (s, ⟨none, none⟩)
  else
    match i with
    | .received conn env data => bleStep s (.received conn env data)
    | .retryWork err => bleStep s (.retryWork err)
    | .sendEnabled enabled err => bleStep s (.sendEnabled enabled err)
    | .disconnected _ => bleStep s .disconnected
    | .tagWrite file => flashStep s (.write file)
    | .ndefUpdated env dataLength => nfcCallback s env dataLength
    | .callback => flashStep s .callback
    | .loop => flashStep s .loop
    | .setter c => deviceStep s { s.ble.device with fields := c.apply s.ble.device.fields }
    | .configGet env => deviceStep s (ShellCmd.cmdConfigGet env s.ble.device).1

end Step

def machine (p : Platform) (Conn : Type) : Machine (State p Conn) (Input p.size Conn) (Output Conn) := ⟨step⟩

/-! ## What a step is to each part -/

section Parts

variable {p : Platform} {Conn : Type} (s : State p Conn) (i : Input p.size Conn)

def bleInputs : List (BleUart.Input Conn) :=
  if s.outOfBounds then []
  else
    match i with
    | .received conn env data => [.received conn env data]
    | .retryWork err => [.retryWork err]
    | .sendEnabled enabled err => [.sendEnabled enabled err]
    | .disconnected _ => [.disconnected]
    | .tagWrite _ | .callback | .loop => []
    | .ndefUpdated _ _ | .setter _ | .configGet _ => [.elsewhere ((machine p Conn).next s i).ble.device]

def flashInputs : List (FlashUpdate.Input p.size) :=
  if s.outOfBounds then []
  else
    match i with
    | .tagWrite file => [.write file]
    | .ndefUpdated env dataLength =>
      match Platform.handleNdef env s.ble.device s.flash.ndefMsgBuf with
      | .error _ => []
      | .ok (handled, _, file) => [.updated dataLength handled file]
    | .callback => [.callback]
    | .loop => [.loop]
    | .received _ _ _ | .retryWork _ | .sendEnabled _ _ | .disconnected _ | .setter _ | .configGet _ => []

def deviceInputs : List LocalInput :=
  if s.outOfBounds then []
  else
    match i with
    | .received _ env data => [.wire ⟨env.uptime, .request .ble env.rand data⟩]
    | .disconnected uptime => [.wire ⟨uptime, .bleDisconnect⟩]
    | .ndefUpdated env dataLength =>
      match s.flash.callback with
      | .idle => if 0 < dataLength then Platform.tagInputs env s.flash.ndefMsgBuf else []
      | _ => []
    | .setter c => [.call c]
    | .configGet env => [.wire ⟨env.uptime, .request .ble env.rand ShellCmd.readAllRequest⟩]
    | .retryWork _ | .sendEnabled _ _ | .tagWrite _ | .callback | .loop => []

/-- An NFC callback waits, or finds nothing, or reads outside the message, or hands on what it has read. -/
theorem nfcCallback_cases (env : Env) (dataLength : Nat) :
    ((s.flash.callback ≠ .idle ∨ dataLength = 0) ∧ nfcCallback s env dataLength = (s, ⟨none, none⟩)) ∨
      (∃ e, s.flash.callback = .idle ∧ Platform.handleNdef env s.ble.device s.flash.ndefMsgBuf = .error e ∧
        nfcCallback s env dataLength = ({ s with outOfBounds := true }, ⟨none, none⟩)) ∨
      ∃ handled d file, s.flash.callback = .idle ∧ 0 < dataLength ∧
        Platform.handleNdef env s.ble.device s.flash.ndefMsgBuf = .ok (handled, d, file) ∧
        nfcCallback s env dataLength =
          ({ s with
              ble := { s.ble with device := d }
              flash := FlashUpdate.nfcCallback p.files s.flash dataLength handled file }, ⟨none, none⟩) := by
  unfold nfcCallback
  split
  · rename_i hIdle
    split
    · rename_i hPos
      split
      · rename_i e hError
        exact .inr (.inl ⟨e, hIdle, hError, rfl⟩)
      · rename_i handled d file hOk
        refine .inr (.inr ⟨handled, d, file, hIdle, hPos, hOk, ?_⟩)
        refine Prod.ext ?_ rfl
        change ({ s with
          ble := { s.ble with device := d }
          flash := (FlashUpdate.machine p.files p.size).next s.flash
            (.updated dataLength handled file) } : State p Conn) = _
        rw [FlashUpdate.next_updated_of_idle p.files dataLength handled file hIdle]
    · rename_i hZero
      exact .inl ⟨.inr (Nat.eq_zero_of_not_pos hZero), rfl⟩
  · rename_i hBusy
    exact .inl ⟨.inl hBusy, rfl⟩

theorem nfcCallback_of_ok {env : Env} {dataLength : Nat} {handled : Bool} {d : Device} {file : Bytes p.size}
    (hIdle : s.flash.callback = .idle) (hPos : 0 < dataLength)
    (hOk : Platform.handleNdef env s.ble.device s.flash.ndefMsgBuf = .ok (handled, d, file)) :
    nfcCallback s env dataLength =
      ({ s with
          ble := { s.ble with device := d }
          flash :=
            if handled then { s.flash with ndefMsgBuf := file }
            else { s.flash with ndefMsgBuf := file, callback := .cas dataLength } }, ⟨none, none⟩) := by
  obtain ⟨hBusy | hZero, -⟩ | ⟨e, -, hError, -⟩ | ⟨handled', d', file', -, -, hOk', hNext⟩ :=
    nfcCallback_cases s env dataLength
  · exact absurd hIdle hBusy
  · exact absurd hPos (hZero ▸ Nat.lt_irrefl 0)
  · cases hError.symm.trans hOk
  · obtain ⟨rfl, rfl, rfl⟩ := by simpa using Except.ok.inj (hOk'.symm.trans hOk)
    rw [hNext, FlashUpdate.nfcCallback, if_pos hPos]
    cases handled' <;> rfl

theorem step_of_inside (h : s.outOfBounds = false) {env : Env} {dataLength : Nat} :
    step s (.ndefUpdated env dataLength) = nfcCallback s env dataLength := if_neg (Bool.not_eq_true _ ▸ h)

/-- To ble_uart.c the shell is somebody else. -/
theorem ble_configGet (ble : BleUart.State Conn) (flash : FlashUpdate.State p.size p.files.Fs) (env : Env) :
    (BleUart.machine Conn).run ble (bleInputs (p := p) ⟨ble, flash, false⟩ (.configGet env)) =
      ((machine p Conn).next ⟨ble, flash, false⟩ (.configGet env)).ble := by
  have hNext (d : Device) : (deviceStep (p := p) ⟨ble, flash, false⟩ d).1.ble = { ble with device := d } := rfl
  change { ble with device :=
    (deviceStep (p := p) ⟨ble, flash, false⟩ (ShellCmd.cmdConfigGet env ble.device).1).1.ble.device } =
    (deviceStep (p := p) ⟨ble, flash, false⟩ (ShellCmd.cmdConfigGet env ble.device).1).1.ble
  rw [hNext]

theorem simulates_ble : (machine p Conn).Simulates (BleUart.machine Conn) (fun _ => True) State.ble bleInputs where
  invariant _ _ _ := trivial
  step s i _ := by
    obtain ⟨ble, flash, outOfBounds⟩ := s
    cases outOfBounds with
    | true => rfl
    | false =>
      cases i with
      | ndefUpdated env dataLength =>
        change { ble with device := (nfcCallback _ env dataLength).1.ble.device } = (nfcCallback _ env dataLength).1.ble
        obtain ⟨-, hSame⟩ | ⟨e, -, -, hOut⟩ | ⟨handled, d, file, -, -, -, hNext⟩ :=
          nfcCallback_cases ⟨ble, flash, false⟩ env dataLength
        · rw [hSame]
        · rw [hOut]
        · rw [hNext]
      | configGet env => exact ble_configGet ble flash env
      | _ => rfl

/-- `NDEF_UPDATED` is to the flash what `app_config_handle_ndef` returns and leaves. -/
theorem flash_ndefUpdated (ble : BleUart.State Conn) (flash : FlashUpdate.State p.size p.files.Fs) (env : Env)
    (dataLength : Nat) :
    (FlashUpdate.machine p.files p.size).run flash (flashInputs ⟨ble, flash, false⟩ (.ndefUpdated env dataLength)) =
      ((machine p Conn).next ⟨ble, flash, false⟩ (.ndefUpdated env dataLength)).flash := by
  have hInputs : flashInputs (⟨ble, flash, false⟩ : State p Conn) (.ndefUpdated env dataLength) =
      match Platform.handleNdef env ble.device flash.ndefMsgBuf with
      | .error _ => []
      | .ok (handled, _, file) => [.updated dataLength handled file] := rfl
  change _ = (nfcCallback ⟨ble, flash, false⟩ env dataLength).1.flash
  rw [hInputs]
  obtain ⟨hWaits, hSame⟩ | ⟨e, -, hError, hOut⟩ | ⟨handled, d, file, hIdle, -, hOk, hNext⟩ :=
    nfcCallback_cases ⟨ble, flash, false⟩ env dataLength
  · rw [hSame]
    split
    · rfl
    · rename_i handled d file hOk
      change (FlashUpdate.machine p.files p.size).next flash (.updated dataLength handled file) = flash
      obtain hNext | ⟨hIdle, hNext⟩ := FlashUpdate.next_updated_cases p.files flash dataLength handled file
      · exact hNext
      · obtain hBusy | rfl := hWaits
        · exact absurd hIdle hBusy
        · exact hNext
  · rw [hOut, hError]
    rfl
  · rw [hNext, hOk]
    exact FlashUpdate.next_updated_of_idle p.files dataLength handled file hIdle

theorem device_ndefUpdated (ble : BleUart.State Conn) (flash : FlashUpdate.State p.size p.files.Fs) (env : Env)
    (dataLength : Nat) :
    localMachine.run ble.device (deviceInputs (⟨ble, flash, false⟩ : State p Conn) (.ndefUpdated env dataLength)) =
      ((machine p Conn).next ⟨ble, flash, false⟩ (.ndefUpdated env dataLength)).ble.device := by
  have hInputs : deviceInputs (⟨ble, flash, false⟩ : State p Conn) (.ndefUpdated env dataLength) =
      match flash.callback with
      | .idle => if 0 < dataLength then Platform.tagInputs env flash.ndefMsgBuf else []
      | _ => [] := rfl
  change _ = (nfcCallback ⟨ble, flash, false⟩ env dataLength).1.ble.device
  rw [hInputs]
  obtain ⟨hWaits, hSame⟩ | ⟨e, hIdle, hError, hOut⟩ | ⟨handled, d, file, hIdle, hPos, hOk, hNext⟩ :=
    nfcCallback_cases ⟨ble, flash, false⟩ env dataLength
  · rw [hSame]
    split
    · rename_i hIdle
      obtain hBusy | rfl := hWaits
      · exact absurd hIdle hBusy
      · rfl
    · rfl
  · have hNone : Platform.tagInputs env flash.ndefMsgBuf = [] := Platform.tagInputs_of_error env ble.device _ hError
    rw [hOut, hNone, ite_self]
    split <;> rfl
  · have hIdle' : flash.callback = .idle := hIdle
    rw [hNext, hIdle']
    dsimp only
    rw [if_pos hPos]
    exact Platform.device_handleNdef env ble.device _ hOk

theorem simulates_flash :
    (machine p Conn).Simulates (FlashUpdate.machine p.files p.size) (fun _ => True) State.flash flashInputs where
  invariant _ _ _ := trivial
  step s i _ := by
    obtain ⟨ble, flash, outOfBounds⟩ := s
    cases outOfBounds with
    | true => rfl
    | false =>
      cases i with
      | ndefUpdated env dataLength => exact flash_ndefUpdated ble flash env dataLength
      | _ => rfl

/-- To the device the shell is another BLE client. -/
theorem device_configGet (ble : BleUart.State Conn) (flash : FlashUpdate.State p.size p.files.Fs) (env : Env) :
    localMachine.run ble.device (deviceInputs (p := p) ⟨ble, flash, false⟩ (.configGet env)) =
      ((machine p Conn).next ⟨ble, flash, false⟩ (.configGet env)).ble.device := by
  have hRequest (req : Payload) : localMachine.run ble.device [.wire ⟨env.uptime, .request .ble env.rand req⟩] =
      (handleRequest env ble.device .ble req).1 := rfl
  have hNext (d : Device) : (deviceStep (p := p) ⟨ble, flash, false⟩ d).1.ble.device = d := rfl
  change localMachine.run ble.device [.wire ⟨env.uptime, .request .ble env.rand ShellCmd.readAllRequest⟩] =
    (deviceStep (p := p) ⟨ble, flash, false⟩ (ShellCmd.cmdConfigGet env ble.device).1).1.ble.device
  rw [hNext, hRequest, ShellCmd.device_cmdConfigGet]

theorem simulates_device :
    (machine p Conn).Simulates localMachine (fun _ => True) (fun s => s.ble.device) deviceInputs where
  invariant _ _ _ := trivial
  step s i _ := by
    obtain ⟨ble, flash, outOfBounds⟩ := s
    cases outOfBounds with
    | true => rfl
    | false =>
      cases i with
      | received conn env data => exact (BleUart.device_btReceiveCb conn env data).symm
      | retryWork err => exact (BleUart.attempt_sendRetryHandler ble err).device.symm
      | sendEnabled enabled err => exact (BleUart.attempt_nusSendEnabledCb ble enabled err).device.symm
      | ndefUpdated env dataLength => exact device_ndefUpdated ble flash env dataLength
      | configGet env => exact device_configGet ble flash env
      | _ => rfl

def sends (s : State p Conn) (i : Input p.size Conn) : List (BleUart.NusSend Conn) :=
  ((machine p Conn).output s i).sent.toList

def updates (s : State p Conn) (i : Input p.size Conn) : List (List UInt8) :=
  ((machine p Conn).output s i).flashed.toList

theorem output_nfcCallback (env : Env) (dataLength : Nat) : (nfcCallback s env dataLength).2 = ⟨none, none⟩ := by
  obtain ⟨-, hSame⟩ | ⟨e, -, -, hOut⟩ | ⟨handled, d, file, -, -, -, hNext⟩ := nfcCallback_cases s env dataLength
  · rw [hSame]
  · rw [hOut]
  · rw [hNext]

theorem sends_step :
    (BleUart.machine Conn).observe (fun ble j => ((BleUart.machine Conn).output ble j).toList) s.ble (bleInputs s i) =
      sends s i := by
  obtain ⟨ble, flash, outOfBounds⟩ := s
  cases outOfBounds with
  | true => rfl
  | false =>
    cases i with
    | ndefUpdated env dataLength =>
      change [] = (nfcCallback _ env dataLength).2.sent.toList
      rw [output_nfcCallback]
      rfl
    | received | disconnected | tagWrite | callback | loop | setter | configGet => rfl
    | retryWork | sendEnabled => exact List.append_nil _

theorem updates_step :
    (FlashUpdate.machine p.files p.size).observe
      (fun flash j => ((FlashUpdate.machine p.files p.size).output flash j).toList) s.flash (flashInputs s i) =
      updates s i := by
  obtain ⟨ble, flash, outOfBounds⟩ := s
  cases outOfBounds with
  | true => rfl
  | false =>
    cases i with
    | ndefUpdated env dataLength =>
      change _ = (nfcCallback _ env dataLength).2.flashed.toList
      rw [output_nfcCallback, flashInputs, if_neg Bool.false_ne_true]
      dsimp only
      split <;> rfl
    | loop => exact List.append_nil _
    | _ => rfl

/-- Every run of the program is, at the same time, a run of each part, and sends and stores what
the parts do. -/
theorem parts_run (is : List (Input p.size Conn)) :
    ((BleUart.machine Conn).run s.ble ((machine p Conn).observe bleInputs s is) = ((machine p Conn).run s is).ble ∧
      (BleUart.machine Conn).observe (fun ble j => ((BleUart.machine Conn).output ble j).toList) s.ble
        ((machine p Conn).observe bleInputs s is) = (machine p Conn).observe sends s is) ∧
    ((FlashUpdate.machine p.files p.size).run s.flash ((machine p Conn).observe flashInputs s is) =
        ((machine p Conn).run s is).flash ∧
      (FlashUpdate.machine p.files p.size).observe
        (fun flash j => ((FlashUpdate.machine p.files p.size).output flash j).toList) s.flash
        ((machine p Conn).observe flashInputs s is) = (machine p Conn).observe updates s is) ∧
    localMachine.run s.ble.device ((machine p Conn).observe deviceInputs s is) =
      ((machine p Conn).run s is).ble.device := by
  refine ⟨⟨?_, ?_⟩, ⟨?_, ?_⟩, ?_⟩
  · exact simulates_ble.run trivial is
  · exact simulates_ble.observe (fun s i _ => sends_step s i) trivial is
  · exact simulates_flash.run trivial is
  · exact simulates_flash.observe (fun s i _ => updates_step s i) trivial is
  · exact simulates_device.run trivial is

end Parts

/-! ## A reply in the tag -/

section Tag

variable {p : Platform} {Conn : Type} {s : State p Conn}

/-- An input that leaves the message in the tag to its reader. -/
def LeavesTag (i : Input p.size Conn) : Prop :=
  match i with
  | .tagWrite _ | .ndefUpdated _ _ => False
  | .received _ _ _ | .retryWork _ | .sendEnabled _ _ | .disconnected _ | .callback | .loop | .setter _
  | .configGet _ => True

theorem ndefMsgBuf_next {i : Input p.size Conn} (h : LeavesTag i) :
    ((machine p Conn).next s i).flash.ndefMsgBuf = s.flash.ndefMsgBuf := by
  obtain ⟨ble, flash, outOfBounds⟩ := s
  cases outOfBounds with
  | true => rfl
  | false =>
    cases i with
    | tagWrite | ndefUpdated => exact h.elim
    | callback =>
      change (FlashUpdate.flashBufferPrepare p.files flash).ndefMsgBuf = flash.ndefMsgBuf
      unfold FlashUpdate.flashBufferPrepare
      split
      · rfl
      · split <;> rfl
      all_goals rfl
    | loop =>
      change (FlashUpdate.mainLoop p.files flash).1.ndefMsgBuf = flash.ndefMsgBuf
      unfold FlashUpdate.mainLoop
      split
      · dsimp only
        split <;> rfl
      · dsimp only
        split <;> rfl
      · rfl
      · rfl
    | received | retryWork | sendEnabled | disconnected | setter | configGet => rfl

theorem ndefMsgBuf_run {js : List (Input p.size Conn)} (h : ∀ j ∈ js, LeavesTag j) :
    ((machine p Conn).run s js).flash.ndefMsgBuf = s.flash.ndefMsgBuf :=
  (machine p Conn).run_invariant_of (I := fun t => t.flash.ndefMsgBuf = s.flash.ndefMsgBuf) (P := LeavesTag)
    (fun _ _ hj ht => (ndefMsgBuf_next hj).trans ht) s js h rfl

/-- The reply to a command in the tag is there for as long as nobody writes the tag, whatever else happens. -/
theorem reply_stays {env : Env} {dataLength : Nat} {req : Payload} {js : List (Input p.size Conn)}
    (hInside : s.outOfBounds = false) (hIdle : s.flash.callback = .idle) (hPos : 0 < dataLength)
    (hReq : Platform.tagRequest s.flash.ndefMsgBuf = .ok (some req))
    (hReply : (handleRequest env s.ble.device .nfc req).2 ≠ [])
    (hFits : 21 + (handleRequest env s.ble.device .nfc req).2.length ≤ p.size) (hLeaves : ∀ j ∈ js, LeavesTag j) :
    CarriesReply ((machine p Conn).run s (.ndefUpdated env dataLength :: js)).flash.ndefMsgBuf.toList
      (handleRequest env s.ble.device .nfc req).2 ↔ ¬ FillsReply req.bytes := by
  have hNext : ((machine p Conn).next s (.ndefUpdated env dataLength)).flash.ndefMsgBuf.toList =
      replyFile (p.buffer s.flash.ndefMsgBuf) (handleRequest env s.ble.device .nfc req).2 := by
    change (step s (.ndefUpdated env dataLength)).1.flash.ndefMsgBuf.toList = _
    rw [step_of_inside s hInside]
    obtain ⟨hNothing | hLong, -⟩ | ⟨file, -, hFile, hOk⟩ := Platform.handleNdef_of_request (d := s.ble.device) hReq
    · exact absurd hNothing hReply
    · exact absurd hFits (not_le.mpr hLong)
    · rw [nfcCallback_of_ok s hIdle hPos hOk]
      exact hFile
  rw [run_cons, ndefMsgBuf_run hLeaves, hNext]
  exact carriesReply_handleRequest_iff

def lockPlatform : Platform where
  lib := t4tNdefFile
  documented := documented_t4tNdefFile
  files := NdefFile.recordFiles
  size := 322
  two_le_size := by decide
  size_lt := by decide

def lockTag : Bytes lockPlatform.size := ⟨commandFile lockReq.bytes, length_commandFile lockReq.bytes⟩

/-- A LOCK command in the tag of a device that has just started. -/
def lockState : State lockPlatform Unit := ⟨.boot Device.boot, .boot lockTag fun _ => none, false⟩

theorem tagRequest_lockTag : Platform.tagRequest lockTag = .ok (some lockReq) :=
  ndefRequest_commandBuffer (by decide : lockReq.bytes ≠ []) (by decide)

theorem reply_stays_lock :
    CarriesReply ((machine lockPlatform Unit).run lockState
        [.ndefUpdated idleEnv 20, .received () idleEnv lockReq, .loop]).flash.ndefMsgBuf.toList
      (handleRequest idleEnv Device.boot .nfc lockReq).2 ↔ ¬ FillsReply lockReq.bytes := by
  refine reply_stays (s := lockState) rfl rfl (by decide) tagRequest_lockTag (by decide) (by decide) ?_
  intro j hj
  obtain rfl | rfl := by simpa using hj
  · trivial
  · trivial

end Tag

end IotRange.Program
