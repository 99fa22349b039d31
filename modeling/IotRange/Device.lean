import IotRange.AppConfig.Ble
import IotRange.AppConfig.Setters
import IotRange.Library.Machine

/-! # The device as a machine

Its inputs are requests on either channel and BLE disconnects, each with the clock value that
meets it. NFC requests enter `process_app_payload` with the reply buffer of
`app_config_handle_ndef`. OTA packets leave everything but the OTA state alone, so the rest of the
device moves as `processAppPayload` does on both channels.
-/
namespace IotRange.Device
open AppAuth AppFields AppProtocol AppConfig
set_option autoImplicit false

inductive Input
  | request (channel : Channel) (rand : Bytes 8) (req : Payload)
  | bleDisconnect

structure Event where
  uptime : Nat
  input : Input

def Event.IsRequest (P : Channel → List UInt8 → Prop) (e : Event) : Prop :=
  match e.input with
  | .request c _ req => P c req.bytes
  | .bleDisconnect => False

instance (P : Channel → List UInt8 → Prop) [DecidableRel P] : DecidablePred (Event.IsRequest P) := fun e =>
  match h : e.input with
  | .request c _ req => decidable_of_iff (P c req.bytes) (by rw [Event.IsRequest, h])
  | .bleDisconnect => isFalse (by rw [Event.IsRequest, h]; exact not_false)

def handleRequest (env : Env) (d : Device) (channel : Channel) (req : Payload) : Device × List UInt8 :=
  match channel with
  | .ble => appConfigHandleBle env d req
  | .nfc =>
    let (s, resp) := processAppPayload env d.toAppState .nfc req appProtoRespMax
    ({ d with toAppState := s }, resp)

def step (d : Device) (e : Event) : Device × List UInt8 :=
  match e.input with
  | .request channel rand req => handleRequest ⟨e.uptime, rand⟩ d channel req
  | .bleDisconnect => ({ d with auth := appAuthBleDisconnect d.auth }, [])

def machine : Machine Device Event (List UInt8) := ⟨step⟩

/-- The static initialisers, then `app_auth_init` and `app_fields_init`. -/
def boot : Device where
  fields := appFieldsInit Store.static
  auth := appAuthInit Auth.static
  ota := OtaState.static

def Reachable (d : Device) : Prop := ∃ es, d = machine.run boot es

section Requests

variable (env : Env) (d : Device) (channel : Channel) (req : Payload)

theorem processAppPayload_of_isOta {req : Payload} (h : IsOta req.bytes) (s : AppState) (channel : Channel)
    (respMax : Nat) : (processAppPayload env s channel req respMax).1 = s := by
  unfold processAppPayload
  simp only [IsOta, HasCmd, take_one_eq_iff] at h
  rcases h with ⟨hLength, hCmd⟩ | ⟨hLength, hCmd⟩ | ⟨hLength, hCmd⟩ <;> rw [if_neg hLength, hCmd] <;> rfl

/-- Outside the OTA state a request on either channel acts as `processAppPayload`. -/
theorem toAppState_handleRequest :
    (handleRequest env d channel req).1.toAppState =
      (processAppPayload env d.toAppState channel req appProtoRespMax).1 := by
  cases channel with
  | nfc => rfl
  | ble =>
    rcases appConfigHandleBle_cases env d req with ⟨hOta, cmd, body, hEq⟩ | ⟨-, hEq⟩
    · rw [processAppPayload_of_isOta env hOta]
      exact (congrArg (fun p : Device × List UInt8 => p.1.toAppState) hEq).trans toAppState_otaChecked
    · exact congrArg (fun p : Device × List UInt8 => p.1.toAppState) hEq

theorem reply_handleRequest {req : Payload} (h : ¬ IsOta req.bytes) :
    (handleRequest env d channel req).2 = (processAppPayload env d.toAppState channel req appProtoRespMax).2 := by
  cases channel with
  | nfc => rfl
  | ble =>
    rcases appConfigHandleBle_cases env d req with ⟨hOta, -⟩ | ⟨-, hEq⟩
    · exact absurd hOta h
    · exact congrArg Prod.snd hEq

theorem ota_handleRequest :
    (handleRequest env d channel req).1.ota = d.ota ∨ (channel = .ble ∧ Writable d.auth .ble env.uptime) := by
  cases channel with
  | nfc => exact .inl rfl
  | ble =>
    rcases appConfigHandleBle_cases env d req with ⟨-, cmd, body, hEq⟩ | ⟨-, hEq⟩
    · by_cases hWritable : Writable d.auth .ble env.uptime
      · exact .inr ⟨rfl, hWritable⟩
      · rw [otaChecked_of_not_writable hWritable] at hEq
        exact .inl (congrArg (fun p : Device × List UInt8 => p.1.ota) hEq)
    · exact .inl (congrArg (fun p : Device × List UInt8 => p.1.ota) hEq)

theorem not_isOta_of_hasCmd {cmd : UInt8} {req : List UInt8} (h : HasCmd cmd req) (hStart : cmd ≠ cmdOtaStart)
    (hData : cmd ≠ cmdOtaData) (hEnd : cmd ≠ cmdOtaEnd) : ¬ IsOta req := by
  rintro (h' | h' | h')
  · exact hStart (h.unique h')
  · exact hData (h.unique h')
  · exact hEnd (h.unique h')

theorem not_isOta_of_isAuth {subcmd : UInt8} {req : List UInt8} (h : IsAuth subcmd req) : ¬ IsOta req :=
  not_isOta_of_hasCmd (hasCmd_of_isAuth h) (by decide) (by decide) (by decide)

theorem not_isOta_of_isAction {subcmd : UInt8} {req : List UInt8} (h : IsAction subcmd req) : ¬ IsOta req :=
  not_isOta_of_hasCmd (hasCmd_of_isAction h) (by decide) (by decide) (by decide)

theorem not_isOta_of_write {req : List UInt8} (h : HasCmd cmdWrite req) : ¬ IsOta req :=
  not_isOta_of_hasCmd h (by decide) (by decide) (by decide)

end Requests

theorem isRequest_iff {P : Channel → List UInt8 → Prop} {e : Event} :
    e.IsRequest P ↔ ∃ c rand req, e.input = .request c rand req ∧ P c req.bytes := by
  obtain ⟨uptime, input⟩ := e
  cases input with
  | request c rand req =>
    constructor
    · intro hP
      exact ⟨c, rand, req, rfl, hP⟩
    · rintro ⟨c', rand', req', hInput, hP⟩
      cases hInput
      exact hP
  | bleDisconnect => exact ⟨False.elim, fun ⟨_, _, _, hInput, _⟩ => Input.noConfusion hInput⟩

theorem step_of_request {d : Device} {e : Event} {c : Channel} {rand : Bytes 8} {req : Payload}
    (h : e.input = .request c rand req) : machine.step d e = handleRequest ⟨e.uptime, rand⟩ d c req := by
  obtain ⟨uptime, input⟩ := e
  obtain rfl := h
  rfl

theorem output_of_request {d : Device} {e : Event} {c : Channel} {rand : Bytes 8} {req : Payload}
    (h : e.input = .request c rand req) (hOta : ¬ IsOta req.bytes) :
    machine.output d e = (processAppPayload ⟨e.uptime, rand⟩ d.toAppState c req appProtoRespMax).2 := by
  rw [Machine.output, step_of_request h, reply_handleRequest _ _ _ hOta]

theorem auth_next_of_request {d : Device} {e : Event} {c : Channel} {rand : Bytes 8} {req : Payload}
    (h : e.input = .request c rand req) :
    (machine.next d e).auth = (processAppPayload ⟨e.uptime, rand⟩ d.toAppState c req appProtoRespMax).1.auth := by
  rw [Machine.next, step_of_request h, toAppState_handleRequest]

theorem fields_next_of_request {d : Device} {e : Event} {c : Channel} {rand : Bytes 8} {req : Payload}
    (h : e.input = .request c rand req) :
    (machine.next d e).fields = (fieldEffect ⟨e.uptime, rand⟩ d.toAppState c req).apply d.fields := by
  rw [Machine.next, step_of_request h, toAppState_handleRequest]
  exact fields_processAppPayload _ d.toAppState c req appProtoRespMax

theorem fields_next_of_disconnect {d : Device} {e : Event} (h : e.input = .bleDisconnect) :
    (machine.next d e).fields = d.fields := by
  obtain ⟨uptime, input⟩ := e
  obtain rfl := h
  rfl

/-! ## The local interface -/

inductive LocalInput
  | wire (e : Event)
  | call (c : SetterCall)

/-- The device with the setters that the shell calls. -/
def localMachine : Machine Device LocalInput (List UInt8) where
  step d
    | .wire e => machine.step d e
    | .call c => ({ d with fields := c.apply d.fields }, [])

@[simp] theorem localMachine_next_wire (d : Device) (e : Event) :
    localMachine.next d (.wire e) = machine.next d e := rfl

@[simp] theorem localMachine_next_call (d : Device) (c : SetterCall) :
    localMachine.next d (.call c) = { d with fields := c.apply d.fields } := rfl

end IotRange.Device
