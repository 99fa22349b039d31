import IotRange.AppProtocol

/-! # The BLE entry point and OTA (app_config.c)

The three OTA commands share their check; what each does to the OTA state after it is a function
of its own. Printed frames are left out.
-/
namespace IotRange.AppConfig
open AppAuth AppFields AppProtocol
set_option autoImplicit false

abbrev otaBufSize : Nat := 32 * 1024
def otaPktData : Nat := 492

structure OtaState where
  active : Bool
  done : Bool
  totalSize : UInt32
  nextIdx : UInt16
  bytesReceived : UInt32
  buf : Bytes otaBufSize

def OtaState.static : OtaState where
  active := false
  done := false
  totalSize := 0
  nextIdx := 0
  bytesReceived := 0
  buf := List.Vector.replicate otaBufSize 0

structure Device extends AppState where
  ota : OtaState

def otaStart (ota : OtaState) (data : List UInt8) : OtaState × List UInt8 :=
  ({ active := true
     done := false
     totalSize := if data.length ≥ 5 then readBe32 (data.drop 1) else 0
     nextIdx := 0
     bytesReceived := 0
     buf := ota.buf }, [cmdOtaStart, Status.ok.code])

/-- A packet outside the buffer is dropped but still advances `nextIdx`. -/
def otaData (ota : OtaState) (data : List UInt8) : OtaState × List UInt8 :=
  if !ota.active then (ota, [cmdOtaData, Status.otaState.code])
  else if data.length ≥ 4 then
    let idx := readBe16 (data.drop 1)
    let packet := data.drop 3
    let offset := idx.toNat * otaPktData
    let ota :=
      if h : offset + packet.length ≤ otaBufSize then
        { ota with
          buf := ota.buf.write offset packet h
          bytesReceived := ota.bytesReceived + UInt32.ofNat packet.length }
      else ota
    ({ ota with nextIdx := idx + 1 }, [])
  else (ota, [])

def otaEnd (ota : OtaState) : OtaState × List UInt8 :=
  ({ ota with active := false, done := true }, [cmdOtaEnd, Status.ok.code])

def otaChecked (env : Env) (d : Device) (cmd : UInt8) (body : OtaState → OtaState × List UInt8) :
    Device × List UInt8 :=
  let (authSt, auth) := appAuthCheckWrite env.uptime d.auth .ble
  let d := { d with auth := auth }
  if authSt ≠ .ok then (d, [cmd, authSt.code])
  else
    let (ota, resp) := body d.ota
    ({ d with ota := ota }, resp)

def appConfigHandleBle (env : Env) (d : Device) (data : Payload) : Device × List UInt8 :=
  if data.bytes.length < 1 then (d, [])
  else
    match byteAt data.bytes 0 with
    | cmdOtaStart => otaChecked env d cmdOtaStart (otaStart · data.bytes)
    | cmdOtaData => otaChecked env d cmdOtaData (otaData · data.bytes)
    | cmdOtaEnd => otaChecked env d cmdOtaEnd otaEnd
    | _ =>
      let (s, resp) := processAppPayload env d.toAppState .ble data appProtoRespMax
      ({ d with toAppState := s }, resp)

section Ota

variable {env : Env} {d : Device} {cmd : UInt8} {body : OtaState → OtaState × List UInt8} {data : Payload}

/-- The check on BLE has no side effect, so a refused OTA command changes nothing. -/
theorem otaChecked_of_not_writable (h : ¬ Writable d.auth .ble env.uptime) :
    otaChecked env d cmd body = (d, [cmd, (appAuthCheckWrite env.uptime d.auth .ble).1.code]) := by
  have hStatus : (appAuthCheckWrite env.uptime d.auth .ble).1 ≠ .ok := h
  have hSame : (appAuthCheckWrite env.uptime d.auth .ble).2 = d.auth := by
    rcases appAuthCheckWrite_eq_or d.auth .ble env.uptime with hEq | ⟨hNfc, -⟩
    · exact hEq
    · cases hNfc
  unfold otaChecked
  dsimp only
  rw [if_pos hStatus, hSame]

theorem otaChecked_of_writable (h : Writable d.auth .ble env.uptime) :
    otaChecked env d cmd body = ({ d with ota := (body d.ota).1 }, (body d.ota).2) := by
  rw [otaChecked, appAuthCheckWrite_of_writable _ _ h]
  rfl

theorem toAppState_otaChecked : (otaChecked env d cmd body).1.toAppState = d.toAppState := by
  by_cases hWritable : Writable d.auth .ble env.uptime
  · rw [otaChecked_of_writable hWritable]
  · rw [otaChecked_of_not_writable hWritable]

def IsOta (req : List UInt8) : Prop := HasCmd cmdOtaStart req ∨ HasCmd cmdOtaData req ∨ HasCmd cmdOtaEnd req

instance : DecidablePred IsOta := fun _ => inferInstanceAs (Decidable (_ ∨ _))

theorem appConfigHandleBle_of_start (env : Env) (d : Device) (h : HasCmd cmdOtaStart data.bytes) :
    appConfigHandleBle env d data = otaChecked env d cmdOtaStart (otaStart · data.bytes) := by
  obtain ⟨hLength, hCmd⟩ := take_one_eq_iff.mp h
  rw [appConfigHandleBle, if_neg hLength, hCmd]
  rfl

theorem appConfigHandleBle_of_data (env : Env) (d : Device) (h : HasCmd cmdOtaData data.bytes) :
    appConfigHandleBle env d data = otaChecked env d cmdOtaData (otaData · data.bytes) := by
  obtain ⟨hLength, hCmd⟩ := take_one_eq_iff.mp h
  rw [appConfigHandleBle, if_neg hLength, hCmd]
  rfl

theorem appConfigHandleBle_of_end (env : Env) (d : Device) (h : HasCmd cmdOtaEnd data.bytes) :
    appConfigHandleBle env d data = otaChecked env d cmdOtaEnd otaEnd := by
  obtain ⟨hLength, hCmd⟩ := take_one_eq_iff.mp h
  rw [appConfigHandleBle, if_neg hLength, hCmd]
  rfl

/-- An OTA command runs its body behind the check; anything else is the common protocol. -/
theorem appConfigHandleBle_cases (env : Env) (d : Device) (data : Payload) :
    (IsOta data.bytes ∧ ∃ cmd body, appConfigHandleBle env d data = otaChecked env d cmd body) ∨
      (¬ IsOta data.bytes ∧ appConfigHandleBle env d data =
        ({ d with toAppState := (processAppPayload env d.toAppState .ble data appProtoRespMax).1 },
          (processAppPayload env d.toAppState .ble data appProtoRespMax).2)) := by
  simp only [IsOta, HasCmd, take_one_eq_iff]
  unfold appConfigHandleBle
  split
  · rename_i hLength
    refine .inr ⟨fun h => ?_, ?_⟩
    · rcases h with h | h | h <;> exact h.1 hLength
    · rw [processAppPayload, if_pos hLength]
  · rename_i hLength
    split
    · exact .inl ⟨.inl ⟨hLength, ‹_›⟩, _, _, rfl⟩
    · exact .inl ⟨.inr (.inl ⟨hLength, ‹_›⟩), _, _, rfl⟩
    · exact .inl ⟨.inr (.inr ⟨hLength, ‹_›⟩), _, _, rfl⟩
    · rename_i h1 h2 h3
      refine .inr ⟨fun h => ?_, rfl⟩
      rcases h with h | h | h
      · exact h1 h.2
      · exact h2 h.2
      · exact h3 h.2

end Ota

end IotRange.AppConfig
