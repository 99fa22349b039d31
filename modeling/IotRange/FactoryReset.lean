import IotRange.Revocation

/-! # What a factory reset restores

A reset restores every field that a request can change; the sensor values stay as the setters of
the local interface left them.
-/
namespace IotRange.FactoryReset
open AppAuth AppFields AppTlv AppProtocol AppConfig Device ReadBack Provisioning
set_option autoImplicit false

/-- Every read is answered as right after boot, and the state, the flag and the password are the defaults. -/
structure Restored (d : Device) : Prop where
  reads : ∀ env channel req respMax, HasCmd cmdRead req.bytes →
    (processAppPayload env d.toAppState channel req respMax).2 =
      (processAppPayload env boot.toAppState channel req respMax).2
  deviceState : d.fields.deviceState = .factory
  factoryInitDone : d.fields.factoryInitDone = false
  passwordHash : d.auth.passwordHash = defaultPasswordHash

/-- The fields that `app_fields_init` leaves out. -/
structure SensorsAtBoot (f : Store) : Prop where
  battery : f.battery = boot.fields.battery
  temperature : f.temperature = boot.fields.temperature
  distance : f.distance = boot.fields.distance
  position : f.position = boot.fields.position

/-! ## The fields after a reset -/

theorem handleCmdRead_appFieldSetUnixtime (f : Store) (ts : UInt32) (req : List UInt8) (respMax : Nat) :
    (handleCmdRead (appFieldSetUnixtime f ts) req respMax).2 = (handleCmdRead f req respMax).2 := by
  unfold handleCmdRead
  split <;> rfl

theorem appFieldsInit_of_sensorsAtBoot {f : Store} (h : SensorsAtBoot f) :
    appFieldsInit f = appFieldSetUnixtime boot.fields f.unixtime := by
  obtain ⟨hBattery, hTemperature, hDistance, hPosition⟩ := h
  rw [appFieldsInit, hBattery, hTemperature, hDistance, hPosition]
  rfl

theorem toAppState_next_of_reset {d : Device} {e : Event} (h : ResetAccepted d e) :
    (machine.next d e).toAppState = ⟨appFieldsInit d.fields, appAuthResetPassword d.auth⟩ := by
  obtain ⟨c, rand, req, hInput, hReset, -⟩ := isRequest_iff.mp h
  obtain ⟨hWritable, hConfirmed⟩ := (resetAccepted_iff hInput hReset).mp h
  rw [Machine.next, step_of_request hInput, toAppState_handleRequest,
    processAppPayload_of_reset hReset hWritable hConfirmed]

theorem value_of_restored {d : Device} (h : Restored d) (fieldId : UInt8) (hReadable : fieldIsReadable fieldId = true) :
    appFieldGet d.fields fieldId valBufSize = appFieldGet boot.fields fieldId valBufSize := by
  have hReply := h.reads ⟨0, List.Vector.replicate 8 0⟩ .ble (readOne 0 fieldId) 13 rfl
  rw [reply_readOne _ _ _ _ hReadable (le_refl 13), reply_readOne _ _ _ _ hReadable (le_refl 13), ReadBack.readReply,
    ReadBack.readReply, List.append_assoc, List.append_assoc] at hReply
  exact (List.cons.inj (List.cons.inj (List.append_cancel_left hReply)).2).2

theorem be16_injective {v w : UInt16} (h : be16 v = be16 w) : v = w := by
  rw [← readBe16_be16 v [], ← readBe16_be16 w [], h]

theorem sensorsAtBoot_of_restored {d : Device} (h : Restored d) : SensorsAtBoot d.fields where
  battery := List.singleton_inj.mp (value_of_restored h fieldBattery rfl)
  temperature := by
    have hValue := be16_injective (value_of_restored h fieldTemperature rfl)
    exact congrArg Int16.ofUInt16 hValue
  distance := be16_injective (value_of_restored h fieldDistance rfl)
  position := List.singleton_inj.mp (value_of_restored h fieldPosition rfl)

/-- A factory reset along any run restores the boot store exactly when the sensors have their boot values. -/
theorem restored_iff :
    ∀ es d e, (d, .wire e) ∈ localMachine.situations boot es → ResetAccepted d e →
      (Restored (localMachine.next d (.wire e)) ↔ SensorsAtBoot d.fields) := by
  rintro es d e - hReset
  rw [localMachine_next_wire]
  have hNext := toAppState_next_of_reset hReset
  have hFields : (machine.next d e).fields = appFieldsInit d.fields := by rw [hNext]
  constructor
  · intro hRestored
    obtain ⟨hBattery, hTemperature, hDistance, hPosition⟩ := sensorsAtBoot_of_restored hRestored
    rw [hFields] at hBattery hTemperature hDistance hPosition
    exact ⟨hBattery, hTemperature, hDistance, hPosition⟩
  · intro hSensors
    refine ⟨fun env channel req respMax hRead => ?_, ?_, ?_, ?_⟩
    · rw [processAppPayload_of_read hRead, processAppPayload_of_read hRead, hFields,
        appFieldsInit_of_sensorsAtBoot hSensors]
      exact handleCmdRead_appFieldSetUnixtime boot.fields d.fields.unixtime req.bytes respMax
    · rw [hFields]
      rfl
    · rw [hFields]
      rfl
    · rw [hNext]
      rfl

/-! ## A run with a reset -/

open Sessions Isolation Revocation

def called (c : SetterCall) : Device := localMachine.next boot (.call c)

/-- A call, then BLE unlocks and resets. -/
def resetRun (c : SetterCall) : List LocalInput :=
  [.call c, .wire bleNonceEvent, .wire (bleTokenEvent (called c).auth), .wire resetEvent]

theorem mem_resetRun (c : SetterCall) :
    (unlockBle (called c), LocalInput.wire resetEvent) ∈ localMachine.situations boot (resetRun c) := by
  rw [resetRun, Machine.situations_cons, Machine.situations_cons, Machine.situations_cons, Machine.situations_cons,
    localMachine_next_wire, localMachine_next_wire, ← called, unlockBle]
  exact List.mem_cons_of_mem _ (List.mem_cons_of_mem _ (List.mem_cons_of_mem _ List.mem_cons_self))

theorem fields_unlockBle (d : Device) : (unlockBle d).fields = d.fields := by
  have hNonce : HasCmd cmdAuth nonceRequest.bytes := rfl
  have hToken : HasCmd cmdAuth (tokenRequest (expectedToken d.auth nonce)).bytes := rfl
  rw [unlockBle, bleTokenEvent, bleNonceEvent, fields_next_of_request rfl, fieldEffect_of_auth hToken,
    FieldEffect.apply, fields_next_of_request rfl, fieldEffect_of_auth hNonce, FieldEffect.apply]

theorem restored_resetRun : Restored (localMachine.next (unlockBle (called (.mode 0x03))) (.wire resetEvent)) := by
  refine (restored_iff _ _ _ (mem_resetRun (.mode 0x03)) (resetAccepted_unlockBle _)).mpr ?_
  rw [fields_unlockBle]
  exact ⟨rfl, rfl, rfl, rfl⟩

/-- After `app_config_set_battery(50)` a factory reset leaves BATTERY at 50. -/
theorem batteryReset_not_restored :
    (unlockBle (called (.battery 50)), LocalInput.wire resetEvent) ∈
        localMachine.situations boot (resetRun (.battery 50)) ∧
      ResetAccepted (unlockBle (called (.battery 50))) resetEvent ∧
      ¬ Restored (localMachine.next (unlockBle (called (.battery 50))) (.wire resetEvent)) := by
  have hAccepted := resetAccepted_unlockBle (called (.battery 50))
  refine ⟨mem_resetRun (.battery 50), hAccepted, fun hRestored => ?_⟩
  have hBattery := (sensorsAtBoot_of_restored hRestored).battery
  rw [localMachine_next_wire, toAppState_next_of_reset hAccepted, fields_unlockBle] at hBattery
  exact absurd hBattery (by decide)

end IotRange.FactoryReset
