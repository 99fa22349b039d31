import IotRange.ReadReply
import IotRange.Device

/-! # The power state

Once a device has left the factory state, POWER_OFF and POWER_ON change the value of DEVICE_STATE
and nothing else: whether a request is accepted, what it does and what it is answered are the same
in either state, in every run.
-/
namespace IotRange.PowerState
open AppAuth AppFields AppTlv AppProtocol AppConfig Device ReadReply
set_option autoImplicit false

/-- The stores differ at most in which of POWER_ON and POWER_OFF they are in. -/
structure SameLabel (f f' : Store) : Prop where
  rest : f' = { f with deviceState := f'.deviceState }
  factory : f.deviceState = .factory ↔ f'.deviceState = .factory

def Same (d d' : Device) : Prop := SameLabel d.fields d'.fields ∧ d' = { d with fields := d'.fields }

/-- Replies that differ at most in a power state they show. -/
inductive Alike : List UInt8 → List UInt8 → Prop
  | same (reply : List UInt8) : Alike reply reply
  | action (status subcmd state state' : UInt8) :
    Alike [cmdAction, status, subcmd, state] [cmdAction, status, subcmd, state']
  | read {f f' : Store} (fieldIds : List UInt8) (h : SameLabel f f') :
    Alike (fieldsReply f fieldIds) (fieldsReply f' fieldIds)

/-! ## Stores -/

section Stores

variable {f f' : Store}

theorem SameLabel.writeExempt_eq (h : SameLabel f f') : writeExempt f = writeExempt f' := by
  rw [writeExempt, writeExempt, h.rest]
  simp only [h.factory]

theorem sameLabel_of_update {u : Store → Store} (h : SameLabel f f')
    (hState : ∀ g state, u { g with deviceState := state } = { u g with deviceState := state })
    (hKeep : ∀ g, (u g).deviceState = g.deviceState) : SameLabel (u f) (u f') where
  rest := by
    rw [hKeep f']
    conv_lhs => rw [h.rest]
    rw [hState]
  factory := by rw [hKeep, hKeep, h.factory]

theorem sameLabel_appFieldSet (h : SameLabel f f') (fieldId : UInt8) (value : List UInt8) :
    SameLabel (appFieldSet f fieldId value) (appFieldSet f' fieldId value) := by
  refine sameLabel_of_update (u := fun g => appFieldSet g fieldId value) h (fun g state => ?_)
    fun g => deviceState_appFieldSet g _ _
  dsimp only
  unfold appFieldSet
  split <;> rfl

theorem sameLabel_applyCache (h : SameLabel f f') (cache : List Tlv) :
    SameLabel (applyCache f cache) (applyCache f' cache) := by
  induction cache generalizing f f' with
  | nil => exact h
  | cons t cache ih => exact ih (sameLabel_appFieldSet h t.fieldId t.value)

theorem sameLabel_markFactoryInitDone (h : SameLabel f f') (hFactory : f.deviceState = .factory) :
    SameLabel (appFieldMarkFactoryInitDone f) (appFieldMarkFactoryInitDone f') := by
  have hFactory' := h.factory.mp hFactory
  have hEq : f' = f := by
    rw [h.rest, hFactory', ← hFactory]
  rw [hEq]
  exact ⟨rfl, Iff.rfl⟩

theorem sameLabel_applyWrite (h : SameLabel f f') (cache : List Tlv) :
    SameLabel (applyWrite f cache) (applyWrite f' cache) := by
  unfold applyWrite
  rw [← h.writeExempt_eq]
  by_cases hExempt : writeExempt f = true
  · rw [if_pos hExempt, if_pos hExempt]
    refine sameLabel_markFactoryInitDone (sameLabel_applyCache h cache) ?_
    rw [writeExempt, decide_eq_true_iff] at hExempt
    rw [deviceState_applyCache, hExempt.1]
  · rw [if_neg hExempt, if_neg hExempt]
    exact sameLabel_applyCache h cache

theorem sameLabel_setter (h : SameLabel f f') (c : SetterCall) : SameLabel (c.apply f) (c.apply f') :=
  sameLabel_of_update (u := fun g => c.apply g) h (fun g state => by cases c <;> rfl) fun g => by cases c <;> rfl

theorem sameLabel_power (h : SameLabel f f') (state : DeviceState) :
    SameLabel (appFieldSetDeviceState f state) (appFieldSetDeviceState f' state) := by
  have hEq : appFieldSetDeviceState f' state = appFieldSetDeviceState f state := by
    rw [h.rest]
    rfl
  rw [hEq]
  exact ⟨rfl, Iff.rfl⟩

theorem sameLabel_effect (h : SameLabel f f') (e : FieldEffect) : SameLabel (e.apply f) (e.apply f') := by
  cases e with
  | keep => exact h
  | stamp ts =>
    exact sameLabel_of_update (u := fun g => appFieldSetUnixtime g ts) h (fun _ _ => rfl) fun _ => rfl
  | write cache => exact sameLabel_applyWrite h cache
  | power state => exact sameLabel_power h state
  | reset =>
    have hEq : appFieldsInit f' = appFieldsInit f := by
      rw [h.rest]
      rfl
    change SameLabel (appFieldsInit f) (appFieldsInit f')
    rw [hEq]
    exact ⟨rfl, Iff.rfl⟩

end Stores

/-! ## CMD 0x01 -/

section Read

variable {f f' : Store} {fieldIds : List UInt8} {respMax : Nat}

theorem length_bytes_fieldTlv (f : Store) {fieldId : UInt8} (h : fieldIsReadable fieldId = true) :
    (fieldTlv f fieldId).bytes.length = replySize fieldId := by
  rw [Tlv.length_bytes]
  exact length_appFieldGet f h

/-- The field for which there is no room is the same in every store. -/
theorem appendFields_error {counts : UInt8 → Bool} {resp resp' : List UInt8} {actualCount fieldId : UInt8}
    (h : ∀ fieldId ∈ fieldIds, fieldIsReadable fieldId = true) (hLength : resp.length = resp'.length)
    (hError : appendFields counts f respMax fieldIds resp actualCount = .error fieldId) :
    appendFields counts f' respMax fieldIds resp' actualCount = .error fieldId := by
  induction fieldIds generalizing resp resp' actualCount with
  | nil => cases hError
  | cons next fieldIds ih =>
    rw [List.forall_mem_cons] at h
    have hSize := length_bytes_fieldTlv f h.1
    have hSize' := length_bytes_fieldTlv f' h.1
    rw [appendFields, appendFieldToResp_eq h.1, hSize, hLength] at hError
    rw [appendFields, appendFieldToResp_eq h.1, hSize']
    by_cases hFits : resp'.length + replySize next ≤ respMax
    · rw [if_pos hFits] at hError ⊢
      dsimp only at hError ⊢
      by_cases hLong : UInt8.ofNat (replySize next) = 0xFF
      · rw [if_pos hLong] at hError ⊢
        exact hError
      · rw [if_neg hLong] at hError ⊢
        exact ih h.2 (by rw [List.length_append, List.length_append, hSize, hSize', hLength]) hError
    · rw [if_neg hFits] at hError ⊢
      exact hError

theorem readable_find_eq (f f' : Store) (fieldIds : List UInt8) :
    (fieldIds.find? fun fieldId => (appFieldGet f fieldId valBufSize).length = 0) =
      fieldIds.find? fun fieldId => (appFieldGet f' fieldId valBufSize).length = 0 := by
  have hReadable (f : Store) (fieldId : UInt8) :
      (appFieldGet f fieldId valBufSize).length = 0 ↔ ¬ fieldIsReadable fieldId = true := by
    rw [List.length_eq_zero_iff, ← appFieldGet_ne_nil_iff f fieldId, not_not]
  simp only [hReadable]

theorem alike_loop {counts : UInt8 → Bool} (hCounts : ∀ ret, ret ≠ 0 → counts ret = true) (hMax : 3 ≤ respMax)
    (hReadable : ∀ fieldId ∈ fieldIds, fieldIsReadable fieldId = true) (h : SameLabel f f') :
    Alike (finishRead (appendFields counts f respMax fieldIds [cmdRead, Status.ok.code, 0] 0))
      (finishRead (appendFields counts f' respMax fieldIds [cmdRead, Status.ok.code, 0] 0)) := by
  by_cases hFits : 3 + (fieldIds.map replySize).sum ≤ respMax
  · rw [finishRead_of_fits hCounts ⟨hReadable, hFits⟩, finishRead_of_fits hCounts ⟨hReadable, hFits⟩]
    exact .read fieldIds h
  · have hFull : respMax < [cmdRead, Status.ok.code, 0].length + (fieldTlvs f fieldIds).length := by
      rw [length_fieldTlvs f hReadable]
      exact not_le.mp hFits
    obtain ⟨fieldId, hError⟩ : ∃ fieldId, appendFields counts f respMax fieldIds
        [cmdRead, Status.ok.code, 0] 0 = .error fieldId := appendFields_of_full hReadable hMax hFull
    have hError' : appendFields counts f' respMax fieldIds [cmdRead, Status.ok.code, 0] 0 = .error fieldId :=
      appendFields_error hReadable rfl hError
    rw [hError, hError']
    exact .same _

theorem alike_readListedFields (hMax : 3 ≤ respMax) (h : SameLabel f f') :
    Alike (readListedFields f fieldIds respMax) (readListedFields f' fieldIds respMax) := by
  rw [readListedFields, readListedFields, ← readable_find_eq f f']
  cases hFind : fieldIds.find? fun fieldId => (appFieldGet f fieldId valBufSize).length = 0 with
  | some fieldId => exact .same _
  | none =>
    refine alike_loop (fun _ _ => rfl) hMax (fun fieldId hMem => ?_) h
    exact (appFieldGet_ne_nil_iff f fieldId).mp (by simpa using List.find?_eq_none.mp hFind fieldId hMem)

theorem alike_handleCmdRead (h : SameLabel f f') (req : List UInt8) (respMax : Nat) :
    Alike (handleCmdRead f req respMax).2 (handleCmdRead f' req respMax).2 := by
  have hStamped :
      SameLabel (appFieldSetUnixtime f (readBe32 (req.drop 1))) (appFieldSetUnixtime f' (readBe32 (req.drop 1))) :=
    sameLabel_effect h (.stamp _)
  unfold handleCmdRead
  split
  · exact .same _
  · dsimp only
    split
    · exact .same _
    · rename_i hMax
      split
      · exact alike_loop (fun ret hRet => by simpa using UInt8.pos_iff_ne_zero.mpr hRet) (not_lt.mp hMax)
          (List.all_eq_true.mp rfl) hStamped
      · split
        · exact .same _
        · exact alike_readListedFields (not_lt.mp hMax) hStamped

end Read

/-! ## Requests -/

section Requests

variable {f f' : Store} (a : Auth)

theorem handleCmdWrite_sameLabel (h : SameLabel f f') (uptime : Nat) (channel : Channel) (req : Payload)
    (respMax : Nat) :
    Alike (handleCmdWrite uptime ⟨f, a⟩ channel req respMax).2 (handleCmdWrite uptime ⟨f', a⟩ channel req respMax).2 ∧
      (handleCmdWrite uptime ⟨f, a⟩ channel req respMax).1.auth =
        (handleCmdWrite uptime ⟨f', a⟩ channel req respMax).1.auth := by
  unfold handleCmdWrite
  split
  · exact ⟨.same _, rfl⟩
  · dsimp only
    rw [h.writeExempt_eq]
    generalize (if writeExempt f' = true then (Status.ok, a) else appAuthCheckWrite uptime a channel) = checked
    split <;> exact ⟨.same _, rfl⟩

theorem alike_reply4 (respMax : Nat) (status third state state' : UInt8) :
    Alike (reply4 respMax status third state) (reply4 respMax status third state') := by
  unfold reply4
  split
  · exact .same _
  · exact .action status third state state'

theorem handleCmdAction_sameLabel (uptime : Nat) (channel : Channel) (req : List UInt8) (respMax : Nat) :
    Alike (handleCmdAction uptime ⟨f, a⟩ channel req respMax).2 (handleCmdAction uptime ⟨f', a⟩ channel req respMax).2 ∧
      (handleCmdAction uptime ⟨f, a⟩ channel req respMax).1.auth =
        (handleCmdAction uptime ⟨f', a⟩ channel req respMax).1.auth := by
  unfold handleCmdAction
  split
  · exact ⟨.same _, rfl⟩
  · split
    · exact ⟨alike_reply4 _ _ _ _ _, rfl⟩
    · rw [actionPowerOff_eq, actionPowerOff_eq]
      split <;> exact ⟨alike_reply4 _ _ _ _ _, rfl⟩
    · rw [actionFactoryReset_eq, actionFactoryReset_eq]
      split
      · exact ⟨alike_reply4 _ _ _ _ _, rfl⟩
      · split <;> exact ⟨alike_reply4 _ _ _ _ _, rfl⟩
    · exact ⟨.same _, rfl⟩

theorem fieldEffect_sameLabel (h : SameLabel f f') (env : Env) (channel : Channel) (req : Payload) :
    fieldEffect env ⟨f, a⟩ channel req = fieldEffect env ⟨f', a⟩ channel req := by
  unfold fieldEffect writeEffect
  rw [h.writeExempt_eq]
  rfl

theorem processAppPayload_sameLabel (h : SameLabel f f') (env : Env) (channel : Channel) (req : Payload)
    (respMax : Nat) :
    Alike (processAppPayload env ⟨f, a⟩ channel req respMax).2 (processAppPayload env ⟨f', a⟩ channel req respMax).2 ∧
      SameLabel (processAppPayload env ⟨f, a⟩ channel req respMax).1.fields
        (processAppPayload env ⟨f', a⟩ channel req respMax).1.fields ∧
      (processAppPayload env ⟨f, a⟩ channel req respMax).1.auth =
        (processAppPayload env ⟨f', a⟩ channel req respMax).1.auth := by
  refine and_left_comm.mp ⟨?_, ?_⟩
  · rw [fields_processAppPayload, fields_processAppPayload, fieldEffect_sameLabel a h]
    exact sameLabel_effect h _
  · unfold processAppPayload
    split
    · exact ⟨.same _, rfl⟩
    · split
      · exact ⟨alike_handleCmdRead h req.bytes respMax, rfl⟩
      · exact handleCmdWrite_sameLabel a h env.uptime channel req respMax
      · exact ⟨.same _, rfl⟩
      · exact handleCmdAction_sameLabel a env.uptime channel req.bytes respMax
      · exact ⟨.same _, rfl⟩

end Requests

/-! ## Runs -/

section Runs

variable {d d' : Device}

theorem otaChecked_same (h : Same d d') (env : Env) (cmd : UInt8) (body : OtaState → OtaState × List UInt8) :
    Alike (otaChecked env d cmd body).2 (otaChecked env d' cmd body).2 ∧
      Same (otaChecked env d cmd body).1 (otaChecked env d' cmd body).1 := by
  obtain ⟨hFields, hRest⟩ := h
  have hAuth : d'.auth = d.auth := by rw [hRest]
  have hOta : d'.ota = d.ota := by rw [hRest]
  by_cases hWritable : Writable d.auth .ble env.uptime
  · have hWritable' : Writable d'.auth .ble env.uptime := by rwa [hAuth]
    rw [otaChecked_of_writable hWritable, otaChecked_of_writable hWritable', hOta]
    refine ⟨.same _, hFields, ?_⟩
    rw [hRest]
  · have hWritable' : ¬ Writable d'.auth .ble env.uptime := by rwa [hAuth]
    rw [otaChecked_of_not_writable hWritable, otaChecked_of_not_writable hWritable', hAuth]
    exact ⟨.same _, hFields, hRest⟩

theorem payload_same (h : Same d d') (env : Env) (channel : Channel) (req : Payload) :
    Alike (processAppPayload env d.toAppState channel req appProtoRespMax).2
        (processAppPayload env d'.toAppState channel req appProtoRespMax).2 ∧
      Same { d with toAppState := (processAppPayload env d.toAppState channel req appProtoRespMax).1 }
        { d' with toAppState := (processAppPayload env d'.toAppState channel req appProtoRespMax).1 } := by
  obtain ⟨⟨f, a⟩, ota⟩ := d
  obtain ⟨⟨f', a'⟩, ota'⟩ := d'
  obtain ⟨hFields, hRest⟩ := h
  obtain ⟨rfl, rfl⟩ : a' = a ∧ ota' = ota :=
    ⟨congrArg (fun d : Device => d.auth) hRest, congrArg Device.ota hRest⟩
  obtain ⟨hAlike, hNext, hAuth⟩ := processAppPayload_sameLabel a' hFields env channel req appProtoRespMax
  refine ⟨hAlike, hNext, ?_⟩
  dsimp only
  rw [hAuth]

theorem handleRequest_same (h : Same d d') (env : Env) (channel : Channel) (req : Payload) :
    Alike (handleRequest env d channel req).2 (handleRequest env d' channel req).2 ∧
      Same (handleRequest env d channel req).1 (handleRequest env d' channel req).1 := by
  cases channel with
  | nfc => exact payload_same h env .nfc req
  | ble =>
    rw [handleRequest, handleRequest]
    unfold appConfigHandleBle
    split
    · exact ⟨.same _, h⟩
    · split
      · exact otaChecked_same h env _ _
      · exact otaChecked_same h env _ _
      · exact otaChecked_same h env _ _
      · exact payload_same h env .ble req

theorem step_same (h : Same d d') (i : LocalInput) :
    Alike (localMachine.output d i) (localMachine.output d' i) ∧
      Same (localMachine.next d i) (localMachine.next d' i) := by
  cases i with
  | call c =>
    refine ⟨.same _, sameLabel_setter h.1 c, ?_⟩
    rw [localMachine_next_call, localMachine_next_call, h.2]
  | wire e =>
    obtain ⟨uptime, input⟩ := e
    cases input with
    | request channel rand req => exact handleRequest_same h ⟨uptime, rand⟩ channel req
    | bleDisconnect =>
      have hNext (d : Device) : localMachine.next d (.wire ⟨uptime, .bleDisconnect⟩) =
          { d with auth := appAuthBleDisconnect d.auth } := rfl
      refine ⟨.same _, h.1, ?_⟩
      rw [hNext, hNext, h.2]

def reply (d : Device) (i : LocalInput) : List (List UInt8) := [localMachine.output d i]

theorem unwinding_same :
    Machine.Unwinding localMachine (fun _ => 0) (fun _ => True) (fun _ _ => True) reply (fun _ => Same) Alike where
  hidden _ _ _ _ _ _ _ hHidden := absurd trivial hHidden
  visible _ _ _ i h _ _ _ := by
    obtain ⟨hAlike, hNext⟩ := step_same h i
    exact ⟨.cons hAlike .nil, hNext⟩

/-- Devices that differ in whether they are powered off answer alike ever after. -/
theorem powerState_run (h : Same d d') (is : List LocalInput) :
    List.Forall₂ Alike (localMachine.observe reply d is) (localMachine.observe reply d' is) ∧
      Same (localMachine.run d is) (localMachine.run d' is) := by
  have hClock : ((0 : Nat) :: is.map fun _ => 0).IsChain (· ≤ ·) := by
    rw [List.map_const', ← List.replicate_succ]
    exact List.isChain_replicate_of_rel _ le_rfl
  have hAll : is.filter (fun _ => True) = is := List.filter_eq_self.mpr fun _ _ => rfl
  have hRun := unwinding_same.run h hClock fun _ _ => trivial
  rwa [hAll] at hRun

/-- On, with the configuration of a new device. -/
def poweredOn : Device := { Device.boot with fields := appFieldSetDeviceState Device.boot.fields .powerOn }

def poweredOff : Device := { Device.boot with fields := appFieldSetDeviceState Device.boot.fields .powerOff }

/-- Reads everything. -/
def readEvent : LocalInput := .wire ⟨3, .request .ble (List.Vector.replicate 8 0) ⟨[cmdRead, 0, 0, 0, 7, 0], by decide⟩⟩

theorem same_poweredOff : Same poweredOn poweredOff := ⟨⟨rfl, by decide⟩, rfl⟩

theorem powerState_run_off :
    List.Forall₂ Alike (localMachine.observe reply poweredOn [readEvent, .call (.battery 40), readEvent])
        (localMachine.observe reply poweredOff [readEvent, .call (.battery 40), readEvent]) ∧
      Same (localMachine.run poweredOn [readEvent, .call (.battery 40), readEvent])
        (localMachine.run poweredOff [readEvent, .call (.battery 40), readEvent]) :=
  powerState_run same_poweredOff _

end Runs

end IotRange.PowerState
