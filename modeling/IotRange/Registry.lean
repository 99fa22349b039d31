import IotRange.Library.KeyValue
import IotRange.Library.Simulation
import IotRange.ReadBack

/-! # The field registry as a map

Read through its ids, the registry is a map from field ids to values. Whatever the device handles
assigns values to ids, and nothing else ever changes what is read.
-/
namespace IotRange.Registry
open AppAuth AppFields AppTlv AppProtocol AppConfig Device ReadBack KeyValue Machine
set_option autoImplicit false

abbrev Assignment := UInt8 × List UInt8

/-- What `app_field_get` says of every id. -/
def registry (f : Store) : UInt8 → List UInt8 := fun fieldId => appFieldGet f fieldId valBufSize

/-- A valid TLV assigns its value, and an install location also what is derived from it. -/
def tlvAssignments (t : Tlv) : List Assignment :=
  match t.fieldId with
  | fieldMode | fieldUpdateInterval => [(t.fieldId, t.value)]
  | fieldInstallLocation =>
    [(fieldInstallLocation, t.value), (fieldGnssFix, [0x01]), (fieldLatitude, t.value.take 4),
      (fieldLongitude, t.value.drop 4), (fieldAltitude, [0x00, 0x00])]
  | _ => []

/-- The ids that `app_fields_init` brings back to their values at boot. -/
def restoredIds : List UInt8 :=
  [fieldDeviceState, fieldMode, fieldUpdateInterval, fieldInstallLocation, fieldGnssFix, fieldLatitude, fieldLongitude,
    fieldAltitude]

def effectAssignments (f : Store) : FieldEffect → List Assignment
  | .keep | .stamp _ => []
  | .write cache =>
    cache.flatMap tlvAssignments ++ if writeExempt f then [(fieldDeviceState, [DeviceState.powerOn.code])] else []
  | .power state => [(fieldDeviceState, [state.code])]
  | .reset => restoredIds.map fun fieldId => (fieldId, registry Store.static fieldId)

def setterAssignment : SetterCall → Assignment
  | .battery level => (fieldBattery, [level])
  | .temperature temp => (fieldTemperature, putU16Be temp.toUInt16)
  | .distance dist => (fieldDistance, putU16Be dist)
  | .position pos => (fieldPosition, [pos])
  | .mode value => (fieldMode, [value])
  | .updateTime interval => (fieldUpdateInterval, putU16Be interval)
  | .gnssFix fix_ => (fieldGnssFix, [fix_])
  | .latitude lat => (fieldLatitude, putU32Be lat.toUInt32)
  | .longitude lng => (fieldLongitude, putU32Be lng.toUInt32)
  | .altitude alt => (fieldAltitude, putU16Be alt.toUInt16)

def assignments (d : Device) (i : LocalInput) : List Assignment :=
  match i with
  | .call c => [setterAssignment c]
  | .wire e =>
    match e.input with
    | .request channel rand req => effectAssignments d.fields (fieldEffect ⟨e.uptime, rand⟩ d.toAppState channel req)
    | .bleDisconnect => []

/-! ## Each operation -/

section Operations

variable {f f' : Store} {log : List Assignment}

/-- It is enough to compare the ids that can be read, if no other is assigned. -/
theorem registry_eq
    (hReadable : ∀ fieldId ∈ allReadableFields, registry f' fieldId = (store _ _).run (registry f) log fieldId)
    (hLog : ∀ p ∈ log, fieldIsReadable p.1 = true) : registry f' = (store _ _).run (registry f) log := by
  funext fieldId
  cases hId : fieldIsReadable fieldId with
  | true => exact hReadable fieldId (mem_allReadableFields hId)
  | false =>
    have hOther : ∀ p ∈ log, p.1 ≠ fieldId := by
      rintro p hp rfl
      exact Bool.noConfusion (hId.symm.trans (hLog p hp))
    rw [store_run_of_not_mem hOther, registry, registry, appFieldGet_of_not_readable hId,
      appFieldGet_of_not_readable hId]

theorem readable_setterAssignment (c : SetterCall) : fieldIsReadable (setterAssignment c).1 = true := by
  cases c <;> rfl

theorem registry_setter (f : Store) (c : SetterCall) :
    registry (c.apply f) = (store _ _).run (registry f) [setterAssignment c] := by
  refine registry_eq ?_ (List.forall_mem_singleton.mpr (readable_setterAssignment c))
  simp only [allReadableFields, List.forall_mem_cons]
  cases c with
  | updateTime interval =>
    have hInterval : putU16Be (getU16Be (be16 interval)) = putU16Be interval :=
      congrArg putU16Be (readBe16_be16 interval [])
    and_intros
    all_goals first | rfl | exact hInterval | exact List.forall_mem_nil _
  | _ =>
    and_intros
    all_goals first | rfl | exact List.forall_mem_nil _

theorem registry_deviceState (f : Store) (state : DeviceState) :
    registry (appFieldSetDeviceState f state) = (store _ _).run (registry f) [(fieldDeviceState, [state.code])] := by
  refine registry_eq ?_ (List.forall_mem_singleton.mpr rfl)
  simp only [allReadableFields, List.forall_mem_cons]
  and_intros
  all_goals first | rfl | exact List.forall_mem_nil _

theorem registry_reset (f : Store) :
    registry (appFieldsInit f) =
      (store _ _).run (registry f) (restoredIds.map fun fieldId => (fieldId, registry Store.static fieldId)) := by
  refine registry_eq ?_ ?_
  · simp only [allReadableFields, List.forall_mem_cons]
    and_intros
    all_goals first | rfl | exact List.forall_mem_nil _
  · rw [List.forall_mem_map]
    exact List.all_eq_true.mp rfl

theorem registry_tlv (f : Store) {t : Tlv} (h : appFieldValidate t.fieldId t.value = .ok) :
    registry (appFieldSet f t.fieldId t.value) = (store _ _).run (registry f) (tlvAssignments t) := by
  have hShows := appFieldGet_appFieldSet f h
  obtain ⟨tId, value, hValue⟩ := t
  obtain ⟨rfl, -⟩ | ⟨rfl, -⟩ | ⟨rfl, -⟩ := writable_cases h
  all_goals
    refine registry_eq ?_ (List.all_eq_true.mp rfl)
    simp only [allReadableFields, List.forall_mem_cons]
    and_intros
    all_goals first | exact hShows _ | exact List.forall_mem_nil _

theorem registry_cache (f : Store) {cache : List Tlv} (h : ∀ t ∈ cache, appFieldValidate t.fieldId t.value = .ok) :
    registry (applyCache f cache) = (store _ _).run (registry f) (cache.flatMap tlvAssignments) := by
  induction cache generalizing f with
  | nil => rfl
  | cons t cache ih =>
    rw [List.forall_mem_cons] at h
    rw [List.flatMap_cons, run_append, ← registry_tlv f h.1]
    exact ih (appFieldSet f t.fieldId t.value) h.2

/-- The first write of a device in its factory state also powers it on. -/
theorem registry_write (f : Store) {cache : List Tlv} (h : ∀ t ∈ cache, appFieldValidate t.fieldId t.value = .ok) :
    registry (applyWrite f cache) = (store _ _).run (registry f) (effectAssignments f (.write cache)) := by
  rw [effectAssignments, run_append, ← registry_cache f h, applyWrite]
  cases hExempt : writeExempt f with
  | false => rfl
  | true =>
    have hFactory : (applyCache f cache).deviceState = .factory := by
      rw [deviceState_applyCache]
      exact (of_decide_eq_true hExempt).1
    have hMark : registry (appFieldMarkFactoryInitDone (applyCache f cache)) =
        registry (appFieldSetDeviceState (applyCache f cache) .powerOn) := by
      rw [appFieldMarkFactoryInitDone]
      dsimp only
      rw [if_pos hFactory]
      rfl
    rw [if_pos rfl, if_pos rfl, hMark]
    exact registry_deviceState (applyCache f cache) .powerOn

theorem registry_effect (env : Env) (s : AppState) (channel : Channel) (req : Payload) :
    registry ((fieldEffect env s channel req).apply s.fields) =
      (store _ _).run (registry s.fields) (effectAssignments s.fields (fieldEffect env s channel req)) := by
  obtain hEq | ⟨ts, hEq⟩ | ⟨cache, -, hParse, -, hEq⟩ | ⟨-, hEq⟩ | ⟨-, -, hEq⟩ | ⟨-, -, -, hEq⟩ :=
    fieldEffect_cases env s channel req
  all_goals rw [hEq]
  · rfl
  · rfl
  · exact registry_write s.fields (parseWrite_eq_ok.mp hParse).2.2.2.2.1
  · exact registry_deviceState s.fields .powerOn
  · exact registry_deviceState s.fields .powerOff
  · exact registry_reset s.fields

end Operations

/-! ## Whole runs -/

theorem simulates_store :
    localMachine.Simulates (store UInt8 (List UInt8)) (fun _ => True) (fun d => registry d.fields) assignments where
  invariant _ _ _ := trivial
  step d i _ := by
    cases i with
    | call c => exact (registry_setter d.fields c).symm
    | wire e =>
      obtain ⟨uptime, input⟩ := e
      cases input with
      | bleDisconnect => rfl
      | request channel rand req =>
        rw [localMachine_next_wire, fields_next_of_request (rfl : (⟨uptime, _⟩ : Event).input = _)]
        exact (registry_effect ⟨uptime, rand⟩ d.toAppState channel req).symm

/-- After any run a field reads as what was last assigned to it, or as before. -/
theorem value_run (d : Device) (is : List LocalInput) (fieldId : UInt8) :
    appFieldGet (localMachine.run d is).fields fieldId valBufSize =
      (((localMachine.observe assignments d is).filter fun p => p.1 = fieldId).getLast?.map Prod.snd).getD
        (appFieldGet d.fields fieldId valBufSize) := by
  have hRun := congrFun (simulates_store.run (s := d) trivial is) fieldId
  rw [store_run] at hRun
  exact hRun.symm

/-! ## The clock and the password -/

section Clock

variable {f : Store}

/-- The time stamp of a CMD 0x01. -/
def stamped (i : LocalInput) : Option UInt32 :=
  match i with
  | .wire ⟨_, .request _ _ req⟩ =>
    if HasCmd cmdRead req.bytes ∧ 6 ≤ req.bytes.length then some (readBe32 (req.bytes.drop 1)) else none
  | .wire ⟨_, .bleDisconnect⟩ | .call _ => none

theorem unixtime_applyCache (cache : List Tlv) : (applyCache f cache).unixtime = f.unixtime := by
  have hSet (f : Store) (t : Tlv) : (appFieldSet f t.fieldId t.value).unixtime = f.unixtime := by
    unfold appFieldSet
    split <;> rfl
  induction cache generalizing f with
  | nil => rfl
  | cons t cache ih => exact ih.trans (hSet f t)

theorem unixtime_applyWrite (cache : List Tlv) : (applyWrite f cache).unixtime = f.unixtime := by
  unfold applyWrite
  split
  · unfold appFieldMarkFactoryInitDone
    dsimp only
    split <;> exact unixtime_applyCache cache
  · exact unixtime_applyCache cache

theorem unixtime_fieldEffect (env : Env) (s : AppState) (channel : Channel) (req : Payload) :
    ((fieldEffect env s channel req).apply s.fields).unixtime =
      (stamped (.wire ⟨env.uptime, .request channel env.rand req⟩)).getD s.fields.unixtime := by
  by_cases hRead : HasCmd cmdRead req.bytes
  · obtain ⟨hLength, hCmd⟩ := take_one_eq_iff.mp hRead
    have hEffect : fieldEffect env s channel req = readEffect req := by
      rw [fieldEffect, if_neg hLength, hCmd]
      rfl
    rw [hEffect, readEffect, stamped]
    by_cases hShort : req.bytes.length < 6
    · rw [if_pos hShort, if_neg fun h => absurd h.2 (not_le.mpr hShort)]
      rfl
    · rw [if_neg hShort, if_pos ⟨hRead, not_lt.mp hShort⟩]
      rfl
  · rw [stamped, if_neg fun h => hRead h.1]
    unfold fieldEffect
    split
    · rfl
    · rename_i hLength
      split
      · exact absurd (take_one_eq_iff.mpr ⟨hLength, ‹_›⟩) hRead
      · obtain hEq | ⟨cache, -, -, hEq⟩ := writeEffect_cases env s channel req
        · rw [hEq]
          rfl
        · rw [hEq]
          exact unixtime_applyWrite cache
      · rfl
      · rename_i hCmd
        obtain hEq | ⟨-, hEq⟩ | ⟨-, -, hEq⟩ | ⟨-, -, -, hEq⟩ := actionEffect_cases env s channel hCmd
        all_goals
          rw [hEq]
          rfl
      · rfl

/-- The time is that of the last CMD 0x01 on either channel, whatever it was answered, and nothing
else changes it. -/
theorem unixtime_run (d : Device) (is : List LocalInput) :
    (localMachine.run d is).fields.unixtime = (is.filterMap stamped).getLast?.getD d.fields.unixtime := by
  have hStep : ∀ i ∈ is, ∀ d, (localMachine.next d i).fields.unixtime = (stamped i).getD d.fields.unixtime := by
    intro i _ d
    cases i with
    | call c => cases c <;> rfl
    | wire e =>
      obtain ⟨uptime, input⟩ := e
      cases input with
      | bleDisconnect => rfl
      | request channel rand req =>
        rw [localMachine_next_wire, fields_next_of_request (rfl : (⟨uptime, _⟩ : Event).input = _)]
        exact unixtime_fieldEffect ⟨uptime, rand⟩ d.toAppState channel req
  exact @LastWrite.view_foldl _ _ _ (fun d : Device => d.fields.unixtime) _ _ _ d hStep

/-- The hash that an accepted CHANGE_PWD or factory reset stores. -/
def newHash (uptime : Nat) (a : Auth) (channel : Channel) (req : List UInt8) : Option (List UInt8) :=
  if Writable a channel uptime then
    if IsAuth authSubcmdChangePwd req ∧ 34 ≤ req.length then some (credential req)
    else if IsAction 0x03 req ∧ Confirmed req then some defaultPasswordHash.toList
    else none
  else none

def replacement (d : Device) (i : LocalInput) : Option (List UInt8) :=
  match i with
  | .wire ⟨uptime, .request channel _ req⟩ => newHash uptime d.auth channel req.bytes
  | .wire ⟨_, .bleDisconnect⟩ | .call _ => none

theorem passwordHash_changePwd {env : Env} {a : Auth} {channel : Channel} {data : List UInt8}
    (h : IsAuth authSubcmdChangePwd data) (hWritable : Writable a channel env.uptime) :
    (appAuthHandleCmd env a data channel).1.passwordHash.toList =
      if 34 ≤ data.length then credential data else a.passwordHash.toList := by
  obtain ⟨hCmd, hSub⟩ := isAuth_iff.mp h
  rw [appAuthHandleCmd, if_neg hCmd, hSub]
  change (authChangePwd env a data channel).1.passwordHash.toList = _
  rw [authChangePwd, appAuthCheckWrite_of_writable _ _ hWritable]
  dsimp only
  rw [if_neg (not_not.mpr rfl)]
  by_cases hLength : data.length < 34
  · rw [dif_pos hLength, if_neg (not_le.mpr hLength)]
  · rw [dif_neg hLength, if_pos (not_lt.mp hLength)]
    rfl

theorem passwordHash_request (env : Env) (s : AppState) (channel : Channel) (req : Payload) :
    (processAppPayload env s channel req appProtoRespMax).1.auth.passwordHash.toList =
      (newHash env.uptime s.auth channel req.bytes).getD s.auth.passwordHash.toList := by
  have hKeeps : (processAppPayload env s channel req appProtoRespMax).1.auth.passwordHash = s.auth.passwordHash ∨ _ :=
    passwordHash_processAppPayload
  unfold newHash
  by_cases hWritable : Writable s.auth channel env.uptime
  · rw [if_pos hWritable]
    by_cases hChange : IsAuth authSubcmdChangePwd req.bytes
    · have hNoReset : ¬ IsAction 0x03 req.bytes := fun hReset =>
        absurd ((hasCmd_of_isAuth hChange).unique (hasCmd_of_isAction hReset)) (by decide)
      rw [processAppPayload_of_auth (hasCmd_of_isAuth hChange)]
      refine (passwordHash_changePwd hChange hWritable).trans ?_
      by_cases hLength : 34 ≤ req.bytes.length
      · rw [if_pos hLength, if_pos ⟨hChange, hLength⟩]
        rfl
      · rw [if_neg hLength, if_neg fun h => hLength h.2, if_neg fun h => hNoReset h.1]
        rfl
    · rw [if_neg fun h => hChange h.1]
      by_cases hReset : IsAction 0x03 req.bytes ∧ Confirmed req.bytes
      · rw [if_pos hReset, processAppPayload_of_reset hReset.1 hWritable hReset.2]
        rfl
      · rw [if_neg hReset]
        obtain hSame | ⟨-, ⟨hChange', -⟩ | hReset'⟩ := hKeeps
        · exact congrArg List.Vector.toList hSame
        · exact absurd hChange' hChange
        · exact absurd hReset' hReset
  · rw [if_neg hWritable]
    obtain hSame | ⟨hWritable', -⟩ := hKeeps
    · exact congrArg List.Vector.toList hSame
    · exact absurd hWritable' hWritable

/-- The password hash is what the last accepted CHANGE_PWD or factory reset stored. -/
theorem passwordHash_run (d : Device) (is : List LocalInput) :
    (localMachine.run d is).auth.passwordHash.toList =
      (LastWrite.lastSome (fun p => replacement p.1 p.2)
        (localMachine.situations d is)).getD d.auth.passwordHash.toList := by
  refine view_run localMachine (fun d => d.auth.passwordHash.toList) (fun d i => ?_) d is
  cases i with
  | call c => rfl
  | wire e =>
    obtain ⟨uptime, input⟩ := e
    cases input with
    | bleDisconnect => rfl
    | request channel rand req =>
      rw [localMachine_next_wire, auth_next_of_request (rfl : (⟨uptime, _⟩ : Event).input = _)]
      exact passwordHash_request ⟨uptime, rand⟩ d.toAppState channel req

end Clock

end IotRange.Registry
