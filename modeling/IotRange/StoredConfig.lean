import IotRange.ReadBack

/-! # The stored configuration

CMD 0x02 stores validated values only, so the configuration stays in range for as long as
`app_config_set_mode`, which stores any byte, is called with the modes that exist.
-/
namespace IotRange.StoredConfig
open AppAuth AppFields AppTlv AppProtocol AppConfig Device ReadBack
set_option autoImplicit false

/-- The invariant of the configuration. -/
structure InRange (f : Store) : Prop where
  mode : 0x01 ≤ f.mode ∧ f.mode ≤ 0x03
  installLat : -900000000 ≤ f.installLat ∧ f.installLat ≤ 900000000
  installLng : -1800000000 ≤ f.installLng ∧ f.installLng ≤ 1800000000

/-- A CMD 0x02 with the value read from one field. -/
def resendRequest (f : Store) (fieldId : UInt8) : Payload :=
  ⟨[cmdWrite, 0x01] ++ (fieldTlv f fieldId).bytes, by
    have hValue := (fieldTlv f fieldId).length_lt
    rw [List.length_append, Tlv.length_bytes]
    exact Nat.lt_of_lt_of_le (Nat.add_lt_add_left (Nat.add_lt_add_left hValue 2) 2) (by decide)⟩

structure Valid (f : Store) : Prop extends InRange f where
  resend : ∀ fieldId, fieldIsWritable fieldId = true →
    parseWrite (resendRequest f fieldId) = .ok [fieldTlv f fieldId]

/-! ## What validation says -/

theorem validate_mode_iff {value : UInt8} : appFieldValidate fieldMode [value] = .ok ↔ 0x01 ≤ value ∧ value ≤ 0x03 := by
  change (if value < 0x01 ∨ value > 0x03 then Status.paramValue else Status.ok) = .ok ↔ _
  rw [← UInt8.not_lt, ← UInt8.not_lt, ← not_or]
  split
  · rename_i hBad
    exact ⟨nofun, fun hGood => absurd hBad hGood⟩
  · rename_i hGood
    exact ⟨fun _ => hGood, fun _ => rfl⟩

theorem validate_updateInterval (a b : UInt8) : appFieldValidate fieldUpdateInterval [a, b] = .ok := rfl

theorem validate_installLocation_iff {value : List UInt8} (hLength : value.length = 8) :
    appFieldValidate fieldInstallLocation value = .ok ↔
      (-900000000 ≤ (getU32Be value).toInt32 ∧ (getU32Be value).toInt32 ≤ 900000000) ∧
        (-1800000000 ≤ (getU32Be (value.drop 4)).toInt32 ∧ (getU32Be (value.drop 4)).toInt32 ≤ 1800000000) := by
  have hValidate : appFieldValidate fieldInstallLocation value =
      if (getU32Be value).toInt32 < -900000000 ∨ (getU32Be value).toInt32 > 900000000 ∨
          (getU32Be (value.drop 4)).toInt32 < -1800000000 ∨ (getU32Be (value.drop 4)).toInt32 > 1800000000 then
        .paramValue
      else .ok := by
    match value with
    | [_, _, _, _, _, _, _, _] => rfl
  rw [hValidate]
  simp only [← Int32.not_lt, ← not_or, or_assoc]
  split
  · rename_i hBad
    exact ⟨nofun, fun hGood => absurd hBad hGood⟩
  · rename_i hGood
    exact ⟨fun _ => hGood, fun _ => rfl⟩

/-! ## The invariant along a step -/

section Steps

variable {f : Store}

theorem inRange_appFieldSet {fieldId : UInt8} {value : List UInt8} (h : InRange f)
    (hValid : appFieldValidate fieldId value = .ok) : InRange (appFieldSet f fieldId value) := by
  obtain ⟨hMode, hLat, hLng⟩ := h
  obtain ⟨rfl, hLength⟩ | ⟨rfl, -⟩ | ⟨rfl, hLength⟩ := writable_cases hValid
  · match value with
    | [mode] => exact ⟨validate_mode_iff.mp hValid, hLat, hLng⟩
  · exact ⟨hMode, hLat, hLng⟩
  · obtain ⟨hLat', hLng'⟩ := (validate_installLocation_iff hLength).mp hValid
    exact ⟨hMode, hLat', hLng'⟩

theorem inRange_applyCache {cache : List Tlv} (h : InRange f)
    (hValid : ∀ t ∈ cache, appFieldValidate t.fieldId t.value = .ok) : InRange (applyCache f cache) := by
  induction cache generalizing f with
  | nil => exact h
  | cons t cache ih =>
    rw [List.forall_mem_cons] at hValid
    exact ih (inRange_appFieldSet h hValid.1) hValid.2

theorem inRange_applyWrite {cache : List Tlv} (h : InRange f)
    (hValid : ∀ t ∈ cache, appFieldValidate t.fieldId t.value = .ok) : InRange (applyWrite f cache) := by
  obtain ⟨hMode, hLat, hLng⟩ := inRange_applyCache h hValid
  unfold applyWrite appFieldMarkFactoryInitDone
  split
  · dsimp only
    split <;> exact ⟨hMode, hLat, hLng⟩
  · exact ⟨hMode, hLat, hLng⟩

theorem inRange_appFieldsInit (f : Store) : InRange (appFieldsInit f) :=
  ⟨(by decide : (0x01 : UInt8) ≤ 0x02 ∧ (0x02 : UInt8) ≤ 0x03),
    (by decide : (-900000000 : Int32) ≤ 246087800 ∧ (246087800 : Int32) ≤ 900000000),
    (by decide : (-1800000000 : Int32) ≤ 1180689300 ∧ (1180689300 : Int32) ≤ 1800000000)⟩

theorem inRange_fieldEffect {env : Env} {s : AppState} {channel : Channel} {req : Payload} (h : InRange s.fields) :
    InRange ((fieldEffect env s channel req).apply s.fields) := by
  obtain hEq | ⟨ts, hEq⟩ | ⟨cache, -, hParse, -, hEq⟩ | ⟨-, hEq⟩ | ⟨-, -, hEq⟩ | ⟨-, -, -, hEq⟩ :=
    fieldEffect_cases env s channel req
  · rw [hEq]
    exact h
  · rw [hEq]
    exact ⟨h.mode, h.installLat, h.installLng⟩
  · rw [hEq]
    obtain ⟨-, -, -, -, hValid, -⟩ := parseWrite_eq_ok.mp hParse
    exact inRange_applyWrite h hValid
  · rw [hEq]
    exact ⟨h.mode, h.installLat, h.installLng⟩
  · rw [hEq]
    exact ⟨h.mode, h.installLat, h.installLng⟩
  · rw [hEq]
    exact inRange_appFieldsInit s.fields

/-- The calls of the local interface that store a mode store one that exists. -/
def KnownMode : LocalInput → Prop
  | .call (.mode value) => 0x01 ≤ value ∧ value ≤ 0x03
  | _ => True

theorem inRange_next {d : Device} {i : LocalInput} (hMode : KnownMode i) (h : InRange d.fields) :
    InRange (localMachine.next d i).fields := by
  cases i with
  | wire e =>
    rw [localMachine_next_wire]
    cases hInput : e.input with
    | request c rand req =>
      rw [fields_next_of_request hInput]
      exact inRange_fieldEffect h
    | bleDisconnect =>
      rw [fields_next_of_disconnect hInput]
      exact h
  | call c =>
    rw [localMachine_next_call]
    cases c with
    | mode value => exact ⟨hMode, h.installLat, h.installLng⟩
    | _ => exact ⟨h.mode, h.installLat, h.installLng⟩

end Steps

/-! ## Re-sending what was read -/

theorem validate_appFieldGet {f : Store} (h : InRange f) {fieldId : UInt8}
    (hWritable : fieldIsWritable fieldId = true) :
    appFieldValidate fieldId (appFieldGet f fieldId valBufSize) = .ok := by
  unfold fieldIsWritable at hWritable
  split at hWritable
  · exact validate_mode_iff.mpr h.mode
  · exact validate_updateInterval _ _
  · have hLat : getU32Be (putU32Be f.installLat.toUInt32 ++ putU32Be f.installLng.toUInt32) = f.installLat.toUInt32 :=
      readBe32_be32 _ _
    have hLng : getU32Be (putU32Be f.installLng.toUInt32) = f.installLng.toUInt32 := readBe32_be32 _ []
    have hDrop : (putU32Be f.installLat.toUInt32 ++ putU32Be f.installLng.toUInt32).drop 4 =
        putU32Be f.installLng.toUInt32 := rfl
    change appFieldValidate fieldInstallLocation (putU32Be f.installLat.toUInt32 ++ putU32Be f.installLng.toUInt32) = _
    rw [validate_installLocation_iff rfl, hDrop, hLat, hLng]
    exact ⟨h.installLat, h.installLng⟩
  · cases hWritable

theorem valid_of_inRange {f : Store} (h : InRange f) : Valid f where
  toInRange := h
  resend fieldId hWritable := by
    refine parseWrite_eq_ok.mpr ⟨?_, ?_, rfl, ?_, ?_, [], ?_, Nat.dvd_zero 256⟩
    · exact Nat.not_lt.mpr (Nat.le_add_left 2 _)
    · exact (by decide : (0x01 : UInt8) ≠ 0)
    · exact (by decide : 1 ≤ writeCacheMax)
    · rw [List.forall_mem_singleton]
      exact validate_appFieldGet h hWritable
    · exact (List.append_nil _).symm

/-! ## Runs -/

/-- The calls of `app_field_set` that a step makes. -/
def stored (d : Device) : LocalInput → List (UInt8 × List UInt8)
  | .wire ⟨uptime, .request channel rand req⟩ =>
    match fieldEffect ⟨uptime, rand⟩ d.toAppState channel req with
    | .write cache => cache.map fun t => (t.fieldId, t.value)
    | _ => []
  | .wire ⟨_, .bleDisconnect⟩ => []
  | .call (.mode value) => [(fieldMode, [value])]
  | .call (.updateTime interval) => [(fieldUpdateInterval, [(interval >>> 8).toUInt8, interval.toUInt8])]
  | .call _ => []

/-- Along the run every stored value has passed validation, and every state reached is valid. -/
def StaysValid (es : List LocalInput) : Prop :=
  (∀ p ∈ localMachine.situations boot es, ∀ v ∈ stored p.1 p.2, appFieldValidate v.1 v.2 = .ok) ∧
    ∀ pre, pre <+: es → Valid (localMachine.run boot pre).fields

theorem validated_of_knownMode {d : Device} {i : LocalInput} (h : KnownMode i) :
    ∀ v ∈ stored d i, appFieldValidate v.1 v.2 = .ok := by
  cases i with
  | wire e =>
    obtain ⟨uptime, input⟩ := e
    cases input with
    | request channel rand req =>
      obtain hEq | ⟨ts, hEq⟩ | ⟨cache, -, hParse, -, hEq⟩ | ⟨-, hEq⟩ | ⟨-, -, hEq⟩ | ⟨-, -, -, hEq⟩ :=
        fieldEffect_cases ⟨uptime, rand⟩ d.toAppState channel req
      case inr.inr.inl =>
        obtain ⟨-, -, -, -, hValid, -⟩ := parseWrite_eq_ok.mp hParse
        simp only [stored, hEq, List.forall_mem_map]
        exact hValid
      all_goals
        simp only [stored, hEq]
        exact List.forall_mem_nil _
    | bleDisconnect => exact List.forall_mem_nil _
  | call c =>
    cases c with
    | mode value => exact List.forall_mem_singleton.mpr (validate_mode_iff.mpr h)
    | updateTime interval => exact List.forall_mem_singleton.mpr (validate_updateInterval _ _)
    | _ => exact List.forall_mem_nil _

theorem knownMode_of_modes {es : List LocalInput}
    (h : ∀ value, LocalInput.call (.mode value) ∈ es → 0x01 ≤ value ∧ value ≤ 0x03) : ∀ i ∈ es, KnownMode i := by
  rintro (e | c) hMem
  · exact trivial
  · cases c with
    | mode value => exact h value hMem
    | _ => exact trivial

/-- The stored configuration stays valid along exactly the runs that set no mode but 1, 2 and 3. -/
theorem staysValid_iff (es : List LocalInput) :
    StaysValid es ↔ ∀ value, LocalInput.call (.mode value) ∈ es → 0x01 ≤ value ∧ value ≤ 0x03 := by
  constructor
  · rintro ⟨hStored, -⟩ value hMem
    obtain ⟨pre, post, rfl⟩ := List.append_of_mem hMem
    have hSituation : (localMachine.run boot pre, LocalInput.call (.mode value)) ∈
        localMachine.situations boot (pre ++ .call (.mode value) :: post) :=
      localMachine.mem_situations_iff.mpr ⟨pre, post, rfl, rfl⟩
    exact validate_mode_iff.mp (hStored _ hSituation (fieldMode, [value]) List.mem_cons_self)
  · intro hModes
    have hKnown := knownMode_of_modes hModes
    constructor
    · intro p hp
      exact validated_of_knownMode (localMachine.forall_situations hKnown p hp)
    · intro pre hPre
      have hStep (d : Device) (i : LocalInput) (hMode : KnownMode i) (h : InRange d.fields) :
          InRange (localMachine.next d i).fields := inRange_next hMode h
      have hInputs : ∀ i ∈ pre, KnownMode i := fun i hi => hKnown i (hPre.mem hi)
      have hBoot : InRange boot.fields := inRange_appFieldsInit Store.static
      exact valid_of_inRange (localMachine.run_invariant_of hStep boot pre hInputs hBoot)

/-- After `app_config_set_mode(0)` MODE is 0. -/
theorem modeZero_not_staysValid : ¬ StaysValid [.call (.mode 0)] := by
  rintro ⟨-, hValid⟩
  have hMode := (hValid _ (List.prefix_refl _)).mode
  exact absurd hMode (by decide)

end IotRange.StoredConfig
