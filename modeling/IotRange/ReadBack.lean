import IotRange.WriteCommand
import IotRange.Library.LastWrite

/-! # Reading back what CMD 0x02 wrote

The value of a field is a view of the store, and every TLV either determines it or leaves it alone.
-/
namespace IotRange.ReadBack
open AppAuth AppFields AppTlv AppProtocol AppConfig Device LastWrite WriteCommand
set_option autoImplicit false

def lastValue (ts : List Tlv) (fieldId : UInt8) : Option (List UInt8) :=
  (ts.filter fun t => t.fieldId = fieldId).getLast?.map Tlv.value

/-- What a field must read as after the TLVs have been written to `f`. -/
def valueAfterWrite (f : Store) (ts : List Tlv) (fieldId : UInt8) : List UInt8 :=
  let old := appFieldGet f fieldId valBufSize
  match fieldId with
  | fieldMode | fieldUpdateInterval | fieldInstallLocation => (lastValue ts fieldId).getD old
  | fieldLatitude => ((lastValue ts fieldInstallLocation).map fun value => value.take 4).getD old
  | fieldLongitude => ((lastValue ts fieldInstallLocation).map fun value => value.drop 4).getD old
  | fieldGnssFix => ((lastValue ts fieldInstallLocation).map fun _ => [0x01]).getD old
  | fieldAltitude => ((lastValue ts fieldInstallLocation).map fun _ => [0x00, 0x00]).getD old
  | fieldDeviceState => if writeExempt f then [DeviceState.powerOn.code] else old
  | _ => old

/-! ## One TLV -/

/-- What a valid TLV says about the value of a field. -/
def effectOn (fieldId : UInt8) (t : Tlv) : Option (List UInt8) :=
  match fieldId with
  | fieldMode | fieldUpdateInterval | fieldInstallLocation => if t.fieldId = fieldId then some t.value else none
  | fieldLatitude => if t.fieldId = fieldInstallLocation then some (t.value.take 4) else none
  | fieldLongitude => if t.fieldId = fieldInstallLocation then some (t.value.drop 4) else none
  | fieldGnssFix => if t.fieldId = fieldInstallLocation then some [0x01] else none
  | fieldAltitude => if t.fieldId = fieldInstallLocation then some [0x00, 0x00] else none
  | _ => none

theorem mem_allReadableFields {fieldId : UInt8} (h : fieldIsReadable fieldId = true) :
    fieldId ∈ allReadableFields := by
  unfold fieldIsReadable at h
  split at h
  all_goals first | decide | cases h

theorem effectOn_of_not_readable {fieldId : UInt8} (h : fieldIsReadable fieldId = false) (t : Tlv) :
    effectOn fieldId t = none := by
  unfold effectOn
  split
  all_goals first | rfl | cases h

theorem putU32Be_getU32Be (a b c d : UInt8) (rest : List UInt8) :
    putU32Be (getU32Be (a :: b :: c :: d :: rest)).toInt32.toUInt32 = [a, b, c, d] := by
  rw [UInt32.toUInt32_toInt32]
  exact be32_readBe32 a b c d rest

section Set

variable (f : Store)

/-- The setter of a TLV shows in the fields that the TLV determines and in no other. -/
def ShowsIn (t : Tlv) (fieldId : UInt8) : Prop :=
  appFieldGet (appFieldSet f t.fieldId t.value) fieldId valBufSize =
    (effectOn fieldId t).getD (appFieldGet f fieldId valBufSize)

theorem showsIn_mode {value : List UInt8} (hValue : value.length < 256) (hLength : value.length = 1) :
    ∀ fieldId ∈ allReadableFields, ShowsIn f ⟨fieldMode, value, hValue⟩ fieldId := by
  match value with
  | [a] =>
    simp only [allReadableFields, List.forall_mem_cons]
    and_intros
    all_goals first | rfl | exact List.forall_mem_nil _

theorem showsIn_updateInterval {value : List UInt8} (hValue : value.length < 256) (hLength : value.length = 2) :
    ∀ fieldId ∈ allReadableFields, ShowsIn f ⟨fieldUpdateInterval, value, hValue⟩ fieldId := by
  match value with
  | [a, b] =>
    simp only [allReadableFields, List.forall_mem_cons]
    and_intros
    all_goals first | rfl | exact be16_readBe16 a b [] | exact List.forall_mem_nil _

theorem showsIn_installLocation {value : List UInt8} (hValue : value.length < 256) (hLength : value.length = 8) :
    ∀ fieldId ∈ allReadableFields, ShowsIn f ⟨fieldInstallLocation, value, hValue⟩ fieldId := by
  match value with
  | [a, b, c, d, a', b', c', d'] =>
    have hLat := putU32Be_getU32Be a b c d [a', b', c', d']
    have hLng := putU32Be_getU32Be a' b' c' d' []
    simp only [allReadableFields, List.forall_mem_cons]
    refine ⟨rfl, rfl, rfl, rfl, rfl, rfl, rfl, rfl, rfl, rfl, rfl, rfl, rfl, ?_, rfl, ?_, ?_, ?_,
      List.forall_mem_nil _⟩
    · exact congrArg₂ (· ++ ·) hLat hLng
    · exact hLat
    · exact hLng
    · have hAltitude : putU16Be (0 : Int16).toUInt16 = [0x00, 0x00] := by decide
      exact hAltitude

end Set

theorem appFieldGet_appFieldSet (f : Store) {t : Tlv} (h : appFieldValidate t.fieldId t.value = .ok)
    (fieldId : UInt8) : ShowsIn f t fieldId := by
  cases hReadable : fieldIsReadable fieldId with
  | false =>
    rw [ShowsIn, appFieldGet_of_not_readable hReadable, appFieldGet_of_not_readable hReadable,
      effectOn_of_not_readable hReadable]
    rfl
  | true =>
    have hMem := mem_allReadableFields hReadable
    obtain ⟨id, value, hValue⟩ := t
    rcases writable_cases h with ⟨rfl, hLength⟩ | ⟨rfl, hLength⟩ | ⟨rfl, hLength⟩
    · exact showsIn_mode f hValue hLength fieldId hMem
    · exact showsIn_updateInterval f hValue hLength fieldId hMem
    · exact showsIn_installLocation f hValue hLength fieldId hMem

/-! ## The whole write -/

theorem appFieldGet_applyCache (f : Store) {ts : List Tlv}
    (hValid : ∀ t ∈ ts, appFieldValidate t.fieldId t.value = .ok) (fieldId : UInt8) :
    appFieldGet (applyCache f ts) fieldId valBufSize =
      (lastSome (effectOn fieldId) ts).getD (appFieldGet f fieldId valBufSize) := by
  let view := fun f => appFieldGet f fieldId valBufSize
  have hStep : ∀ t ∈ ts, ∀ f, view (appFieldSet f t.fieldId t.value) = (effectOn fieldId t).getD (view f) :=
    fun t ht f => appFieldGet_appFieldSet f (hValid t ht) fieldId
  exact view_foldl f hStep

theorem appFieldGet_applyWrite_of_ne (f : Store) (ts : List Tlv) {fieldId : UInt8}
    (h : fieldId ≠ fieldDeviceState) :
    appFieldGet (applyWrite f ts) fieldId valBufSize = appFieldGet (applyCache f ts) fieldId valBufSize := by
  unfold applyWrite appFieldMarkFactoryInitDone
  split
  · dsimp only
    split
    all_goals
      unfold appFieldGet
      split
      · rfl
      · split
        all_goals first | exact absurd rfl h | rfl
  · rfl

theorem appFieldGet_deviceState (f : Store) :
    appFieldGet f fieldDeviceState valBufSize = [f.deviceState.code] := rfl

theorem lastSome_location (ts : List Tlv) (value : List UInt8 → List UInt8) :
    lastSome (fun t : Tlv => if t.fieldId = fieldInstallLocation then some (value t.value) else none) ts =
      (lastValue ts fieldInstallLocation).map value := by
  rw [lastSome_ite (fun t : Tlv => t.fieldId = fieldInstallLocation) (fun t => value t.value), lastValue,
    Option.map_map]
  rfl

theorem appFieldGet_applyWrite (f : Store) {ts : List Tlv}
    (hValid : ∀ t ∈ ts, appFieldValidate t.fieldId t.value = .ok) (fieldId : UInt8) :
    appFieldGet (applyWrite f ts) fieldId valBufSize = valueAfterWrite f ts fieldId := by
  by_cases hState : fieldId = fieldDeviceState
  · rw [hState, appFieldGet_deviceState, deviceState_applyWrite]
    change _ = if writeExempt f then [DeviceState.powerOn.code] else [f.deviceState.code]
    split <;> rfl
  · rw [appFieldGet_applyWrite_of_ne f ts hState, appFieldGet_applyCache f hValid]
    unfold valueAfterWrite
    split
    · rw [lastValue, ← lastSome_ite]
      rfl
    · rw [lastValue, ← lastSome_ite]
      rfl
    · rw [lastValue, ← lastSome_ite]
      rfl
    · rw [← lastSome_location]
      rfl
    · rw [← lastSome_location]
      rfl
    · rw [← lastSome_location]
      rfl
    · rw [← lastSome_location]
      rfl
    · exact absurd rfl hState
    · have hNone : effectOn fieldId = fun _ => none := by
        funext t
        unfold effectOn
        split
        all_goals first | contradiction | rfl
      rw [hNone, lastSome_none]
      rfl

/-! ## The following read -/

def readOne (stamp : UInt32) (fieldId : UInt8) : Payload :=
  ⟨[cmdRead] ++ be32 stamp ++ [0x01, fieldId], by simp⟩

def readReply (fieldId : UInt8) (value : List UInt8) : List UInt8 :=
  readHeader 0x01 ++ [fieldId, UInt8.ofNat value.length] ++ value

theorem reply_readOne (env : Env) (s : AppState) (channel : Channel) (stamp : UInt32) {fieldId : UInt8}
    {respMax : Nat}
    (hReadable : fieldIsReadable fieldId = true) (hMax : 13 ≤ respMax) :
    (processAppPayload env s channel (readOne stamp fieldId) respMax).2 =
      readReply fieldId (appFieldGet s.fields fieldId valBufSize) := by
  have hCmd : HasCmd cmdRead (readOne stamp fieldId).bytes := rfl
  have hIds : ((readOne stamp fieldId).bytes.drop 6).take (byteAt (readOne stamp fieldId).bytes 5).toNat =
    [fieldId] :=
    rfl
  rw [processAppPayload_of_read hCmd, handleCmdRead, if_neg (by simp [readOne])]
  dsimp only
  rw [if_neg (by omega), if_neg (by simp [readOne, be32]), if_neg (by simp [readOne, be32]), hIds]
  generalize hStore : appFieldSetUnixtime s.fields (readBe32 ((readOne stamp fieldId).bytes.drop 1)) = f
  have hGet : appFieldGet s.fields fieldId valBufSize = appFieldGet f fieldId valBufSize := by
    rw [← hStore, appFieldGet_appFieldSetUnixtime]
  have hValue := length_appFieldGet f hReadable
  have hLength := length_appFieldGet_le f fieldId
  have hFits : ReadFits [fieldId] respMax := by
    refine ⟨List.forall_mem_singleton.mpr hReadable, ?_⟩
    rw [List.map_singleton, List.sum_singleton]
    omega
  have hTlvs : fieldTlvs f [fieldId] = (fieldTlv f fieldId).bytes := List.append_nil _
  rw [hGet, readListedFields_of_fits hFits, fieldsReply, hTlvs]
  rfl

/-- After an accepted write every readable field reads as the TLVs decoded from the request say. -/
theorem write_then_read (env : Env) (s : AppState) (channel : Channel) (req : Payload) (respMax : Nat)
    (hCmd : HasCmd cmdWrite req.bytes) (hOk : AnsweredOk (processAppPayload env s channel req respMax).2) :
    ∃ ts rest, req.bytes.drop 2 = encodeAll ts ++ rest ∧ ts.length = (byteAt req.bytes 1).toNat ∧
      ∀ env' channel' stamp fieldId respMax', fieldIsReadable fieldId = true → 13 ≤ respMax' →
        (processAppPayload env' (processAppPayload env s channel req respMax).1 channel' (readOne stamp fieldId)
          respMax').2 = readReply fieldId (valueAfterWrite s.fields ts fieldId) := by
  obtain ⟨ts, hParse, -, hState⟩ := applied_of_answeredOk hCmd hOk
  obtain ⟨-, -, hLength, -, hValid, zs, hBytes, -⟩ := parseWrite_eq_ok.mp hParse
  refine ⟨ts, encodeAll zs, ?_, hLength, ?_⟩
  · rw [hBytes, encodeAll, encodeAll, List.flatMap_append]
  · intro env' channel' stamp fieldId respMax' hReadable hMax
    rw [reply_readOne env' _ channel' stamp hReadable hMax, hState]
    exact congrArg (readReply fieldId) (appFieldGet_applyWrite s.fields hValid fieldId)

theorem write_then_read_modeWrite :
    (processAppPayload ⟨2, List.Vector.replicate 8 0⟩
      (processAppPayload ⟨1, List.Vector.replicate 8 0⟩ boot.toAppState .ble modeWrite 256).1 .nfc
      (readOne 0 fieldMode) 256).2 = [0x01, 0x00, 0x01, 0x20, 0x01, 0x01] := by
  have hCmd : HasCmd cmdWrite modeWrite.bytes := rfl
  have hOk : AnsweredOk (processAppPayload ⟨1, List.Vector.replicate 8 0⟩ boot.toAppState .ble modeWrite 256).2 :=
    (answeredOk_write_iff hCmd (by decide)).mpr ⟨[modeTlv], parseWrite_modeWrite, .inl rfl⟩
  obtain ⟨ts, rest, hBytes, hLength, hRead⟩ :=
    write_then_read ⟨1, List.Vector.replicate 8 0⟩ boot.toAppState .ble modeWrite 256 hCmd hOk
  have hTs : encodeAll [modeTlv] ++ [] = encodeAll ts ++ rest := hBytes
  have hOne : [modeTlv].length = ts.length := hLength.symm
  obtain ⟨rfl, -⟩ := tlvFraming.prefix_unique hOne hTs
  exact hRead ⟨2, List.Vector.replicate 8 0⟩ .nfc 0 fieldMode 256 rfl (by decide)

end IotRange.ReadBack
