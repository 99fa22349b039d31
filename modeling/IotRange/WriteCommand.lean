import IotRange.Device
import IotRange.Library.LastWrite

/-! # What CMD 0x02 does

A refused write changes nothing but an expired window, and an accepted one applies the TLVs it
decodes.
-/
namespace IotRange.WriteCommand
open AppAuth AppFields AppTlv AppProtocol AppConfig Device
set_option autoImplicit false

section Atomicity

variable (env : Env) (d : Device) (channel : Channel) (req : Payload) (respMax : Nat)

theorem ota_of_hasCmd_write (hCmd : HasCmd cmdWrite req.bytes) :
    (handleRequest env d channel req).1.ota = d.ota := by
  cases channel with
  | nfc => rfl
  | ble =>
    rcases appConfigHandleBle_cases env d req with ⟨hOta, -⟩ | ⟨-, hEq⟩
    · exact absurd hOta (not_isOta_of_write hCmd)
    · exact congrArg (fun p : Device × List UInt8 => p.1.ota) hEq

/-- A refused write leaves the state as it was, up to clearing an NFC window that has passed. -/
theorem write_atomic (hCmd : HasCmd cmdWrite req.bytes) (hMax : 3 ≤ respMax)
    (hRefused : ¬ AnsweredOk (processAppPayload env d.toAppState channel req respMax).2) :
    (handleRequest env d channel req).1.ota = d.ota ∧
      ((processAppPayload env d.toAppState channel req respMax).1 = d.toAppState ∨
        (channel = .nfc ∧ 0 < d.auth.nfcAuthUntilMs ∧ d.auth.nfcAuthUntilMs < env.uptime ∧
          (processAppPayload env d.toAppState channel req respMax).1 =
            ⟨d.fields, { d.auth with nfcAuthUntilMs := 0 }⟩)) := by
  refine ⟨ota_of_hasCmd_write env d channel req hCmd, ?_⟩
  rw [answeredOk_write_iff hCmd hMax] at hRefused
  rw [processAppPayload_of_write hCmd]
  rcases handleCmdWrite_cases env.uptime d.toAppState channel req respMax with
    ⟨status, third, -, -, hEq⟩ | ⟨cache, -, -, -, hEq⟩ | ⟨cache, hParse, hAllowed, -⟩
  · left
    rw [hEq]
  · rw [hEq]
    rcases appAuthCheckWrite_eq_or d.auth channel env.uptime with hSame | ⟨rfl, hPos, hPassed, hExpired⟩
    · left
      rw [hSame]
    · right
      rw [hExpired]
      exact ⟨rfl, hPos, hPassed, rfl⟩
  · exact absurd ⟨cache, hParse, hAllowed⟩ hRefused

end Atomicity

def windowDevice : Device :=
  { boot with
    fields := appFieldSetDeviceState boot.fields .powerOn
    auth := { boot.auth with nfcAuthUntilMs := 5 } }

def modeWrite : Payload := ⟨[0x02, 0x01, 0x20, 0x01, 0x01], by decide⟩

def modeTlv : Tlv := ⟨fieldMode, [0x01], by decide⟩

theorem parseWrite_modeWrite : parseWrite modeWrite = .ok [modeTlv] := by
  refine parseWrite_eq_ok.mpr ⟨by decide, by decide, rfl, by decide, ?_, [], rfl, by decide⟩
  rw [List.forall_mem_singleton]
  rfl

theorem write_atomic_expired_window :
    (processAppPayload ⟨10, List.Vector.replicate 8 0⟩ windowDevice.toAppState .nfc modeWrite 3).1.fields =
      windowDevice.fields := by
  have hRefused : ¬ AnsweredOk
      (processAppPayload ⟨10, List.Vector.replicate 8 0⟩ windowDevice.toAppState .nfc modeWrite 3).2 := by
    intro hOk
    have hCmd : HasCmd cmdWrite modeWrite.bytes := rfl
    obtain ⟨-, -, hAllowed⟩ := (answeredOk_write_iff hCmd (le_refl 3)).mp hOk
    revert hAllowed
    decide
  obtain ⟨-, hState | ⟨-, -, -, hState⟩⟩ :=
    write_atomic ⟨10, List.Vector.replicate 8 0⟩ windowDevice .nfc modeWrite 3 rfl (le_refl 3) hRefused
  · rw [hState]
  · rw [hState]

/-! ## Accounting for the bytes of a write -/

/-- The bytes after FIELD_COUNT are that many TLVs and a positive multiple of 256 more. -/
def Overlong (req : Payload) : Prop :=
  ∃ ts, req.bytes.drop 2 = encodeAll ts ∧ (byteAt req.bytes 1).toNat < ts.length ∧
    ts.length % 256 = (byteAt req.bytes 1).toNat

def SplitsInto (data : List UInt8) (count : Nat) (ts : List Tlv) : Prop := data = encodeAll ts ∧ ts.length = count

/-- The pre-scan decides whether there are exactly FIELD_COUNT TLVs, and an answer OK means that
they are valid and applied. -/
def AccountsForAll (env : Env) (s : AppState) (channel : Channel) (req : Payload) (respMax : Nat) : Prop :=
  (tlvValidatePayload (req.drop 2) (byteAt req.bytes 1) = true ↔
      ∃ ts, SplitsInto (req.bytes.drop 2) (byteAt req.bytes 1).toNat ts) ∧
    (AnsweredOk (processAppPayload env s channel req respMax).2 →
      ∃ ts, SplitsInto (req.bytes.drop 2) (byteAt req.bytes 1).toNat ts ∧
        (∀ t ∈ ts, appFieldValidate t.fieldId t.value = .ok) ∧
        (processAppPayload env s channel req respMax).1.fields.config = (applyCache s.fields ts).config)

theorem config_applyWrite (f : Store) (cache : List Tlv) :
    (applyWrite f cache).config = (applyCache f cache).config := by
  unfold applyWrite appFieldMarkFactoryInitDone
  split
  · dsimp only
    split <;> rfl
  · rfl

theorem overlong_of_ofNat_eq {req : Payload} {ts : List Tlv} (hBytes : req.bytes.drop 2 = encodeAll ts)
    (hCount : UInt8.ofNat ts.length = byteAt req.bytes 1) (hNe : ts.length ≠ (byteAt req.bytes 1).toNat) :
    Overlong req := by
  rw [← UInt8.toNat_inj, UInt8.toNat_ofNat'] at hCount
  have hLt := (byteAt req.bytes 1).toNat_lt
  refine ⟨ts, hBytes, ?_, hCount⟩
  omega

theorem accountsForAll_iff (env : Env) (s : AppState) (channel : Channel) (req : Payload) (respMax : Nat)
    (hCmd : HasCmd cmdWrite req.bytes) : AccountsForAll env s channel req respMax ↔ ¬ Overlong req := by
  constructor
  · rintro ⟨hScan, -⟩ ⟨ts, hBytes, hMore, hCount⟩
    have hAccepted : tlvValidatePayload (req.drop 2) (byteAt req.bytes 1) = true := by
      refine (tlvValidatePayload_iff _ _).mpr ⟨ts, hBytes, ?_⟩
      rw [← UInt8.toNat_inj, UInt8.toNat_ofNat']
      exact hCount
    obtain ⟨ts', hBytes', hLength⟩ := hScan.mp hAccepted
    obtain rfl := tlvFraming.flatMap_encode_injective (hBytes.symm.trans hBytes')
    omega
  · intro hNot
    constructor
    · rw [tlvValidatePayload_iff]
      constructor
      · rintro ⟨ts, hBytes, hCount⟩
        refine ⟨ts, hBytes, ?_⟩
        by_contra hNe
        exact hNot (overlong_of_ofNat_eq hBytes hCount hNe)
      · rintro ⟨ts, hBytes, hLength⟩
        exact ⟨ts, hBytes, by rw [hLength, UInt8.ofNat_toNat]⟩
    · intro hOk
      obtain ⟨ts, hParse, -, hState⟩ := applied_of_answeredOk hCmd hOk
      obtain ⟨-, -, hLength, -, hValid, zs, hBytes, hZs⟩ := parseWrite_eq_ok.mp hParse
      have hNil : zs = [] := by
        by_contra hNe
        refine hNot (overlong_of_ofNat_eq hBytes ((ofNat_length_eq_iff hLength).mpr hZs) ?_)
        have hPos := List.length_pos_iff.mpr hNe
        rw [List.length_append]
        omega
      rw [hNil, List.append_nil] at hBytes
      refine ⟨ts, ⟨hBytes, hLength⟩, hValid, ?_⟩
      rw [hState]
      exact config_applyWrite s.fields ts

theorem not_overlong_of_length {req : Payload} (h : req.bytes.length < 514) : ¬ Overlong req := by
  rintro ⟨ts, hBytes, hMore, hCount⟩
  have hLength := two_mul_length_le ts
  rw [← hBytes, List.length_drop] at hLength
  omega

theorem accountsForAll_modeWrite :
    AccountsForAll ⟨0, List.Vector.replicate 8 0⟩ boot.toAppState .ble modeWrite 256 :=
  (accountsForAll_iff ⟨0, List.Vector.replicate 8 0⟩ boot.toAppState .ble modeWrite 256 rfl).mpr
    (not_overlong_of_length (by decide))

def paddingTlvs : List Tlv := List.replicate 256 ⟨0x30, [], by decide⟩

theorem length_paddingTlvs : paddingTlvs.length = 256 := List.length_replicate

theorem length_encodeAll_paddingTlvs : (encodeAll paddingTlvs).length = 512 := by
  simp only [encodeAll, paddingTlvs, List.length_flatMap, List.map_replicate, List.sum_replicate_nat,
    Tlv.length_bytes]
  rfl

/-- FIELD_COUNT 1, then MODE and 256 empty TLVs of an unknown field. -/
def overlongWrite : Payload :=
  ⟨[0x02, 0x01, 0x20, 0x01, 0x01] ++ encodeAll paddingTlvs, by
    rw [List.length_append, length_encodeAll_paddingTlvs]
    decide⟩

/-- On the factory-fresh device the write is answered OK although its data is 257 TLVs. -/
theorem overlongWrite_answeredOk :
    AnsweredOk (processAppPayload ⟨0, List.Vector.replicate 8 0⟩ boot.toAppState .nfc overlongWrite 256).2 ∧
      ¬ ∃ ts, SplitsInto (overlongWrite.bytes.drop 2) (byteAt overlongWrite.bytes 1).toNat ts := by
  have hCmd : HasCmd cmdWrite overlongWrite.bytes := rfl
  have hHeader : overlongWrite.bytes.take 2 = [0x02, 0x01] := rfl
  have hBytes : overlongWrite.bytes.drop 2 = encodeAll (modeTlv :: paddingTlvs) := rfl
  constructor
  · refine (answeredOk_write_iff hCmd (by decide)).mpr ⟨[modeTlv], parseWrite_eq_ok.mpr ?_, .inl rfl⟩
    refine ⟨(take_two_eq_iff.mp hHeader).1, by decide, rfl, by decide, ?_, paddingTlvs, hBytes, ?_⟩
    · rw [List.forall_mem_singleton]
      rfl
    · rw [length_paddingTlvs]
  · rintro ⟨ts, hSplit, hLength⟩
    obtain rfl := tlvFraming.flatMap_encode_injective (hBytes.symm.trans hSplit)
    rw [List.length_cons, length_paddingTlvs] at hLength
    revert hLength
    decide

end IotRange.WriteCommand
