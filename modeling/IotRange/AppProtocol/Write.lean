import IotRange.AppAuth
import IotRange.AppFields
import IotRange.AppTlv

/-! # CMD 0x02, writing configuration fields (app_protocol.c)

Phases 1 and 2 only look at the request, so they are one function from the request to the list of
TLVs to apply or to the status and field id of the reply.
-/
namespace IotRange.AppProtocol
open AppAuth AppFields AppTlv
set_option autoImplicit false

/-- The module state below `process_app_payload`: the field registry and the authentication module. -/
structure AppState where
  fields : Store
  auth : Auth

def writeCacheMax : Nat := 16

def reply3 (respMax : Nat) (cmd status third : UInt8) : List UInt8 :=
  if respMax < 3 then [] else [cmd, status, third]

/-- Phase 2: decode and validate `fieldCount` TLVs into the cache. -/
def cacheTlvs (tlvData : Payload) : Nat → UInt16 → List Tlv → Except (Status × UInt8) (List Tlv)
  | 0, _, cache => .ok cache
  | remaining + 1, offset, cache =>
    if cache.length ≥ writeCacheMax then .error (.paramLen, 0x00)
    else
      match tlvDecodeField tlvData offset with
      | .error _ => .error (.paramLen, 0x00)
      | .ok (t, offset) =>
        let status := appFieldValidate t.fieldId t.value
        if status ≠ .ok then .error (status, t.fieldId)
        else cacheTlvs tlvData remaining offset (cache ++ [t])

/-- Phases 1 and 2. -/
def parseWrite (req : Payload) : Except (Status × UInt8) (List Tlv) :=
  if req.bytes.length < 2 then .error (.paramLen, 0x00)
  else
    let fieldCount := byteAt req.bytes 1
    if fieldCount = 0 then .error (.paramLen, 0x00)
    else
      let tlvData := req.drop 2
      if !tlvValidatePayload tlvData fieldCount then .error (.paramLen, 0x00)
      else cacheTlvs tlvData fieldCount.toNat 0 []

def writeExempt (f : Store) : Bool := f.deviceState = .factory ∧ ¬ f.factoryInitDone

def applyCache (f : Store) (cache : List Tlv) : Store :=
  cache.foldl (fun f t => appFieldSet f t.fieldId t.value) f

def handleCmdWrite (uptime : Nat) (s : AppState) (channel : Channel) (req : Payload) (respMax : Nat) :
    AppState × List UInt8 :=
  match parseWrite req with
  | .error (status, third) => (s, reply3 respMax cmdWrite status.code third)
  | .ok cache =>
    let (authSt, auth) := if writeExempt s.fields then (.ok, s.auth) else appAuthCheckWrite uptime s.auth channel
    if authSt ≠ .ok then ({ s with auth := auth }, reply3 respMax cmdWrite authSt.code 0x00)
    else
      let fields := applyCache s.fields cache
      let fields := if writeExempt fields then appFieldMarkFactoryInitDone fields else fields
      (⟨fields, auth⟩, reply3 respMax cmdWrite Status.ok.code 0x00)

/-! ## Phases 1 and 2 -/

section Cache

variable {tlvData : Payload} {remaining : Nat} {offset : UInt16} {cache : List Tlv}

theorem cacheTlvs_sound {out : List Tlv} (h : cacheTlvs tlvData remaining offset cache = .ok out) :
    ∃ ts rest, out = cache ++ ts ∧ ts.length = remaining ∧
      (0 < remaining → cache.length + remaining ≤ writeCacheMax) ∧
      tlvData.bytes.drop offset.toNat = encodeAll ts ++ rest ∧
      ∀ t ∈ ts, appFieldValidate t.fieldId t.value = .ok := by
  induction remaining generalizing offset cache with
  | zero =>
    rw [cacheTlvs] at h
    exact ⟨[], _, by simpa using (Except.ok.inj h).symm, rfl, nofun, rfl, nofun⟩
  | succ remaining ih =>
    rw [cacheTlvs] at h
    split at h
    · cases h
    · rename_i hCache
      split at h
      · cases h
      · rename_i t next hDecode
        dsimp only at h
        split at h
        · cases h
        · rename_i hStatus
          obtain ⟨ts, rest, rfl, hLength, hMax, hRest, hValid⟩ := ih h
          obtain ⟨hBytes, -, -⟩ := tlvDecodeField_eq_ok hDecode
          refine ⟨t :: ts, rest, by simp, by simp [hLength], ?_, ?_, ?_⟩
          · intro _
            rcases Nat.eq_zero_or_pos remaining with rfl | hPos
            · omega
            · have hRoom := hMax hPos
              rw [List.length_append, List.length_singleton] at hRoom
              omega
          · rw [hBytes, hRest, encodeAll, encodeAll, List.flatMap_cons, List.append_assoc]
          · rw [List.forall_mem_cons]
            exact ⟨not_not.mp hStatus, hValid⟩

theorem cacheTlvs_complete {ts : List Tlv} {rest : List UInt8} (hLength : ts.length = remaining)
    (hMax : 0 < remaining → cache.length + remaining ≤ writeCacheMax)
    (hBytes : tlvData.bytes.drop offset.toNat = encodeAll ts ++ rest)
    (hValid : ∀ t ∈ ts, appFieldValidate t.fieldId t.value = .ok) :
    cacheTlvs tlvData remaining offset cache = .ok (cache ++ ts) := by
  induction ts generalizing remaining offset cache with
  | nil =>
    obtain rfl := hLength
    rw [List.append_nil]
    rfl
  | cons t ts ih =>
    obtain rfl := hLength
    rw [List.forall_mem_cons] at hValid
    rw [encodeAll, List.flatMap_cons, List.append_assoc] at hBytes
    obtain ⟨next, hDecode, hRest⟩ := tlvDecodeField_of_append hBytes
    have hCache := hMax (Nat.succ_pos _)
    rw [List.length_cons] at hCache ⊢
    rw [cacheTlvs, if_neg (by omega), hDecode]
    dsimp only
    rw [if_neg (not_not.mpr hValid.1), ih rfl ?_ hRest hValid.2, List.append_assoc]
    · rfl
    · intro _
      rw [List.length_append, List.length_singleton]
      omega

end Cache

theorem cacheTlvs_error {tlvData : Payload} {remaining : Nat} {offset : UInt16} {cache : List Tlv}
    {status : Status} {third : UInt8} (h : cacheTlvs tlvData remaining offset cache = .error (status, third)) :
    status ≠ .ok := by
  induction remaining generalizing offset cache with
  | zero => cases h
  | succ remaining ih =>
    rw [cacheTlvs] at h
    split at h
    · cases h
      decide
    · split at h
      · cases h
        decide
      · dsimp only at h
        split at h
        · rename_i hStatus
          cases h
          exact hStatus
        · exact ih h

theorem parseWrite_error {req : Payload} {status : Status} {third : UInt8}
    (h : parseWrite req = .error (status, third)) : status ≠ .ok := by
  unfold parseWrite at h
  split at h
  · cases h
    decide
  · dsimp only at h
    split at h
    · cases h
      decide
    · split at h
      · cases h
        decide
      · exact cacheTlvs_error h

theorem ofNat_length_eq_iff {ts zs : List Tlv} {fieldCount : UInt8} (h : ts.length = fieldCount.toNat) :
    UInt8.ofNat (ts ++ zs).length = fieldCount ↔ 256 ∣ zs.length := by
  rw [← UInt8.toNat_inj, UInt8.toNat_ofNat', List.length_append, h]
  have hLt := fieldCount.toNat_lt
  omega

/-- The bytes after FIELD_COUNT of an accepted request: the TLVs to apply, then a multiple of 256 more. -/
theorem parseWrite_eq_ok_iff_cacheTlvs {req : Payload} {ts : List Tlv} :
    parseWrite req = .ok ts ↔
      ¬ req.bytes.length < 2 ∧ byteAt req.bytes 1 ≠ 0 ∧ tlvValidatePayload (req.drop 2) (byteAt req.bytes 1) = true ∧
        cacheTlvs (req.drop 2) (byteAt req.bytes 1).toNat 0 [] = .ok ts := by
  constructor
  · intro h
    unfold parseWrite at h
    split at h
    · cases h
    · rename_i hLength
      dsimp only at h
      split at h
      · cases h
      · rename_i hZero
        split at h
        · cases h
        · rename_i hScan
          exact ⟨hLength, hZero, by simpa using hScan, h⟩
  · rintro ⟨hLength, hZero, hScan, hCache⟩
    rw [parseWrite, if_neg hLength]
    dsimp only
    rw [if_neg hZero, hScan]
    exact hCache

theorem parseWrite_eq_ok {req : Payload} {ts : List Tlv} :
    parseWrite req = .ok ts ↔
      ¬ req.bytes.length < 2 ∧ byteAt req.bytes 1 ≠ 0 ∧ ts.length = (byteAt req.bytes 1).toNat ∧
        ts.length ≤ writeCacheMax ∧ (∀ t ∈ ts, appFieldValidate t.fieldId t.value = .ok) ∧
        ∃ zs, req.bytes.drop 2 = encodeAll (ts ++ zs) ∧ 256 ∣ zs.length := by
  rw [parseWrite_eq_ok_iff_cacheTlvs]
  constructor
  · rintro ⟨hLength, hZero, hScan, hCache⟩
    obtain ⟨ts', rest, hTs, hCount, hMax, hBytes, hValid⟩ := cacheTlvs_sound hCache
    obtain rfl : ts = ts' := by simpa using hTs
    obtain ⟨all, hAll, hAllCount⟩ := (tlvValidatePayload_iff _ _).mp hScan
    have hDrop : (req.drop 2).bytes = encodeAll ts ++ rest := by simpa using hBytes
    obtain ⟨zs, rfl, rfl⟩ := tlvFraming.suffix_of_prefix (hAll.symm.trans hDrop)
    have hPos : 0 < (byteAt req.bytes 1).toNat :=
      Nat.pos_of_ne_zero fun h0 => hZero (UInt8.toNat_inj.mp h0)
    have hFits := hMax hPos
    rw [List.length_nil, Nat.zero_add] at hFits
    exact ⟨hLength, hZero, hCount, hCount ▸ hFits, hValid, zs, hAll, (ofNat_length_eq_iff hCount).mp hAllCount⟩
  · rintro ⟨hLength, hZero, hCount, hMax, hValid, zs, hBytes, hZs⟩
    have hScan : tlvValidatePayload (req.drop 2) (byteAt req.bytes 1) = true :=
      (tlvValidatePayload_iff _ _).mpr ⟨ts ++ zs, hBytes, (ofNat_length_eq_iff hCount).mpr hZs⟩
    have hFirst : (req.drop 2).bytes = encodeAll ts ++ encodeAll zs := by
      rw [encodeAll, encodeAll, ← List.flatMap_append]
      exact hBytes
    refine ⟨hLength, hZero, hScan, cacheTlvs_complete hCount ?_ hFirst hValid⟩
    intro _
    rwa [List.length_nil, Nat.zero_add, ← hCount]

/-! ## Phases 3 to 5 -/

@[simp] theorem deviceState_applyCache (f : Store) (cache : List Tlv) :
    (applyCache f cache).deviceState = f.deviceState := by
  induction cache generalizing f with
  | nil => rfl
  | cons t cache ih => exact (ih _).trans (deviceState_appFieldSet f t.fieldId t.value)

@[simp] theorem factoryInitDone_applyCache (f : Store) (cache : List Tlv) :
    (applyCache f cache).factoryInitDone = f.factoryInitDone := by
  induction cache generalizing f with
  | nil => rfl
  | cons t cache ih => exact (ih _).trans (factoryInitDone_appFieldSet f t.fieldId t.value)

def applyWrite (f : Store) (cache : List Tlv) : Store :=
  if writeExempt f then appFieldMarkFactoryInitDone (applyCache f cache) else applyCache f cache

@[simp] theorem writeExempt_applyCache (f : Store) (cache : List Tlv) :
    writeExempt (applyCache f cache) = writeExempt f := by
  simp [writeExempt]

theorem writeExempt_applyWrite (f : Store) (cache : List Tlv) : writeExempt (applyWrite f cache) = false := by
  unfold applyWrite
  split
  · simp only [writeExempt, appFieldMarkFactoryInitDone]
    split <;> simp
  · rw [writeExempt_applyCache]
    simpa using ‹¬ writeExempt f = true›

theorem deviceState_applyWrite (f : Store) (cache : List Tlv) :
    (applyWrite f cache).deviceState = if writeExempt f then .powerOn else f.deviceState := by
  unfold applyWrite
  split
  · rename_i hExempt
    have hFactory : (applyCache f cache).deviceState = .factory := by
      rw [deviceState_applyCache]
      exact (of_decide_eq_true hExempt).1
    simp only [appFieldMarkFactoryInitDone, if_pos hFactory]
  · exact deviceState_applyCache f cache

section Write

variable (uptime : Nat) (s : AppState) (channel : Channel) (req : Payload) (respMax : Nat)

/-- What CMD 0x02 can do: refuse the request, refuse the channel, or apply every TLV. -/
theorem handleCmdWrite_cases :
    (∃ status third, status ≠ .ok ∧ parseWrite req = .error (status, third) ∧
        handleCmdWrite uptime s channel req respMax = (s, reply3 respMax cmdWrite status.code third)) ∨
      (∃ cache, parseWrite req = .ok cache ∧ writeExempt s.fields = false ∧ ¬ Writable s.auth channel uptime ∧
        handleCmdWrite uptime s channel req respMax =
          ({ s with auth := (appAuthCheckWrite uptime s.auth channel).2 },
            reply3 respMax cmdWrite (appAuthCheckWrite uptime s.auth channel).1.code 0x00)) ∨
      ∃ cache, parseWrite req = .ok cache ∧ (writeExempt s.fields = true ∨ Writable s.auth channel uptime) ∧
        handleCmdWrite uptime s channel req respMax =
          ({ s with fields := applyWrite s.fields cache }, reply3 respMax cmdWrite Status.ok.code 0x00) := by
  unfold handleCmdWrite
  split
  · rename_i status third hParse
    exact .inl ⟨status, third, parseWrite_error hParse, hParse, rfl⟩
  · rename_i cache hParse
    cases hExempt : writeExempt s.fields with
    | true =>
      refine .inr (.inr ⟨cache, hParse, .inl rfl, ?_⟩)
      simp [hExempt, applyWrite]
    | false =>
      by_cases hWritable : Writable s.auth channel uptime
      · refine .inr (.inr ⟨cache, hParse, .inr hWritable, ?_⟩)
        simp [hExempt, applyWrite, appAuthCheckWrite_of_writable _ _ hWritable]
      · refine .inr (.inl ⟨cache, hParse, rfl, hWritable, ?_⟩)
        have hStatus : (appAuthCheckWrite uptime s.auth channel).1 ≠ .ok := hWritable
        simp [hStatus]

end Write

end IotRange.AppProtocol
