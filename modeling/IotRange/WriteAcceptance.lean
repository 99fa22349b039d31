import IotRange.WriteCommand

/-! # Which CMD 0x02 requests are accepted

The cache has room for sixteen TLVs; a payload of 240 bytes has room for more. The branch of the full
cache is reached by the writes with more than sixteen TLVs, and by no other valid ones.
-/
namespace IotRange.WriteAcceptance
open AppAuth AppFields AppTlv AppProtocol AppConfig Device WriteCommand
set_option autoImplicit false

/-- Phase 2 comes to a TLV with the cache full. -/
def ReachesCacheFull (tlvData : Payload) : Nat → UInt16 → List Tlv → Prop
  | 0, _, _ => False
  | remaining + 1, offset, cache =>
    writeCacheMax ≤ cache.length ∨ ∃ t next, tlvDecodeField tlvData offset = .ok (t, next) ∧
      appFieldValidate t.fieldId t.value = .ok ∧ ReachesCacheFull tlvData remaining next (cache ++ [t])

def CacheFull (req : Payload) : Prop :=
  tlvValidatePayload (req.drop 2) (byteAt req.bytes 1) = true ∧
    ReachesCacheFull (req.drop 2) (byteAt req.bytes 1).toNat 0 []

structure ValidWrite (req : Payload) (ts : List Tlv) : Prop where
  bytes : req.bytes = [cmdWrite, UInt8.ofNat ts.length] ++ encodeAll ts
  nonempty : ts ≠ []
  length_le : req.bytes.length ≤ appProtoPayloadMax
  valid : ∀ t ∈ ts, appFieldValidate t.fieldId t.value = .ok

/-- Answered OK, with all the TLVs applied, and never out of room in the cache. -/
structure AcceptsWrite (env : Env) (s : AppState) (channel : Channel) (req : Payload) (ts : List Tlv) : Prop where
  answeredOk : AnsweredOk (processAppPayload env s channel req appProtoRespMax).2
  applied : (processAppPayload env s channel req appProtoRespMax).1 = { s with fields := applyWrite s.fields ts }
  cacheFull : ¬ CacheFull req

/-- The code with the branch of the full cache is the code up to this branch. -/
theorem cacheTlvs_of_reachesCacheFull {tlvData : Payload} {remaining : Nat} {offset : UInt16} {cache : List Tlv}
    (h : ReachesCacheFull tlvData remaining offset cache) :
    cacheTlvs tlvData remaining offset cache = .error (.paramLen, 0x00) := by
  induction remaining generalizing offset cache with
  | zero => exact h.elim
  | succ remaining ih =>
    rw [cacheTlvs]
    by_cases hFull : writeCacheMax ≤ cache.length
    · rw [if_pos hFull]
    · obtain ⟨t, next, hDecode, hValid, hRest⟩ := h.resolve_left hFull
      rw [if_neg hFull, hDecode]
      dsimp only
      rw [if_neg (not_not.mpr hValid)]
      exact ih hRest

/-- Valid TLVs reach it exactly when there are more of them than the cache holds. -/
theorem reachesCacheFull_iff {tlvData : Payload} {remaining : Nat} {offset : UInt16} {ts : List Tlv}
    {rest : List UInt8} (cache : List Tlv) (hLength : ts.length = remaining) (hCache : cache.length ≤ writeCacheMax)
    (hBytes : tlvData.bytes.drop offset.toNat = encodeAll ts ++ rest)
    (hValid : ∀ t ∈ ts, appFieldValidate t.fieldId t.value = .ok) :
    ReachesCacheFull tlvData remaining offset cache ↔ writeCacheMax < cache.length + remaining := by
  induction ts generalizing remaining offset cache with
  | nil =>
    obtain rfl := hLength
    exact ⟨False.elim, fun h => absurd h (not_lt.mpr hCache)⟩
  | cons t ts ih =>
    obtain rfl := hLength
    rw [List.forall_mem_cons] at hValid
    rw [encodeAll, List.flatMap_cons, List.append_assoc] at hBytes
    obtain ⟨next, hDecode, hRest⟩ := tlvDecodeField_of_append hBytes
    rw [List.length_cons, ReachesCacheFull]
    by_cases hFull : writeCacheMax ≤ cache.length
    · exact ⟨fun _ => by omega, fun _ => .inl hFull⟩
    · have hRoom : (cache ++ [t]).length ≤ writeCacheMax := by
        rw [List.length_append, List.length_singleton]
        omega
      have hNext := ih (cache ++ [t]) rfl hRoom hRest hValid.2
      rw [List.length_append, List.length_singleton, Nat.add_assoc, Nat.add_comm 1] at hNext
      rw [← hNext]
      constructor
      · rintro (hNoRoom | ⟨t', next', hDecode', -, hReached⟩)
        · exact absurd hNoRoom hFull
        · obtain ⟨rfl, rfl⟩ := Prod.mk.inj (Except.ok.inj (hDecode.symm.trans hDecode'))
          exact hReached
      · intro hReached
        exact .inr ⟨t, next, hDecode, hValid.1, hReached⟩

section Valid

variable {req : Payload} {ts : List Tlv} (h : ValidWrite req ts)

include h

theorem length_lt_of_validWrite : ts.length < 120 := by
  have hLength := h.length_le
  rw [h.bytes, List.length_append] at hLength
  have hTlvs := two_mul_length_le ts
  change 2 + (encodeAll ts).length ≤ 240 at hLength
  omega

theorem toNat_count_of_validWrite : (byteAt req.bytes 1).toNat = ts.length := by
  have hLength := length_lt_of_validWrite h
  rw [h.bytes]
  exact UInt8.toNat_ofNat_of_lt' (Nat.lt_trans hLength (by decide))

theorem hasCmd_of_validWrite : HasCmd cmdWrite req.bytes := by
  rw [h.bytes]
  rfl

theorem drop_of_validWrite : (req.drop 2).bytes = encodeAll ts := by
  change req.bytes.drop 2 = _
  rw [h.bytes]
  rfl

theorem tlvValidatePayload_of_validWrite : tlvValidatePayload (req.drop 2) (byteAt req.bytes 1) = true := by
  refine (tlvValidatePayload_iff _ _).mpr ⟨ts, drop_of_validWrite h, ?_⟩
  rw [← toNat_count_of_validWrite h, UInt8.ofNat_toNat]

theorem cacheFull_iff : CacheFull req ↔ writeCacheMax < ts.length := by
  have hBytes : (req.drop 2).bytes.drop (0 : UInt16).toNat = encodeAll ts ++ [] := by
    rw [List.append_nil]
    exact drop_of_validWrite h
  have hReaches := reachesCacheFull_iff [] rfl (Nat.zero_le _) hBytes h.valid
  rw [List.length_nil, Nat.zero_add] at hReaches
  rw [CacheFull, toNat_count_of_validWrite h, hReaches]
  exact and_iff_right (tlvValidatePayload_of_validWrite h)

/-- Out of room in the cache the write is refused. -/
theorem not_answeredOk_of_cacheFull (hFull : CacheFull req) (env : Env) (s : AppState) (channel : Channel) :
    ¬ AnsweredOk (processAppPayload env s channel req appProtoRespMax).2 := by
  intro hOk
  obtain ⟨cache, hParse, -⟩ := (answeredOk_write_iff (hasCmd_of_validWrite h) (by decide)).mp hOk
  obtain ⟨-, -, -, hCache⟩ := parseWrite_eq_ok_iff_cacheTlvs.mp hParse
  rw [cacheTlvs_of_reachesCacheFull hFull.2] at hCache
  cases hCache

theorem parseWrite_of_validWrite (hMax : ts.length ≤ writeCacheMax) : parseWrite req = .ok ts := by
  have hCount := toNat_count_of_validWrite h
  have hBytes := drop_of_validWrite h
  have hPos := List.length_pos_iff.mpr h.nonempty
  refine parseWrite_eq_ok.mpr ⟨?_, ?_, hCount.symm, hMax, h.valid, [], ?_, by decide⟩
  · rw [h.bytes, List.length_append]
    exact not_lt.mpr (Nat.le_add_right 2 _)
  · intro hZero
    rw [hZero] at hCount
    exact absurd hCount (Nat.ne_of_lt hPos)
  · rw [List.append_nil]
    exact hBytes

end Valid

/-- A valid write that is allowed is accepted exactly when its TLVs fit the cache. -/
theorem acceptsWrite_iff (env : Env) (s : AppState) (channel : Channel) (req : Payload) (ts : List Tlv)
    (hValid : ValidWrite req ts) (hAllowed : writeExempt s.fields = true ∨ Writable s.auth channel env.uptime) :
    AcceptsWrite env s channel req ts ↔ ts.length ≤ writeCacheMax := by
  have hCmd := hasCmd_of_validWrite hValid
  constructor
  · intro h
    by_contra hMany
    exact not_answeredOk_of_cacheFull hValid ((cacheFull_iff hValid).mpr (not_le.mp hMany)) env s channel h.answeredOk
  · intro hMax
    have hParse := parseWrite_of_validWrite hValid hMax
    have hOk : AnsweredOk (processAppPayload env s channel req appProtoRespMax).2 :=
      (answeredOk_write_iff hCmd (by decide)).mpr ⟨ts, hParse, hAllowed⟩
    obtain ⟨cache, hCache, -, hApplied⟩ := applied_of_answeredOk hCmd hOk
    obtain rfl := Except.ok.inj (hParse.symm.trans hCache)
    exact ⟨hOk, hApplied, fun hFull => absurd ((cacheFull_iff hValid).mp hFull) (not_lt.mpr hMax)⟩

/-- An interval, a location and the mode fourteen times. -/
def sixteenTlvs : List Tlv :=
  [⟨fieldUpdateInterval, [0x00, 0x3C], by decide⟩,
    ⟨fieldInstallLocation, [0x12, 0x8E, 0x46, 0x40, 0x45, 0x6E, 0xA5, 0x80], by decide⟩] ++ List.replicate 14 modeTlv

def sixteenWrite : Payload := ⟨[0x02, 0x10] ++ encodeAll sixteenTlvs, by decide⟩

theorem validWrite_sixteenWrite : ValidWrite sixteenWrite sixteenTlvs := by
  refine ⟨rfl, by decide, by decide, ?_⟩
  rw [sixteenTlvs, List.forall_mem_append, List.forall_mem_cons, List.forall_mem_singleton]
  refine ⟨⟨by decide, by decide⟩, fun t ht => ?_⟩
  rw [List.eq_of_mem_replicate ht]
  rfl

/-- They fill the cache. -/
theorem acceptsWrite_sixteenWrite :
    AcceptsWrite ⟨0, List.Vector.replicate 8 0⟩ boot.toAppState .nfc sixteenWrite sixteenTlvs :=
  (acceptsWrite_iff ⟨0, List.Vector.replicate 8 0⟩ boot.toAppState .nfc sixteenWrite sixteenTlvs validWrite_sixteenWrite
    (.inl rfl)).mpr (by decide)

/-- The mode, seventeen times, in 53 bytes. -/
def repeatedModeWrite : Payload :=
  ⟨[0x02, 0x11] ++ encodeAll (List.replicate 17 modeTlv), by decide⟩

theorem validWrite_repeatedModeWrite : ValidWrite repeatedModeWrite (List.replicate 17 modeTlv) := by
  refine ⟨rfl, by decide, by decide, fun t ht => ?_⟩
  rw [List.eq_of_mem_replicate ht]
  rfl

/-- On the factory-fresh device it is refused. -/
theorem repeatedModeWrite_not_accepted :
    ValidWrite repeatedModeWrite (List.replicate 17 modeTlv) ∧ writeExempt boot.fields = true ∧
      ¬ AcceptsWrite ⟨0, List.Vector.replicate 8 0⟩ boot.toAppState .ble repeatedModeWrite
        (List.replicate 17 modeTlv) := by
  have hFull := (cacheFull_iff validWrite_repeatedModeWrite).mpr (by decide)
  exact ⟨validWrite_repeatedModeWrite, rfl, fun h =>
    not_answeredOk_of_cacheFull validWrite_repeatedModeWrite hFull _ _ _ h.answeredOk⟩

end IotRange.WriteAcceptance
