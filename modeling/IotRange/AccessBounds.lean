import IotRange.Accesses
import IotRange.NfcReply

/-! # Every access is inside its buffer

One lemma for each function gives where it may reach, from what its caller has checked. Requests
are read and the OTA buffer is written inside their bounds whatever arrives. The authentication
handler is not told how much room the response has.
-/
namespace IotRange.Accesses
open AppAuth AppFields AppTlv AppProtocol AppConfig Device NfcReply
set_option autoImplicit false

/-- A request of `len` bytes, `size` bytes of response and the OTA buffer. -/
def Inside (len size : Nat) : Access → Prop
  | .reqRead i => i < len
  | .respWrite i => i < size
  | .otaWrite i => i < otaBufSize

/-- A handler that stays inside, and whose answer does. -/
structure Contained {σ : Type} (len size : Nat) (x : Traced Access (σ × List UInt8)) : Prop where
  within : x.Within (Inside len size)
  length_le : x.value.2.length ≤ size

theorem Inside.mono {len size size' : Nat} (h : size ≤ size') {e : Access} (he : Inside len size e) :
    Inside len size' e := by
  cases e with
  | reqRead i => exact he
  | respWrite i => exact Nat.lt_of_lt_of_le he h
  | otaWrite i => exact he

theorem Contained.mono {σ : Type} {len size size' : Nat} {x : Traced Access (σ × List UInt8)} (h : size ≤ size')
    (hx : Contained len size x) : Contained len size' x :=
  ⟨hx.within.imp fun _ => Inside.mono h, hx.length_le.trans h⟩

section Primitives

variable {len size : Nat} {σ : Type}

theorem within_map_range' {mk : Nat → Access} {start n bound : Nat} (h : ∀ i < bound, Inside len size (mk i))
    (hBound : start + n ≤ bound) : ∀ e ∈ (List.range' start n).map mk, Inside len size e := by
  intro e he
  obtain ⟨i, hi, rfl⟩ := List.mem_map.mp he
  exact h i (Nat.lt_of_lt_of_le (List.mem_range'_1.mp hi).2 hBound)

theorem within_readReq {req : List UInt8} {i : Nat} (h : i < len) : (readReq req i).Within (Inside len size) := by
  intro e he
  obtain rfl := List.mem_singleton.mp he
  exact h

theorem within_readReqRange {req : List UInt8} {i n : Nat} (h : i + n ≤ len) :
    (readReqRange req i n).Within (Inside len size) :=
  within_map_range' (fun _ hi => hi) h

theorem within_writeResp {pos : Nat} {bytes : List UInt8} (h : pos + bytes.length ≤ size) :
    (writeResp pos bytes).Within (Inside len size) :=
  within_map_range' (fun _ hi => hi) h

theorem within_writeOta {offset n : Nat} (h : offset + n ≤ otaBufSize) :
    (writeOta offset n).Within (Inside len size) :=
  within_map_range' (fun _ hi => hi) h

theorem Contained.bind {α : Type} {x : Traced Access α} {f : α → Traced Access (σ × List UInt8)}
    (hx : x.Within (Inside len size)) (hf : Contained len size (f x.value)) : Contained len size (x >>= f) :=
  ⟨hx.bind hf.within, hf.length_le⟩

theorem contained_nil (s : σ) : Contained len size (pure (s, [])) :=
  ⟨Traced.within_pure _, Nat.zero_le _⟩

theorem contained_answer (s : σ) {resp : List UInt8} (h : resp.length ≤ size) : Contained len size (answer s resp) :=
  ⟨(within_writeResp (by rwa [Nat.zero_add])).bind (Traced.within_pure _), h⟩

theorem contained_answer3 (s : σ) (respMax : Nat) (cmd status third : UInt8) :
    Contained len respMax (answer3 s respMax cmd status third) := by
  unfold answer3
  split
  · exact contained_nil s
  · rename_i hMax
    exact contained_answer s (not_lt.mp hMax)

theorem contained_answer4 (s : σ) (respMax : Nat) (status third fourth : UInt8) :
    Contained len respMax (answer4 s respMax status third fourth) := by
  unfold answer4
  split
  · exact contained_nil s
  · rename_i hMax
    exact contained_answer s (not_lt.mp hMax)

theorem within_getU16Be {req : List UInt8} {buf : Nat} (h : buf + 2 ≤ len) :
    (getU16Be req buf).Within (Inside len size) :=
  (within_readReqRange h).bind (Traced.within_pure _)

theorem within_getU32Be {req : List UInt8} {buf : Nat} (h : buf + 4 ≤ len) :
    (getU32Be req buf).Within (Inside len size) :=
  (within_readReqRange h).bind (Traced.within_pure _)

end Primitives

/-! ## TLVs and fields -/

section Tlv

variable {req : Payload} {data : Nat} {dataLen : UInt16} {size : Nat}

theorem within_tlvDecodeField (hLen : dataLen.toNat = req.bytes.length - data) (offset : UInt16) :
    (tlvDecodeField req.bytes data dataLen offset).Within (Inside req.bytes.length size) := by
  unfold tlvDecodeField
  split
  · exact Traced.within_pure _
  · refine (within_readReq (by omega)).bind ((within_readReq (by omega)).bind ?_)
    dsimp only
    split
    · exact Traced.within_pure _
    · exact Traced.within_pure _

theorem within_tlvScan (hLen : dataLen.toNat = req.bytes.length - data) (offset : UInt16) (actualCount : UInt8) :
    (tlvScan req.bytes data dataLen offset actualCount).Within (Inside req.bytes.length size) := by
  have hDecodes (offset : UInt16) :
      (tlvDecodeField req.bytes data dataLen offset).Within (Inside req.bytes.length size) :=
    within_tlvDecodeField hLen offset
  induction offset, actualCount using tlvScan.induct req.bytes data dataLen with
  | case1 offset actualCount hOffset ih =>
    rw [tlvScan_unfold, if_pos hOffset]
    refine (hDecodes offset).bind ?_
    match hDecode : (tlvDecodeField req.bytes data dataLen offset).value with
    | .error e => exact Traced.within_pure _
    | .ok (r, next) => exact ih r next hDecode
  | case2 offset actualCount hOffset =>
    rw [tlvScan_unfold, if_neg hOffset]
    exact Traced.within_pure _

theorem within_tlvValidatePayload (hLen : dataLen.toNat = req.bytes.length - data) (fieldCount : UInt8) :
    (tlvValidatePayload req.bytes data dataLen fieldCount).Within (Inside req.bytes.length size) := by
  refine (within_tlvScan hLen 0 0).bind ?_
  split
  · exact Traced.within_pure _
  · exact Traced.within_pure _

end Tlv

section Fields

variable {req : List UInt8} {r : TlvRef} {size : Nat}

/-- The length has been compared with the field's before a value is read. -/
theorem within_appFieldValidate (h : r.Fits req.length) :
    (appFieldValidate req r.fieldId r.value r.valueLen).Within (Inside req.length size) := by
  obtain ⟨fieldId, value, valueLen⟩ := r
  have hFits : value + valueLen.toNat ≤ req.length := h
  unfold appFieldValidate
  dsimp only
  split
  · exact Traced.within_pure _
  · split
    · exact Traced.within_pure _
    · split
      · exact Traced.within_pure _
      · rename_i hLen
        split
        · have hOne : valueLen.toNat = 1 := not_not.mp fun hNe => hLen ⟨by decide, hNe⟩
          exact (within_readReq (by omega)).bind (Traced.within_pure _)
        · exact Traced.within_pure _
        · have hEight : valueLen.toNat = 8 := not_not.mp fun hNe => hLen ⟨by decide, hNe⟩
          exact (within_getU32Be (by omega)).bind ((within_getU32Be (by omega)).bind (Traced.within_pure _))
        · exact Traced.within_pure _

theorem within_appFieldSet (f : Store) (h : r.Checked req) :
    (appFieldSet req f r.fieldId r.value).Within (Inside req.length size) := by
  have hFits : r.value + r.valueLen.toNat ≤ req.length := h.fits
  obtain ⟨hField, hLen⟩ | ⟨hField, hLen⟩ | ⟨hField, hLen⟩ := h.cases
  · rw [hField]
    exact (within_readReq (by omega)).bind (Traced.within_pure _)
  · rw [hField]
    exact (within_getU16Be (by omega)).bind (Traced.within_pure _)
  · rw [hField]
    exact (within_getU32Be (by omega)).bind ((within_getU32Be (by omega)).bind (Traced.within_pure _))

theorem within_applyCache (f : Store) {cache : List TlvRef} (h : ∀ r ∈ cache, r.Checked req) :
    (applyCache req f cache).Within (Inside req.length size) := by
  induction cache generalizing f with
  | nil => exact Traced.within_pure f
  | cons r cache ih =>
    rw [List.forall_mem_cons] at h
    exact (within_appFieldSet f h.1).bind (ih _ h.2)

end Fields

/-! ## CMD 0x02 -/

section Write

variable {req : Payload} {data : Nat} {dataLen : UInt16} {size : Nat}

theorem within_cacheTlvs (hLen : dataLen.toNat = req.bytes.length - data) (hData : data ≤ req.bytes.length)
    (remaining : Nat) (offset : UInt16) (cache : List TlvRef) :
    (cacheTlvs req.bytes data dataLen remaining offset cache).Within (Inside req.bytes.length size) := by
  induction remaining generalizing offset cache with
  | zero => exact Traced.within_pure _
  | succ remaining ih =>
    rw [cacheTlvs]
    split
    · exact Traced.within_pure _
    · refine (within_tlvDecodeField hLen offset).bind ?_
      cases hDecode : (tlvDecodeField req.bytes data dataLen offset).value with
      | error e => exact Traced.within_pure _
      | ok decoded =>
        refine (within_appFieldValidate (fits_of_decode hLen hData hDecode)).bind ?_
        split
        · exact Traced.within_pure _
        · exact ih _ _

theorem within_parseWrite (req : Payload) : (parseWrite req.bytes).Within (Inside req.bytes.length size) := by
  have hLen := toNat_tlvLen req
  unfold parseWrite
  split
  · exact Traced.within_pure _
  · rename_i hLength
    refine (within_readReq (not_lt.mp hLength)).bind ?_
    split
    · exact Traced.within_pure _
    · refine (within_tlvValidatePayload hLen _).bind ?_
      split
      · exact Traced.within_pure _
      · exact within_cacheTlvs hLen (not_lt.mp hLength) _ 0 []

theorem contained_handleCmdWrite (uptime : Nat) (s : AppState) (channel : Channel) (req : Payload) (respMax : Nat) :
    Contained req.bytes.length respMax (handleCmdWrite uptime s channel req.bytes respMax) := by
  refine .bind (within_parseWrite req) ?_
  match hParse : (parseWrite req.bytes).value with
  | .error (status, third) => exact contained_answer3 s respMax cmdWrite status.code third
  | .ok cache =>
    dsimp only
    generalize (if writeExempt s.fields = true then (Status.ok, s.auth)
      else appAuthCheckWrite uptime s.auth channel) = check
    split
    · exact contained_answer3 _ respMax cmdWrite _ 0x00
    · exact .bind (within_applyCache s.fields (checked_parseWrite hParse)) (contained_answer3 _ respMax cmdWrite _ 0x00)

end Write

/-! ## CMD 0x01 -/

section Read

variable {len respMax : Nat}

/-- The TLV is written only where the whole of it has room. -/
theorem within_appendFieldToResp (f : Store) (fieldId : UInt8) (resp : List UInt8) :
    (appendFieldToResp f fieldId resp respMax).Within (Inside len respMax) := by
  have hSize : _ = (tlvEncodeField fieldId (appFieldGet f fieldId valBufSize)).1.length := toNat_tlvSize f fieldId
  unfold appendFieldToResp
  dsimp only
  split
  · exact Traced.within_pure _
  · split
    · exact Traced.within_pure _
    · exact (within_writeResp (by omega)).bind (Traced.within_pure _)

theorem length_appendFieldToResp (f : Store) (fieldId : UInt8) {resp : List UInt8} (h : resp.length ≤ respMax) :
    resp.length ≤ (appendFieldToResp f fieldId resp respMax).value.2.length ∧
      (appendFieldToResp f fieldId resp respMax).value.2.length ≤ respMax := by
  have hSize : _ = (tlvEncodeField fieldId (appFieldGet f fieldId valBufSize)).1.length := toNat_tlvSize f fieldId
  unfold appendFieldToResp
  dsimp only
  split
  · exact ⟨le_refl _, h⟩
  · split
    · exact ⟨le_refl _, h⟩
    · rw [Traced.value_bind, Traced.value_pure, List.length_append]
      omega

theorem within_appendFields (counts : UInt8 → Bool) (f : Store) {fetches : List (Traced Access UInt8)}
    (h : ∀ fetch ∈ fetches, fetch.Within (Inside len respMax)) (resp : List UInt8) (actualCount : UInt8) :
    (appendFields counts f respMax fetches resp actualCount).Within (Inside len respMax) := by
  induction fetches generalizing resp actualCount with
  | nil => exact Traced.within_pure _
  | cons fetch fetches ih =>
    rw [List.forall_mem_cons] at h
    refine h.1.bind ((within_appendFieldToResp f _ resp).bind ?_)
    dsimp only
    split
    · exact Traced.within_pure _
    · exact ih h.2 _ _

theorem length_appendFields (counts : UInt8 → Bool) (f : Store) {fetches : List (Traced Access UInt8)}
    {resp out : List UInt8} {actualCount n : UInt8} (hResp : resp.length ≤ respMax)
    (h : (appendFields counts f respMax fetches resp actualCount).value = .ok (out, n)) :
    resp.length ≤ out.length ∧ out.length ≤ respMax := by
  induction fetches generalizing resp actualCount with
  | nil =>
    obtain ⟨rfl, -⟩ := Prod.mk.inj (Except.ok.inj h)
    exact ⟨le_refl _, hResp⟩
  | cons fetch fetches ih =>
    obtain ⟨hGrows, hFits⟩ := length_appendFieldToResp f fetch.value hResp
    rw [appendFields, Traced.value_bind, Traced.value_bind] at h
    dsimp only at h
    rw [Traced.value_ite] at h
    split at h
    · cases h
    · obtain ⟨hOut, hMax⟩ := ih hFits h
      exact ⟨hGrows.trans hOut, hMax⟩

theorem within_checkFields (f : Store) {size : Nat} {fetches : List (Traced Access UInt8)}
    (h : ∀ fetch ∈ fetches, fetch.Within (Inside len size)) : (checkFields f fetches).Within (Inside len size) := by
  induction fetches with
  | nil => exact Traced.within_pure _
  | cons fetch fetches ih =>
    rw [List.forall_mem_cons] at h
    refine h.1.bind ?_
    split
    · exact Traced.within_pure _
    · exact ih h.2

theorem contained_finishRead (counts : UInt8 → Bool) (f : Store) {fetches : List (Traced Access UInt8)}
    (hMax : 3 ≤ respMax) (h : ∀ fetch ∈ fetches, fetch.Within (Inside len respMax)) :
    Contained len respMax
      (appendFields counts f respMax fetches [cmdRead, Status.ok.code, 0] 0 >>= finishRead f) := by
  refine .bind (within_appendFields counts f h _ _) ?_
  match hAppend : (appendFields counts f respMax fetches [cmdRead, Status.ok.code, 0] 0).value with
  | .error fieldId => exact contained_answer f hMax
  | .ok (resp, actualCount) =>
    obtain ⟨hHeader, hFits⟩ := length_appendFields counts f hMax hAppend
    have hLength : (writeAt resp 2 [actualCount]).length = resp.length := length_writeAt hHeader
    exact .bind (within_writeResp hMax) ⟨Traced.within_pure _, hLength.trans_le hFits⟩

theorem contained_readListedFields (f : Store) {fetches : List (Traced Access UInt8)} (hMax : 3 ≤ respMax)
    (h : ∀ fetch ∈ fetches, fetch.Within (Inside len respMax)) :
    Contained len respMax (readListedFields f fetches respMax) := by
  refine .bind (within_checkFields f h) ?_
  split
  · exact contained_answer f hMax
  · exact contained_finishRead _ f hMax h

theorem contained_handleCmdRead (f : Store) (req : List UInt8) (respMax : Nat) :
    Contained req.length respMax (handleCmdRead f req respMax) := by
  unfold handleCmdRead
  split
  · exact contained_answer3 f respMax cmdRead _ 0x00
  · rename_i hLength
    refine .bind (within_getU32Be (by omega)) (.bind (within_readReq (by omega)) ?_)
    split
    · exact contained_nil _
    · rename_i hMax
      refine .bind (within_writeResp (by exact (not_lt.mp hMax).trans' (by decide))) ?_
      split
      · refine contained_finishRead _ _ (not_lt.mp hMax) fun fetch hFetch => ?_
        obtain ⟨fieldId, -, rfl⟩ := List.mem_map.mp hFetch
        exact Traced.within_pure fieldId
      · split
        · exact contained_answer _ (not_lt.mp hMax)
        · rename_i hIds
          rw [gt_iff_lt, UInt8.lt_iff_toNat_lt, UInt8.toNat_ofNat', value_readReq] at hIds
          refine contained_readListedFields _ (not_lt.mp hMax) fun fetch hFetch => ?_
          obtain ⟨i, hi, rfl⟩ := List.mem_map.mp hFetch
          have hId := (List.mem_range'_1.mp hi).2
          rw [value_readReq] at hId
          exact within_readReq (by omega)

end Read

/-! ## CMD 0x03 -/

/-- How many bytes the authentication handler answers a request with, whatever room there is. -/
def authReplyRoom (req : List UInt8) : Nat :=
  if req.length < 2 ∨ byteAt req 0 ≠ cmdAuth then 0
  else
    match byteAt req 1 with
    | authSubcmdNonce => 11
    | authSubcmdToken => if req.length < 34 then 3 else 4
    | _ => 3

section Auth

variable (env : Env) (a : Auth) (data : List UInt8) (channel : Channel)

theorem contained_authToken :
    Contained data.length (if data.length < 34 then 3 else 4) (authToken env a data channel) := by
  unfold authToken
  split
  · exact contained_answer a (le_refl 3)
  · rename_i hLength
    split
    · exact contained_answer a (le_refl 4)
    · refine .bind (within_readReqRange (not_lt.mp hLength)) ?_
      split
      · exact contained_answer _ (le_refl 4)
      · exact contained_answer _ (le_refl 4)

theorem contained_authChangePwd : Contained data.length 3 (authChangePwd env a data channel) := by
  unfold authChangePwd
  dsimp only
  split
  · exact contained_answer _ (le_refl 3)
  · split
    · exact contained_answer _ (le_refl 3)
    · rename_i hLength
      exact .bind (within_readReqRange (not_lt.mp hLength)) (contained_answer _ (le_refl 3))

theorem contained_appAuthHandleCmd :
    Contained data.length (authReplyRoom data) (appAuthHandleCmd env a data channel) := by
  unfold appAuthHandleCmd
  split
  · exact contained_nil a
  · rename_i hLength
    refine .bind (within_readReq (by omega)) ?_
    rw [value_readReq]
    split
    · exact contained_nil a
    · rename_i hCmd
      refine .bind (within_readReq (by omega)) ?_
      rw [value_readReq, authReplyRoom, if_neg (not_or.mpr ⟨hLength, hCmd⟩)]
      generalize byteAt data 1 = subcmd
      split
      · exact contained_answer _ (by simp)
      · exact contained_authToken env a data channel
      · rename_i hNonce hToken
        split
        · exact absurd rfl hNonce
        · exact absurd rfl hToken
        · exact contained_authChangePwd env a data channel
        · exact contained_answer _ (le_refl 3)
        · exact contained_answer a (le_refl 3)

/-- None of its answers is cut to the room there is. -/
theorem length_appAuthHandleCmd : (AppAuth.appAuthHandleCmd env a data channel).2.length = authReplyRoom data := by
  unfold AppAuth.appAuthHandleCmd authReplyRoom
  generalize byteAt data 1 = subcmd
  split
  · rfl
  · split
    · rw [List.length_append, List.Vector.toList_length]
      rfl
    · exact length_authToken env channel a data
    · exact length_authChangePwd env channel a data
    · rfl
    · split
      all_goals first | contradiction | rfl

end Auth

/-! ## CMD 0x04 and the entry points -/

section Entry

variable (env : Env) (channel : Channel) (req : Payload) (respMax : Nat)

theorem contained_actionPowerOff (uptime : Nat) (s : AppState) {len : Nat} :
    Contained len respMax (actionPowerOff uptime s channel respMax) := by
  unfold actionPowerOff
  dsimp only
  split
  · exact contained_answer4 _ respMax _ 0x02 _
  · exact contained_answer4 _ respMax _ 0x02 _

theorem contained_actionFactoryReset (uptime : Nat) (s : AppState) (req : List UInt8) :
    Contained req.length respMax (actionFactoryReset uptime s channel req respMax) := by
  unfold actionFactoryReset
  dsimp only
  split
  · exact contained_answer4 _ respMax _ 0x03 _
  · split
    · exact contained_answer4 _ respMax _ 0x03 _
    · rename_i hLength
      refine .bind (within_readReqRange (not_lt.mp hLength)) ?_
      split
      · exact contained_answer4 _ respMax _ 0x03 _
      · exact contained_answer4 _ respMax _ 0x03 _

theorem contained_handleCmdAction (uptime : Nat) (s : AppState) (req : List UInt8) :
    Contained req.length respMax (handleCmdAction uptime s channel req respMax) := by
  unfold handleCmdAction
  split
  · exact contained_answer4 s respMax _ 0x00 0x00
  · rename_i hLength
    refine .bind (within_readReq (not_lt.mp hLength)) ?_
    split
    · exact contained_answer4 _ respMax _ 0x01 _
    · exact contained_actionPowerOff channel respMax uptime s
    · exact contained_actionFactoryReset channel respMax uptime s req
    · exact contained_answer3 s respMax cmdAction _ _

theorem contained_processAppPayload (s : AppState) :
    Contained req.bytes.length (max respMax (authReplyRoom req.bytes))
      (processAppPayload env s channel req.bytes respMax) := by
  have hMax := Nat.le_max_left respMax (authReplyRoom req.bytes)
  have hRoom := Nat.le_max_right respMax (authReplyRoom req.bytes)
  unfold processAppPayload
  split
  · exact contained_nil s
  · rename_i hLength
    refine .bind (within_readReq (not_lt.mp hLength)) ?_
    split
    · obtain ⟨hWithin, hReply⟩ := (contained_handleCmdRead s.fields req.bytes respMax).mono hMax
      exact .bind hWithin ⟨Traced.within_pure _, hReply⟩
    · exact (contained_handleCmdWrite env.uptime s channel req respMax).mono hMax
    · obtain ⟨hWithin, hReply⟩ := (contained_appAuthHandleCmd env s.auth req.bytes channel).mono hRoom
      exact .bind hWithin ⟨Traced.within_pure _, hReply⟩
    · exact (contained_handleCmdAction channel respMax env.uptime s req.bytes).mono hMax
    · split
      · exact contained_nil s
      · rename_i hTwo
        exact contained_answer s ((not_lt.mp hTwo).trans hMax)

theorem hasCmd_of_authReplyRoom_pos {req : List UInt8} (h : 0 < authReplyRoom req) : HasCmd cmdAuth req := by
  unfold authReplyRoom at h
  split at h
  · exact absurd h (Nat.lt_irrefl 0)
  · rename_i hAuth
    rw [not_or, not_not] at hAuth
    exact take_one_eq_iff.mpr ⟨by omega, hAuth.2⟩

theorem length_reply_of_auth (s : AppState) (h : HasCmd cmdAuth req.bytes) :
    (AppProtocol.processAppPayload env s channel req respMax).2.length = authReplyRoom req.bytes := by
  rw [processAppPayload_of_auth h]
  exact length_appAuthHandleCmd env s.auth req.bytes channel

/-- The limit passed in holds for the returned length and for every write. -/
structure KeepsLimit {σ : Type} (respMax : Nat) (x : Traced Access (σ × List UInt8)) : Prop where
  returned : x.value.2.length ≤ respMax
  written : ∀ i, Access.respWrite i ∈ x.trace → i < respMax

/-- Only the authentication handler leaves the response buffer, where its answer is longer than it. -/
theorem keepsLimit_iff (s : AppState) :
    KeepsLimit respMax (processAppPayload env s channel req.bytes respMax) ↔ authReplyRoom req.bytes ≤ respMax := by
  constructor
  · rintro ⟨hReturned, -⟩
    by_contra hRoom
    have hAuth : HasCmd cmdAuth req.bytes := hasCmd_of_authReplyRoom_pos (Nat.zero_lt_of_lt (not_le.mp hRoom))
    rw [value_processAppPayload, length_reply_of_auth env channel req respMax s hAuth] at hReturned
    exact hRoom hReturned
  · intro hRoom
    obtain ⟨hWithin, hReply⟩ := contained_processAppPayload env channel req respMax s
    rw [Nat.max_eq_left hRoom] at hWithin hReply
    exact ⟨hReply, fun i hi => hWithin (.respWrite i) hi⟩

/-- LOCK with room for two bytes. -/
theorem lock_not_keepsLimit :
    ¬ KeepsLimit 2 (processAppPayload idleEnv boot.toAppState .nfc lockReq.bytes 2) := by
  rintro ⟨hReturned, -⟩
  rw [value_processAppPayload, length_reply_of_auth idleEnv .nfc lockReq 2 boot.toAppState rfl] at hReturned
  exact absurd hReturned (by decide)

/-! ## The BLE entry point -/

theorem within_printFrame {size : Nat} (buf : List UInt8) : (printFrame buf).Within (Inside buf.length size) :=
  (within_readReqRange (Nat.zero_add _).le).bind (Traced.within_pure _)

theorem contained_otaStart (ota : OtaState) (data : List UInt8) : Contained data.length 2 (otaStart ota data) := by
  refine .bind ?_ (contained_answer _ (le_refl 2))
  split
  · rename_i hLength
    exact within_getU32Be (by omega)
  · exact Traced.within_pure _

theorem contained_otaData (ota : OtaState) (data : List UInt8) : Contained data.length 2 (otaData ota data) := by
  unfold otaData
  split
  · exact contained_answer ota (le_refl 2)
  · split
    · rename_i hLength
      have hPacket : 3 + (data.drop 3).length ≤ data.length := by
        rw [List.length_drop]
        omega
      refine .bind (within_getU16Be (by omega)) ?_
      dsimp only
      split
      · rename_i hOffset
        exact .bind (within_readReqRange hPacket) (.bind (within_writeOta hOffset) (contained_nil _))
      · exact contained_nil _
    · exact contained_nil ota

theorem contained_otaChecked {len : Nat} (d : Device) (cmd : UInt8)
    {body : OtaState → Traced Access (OtaState × List UInt8)} (h : ∀ ota, Contained len 2 (body ota)) :
    Contained len 2 (otaChecked env d cmd body) := by
  unfold otaChecked
  dsimp only
  split
  · exact contained_answer _ (le_refl 2)
  · exact .bind (h d.ota).within ⟨Traced.within_pure _, (h d.ota).length_le⟩

theorem contained_appConfigHandleBle (d : Device) :
    Contained req.bytes.length (max appProtoRespMax (authReplyRoom req.bytes))
      (appConfigHandleBle env d req.bytes) := by
  have hTwo : 2 ≤ max appProtoRespMax (authReplyRoom req.bytes) := (by decide : 2 ≤ 256).trans (Nat.le_max_left _ _)
  unfold appConfigHandleBle
  split
  · exact contained_nil d
  · rename_i hLength
    refine .bind (within_readReq (not_lt.mp hLength)) (.bind ?_ ?_)
    · split
      · exact within_printFrame req.bytes
      · exact Traced.within_pure _
    · split
      · exact (contained_otaChecked env d _ (contained_otaStart · req.bytes)).mono hTwo
      · exact (contained_otaChecked env d _ (contained_otaData · req.bytes)).mono hTwo
      · exact (contained_otaChecked env d _ fun _ => contained_answer _ (le_refl 2)).mono hTwo
      · obtain ⟨hWithin, hReply⟩ := contained_processAppPayload env .ble req appProtoRespMax d.toAppState
        exact .bind hWithin (contained_answer _ hReply)

/-- What is read of the request exists, and what is written to the OTA buffer too. -/
structure ReadsInside {α : Type} (len : Nat) (x : Traced Access α) : Prop where
  req : ∀ i, Access.reqRead i ∈ x.trace → i < len
  ota : ∀ i, Access.otaWrite i ∈ x.trace → i < otaBufSize

theorem Contained.readsInside {σ : Type} {len size : Nat} {x : Traced Access (σ × List UInt8)}
    (h : Contained len size x) : ReadsInside len x :=
  ⟨fun i hi => h.within (.reqRead i) hi, fun i hi => h.within (.otaWrite i) hi⟩

theorem requests_readsInside (s : AppState) (d : Device) :
    ReadsInside req.bytes.length (processAppPayload env s channel req.bytes respMax) ∧
      ReadsInside req.bytes.length (appConfigHandleBle env d req.bytes) :=
  ⟨(contained_processAppPayload env channel req respMax s).readsInside,
    (contained_appConfigHandleBle env req d).readsInside⟩

end Entry

end IotRange.Accesses
