import IotRange.AppProtocol

/-! # Reply lengths

A reply other than a list of fields is at most eleven bytes, the NONCE reply; a list of fields is
three bytes and its TLVs. With room for four bytes two requests alone stay without a reply.
-/
namespace IotRange.AppProtocol
open AppAuth AppFields
set_option autoImplicit false

theorem length_reply3_le (respMax : Nat) (cmd status third : UInt8) :
    (reply3 respMax cmd status third).length ≤ 3 := by
  unfold reply3
  split
  · exact Nat.zero_le 3
  · exact Nat.le_refl 3

theorem length_reply4_le (respMax : Nat) (status third fourth : UInt8) :
    (reply4 respMax status third fourth).length ≤ 4 := by
  unfold reply4
  split
  · exact Nat.zero_le 4
  · exact Nat.le_refl 4

section Replies

variable (env : Env) (s : AppState) (channel : Channel) (req : Payload) (respMax : Nat)

theorem length_authToken (a : Auth) (data : List UInt8) :
    (authToken env a data channel).2.length = if data.length < 34 then 3 else 4 := by
  unfold authToken
  split
  · rfl
  · split
    · rfl
    · dsimp only
      split <;> rfl

theorem length_authChangePwd (a : Auth) (data : List UInt8) : (authChangePwd env a data channel).2.length = 3 := by
  unfold authChangePwd
  dsimp only
  split
  · rfl
  · split <;> rfl

theorem length_appAuthHandleCmd_le (a : Auth) (data : List UInt8) :
    (appAuthHandleCmd env a data channel).2.length ≤ 11 := by
  unfold appAuthHandleCmd
  split
  · exact Nat.zero_le 11
  · split
    · simp
    · rw [length_authToken]
      split <;> decide
    · rw [length_authChangePwd]
      decide
    · exact (by decide : 3 ≤ 11)
    · exact (by decide : 3 ≤ 11)

theorem length_handleCmdWrite_le : (handleCmdWrite env.uptime s channel req respMax).2.length ≤ 3 := by
  rcases handleCmdWrite_cases env.uptime s channel req respMax with
    ⟨status, third, -, -, hEq⟩ | ⟨cache, -, -, -, hEq⟩ | ⟨cache, -, -, hEq⟩
  all_goals
    rw [hEq]
    exact length_reply3_le _ _ _ _

theorem length_handleCmdAction_le : (handleCmdAction env.uptime s channel req.bytes respMax).2.length ≤ 4 := by
  unfold handleCmdAction
  split
  · exact length_reply4_le _ _ _ _
  · split
    · exact length_reply4_le _ _ _ _
    · rw [actionPowerOff_eq]
      split <;> exact length_reply4_le _ _ _ _
    · rw [actionFactoryReset_eq]
      split
      · exact length_reply4_le _ _ _ _
      · split <;> exact length_reply4_le _ _ _ _
    · exact (length_reply3_le _ _ _ _).trans (by decide)

theorem length_reply_le (h : ¬ HasCmd cmdRead req.bytes) :
    (processAppPayload env s channel req respMax).2.length ≤ 11 := by
  unfold processAppPayload
  split
  · exact Nat.zero_le 11
  · rename_i hLength
    split
    · rename_i hRead
      exact absurd (take_one_eq_iff.mpr ⟨hLength, hRead⟩) h
    · exact (length_handleCmdWrite_le env s channel req respMax).trans (by decide)
    · exact length_appAuthHandleCmd_le env channel s.auth req.bytes
    · exact (length_handleCmdAction_le env s channel req respMax).trans (by decide)
    · dsimp only
      split
      · exact Nat.zero_le 11
      · simp

end Replies

/-! ## CMD 0x01 -/

def requestedIds (req : List UInt8) : List UInt8 := (req.drop 6).take (byteAt req 5).toNat

/-- A CMD 0x01 that lists its fields, with all the ids it announces. -/
structure ListsFields (req : List UInt8) : Prop where
  cmd : HasCmd cmdRead req
  header : 6 ≤ req.length
  count : byteAt req 5 ≠ 0
  ids : (byteAt req 5).toNat ≤ (req.length - 6) % 256

section Read

variable {f : Store} {req : List UInt8} {respMax : Nat}

theorem handleCmdRead_of_listsFields (h : ListsFields req) (hMax : 3 ≤ respMax) :
    (handleCmdRead f req respMax).2 =
      readListedFields (appFieldSetUnixtime f (readBe32 (req.drop 1))) (requestedIds req) respMax := by
  have hIds : ¬ byteAt req 5 > UInt8.ofNat (req.length - 6) := by
    rw [gt_iff_lt, UInt8.lt_iff_toNat_lt, UInt8.toNat_ofNat']
    exact not_lt.mpr h.ids
  rw [handleCmdRead, if_neg (not_lt.mpr h.header)]
  dsimp only
  rw [if_neg (not_lt.mpr hMax), if_neg h.count, if_neg hIds, requestedIds]

theorem length_handleCmdRead_of_not_listsFields (hCmd : HasCmd cmdRead req) (h : ¬ ListsFields req)
    (hMax : 90 ≤ respMax) :
    (handleCmdRead f req respMax).2.length ≤ 90 := by
  unfold handleCmdRead
  split
  · dsimp only
    split
    · exact Nat.zero_le 90
    · exact (by decide : 3 ≤ 90)
  · rename_i hHeader
    dsimp only
    split
    · exact Nat.zero_le 90
    · split
      · rw [readAllFields_of_fits hMax, length_fieldsReply _ (readFits_allReadableFields hMax).1]
        exact Nat.le_refl 90
      · rename_i hCount
        split
        · exact (by decide : 3 ≤ 90)
        · rename_i hIds
          rw [gt_iff_lt, UInt8.lt_iff_toNat_lt, UInt8.toNat_ofNat', not_lt] at hIds
          exact absurd ⟨hCmd, not_lt.mp hHeader, hCount, hIds⟩ h

end Read

section Buffer

variable (env : Env) (s : AppState) (channel : Channel) {req : Payload}

theorem length_reply_of_not_listsFields (h : ¬ ListsFields req.bytes) :
    (processAppPayload env s channel req appProtoRespMax).2.length ≤ 90 := by
  by_cases hCmd : HasCmd cmdRead req.bytes
  · rw [processAppPayload_of_read hCmd]
    exact length_handleCmdRead_of_not_listsFields hCmd h (by decide)
  · exact (length_reply_le env s channel req appProtoRespMax hCmd).trans (by decide)

theorem length_reply_le_respMax (req : Payload) :
    (processAppPayload env s channel req appProtoRespMax).2.length ≤ appProtoRespMax := by
  by_cases hLists : ListsFields req.bytes
  · rw [processAppPayload_of_read hLists.cmd, handleCmdRead_of_listsFields hLists (by decide)]
    obtain ⟨status, fieldId, -, hRefused⟩ | ⟨hFits, hFull⟩ := readListedFields_cases
      (f := appFieldSetUnixtime s.fields (readBe32 (req.bytes.drop 1))) (by decide : 3 ≤ appProtoRespMax)
    · rw [hRefused]
      exact (by decide : 3 ≤ appProtoRespMax)
    · rw [hFull, length_fieldsReply _ hFits.1]
      exact hFits.2
  · exact (length_reply_of_not_listsFields env s channel hLists).trans (by decide)

end Buffer

/-! ## Requests without a reply -/

/-- No command byte, or CMD 0x03 without its sub-command. -/
def Unanswered (req : List UInt8) : Prop := req = [] ∨ req = [cmdAuth]

instance : DecidablePred Unanswered := fun _ => inferInstanceAs (Decidable (_ ∨ _))

theorem reply3_ne_nil {respMax : Nat} (h : 4 ≤ respMax) (cmd status third : UInt8) :
    reply3 respMax cmd status third ≠ [] := by
  rw [reply3, if_neg (by omega)]
  exact List.cons_ne_nil _ _

theorem reply4_ne_nil {respMax : Nat} (h : 4 ≤ respMax) (status third fourth : UInt8) :
    reply4 respMax status third fourth ≠ [] := by
  rw [reply4, if_neg (not_lt.mpr h)]
  exact List.cons_ne_nil _ _

theorem finishRead_ne_nil (result : Except UInt8 (List UInt8 × UInt8)) : finishRead result ≠ [] := by
  match result with
  | .error _ => exact List.cons_ne_nil _ _
  | .ok (resp, actualCount) =>
    refine List.append_ne_nil_of_left_ne_nil (List.append_ne_nil_of_right_ne_nil _ ?_) _
    exact List.cons_ne_nil _ _

section Answered

variable (env : Env) (s : AppState) (channel : Channel) (req : Payload) {respMax : Nat}

theorem handleCmdRead_ne_nil (h : 4 ≤ respMax) (f : Store) (req : List UInt8) :
    (handleCmdRead f req respMax).2 ≠ [] := by
  have hThree : ¬ respMax < 3 := by omega
  unfold handleCmdRead
  split
  · exact List.cons_ne_nil _ _
  · dsimp only
    split
    · exact finishRead_ne_nil _
    · split
      · exact List.cons_ne_nil _ _
      · dsimp only [readListedFields]
        split
        · exact List.cons_ne_nil _ _
        · exact finishRead_ne_nil _

theorem handleCmdWrite_ne_nil (h : 4 ≤ respMax) : (handleCmdWrite env.uptime s channel req respMax).2 ≠ [] := by
  rcases handleCmdWrite_cases env.uptime s channel req respMax with
    ⟨status, third, -, -, hEq⟩ | ⟨cache, -, -, -, hEq⟩ | ⟨cache, -, -, hEq⟩
  all_goals
    rw [hEq]
    exact reply3_ne_nil h _ _ _

theorem authToken_ne_nil (a : Auth) (data : List UInt8) : (authToken env a data channel).2 ≠ [] := by
  unfold authToken
  split
  · exact List.cons_ne_nil _ _
  · split
    · exact List.cons_ne_nil _ _
    · dsimp only
      split <;> exact List.cons_ne_nil _ _

theorem appAuthHandleCmd_ne_nil (a : Auth) {data : List UInt8} (h : ¬ data.length < 2)
    (hCmd : byteAt data 0 = cmdAuth) : (appAuthHandleCmd env a data channel).2 ≠ [] := by
  rw [appAuthHandleCmd, if_neg (not_or.mpr ⟨h, not_not.mpr hCmd⟩)]
  split
  · exact List.cons_ne_nil _ _
  · exact authToken_ne_nil env channel a data
  · intro hNil
    have hLength := length_authChangePwd env channel a data
    rw [hNil] at hLength
    cases hLength
  · exact List.cons_ne_nil _ _
  · exact List.cons_ne_nil _ _

theorem handleCmdAction_ne_nil (h : 4 ≤ respMax) :
    (handleCmdAction env.uptime s channel req.bytes respMax).2 ≠ [] := by
  unfold handleCmdAction
  split
  · exact reply4_ne_nil h _ _ _
  · split
    · exact reply4_ne_nil h _ _ _
    · rw [actionPowerOff_eq]
      split <;> exact reply4_ne_nil h _ _ _
    · rw [actionFactoryReset_eq]
      split
      · exact reply4_ne_nil h _ _ _
      · split <;> exact reply4_ne_nil h _ _ _
    · exact reply3_ne_nil h _ _ _

theorem processAppPayload_of_unanswered (respMax : Nat) {req : Payload} (h : Unanswered req.bytes) :
    processAppPayload env s channel req respMax = (s, []) := by
  rcases h with hEmpty | hAuth
  · rw [processAppPayload, if_pos (by rw [hEmpty]; decide)]
  · rw [processAppPayload_of_auth (by rw [HasCmd, hAuth]; rfl), appAuthHandleCmd, if_pos (.inl (by rw [hAuth]; decide))]

theorem reply_ne_nil (h : 4 ≤ respMax) {req : Payload} (hAnswered : ¬ Unanswered req.bytes) :
    (processAppPayload env s channel req respMax).2 ≠ [] := by
  obtain ⟨hEmpty, hAuth⟩ := not_or.mp hAnswered
  have hPos := List.length_pos_iff.mpr hEmpty
  unfold processAppPayload
  rw [if_neg (by omega)]
  split
  · exact handleCmdRead_ne_nil h s.fields req.bytes
  · exact handleCmdWrite_ne_nil env s channel req h
  · rename_i hCmd
    refine appAuthHandleCmd_ne_nil env channel s.auth (fun hShort => hAuth ?_) hCmd
    match hBytes : req.bytes with
    | [a] =>
      rw [hBytes] at hCmd
      exact congrArg (· :: []) hCmd
    | _ :: _ :: tail =>
      rw [hBytes, List.length_cons, List.length_cons] at hShort
      omega
    | [] => exact absurd hBytes hEmpty
  · exact handleCmdAction_ne_nil env s channel req h
  · dsimp only
    rw [if_neg (by omega)]
    exact List.cons_ne_nil _ _

end Answered

end IotRange.AppProtocol
