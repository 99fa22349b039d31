import IotRange.AppConfig.Ndef

/-! # Command records and the NDEF layout

The parser adds the ID to the header and looks for the type after it, where the layout has the type
in front of the ID. The payload comes after both, so only the type is looked for in the wrong place.
-/
namespace IotRange.NdefLayout
open AppConfig Ndef
set_option autoImplicit false

/-- An external record of type `"ulpinternal:cmd"` with a payload. -/
structure CommandRecord extends Record where
  external : flags &&& tnfMask = tnfExternal
  type_eq : type = appConfigCmdType
  payload_ne_nil : payload ≠ []

/-! ## Reading the header -/

section Header

variable (r : Record) (body : List UInt8)

theorem lengthsEnd_header : lengthsEnd (r.header ++ body) = 2 + r.payloadLength.length := by
  rw [r.length_payloadLength]
  change (if r.flags &&& sr ≠ 0 then 3 else 6) = _
  split <;> rfl

theorem length_header : r.header.length = 2 + r.payloadLength.length + r.idLength.length := by
  rw [Record.header, List.length_cons, List.length_cons, List.length_append]
  omega

theorem payloadLength_header : payloadLength (r.header ++ body) = UInt32.ofNat r.payload.length := by
  have hPayload := r.length_payload_lt
  change (if r.flags &&& sr ≠ 0 then (byteAt (r.payloadLength ++ r.idLength ++ body) 0).toUInt32
    else readBe32 (r.payloadLength ++ r.idLength ++ body)) = _
  unfold Record.payloadLength
  split
  · rename_i hSr
    rw [if_pos hSr] at hPayload
    apply UInt32.toNat_inj.mp
    rw [UInt32.toNat_ofNat_of_lt' (hPayload.trans (by decide))]
    exact UInt8.toNat_ofNat_of_lt' hPayload
  · rw [List.append_assoc]
    exact readBe32_be32 _ _

theorem idLength_header (h : r.flags &&& il ≠ 0) :
    byteAt (r.header ++ body) (2 + r.payloadLength.length) = UInt8.ofNat r.id.length := by
  have hDrop : (r.header ++ body).drop (2 + r.payloadLength.length) = r.idLength ++ body := by
    rw [Nat.add_comm, Record.header, List.cons_append, List.cons_append, List.append_assoc]
    exact List.drop_left
  have hByte := byteAt_drop (r.header ++ body) (2 + r.payloadLength.length) 0
  rw [hDrop, Record.idLength, if_neg h] at hByte
  exact hByte.symm

theorem headerLength_header : headerLength (r.header ++ body) = r.header.length + r.id.length := by
  change (if r.flags &&& il = 0 then _ else _) = _
  rw [lengthsEnd_header, length_header, r.length_idLength]
  split
  · rename_i hIl
    rw [r.id_of_no_il hIl]
    rfl
  · rename_i hIl
    rw [idLength_header r body hIl, UInt8.toNat_ofNat_of_lt' r.length_id_lt]
    omega

theorem hasHeader_header (hExternal : r.flags &&& tnfMask = tnfExternal) : HasHeader (r.header ++ body) := by
  have hLength := length_header r
  refine ⟨hExternal, ?_, ?_⟩
  · rw [lengthsEnd_header, List.length_append]
    omega
  · intro (hIl : r.flags &&& il ≠ 0)
    have hId := r.length_idLength
    rw [if_neg hIl] at hId
    rw [lengthsEnd_header, List.length_append]
    omega

end Header

/-! ## Parsing a command record -/

section Parse

variable (r : CommandRecord) {body : List UInt8} {msgLen : UInt32}

theorem length_type : r.type.length = 15 := congrArg List.length r.type_eq

/-- Behind the header of a command record only the type is compared, at the end of an ID. -/
theorem ndefParseExtCmd_header (hLen : (r.header ++ body).length = msgLen.toNat)
    (hBody : r.id.length + 15 + r.payload.length ≤ body.length) :
    ndefParseExtCmd (r.header ++ body) msgLen =
      if (body.drop r.id.length).take 15 = appConfigCmdType then
        .ok (some ⟨byteAt (r.header ++ body) (r.header.length + r.id.length + 15),
          UInt32.ofNat (r.header.length + r.id.length + 15), UInt32.ofNat r.payload.length⟩)
      else .ok none := by
  have hFits := msgLen.toNat_lt
  have hHeader := headerLength_le (r.header ++ body)
  have hPos := List.length_pos_iff.mpr r.payload_ne_nil
  have hTypeLen : byteAt (r.header ++ body) 1 = appConfigCmdTypeLen := congrArg UInt8.ofNat (length_type r)
  have hPayload : (UInt32.ofNat r.payload.length).toNat = r.payload.length :=
    UInt32.toNat_ofNat_of_lt' r.length_payload_lt_two_pow
  have hZero : UInt32.ofNat r.payload.length ≠ 0 := by
    rw [Ne, ← UInt32.toNat_inj, hPayload]
    exact Nat.ne_of_gt hPos
  have hDrop : (r.header ++ body).drop (r.header.length + r.id.length) = body.drop r.id.length := by
    rw [← List.drop_drop, List.drop_left]
  rw [headerLength_header] at hHeader
  rw [List.length_append] at hLen
  rw [ndefParseExtCmd_of_hasHeader (List.length_append ▸ hLen) (hasHeader_header _ _ r.external), hTypeLen,
    payloadLength_header, headerLength_header, parseTypeAndCmd_eq (List.length_append ▸ hLen) hHeader, hPayload,
    hDrop, List.length_append, Nat.mod_eq_of_lt (by omega), if_neg (by omega), if_neg (by omega)]
  by_cases hType : (body.drop r.id.length).take 15 = appConfigCmdType
  · rw [if_pos hType, if_neg (not_or.mpr ⟨not_not.mpr hType, hZero⟩), if_neg (by omega)]
  · rw [if_neg hType, if_pos (.inl hType)]

/-- With type and payload behind the ID the parser accepts, and what it points to is the payload. -/
theorem ndefParseExtCmd_of_drop (hLen : (r.header ++ body).length = msgLen.toNat) {rest : List UInt8}
    (hBody : body.drop r.id.length = appConfigCmdType ++ (r.payload ++ rest)) :
    ∃ c, ndefParseExtCmd (r.header ++ body) msgLen = .ok (some c) ∧ c.cmd = byteAt r.payload 0 ∧
      readRange (r.header ++ body) c.payloadOffset.toNat c.payloadLen.toNat = .ok r.payload := by
  have hFits := msgLen.toNat_lt
  have hType : appConfigCmdType.length = 15 := rfl
  have hTaken : (body.drop r.id.length).take 15 = appConfigCmdType := by
    rw [hBody]
    exact List.take_left' hType
  have hFrom : (r.header ++ body).drop (r.header.length + r.id.length + 15) = r.payload ++ rest := by
    rw [← List.drop_drop, ← List.drop_drop, List.drop_left, hBody]
    exact List.drop_left' hType
  have hEnd : r.id.length + 15 + r.payload.length ≤ body.length := by
    have hLength := congrArg List.length hBody
    rw [List.length_drop, List.length_append, List.length_append, hType] at hLength
    omega
  have hInside : r.header.length + r.id.length + 15 + r.payload.length ≤ (r.header ++ body).length := by
    rw [List.length_append]
    omega
  have hOffset : (UInt32.ofNat (r.header.length + r.id.length + 15)).toNat = r.header.length + r.id.length + 15 :=
    UInt32.toNat_ofNat_of_lt' (Nat.lt_of_le_of_lt (by omega) hFits)
  rw [ndefParseExtCmd_header r hLen hEnd, if_pos hTaken]
  refine ⟨_, rfl, ?_, ?_⟩
  · rw [← Nat.add_zero (r.header.length + r.id.length + 15), ← byteAt_drop, hFrom,
      byteAt_append_left (List.length_pos_iff.mpr r.payload_ne_nil)]
  · dsimp only
    rw [hOffset, UInt32.toNat_ofNat_of_lt' r.length_payload_lt_two_pow, readRange_of_le hInside, hFrom, List.take_left]

end Parse

/-! ## The layout -/

/-- The parser accepts the message, its command is the payload's first byte, and its payload is `payload`. -/
def Reports (msg : Buffer) (payload : List UInt8) : Prop :=
  ∃ c, ndefParseExtCmd msg.bytes msg.length = .ok (some c) ∧ c.cmd = byteAt payload 0 ∧
    readRange msg.bytes c.payloadOffset.toNat c.payloadLen.toNat = .ok payload

/-- The type read behind an ID that follows it is the type only if the ID repeats it at its end. -/
theorem drop_cmdType_iff (id : List UInt8) :
    (appConfigCmdType ++ id).drop id.length = appConfigCmdType ↔ id = [] ∨ appConfigCmdType <:+ id := by
  have hLength : appConfigCmdType.length = 15 := rfl
  constructor
  · intro hDrop
    rcases Nat.lt_or_ge id.length 15 with hShort | hLong
    · left
      by_contra hNonempty
      have hPos := List.length_pos_iff.mpr hNonempty
      -- No later byte of the type is the one it starts with.
      have hFirst : ∀ k < 15, 0 < k → byteAt appConfigCmdType k ≠ byteAt appConfigCmdType 0 := by decide
      refine hFirst id.length hShort hPos ?_
      rw [← byteAt_append_left (hLength ▸ hShort) id, ← Nat.add_zero id.length, ← byteAt_drop, hDrop]
    · right
      rw [List.drop_append, List.drop_eq_nil_of_le (hLength ▸ hLong), List.nil_append] at hDrop
      exact ⟨id.take (id.length - 15), by rw [← hDrop, hLength, List.take_append_drop]⟩
  · rintro (rfl | ⟨before, rfl⟩)
    · rfl
    · rw [← List.append_assoc]
      refine List.drop_left' ?_
      rw [List.length_append, List.length_append, Nat.add_comm]

section Layout

variable (r : CommandRecord) {trailing : List UInt8}

/-- The parser reports the payload of a command record unless its ID hides the type. -/
theorem reports_iff {msg : Buffer} (hMsg : msg.bytes = r.bytes ++ trailing) :
    Reports msg r.payload ↔ r.id = [] ∨ appConfigCmdType <:+ r.id := by
  have hType : appConfigCmdType.length = 15 := rfl
  have hMsg' : msg.bytes = r.header ++ (appConfigCmdType ++ r.id ++ (r.payload ++ trailing)) := by
    rw [hMsg, Record.bytes, r.type_eq]
    simp only [List.append_assoc]
  have hDropped : (appConfigCmdType ++ r.id ++ (r.payload ++ trailing)).drop r.id.length =
      (appConfigCmdType ++ r.id).drop r.id.length ++ (r.payload ++ trailing) :=
    List.drop_append_of_le_length (by rw [List.length_append]; omega)
  have hLen : (r.header ++ (appConfigCmdType ++ r.id ++ (r.payload ++ trailing))).length = msg.length.toNat := by
    rw [← hMsg', msg.toNat_length]
  rw [← drop_cmdType_iff, Reports, hMsg']
  constructor
  · rintro ⟨c, hParse, -⟩
    by_contra hDrop
    have hBody : r.id.length + 15 + r.payload.length ≤
        (appConfigCmdType ++ r.id ++ (r.payload ++ trailing)).length := by
      simp only [List.length_append, hType]
      omega
    have hTaken : ((appConfigCmdType ++ r.id ++ (r.payload ++ trailing)).drop r.id.length).take 15 =
        (appConfigCmdType ++ r.id).drop r.id.length := by
      rw [hDropped]
      refine List.take_left' ?_
      rw [List.length_drop, List.length_append, Nat.add_sub_cancel, hType]
    rw [ndefParseExtCmd_header r hLen hBody, hTaken, if_neg hDrop] at hParse
    cases hParse
  · intro hDrop
    rw [hDrop] at hDropped
    exact ndefParseExtCmd_of_drop r hLen hDropped

end Layout

theorem length_noId_lt : ([] : List UInt8).length < 256 := Nat.zero_lt_succ 255

/-- POWER ON in a record without an ID. -/
def plainRecord : CommandRecord where
  flags := mb ||| me ||| sr ||| tnfExternal
  type := appConfigCmdType
  id := []
  payload := [0x04, 0x01]
  length_type_lt := by decide
  length_id_lt := length_noId_lt
  id_of_no_il _ := rfl
  length_payload_lt := by decide
  external := by decide
  type_eq := rfl
  payload_ne_nil := List.cons_ne_nil _ _

/-- The same command in a record with the ID `"1"`. -/
def namedRecord : CommandRecord where
  flags := mb ||| me ||| sr ||| il ||| tnfExternal
  type := appConfigCmdType
  id := [0x31]
  payload := [0x04, 0x01]
  length_type_lt := by decide
  length_id_lt := by decide
  id_of_no_il h := absurd h (by decide)
  length_payload_lt := by decide
  external := by decide
  type_eq := rfl
  payload_ne_nil := List.cons_ne_nil _ _

theorem reports_plainRecord : Reports ⟨plainRecord.bytes, by decide⟩ plainRecord.payload :=
  (reports_iff plainRecord (List.append_nil _).symm).mpr (.inl rfl)

theorem namedRecord_not_reported : ¬ Reports ⟨namedRecord.bytes, by decide⟩ namedRecord.payload := by
  rintro ⟨c, hParse, -⟩
  have hNone : ndefParseExtCmd namedRecord.bytes (UInt32.ofNat namedRecord.bytes.length) = .ok none := rfl
  cases hNone.symm.trans hParse

end IotRange.NdefLayout
