import IotRange.AppConfig.Ndef

/-! # The NDEF parser and the end of the message

The extent of a record is a 32-bit sum. Where it does not wrap, nothing outside the message is read
or reported; a long-form payload length near `2 ^ 32` makes it wrap to a number that passes.
-/
namespace IotRange.NdefBounds
open AppConfig
set_option autoImplicit false

/-- No read outside the message, and a reported payload inside it. -/
def StaysInside (msg : Buffer) : Prop :=
  ∃ result, ndefParseExtCmd msg.bytes msg.length = .ok result ∧
    ∀ c ∈ result, c.payloadOffset.toNat + c.payloadLen.toNat ≤ msg.bytes.length

/-- A record whose extent passes the comparison because it wraps, and whose type is reached. -/
structure Wraps (msg : List UInt8) : Prop where
  header : HasHeader msg
  typeLen : byteAt msg 1 = appConfigCmdTypeLen
  overflow : 2 ^ 32 ≤ recordExtent msg
  passes : recordExtent msg - 2 ^ 32 ≤ msg.length
  type : msg.length < headerLength msg + 15 ∨ (msg.drop (headerLength msg)).take 15 = appConfigCmdType

section Extent

variable {msg : List UInt8}

theorem recordExtent_eq (h : byteAt msg 1 = appConfigCmdTypeLen) :
    recordExtent msg = headerLength msg + 15 + (payloadLength msg).toNat := by
  rw [recordExtent, h]
  rfl

theorem recordExtent_mod (h : byteAt msg 1 = appConfigCmdTypeLen) :
    recordExtent msg % 2 ^ 32 =
      if recordExtent msg < 2 ^ 32 then recordExtent msg else recordExtent msg - 2 ^ 32 := by
  have hHeader := headerLength_le msg
  have hPayload := (payloadLength msg).toNat_lt
  rw [recordExtent_eq h]
  split <;> omega

theorem payloadOffset_toNat : (UInt32.ofNat (headerLength msg + 15)).toNat = headerLength msg + 15 :=
  UInt32.toNat_ofNat_of_lt' (Nat.lt_of_le_of_lt (Nat.add_le_add_right (headerLength_le msg) 15) (by decide))

end Extent

theorem not_staysInside_of_wraps {msg : Buffer} (h : Wraps msg.bytes) : ¬ StaysInside msg := by
  have hMod := recordExtent_mod h.typeLen
  rw [if_neg (not_lt.mpr h.overflow)] at hMod
  have hPasses : ¬ msg.bytes.length < recordExtent msg.bytes % 2 ^ 32 := by
    rw [hMod]
    exact not_lt.mpr h.passes
  have hOverflow := h.overflow
  have hLength := msg.length_lt
  rintro ⟨result, hResult, hInside⟩
  rw [ndefParseExtCmd_of_hasHeader msg.toNat_length.symm h.header, h.typeLen,
    parseTypeAndCmd_eq msg.toNat_length.symm (headerLength_le _), ← recordExtent_eq h.typeLen,
      if_neg hPasses] at hResult
  rw [recordExtent_eq h.typeLen] at hOverflow
  rcases h.type with hShort | hType
  · rw [if_pos hShort] at hResult
    cases hResult
  · have hPayload : payloadLength msg.bytes ≠ 0 := by
      intro hZero
      have hHeader := headerLength_le msg.bytes
      rw [hZero] at hOverflow
      change 2 ^ 32 ≤ headerLength msg.bytes + 15 + 0 at hOverflow
      omega
    split at hResult
    · cases hResult
    · rw [if_neg (by simp [hType, hPayload])] at hResult
      split at hResult
      · cases hResult
      · obtain rfl := Except.ok.inj hResult
        have hEnd := hInside _ rfl
        rw [payloadOffset_toNat] at hEnd
        dsimp only at hEnd
        omega

theorem staysInside_of_not_wraps {msg : Buffer} (h : ¬ Wraps msg.bytes) : StaysInside msg := by
  by_cases hHeader : HasHeader msg.bytes
  · by_cases hTypeLen : byteAt msg.bytes 1 = appConfigCmdTypeLen
    · have hMod := recordExtent_mod hTypeLen
      have hExtent := recordExtent_eq hTypeLen
      unfold StaysInside
      rw [ndefParseExtCmd_of_hasHeader msg.toNat_length.symm hHeader, hTypeLen,
        parseTypeAndCmd_eq msg.toNat_length.symm (headerLength_le _), ← hExtent]
      split
      · exact ⟨none, rfl, nofun⟩
      · rename_i hPasses
        by_cases hOverflow : 2 ^ 32 ≤ recordExtent msg.bytes
        · -- The wrapped sum passes, so the type bytes are all there and differ.
          rw [hMod, if_neg (not_lt.mpr hOverflow)] at hPasses
          have hType := fun hType => h ⟨hHeader, hTypeLen, hOverflow, not_lt.mp hPasses, hType⟩
          rw [if_neg fun hShort => hType (.inl hShort), if_pos (.inl fun hEq => hType (.inr hEq))]
          exact ⟨none, rfl, nofun⟩
        · rw [hMod, if_pos (not_le.mp hOverflow), hExtent] at hPasses
          rw [if_neg (by omega)]
          split
          · exact ⟨none, rfl, nofun⟩
          · rename_i hMatch
            have hPayload : (payloadLength msg.bytes).toNat ≠ 0 := fun hZero =>
              (not_or.mp hMatch).2 (UInt32.toNat_inj.mp hZero)
            rw [if_neg (by omega)]
            refine ⟨_, rfl, ?_⟩
            intro c hc
            obtain rfl := Option.mem_some_iff.mp hc
            rw [payloadOffset_toNat]
            exact not_lt.mp hPasses
    · rw [StaysInside, ndefParseExtCmd_of_hasHeader msg.toNat_length.symm hHeader,
        parseTypeAndCmd_of_typeLen hTypeLen]
      exact ⟨none, rfl, nofun⟩
  · exact ⟨none, ndefParseExtCmd_of_not_hasHeader msg.toNat_length.symm hHeader, nofun⟩

theorem staysInside_iff (msg : Buffer) : StaysInside msg ↔ ¬ Wraps msg.bytes :=
  ⟨fun hInside hWraps => not_staysInside_of_wraps hWraps hInside, staysInside_of_not_wraps⟩

/-- The frame is read exactly where the parser stays inside the message. -/
theorem staysInside_iff_frame (msg : Buffer) :
    StaysInside msg ↔ ∃ frame, ndefFrame msg.bytes msg.length = .ok frame := by
  unfold StaysInside ndefFrame
  match ndefParseExtCmd msg.bytes msg.length with
  | .error e =>
    constructor
    · rintro ⟨result, hResult, -⟩
      cases hResult
    · rintro ⟨frame, hFrame⟩
      cases hFrame
  | .ok none => exact iff_of_true ⟨none, rfl, nofun⟩ ⟨none, rfl⟩
  | .ok (some c) =>
    simp only [bind, Except.bind]
    constructor
    · rintro ⟨result, hResult, hInside⟩
      obtain rfl := Except.ok.inj hResult
      rw [readRange_of_le (hInside c rfl)]
      exact ⟨_, rfl⟩
    · rintro ⟨frame, hFrame⟩
      refine ⟨some c, rfl, fun c' hc => ?_⟩
      obtain rfl := Option.mem_some_iff.mp hc
      by_contra hOutside
      rw [readRange, if_neg hOutside] at hFrame
      cases hFrame

theorem exists_frame_iff (msg : Buffer) : (∃ frame, ndefFrame msg.bytes msg.length = .ok frame) ↔ ¬ Wraps msg.bytes :=
  (staysInside_iff_frame msg).symm.trans (staysInside_iff msg)

/-- A long record with one payload byte that declares `2 ^ 32 - 21`. -/
def wrappedRecord : Buffer :=
  ⟨[0x04, 0x0F, 0xFF, 0xFF, 0xFF, 0xEB] ++ appConfigCmdType ++ [0x01], by decide⟩

theorem wrappedRecord_leaves_message : ¬ StaysInside wrappedRecord := by
  rintro ⟨result, hResult, hInside⟩
  have hParsed : ndefParseExtCmd wrappedRecord.bytes wrappedRecord.length = .ok (some ⟨0x01, 21, 0xFFFFFFEB⟩) := rfl
  obtain rfl := Except.ok.inj (hParsed.symm.trans hResult)
  exact absurd (hInside _ rfl) (by decide)

end IotRange.NdefBounds
