import IotRange.NdefBounds
import IotRange.NdefLayout
import IotRange.NfcReply

/-! # Bytes behind the end of the message

The parser is bounded by the buffer and not by NLEN. A message that is a proper part of a command
record is then completed by whatever the buffer holds behind it, and lengths that wrap take the
parser out of the buffer; every other message is decided by its own bytes.
-/
namespace IotRange.StaleTag
open AppAuth AppConfig AppProtocol AppFields Device Ndef NdefBounds NdefLayout NfcReply
set_option autoImplicit false

/-! ## The records the parser accepts -/

/-- A command record as the parser reads it, with the ID in front of the type. -/
def idFirst (r : CommandRecord) : List UInt8 := r.header ++ (r.id ++ (appConfigCmdType ++ r.payload))

theorem length_idFirst (r : CommandRecord) :
    (idFirst r).length = r.header.length + r.id.length + 15 + r.payload.length := by
  have hType : appConfigCmdType.length = 15 := rfl
  simp only [idFirst, List.length_append, hType]
  omega

theorem ndefFrame_idFirst (r : CommandRecord) {rest : List UInt8} {msgLen : UInt32}
    (hLen : (idFirst r ++ rest).length = msgLen.toNat) :
    ndefFrame (idFirst r ++ rest) msgLen = .ok (some r.payload) := by
  have hMsg : idFirst r ++ rest = r.header ++ (r.id ++ (appConfigCmdType ++ (r.payload ++ rest))) := by
    simp only [idFirst, List.append_assoc]
  rw [hMsg] at hLen ⊢
  obtain ⟨c, hParse, -, hPayload⟩ := ndefParseExtCmd_of_drop r hLen (List.drop_left)
  rw [ndefFrame, hParse]
  simp only [bind, Except.bind, hPayload]
  rfl

section Sound

variable {msg payload : List UInt8} {msgLen : UInt32}

/-- What the parser has checked when a frame is read inside the message. -/
theorem of_ndefFrame (hLen : msg.length = msgLen.toNat) (h : ndefFrame msg msgLen = .ok (some payload)) :
    HasHeader msg ∧ byteAt msg 1 = appConfigCmdTypeLen ∧
      (msg.drop (headerLength msg)).take 15 = appConfigCmdType ∧ payloadLength msg ≠ 0 ∧
      headerLength msg + 15 + (payloadLength msg).toNat ≤ msg.length ∧
      payload = (msg.drop (headerLength msg + 15)).take (payloadLength msg).toNat := by
  have hOffset : (UInt32.ofNat (headerLength msg + 15)).toNat = headerLength msg + 15 :=
    UInt32.toNat_ofNat_of_lt' (Nat.lt_of_le_of_lt (Nat.add_le_add_right (headerLength_le msg) 15) (by decide))
  unfold ndefFrame at h
  by_cases hHeader : HasHeader msg
  · rw [ndefParseExtCmd_of_hasHeader hLen hHeader] at h
    by_cases hTypeLen : byteAt msg 1 = appConfigCmdTypeLen
    · rw [hTypeLen, parseTypeAndCmd_eq hLen (headerLength_le msg)] at h
      split at h
      · cases h
      · split at h
        · cases h
        · split at h
          · cases h
          · rename_i hMatch
            obtain ⟨hType, hPayload⟩ := not_or.mp hMatch
            split at h
            · cases h
            · simp only [bind, Except.bind, hOffset] at h
              by_cases hFits : headerLength msg + 15 + (payloadLength msg).toNat ≤ msg.length
              · rw [readRange_of_le hFits] at h
                exact ⟨hHeader, hTypeLen, not_not.mp hType, hPayload, hFits, (Option.some.inj (Except.ok.inj h)).symm⟩
              · rw [readRange, if_neg hFits] at h
                cases h
    · rw [parseTypeAndCmd_of_typeLen hTypeLen] at h
      cases h
  · rw [ndefParseExtCmd_of_not_hasHeader hLen hHeader] at h
    cases h

end Sound

/-! ### The record in an accepted message -/

section Decompose

variable {msg : List UInt8}

/-- The payload length bytes of the message, written again from the length they give. -/
def lengthBytes (flags : UInt8) (length : Nat) : List UInt8 :=
  if flags &&& sr ≠ 0 then [UInt8.ofNat length] else be32 (UInt32.ofNat length)

theorem drop_two_eq (h : lengthsEnd msg ≤ msg.length) :
    msg.drop 2 = lengthBytes (byteAt msg 0) (payloadLength msg).toNat ++ msg.drop (lengthsEnd msg) := by
  unfold lengthsEnd at h ⊢
  unfold payloadLength lengthBytes
  by_cases hSr : byteAt msg 0 &&& sr ≠ 0
  · rw [if_pos hSr] at h
    rw [if_pos hSr, if_pos hSr, if_pos hSr, drop_eq_cons (by omega : 2 < msg.length), UInt8.toNat_toUInt32,
      UInt8.ofNat_toNat]
    rfl
  · rw [if_neg hSr] at h
    rw [if_neg hSr, if_neg hSr, if_neg hSr, UInt32.ofNat_toNat, drop_eq_cons (by omega : 2 < msg.length),
      drop_eq_cons (by omega : 3 < msg.length), drop_eq_cons (by omega : 4 < msg.length),
      drop_eq_cons (by omega : 5 < msg.length), be32_readBe32]
    rfl

def idOf (msg : List UInt8) : List UInt8 :=
  if byteAt msg 0 &&& il = 0 then []
  else (msg.drop (lengthsEnd msg + 1)).take (byteAt msg (lengthsEnd msg)).toNat

theorem length_idOf_lt (msg : List UInt8) : (idOf msg).length < 256 := by
  unfold idOf
  split
  · decide
  · exact length_take_toNat_lt _ _

theorem drop_lengthsEnd_eq (h : headerLength msg ≤ msg.length) :
    msg.drop (lengthsEnd msg) =
      (if byteAt msg 0 &&& il = 0 then [] else [UInt8.ofNat (idOf msg).length]) ++
        (idOf msg ++ msg.drop (headerLength msg)) := by
  unfold headerLength at h ⊢
  unfold idOf
  by_cases hIl : byteAt msg 0 &&& il = 0
  · rw [if_pos hIl, if_pos hIl, if_pos hIl]
    rfl
  · rw [if_neg hIl] at h
    have hLength : ((msg.drop (lengthsEnd msg + 1)).take (byteAt msg (lengthsEnd msg)).toNat).length =
        (byteAt msg (lengthsEnd msg)).toNat := by
      rw [List.length_take, List.length_drop]
      omega
    have hSplit := List.take_append_drop (byteAt msg (lengthsEnd msg)).toNat (msg.drop (lengthsEnd msg + 1))
    rw [List.drop_drop, Nat.add_assoc] at hSplit
    rw [if_neg hIl, if_neg hIl, if_neg hIl, hLength, UInt8.ofNat_toNat, drop_eq_cons (by omega), hSplit]
    rfl

end Decompose

theorem ndefFrame_sound {msg payload : List UInt8} {msgLen : UInt32} (hLen : msg.length = msgLen.toNat)
    (h : ndefFrame msg msgLen = .ok (some payload)) :
    ∃ (r : CommandRecord) (rest : List UInt8), msg = idFirst r ++ rest ∧ r.payload = payload := by
  obtain ⟨hHeader, hTypeLen, hType, hPayload, hFits, rfl⟩ := of_ndefFrame hLen h
  have hLength : ((msg.drop (headerLength msg + 15)).take (payloadLength msg).toNat).length =
      (payloadLength msg).toNat := by
    rw [List.length_take, List.length_drop]
    omega
  have hLengths := (lengthsEnd_mem msg).1.trans hHeader.lengths
  let r : CommandRecord :=
    { flags := byteAt msg 0
      type := appConfigCmdType
      id := idOf msg
      payload := (msg.drop (headerLength msg + 15)).take (payloadLength msg).toNat
      length_type_lt := by decide
      length_id_lt := length_idOf_lt msg
      id_of_no_il := fun hIl => if_pos hIl
      length_payload_lt := by
        rw [hLength, payloadLength]
        split
        · exact UInt8.toNat_lt _
        · exact UInt32.toNat_lt _
      external := hHeader.external
      type_eq := rfl
      payload_ne_nil := by
        rw [← List.length_pos_iff, hLength]
        exact Nat.pos_of_ne_zero fun hZero => hPayload (UInt32.toNat_inj.mp hZero) }
  refine ⟨r, (msg.drop (headerLength msg + 15)).drop (payloadLength msg).toNat, ?_, rfl⟩
  have hBytes : r.payloadLength = lengthBytes (byteAt msg 0) (payloadLength msg).toNat := by
    rw [Record.payloadLength, hLength, lengthBytes]
  calc
    msg = byteAt msg 0 :: byteAt msg 1 :: msg.drop 2 := by
      rw [← drop_eq_cons (by omega), ← drop_eq_cons (by omega), List.drop_zero]
    _ = byteAt msg 0 :: appConfigCmdTypeLen :: (r.payloadLength ++ (r.idLength ++ (idOf msg ++
          msg.drop (headerLength msg)))) := by
      rw [hTypeLen, drop_two_eq hHeader.lengths, drop_lengthsEnd_eq (by omega), hBytes]
      rfl
    _ = byteAt msg 0 :: appConfigCmdTypeLen :: (r.payloadLength ++ (r.idLength ++ (idOf msg ++
          (appConfigCmdType ++ msg.drop (headerLength msg + 15))))) := by
      rw [← hType, ← List.drop_drop, List.take_append_drop]
    _ = idFirst r ++ (msg.drop (headerLength msg + 15)).drop (payloadLength msg).toNat := by
      simp only [idFirst, Record.header, List.cons_append, List.append_assoc]
      rw [List.take_append_drop]
      rfl

/-! ## Two buffers with one message -/

/-- A file buffer of the given size whose NLEN and message bytes are those of `message`. -/
structure Holds (message : Payload) (size : Nat) (buf : Buffer) : Prop where
  size : buf.bytes.length = size
  nlen : fileLength buf.bytes = message.bytes.length
  message : fileMessage buf.bytes = message.bytes

def commandFrame (lib : NdefFileLib) (buf : Buffer) : Except OutOfBounds (Option (List UInt8)) :=
  ndefFrame (buf.bytes.drop lib.msgOffset) (lib.msgSizeGet buf.length)

/-- Both runs stay inside the buffer and find the same command, or none. -/
def SameCommand (lib : NdefFileLib) (b₁ b₂ : Buffer) : Prop :=
  ∃ frame, commandFrame lib b₁ = .ok frame ∧ commandFrame lib b₂ = .ok frame

/-- Both runs come to a result: the same flag, the same device and a file with the same message. -/
def SameOutcome (lib : NdefFileLib) (env : Env) (d : Device) (b₁ b₂ : Buffer) : Prop :=
  ∃ flag d' file₁ file₂, appConfigHandleNdef lib env d b₁ = .ok (flag, d', file₁) ∧
    appConfigHandleNdef lib env d b₂ = .ok (flag, d', file₂) ∧ fileMessage file₁ = fileMessage file₂

def StaleFree (lib : NdefFileLib) (message : Payload) (size : Nat) : Prop :=
  ∀ b₁ b₂, Holds message size b₁ → Holds message size b₂ →
    SameCommand lib b₁ b₂ ∧ ∀ env d, SameOutcome lib env d b₁ b₂

/-- A proper part of a command record that would fit. -/
def CutsCommand (message : List UInt8) (capacity : Nat) : Prop :=
  ∃ r : CommandRecord, message <+: idFirst r ∧ message.length < (idFirst r).length ∧
    (idFirst r).length ≤ capacity

/-- Some bytes behind the message make it one whose lengths wrap and whose type is reached. -/
def MayWrap (message : List UInt8) (capacity : Nat) : Prop :=
  ∃ msg, message <+: msg ∧ msg.length = capacity ∧ Wraps msg

section Handler

variable {lib : NdefFileLib} {env : Env} {d : Device} {buf : Buffer}

theorem exists_commandFrame_iff (hLib : lib.Documented) (hTwo : 2 ≤ buf.bytes.length) :
    (∃ frame, commandFrame lib buf = .ok frame) ↔ ¬ Wraps (buf.bytes.drop 2) := by
  have hShorter : (buf.bytes.drop 2).length < 2 ^ 32 :=
    (List.drop_sublist 2 buf.bytes).length_le.trans_lt buf.length_lt
  have hLength : lib.msgSizeGet buf.length = (⟨buf.bytes.drop 2, hShorter⟩ : Buffer).length := by
    rw [← UInt32.toNat_inj, toNat_msgSizeGet hLib hTwo, Buffer.toNat_length, List.length_drop]
  rw [commandFrame, hLib.msgOffset, hLength]
  exact exists_frame_iff ⟨buf.bytes.drop 2, hShorter⟩

/-- The handler depends on the buffer through the frame alone. -/
theorem appConfigHandleNdef_of_frame (hLib : lib.Documented) (hTwo : 2 ≤ buf.bytes.length)
    {frame : Option (List UInt8)} (h : commandFrame lib buf = .ok frame) :
    appConfigHandleNdef lib env d buf =
      .ok (match frame with
        | none => (false, d, buf.bytes)
        | some payload =>
          let (d', reply) := handleRequest env d .nfc (frameRequest payload)
          if reply.length = 0 ∨ buf.bytes.length < 21 + reply.length then (false, d', buf.bytes)
          else (true, d', replyFile buf reply)) := by
  have hReq := ndefRequest_eq (buf.bytes.drop lib.msgOffset) (lib.msgSizeGet buf.length)
  rw [show ndefFrame _ _ = _ from h] at hReq
  cases frame with
  | none =>
    unfold appConfigHandleNdef
    dsimp only
    rw [hReq]
    rfl
  | some payload => exact appConfigHandleNdef_eq hLib hTwo hReq

theorem device_of_frame (hLib : lib.Documented) (hTwo : 2 ≤ buf.bytes.length) {payload : List UInt8}
    (h : commandFrame lib buf = .ok (some payload)) :
    ∃ flag file, appConfigHandleNdef lib env d buf =
      .ok (flag, (handleRequest env d .nfc (frameRequest payload)).1, file) := by
  rw [appConfigHandleNdef_of_frame hLib hTwo h]
  dsimp only
  split
  · exact ⟨_, _, rfl⟩
  · exact ⟨_, _, rfl⟩

theorem frame_of_handle {r : Bool × Device × List UInt8} (h : appConfigHandleNdef lib env d buf = .ok r) :
    ∃ frame, commandFrame lib buf = .ok frame := by
  cases hFrame : commandFrame lib buf with
  | ok frame => exact ⟨frame, rfl⟩
  | error e =>
    have hReq := ndefRequest_eq (buf.bytes.drop lib.msgOffset) (lib.msgSizeGet buf.length)
    rw [show ndefFrame _ _ = _ from hFrame] at hReq
    unfold appConfigHandleNdef at h
    dsimp only at h
    rw [hReq] at h
    cases h

/-- What is no command stays on the tag as it was written. -/
theorem file_of_unhandled (hLib : lib.Documented) (hTwo : 2 ≤ buf.bytes.length) {d' : Device} {file : List UInt8}
    (h : appConfigHandleNdef lib env d buf = .ok (false, d', file)) : file = buf.bytes := by
  obtain ⟨frame, hFrame⟩ := frame_of_handle h
  rw [appConfigHandleNdef_of_frame hLib hTwo hFrame] at h
  have hResult := Except.ok.inj h
  cases frame with
  | none => exact (Prod.mk.inj (Prod.mk.inj hResult).2).2.symm
  | some payload =>
    dsimp only at hResult
    split at hResult
    · exact (Prod.mk.inj (Prod.mk.inj hResult).2).2.symm
    · cases (Prod.mk.inj hResult).1

end Handler

section Two

variable {lib : NdefFileLib} {message : Payload} {size : Nat} {b₁ b₂ : Buffer}

theorem sameOutcome_of_sameCommand (hLib : lib.Documented) (hTwo : 2 ≤ size) (h₁ : Holds message size b₁)
    (h₂ : Holds message size b₂) (hSame : SameCommand lib b₁ b₂) (env : Env) (d : Device) :
    SameOutcome lib env d b₁ b₂ := by
  obtain ⟨frame, hFrame₁, hFrame₂⟩ := hSame
  have hRun₁ := @appConfigHandleNdef_of_frame _ env d _ hLib (h₁.size ▸ hTwo) _ hFrame₁
  have hRun₂ := @appConfigHandleNdef_of_frame _ env d _ hLib (h₂.size ▸ hTwo) _ hFrame₂
  have hMessage : fileMessage b₁.bytes = fileMessage b₂.bytes := h₁.message.trans h₂.message.symm
  cases frame with
  | none => exact ⟨false, d, b₁.bytes, b₂.bytes, hRun₁, hRun₂, hMessage⟩
  | some payload =>
    have hMax : (handleRequest env d .nfc (frameRequest payload)).2.length ≤ appProtoRespMax :=
      (length_reply_iff env d.toAppState .nfc (frameRequest payload)).1
    dsimp only at hRun₁ hRun₂
    rw [h₁.size] at hRun₁
    rw [h₂.size] at hRun₂
    by_cases hUnhandled : (handleRequest env d .nfc (frameRequest payload)).2.length = 0 ∨
        size < 21 + (handleRequest env d .nfc (frameRequest payload)).2.length
    · rw [if_pos hUnhandled] at hRun₁ hRun₂
      exact ⟨false, _, b₁.bytes, b₂.bytes, hRun₁, hRun₂, hMessage⟩
    · rw [if_neg hUnhandled] at hRun₁ hRun₂
      exact ⟨true, _, _, _, hRun₁, hRun₂, (fileMessage_replyFile hMax).trans (fileMessage_replyFile hMax).symm⟩

end Two

/-! ## A message decided by its own bytes -/

theorem ndefFrame_of_not_cutsCommand {message msg₁ msg₂ payload : List UInt8} {msgLen : UInt32}
    (hLen₁ : msg₁.length = msgLen.toNat) (hLen₂ : msg₂.length = msgLen.toNat) (hPrefix₁ : message <+: msg₁)
    (hPrefix₂ : message <+: msg₂) (hCut : ¬ CutsCommand message msgLen.toNat)
    (h : ndefFrame msg₁ msgLen = .ok (some payload)) : ndefFrame msg₂ msgLen = .ok (some payload) := by
  obtain ⟨r, rest, rfl, rfl⟩ := ndefFrame_sound hLen₁ h
  have hRecord : idFirst r <+: idFirst r ++ rest := List.prefix_append _ _
  rcases Nat.lt_or_ge message.length (idFirst r).length with hShort | hWhole
  · refine absurd ⟨r, List.prefix_of_prefix_length_le hPrefix₁ hRecord hShort.le, hShort, ?_⟩ hCut
    rw [← hLen₁]
    exact hRecord.length_le
  · obtain ⟨rest₂, rfl⟩ := (List.prefix_of_prefix_length_le hRecord hPrefix₁ hWhole).trans hPrefix₂
    exact ndefFrame_idFirst r hLen₂

section Holds

variable {lib : NdefFileLib} {message : Payload} {size : Nat} {buf : Buffer}

theorem Holds.startsWith (h : Holds message size buf) : message.bytes <+: buf.bytes.drop 2 := by
  rw [← h.message]
  exact List.take_prefix _ _

theorem Holds.length (hLib : lib.Documented) (hTwo : 2 ≤ size) (h : Holds message size buf) :
    (buf.bytes.drop 2).length = (lib.msgSizeGet buf.length).toNat := by
  rw [toNat_msgSizeGet hLib (h.size ▸ hTwo), List.length_drop]

theorem Holds.capacity (hLib : lib.Documented) (hTwo : 2 ≤ size) (h : Holds message size buf) :
    (lib.msgSizeGet buf.length).toNat = size - 2 := by
  rw [toNat_msgSizeGet hLib (h.size ▸ hTwo), h.size]

end Holds

theorem exists_commandFrame_of_not_mayWrap {lib : NdefFileLib} {message : Payload} {size : Nat} {buf : Buffer}
    (hLib : lib.Documented) (hTwo : 2 ≤ size) (h : Holds message size buf)
    (hInside : ¬ MayWrap message.bytes (size - 2)) : ∃ frame, commandFrame lib buf = .ok frame := by
  refine (exists_commandFrame_iff hLib (h.size ▸ hTwo)).mpr fun hWraps => hInside ?_
  exact ⟨buf.bytes.drop 2, h.startsWith, by rw [List.length_drop, h.size], hWraps⟩

theorem sameCommand_of_not_cutsCommand {lib : NdefFileLib} {message : Payload} {size : Nat} {b₁ b₂ : Buffer}
    (hLib : lib.Documented) (hTwo : 2 ≤ size) (h₁ : Holds message size b₁) (h₂ : Holds message size b₂)
    (hCut : ¬ CutsCommand message.bytes (size - 2)) (hInside : ¬ MayWrap message.bytes (size - 2)) :
    SameCommand lib b₁ b₂ := by
  have hSizes : lib.msgSizeGet b₁.length = lib.msgSizeGet b₂.length := by
    rw [← UInt32.toNat_inj, h₁.capacity hLib hTwo, h₂.capacity hLib hTwo]
  have hLen₁ := h₁.length hLib hTwo
  have hLen₂ := h₂.length hLib hTwo
  have hCut' : ¬ CutsCommand message.bytes (lib.msgSizeGet b₁.length).toNat := by
    rwa [h₁.capacity hLib hTwo]
  obtain ⟨f₁, hFrame₁⟩ := exists_commandFrame_of_not_mayWrap hLib hTwo h₁ hInside
  obtain ⟨f₂, hFrame₂⟩ := exists_commandFrame_of_not_mayWrap hLib hTwo h₂ hInside
  suffices hSame : f₁ = f₂ from ⟨f₁, hFrame₁, hSame ▸ hFrame₂⟩
  rw [commandFrame, hLib.msgOffset] at hFrame₁ hFrame₂
  rw [← hSizes] at hFrame₂ hLen₂
  cases f₁ with
  | some payload =>
    rw [ndefFrame_of_not_cutsCommand hLen₁ hLen₂ h₁.startsWith h₂.startsWith hCut' hFrame₁] at hFrame₂
    exact Except.ok.inj hFrame₂
  | none =>
    cases f₂ with
    | none => rfl
    | some payload =>
      rw [ndefFrame_of_not_cutsCommand hLen₂ hLen₁ h₂.startsWith h₁.startsWith hCut' hFrame₂] at hFrame₁
      cases hFrame₁

/-! ## A message completed in two ways -/

/-- Another record of the same length that differs in the last byte of its payload. -/
def altered (r : CommandRecord) : CommandRecord :=
  { r with
    payload := r.payload.dropLast ++ [r.payload.getLast r.payload_ne_nil + 1]
    length_payload_lt := by
      have hPos := List.length_pos_iff.mpr r.payload_ne_nil
      rw [List.length_append, List.length_dropLast, List.length_singleton, Nat.sub_add_cancel hPos]
      exact r.length_payload_lt
    payload_ne_nil := List.append_ne_nil_of_right_ne_nil _ (List.cons_ne_nil _ _) }

theorem length_payload_altered (r : CommandRecord) : (altered r).payload.length = r.payload.length := by
  have hPos := List.length_pos_iff.mpr r.payload_ne_nil
  change (r.payload.dropLast ++ [_]).length = _
  rw [List.length_append, List.length_dropLast, List.length_singleton, Nat.sub_add_cancel hPos]

theorem payload_altered_ne (r : CommandRecord) : (altered r).payload ≠ r.payload := by
  intro hEq
  have hLast : r.payload.dropLast ++ [r.payload.getLast r.payload_ne_nil + 1] =
      r.payload.dropLast ++ [r.payload.getLast r.payload_ne_nil] :=
    hEq.trans (List.dropLast_append_getLast r.payload_ne_nil).symm
  have hByte := List.singleton_inj.mp (List.append_cancel_left hLast)
  exact absurd (UInt8.add_eq_left.mp hByte) (by decide)

theorem length_idFirst_altered (r : CommandRecord) : (idFirst (altered r)).length = (idFirst r).length := by
  rw [length_idFirst, length_idFirst, length_payload_altered, length_header, length_header,
    Record.length_payloadLength, Record.length_payloadLength, Record.length_idLength, Record.length_idLength]
  rfl

theorem prefix_altered {message : List UInt8} {r : CommandRecord} (h : message <+: idFirst r)
    (hShort : message.length < (idFirst r).length) : message <+: idFirst (altered r) := by
  have hHeader : (altered r).header = r.header := by
    simp only [Record.header, Record.payloadLength, length_payload_altered]
    rfl
  have hEnd : idFirst r = r.header ++ (r.id ++ (appConfigCmdType ++ r.payload.dropLast)) ++
      [r.payload.getLast r.payload_ne_nil] := by
    simp only [idFirst, List.append_assoc, List.dropLast_append_getLast]
  have hEnd' : idFirst (altered r) = r.header ++ (r.id ++ (appConfigCmdType ++ r.payload.dropLast)) ++
      [r.payload.getLast r.payload_ne_nil + 1] := by
    rw [idFirst, hHeader]
    simp only [List.append_assoc]
    rfl
  rw [hEnd, List.prefix_concat_iff] at h
  rw [hEnd']
  rcases h with hWhole | hBefore
  · rw [hEnd, hWhole] at hShort
    exact absurd hShort (Nat.lt_irrefl _)
  · exact hBefore.trans (List.prefix_append _ _)

/-- The message's length in front of whatever the buffer holds. -/
def tagFile (message : Payload) (msg : List UInt8) : List UInt8 :=
  be16 (UInt16.ofNat message.bytes.length) ++ msg

/-- A record with zeros behind it. -/
def filled (r : CommandRecord) (capacity : Nat) : List UInt8 :=
  idFirst r ++ List.replicate (capacity - (idFirst r).length) 0

theorem length_filled {r : CommandRecord} {capacity : Nat} (h : (idFirst r).length ≤ capacity) :
    (filled r capacity).length = capacity := by
  rw [filled, List.length_append, List.length_replicate, Nat.add_sub_cancel' h]

section TagFile

variable {lib : NdefFileLib} {message : Payload} {size : Nat} {msg : List UInt8}

theorem length_tagFile (hTwo : 2 ≤ size) (hLength : msg.length = size - 2) : (tagFile message msg).length = size := by
  rw [tagFile, List.length_append, length_be16, hLength, Nat.add_sub_cancel' hTwo]

/-- A buffer with any bytes behind the message. -/
def tagBuffer (message : Payload) (msg : List UInt8) (hTwo : 2 ≤ size) (hLength : msg.length = size - 2)
    (hSize : size < 2 ^ 32) : Buffer :=
  ⟨tagFile message msg, (length_tagFile hTwo hLength).trans_lt hSize⟩

variable (hTwo : 2 ≤ size) (hLength : msg.length = size - 2) (hSize : size < 2 ^ 32)

theorem holds_tagBuffer (hPrefix : message.bytes <+: msg) :
    Holds message size (tagBuffer message msg hTwo hLength hSize) := by
  have hNlen : fileLength (tagFile message msg) = message.bytes.length := by
    rw [fileLength, tagFile, readBe16_be16]
    exact UInt16.toNat_ofNat_of_lt' message.length_lt
  refine ⟨length_tagFile hTwo hLength, hNlen, ?_⟩
  change fileMessage (tagFile message msg) = message.bytes
  rw [fileMessage, hNlen]
  change msg.take _ = _
  obtain ⟨rest, rfl⟩ := hPrefix
  exact List.take_left

theorem commandFrame_tagBuffer (hLib : lib.Documented) {r : CommandRecord} {rest : List UInt8}
    (hMsg : msg = idFirst r ++ rest) (hPrefix : message.bytes <+: msg) :
    commandFrame lib (tagBuffer message msg hTwo hLength hSize) = .ok (some r.payload) := by
  have hLen := (holds_tagBuffer hTwo hLength hSize hPrefix).length hLib hTwo
  obtain rfl := hMsg
  rw [commandFrame, hLib.msgOffset]
  exact ndefFrame_idFirst r hLen

theorem not_sameCommand_of_mayWrap (hLib : lib.Documented) (hTwo : 2 ≤ size) (hSize : size < 2 ^ 32)
    (h : MayWrap message.bytes (size - 2)) : ∃ buf, Holds message size buf ∧ ¬ SameCommand lib buf buf := by
  obtain ⟨msg, hPrefix, hLength, hWraps⟩ := h
  have hHolds := holds_tagBuffer hTwo hLength hSize hPrefix
  refine ⟨_, hHolds, ?_⟩
  rintro ⟨frame, hFrame, -⟩
  exact (exists_commandFrame_iff hLib (hTwo.trans hHolds.size.ge)).mp ⟨frame, hFrame⟩ hWraps

theorem not_sameCommand_of_cutsCommand (hLib : lib.Documented) (hTwo : 2 ≤ size) (hSize : size < 2 ^ 32)
    (hCut : CutsCommand message.bytes (size - 2)) :
    ∃ b₁ b₂, Holds message size b₁ ∧ Holds message size b₂ ∧ ¬ SameCommand lib b₁ b₂ := by
  obtain ⟨r, hPrefix, hShort, hFits⟩ := hCut
  have hFits' : (idFirst (altered r)).length ≤ size - 2 := length_idFirst_altered r ▸ hFits
  have hCompleted : message.bytes <+: filled r (size - 2) := hPrefix.trans (List.prefix_append _ _)
  have hCompleted' : message.bytes <+: filled (altered r) (size - 2) :=
    (prefix_altered hPrefix hShort).trans (List.prefix_append _ _)
  refine ⟨_, _, holds_tagBuffer hTwo (length_filled hFits) hSize hCompleted,
    holds_tagBuffer hTwo (length_filled hFits') hSize hCompleted', ?_⟩
  rintro ⟨frame, hFrame, hFrame'⟩
  rw [commandFrame_tagBuffer hTwo (length_filled hFits) hSize hLib rfl hCompleted] at hFrame
  rw [commandFrame_tagBuffer hTwo (length_filled hFits') hSize hLib rfl hCompleted'] at hFrame'
  exact payload_altered_ne r (Option.some.inj (Except.ok.inj (hFrame'.trans hFrame.symm)))

end TagFile

/-- What lies behind a message has no influence unless the message breaks off a command record or
may take the parser out of the buffer. -/
theorem staleFree_iff {lib : NdefFileLib} (hLib : lib.Documented) {message : Payload} {size : Nat}
    (hFits : message.bytes.length + 2 ≤ size) (hSize : size < 2 ^ 32) :
    StaleFree lib message size ↔ ¬ CutsCommand message.bytes (size - 2) ∧ ¬ MayWrap message.bytes (size - 2) := by
  have hTwo : 2 ≤ size := (Nat.le_add_left 2 _).trans hFits
  constructor
  · intro hFree
    constructor
    · intro hCut
      obtain ⟨b₁, b₂, h₁, h₂, hDiffer⟩ := not_sameCommand_of_cutsCommand hLib hTwo hSize hCut
      exact hDiffer (hFree b₁ b₂ h₁ h₂).1
    · intro hWrap
      obtain ⟨buf, h, hLeaves⟩ := not_sameCommand_of_mayWrap hLib hTwo hSize hWrap
      exact hLeaves (hFree buf buf h h).1
  · rintro ⟨hCut, hInside⟩ b₁ b₂ h₁ h₂
    have hSame := sameCommand_of_not_cutsCommand hLib hTwo h₁ h₂ hCut hInside
    exact ⟨hSame, sameOutcome_of_sameCommand hLib hTwo h₁ h₂ hSame⟩

/-! ### A whole record -/

section Whole

variable {r : CommandRecord} {msg : List UInt8} {msgLen : UInt32}

theorem headerLength_idFirst (r : CommandRecord) (rest : List UInt8) :
    headerLength (idFirst r ++ rest) = r.header.length + r.id.length := by
  rw [idFirst, List.append_assoc]
  exact headerLength_header r.toRecord _

/-- A record that is there to its last byte is no part of another one. -/
theorem not_cutsCommand_idFirst (r : CommandRecord) {capacity : Nat} (hCapacity : capacity < 2 ^ 32) :
    ¬ CutsCommand (idFirst r) capacity := by
  rintro ⟨r', ⟨rest, hRest⟩, hShort, hFits⟩
  have hLength : (idFirst r' ++ []).length = (UInt32.ofNat (idFirst r').length).toNat := by
    rw [List.append_nil]
    exact (UInt32.toNat_ofNat_of_lt' (hFits.trans_lt hCapacity)).symm
  have hSame : idFirst r' ++ [] = idFirst r ++ rest := (List.append_nil _).trans hRest.symm
  have hHeader :=
    (headerLength_idFirst r' []).symm.trans ((congrArg headerLength hSame).trans (headerLength_idFirst r rest))
  have hFrame := ndefFrame_idFirst r' hLength
  rw [hSame] at hFrame hLength
  have hPayload :=
    congrArg List.length (Option.some.inj (Except.ok.inj ((ndefFrame_idFirst r hLength).symm.trans hFrame)))
  rw [length_idFirst, length_idFirst] at hShort
  omega

theorem not_mayWrap_idFirst (r : CommandRecord) {capacity : Nat} (hCapacity : capacity < 2 ^ 32) :
    ¬ MayWrap (idFirst r) capacity := by
  rintro ⟨msg, ⟨rest, rfl⟩, hLength, hWraps⟩
  have hLt : (idFirst r ++ rest).length < 2 ^ 32 := hLength.trans_lt hCapacity
  have hFrame := @ndefFrame_idFirst r rest _ (Buffer.toNat_length ⟨idFirst r ++ rest, hLt⟩).symm
  exact (exists_frame_iff ⟨idFirst r ++ rest, hLt⟩).mp ⟨_, hFrame⟩ hWraps

end Whole

/-- POWER ON, to its last byte. -/
def powerOnMessage : Payload := ⟨idFirst plainRecord, by decide⟩

theorem staleFree_powerOnMessage : StaleFree t4tNdefFile powerOnMessage 300 :=
  (staleFree_iff documented_t4tNdefFile (by decide) (by decide)).mpr
    ⟨not_cutsCommand_idFirst plainRecord (by decide), not_mayWrap_idFirst plainRecord (by decide)⟩

/-- POWER ON without its last byte. -/
def brokenOff : Payload := ⟨plainRecord.bytes.take 19, by decide⟩

theorem length_filled_plainRecord : (filled plainRecord 298).length = 300 - 2 := length_filled (by decide)

theorem length_filled_altered : (filled (altered plainRecord) 298).length = 300 - 2 := length_filled (by decide)

def completedByOn : Buffer :=
  tagBuffer brokenOff (filled plainRecord 298) (by decide) length_filled_plainRecord (by decide)

def completedByOff : Buffer :=
  tagBuffer brokenOff (filled (altered plainRecord) 298) (by decide) length_filled_altered (by decide)

theorem brokenOff_not_staleFree :
    Holds brokenOff 300 completedByOn ∧ Holds brokenOff 300 completedByOff ∧
      ¬ SameOutcome t4tNdefFile idleEnv boot completedByOn completedByOff := by
  have hTwo : 2 ≤ 300 := by decide
  have hBrokenOff : brokenOff.bytes <+: idFirst plainRecord := List.take_prefix 19 _
  have hPrefix : brokenOff.bytes <+: filled plainRecord 298 := hBrokenOff.trans (List.prefix_append _ _)
  have hPrefix' : brokenOff.bytes <+: filled (altered plainRecord) 298 :=
    (prefix_altered hBrokenOff (by decide)).trans (List.prefix_append _ _)
  have hOn : Holds brokenOff 300 completedByOn := holds_tagBuffer hTwo length_filled_plainRecord (by decide) hPrefix
  have hOff : Holds brokenOff 300 completedByOff := holds_tagBuffer hTwo length_filled_altered (by decide) hPrefix'
  refine ⟨hOn, hOff, ?_⟩
  rintro ⟨flag, d', file₁, file₂, hSame, hSame', -⟩
  obtain ⟨_, _, hRunOn⟩ := @device_of_frame _ idleEnv boot _ documented_t4tNdefFile (hTwo.trans hOn.size.ge) _
    (commandFrame_tagBuffer hTwo length_filled_plainRecord (by decide) documented_t4tNdefFile rfl hPrefix)
  obtain ⟨_, _, hRunOff⟩ := @device_of_frame _ idleEnv boot _ documented_t4tNdefFile (hTwo.trans hOff.size.ge) _
    (commandFrame_tagBuffer hTwo length_filled_altered (by decide) documented_t4tNdefFile rfl hPrefix')
  have hOnState := congrArg (fun r : Bool × Device × List UInt8 => r.2.1.fields.deviceState)
    (Except.ok.inj (hRunOn.symm.trans hSame))
  have hOffState := congrArg (fun r : Bool × Device × List UInt8 => r.2.1.fields.deviceState)
    (Except.ok.inj (hRunOff.symm.trans hSame'))
  have hPowered : (handleRequest idleEnv boot .nfc (frameRequest plainRecord.payload)).1.fields.deviceState =
      .powerOn := rfl
  have hRefused : (handleRequest idleEnv boot .nfc (frameRequest (altered plainRecord).payload)).1.fields.deviceState =
      .factory := rfl
  exact absurd (hPowered.symm.trans (hOnState.trans (hOffState.symm.trans hRefused))) (by decide)

end IotRange.StaleTag
