import IotRange.StaleTag

/-! # What falls through to the flash

The handler's `false` means that the tag holds user content. A command without a reply returns it
too, although the parser has accepted its record, and with lengths that wrap the handler reads
outside the buffer.
-/
namespace IotRange.NdefFallthrough
open AppAuth AppConfig AppProtocol AppFields Device Ndef NdefBounds NdefLayout NfcReply StaleTag
set_option autoImplicit false

/-- The handler returns, `false` for what is no command and for nothing else, and then nothing has
changed. A command is answered in the buffer. -/
def FallsThroughRight (lib : NdefFileLib) (env : Env) (d : Device) (buf : Buffer) : Prop :=
  ∃ flag d' file, appConfigHandleNdef lib env d buf = .ok (flag, d', file) ∧
    (flag = false ↔ ndefParseExtCmd (buf.bytes.drop lib.msgOffset) (lib.msgSizeGet buf.length) = .ok none) ∧
      (flag = false → d' = d ∧ file = buf.bytes) ∧ (flag = true → ∃ reply, reply ≠ [] ∧ file = replyFile buf reply)

/-- An accepted command whose request, after the cut to 16 bits of length, stays without a reply. -/
def Silent (lib : NdefFileLib) (buf : Buffer) : Prop :=
  ∃ payload, commandFrame lib buf = .ok (some payload) ∧ Unanswered (frameRequest payload).bytes

section Handler

variable {lib : NdefFileLib} {env : Env} {d : Device} {buf : Buffer}

theorem commandFrame_eq_none_iff :
    commandFrame lib buf = .ok none ↔
      ndefParseExtCmd (buf.bytes.drop lib.msgOffset) (lib.msgSizeGet buf.length) = .ok none := by
  unfold commandFrame ndefFrame
  match ndefParseExtCmd (buf.bytes.drop lib.msgOffset) (lib.msgSizeGet buf.length) with
  | .error _ => exact ⟨nofun, nofun⟩
  | .ok none => exact ⟨fun _ => rfl, fun _ => rfl⟩
  | .ok (some c) =>
    refine ⟨fun h => ?_, nofun⟩
    simp only [bind, Except.bind] at h
    split at h <;> cases h

theorem appConfigHandleNdef_of_silent (hLib : lib.Documented) (hTwo : 2 ≤ buf.bytes.length)
    {payload : List UInt8} (hFrame : commandFrame lib buf = .ok (some payload))
    (hSilent : Unanswered (frameRequest payload).bytes) :
    appConfigHandleNdef lib env d buf = .ok (false, d, buf.bytes) := by
  have hNone : handleRequest env d .nfc (frameRequest payload) = (d, []) :=
    congrArg (fun p : AppState × List UInt8 => (({ d with toAppState := p.1 } : Device), p.2))
      (processAppPayload_of_unanswered env d.toAppState .nfc appProtoRespMax hSilent)
  rw [appConfigHandleNdef_of_frame hLib hTwo hFrame]
  dsimp only
  rw [hNone, if_pos (.inl rfl)]

theorem appConfigHandleNdef_of_answered (hLib : lib.Documented) (hSize : 2 + 19 + appProtoRespMax ≤ buf.bytes.length)
    {payload : List UInt8} (hFrame : commandFrame lib buf = .ok (some payload))
    (hAnswered : ¬ Unanswered (frameRequest payload).bytes) :
    ∃ d' reply, reply ≠ [] ∧ appConfigHandleNdef lib env d buf = .ok (true, d', replyFile buf reply) := by
  have hReply : (handleRequest env d .nfc (frameRequest payload)).2 ≠ [] :=
    reply_ne_nil env d.toAppState .nfc (by decide) hAnswered
  have hMax : (handleRequest env d .nfc (frameRequest payload)).2.length ≤ appProtoRespMax :=
    (length_reply_iff env d.toAppState .nfc (frameRequest payload)).1
  rw [appConfigHandleNdef_of_frame hLib ((by decide : 2 ≤ 2 + 19 + appProtoRespMax).trans hSize) hFrame]
  dsimp only
  rw [if_neg (not_or.mpr ⟨fun hZero => hReply (List.length_eq_zero_iff.mp hZero), by omega⟩)]
  exact ⟨_, _, hReply, rfl⟩

theorem silent_iff :
    Silent lib buf ↔ ∃ req, ndefRequest (buf.bytes.drop lib.msgOffset) (lib.msgSizeGet buf.length) = .ok (some req) ∧
      Unanswered req.bytes := by
  rw [ndefRequest_eq]
  change _ ↔ ∃ req, (commandFrame lib buf).map (Option.map frameRequest) = .ok (some req) ∧ _
  constructor
  · rintro ⟨payload, hFrame, hSilent⟩
    exact ⟨frameRequest payload, by rw [hFrame]; rfl, hSilent⟩
  · rintro ⟨req, hReq, hSilent⟩
    match hFrame : commandFrame lib buf with
    | .error _ =>
      rw [hFrame] at hReq
      cases hReq
    | .ok none =>
      rw [hFrame] at hReq
      cases hReq
    | .ok (some payload) =>
      rw [hFrame] at hReq
      obtain rfl := Option.some.inj (Except.ok.inj hReq)
      exact ⟨payload, hFrame, hSilent⟩

theorem not_fallsThroughRight_of_silent (hLib : lib.Documented) (hTwo : 2 ≤ buf.bytes.length) (h : Silent lib buf) :
    ¬ FallsThroughRight lib env d buf := by
  obtain ⟨payload, hFrame, hSilent⟩ := h
  rintro ⟨flag, d', file, hRun, hFlag, -⟩
  have hFalse := Except.ok.inj (hRun.symm.trans (appConfigHandleNdef_of_silent hLib hTwo hFrame hSilent))
  have hNone := hFlag.mp (Prod.mk.inj hFalse).1
  rw [← commandFrame_eq_none_iff, hFrame] at hNone
  cases hNone

/-- A tag write falls through exactly as it should unless its lengths wrap or its command stays
without a reply. -/
theorem fallsThroughRight_iff (hLib : lib.Documented) (hSize : 2 + 19 + appProtoRespMax ≤ buf.bytes.length) :
    FallsThroughRight lib env d buf ↔ ¬ Wraps (buf.bytes.drop 2) ∧ ¬ Silent lib buf := by
  have hTwo : 2 ≤ buf.bytes.length := (by decide : 2 ≤ 2 + 19 + appProtoRespMax).trans hSize
  rw [← exists_commandFrame_iff hLib hTwo]
  constructor
  · intro hRight
    refine ⟨?_, fun hSilent => not_fallsThroughRight_of_silent hLib hTwo hSilent hRight⟩
    obtain ⟨flag, d', file, hRun, -⟩ := hRight
    exact frame_of_handle hRun
  · rintro ⟨⟨frame, hFrame⟩, hSpoken⟩
    unfold FallsThroughRight
    rw [← commandFrame_eq_none_iff]
    cases frame with
    | none =>
      exact ⟨false, d, buf.bytes, appConfigHandleNdef_of_frame hLib hTwo hFrame, by simp [hFrame], fun _ => ⟨rfl, rfl⟩,
        fun h => by cases h⟩
    | some payload =>
      have hAnswered : ¬ Unanswered (frameRequest payload).bytes := fun hSilent =>
        hSpoken ⟨payload, hFrame, hSilent⟩
      obtain ⟨d', reply, hReply, hTrue⟩ := @appConfigHandleNdef_of_answered _ env d _ hLib hSize _ hFrame hAnswered
      exact ⟨true, d', _, hTrue, by simp [hFrame], fun h => (by cases h), fun _ => ⟨reply, hReply, rfl⟩⟩

end Handler

theorem size_commandBuffer {req : List UInt8} (h : req.length < 256) :
    2 + 19 + appProtoRespMax ≤ (commandBuffer req h).bytes.length := by
  rw [commandBuffer, length_commandFile]
  exact Nat.le_trans (by decide) (Nat.le_add_right 320 _)

/-- The payload of a short record does not wrap. -/
theorem not_wraps_commandBuffer {req : Payload} (hNonempty : req.bytes ≠ []) (hShort : req.bytes.length < 256) :
    ¬ Wraps ((commandBuffer req.bytes hShort).bytes.drop 2) := by
  have hTwo : 2 ≤ (commandBuffer req.bytes hShort).bytes.length :=
    (by decide : 2 ≤ 2 + 19 + appProtoRespMax).trans (size_commandBuffer hShort)
  refine (exists_commandFrame_iff documented_t4tNdefFile hTwo).mp ?_
  have hReq := ndefRequest_commandBuffer hNonempty hShort
  rw [ndefRequest_eq] at hReq
  cases hFrame : commandFrame t4tNdefFile (commandBuffer req.bytes hShort) with
  | ok frame => exact ⟨frame, rfl⟩
  | error e =>
    rw [show ndefFrame _ _ = _ from hFrame] at hReq
    cases hReq

theorem fallsThroughRight_lock :
    FallsThroughRight t4tNdefFile idleEnv boot (commandBuffer lockReq.bytes (by decide)) := by
  refine (fallsThroughRight_iff documented_t4tNdefFile (size_commandBuffer (by decide))).mpr
    ⟨not_wraps_commandBuffer (by decide) (by decide), ?_⟩
  rw [silent_iff]
  rintro ⟨req, hReq, hSilent⟩
  rw [ndefRequest_commandBuffer (by decide) (by decide)] at hReq
  obtain rfl := Option.some.inj (Except.ok.inj hReq)
  exact absurd hSilent (by decide)

/-- CMD 0x03 without a sub-command. -/
def bareAuthReq : Payload := ⟨[0x03], by decide⟩

theorem bareAuth_falls_through :
    ¬ FallsThroughRight t4tNdefFile idleEnv boot (commandBuffer bareAuthReq.bytes (by decide)) := by
  have hTwo : 2 ≤ (commandBuffer bareAuthReq.bytes (by decide)).bytes.length :=
    (by decide : 2 ≤ 2 + 19 + appProtoRespMax).trans (size_commandBuffer (by decide))
  exact not_fallsThroughRight_of_silent documented_t4tNdefFile hTwo
    (silent_iff.mpr ⟨bareAuthReq, ndefRequest_commandBuffer (by decide) (by decide), .inr rfl⟩)

end IotRange.NdefFallthrough
