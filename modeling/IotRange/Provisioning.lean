import IotRange.ReadBack

/-! # Free provisioning

A write without authentication spends the factory state's exemption, which only a factory reset
restores.
-/
namespace IotRange.Provisioning
open AppAuth AppFields AppTlv AppProtocol AppConfig Device ReadBack
set_option autoImplicit false

/-! ## The device state and the factory-init flag -/

/-- The invariant that makes FACTORY and the exemption agree. -/
def Fresh (f : Store) : Prop := f.deviceState = .factory → f.factoryInitDone = false

theorem writeExempt_iff {f : Store} (h : Fresh f) : writeExempt f = true ↔ f.deviceState = .factory := by
  rw [writeExempt, decide_eq_true_eq, and_iff_left_iff_imp]
  intro hFactory
  simp [h hFactory]

theorem deviceState_of_writeExempt {f : Store} (h : writeExempt f = true) : f.deviceState = .factory :=
  (of_decide_eq_true h).1

theorem fresh_applyWrite {f : Store} (cache : List Tlv) (h : Fresh f) : Fresh (applyWrite f cache) := by
  intro hFactory
  rw [deviceState_applyWrite] at hFactory
  split at hFactory
  · cases hFactory
  · rename_i hExempt
    exact absurd ((writeExempt_iff h).mpr hFactory) hExempt

theorem fresh_apply {env : Env} {s : AppState} {channel : Channel} {req : Payload} (h : Fresh s.fields) :
    Fresh ((fieldEffect env s channel req).apply s.fields) := by
  rcases fieldEffect_cases env s channel req with hEq | ⟨ts, hEq⟩ | ⟨cache, -, -, -, hEq⟩ | ⟨-, hEq⟩ | ⟨-, -, hEq⟩ |
    ⟨-, -, -, hEq⟩ <;> rw [hEq]
  · exact h
  · exact h
  · exact fresh_applyWrite cache h
  · nofun
  · nofun
  · intro _
    rfl

theorem fresh_next {d : Device} (e : Event) (h : Fresh d.fields) : Fresh (machine.next d e).fields := by
  cases hInput : e.input with
  | request c rand req =>
    rw [fields_next_of_request hInput]
    exact fresh_apply h
  | bleDisconnect =>
    rw [fields_next_of_disconnect hInput]
    exact h

theorem fresh_of_reachable {d : Device} (h : Reachable d) : Fresh d.fields := by
  obtain ⟨es, rfl⟩ := h
  have hBoot : Fresh boot.fields := fun _ => rfl
  exact machine.run_invariant (fun d e (hFresh : Fresh d.fields) => fresh_next e hFresh) boot es hBoot

def ReadsFactory (d : Device) : Prop :=
  ∀ env c stamp, (processAppPayload env d.toAppState c (readOne stamp fieldDeviceState) appProtoRespMax).2 =
    readReply fieldDeviceState [DeviceState.factory.code]

theorem readsFactory_iff (d : Device) : ReadsFactory d ↔ d.fields.deviceState = .factory := by
  have hRead : ∀ env c stamp,
    (processAppPayload env d.toAppState c (readOne stamp fieldDeviceState) appProtoRespMax).2 =
      readReply fieldDeviceState [d.fields.deviceState.code] :=
    fun env c stamp => reply_readOne env d.toAppState c stamp rfl (by decide)
  constructor
  · intro h
    have hReply := (hRead ⟨0, List.Vector.replicate 8 0⟩ .ble 0).symm.trans (h _ _ _)
    exact DeviceState.code_injective (List.singleton_inj.mp (List.append_cancel_left hReply))
  · intro h env c stamp
    rw [hRead, h]

/-! ## One free write per epoch -/

def WriteAccepted (d : Device) (e : Event) : Prop :=
  e.IsRequest fun _ data => HasCmd cmdWrite data ∧ AnsweredOk (machine.output d e)

def FreeWrite (d : Device) (e : Event) : Prop :=
  e.IsRequest fun c data => HasCmd cmdWrite data ∧ AnsweredOk (machine.output d e) ∧ ¬ Writable d.auth c e.uptime

def ResetAccepted (d : Device) (e : Event) : Prop :=
  e.IsRequest fun _ data => IsAction 0x03 data ∧ AnsweredOk (machine.output d e)

def PowerOn (e : Event) : Prop := e.IsRequest fun _ data => IsAction 0x01 data

instance : DecidableRel FreeWrite := fun _ _ => inferInstanceAs (Decidable (Event.IsRequest _ _))
instance : DecidableRel ResetAccepted := fun _ _ => inferInstanceAs (Decidable (Event.IsRequest _ _))

section Steps

variable {d : Device} {e : Event}

theorem write_of_accepted (h : WriteAccepted d e) :
    ∃ c rand req cache, e.input = .request c rand req ∧ parseWrite req = .ok cache ∧
      (writeExempt d.fields = true ∨ Writable d.auth c e.uptime) ∧
      (machine.next d e).fields = applyWrite d.fields cache := by
  obtain ⟨c, rand, req, hInput, hCmd, hOk⟩ := isRequest_iff.mp h
  rw [output_of_request hInput (not_isOta_of_write hCmd)] at hOk
  obtain ⟨cache, hParse, hAllowed, hState⟩ := applied_of_answeredOk hCmd hOk
  refine ⟨c, rand, req, cache, hInput, hParse, hAllowed, ?_⟩
  rw [Machine.next, step_of_request hInput, toAppState_handleRequest, hState]

theorem writeAccepted_of_freeWrite (h : FreeWrite d e) : WriteAccepted d e := by
  obtain ⟨c, rand, req, hInput, hCmd, hOk, -⟩ := isRequest_iff.mp h
  exact isRequest_iff.mpr ⟨c, rand, req, hInput, hCmd, hOk⟩

theorem writeExempt_of_freeWrite (h : FreeWrite d e) : writeExempt d.fields = true := by
  obtain ⟨c, rand, req, cache, hInput, -, hAllowed, -⟩ := write_of_accepted (writeAccepted_of_freeWrite h)
  obtain ⟨c', rand', req', hInput', -, -, hLocked⟩ := isRequest_iff.mp h
  obtain ⟨rfl, -, -⟩ := Input.request.inj (hInput.symm.trans hInput')
  exact hAllowed.resolve_right hLocked

theorem writeExempt_next_of_accepted (h : WriteAccepted d e) : writeExempt (machine.next d e).fields = false := by
  obtain ⟨-, -, -, cache, -, -, -, hFields⟩ := write_of_accepted h
  rw [hFields, writeExempt_applyWrite]

theorem writeExempt_next_of_powerOn (h : PowerOn e) : writeExempt (machine.next d e).fields = false := by
  obtain ⟨c, rand, req, hInput, hAction⟩ := isRequest_iff.mp h
  obtain ⟨hLength, -, hSub⟩ := take_two_eq_iff.mp hAction
  rw [fields_next_of_request hInput, fieldEffect_of_action (hasCmd_of_isAction hAction), actionEffect,
    if_neg hLength, hSub]
  rfl

theorem resetAccepted_iff {c : Channel} {rand : Bytes 8} {req : Payload} (hInput : e.input = .request c rand req)
    (hReset : IsAction 0x03 req.bytes) :
    ResetAccepted d e ↔ Writable d.auth c e.uptime ∧ Confirmed req.bytes := by
  have hAnswered : AnsweredOk (machine.output d e) ↔ Writable d.auth c e.uptime ∧ Confirmed req.bytes := by
    rw [output_of_request hInput (not_isOta_of_isAction hReset)]
    exact answeredOk_reset_iff hReset (by decide)
  rw [← hAnswered, ResetAccepted, isRequest_iff]
  constructor
  · rintro ⟨-, -, -, -, -, hOk⟩
    exact hOk
  · intro hOk
    exact ⟨c, rand, req, hInput, hReset, hOk⟩

theorem writeExempt_of_next (h : writeExempt (machine.next d e).fields = true) :
    writeExempt d.fields = true ∨ ResetAccepted d e := by
  cases hInput : e.input with
  | bleDisconnect =>
    rw [fields_next_of_disconnect hInput] at h
    exact .inl h
  | request c rand req =>
    rw [fields_next_of_request hInput] at h
    rcases fieldEffect_cases ⟨e.uptime, rand⟩ d.toAppState c req with hEq | ⟨ts, hEq⟩ | ⟨cache, -, -, -, hEq⟩ |
      ⟨-, hEq⟩ | ⟨-, -, hEq⟩ | ⟨hReset, hWritable, hConfirmed, -⟩
    · rw [hEq] at h
      exact .inl h
    · rw [hEq] at h
      exact .inl h
    · rw [hEq, FieldEffect.apply, writeExempt_applyWrite] at h
      cases h
    · rw [hEq] at h
      cases deviceState_of_writeExempt h
    · rw [hEq] at h
      cases deviceState_of_writeExempt h
    · exact .inr ((resetAccepted_iff hInput hReset).mpr ⟨hWritable, hConfirmed⟩)

end Steps

theorem oneShot : machine.OneShot (fun d => writeExempt d.fields = true) ResetAccepted FreeWrite where
  required := fun _ _ h => writeExempt_of_freeWrite h
  spent := by
    intro d e h hExempt
    rw [writeExempt_next_of_accepted (writeAccepted_of_freeWrite h)] at hExempt
    cases hExempt
  armedOnly := fun _ _ h => writeExempt_of_next h

/-- FACTORY is read exactly in the exempt states, where a well-formed write is answered OK on a locked
channel. Between accepted factory resets one write at most is applied on a locked channel, and none after
an accepted write or a power on. -/
theorem free_provisioning :
    (∀ d, Reachable d → (ReadsFactory d ↔ writeExempt d.fields = true) ∧
      ∀ env c req, HasCmd cmdWrite req.bytes → (∃ cache, parseWrite req = .ok cache) →
        ¬ Writable d.auth c env.uptime → (AnsweredOk (handleRequest env d c req).2 ↔ ReadsFactory d)) ∧
      (∀ d epoch, (∀ p ∈ machine.situations d epoch, ¬ ResetAccepted p.1 p.2) →
        (machine.situations d epoch).countP (fun p => FreeWrite p.1 p.2) ≤ 1) ∧
      ∀ d e epoch, WriteAccepted d e ∨ PowerOn e →
        (∀ p ∈ machine.situations (machine.next d e) epoch, ¬ ResetAccepted p.1 p.2) →
          ∀ p ∈ machine.situations (machine.next d e) epoch, ¬ FreeWrite p.1 p.2 := by
  refine ⟨?_, ?_, ?_⟩
  · intro d hReachable
    have hReads : ReadsFactory d ↔ writeExempt d.fields = true :=
      (readsFactory_iff d).trans (writeExempt_iff (fresh_of_reachable hReachable)).symm
    refine ⟨hReads, ?_⟩
    intro env c req hCmd hParse hLocked
    rw [hReads, reply_handleRequest _ _ _ (not_isOta_of_write hCmd),
      answeredOk_write_iff hCmd (by decide)]
    obtain ⟨cache, hParse⟩ := hParse
    constructor
    · rintro ⟨-, -, hAllowed⟩
      exact hAllowed.resolve_right hLocked
    · intro hExempt
      exact ⟨cache, hParse, .inl hExempt⟩
  · intro d epoch hEpoch
    exact oneShot.countP_uses_le_one d epoch hEpoch
  · intro d e epoch hEnds hEpoch
    refine oneShot.not_uses_of_unarmed ?_ hEpoch
    rcases hEnds with hWrite | hPower
    · rw [writeExempt_next_of_accepted hWrite]
      exact Bool.false_ne_true
    · rw [writeExempt_next_of_powerOn hPower]
      exact Bool.false_ne_true

end IotRange.Provisioning
