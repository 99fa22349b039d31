import IotRange.OtaTransfer
import IotRange.Revocation

/-! # The OTA life cycle

`active` and `done` over whole runs. OTA_DATA checks that a transfer is active, OTA_END does not, so
`done` is earned in the runs whose OTA_ENDs all meet an active transfer.
-/
namespace IotRange.OtaLifeCycle
open AppAuth AppFields AppProtocol AppConfig Device History OtaTransfer
set_option autoImplicit false

def Starts (es : List Event) (e : Event) : Prop := ∃ packet, Commands cmdOtaStart packet (machine.run boot es) e

def Ends (es : List Event) (e : Event) : Prop := ∃ packet, Commands cmdOtaEnd packet (machine.run boot es) e

/-- An OTA_END that sets `done`, after an OTA_START and no other one since. -/
def Completes (es : List Event) (e : Event) : Prop :=
  Ends es e ∧ (machine.run boot es).ota.done = false ∧ Since Starts (fun es e => ¬ Starts es e) es

/-- OTA_DATA and OTA_END on an unlocked channel are refused while no transfer is active. -/
def RefusesInactive (d : Device) (es : List Event) : Prop :=
  ∀ p ∈ machine.situations d es, ∀ cmd packet, cmd = cmdOtaData ∨ cmd = cmdOtaEnd →
    Commands cmd packet p.1 p.2 → p.1.ota.active = false →
      machine.output p.1 p.2 = [cmd, Status.otaState.code] ∧ (machine.next p.1 p.2).ota = p.1.ota

structure LifeCycle (es : List Event) : Prop where
  exclusive : ¬ ((machine.run boot es).ota.active = true ∧ (machine.run boot es).ota.done = true)
  refused : RefusesInactive boot es
  /-- Since the OTA_END that set it `done` has been set. -/
  earned : (machine.run boot es).ota.done = true →
    Since Completes (fun es _ => (machine.run boot es).ota.done = true) es

section Step

variable {d : Device} {e : Event} {packet : List UInt8}

/-- A packet changes neither flag. -/
theorem exclusive_next (h : ¬ (d.ota.active = true ∧ d.ota.done = true)) :
    ¬ ((machine.next d e).ota.active = true ∧ (machine.next d e).ota.done = true) := by
  obtain ⟨packet, hStart⟩ | ⟨packet, hData⟩ | ⟨packet, hEnd⟩ | hSame := ota_next_cases d e
  · rw [ota_next_of_start hStart]
    exact fun hBoth => Bool.noConfusion hBoth.2
  · rwa [ota_next_of_data hData, (flags_otaData _ _).1, (flags_otaData _ _).2]
  · rw [ota_next_of_end hEnd]
    exact fun hBoth => Bool.noConfusion hBoth.1
  · rwa [hSame]

theorem exclusive_run (es : List Event) :
    ¬ ((machine.run boot es).ota.active = true ∧ (machine.run boot es).ota.done = true) :=
  machine.run_invariant (I := fun d => ¬ (d.ota.active = true ∧ d.ota.done = true))
    (fun _ _ h => exclusive_next h) boot es (by decide)

/-- OTA_DATA is refused without a transfer. -/
theorem refused_of_data (h : Commands cmdOtaData packet d e) (hInactive : d.ota.active = false) :
    machine.output d e = [cmdOtaData, Status.otaState.code] ∧ (machine.next d e).ota = d.ota := by
  have hRefused : otaData d.ota packet = (d.ota, [cmdOtaData, Status.otaState.code]) := by
    rw [otaData, hInactive]
    rfl
  rw [Machine.output, Machine.next, step_of_data h, hRefused]
  exact ⟨rfl, rfl⟩

theorem output_of_end (h : Commands cmdOtaEnd packet d e) : machine.output d e = [cmdOtaEnd, Status.ok.code] := by
  rw [Machine.output, step_of_end h]
  rfl

end Step

/-! ## Since the start and since the end -/

theorem since_start_of_active {es : List Event} (h : (machine.run boot es).ota.active = true) :
    Since Starts (fun es e => ¬ Starts es e) es := by
  refine since_of_raised (fun es => (machine.run boot es).ota.active = true) (by decide) ?_ es h
  intro es e hActive
  by_cases hStarts : Starts es e
  · exact .inl hStarts
  · refine .inr ⟨?_, hStarts⟩
    rw [Machine.run_append, Machine.run_cons, Machine.run_nil] at hActive
    obtain hStart | ⟨packet, hData⟩ | ⟨packet, hEnd⟩ | hSame := ota_next_cases (machine.run boot es) e
    · exact absurd hStart hStarts
    · rwa [ota_next_of_data hData, (flags_otaData _ _).1] at hActive
    · rw [ota_next_of_end hEnd] at hActive
      cases hActive
    · rwa [hSame] at hActive

/-- Every OTA_END on an unlocked channel meets an active transfer. -/
def EndsActive (es : List Event) : Prop :=
  ∀ p ∈ machine.situations boot es, ∀ packet, Commands cmdOtaEnd packet p.1 p.2 → p.1.ota.active = true

theorem endsActive_concat {es : List Event} {e : Event} (h : EndsActive (es ++ [e])) :
    EndsActive es ∧ (Ends es e → (machine.run boot es).ota.active = true) := by
  unfold EndsActive at h
  rw [Machine.situations_append] at h
  refine ⟨fun p hp => h p (List.mem_append_left _ hp), ?_⟩
  rintro ⟨packet, hEnd⟩
  exact h (machine.run boot es, e) (List.mem_append_right _ List.mem_cons_self) packet hEnd

theorem since_end_of_done {es : List Event} (h : EndsActive es) (hDone : (machine.run boot es).ota.done = true) :
    Since Completes (fun es _ => (machine.run boot es).ota.done = true) es := by
  refine since_of_raised (fun es => EndsActive es ∧ (machine.run boot es).ota.done = true) ?_ ?_ es ⟨h, hDone⟩
  · rintro ⟨-, hBoot⟩
    cases hBoot
  · rintro es e ⟨hEnds, hDone⟩
    obtain ⟨hBefore, hNow⟩ := endsActive_concat hEnds
    rw [Machine.run_append, Machine.run_cons, Machine.run_nil] at hDone
    obtain ⟨packet, hStart⟩ | ⟨packet, hData⟩ | hEnd | hSame := ota_next_cases (machine.run boot es) e
    · rw [ota_next_of_start hStart] at hDone
      cases hDone
    · rw [ota_next_of_data hData, (flags_otaData _ _).2] at hDone
      exact .inr ⟨⟨hBefore, hDone⟩, hDone⟩
    · have hActive := hNow hEnd
      refine .inl ⟨hEnd, ?_, since_start_of_active hActive⟩
      exact Bool.eq_false_iff.mpr fun hAlready => exclusive_run es ⟨hActive, hAlready⟩
    · rw [hSame] at hDone
      exact .inr ⟨⟨hBefore, hDone⟩, hDone⟩

/-- The life cycle holds of a run exactly when each of its OTA_ENDs finds the transfer that it ends. -/
theorem lifeCycle_iff (es : List Event) :
    LifeCycle es ↔ ∀ p ∈ machine.situations boot es, ∀ packet, Commands cmdOtaEnd packet p.1 p.2 →
      p.1.ota.active = true := by
  constructor
  · intro h p hp packet hEnd
    by_contra hInactive
    obtain ⟨hOutput, -⟩ := h.refused p hp cmdOtaEnd packet (.inr rfl) hEnd (Bool.eq_false_iff.mpr hInactive)
    rw [output_of_end hEnd] at hOutput
    revert hOutput
    decide
  · intro hEnds
    refine ⟨exclusive_run es, ?_, since_end_of_done hEnds⟩
    rintro p hp cmd packet (rfl | rfl) hCommands hInactive
    · exact refused_of_data hCommands hInactive
    · rw [hEnds p hp packet hCommands] at hInactive
      cases hInactive

/-! ## An OTA_END first -/

open Revocation Isolation Sessions Provisioning

def endEvent : Event := ⟨4, .request .ble noRand ⟨[cmdOtaEnd], by decide⟩⟩

theorem ota_unlockBle (d : Device) : (unlockBle d).ota = d.ota := by
  have hNonce : IsAuth authSubcmdNonce nonceRequest.bytes := rfl
  rw [unlockBle, ota_next_of_not_isOta rfl (not_isOta_of_isAuth (isToken_tokenRequest _).1),
    ota_next_of_not_isOta rfl (not_isOta_of_isAuth hNonce)]

theorem commands_endEvent (d : Device) : Commands cmdOtaEnd [cmdOtaEnd] (unlockBle d) endEvent :=
  ⟨writable_of_handshake d .ble le_top, rfl, rfl, rfl⟩

/-- An OTA_END after the handshake alone is answered OK and sets `done`. -/
theorem not_refused_endEvent (d : Device) (hInactive : d.ota.active = false) :
    ¬ RefusesInactive d [bleNonceEvent, bleTokenEvent d.auth, endEvent] := by
  intro h
  have hSituation : (unlockBle d, endEvent) ∈
      machine.situations d [bleNonceEvent, bleTokenEvent d.auth, endEvent] :=
    List.mem_cons_of_mem _ (List.mem_cons_of_mem _ List.mem_cons_self)
  have hStill : (unlockBle d).ota.active = false := (congrArg OtaState.active (ota_unlockBle d)).trans hInactive
  have hOutput := (h _ hSituation cmdOtaEnd [cmdOtaEnd] (.inr rfl) (commands_endEvent d) hStill).1
  rw [output_of_end (commands_endEvent d)] at hOutput
  revert hOutput
  decide

theorem endFirst_not_lifeCycle : ¬ LifeCycle [bleNonceEvent, bleTokenEvent boot.auth, endEvent] :=
  fun h => not_refused_endEvent boot rfl h.refused

end IotRange.OtaLifeCycle
