import IotRange.Retransmission
import IotRange.WriteAcceptance

/-! # Writes in several requests

On an open channel it makes no difference how TLVs are put into requests. The write that a factory-fresh
device takes from anybody is one request, and what follows it needs authentication.
-/
namespace IotRange.WriteBatches
open AppAuth AppFields AppTlv AppProtocol AppConfig Device Retransmission WriteAcceptance
set_option autoImplicit false

/-- A CMD 0x02 that passes the validation. -/
structure Batch where
  req : Payload
  ts : List Tlv
  valid : ValidWrite req ts
  fits : ts.length ≤ writeCacheMax

def Batch.deliver (channel : Channel) (p : Env × Batch) : Event := Retransmission.deliver channel p.2.req p.1

section Stores

theorem applyCache_append (f : Store) (ts us : List Tlv) : applyCache f (ts ++ us) = applyCache (applyCache f ts) us :=
  List.foldl_append

/-- Two writes are one write of all their TLVs. -/
theorem applyWrite_applyWrite (f : Store) (ts us : List Tlv) :
    applyWrite (applyWrite f ts) us = applyWrite f (ts ++ us) := by
  rw [applyWrite, if_neg (by rw [writeExempt_applyWrite]; exact Bool.false_ne_true), applyWrite, applyWrite]
  split
  · rw [applyCache_appFieldMarkFactoryInitDone, applyCache_append]
  · rw [applyCache_append]

end Stores

section Runs

variable {channel : Channel} {d : Device}

theorem handle_batch (b : Batch) (env : Env) (d : Device) :
    handle channel b.req env d =
      if writeExempt d.fields = true ∨ Writable d.auth channel env.uptime then
        { d with fields := applyWrite d.fields b.ts }
      else checked env.uptime channel d :=
  handle_of_parseWrite (hasCmd_of_validWrite b.valid) (parseWrite_of_validWrite b.valid b.fits) env d

theorem next_batch (p : Env × Batch) (d : Device) :
    machine.next d (Batch.deliver channel p) = handle channel p.2.req p.1 d :=
  next_deliver d p.1

theorem run_batches {bs : List (Env × Batch)} (hNonempty : bs ≠ [])
    (hOpen : ∀ p ∈ bs, Writable d.auth channel p.1.uptime) :
    machine.run d (bs.map (Batch.deliver channel)) =
      { d with fields := applyWrite d.fields (bs.flatMap fun p => p.2.ts) } := by
  induction bs generalizing d with
  | nil => exact absurd rfl hNonempty
  | cons p bs ih =>
    rw [List.forall_mem_cons] at hOpen
    rw [List.map_cons, Machine.run_cons, next_batch, handle_batch, if_pos (.inr hOpen.1), List.flatMap_cons]
    by_cases hLast : bs = []
    · rw [hLast, List.flatMap_nil, List.append_nil]
      rfl
    · rw [@ih { d with fields := applyWrite d.fields p.2.ts } hLast hOpen.2, applyWrite_applyWrite]

/-- On an open channel only the TLVs and their order count, not the requests they come in. -/
theorem regrouped {bs bs' : List (Env × Batch)} (hNonempty : bs ≠ []) (hNonempty' : bs' ≠ [])
    (hSame : (bs.flatMap fun p => p.2.ts) = bs'.flatMap fun p => p.2.ts)
    (hOpen : ∀ p ∈ bs, Writable d.auth channel p.1.uptime) (hOpen' : ∀ p ∈ bs', Writable d.auth channel p.1.uptime) :
    machine.run d (bs.map (Batch.deliver channel)) = machine.run d (bs'.map (Batch.deliver channel)) := by
  rw [run_batches hNonempty hOpen, run_batches hNonempty' hOpen', hSame]

/-- A closed channel takes no further write once the factory state is left. -/
theorem fields_run_of_closed {bs : List (Env × Batch)} (hExempt : writeExempt d.fields = false)
    (hClosed : ∀ p ∈ bs, ¬ Writable d.auth channel p.1.uptime) :
    (machine.run d (bs.map (Batch.deliver channel))).fields = d.fields := by
  induction bs generalizing d with
  | nil => rfl
  | cons p bs ih =>
    rw [List.forall_mem_cons] at hClosed
    have hRefused : ¬ (writeExempt d.fields = true ∨ Writable d.auth channel p.1.uptime) :=
      not_or.mpr ⟨by rw [hExempt]; exact Bool.false_ne_true, hClosed.1⟩
    rw [List.map_cons, Machine.run_cons, next_batch, handle_batch, if_neg hRefused]
    exact ih hExempt fun q _ => not_writable_checked hClosed.1 q.1.uptime

/-- Without a session the first write on a factory-fresh device is all of its provisioning. -/
theorem first_only {first : Env × Batch} {rest : List (Env × Batch)} (hExempt : writeExempt d.fields = true)
    (hClosed : ∀ p ∈ rest, ¬ Writable d.auth channel p.1.uptime) :
    (machine.run d ((first :: rest).map (Batch.deliver channel))).fields = applyWrite d.fields first.2.ts := by
  rw [List.map_cons, Machine.run_cons, next_batch, handle_batch, if_pos (.inl hExempt)]
  exact fields_run_of_closed (writeExempt_applyWrite d.fields first.2.ts) hClosed

end Runs

/-! ## The mode, once and twice -/

section Examples

theorem validWrite_modeWrite : ValidWrite WriteCommand.modeWrite [WriteCommand.modeTlv] := by
  refine ⟨rfl, by decide, by decide, ?_⟩
  rw [List.forall_mem_singleton]
  rfl

def modeBatch : Batch := ⟨WriteCommand.modeWrite, [WriteCommand.modeTlv], validWrite_modeWrite, by decide⟩

def twoModes : Payload := ⟨[0x02, 0x02] ++ encodeAll (List.replicate 2 WriteCommand.modeTlv), by decide⟩

theorem validWrite_twoModes : ValidWrite twoModes (List.replicate 2 WriteCommand.modeTlv) := by
  refine ⟨rfl, by decide, by decide, fun t hMem => ?_⟩
  obtain rfl := List.eq_of_mem_replicate hMem
  rfl

def twoModesBatch : Batch := ⟨twoModes, List.replicate 2 WriteCommand.modeTlv, validWrite_twoModes, by decide⟩

def at5 : Env := ⟨5, List.Vector.replicate 8 0⟩

def openDevice : Device := { boot with auth := { boot.auth with bleUnlocked := true } }

theorem regrouped_modes :
    machine.run openDevice ([(at5, modeBatch), (at5, modeBatch)].map (Batch.deliver .ble)) =
      machine.run openDevice ([(at5, twoModesBatch)].map (Batch.deliver .ble)) :=
  regrouped (List.cons_ne_nil _ _) (List.cons_ne_nil _ _) rfl (fun _ _ => rfl) (fun _ _ => rfl)

theorem first_only_boot :
    (machine.run boot ([(at5, modeBatch), (at5, modeBatch)].map (Batch.deliver .nfc))).fields =
      applyWrite boot.fields [WriteCommand.modeTlv] :=
  @first_only .nfc boot (at5, modeBatch) [(at5, modeBatch)] rfl fun _ _ hStatus => by cases hStatus

end Examples

end IotRange.WriteBatches
