import IotRange.Library.Machine
import IotRange.NdefFile

/-! # Handing the NDEF file to the flash (main.c)

The NFC library writes the tag and calls back from one context, one event after another; the main
loop runs beside it. Each access to what the two share is a step of its own.
-/
namespace IotRange.FlashUpdate
open NdefFile
set_option autoImplicit false

def nlenFieldSize : Nat := 2

inductive OpFlags
  | writeFinished
  | bufPrepStarted
  | bufPrepFinished
  | writeStarted
  deriving DecidableEq

/-- The next step of `flash_buffer_prepare`; `idle` is outside of it. -/
inductive Callback
  | idle
  | cas (dataLength : Nat)
  | storeLength (dataLength : Nat)
  | copy
  | setFlag
  | give

/-- The next step of the loop in `main`. -/
inductive MainLoop
  | take
  | cas
  | update
  | reset
  deriving DecidableEq

structure State (size : Nat) (Fs : Type) where
  ndefMsgBuf : Bytes size
  opFlags : OpFlags
  flashBuf : Bytes size
  flashBufLen : UInt8
  nfcWriteSem : Nat
  callback : Callback
  loop : MainLoop
  fs : Fs

/-- The static variables, after `ndef_file_load` has filled `ndef_msg_buf`. -/
def State.boot {size : Nat} {Fs : Type} (ndefMsgBuf : Bytes size) (fs : Fs) : State size Fs where
  ndefMsgBuf := ndefMsgBuf
  opFlags := .writeFinished
  flashBuf := List.Vector.replicate size 0
  flashBufLen := 0
  nfcWriteSem := 0
  callback := .idle
  loop := .take
  fs := fs

/-- A tag write, NFC_T4T_EVENT_NDEF_UPDATED with what `app_config_handle_ndef` returns and leaves in
the buffer, and the next step of either side. -/
inductive Input (size : Nat)
  | write (file : Bytes size)
  | updated (dataLength : Nat) (handled : Bool) (file : Bytes size)
  | callback
  | loop

section Step

variable {size : Nat} (files : FileSystem)

def nfcCallback (s : State size files.Fs) (dataLength : Nat) (handled : Bool) (file : Bytes size) :
    State size files.Fs :=
  if 0 < dataLength then
    if !handled then { s with ndefMsgBuf := file, callback := .cas dataLength } else { s with ndefMsgBuf := file }
  else s

def flashBufferPrepare (s : State size files.Fs) : State size files.Fs :=
  match s.callback with
  | .idle => s
  | .cas dataLength =>
    if s.opFlags = .writeFinished then { s with opFlags := .bufPrepStarted, callback := .storeLength dataLength }
    else { s with callback := .idle }
  | .storeLength dataLength =>
    { s with flashBufLen := UInt8.ofNat (dataLength + nlenFieldSize), callback := .copy }
  | .copy => { s with flashBuf := s.ndefMsgBuf, callback := .setFlag }
  | .setFlag => { s with opFlags := .bufPrepFinished, callback := .give }
  | .give => { s with nfcWriteSem := min (s.nfcWriteSem + 1) 1, callback := .idle }

/-- `k_sem_take` stays where it is while the count is 0. The output is what `ndef_file_update` gets. -/
def mainLoop (s : State size files.Fs) : State size files.Fs × Option (List UInt8) :=
  match s.loop with
  | .take => (if s.nfcWriteSem = 0 then s else { s with nfcWriteSem := s.nfcWriteSem - 1, loop := .cas }, none)
  | .cas =>
    (if s.opFlags = .bufPrepFinished then { s with opFlags := .writeStarted, loop := .update }
      else { s with loop := .take }, none)
  | .update =>
    ({ s with fs := (ndefFileUpdate files s.fs s.flashBuf.toList s.flashBufLen.toNat).1, loop := .reset },
      some (s.flashBuf.toList.take s.flashBufLen.toNat))
  | .reset => ({ s with opFlags := .writeFinished, loop := .take }, none)

/-- An event of the NFC library waits for the callback before it. -/
def step (s : State size files.Fs) : Input size → State size files.Fs × Option (List UInt8)
  | .write file =>
    (match s.callback with
      | .idle => { s with ndefMsgBuf := file }
      | _ => s, none)
  | .updated dataLength handled file =>
    (match s.callback with
      | .idle => nfcCallback files s dataLength handled file
      | _ => s, none)
  | .callback => (flashBufferPrepare files s, none)
  | .loop => mainLoop files s

def machine (size : Nat) : Machine (State size files.Fs) (Input size) (Option (List UInt8)) := ⟨step files⟩

def Reachable (s : State size files.Fs) : Prop :=
  ∃ ndefMsgBuf fs is, s = (machine files size).run (.boot ndefMsgBuf fs) is

section Events

variable (s : State size files.Fs) (dataLength : Nat) (handled : Bool) (file : Bytes size)

/-- An event either waits or is taken up by an idle callback. -/
theorem next_write_cases :
    (machine files size).next s (.write file) = s ∨
      s.callback = .idle ∧ (machine files size).next s (.write file) = { s with ndefMsgBuf := file } := by
  obtain ⟨ndefMsgBuf, opFlags, flashBuf, flashBufLen, nfcWriteSem, callback, loop, fs⟩ := s
  cases callback with
  | idle => exact .inr ⟨rfl, rfl⟩
  | _ => exact .inl rfl

variable {s} in
theorem next_updated_of_idle (h : s.callback = .idle) :
    (machine files size).next s (.updated dataLength handled file) = nfcCallback files s dataLength handled file := by
  obtain ⟨ndefMsgBuf, opFlags, flashBuf, flashBufLen, nfcWriteSem, callback, loop, fs⟩ := s
  cases h
  rfl

theorem next_updated_cases :
    (machine files size).next s (.updated dataLength handled file) = s ∨
      s.callback = .idle ∧ (machine files size).next s (.updated dataLength handled file) =
        nfcCallback files s dataLength handled file := by
  obtain ⟨ndefMsgBuf, opFlags, flashBuf, flashBufLen, nfcWriteSem, callback, loop, fs⟩ := s
  cases callback with
  | idle => exact .inr ⟨rfl, rfl⟩
  | _ => exact .inl rfl

end Events

end Step

/-! ## Where both sides can be -/

/-- The steps that `flash_buffer_prepare` has left. -/
def callbackSteps : Callback → Nat
  | .idle => 0
  | .give => 1
  | .setFlag => 2
  | .copy => 3
  | .storeLength _ => 4
  | .cas _ => 5

/-- The steps of the main loop up to `ndef_file_update`, and none after it. -/
def loopSteps : MainLoop → Nat
  | .take => 3
  | .cas => 2
  | .update => 1
  | .reset => 0

def Callback.Outside : Callback → Prop
  | .idle | .cas _ => True
  | _ => False

/-- The callback, the flag, the semaphore and the main loop, in the order of one update. -/
inductive Phase : Callback → OpFlags → Nat → MainLoop → Prop
  | free (c : Callback) (h : c.Outside) : Phase c .writeFinished 0 .take
  | storeLength (dataLength : Nat) : Phase (.storeLength dataLength) .bufPrepStarted 0 .take
  | copy : Phase .copy .bufPrepStarted 0 .take
  | setFlag : Phase .setFlag .bufPrepStarted 0 .take
  | give : Phase .give .bufPrepFinished 0 .take
  | given (c : Callback) (h : c.Outside) : Phase c .bufPrepFinished 1 .take
  | taken (c : Callback) (h : c.Outside) : Phase c .bufPrepFinished 0 .cas
  | update (c : Callback) (h : c.Outside) : Phase c .writeStarted 0 .update
  | reset (c : Callback) (h : c.Outside) : Phase c .writeStarted 0 .reset

/-- A callback outside of `flash_buffer_prepare` may be anywhere outside of it. -/
theorem Phase.of_outside {c c' : Callback} {flags : OpFlags} {sem : Nat} {loop : MainLoop} (h : Phase c flags sem loop)
    (hOutside : c.Outside) (hOutside' : c'.Outside) : Phase c' flags sem loop := by
  cases h with
  | free => exact .free c' hOutside'
  | storeLength | copy | setFlag | give => exact hOutside.elim
  | given => exact .given c' hOutside'
  | taken => exact .taken c' hOutside'
  | update => exact .update c' hOutside'
  | reset => exact .reset c' hOutside'

/-- Until an update is handed over the main loop is at the semaphore, whose count is 0. -/
theorem Phase.waits {c : Callback} {flags : OpFlags} {sem : Nat} {loop : MainLoop} (h : Phase c flags sem loop)
    (hUnprepared : flags = .writeFinished ∨ ¬ c.Outside) : sem = 0 ∧ loop = .take := by
  cases h with
  | free | storeLength | copy | setFlag | give => exact ⟨rfl, rfl⟩
  | given _ hOutside | taken _ hOutside | update _ hOutside | reset _ hOutside =>
    obtain hFlags | hInside := hUnprepared
    · cases hFlags
    · exact absurd hOutside hInside

section Phases

variable {size : Nat} {files : FileSystem} {s : State size files.Fs}

theorem mainLoop_of_waits (h : s.nfcWriteSem = 0 ∧ s.loop = .take) : mainLoop files s = (s, none) := by
  rw [mainLoop, h.2]
  exact congrArg (fun t => (t, none)) (if_pos h.1)

def State.InPhase (s : State size files.Fs) : Prop := Phase s.callback s.opFlags s.nfcWriteSem s.loop

theorem inPhase_nfcCallback (h : s.InPhase) (hIdle : s.callback = .idle) (dataLength : Nat) (handled : Bool)
    (file : Bytes size) : (nfcCallback files s dataLength handled file).InPhase := by
  have hOutside : s.callback.Outside := by rw [hIdle]; trivial
  unfold nfcCallback
  split
  · split
    · exact Phase.of_outside h hOutside trivial
    · exact h
  · exact h

theorem inPhase_flashBufferPrepare (h : s.InPhase) : (flashBufferPrepare files s).InPhase := by
  obtain ⟨ndefMsgBuf, opFlags, flashBuf, flashBufLen, nfcWriteSem, callback, loop, fs⟩ := s
  change Phase callback opFlags nfcWriteSem loop at h
  cases h with
  | free _ hOutside =>
    cases callback with
    | idle => exact .free .idle trivial
    | cas dataLength => exact .storeLength dataLength
    | storeLength | copy | setFlag | give => exact hOutside.elim
  | storeLength dataLength => exact .copy
  | copy => exact .setFlag
  | setFlag => exact .give
  | give => exact .given .idle trivial
  | given _ hOutside | taken _ hOutside | update _ hOutside | reset _ hOutside =>
    -- another callback, which finds the flag taken
    cases callback with
    | idle => constructor; trivial
    | cas dataLength => constructor; trivial
    | storeLength | copy | setFlag | give => exact hOutside.elim

theorem inPhase_mainLoop (h : s.InPhase) : (mainLoop files s).1.InPhase := by
  obtain ⟨ndefMsgBuf, opFlags, flashBuf, flashBufLen, nfcWriteSem, callback, loop, fs⟩ := s
  change Phase callback opFlags nfcWriteSem loop at h
  cases h with
  | free _ hOutside => exact .free callback hOutside
  | storeLength dataLength => exact .storeLength dataLength
  | copy => exact .copy
  | setFlag => exact .setFlag
  | give => exact .give
  | given _ hOutside => exact .taken callback hOutside
  | taken _ hOutside => exact .update callback hOutside
  | update _ hOutside => exact .reset callback hOutside
  | reset _ hOutside => exact .free callback hOutside

theorem inPhase_next (h : s.InPhase) (i : Input size) : ((machine files size).next s i).InPhase := by
  cases i with
  | write file =>
    obtain hSame | ⟨-, hWrite⟩ := next_write_cases files s file
    · rwa [hSame]
    · rw [hWrite]
      exact h
  | updated dataLength handled file =>
    obtain hSame | ⟨hIdle, hUpdated⟩ := next_updated_cases files s dataLength handled file
    · rwa [hSame]
    · rw [hUpdated]
      exact inPhase_nfcCallback h hIdle dataLength handled file
  | callback => exact inPhase_flashBufferPrepare h
  | loop => exact inPhase_mainLoop h

theorem inPhase_of_reachable (h : Reachable files s) : s.InPhase := by
  obtain ⟨ndefMsgBuf, fs, is, rfl⟩ := h
  exact (machine files size).run_invariant (I := State.InPhase) (fun _ i hs => inPhase_next hs i) _ is
    (.free .idle trivial)

end Phases

end IotRange.FlashUpdate
