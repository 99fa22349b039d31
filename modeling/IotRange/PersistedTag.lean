import IotRange.FlashUpdate
import IotRange.StaleTag

/-! # Tag content after a reboot

One update is followed from its callback to the write of its record, through any interleaving
with the main loop. `flash_buf_len` has 8 bits, so the record is the whole file up to 255 bytes.
-/
namespace IotRange.PersistedTag
open AppAuth AppConfig FlashUpdate NdefFile NfcReply StaleTag
set_option autoImplicit false

section Update

variable {size : Nat} {files : FileSystem}

/-- No record has been passed to `ndef_file_update` on the way. -/
def Quiet (files : FileSystem) (s : State size files.Fs) (is : List (Input size)) : Prop :=
  ∀ p ∈ (machine files size).situations s is, (machine files size).output p.1 p.2 = none

/-- From `s` on a record can always be reached, the first one is `contents`, and the next boot
loads it into the cleared buffer. -/
structure Persisted (files : FileSystem) (record : files.Fs → Nat → Option (List UInt8)) (lib : UriMsgLib)
    (contents : List UInt8) (s : State size files.Fs) : Prop where
  reached : ∀ is, Quiet files s is →
    ∃ js, Quiet files s (is ++ js) ∧ ((machine files size).run s (is ++ js)).loop = .update
  stored : ∀ is, Quiet files s is → ((machine files size).run s is).loop = .update →
    record ((machine files size).run s (is ++ [.loop])).fs flashUrlAddressId = some contents
  restored : ∀ is, Quiet files s is → ((machine files size).run s is).loop = .update →
    let fs := ((machine files size).run s (is ++ [.loop])).fs
    ndefFileLoad files lib fs (List.replicate size 0) (UInt32.ofNat size) =
      (Int.ofNat contents.length, fs, contents ++ List.replicate (size - contents.length) 0)

/-- Past the copy to `flash_buf`, if an update is under way. -/
def Copied : Callback → Prop
  | .storeLength _ | .copy => False
  | _ => True

/-- An update of `file` that finds the flag free, up to the write of its record. -/
inductive Pending (file : Bytes size) (dataLength : Nat) (s : State size files.Fs) : Prop
  | entered (hCallback : s.callback = .cas dataLength) (hFlags : s.opFlags = .writeFinished)
      (hBuf : s.ndefMsgBuf = file)
  | storing (hCallback : s.callback = .storeLength dataLength) (hBuf : s.ndefMsgBuf = file)
  | copying (hCallback : s.callback = .copy) (hBuf : s.ndefMsgBuf = file)
      (hLen : s.flashBufLen = UInt8.ofNat (dataLength + nlenFieldSize))
  | held (hCopied : Copied s.callback) (hFlags : s.opFlags ≠ .writeFinished)
      (hLoop : s.loop ≠ .reset) (hBuf : s.flashBuf = file)
      (hLen : s.flashBufLen = UInt8.ofNat (dataLength + nlenFieldSize))

variable {file : Bytes size} {dataLength : Nat} {s : State size files.Fs}

theorem pending_flashBufferPrepare (hPhase : s.InPhase) (h : Pending file dataLength s) :
    Pending file dataLength (flashBufferPrepare files s) := by
  obtain ⟨ndefMsgBuf, opFlags, flashBuf, flashBufLen, nfcWriteSem, callback, loop, fs⟩ := s
  cases h with
  | entered hCallback hFlags hBuf =>
    cases hCallback
    cases hFlags
    exact .storing rfl hBuf
  | storing hCallback hBuf =>
    cases hCallback
    exact .copying rfl hBuf rfl
  | copying hCallback hBuf hLen =>
    cases hCallback
    change Phase .copy opFlags nfcWriteSem loop at hPhase
    cases hPhase with
    | copy =>
      exact .held trivial (by decide : OpFlags.bufPrepStarted ≠ .writeFinished) (by decide : MainLoop.take ≠ .reset)
        hBuf hLen
    | free _ hOutside | given _ hOutside | taken _ hOutside | update _ hOutside | reset _ hOutside =>
      exact hOutside.elim
  | held hCopied hFlags hLoop hBuf hLen =>
    cases callback with
    | idle => exact .held hCopied hFlags hLoop hBuf hLen
    | cas n =>
      change Pending file dataLength (if opFlags = .writeFinished then _ else _)
      rw [if_neg hFlags]
      exact .held trivial hFlags hLoop hBuf hLen
    | storeLength | copy => exact hCopied.elim
    | setFlag => exact .held trivial (by decide : OpFlags.bufPrepFinished ≠ .writeFinished) hLoop hBuf hLen
    | give => exact .held trivial hFlags hLoop hBuf hLen

theorem pending_mainLoop (hPhase : s.InPhase) (h : Pending file dataLength s) (hLoop : s.loop ≠ .update) :
    Pending file dataLength (mainLoop files s).1 := by
  cases h with
  | entered hCallback hFlags hBuf =>
    rw [mainLoop_of_waits (hPhase.waits (.inl hFlags))]
    exact .entered hCallback hFlags hBuf
  | storing hCallback hBuf =>
    rw [mainLoop_of_waits (hPhase.waits (.inr (by rw [hCallback]; exact not_false)))]
    exact .storing hCallback hBuf
  | copying hCallback hBuf hLen =>
    rw [mainLoop_of_waits (hPhase.waits (.inr (by rw [hCallback]; exact not_false)))]
    exact .copying hCallback hBuf hLen
  | held hCopied hFlags hReset hBuf hLen =>
    obtain ⟨ndefMsgBuf, opFlags, flashBuf, flashBufLen, nfcWriteSem, callback, loop, fs⟩ := s
    cases hPhase with
    | free => exact absurd rfl hFlags
    | storeLength | copy => exact hCopied.elim
    | setFlag | give => exact .held hCopied hFlags hReset hBuf hLen
    | given => exact .held hCopied hFlags (by decide : MainLoop.cas ≠ .reset) hBuf hLen
    | taken =>
      exact .held hCopied (by decide : OpFlags.writeStarted ≠ .writeFinished) (by decide : MainLoop.update ≠ .reset)
        hBuf hLen
    | update => exact absurd rfl hLoop
    | reset => exact absurd rfl hReset

/-- Only a held update meets an idle callback. -/
theorem held_of_idle (h : Pending file dataLength s) (hIdle : s.callback = .idle) :
    s.opFlags ≠ .writeFinished ∧ s.loop ≠ .reset ∧ s.flashBuf = file ∧
      s.flashBufLen = UInt8.ofNat (dataLength + nlenFieldSize) := by
  cases h with
  | entered hCallback | storing hCallback | copying hCallback => cases hIdle.symm.trans hCallback
  | held hCopied hFlags hLoop hBuf hLen => exact ⟨hFlags, hLoop, hBuf, hLen⟩

theorem pending_next (hPhase : s.InPhase) (h : Pending file dataLength s) {i : Input size}
    (hQuiet : (machine files size).output s i = none) :
    Pending file dataLength ((machine files size).next s i) := by
  cases i with
  | write newFile =>
    obtain hSame | ⟨hIdle, hWrite⟩ := next_write_cases files s newFile
    · rwa [hSame]
    · obtain ⟨hFlags, hLoop, hBuf, hLen⟩ := held_of_idle h hIdle
      have hCopied : Copied s.callback := by rw [hIdle]; trivial
      rw [hWrite]
      exact .held hCopied hFlags hLoop hBuf hLen
  | updated newLength handled newFile =>
    obtain hSame | ⟨hIdle, hUpdated⟩ := next_updated_cases files s newLength handled newFile
    · rwa [hSame]
    · obtain ⟨hFlags, hLoop, hBuf, hLen⟩ := held_of_idle h hIdle
      have hCopied : Copied s.callback := by rw [hIdle]; trivial
      rw [hUpdated]
      unfold nfcCallback
      split
      · split
        · exact .held trivial hFlags hLoop hBuf hLen
        · exact .held hCopied hFlags hLoop hBuf hLen
      · exact h
  | callback => exact pending_flashBufferPrepare hPhase h
  | loop =>
    refine pending_mainLoop hPhase h fun hUpdate => ?_
    change (mainLoop files s).2 = none at hQuiet
    rw [mainLoop, hUpdate] at hQuiet
    cases hQuiet

theorem pending_run (hPhase : s.InPhase) (h : Pending file dataLength s) {is : List (Input size)}
    (hQuiet : Quiet files s is) :
    ((machine files size).run s is).InPhase ∧ Pending file dataLength ((machine files size).run s is) :=
  (machine files size).run_invariant_of_situations (I := fun t => t.InPhase ∧ Pending file dataLength t)
    (fun _ i hOutput ht => ⟨inPhase_next ht.1 i, pending_next ht.1 ht.2 hOutput⟩) s is hQuiet ⟨hPhase, h⟩

/-! ## The write is reached -/

def stepsLeft (s : State size files.Fs) : Nat := callbackSteps s.callback + loopSteps s.loop

theorem stepsLeft_flashBufferPrepare (h : s.callback ≠ .idle) :
    stepsLeft (flashBufferPrepare files s) < stepsLeft s := by
  obtain ⟨ndefMsgBuf, opFlags, flashBuf, flashBufLen, nfcWriteSem, callback, loop, fs⟩ := s
  cases callback with
  | idle => exact absurd rfl h
  | cas n =>
    change stepsLeft (if opFlags = .writeFinished then _ else _) < _
    split
    · exact Nat.add_lt_add_right (by decide : 4 < 5) _
    · exact Nat.add_lt_add_right (by decide : 0 < 5) _
  | storeLength n => exact Nat.add_lt_add_right (by decide : 3 < 4) _
  | copy => exact Nat.add_lt_add_right (by decide : 2 < 3) _
  | setFlag => exact Nat.add_lt_add_right (by decide : 1 < 2) _
  | give => exact Nat.add_lt_add_right (by decide : 0 < 1) _

/-- The callback is let through first, then the main loop. -/
theorem exists_step_of_pending (hPhase : s.InPhase) (h : Pending file dataLength s) (hLoop : s.loop ≠ .update) :
    ∃ i, (machine files size).output s i = none ∧ stepsLeft ((machine files size).next s i) < stepsLeft s := by
  by_cases hIdle : s.callback = .idle
  · refine ⟨.loop, ?_⟩
    obtain ⟨ndefMsgBuf, opFlags, flashBuf, flashBufLen, nfcWriteSem, callback, loop, fs⟩ := s
    cases hIdle
    cases hPhase with
    | free => exact absurd rfl (held_of_idle h rfl).1
    | given => exact ⟨rfl, (by decide : 2 < 3)⟩
    | taken => exact ⟨rfl, (by decide : 1 < 2)⟩
    | update => exact absurd rfl hLoop
    | reset => exact absurd rfl (held_of_idle h rfl).2.1
  · exact ⟨.callback, rfl, stepsLeft_flashBufferPrepare hIdle⟩

theorem exists_update_of_pending (hPhase : s.InPhase) (h : Pending file dataLength s) :
    ∃ is, Quiet files s is ∧ ((machine files size).run s is).loop = .update := by
  refine (machine files size).exists_run_of_measure (I := fun t => t.InPhase ∧ Pending file dataLength t)
    (G := fun t => t.loop = .update) (Q := fun t i => (machine files size).output t i = none) stepsLeft
    (fun t ht hLoop => ?_) s ⟨hPhase, h⟩
  obtain ⟨i, hOutput, hLess⟩ := exists_step_of_pending ht.1 ht.2 hLoop
  exact ⟨i, hOutput, ⟨inPhase_next ht.1 i, pending_next ht.1 ht.2 hOutput⟩, hLess⟩

/-- The main loop writes the file, with its length in eight bits. -/
theorem flashBuf_of_pending (hPhase : s.InPhase) (h : Pending file dataLength s) (hLoop : s.loop = .update) :
    s.flashBuf = file ∧ s.flashBufLen = UInt8.ofNat (dataLength + nlenFieldSize) := by
  obtain ⟨ndefMsgBuf, opFlags, flashBuf, flashBufLen, nfcWriteSem, callback, loop, fs⟩ := s
  cases hLoop
  cases hPhase with
  | update _ hOutside =>
    cases h with
    | entered hCallback hFlags => cases hFlags
    | storing hCallback | copying hCallback =>
      cases hCallback
      exact hOutside.elim
    | held hCopied hFlags hReset hBuf hLen => exact ⟨hBuf, hLen⟩

end Update

/-! ## The record -/

section Record

variable {size : Nat} {files : FileSystem} {record : files.Fs → Nat → Option (List UInt8)} {file : Bytes size}
  {dataLength : Nat} {s : State size files.Fs}

theorem record_of_pending (hFiles : files.Documented record) (hPhase : s.InPhase) (h : Pending file dataLength s)
    (hLoop : s.loop = .update) :
    record ((machine files size).next s .loop).fs flashUrlAddressId =
      if file.toList.take ((dataLength + nlenFieldSize) % 256) = [] then none
      else some (file.toList.take ((dataLength + nlenFieldSize) % 256)) := by
  obtain ⟨hBuf, hLen⟩ := flashBuf_of_pending hPhase h hLoop
  have hNext : ((machine files size).next s .loop).fs =
      (ndefFileUpdate files s.fs s.flashBuf.toList s.flashBufLen.toNat).1 := by
    change (mainLoop files s).1.fs = _
    rw [mainLoop, hLoop]
  rw [hNext, record_ndefFileUpdate hFiles, hBuf, hLen, UInt8.toNat_ofNat']

/-- However the write is reached, it stores what the length in eight bits leaves of the file. -/
theorem record_of_quiet (hFiles : files.Documented record) (hPhase : s.InPhase) (h : Pending file dataLength s)
    {is : List (Input size)} (hQuiet : Quiet files s is) (hLoop : ((machine files size).run s is).loop = .update) :
    record ((machine files size).run s (is ++ [.loop])).fs flashUrlAddressId =
      if file.toList.take ((dataLength + nlenFieldSize) % 256) = [] then none
      else some (file.toList.take ((dataLength + nlenFieldSize) % 256)) := by
  obtain ⟨hPhase', h'⟩ := pending_run hPhase h hQuiet
  rw [Machine.run_append]
  exact record_of_pending hFiles hPhase' h' hLoop

/-- After any run without an output the write is still ahead. -/
theorem exists_update_of_quiet (hPhase : s.InPhase) (h : Pending file dataLength s) {is : List (Input size)}
    (hQuiet : Quiet files s is) :
    ∃ js, Quiet files s (is ++ js) ∧ ((machine files size).run s (is ++ js)).loop = .update := by
  obtain ⟨hPhase', h'⟩ := pending_run hPhase h hQuiet
  obtain ⟨js, hRest, hLoop⟩ := exists_update_of_pending hPhase' h'
  refine ⟨js, ?_, by rwa [Machine.run_append]⟩
  rw [Quiet, Machine.situations_append, List.forall_mem_append]
  exact ⟨hQuiet, hRest⟩

theorem persisted_iff_of_pending (hFiles : files.Documented record) (lib : UriMsgLib) (hPhase : s.InPhase)
    (h : Pending file dataLength s) (hSize : size < 2 ^ 32) (hFits : dataLength + 2 ≤ size) :
    Persisted files record lib (file.toList.take (dataLength + 2)) s ↔ dataLength + 2 < 256 := by
  have hLength : (file.toList.take (dataLength + 2)).length = dataLength + 2 := by
    rw [List.length_take, file.toList_length, Nat.min_eq_left hFits]
  constructor
  · rintro ⟨hReached, hStored, -⟩
    obtain ⟨js, hQuiet, hLoop⟩ := hReached [] (List.forall_mem_nil _)
    have hWhole := record_of_quiet hFiles hPhase h hQuiet hLoop
    rw [hStored ([] ++ js) hQuiet hLoop, nlenFieldSize] at hWhole
    split at hWhole
    · cases hWhole
    · have hSame := congrArg List.length (Option.some.inj hWhole)
      rw [hLength, List.length_take] at hSame
      omega
  · intro hShort
    have hNonempty : file.toList.take (dataLength + 2) ≠ [] := List.ne_nil_of_length_pos (by omega)
    have hWhole (is : List (Input size)) (hQuiet : Quiet files s is)
        (hLoop : ((machine files size).run s is).loop = .update) :
        record ((machine files size).run s (is ++ [.loop])).fs flashUrlAddressId =
          some (file.toList.take (dataLength + 2)) := by
      rw [record_of_quiet hFiles hPhase h hQuiet hLoop, nlenFieldSize, Nat.mod_eq_of_lt hShort, if_neg hNonempty]
    refine ⟨fun is hQuiet => exists_update_of_quiet hPhase h hQuiet, hWhole, fun is hQuiet hLoop => ?_⟩
    have hToNat : (UInt32.ofNat size).toNat = size := UInt32.toNat_ofNat_of_lt' hSize
    dsimp only
    rw [ndefFileLoad_of_record hFiles lib (hWhole is hQuiet hLoop) hNonempty (by rw [hLength, hToNat]; exact hFits),
      writeAt, List.take_zero, List.nil_append, Nat.zero_add, List.drop_replicate]

end Record

section Message

variable {size : Nat} {files : FileSystem} {record : files.Fs → Nat → Option (List UInt8)} {lib : UriMsgLib}
  {env : Env} {d d' : Device} {buf : Buffer} {file : Bytes size} {dataLength : Nat} {s : State size files.Fs}

/-- A message that is no command and finds the flag free reaches the flash whole if the file has
less than 256 bytes. -/
theorem persisted_iff (hFiles : files.Documented record) (hLib : lib.toNdefFileLib.Documented)
    (hReachable : Reachable files s) (hIdle : s.callback = .idle) (hFree : s.opFlags = .writeFinished)
    (hBuf : buf.bytes = s.ndefMsgBuf.toList)
    (hUnhandled : appConfigHandleNdef lib.toNdefFileLib env d buf = .ok (false, d', file.toList))
    (hPos : 0 < dataLength) (hFits : dataLength + 2 ≤ size) :
    Persisted files record lib (s.ndefMsgBuf.toList.take (dataLength + 2))
      ((machine files size).next s (.updated dataLength false file)) ↔ dataLength + 2 < 256 := by
  have hSize : buf.bytes.length = size := by rw [hBuf, s.ndefMsgBuf.toList_length]
  have hSame : file = s.ndefMsgBuf :=
    List.Vector.toList_injective ((file_of_unhandled hLib (by omega) hUnhandled).trans hBuf)
  have hPhase := inPhase_of_reachable hReachable
  have hNext : (machine files size).next s (.updated dataLength false file) =
      { s with ndefMsgBuf := file, callback := .cas dataLength } := by
    rw [next_updated_of_idle files dataLength false file hIdle]
    exact if_pos hPos
  have hPending : Pending file dataLength ((machine files size).next s (.updated dataLength false file)) := by
    rw [hNext]
    exact .entered rfl hFree rfl
  rw [← hSame]
  exact persisted_iff_of_pending hFiles lib (inPhase_next hPhase _) hPending (hSize ▸ buf.length_lt) hFits

theorem unhandled_of_not_external {lib : NdefFileLib} (hLib : lib.Documented) (hTwo : 2 ≤ buf.bytes.length)
    (h : byteAt buf.bytes 2 &&& Ndef.tnfMask ≠ Ndef.tnfExternal) :
    appConfigHandleNdef lib env d buf = .ok (false, d, buf.bytes) := by
  have hOffset := hLib.msgOffset
  have hLen : (buf.bytes.drop lib.msgOffset).length = (lib.msgSizeGet buf.length).toNat := by
    rw [toNat_msgSizeGet hLib hTwo, List.length_drop, hOffset]
  have hHeader : ¬ HasHeader (buf.bytes.drop lib.msgOffset) := by
    rintro ⟨hExternal, -, -⟩
    rw [byteAt_drop, hOffset] at hExternal
    exact h hExternal
  have hFrame : commandFrame lib buf = .ok none := by
    rw [commandFrame, ndefFrame, ndefParseExtCmd_of_not_hasHeader hLen hHeader]
    rfl
  exact appConfigHandleNdef_of_frame hLib hTwo hFrame

end Message

/-- The library with URI records in short form. -/
def t4tUriMsg : UriMsgLib where
  toNdefFileLib := t4tNdefFile
  uriMsgEncode code uri size :=
    if size.toNat < 5 + uri.length then .error (-12)
    else .ok ([0xD1, 0x01, UInt8.ofNat (1 + uri.length), 0x55, code] ++ uri)
  fileSize size := size + 2

/-- A URI record, which starts no command record. -/
def uriMessage : Payload := ⟨[0xD1, 0x01, 0x02, 0x55, 0x01, 0x6E], by decide⟩

def uriFile : Bytes 8 := ⟨be16 6 ++ uriMessage.bytes, rfl⟩

def uriBuffer : Buffer := ⟨uriFile.toList, by decide⟩

theorem persisted_uriFile :
    Persisted recordFiles id t4tUriMsg (uriFile.toList.take (6 + 2))
      ((machine recordFiles 8).next (.boot uriFile fun _ => none) (.updated 6 false uriFile)) := by
  have hUnhandled : appConfigHandleNdef t4tNdefFile idleEnv Device.boot uriBuffer =
      .ok (false, Device.boot, uriFile.toList) :=
    unhandled_of_not_external documented_t4tNdefFile (by decide) (by decide)
  exact (persisted_iff documented_recordFiles documented_t4tNdefFile ⟨uriFile, _, [], rfl⟩ rfl rfl rfl hUnhandled
    (by decide) (by decide)).mpr (by decide)

/-- A text record of 254 bytes. -/
def textMessage : List UInt8 := [0xD1, 0x01, 0xFA, 0x54, 0x02, 0x65, 0x6E] ++ List.replicate 247 0x61

theorem length_textMessage : textMessage.length = 254 := by
  rw [textMessage, List.length_append, List.length_replicate]
  rfl

theorem length_textFile : (be16 254 ++ textMessage).length = 256 := by
  rw [List.length_append, length_textMessage]
  rfl

def textFile : Bytes 256 := ⟨be16 254 ++ textMessage, length_textFile⟩

def textBuffer : Buffer := ⟨textFile.toList, Nat.lt_of_le_of_lt length_textFile.le (by decide)⟩

/-- Its file has 256 bytes, and `flash_buf_len` is 0. -/
theorem textFile_not_persisted :
    appConfigHandleNdef t4tNdefFile idleEnv Device.boot textBuffer = .ok (false, Device.boot, textFile.toList) ∧
      ¬ Persisted recordFiles id t4tUriMsg (textFile.toList.take (254 + 2))
        ((machine recordFiles 256).next (.boot textFile fun _ => none) (.updated 254 false textFile)) := by
  constructor
  · have hTwo : 2 ≤ textBuffer.bytes.length := (by decide : 2 ≤ 256).trans length_textFile.ge
    exact unhandled_of_not_external documented_t4tNdefFile hTwo (by decide)
  · have hPhase :
        ((machine recordFiles 256).next (.boot textFile fun _ => none) (.updated 254 false textFile)).InPhase :=
      .free (.cas 254) trivial
    have hPending : Pending textFile 254
        ((machine recordFiles 256).next (.boot textFile fun _ => none) (.updated 254 false textFile)) :=
      .entered rfl rfl rfl
    rw [persisted_iff_of_pending documented_recordFiles t4tUriMsg hPhase hPending (by decide) (by decide)]
    decide

end IotRange.PersistedTag
