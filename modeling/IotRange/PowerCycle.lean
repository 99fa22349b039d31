import IotRange.FlashHandOff
import IotRange.Library.Restart
import IotRange.PersistedTag

/-! # Power cycles (main.c, ndef_file_m.c)

A loss of power ends a run of the NFC side and the main loop wherever they are and leaves the flash
alone. The next start loads the record into the cleared RAM. A write may fail, and a start may end at
`fail` at each of its calls.
-/
namespace IotRange.PowerCycle
open AppConfig FlashUpdate FlashHandOff NdefFile Machine
set_option autoImplicit false

/-- What the calls of one start return, other than those of ndef_file_m.c. -/
structure Start where
  boardInit : Int
  ndefFileSetup : Int
  /-- `button_state & NDEF_RESTORE_BTN_MSK`. -/
  restoreButton : Bool
  nfcT4tSetup : Int
  nfcT4tNdefRwpayloadSet : Int
  nfcT4tEmulationStart : Int
  bleUartInit : Int

/-- `off` is also a start that has ended at `fail` before the emulation. `loops` says that `main` has
reached its loop. -/
inductive State (size : Nat) (Fs : Type)
  | off (fs : Fs)
  | on (tag : FlashUpdate.State size Fs) (loops : Bool)
  | outOfBounds (fs : Fs)

def State.fs {size : Nat} {Fs : Type} : State size Fs → Fs
  | .off fs => fs
  | .on tag _ => tag.fs
  | .outOfBounds fs => fs

inductive Input (size : Nat)
  | powerOn (start : Start)
  | powerOff
  | side (i : FlashUpdate.Input size)

section Step

variable (files : FileSystem) (lib : UriMsgLib)

/-- `main` from the NFC setup on. -/
def startNfc (size : Nat) (fs : files.Fs) (buff : List UInt8) (start : Start) : State size files.Fs :=
  if start.nfcT4tSetup < 0 then .off fs
  else if start.nfcT4tNdefRwpayloadSet < 0 then .off fs
  else if start.nfcT4tEmulationStart < 0 then .off fs
  else if h : buff.length = size then .on (.boot ⟨buff, h⟩ fs) (start.bleUartInit = 0)
  else .outOfBounds fs

def main (size : Nat) (fs : files.Fs) (start : Start) : State size files.Fs :=
  if start.boardInit < 0 then .off fs
  else if start.ndefFileSetup < 0 then .off fs
  else
    let (err, fs, buff) := ndefFileLoad files lib fs (List.replicate size 0) (UInt32.ofNat size)
    if err < 0 then .off fs
    else if start.restoreButton then
      let (err, fs, buff) := ndefRestoreDefault files lib fs buff (UInt32.ofNat size)
      if err < 0 then .off fs else startNfc files size fs buff start
    else startNfc files size fs buff start

/-- The output is what `ndef_file_update` gets from the main loop. -/
def step {size : Nat} (s : State size files.Fs) (i : Input size) : State size files.Fs × Option (List UInt8) :=
  match s, i with
  | .off fs, .powerOn start => (main files lib size fs start, none)
  | .on tag _, .powerOff => (.off tag.fs, none)
  | .on tag true, .side .loop => (.on (mainLoop files tag).1 true, (mainLoop files tag).2)
  | .on tag false, .side .loop => (.on tag false, none)
  | .on tag loops, .side (.write file) => (.on ((FlashUpdate.machine files size).next tag (.write file)) loops, none)
  | .on tag loops, .side (.updated dataLength handled file) =>
    (.on ((FlashUpdate.machine files size).next tag (.updated dataLength handled file)) loops, none)
  | .on tag loops, .side .callback => (.on (flashBufferPrepare files tag) loops, none)
  | s, _ => (s, none)

def machine (size : Nat) : Machine (State size files.Fs) (Input size) (Option (List UInt8)) := ⟨step files lib⟩

end Step

/-! ## What the flash and the library do -/

/-- The documented behaviour on the records held, where a write that fails changes none. -/
structure Durable (files : FileSystem) (record : files.Fs → Nat → Option (List UInt8)) : Prop where
  written : ∀ fs recId data, 0 ≤ (files.write fs recId data).2 →
    record (files.write fs recId data).1 recId = if data = [] then none else some data
  failed : ∀ fs recId data, (files.write fs recId data).2 < 0 →
    record (files.write fs recId data).1 recId = record fs recId
  found : ∀ fs recId data size, record fs recId = some data →
    files.read fs recId size = (data.take size, Int.ofNat data.length)
  absent : ∀ fs recId size, record fs recId = none →
    (files.read fs recId size).1 = [] ∧ (files.read fs recId size).2 ≤ 0

/-- The URI record of "http://www.nordicsemi.com". -/
def defaultMessage : List UInt8 := [0xD1, 0x01, 0x0F, 0x55, nfcUriHttpWww] ++ mUrl

def defaultFile : List UInt8 := be16 19 ++ defaultMessage

structure Encodes (lib : UriMsgLib) : Prop where
  ndefFile : lib.toNdefFileLib.Documented
  uriMsg : ∀ size : UInt32, defaultMessage.length ≤ size.toNat →
    lib.uriMsgEncode nfcUriHttpWww mUrl size = .ok defaultMessage
  fileSize : ∀ size, lib.fileSize size = size + 2

section Start

variable {size : Nat} {files : FileSystem} {record : files.Fs → Nat → Option (List UInt8)} {lib : UriMsgLib}
variable (hFiles : Durable files record) (hLib : Encodes lib) (hSize : size < 2 ^ 32)

/-- A cleared buffer with the record in front. -/
def padded (size : Nat) (data : List UInt8) : List UInt8 := writeAt (List.replicate size 0) 0 (data.take size)

theorem length_padded (size : Nat) (data : List UInt8) : (padded size data).length = size := by
  have hFits : 0 + (data.take size).length ≤ (List.replicate size (0 : UInt8)).length := by
    rw [Nat.zero_add, List.length_take, List.length_replicate]
    exact Nat.min_le_left _ _
  rw [padded, length_writeAt hFits, List.length_replicate]

theorem padded_eq {data : List UInt8} (h : data.length ≤ size) :
    padded size data = data ++ List.replicate (size - data.length) 0 := by
  rw [padded, List.take_of_length_le h, writeAt_zero, List.drop_replicate]

include hSize in
theorem toNat_ofNat_size : (UInt32.ofNat size).toNat = size := UInt32.toNat_ofNat_of_lt' hSize

section Default

variable {buff : List UInt8} (hLength : buff.length = size) (hFits : defaultFile.length ≤ size)

include hLib hSize hLength hFits

/-- The message and then its length are the default file, whatever the buffer held. -/
theorem ndefFileDefaultMessage_eq :
    ndefFileDefaultMessage lib buff (UInt32.ofNat size) = (0, writeAt buff 0 defaultFile, 21) := by
  have hTwo : (2 : UInt32) ≤ UInt32.ofNat size := by
    rw [UInt32.le_iff_toNat_le, toNat_ofNat_size hSize]
    exact (by decide : 2 ≤ defaultFile.length).trans hFits
  have hRoom : defaultMessage.length ≤ (lib.msgSizeGet (UInt32.ofNat size)).toNat := by
    rw [hLib.ndefFile.msgSizeGet, UInt32.toNat_sub_of_le _ _ hTwo, toNat_ofNat_size hSize]
    exact Nat.le_sub_of_add_le hFits
  have hInside : 2 + defaultMessage.length ≤ buff.length := hFits.trans hLength.ge
  have hWritten : 2 ≤ (writeAt buff 2 defaultMessage).length := by
    rw [length_writeAt hInside]
    omega
  have hEncode := hLib.ndefFile.fileEncode (writeAt buff 2 defaultMessage) 19 hWritten (by decide)
  have hFile : writeAt (writeAt buff 2 defaultMessage) 0 (be16 19) = writeAt buff 0 defaultFile := by
    rw [writeAt_zero, length_be16, drop_writeAt (by omega), writeAt_zero, defaultFile, List.append_assoc]
    rfl
  have hNineteen : UInt32.ofNat defaultMessage.length = 19 := rfl
  unfold ndefFileDefaultMessage
  rw [hLib.uriMsg _ hRoom]
  dsimp only
  rw [hLib.ndefFile.msgOffset, hNineteen, hEncode, hLib.fileSize]
  exact congrArg (fun file => (0, file, 21)) hFile

theorem ndefRestoreDefault_eq (fs : files.Fs) :
    ndefRestoreDefault files lib fs buff (UInt32.ofNat size) =
      ((files.write fs flashUrlAddressId defaultFile).2, (files.write fs flashUrlAddressId defaultFile).1,
        writeAt buff 0 defaultFile) := by
  have hTwentyOne : (21 : UInt32).toNat = defaultFile.length := rfl
  have hTake : (writeAt buff 0 defaultFile).take (21 : UInt32).toNat = defaultFile := by
    rw [writeAt_zero, hTwentyOne, List.take_left]
  unfold ndefRestoreDefault
  rw [ndefFileDefaultMessage_eq hLib hSize hLength hFits]
  dsimp only
  rw [if_neg (by decide), ndefFileUpdate, hTake]

end Default

section Load

variable {fs : files.Fs}

include hFiles hSize

theorem ndefFileLoad_of_found {data : List UInt8} (hRecord : record fs flashUrlAddressId = some data)
    (hNonempty : data ≠ []) :
    ndefFileLoad files lib fs (List.replicate size 0) (UInt32.ofNat size) =
      (Int.ofNat data.length, fs, padded size data) := by
  have hPos : Int.ofNat data.length > 0 := Int.natCast_pos.mpr (List.length_pos_iff.mpr hNonempty)
  rw [ndefFileLoad, toNat_ofNat_size hSize, hFiles.found fs flashUrlAddressId data size hRecord]
  exact if_pos hPos

/-- Without a record, or with an empty one, the default message is written. -/
theorem ndefFileLoad_of_absent (h : ∀ data, record fs flashUrlAddressId = some data → data = []) :
    ndefFileLoad files lib fs (List.replicate size 0) (UInt32.ofNat size) =
      ndefRestoreDefault files lib fs (List.replicate size 0) (UInt32.ofNat size) := by
  have hRead : (files.read fs flashUrlAddressId size).1 = [] ∧ (files.read fs flashUrlAddressId size).2 ≤ 0 := by
    cases hRecord : record fs flashUrlAddressId with
    | none => exact hFiles.absent fs flashUrlAddressId size hRecord
    | some data =>
      obtain rfl := h data hRecord
      rw [hFiles.found fs flashUrlAddressId [] size hRecord]
      exact ⟨List.take_nil, Int.le_refl 0⟩
  unfold ndefFileLoad
  rw [toNat_ofNat_size hSize]
  dsimp only
  rw [if_neg (not_lt.mpr hRead.2), hRead.1, writeAt_nil]

end Load

variable {buff : List UInt8} {fs : files.Fs} {start : Start}

theorem startNfc_cases (hLength : buff.length = size) :
    startNfc files size fs buff start = .off fs ∨
      startNfc files size fs buff start = .on (.boot ⟨buff, hLength⟩ fs) (start.bleUartInit = 0) := by
  unfold startNfc
  split
  · exact .inl rfl
  · split
    · exact .inl rfl
    · split
      · exact .inl rfl
      · exact .inr rfl

/-- A start that has reached the emulation shows the record, or its first bytes. -/
def Shows (size : Nat) (record : files.Fs → Nat → Option (List UInt8)) (fs : files.Fs) (buff : List UInt8) : Prop :=
  ∃ data, record fs flashUrlAddressId = some data ∧ data ≠ [] ∧ data.take size <+: buff

inductive Started (record : files.Fs → Nat → Option (List UInt8)) : State size files.Fs → Prop
  | failed (fs : files.Fs) : Started record (.off fs)
  | shows (buff : Bytes size) (fs : files.Fs) (loops : Bool) (h : Shows size record fs buff.toList) :
      Started record (.on (.boot buff fs) loops)

theorem started_startNfc (hLength : buff.length = size) (h : Shows size record fs buff) :
    Started record (startNfc files size fs buff start) := by
  obtain hOff | hOn := @startNfc_cases size files buff fs start hLength
  · rw [hOff]
    exact .failed fs
  · rw [hOn]
    exact .shows ⟨buff, hLength⟩ fs _ h

include hFiles in
theorem shows_default (hOk : ¬ (files.write fs flashUrlAddressId defaultFile).2 < 0) :
    Shows size record (files.write fs flashUrlAddressId defaultFile).1 (writeAt buff 0 defaultFile) := by
  refine ⟨defaultFile, ?_, by decide, ?_⟩
  · rw [hFiles.written fs flashUrlAddressId defaultFile (not_lt.mp hOk)]
    exact if_neg (by decide)
  · rw [writeAt_zero]
    exact (List.take_prefix size defaultFile).trans (List.prefix_append _ _)

theorem shows_found {data : List UInt8} (hRecord : record fs flashUrlAddressId = some data) (hNonempty : data ≠ []) :
    Shows size record fs (padded size data) := by
  refine ⟨data, hRecord, hNonempty, ?_⟩
  rw [padded, writeAt_zero]
  exact List.prefix_append _ _

section Main

include hFiles hSize

theorem main_of_found {data : List UInt8} (hRecord : record fs flashUrlAddressId = some data) (hNonempty : data ≠ [])
    (hButton : start.restoreButton = false) :
    main files lib size fs start = .off fs ∨
      main files lib size fs start =
        .on (.boot ⟨padded size data, length_padded size data⟩ fs) (start.bleUartInit = 0) := by
  have hLoaded : ¬ Int.ofNat data.length < 0 := not_lt.mpr (Int.natCast_nonneg _)
  unfold main
  rw [ndefFileLoad_of_found hFiles hSize hRecord hNonempty, hButton]
  split
  · exact .inl rfl
  · split
    · exact .inl rfl
    · dsimp only
      rw [if_neg hLoaded, if_neg Bool.false_ne_true]
      exact startNfc_cases (length_padded size data)

include hLib

/-- Loading leaves a buffer of the same size that shows the record, or it fails. -/
theorem ndefFileLoad_cases (hFits : defaultFile.length ≤ size) (fs : files.Fs) :
    let (err, fs, buff) := ndefFileLoad files lib fs (List.replicate size 0) (UInt32.ofNat size)
    buff.length = size ∧ (err < 0 ∨ Shows size record fs buff) := by
  by_cases hFound : ∃ data, record fs flashUrlAddressId = some data ∧ data ≠ []
  · obtain ⟨data, hRecord, hNonempty⟩ := hFound
    rw [ndefFileLoad_of_found hFiles hSize hRecord hNonempty]
    exact ⟨length_padded size data, .inr (shows_found hRecord hNonempty)⟩
  · have hAbsent : ∀ data, record fs flashUrlAddressId = some data → data = [] :=
      fun data hRecord => not_not.mp fun hNonempty => hFound ⟨data, hRecord, hNonempty⟩
    have hZeros : (List.replicate size (0 : UInt8)).length = size := List.length_replicate
    rw [ndefFileLoad_of_absent hFiles hSize hAbsent, ndefRestoreDefault_eq hLib hSize hZeros hFits]
    refine ⟨?_, (em _).imp_right (shows_default hFiles)⟩
    rw [length_writeAt (by rwa [hZeros, Nat.zero_add]), hZeros]

theorem started_main (hFits : defaultFile.length ≤ size) (fs : files.Fs) (start : Start) :
    Started record (main files lib size fs start) := by
  have hLoad := ndefFileLoad_cases hFiles hLib hSize hFits fs
  unfold main
  split
  · exact .failed fs
  · split
    · exact .failed fs
    · generalize ndefFileLoad files lib fs (List.replicate size 0) (UInt32.ofNat size) = loaded at hLoad
      obtain ⟨err, fs, buff⟩ := loaded
      obtain ⟨hLength, hShows⟩ := hLoad
      dsimp only
      split
      · exact .failed fs
      · rename_i hLoaded
        split
        · rw [ndefRestoreDefault_eq hLib hSize hLength hFits]
          dsimp only
          split
          · exact .failed _
          · rename_i hOk
            refine started_startNfc ?_ (shows_default hFiles hOk)
            rw [length_writeAt (by rwa [hLength, Nat.zero_add]), hLength]
        · exact started_startNfc hLength (hShows.resolve_left hLoaded)

end Main

end Start

/-! ## Every start -/

section Starts

variable {size : Nat} {files : FileSystem} {record : files.Fs → Nat → Option (List UInt8)} {lib : UriMsgLib}

theorem next_ne_outOfBounds (hFiles : Durable files record) (hLib : Encodes lib) (hSize : size < 2 ^ 32)
    (hFits : defaultFile.length ≤ size) {s : State size files.Fs} (h : ∀ fs, s ≠ .outOfBounds fs) (i : Input size) :
    ∀ fs, (machine files lib size).next s i ≠ .outOfBounds fs := by
  intro fs hNext
  cases s with
  | off fs' =>
    cases i with
    | powerOn start =>
      have hStarted := started_main hFiles hLib hSize hFits fs' start
      rw [show main files lib size fs' start = .outOfBounds fs from hNext] at hStarted
      cases hStarted
    | powerOff | side => cases hNext
  | on tag loops =>
    cases i with
    | powerOn | powerOff => cases hNext
    | side j => cases j <;> cases loops <;> cases hNext
  | outOfBounds fs' => exact h fs' rfl

/-- No start writes outside of the buffer, and each one that reaches the emulation shows what the flash holds. -/
theorem shows_run (hFiles : Durable files record) (hLib : Encodes lib) (hSize : size < 2 ^ 32)
    (hFits : defaultFile.length ≤ size) (fs : files.Fs) (is : List (Input size)) :
    (∀ fs', (machine files lib size).run (.off fs) is ≠ .outOfBounds fs') ∧
      ∀ p ∈ (machine files lib size).situations (.off fs) is, ∀ fs' start, p.1 = .off fs' → p.2 = .powerOn start →
        Started record ((machine files lib size).next p.1 p.2) := by
  constructor
  · exact (machine files lib size).run_invariant (I := fun s => ∀ fs', s ≠ .outOfBounds fs')
      (fun s i h => next_ne_outOfBounds hFiles hLib hSize hFits h i) _ is nofun
  · rintro ⟨s, i⟩ - fs' start hState hInput
    obtain rfl : s = .off fs' := hState
    obtain rfl : i = .powerOn start := hInput
    exact started_main hFiles hLib hSize hFits fs' start

theorem durable_recordFiles : Durable recordFiles id where
  written fs recId data _ := Function.update_self recId _ fs
  failed fs recId data h := absurd (Int.natCast_nonneg data.length) (not_le.mpr h)
  found fs recId data size h := documented_recordFiles.read fs recId data size h
  absent fs recId size h := by
    have hNone : fs recId = none := h
    change (Option.getD (fs recId) []).take size = [] ∧ Option.elim (fs recId) (-2) (Int.ofNat ·.length) ≤ 0
    rw [hNone]
    exact ⟨List.take_nil, by decide⟩

theorem encodes_t4tUriMsg : Encodes PersistedTag.t4tUriMsg where
  ndefFile := documented_t4tNdefFile
  uriMsg _ h := if_neg (not_lt.mpr h)
  fileSize _ := rfl

/-- Records in a flash with a number of writes left. -/
def wornFiles : FileSystem where
  Fs := Nat × recordFiles.Fs
  write fs recId data :=
    match fs with
    | (0, records) => ((0, records), -5)
    | (left + 1, records) =>
      ((left, (recordFiles.write records recId data).1), (recordFiles.write records recId data).2)
  read fs recId size := recordFiles.read fs.2 recId size

theorem durable_wornFiles : Durable wornFiles Prod.snd where
  written fs recId data h := by
    obtain ⟨left, records⟩ := fs
    cases left with
    | zero => cases h
    | succ left => exact durable_recordFiles.written records recId data h
  failed fs recId data h := by
    obtain ⟨left, records⟩ := fs
    cases left with
    | zero => rfl
    | succ left => exact durable_recordFiles.failed records recId data h
  found fs recId data size h := durable_recordFiles.found fs.2 recId data size h
  absent fs recId size h := durable_recordFiles.absent fs.2 recId size h

/-- Nothing fails, and the button is not pressed. -/
def plainStart : Start := ⟨0, 0, false, 0, 0, 0, 0⟩

def restoreStart : Start := { plainStart with restoreButton := true }

/-- The first start stores the default message, and the one with the button pressed fails to. -/
def wornRun : List (Input 64) :=
  [.powerOn plainStart, .powerOff, .powerOn restoreStart, .powerOn plainStart, .powerOff, .powerOn plainStart]

theorem shows_run_wornRun :
    (∀ fs', (machine wornFiles PersistedTag.t4tUriMsg 64).run (.off (1, fun _ => none)) wornRun ≠ .outOfBounds fs') ∧
      ∀ p ∈ (machine wornFiles PersistedTag.t4tUriMsg 64).situations (.off (1, fun _ => none)) wornRun,
        ∀ fs' start, p.1 = .off fs' → p.2 = .powerOn start →
          Started Prod.snd ((machine wornFiles PersistedTag.t4tUriMsg 64).next p.1 p.2) :=
  shows_run durable_wornFiles encodes_t4tUriMsg (by decide) (by decide) _ _

end Starts

/-! ## Updates and losses of power -/

section Updates

variable {size : Nat} {files : FileSystem} {lib : UriMsgLib}

/-- The update whose callback wins the compare-and-swap in this step. -/
def won (s : State size files.Fs) (i : Input size) : List (List UInt8) :=
  match s, i with
  | .on tag _, .side .callback => FlashHandOff.won tag .callback
  | _, _ => []

/-- What `ndef_file_update` gets from the main loop in this step. -/
def passed (lib : UriMsgLib) (s : State size files.Fs) (i : Input size) : List (List UInt8) :=
  ((machine files lib size).output s i).toList

def underWay (s : State size files.Fs) : List (List UInt8) :=
  match s with
  | .on tag _ => FlashHandOff.underWay tag
  | .off _ | .outOfBounds _ => []

def InPhase (s : State size files.Fs) : Prop := ∀ tag loops, s = .on tag loops → tag.InPhase

def CutsPower : Input size → Prop
  | .powerOff => True
  | .powerOn _ | .side _ => False

instance : DecidablePred (@CutsPower size) := fun i => by cases i <;> unfold CutsPower <;> infer_instance

theorem next_side {tag : FlashUpdate.State size files.Fs} {j : FlashUpdate.Input size} (h : j ≠ .loop) (loops : Bool) :
    (machine files lib size).next (.on tag loops) (.side j) =
      .on ((FlashUpdate.machine files size).next tag j) loops := by
  cases j with
  | write | updated | callback => cases loops <;> rfl
  | loop => exact absurd rfl h

theorem inPhase_off (fs : files.Fs) : InPhase (.off fs : State size files.Fs) := fun _ _ hState => by cases hState

/-- After a start nothing is under way. -/
theorem main_fresh (fs : files.Fs) (start : Start) :
    InPhase (main files lib size fs start) ∧ underWay (main files lib size fs start) = [] := by
  have hOff (fs : files.Fs) : InPhase (.off fs : State size files.Fs) ∧ underWay (.off fs : State size files.Fs) = [] :=
    ⟨inPhase_off fs, rfl⟩
  have hNfc (fs : files.Fs) (buff : List UInt8) :
      InPhase (startNfc files size fs buff start) ∧ underWay (startNfc files size fs buff start) = [] := by
    unfold startNfc
    split
    · exact hOff fs
    · split
      · exact hOff fs
      · split
        · exact hOff fs
        · split
          · refine ⟨?_, rfl⟩
            rintro tag loops hState
            obtain ⟨rfl, -⟩ := State.on.inj hState
            exact .free .idle trivial
          · exact ⟨fun _ _ hState => (by cases hState), rfl⟩
  unfold main
  split
  · exact hOff fs
  · split
    · exact hOff fs
    · dsimp only
      split
      · exact hOff _
      · split
        · split
          · exact hOff _
          · exact hNfc _ _
        · exact hNfc _ _

variable {s : State size files.Fs} {i : Input size}

/-- A step of either side keeps the balance of the hand-over. -/
theorem balance_side {tag : FlashUpdate.State size files.Fs} (h : tag.InPhase) (loops : Bool)
    (j : FlashUpdate.Input size) :
    InPhase ((machine files lib size).next (.on tag loops) (.side j)) ∧
      underWay (.on tag loops) ++ won (.on tag loops) (.side j) =
        passed lib (.on tag loops) (.side j) ++ underWay ((machine files lib size).next (.on tag loops) (.side j)) := by
  have hOn {next : FlashUpdate.State size files.Fs} (hNext : next.InPhase) (loops : Bool) :
      InPhase (.on next loops) := by
    rintro _ _ hState
    obtain ⟨rfl, -⟩ := State.on.inj hState
    exact hNext
  cases j with
  | write file =>
    rw [next_side (j := .write file) nofun loops]
    refine ⟨hOn (inPhase_next h _) loops, ?_⟩
    rw [underWay, underWay, underWay_next_write]
    cases loops <;> exact List.append_nil _
  | updated dataLength handled file =>
    rw [next_side (j := .updated dataLength handled file) nofun loops]
    refine ⟨hOn (inPhase_next h _) loops, ?_⟩
    rw [underWay, underWay, underWay_next_updated]
    cases loops <;> exact List.append_nil _
  | callback =>
    rw [next_side (j := .callback) nofun loops]
    refine ⟨hOn (inPhase_next h _) loops, ?_⟩
    cases loops <;> exact balance h .callback
  | loop =>
    cases loops with
    | false => exact ⟨hOn h false, List.append_nil _⟩
    | true => exact ⟨hOn (inPhase_mainLoop h) true, balance_loop h⟩

theorem inPhase_step (h : InPhase s) (i : Input size) : InPhase ((machine files lib size).next s i) := by
  cases s with
  | off fs =>
    cases i with
    | powerOn start => exact (main_fresh fs start).1
    | powerOff | side => exact h
  | on tag loops =>
    cases i with
    | powerOn => exact h
    | powerOff => exact inPhase_off tag.fs
    | side j => exact (balance_side (h tag loops rfl) loops j).1
  | outOfBounds fs => cases i <;> exact h

/-- A step keeps the balance, or it cuts the power and what is under way is lost. -/
theorem balance_cases (h : InPhase s) (i : Input size) :
    underWay s ++ won s i = passed lib s i ++ underWay ((machine files lib size).next s i) ∨
      CutsPower i ∧ won s i = [] ∧ passed lib s i = [] ∧ underWay ((machine files lib size).next s i) = [] := by
  cases s with
  | off fs =>
    cases i with
    | powerOn start => exact .inl (main_fresh fs start).2.symm
    | powerOff | side => exact .inl rfl
  | on tag loops =>
    cases i with
    | powerOn => exact .inl (List.append_nil _)
    | powerOff => exact .inr ⟨trivial, rfl, rfl, rfl⟩
    | side j => exact .inl (balance_side (h tag loops rfl) loops j).2
  | outOfBounds fs => cases i <;> exact .inl rfl

theorem length_underWay_le (s : State size files.Fs) : (underWay s).length ≤ 1 := by
  cases s with
  | off | outOfBounds => exact Nat.zero_le 1
  | on tag _ => exact length_underWay_le_one tag

/-- Over any number of power cycles the flash gets the updates that win, each at most once and in
their order, and a loss of power costs at most the one under way. -/
theorem passed_sublist_won (fs : files.Fs) (is : List (Input size)) :
    ((machine files lib size).observe (passed lib) (.off fs) is).Sublist
      ((machine files lib size).observe won (.off fs) is) ∧
      ((machine files lib size).observe won (.off fs) is).length ≤
        ((machine files lib size).observe (passed lib) (.off fs) is).length + 1 + is.countP fun i => CutsPower i := by
  have hStep (s : State size files.Fs) (i : Input size) (h : InPhase s) : InPhase ((machine files lib size).next s i) :=
    inPhase_step h i
  constructor
  · have hBalance := (machine files lib size).observe_sublist won (passed lib) underWay hStep
      (fun s i h => ?_) (inPhase_off fs) is
    · exact (List.sublist_append_left _ _).trans hBalance
    · obtain hKept | ⟨-, -, hPassed, hNone⟩ := @balance_cases size files lib s h i
      · exact hKept ▸ List.Sublist.refl _
      · rw [hPassed, hNone]
        exact List.nil_sublist _
  · have hLength := (machine files lib size).length_observe_le won (passed lib) underWay
      (fun _ i => CutsPower i) 1 hStep (fun s i h => ?_) (inPhase_off fs) is
    · have hHeld := length_underWay_le ((machine files lib size).run (.off fs) is)
      rw [(machine files lib size).countP_situations (fun i => decide (CutsPower i)), Nat.one_mul] at hLength
      change 0 + _ ≤ _ at hLength
      omega
    · obtain hKept | ⟨hCut, hWon, hPassed, hNone⟩ := @balance_cases size files lib s h i
      · have hSame := congrArg List.length hKept
        rw [List.length_append, List.length_append] at hSame
        omega
      · rw [if_pos hCut, hWon, hPassed, hNone]
        exact length_underWay_le s

end Updates

/-! ## A message that has been flashed -/

section Flashed

variable {size : Nat} {files : FileSystem} {record : files.Fs → Nat → Option (List UInt8)} {lib : UriMsgLib}
variable {s : State size files.Fs} {i : Input size} {data : List UInt8}

/-- "NDEF message successfully flashed." -/
def Flashed (s : State size files.Fs) (i : Input size) : Prop :=
  ∃ tag data, s = .on tag true ∧ i = .side .loop ∧ (mainLoop files tag).2 = some data ∧
    0 ≤ (files.write tag.fs flashUrlAddressId data).2

/-- No message is flashed, and the default message is not asked for. -/
def KeepsRecord (s : State size files.Fs) (i : Input size) : Prop :=
  ¬ Flashed s i ∧ ∀ start, i = .powerOn start → start.restoreButton = false

/-- `flash_buffer_prepare` is called for a file with a message of `dataLength` bytes and finds the flag free. -/
def Enters (file : Bytes size) (dataLength : Nat) (s : State size files.Fs) : Prop :=
  ∃ tag loops, s = .on tag loops ∧ tag.callback = .cas dataLength ∧ tag.opFlags = .writeFinished ∧ tag.ndefMsgBuf = file

/-- The update of this file is under way. -/
def Carries (file : Bytes size) (dataLength : Nat) (s : State size files.Fs) : Prop :=
  ∃ tag loops, s = .on tag loops ∧ tag.InPhase ∧ PersistedTag.Pending file dataLength tag

/-- The tag is the cleared buffer with the message in front after every start. -/
def ShowsAtStart (data : List UInt8) (s t : State size files.Fs) (i : Input size) : Prop :=
  ∀ fs start tag loops, s = .off fs → i = .powerOn start → t = .on tag loops →
    tag.ndefMsgBuf.toList = data ++ List.replicate (size - data.length) 0

theorem keepsRecord_of_quiet {is : List (Input size)}
    (hQuiet : (machine files lib size).observe (passed lib) s is = [])
    (hButton : ∀ i ∈ is, ∀ start, i = .powerOn start → start.restoreButton = false) :
    ∀ p ∈ (machine files lib size).situations s is, KeepsRecord p.1 p.2 := by
  intro p hp
  refine ⟨?_, (machine files lib size).forall_situations
    (p := fun i => ∀ start, i = .powerOn start → start.restoreButton = false) hButton p hp⟩
  rintro ⟨tag, data, hState, hInput, hOutput, -⟩
  have hPassed : passed lib p.1 p.2 = [] := List.flatMap_eq_nil_iff.mp hQuiet p hp
  rw [hState, hInput] at hPassed
  have hNone : (mainLoop files tag).2 = none := Option.toList_eq_nil_iff.mp hPassed
  cases hNone.symm.trans hOutput

theorem fs_mainLoop (tag : FlashUpdate.State size files.Fs) :
    (mainLoop files tag).1.fs =
      (mainLoop files tag).2.elim tag.fs fun data => (files.write tag.fs flashUrlAddressId data).1 := by
  unfold mainLoop
  split
  · dsimp only
    split <;> rfl
  · dsimp only
    split <;> rfl
  · rfl
  · rfl

theorem fs_next_side (tag : FlashUpdate.State size files.Fs) {j : FlashUpdate.Input size} (h : j ≠ .loop) :
    ((FlashUpdate.machine files size).next tag j).fs = tag.fs := by
  cases j with
  | write file =>
    obtain hSame | ⟨-, hWrite⟩ := next_write_cases files tag file
    · rw [hSame]
    · rw [hWrite]
  | updated dataLength handled file =>
    obtain hSame | ⟨-, hUpdated⟩ := next_updated_cases files tag dataLength handled file
    · rw [hSame]
    · rw [hUpdated, nfcCallback]
      split
      · split <;> rfl
      · rfl
  | callback =>
    change (flashBufferPrepare files tag).fs = tag.fs
    unfold flashBufferPrepare
    split
    · rfl
    · split <;> rfl
    all_goals rfl
  | loop => exact absurd rfl h

theorem carries_of_enters {file : Bytes size} {dataLength : Nat} (hPhase : InPhase s) (h : Enters file dataLength s) :
    Carries file dataLength s := by
  obtain ⟨tag, loops, rfl, hCallback, hFlags, hBuf⟩ := h
  exact ⟨tag, loops, rfl, hPhase tag loops rfl, .entered hCallback hFlags hBuf⟩

/-- Until `ndef_file_update` is called or the power is lost the update stays under way. -/
theorem carries_next {file : Bytes size} {dataLength : Nat} (h : Carries file dataLength s) (hOn : ¬ CutsPower i)
    (hQuiet : passed lib s i = []) : Carries file dataLength ((machine files lib size).next s i) := by
  obtain ⟨tag, loops, rfl, hPhase, hPending⟩ := h
  cases i with
  | powerOn => exact ⟨tag, loops, rfl, hPhase, hPending⟩
  | powerOff => exact absurd trivial hOn
  | side j =>
    have hNext (hOutput : (FlashUpdate.machine files size).output tag j = none) (loops : Bool) :
        Carries file dataLength (.on ((FlashUpdate.machine files size).next tag j) loops) :=
      ⟨_, loops, rfl, inPhase_next hPhase j, PersistedTag.pending_next hPhase hPending hOutput⟩
    by_cases hLoop : j = .loop
    · obtain rfl := hLoop
      cases loops with
      | false => exact ⟨tag, false, rfl, hPhase, hPending⟩
      | true => exact hNext (Option.toList_eq_nil_iff.mp hQuiet) true
    · rw [next_side hLoop]
      refine hNext ?_ loops
      cases j with
      | write | updated | callback => rfl
      | loop => exact absurd rfl hLoop

theorem carries_run {file : Bytes size} {dataLength : Nat} {is : List (Input size)} (h : Carries file dataLength s)
    (hOn : ∀ j ∈ is, ¬ CutsPower j) (hQuiet : (machine files lib size).observe (passed lib) s is = []) :
    Carries file dataLength ((machine files lib size).run s is) := by
  refine (machine files lib size).run_invariant_of_situations (I := Carries file dataLength)
    (Q := fun t j => ¬ CutsPower j ∧ passed lib t j = [])
    (fun _ _ hStep hBefore => carries_next hBefore hStep.1 hStep.2)
    s is (fun p hp => ⟨?_, List.flatMap_eq_nil_iff.mp hQuiet p hp⟩) h
  exact (machine files lib size).forall_situations (p := fun j => ¬ CutsPower j) hOn p hp

/-- A file of at most 255 bytes is written whole. -/
theorem output_of_carries {file : Bytes size} {dataLength : Nat} {tag : FlashUpdate.State size files.Fs}
    {data : List UInt8} (hPending : PersistedTag.Pending file dataLength tag) (hPhase : tag.InPhase)
    (hShort : dataLength + 2 < 256) (hOutput : (mainLoop files tag).2 = some data) :
    data = file.toList.take (dataLength + 2) := by
  by_cases hLoop : tag.loop = .update
  · obtain ⟨hBuf, hLen⟩ := PersistedTag.flashBuf_of_pending hPhase hPending hLoop
    rw [mainLoop, hLoop] at hOutput
    rw [← Option.some.inj hOutput, hBuf, hLen, UInt8.toNat_ofNat', nlenFieldSize, Nat.mod_eq_of_lt hShort]
  · cases hAt : tag.loop with
    | update => exact absurd hAt hLoop
    | take | cas | reset =>
      rw [mainLoop, hAt] at hOutput
      cases hOutput

variable (hFiles : Durable files record)

include hFiles

theorem record_of_flashed {file : Bytes size} {dataLength : Nat} (hCarries : Carries file dataLength s)
    (hShort : dataLength + 2 < 256) (hFits : dataLength + 2 ≤ size) (h : Flashed s i) :
    record ((machine files lib size).next s i).fs flashUrlAddressId = some (file.toList.take (dataLength + 2)) := by
  obtain ⟨tag, data, rfl, rfl, hOutput, hOk⟩ := h
  obtain ⟨_, _, hState, hPhase, hPending⟩ := hCarries
  obtain ⟨rfl, -⟩ := State.on.inj hState
  obtain rfl := output_of_carries hPending hPhase hShort hOutput
  change record (mainLoop files tag).1.fs flashUrlAddressId = _
  rw [fs_mainLoop, hOutput]
  refine (hFiles.written tag.fs flashUrlAddressId _ hOk).trans (if_neg ?_)
  refine List.ne_nil_of_length_pos ?_
  rw [List.length_take, List.Vector.toList_length]
  omega

theorem record_loop_of_keeps (tag : FlashUpdate.State size files.Fs)
    (h : KeepsRecord (.on tag true) (.side .loop : Input size)) :
    record (mainLoop files tag).1.fs flashUrlAddressId = record tag.fs flashUrlAddressId := by
  rw [fs_mainLoop]
  cases hOutput : (mainLoop files tag).2 with
  | none => rfl
  | some data =>
    have hFailed : ¬ 0 ≤ (files.write tag.fs flashUrlAddressId data).2 :=
      fun hOk => h.1 ⟨tag, data, rfl, rfl, hOutput, hOk⟩
    exact hFiles.failed tag.fs flashUrlAddressId data (not_le.mp hFailed)

theorem record_side_of_keeps (tag : FlashUpdate.State size files.Fs) (loops : Bool) (j : FlashUpdate.Input size)
    (h : KeepsRecord (.on tag loops) (.side j : Input size)) :
    record ((machine files lib size).next (.on tag loops) (.side j)).fs flashUrlAddressId =
      record tag.fs flashUrlAddressId := by
  by_cases hLoop : j = .loop
  · obtain rfl := hLoop
    cases loops with
    | false => rfl
    | true => exact record_loop_of_keeps hFiles tag h
  · rw [next_side hLoop, State.fs, fs_next_side tag hLoop]

/-- A record stays through everything else, and a start with it shows it. -/
theorem kept_next (hSize : size < 2 ^ 32) (hRecord : record s.fs flashUrlAddressId = some data) (hNonempty : data ≠ [])
    (hLength : data.length ≤ size) (h : KeepsRecord s i) :
    record ((machine files lib size).next s i).fs flashUrlAddressId = some data ∧
      ShowsAtStart data s ((machine files lib size).next s i) i := by
  cases s with
  | off fs =>
    cases i with
    | powerOn start =>
      change record (main files lib size fs start).fs flashUrlAddressId = some data ∧
        ShowsAtStart data (.off fs) (main files lib size fs start) (.powerOn start)
      have hFound : record fs flashUrlAddressId = some data := hRecord
      obtain hOff | hOn : main files lib size fs start = .off fs ∨ main files lib size fs start = .on _ _ :=
        main_of_found hFiles hSize hFound hNonempty (h.2 start rfl)
      · rw [hOff]
        exact ⟨hFound, fun _ _ _ _ _ _ hTag => by cases hTag⟩
      · rw [hOn]
        refine ⟨hFound, ?_⟩
        rintro _ _ tag loops - - hTag
        obtain ⟨rfl, -⟩ := State.on.inj hTag
        exact padded_eq hLength
    | powerOff | side => exact ⟨hRecord, fun _ _ _ _ _ hInput _ => by cases hInput⟩
  | on tag loops =>
    refine ⟨?_, fun _ _ _ _ hState _ _ => by cases hState⟩
    cases i with
    | powerOn | powerOff => exact hRecord
    | side j => exact (record_side_of_keeps hFiles tag loops j h).trans hRecord
  | outOfBounds fs => exact ⟨hRecord, fun _ _ _ _ hState _ _ => by cases hState⟩

/-- A message of at most 253 bytes that has been flashed is what every later start shows, wherever the
power is lost, until the next message is flashed. -/
theorem durable (hSize : size < 2 ^ 32) {fs : files.Fs} {pre mid later : List (Input size)} {file : Bytes size}
    {dataLength : Nat} (hShort : dataLength + 2 < 256) (hFits : dataLength + 2 ≤ size)
    (hEnters : Enters file dataLength ((machine files lib size).run (.off fs) pre))
    (hOn : ∀ i ∈ mid, ¬ CutsPower i)
    (hQuiet : (machine files lib size).observe (passed lib) ((machine files lib size).run (.off fs) pre) mid = [])
    (hFlashed : Flashed ((machine files lib size).run (.off fs) (pre ++ mid)) (.side .loop))
    (hKeeps : ∀ p ∈ (machine files lib size).situations
      ((machine files lib size).run (.off fs) (pre ++ mid ++ [.side .loop])) later, KeepsRecord p.1 p.2) :
    ∀ p ∈ (machine files lib size).situations
      ((machine files lib size).run (.off fs) (pre ++ mid ++ [.side .loop])) later,
      ShowsAtStart (file.toList.take (dataLength + 2)) p.1 ((machine files lib size).next p.1 p.2) p.2 := by
  have hPhase : InPhase ((machine files lib size).run (.off fs) pre) :=
    (machine files lib size).run_invariant (I := InPhase) (fun _ i h => inPhase_step h i) _ pre (inPhase_off fs)
  have hCarries : Carries file dataLength ((machine files lib size).run (.off fs) (pre ++ mid)) := by
    rw [run_append]
    exact carries_run (carries_of_enters hPhase hEnters) hOn hQuiet
  have hWritten : record ((machine files lib size).run (.off fs) (pre ++ mid ++ [.side .loop])).fs flashUrlAddressId =
      some (file.toList.take (dataLength + 2)) := by
    rw [run_append]
    exact record_of_flashed hFiles hCarries hShort hFits hFlashed
  have hLength : (file.toList.take (dataLength + 2)).length = dataLength + 2 := by
    rw [List.length_take, List.Vector.toList_length, Nat.min_eq_left hFits]
  have hNonempty : file.toList.take (dataLength + 2) ≠ [] := List.ne_nil_of_length_pos (by omega)
  intro p hp
  have hNow := hKeeps p hp
  obtain ⟨before, after, rfl, hState⟩ := (machine files lib size).mem_situations_iff.mp hp
  rw [situations_append, List.forall_mem_append] at hKeeps
  have hRecord : record p.1.fs flashUrlAddressId = some (file.toList.take (dataLength + 2)) := by
    rw [hState]
    exact (machine files lib size).run_invariant_of_situations
      (I := fun t => record t.fs flashUrlAddressId = some (file.toList.take (dataLength + 2)))
      (fun _ _ hStep hBefore => (kept_next hFiles hSize hBefore hNonempty (hLength.trans_le hFits) hStep).1) _ before
      hKeeps.1 hWritten
  exact (kept_next hFiles hSize hRecord hNonempty (hLength.trans_le hFits) hNow).2

end Flashed

/-! ## A message that outlives two losses of power -/

/-- A message of three bytes. -/
def smallFile : Bytes 5 := ⟨[0x00, 0x03, 0xD0, 0x00, 0x00], rfl⟩

/-- The flash holds one byte before the first start. -/
def firstRecord : recordFiles.Fs := fun _ => some [0x01]

/-- Somebody writes the tag. -/
def writtenRun : List (Input 5) := [.powerOn plainStart, .side (.write smallFile), .side (.updated 3 false smallFile)]

/-- Both sides up to the write; another event of the tag waits. -/
def handOver : List (Input 5) :=
  [.side .callback, .side .callback, .side .callback, .side (.write (List.Vector.replicate 5 0)), .side .callback,
    .side .callback, .side .loop, .side .loop]

/-- The first of the later starts fails. -/
def laterCycles : List (Input 5) :=
  [.powerOff, .powerOn { plainStart with boardInit := -5 }, .powerOn plainStart, .side .loop, .powerOff,
    .powerOn plainStart]

theorem not_asks_laterCycles : ∀ i ∈ laterCycles, ∀ start, i = .powerOn start → start.restoreButton = false := by
  simp only [laterCycles, List.forall_mem_cons]
  refine ⟨?_, ?_, ?_, ?_, ?_, ?_, List.forall_mem_nil _⟩
  all_goals
    intro start hInput
    cases hInput <;> rfl

theorem durable_smallFile :
    ∃ tag loops, (machine recordFiles PersistedTag.t4tUriMsg 5).run (.off firstRecord)
        (writtenRun ++ handOver ++ [.side .loop] ++ laterCycles) = .on tag loops ∧
      tag.ndefMsgBuf.toList = smallFile.toList := by
  have hEnters :
      Enters smallFile 3 ((machine recordFiles PersistedTag.t4tUriMsg 5).run (.off firstRecord) writtenRun) :=
    ⟨_, _, rfl, rfl, rfl, rfl⟩
  have hOn : ∀ i ∈ handOver, ¬ CutsPower i := by
    simp only [handOver, List.forall_mem_cons]
    exact ⟨id, id, id, id, id, id, id, id, List.forall_mem_nil _⟩
  have hFlashed : Flashed ((machine recordFiles PersistedTag.t4tUriMsg 5).run (.off firstRecord)
      (writtenRun ++ handOver)) (.side .loop) := ⟨_, _, rfl, rfl, rfl, by decide⟩
  have hShows := durable durable_recordFiles (by decide) (by decide) (by decide) hEnters hOn rfl hFlashed
    (keepsRecord_of_quiet rfl not_asks_laterCycles)
  have hLast : ((machine recordFiles PersistedTag.t4tUriMsg 5).run ((machine recordFiles PersistedTag.t4tUriMsg 5).run
      (.off firstRecord) (writtenRun ++ handOver ++ [.side .loop])) (laterCycles.take 5), Input.powerOn plainStart) ∈
      (machine recordFiles PersistedTag.t4tUriMsg 5).situations
        ((machine recordFiles PersistedTag.t4tUriMsg 5).run (.off firstRecord)
          (writtenRun ++ handOver ++ [.side .loop])) laterCycles :=
    (machine recordFiles PersistedTag.t4tUriMsg 5).mem_situations_iff.mpr ⟨laterCycles.take 5, [], rfl, rfl⟩
  exact ⟨_, _, rfl, hShows _ hLast _ _ _ _ rfl rfl rfl⟩

end IotRange.PowerCycle
