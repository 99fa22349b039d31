import IotRange.AppConfig.Ndef
import Mathlib.Logic.Function.Basic

/-! # The stored NDEF file (ndef_file_m.c)

The flash file system and the NFC library are parameters. A read gives the bytes that reach the
buffer and the returned value.
-/
namespace IotRange.NdefFile
open AppConfig
set_option autoImplicit false

def flashUrlAddressId : Nat := 1

def mUrl : List UInt8 := ascii ['n', 'o', 'r', 'd', 'i', 'c', 's', 'e', 'm', 'i', '.', 'c', 'o', 'm']

/-- `nfc_uri_rec_id` of "http://www.". -/
def nfcUriHttpWww : UInt8 := 0x01

/-- `nvs_write` and `nvs_read`, or `zms_write` and `zms_read`, by record id. -/
structure FileSystem where
  Fs : Type
  write : Fs → Nat → List UInt8 → Fs × Int
  read : Fs → Nat → Nat → List UInt8 × Int

/-- The documented behaviour on the records held: a write of no bytes deletes, and a read returns
the length of the whole record. -/
structure FileSystem.Documented (files : FileSystem) (record : files.Fs → Nat → Option (List UInt8)) : Prop where
  write : ∀ fs id data, record (files.write fs id data).1 id = if data = [] then none else some data
  read : ∀ fs id data size, record fs id = some data → files.read fs id size = (data.take size, Int.ofNat data.length)

/-- `nfc_ndef_uri_msg_encode` and the size that `nfc_t4t_ndef_file_encode` leaves. -/
structure UriMsgLib extends NdefFileLib where
  uriMsgEncode : UInt8 → List UInt8 → UInt32 → Except Int (List UInt8)
  fileSize : UInt32 → UInt32

section Operations

variable (files : FileSystem) (lib : UriMsgLib)

def ndefFileUpdate (fs : files.Fs) (buff : List UInt8) (size : Nat) : files.Fs × Int :=
  files.write fs flashUrlAddressId (buff.take size)

/-- The returned value, and the buffer and the size afterwards. -/
def ndefFileDefaultMessage (buff : List UInt8) (size : UInt32) : Int × List UInt8 × UInt32 :=
  match lib.uriMsgEncode nfcUriHttpWww mUrl (lib.msgSizeGet size) with
  | .error err => (err, buff, size)
  | .ok msg =>
    let buff := writeAt buff lib.msgOffset msg
    match lib.fileEncode buff (UInt32.ofNat msg.length) with
    | .error err => (err, buff, size)
    | .ok buff => (0, buff, lib.fileSize (UInt32.ofNat msg.length))

def ndefRestoreDefault (fs : files.Fs) (buff : List UInt8) (size : UInt32) : Int × files.Fs × List UInt8 :=
  let (err, buff, size) := ndefFileDefaultMessage lib buff size
  if err < 0 then (err, fs, buff)
  else
    let (fs, err) := ndefFileUpdate files fs buff size.toNat
    (err, fs, buff)

def ndefFileLoad (fs : files.Fs) (buff : List UInt8) (size : UInt32) : Int × files.Fs × List UInt8 :=
  let (data, err) := files.read fs flashUrlAddressId size.toNat
  let buff := writeAt buff 0 data
  if err > 0 then (err, fs, buff) else ndefRestoreDefault files lib fs buff size

end Operations

section Record

variable {files : FileSystem} {record : files.Fs → Nat → Option (List UInt8)} (hFiles : files.Documented record)

include hFiles

theorem record_ndefFileUpdate (fs : files.Fs) (buff : List UInt8) (size : Nat) :
    record (ndefFileUpdate files fs buff size).1 flashUrlAddressId =
      if buff.take size = [] then none else some (buff.take size) :=
  hFiles.write fs flashUrlAddressId (buff.take size)

/-- A record that fits the buffer is put in front of what the buffer held. -/
theorem ndefFileLoad_of_record (lib : UriMsgLib) {fs : files.Fs} {data buff : List UInt8} {size : UInt32}
    (hRecord : record fs flashUrlAddressId = some data) (hNonempty : data ≠ []) (hFits : data.length ≤ size.toNat) :
    ndefFileLoad files lib fs buff size = (Int.ofNat data.length, fs, writeAt buff 0 data) := by
  have hPos : Int.ofNat data.length > 0 := Int.natCast_pos.mpr (List.length_pos_iff.mpr hNonempty)
  rw [ndefFileLoad, hFiles.read fs flashUrlAddressId data size.toNat hRecord, List.take_of_length_le hFits]
  exact if_pos hPos

end Record

/-- One record for each id. -/
def recordFiles : FileSystem where
  Fs := Nat → Option (List UInt8)
  write fs recId data := (Function.update fs recId (if data = [] then none else some data), Int.ofNat data.length)
  read fs recId size := (((fs recId).getD []).take size, (fs recId).elim (-2) (Int.ofNat ·.length))

theorem documented_recordFiles : recordFiles.Documented id where
  write fs recId data := Function.update_self recId _ fs
  read fs recId data size h := by
    change ((Option.getD (fs recId) []).take size, Option.elim (fs recId) (-2) (Int.ofNat ·.length)) = _
    rw [show fs recId = some data from h]
    rfl

end IotRange.NdefFile
