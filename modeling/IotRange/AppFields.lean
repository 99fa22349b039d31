import IotRange.Library.Bytes
import IotRange.AppProtocol.Constants

/-! # Field registry (app_fields.c)

The store is the module's RAM variables. Its identity fields are never assigned, so they are
constants; a C switch over field ids is a match over the id byte.
-/
namespace IotRange.AppFields
open AppProtocol
set_option autoImplicit false

structure Store where
  battery : UInt8
  temperature : Int16
  distance : UInt16
  position : UInt8
  mode : UInt8
  updateInterval : UInt16
  installLat : Int32
  installLng : Int32
  gnssFix : UInt8
  latitude : Int32
  longitude : Int32
  altitude : Int16
  deviceState : DeviceState
  factoryInitDone : Bool
  unixtime : UInt32
  deriving DecidableEq

def gDeviceType : UInt8 := deviceTypeRl
def gModel : List UInt8 := ascii ['R', 'L', '_', 'T', 'N', '1', '0', '0']
def gSn : List UInt8 := ascii ['1', '2', '3', '4', '5', '6']
def gFwVer : List UInt8 := [1, 0, 0]
def gHwVer : List UInt8 := [1, 0, 0]
def gProtocolVer : UInt8 := protocolVersionValue

/-- The static initialisers. -/
def Store.static : Store where
  battery := 100
  temperature := 250
  distance := 15
  position := 0x00
  mode := 0x02
  updateInterval := 0
  installLat := 246087800
  installLng := 1180689300
  gnssFix := 0x01
  latitude := 246087800
  longitude := 1180689300
  altitude := 15
  deviceState := .factory
  factoryInitDone := false
  unixtime := 0

def fieldIsReadable (fieldId : UInt8) : Bool :=
  match fieldId with
  | fieldDeviceState | fieldDeviceType | fieldModel | fieldSn | fieldFwVer | fieldHwVer
  | fieldProtocolVersion | fieldBattery | fieldTemperature | fieldDistance | fieldPosition
  | fieldMode | fieldUpdateInterval | fieldInstallLocation | fieldGnssFix | fieldLatitude
  | fieldLongitude | fieldAltitude => true
  | _ => false

def fieldIsWritable (fieldId : UInt8) : Bool :=
  match fieldId with
  | fieldMode | fieldUpdateInterval | fieldInstallLocation => true
  | _ => false

/-- The fixed value length of a field, 0 for a variable one. -/
def fieldValueLen (fieldId : UInt8) : Nat :=
  match fieldId with
  | fieldDeviceState => 1
  | fieldDeviceType => 1
  | fieldModel => 0
  | fieldSn => 0
  | fieldFwVer => 3
  | fieldHwVer => 3
  | fieldProtocolVersion => 1
  | fieldBattery => 1
  | fieldTemperature => 2
  | fieldDistance => 2
  | fieldPosition => 1
  | fieldMode => 1
  | fieldUpdateInterval => 2
  | fieldInstallLocation => 8
  | fieldGnssFix => 1
  | fieldLatitude => 4
  | fieldLongitude => 4
  | fieldAltitude => 2
  | _ => 0

def putU16Be (v : UInt16) : List UInt8 := be16 v
def putU32Be (v : UInt32) : List UInt8 := be32 v
def getU16Be (buf : List UInt8) : UInt16 := readBe16 buf
def getU32Be (buf : List UInt8) : UInt32 := readBe32 buf

def appFieldSetBattery (f : Store) (level : UInt8) : Store := { f with battery := level }
def appFieldSetTemperature (f : Store) (temp : Int16) : Store := { f with temperature := temp }
def appFieldSetDistance (f : Store) (dist : UInt16) : Store := { f with distance := dist }
def appFieldSetPosition (f : Store) (pos : UInt8) : Store := { f with position := pos }
def appFieldSetGnssFix (f : Store) (fix_ : UInt8) : Store := { f with gnssFix := fix_ }
def appFieldSetLatitude (f : Store) (lat : Int32) : Store := { f with latitude := lat }
def appFieldSetLongitude (f : Store) (lng : Int32) : Store := { f with longitude := lng }
def appFieldSetAltitude (f : Store) (alt : Int16) : Store := { f with altitude := alt }

def appFieldsInit (f : Store) : Store :=
  { f with
    deviceState := .factory
    factoryInitDone := false
    mode := 0x02
    updateInterval := 0
    installLat := 246087800
    installLng := 1180689300
    gnssFix := 0x01
    latitude := 246087800
    longitude := 1180689300
    altitude := 15 }

/-- The bytes written to `buf`; none when the field is not supported. -/
def appFieldGet (f : Store) (fieldId : UInt8) (bufMax : Nat) : List UInt8 :=
  if !fieldIsReadable fieldId then []
  else
    match fieldId with
    | fieldDeviceState => if bufMax < 1 then [] else [f.deviceState.code]
    | fieldDeviceType => if bufMax < 1 then [] else [gDeviceType]
    | fieldModel => gModel.take bufMax
    | fieldSn => gSn.take bufMax
    | fieldFwVer => if bufMax < 3 then [] else gFwVer
    | fieldHwVer => if bufMax < 3 then [] else gHwVer
    | fieldProtocolVersion => if bufMax < 1 then [] else [gProtocolVer]
    | fieldBattery => if bufMax < 1 then [] else [f.battery]
    | fieldTemperature => if bufMax < 2 then [] else putU16Be f.temperature.toUInt16
    | fieldDistance => if bufMax < 2 then [] else putU16Be f.distance
    | fieldPosition => if bufMax < 1 then [] else [f.position]
    | fieldMode => if bufMax < 1 then [] else [f.mode]
    | fieldUpdateInterval => if bufMax < 2 then [] else putU16Be f.updateInterval
    | fieldInstallLocation =>
      if bufMax < 8 then [] else putU32Be f.installLat.toUInt32 ++ putU32Be f.installLng.toUInt32
    | fieldGnssFix => if bufMax < 1 then [] else [f.gnssFix]
    | fieldLatitude => if bufMax < 4 then [] else putU32Be f.latitude.toUInt32
    | fieldLongitude => if bufMax < 4 then [] else putU32Be f.longitude.toUInt32
    | fieldAltitude => if bufMax < 2 then [] else putU16Be f.altitude.toUInt16
    | _ => []

def appFieldValidate (fieldId : UInt8) (value : List UInt8) : Status :=
  if !fieldIsReadable fieldId then .unsupported
  else if !fieldIsWritable fieldId then .unsupported
  else
    let expectedLen := fieldValueLen fieldId
    if expectedLen > 0 ∧ value.length ≠ expectedLen then .paramLen
    else
      match fieldId with
      | fieldMode => if byteAt value 0 < 0x01 ∨ byteAt value 0 > 0x03 then .paramValue else .ok
      | fieldUpdateInterval => .ok
      | fieldInstallLocation =>
        let lat := (getU32Be value).toInt32
        let lng := (getU32Be (value.drop 4)).toInt32
        if lat < -900000000 ∨ lat > 900000000 ∨ lng < -1800000000 ∨ lng > 1800000000 then .paramValue
        else .ok
      | _ => .ok

def appFieldSet (f : Store) (fieldId : UInt8) (value : List UInt8) : Store :=
  match fieldId with
  | fieldMode => { f with mode := byteAt value 0 }
  | fieldUpdateInterval => { f with updateInterval := getU16Be value }
  | fieldInstallLocation =>
    let installLat := (getU32Be value).toInt32
    let installLng := (getU32Be (value.drop 4)).toInt32
    { f with
      installLat := installLat
      installLng := installLng
      gnssFix := 0x01
      latitude := installLat
      longitude := installLng
      altitude := 0 }
  | _ => f

def appFieldSetDeviceState (f : Store) (state : DeviceState) : Store := { f with deviceState := state }

def appFieldMarkFactoryInitDone (f : Store) : Store :=
  let f := { f with factoryInitDone := true }
  if f.deviceState = .factory then { f with deviceState := .powerOn } else f

def appFieldSetUnixtime (f : Store) (ts : UInt32) : Store := { f with unixtime := ts }

/-! ## What the setter can change -/

/-- The configuration and the location fields derived from it. -/
structure Config where
  mode : UInt8
  updateInterval : UInt16
  installLat : Int32
  installLng : Int32
  gnssFix : UInt8
  latitude : Int32
  longitude : Int32
  altitude : Int16
  deriving DecidableEq

def Store.config (f : Store) : Config :=
  ⟨f.mode, f.updateInterval, f.installLat, f.installLng, f.gnssFix, f.latitude, f.longitude, f.altitude⟩

@[simp] theorem deviceState_appFieldSet (f : Store) (fieldId : UInt8) (value : List UInt8) :
    (appFieldSet f fieldId value).deviceState = f.deviceState := by
  unfold appFieldSet
  split <;> rfl

@[simp] theorem factoryInitDone_appFieldSet (f : Store) (fieldId : UInt8) (value : List UInt8) :
    (appFieldSet f fieldId value).factoryInitDone = f.factoryInitDone := by
  unfold appFieldSet
  split <;> rfl

theorem appFieldGet_of_not_readable {f : Store} {fieldId : UInt8} {bufMax : Nat}
    (h : fieldIsReadable fieldId = false) : appFieldGet f fieldId bufMax = [] := by
  simp [appFieldGet, h]

theorem writable_cases {fieldId : UInt8} {value : List UInt8} (h : appFieldValidate fieldId value = .ok) :
    (fieldId = fieldMode ∧ value.length = 1) ∨ (fieldId = fieldUpdateInterval ∧ value.length = 2) ∨
      (fieldId = fieldInstallLocation ∧ value.length = 8) := by
  unfold appFieldValidate at h
  split at h
  · cases h
  · split at h
    · cases h
    · rename_i hWritable
      dsimp only at h
      split at h
      · cases h
      · rename_i hLength
        unfold fieldIsWritable at hWritable
        split at hWritable
        · exact .inl ⟨rfl, not_not.mp fun hNe => hLength ⟨by decide, hNe⟩⟩
        · exact .inr (.inl ⟨rfl, not_not.mp fun hNe => hLength ⟨by decide, hNe⟩⟩)
        · exact .inr (.inr ⟨rfl, not_not.mp fun hNe => hLength ⟨by decide, hNe⟩⟩)
        · simp at hWritable

end IotRange.AppFields
