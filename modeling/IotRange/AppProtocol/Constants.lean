import Mathlib.Logic.Function.Basic

/-! # Protocol constants (app_protocol.h)

Bytes that arrive on the wire stay bytes and are compared with these names. Values that only the
firmware produces (status codes, device states, channels) are enumerations with their wire code.
-/
namespace IotRange.AppProtocol
set_option autoImplicit false

/-- The channel argument; the code tests its first letter, `'B'` or not. -/
inductive Channel
  | ble
  | nfc
  deriving DecidableEq, Repr

/-! ## Command codes -/

@[match_pattern] abbrev cmdRead : UInt8 := 0x01
@[match_pattern] abbrev cmdWrite : UInt8 := 0x02
@[match_pattern] abbrev cmdAuth : UInt8 := 0x03
@[match_pattern] abbrev cmdAction : UInt8 := 0x04
@[match_pattern] abbrev cmdOtaStart : UInt8 := 0x10
@[match_pattern] abbrev cmdOtaData : UInt8 := 0x11
@[match_pattern] abbrev cmdOtaEnd : UInt8 := 0x12

@[match_pattern] abbrev authSubcmdNonce : UInt8 := 0x01
@[match_pattern] abbrev authSubcmdToken : UInt8 := 0x02
@[match_pattern] abbrev authSubcmdChangePwd : UInt8 := 0x03
@[match_pattern] abbrev authSubcmdLock : UInt8 := 0x04

abbrev authStateLocked : UInt8 := 0x00
abbrev authStateUnlocked : UInt8 := 0x01

/-! ## Status codes -/

inductive Status
  | ok
  | unsupported
  | paramLen
  | paramValue
  | otaState
  | authFailed
  | authRequired
  | authExpired
  | authState
  | unknown
  deriving DecidableEq, Repr

def Status.code : Status → UInt8
  | ok => 0x00
  | unsupported => 0x01
  | paramLen => 0x05
  | paramValue => 0x06
  | otaState => 0x09
  | authFailed => 0x0A
  | authRequired => 0x0B
  | authExpired => 0x0C
  | authState => 0x0D
  | unknown => 0xFF

theorem Status.code_injective : Function.Injective Status.code := by
  intro a b h
  revert h
  cases a <;> cases b <;> decide

@[simp] theorem Status.code_inj {a b : Status} : a.code = b.code ↔ a = b := code_injective.eq_iff

/-! ## Fields -/

@[match_pattern] abbrev fieldDeviceState : UInt8 := 0x01
@[match_pattern] abbrev fieldDeviceType : UInt8 := 0x02
@[match_pattern] abbrev fieldModel : UInt8 := 0x03
@[match_pattern] abbrev fieldSn : UInt8 := 0x04
@[match_pattern] abbrev fieldFwVer : UInt8 := 0x05
@[match_pattern] abbrev fieldHwVer : UInt8 := 0x06
@[match_pattern] abbrev fieldProtocolVersion : UInt8 := 0x07
@[match_pattern] abbrev fieldBattery : UInt8 := 0x10
@[match_pattern] abbrev fieldTemperature : UInt8 := 0x11
@[match_pattern] abbrev fieldDistance : UInt8 := 0x12
@[match_pattern] abbrev fieldPosition : UInt8 := 0x13
@[match_pattern] abbrev fieldMode : UInt8 := 0x20
@[match_pattern] abbrev fieldUpdateInterval : UInt8 := 0x21
@[match_pattern] abbrev fieldInstallLocation : UInt8 := 0x22
@[match_pattern] abbrev fieldGnssFix : UInt8 := 0x23
@[match_pattern] abbrev fieldLatitude : UInt8 := 0x24
@[match_pattern] abbrev fieldLongitude : UInt8 := 0x25
@[match_pattern] abbrev fieldAltitude : UInt8 := 0x26

inductive DeviceState
  | factory
  | powerOn
  | powerOff
  deriving DecidableEq, Repr

def DeviceState.code : DeviceState → UInt8
  | factory => 0x00
  | powerOn => 0x01
  | powerOff => 0x02

theorem DeviceState.code_injective : Function.Injective DeviceState.code := by
  intro a b h
  revert h
  cases a <;> cases b <;> decide

abbrev deviceTypeRl : UInt8 := 0x01
abbrev protocolVersionValue : UInt8 := 0x20

abbrev appProtoPayloadMax : Nat := 240
abbrev appProtoRespMax : Nat := 256

end IotRange.AppProtocol
