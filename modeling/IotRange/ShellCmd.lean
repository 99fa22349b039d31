import IotRange.BleUart
import IotRange.Library.Text
import IotRange.ReadAll
import IotRange.ReadReply

/-! # The shell (shell_cmd.c)

`config get` sends the device a CMD 0x01 as a BLE client would and prints what it finds in the
reply. The other commands call the local interface.
-/
namespace IotRange.ShellCmd
open AppAuth AppFields AppTlv AppProtocol AppConfig BleUart Device ReadReply
set_option autoImplicit false

/-- `shell_print` and `shell_error`. -/
inductive Line
  | print (s : Text)
  | error (s : Text)

def eio : Int := 5
def einval : Int := 22

/-! ## Values in a reply -/

def tlvGetS16 (val : List UInt8) : Int16 := (readBe16 val).toInt16
def tlvGetU16 (val : List UInt8) : UInt16 := readBe16 val
def tlvGetS32 (val : List UInt8) : Int32 := (readBe32 val).toInt32

/-! ## `printf` -/

/-- `%d` of an unsigned value. -/
def unsigned (n : Nat) : Text := decimal n

def hex2 (b : UInt8) : Text := padded 2 16 b.toNat

/-- `%.*s`: a string without a terminator. -/
def string (v : List UInt8) : Text := v.takeWhile (· ≠ 0)

/-- `t / 10` and `abs(t % 10)`. -/
def tenths (t : Int16) : Text := decimal (t.toInt.tdiv 10) ++ text "." ++ unsigned (t.toInt.tmod 10).natAbs

def version (v : List UInt8) : Text :=
  unsigned (byteAt v 0).toNat ++ text "." ++ unsigned (byteAt v 1).toNat ++ text "." ++ unsigned (byteAt v 2).toNat

/-! ## `config get` -/

/-- CMD 0x01 with a zero timestamp and no fields. -/
def readAllRequest : Payload := ⟨[cmdRead, 0, 0, 0, 0, 0], by decide⟩

/-- `v = tlv_find_field(...); if (v) ...`. -/
def ifFound (resp : Payload) (fieldId : UInt8) (lines : List UInt8 → List Line) : List Line :=
  match tlvFindField resp fieldId with
  | some v => lines v
  | none => []

def configLines (resp : Payload) : List Line :=
  (ifFound resp fieldModel fun v => [.print (text "model       : " ++ string v)]) ++
  (ifFound resp fieldSn fun v => [.print (text "sn          : " ++ string v)]) ++
  (ifFound resp fieldFwVer fun v => if v.length ≥ 3 then [.print (text "fw          : " ++ version v)] else []) ++
  (ifFound resp fieldHwVer fun v => if v.length ≥ 3 then [.print (text "hw          : " ++ version v)] else []) ++
  (ifFound resp fieldDeviceState fun v => [.print (text "state       : 0x" ++ hex2 (byteAt v 0))]) ++
  (ifFound resp fieldBattery fun v => [.print (text "battery     : " ++ unsigned (byteAt v 0).toNat ++ text "%")]) ++
  (ifFound resp fieldTemperature fun v => [.print (text "temperature : " ++ tenths (tlvGetS16 v) ++ text " C")]) ++
  (ifFound resp fieldDistance
    fun v => [.print (text "distance    : " ++ unsigned (tlvGetU16 v).toNat ++ text " cm")]) ++
  (ifFound resp fieldPosition fun v => [.print (text "position    : 0x" ++ hex2 (byteAt v 0))]) ++
  (ifFound resp fieldMode fun v => [.print (text "mode        : 0x" ++ hex2 (byteAt v 0))]) ++
  (ifFound resp fieldUpdateInterval
    fun v => [.print (text "interval    : " ++ unsigned (tlvGetU16 v).toNat ++ text " min")]) ++
  (ifFound resp fieldProtocolVersion fun v => [.print (text "protocol    : 0x" ++ hex2 (byteAt v 0))]) ++
  match tlvFindField resp fieldGnssFix with
  | some v =>
    if byteAt v 0 ≠ 0 then
      .print (text "gnss_fix    : " ++ unsigned (byteAt v 0).toNat) ::
        ((ifFound resp fieldLatitude
          fun v => [.print (text "latitude    : " ++ decimal (tlvGetS32 v).toInt ++ text " (x1e7)")]) ++
        (ifFound resp fieldLongitude
          fun v => [.print (text "longitude   : " ++ decimal (tlvGetS32 v).toInt ++ text " (x1e7)")]) ++
        (ifFound resp fieldAltitude
          fun v => [.print (text "altitude    : " ++ decimal (tlvGetU16 v).toInt16.toInt ++ text " m")]))
    else [.print (text "gnss_fix    : 0 (no fix)")]
  | none => [.print (text "gnss_fix    : 0 (no fix)")]

/-- `resp` up to `resp_len`. -/
def bleReply (env : Env) (d : Device) (req : Payload) : Payload :=
  ⟨(appConfigHandleBle env d req).2, (length_appConfigHandleBle_le env d req).trans_lt (by decide)⟩

theorem bytes_bleReply (env : Env) (d : Device) (req : Payload) :
    (bleReply env d req).bytes = (appConfigHandleBle env d req).2 := rfl

def cmdConfigGet (env : Env) (d : Device) : Device × Int × List Line :=
  let resp := bleReply env d readAllRequest
  let d := (appConfigHandleBle env d readAllRequest).1
  if resp.bytes.length < 3 then
    (d, -eio, [.error (text "no/invalid response (len=" ++ unsigned resp.bytes.length ++ text ")")])
  else if byteAt resp.bytes 1 ≠ Status.ok.code then
    (d, -eio, [.error (text "error status 0x" ++ hex2 (byteAt resp.bytes 1))])
  else (d, 0, configLines resp)

/-! ## `config set` -/

def configSet (c : SetterCall) (f : Store) (said : Text) : Store × Int × List Line := (c.apply f, 0, [.print said])

def cmdConfigSetBattery (f : Store) (arg : Text) : Store × Int × List Line :=
  let val := (strtoul arg).toUInt8
  configSet (.battery val) f (text "battery set to " ++ unsigned val.toNat ++ text "%")

def cmdConfigSetTemperature (f : Store) (arg : Text) : Store × Int × List Line :=
  let val := (strtol arg).toInt16
  configSet (.temperature val) f (text "temperature set to " ++ tenths val ++ text " C")

def cmdConfigSetDistance (f : Store) (arg : Text) : Store × Int × List Line :=
  let val := (strtoul arg).toUInt16
  configSet (.distance val) f (text "distance set to " ++ unsigned val.toNat ++ text " cm")

def cmdConfigSetPosition (f : Store) (arg : Text) : Store × Int × List Line :=
  let val := (strtoul arg).toUInt8
  configSet (.position val) f (text "position set to 0x" ++ hex2 val)

def cmdConfigSetMode (f : Store) (arg : Text) : Store × Int × List Line :=
  let val := (strtoul arg).toUInt8
  configSet (.mode val) f (text "mode set to 0x" ++ hex2 val)

def cmdConfigSetInterval (f : Store) (arg : Text) : Store × Int × List Line :=
  let val := (strtoul arg).toUInt16
  configSet (.updateTime val) f (text "interval set to " ++ unsigned val.toNat ++ text " min")

def cmdConfigSetGnssFix (f : Store) (arg : Text) : Store × Int × List Line :=
  let val := (strtoul arg).toUInt8
  configSet (.gnssFix val) f (text "gnss_fix set to " ++ unsigned val.toNat)

def cmdConfigSetLatitude (f : Store) (arg : Text) : Store × Int × List Line :=
  let val := strtol arg
  configSet (.latitude val) f (text "latitude set to " ++ decimal val.toInt ++ text " (x1e7)")

def cmdConfigSetLongitude (f : Store) (arg : Text) : Store × Int × List Line :=
  let val := strtol arg
  configSet (.longitude val) f (text "longitude set to " ++ decimal val.toInt ++ text " (x1e7)")

def cmdConfigSetAltitude (f : Store) (arg : Text) : Store × Int × List Line :=
  let val := (strtol arg).toInt16
  configSet (.altitude val) f (text "altitude set to " ++ decimal val.toInt ++ text " m")

/-- `config_set_cmds`, with one mandatory argument each. -/
def configSetCmds : List (Text × (Store → Text → Store × Int × List Line)) :=
  [(text "battery", cmdConfigSetBattery),
    (text "temperature", cmdConfigSetTemperature),
    (text "distance", cmdConfigSetDistance),
    (text "position", cmdConfigSetPosition),
    (text "mode", cmdConfigSetMode),
    (text "interval", cmdConfigSetInterval),
    (text "gnss_fix", cmdConfigSetGnssFix),
    (text "latitude", cmdConfigSetLatitude),
    (text "longitude", cmdConfigSetLongitude),
    (text "altitude", cmdConfigSetAltitude)]

/-! ## What `config get` prints -/

/-- Labels and values, of the store itself. -/
def shownFields (f : Store) : List (Text × Text) :=
  [(text "model       : ", gModel),
    (text "sn          : ", AppFields.gSn),
    (text "fw          : ", version gFwVer),
    (text "hw          : ", version gHwVer),
    (text "state       : 0x", hex2 f.deviceState.code),
    (text "battery     : ", unsigned f.battery.toNat ++ text "%"),
    (text "temperature : ", tenths f.temperature ++ text " C"),
    (text "distance    : ", unsigned f.distance.toNat ++ text " cm"),
    (text "position    : 0x", hex2 f.position),
    (text "mode        : 0x", hex2 f.mode),
    (text "interval    : ", unsigned f.updateInterval.toNat ++ text " min"),
    (text "protocol    : 0x", hex2 gProtocolVer)]

def shownLocation (f : Store) : List (Text × Text) :=
  if f.gnssFix ≠ 0 then
    [(text "gnss_fix    : ", unsigned f.gnssFix.toNat),
      (text "latitude    : ", decimal f.latitude.toInt ++ text " (x1e7)"),
      (text "longitude   : ", decimal f.longitude.toInt ++ text " (x1e7)"),
      (text "altitude    : ", decimal f.altitude.toInt ++ text " m")]
  else [(text "gnss_fix    : ", text "0 (no fix)")]

def shownLine (s : Text × Text) : Line := .print (s.1 ++ s.2)

def report (f : Store) : List Line := (shownFields f ++ shownLocation f).map shownLine

section Get

variable {resp : Payload} {f : Store}

theorem tlvFindField_all (h : resp.bytes = fieldsReply f allReadableFields) {fieldId : UInt8}
    (hMem : fieldId ∈ allReadableFields) : tlvFindField resp fieldId = some (appFieldGet f fieldId valBufSize) := by
  have hShort : ¬ resp.bytes.length < 3 := by
    rw [h, fieldsReply, List.length_append]
    exact Nat.not_lt.mpr (Nat.le_add_right 3 _)
  have hCount : (byteAt resp.bytes 2).toNat = (allReadableFields.map (fieldTlv f)).length := by
    rw [h, List.length_map]
    exact UInt8.toNat_ofNat_of_lt' (by decide)
  rw [tlvFindField, if_neg hShort, hCount, findField_of_decodes (decodes_of_fieldsReply h), find_fieldTlv, if_pos hMem]

theorem tlvGetS16_put (v : Int16) : tlvGetS16 (putU16Be v.toUInt16) = v := by
  rw [tlvGetS16, putU16Be, ← List.append_nil (be16 v.toUInt16), readBe16_be16, Int16.toInt16_toUInt16]

theorem tlvGetU16_put (v : UInt16) : tlvGetU16 (putU16Be v) = v := by
  rw [tlvGetU16, putU16Be, ← List.append_nil (be16 v), readBe16_be16]

theorem tlvGetS32_put (v : Int32) : tlvGetS32 (putU32Be v.toUInt32) = v := by
  rw [tlvGetS32, putU32Be, ← List.append_nil (be32 v.toUInt32), readBe32_be32, Int32.toInt32_toUInt32]

theorem configLines_eq (h : resp.bytes = fieldsReply f allReadableFields) : configLines resp = report f := by
  have hFound {fieldId : UInt8} (hMem : fieldId ∈ allReadableFields) (lines : List UInt8 → List Line) :
      ifFound resp fieldId lines = lines (appFieldGet f fieldId valBufSize) := by
    rw [ifFound, tlvFindField_all h hMem]
  have hTemperature : tlvGetS16 (appFieldGet f fieldTemperature valBufSize) = f.temperature :=
    tlvGetS16_put f.temperature
  have hDistance : tlvGetU16 (appFieldGet f fieldDistance valBufSize) = f.distance := tlvGetU16_put f.distance
  have hInterval : tlvGetU16 (appFieldGet f fieldUpdateInterval valBufSize) = f.updateInterval :=
    tlvGetU16_put f.updateInterval
  have hLatitude : tlvGetS32 (appFieldGet f fieldLatitude valBufSize) = f.latitude := tlvGetS32_put f.latitude
  have hLongitude : tlvGetS32 (appFieldGet f fieldLongitude valBufSize) = f.longitude := tlvGetS32_put f.longitude
  have hAltitude : (tlvGetU16 (appFieldGet f fieldAltitude valBufSize)).toInt16 = f.altitude := tlvGetS16_put f.altitude
  rw [configLines]
  iterate 12 rw [hFound (by decide)]
  rw [tlvFindField_all h (by decide : fieldGnssFix ∈ allReadableFields)]
  iterate 3 rw [hFound (by decide)]
  rw [hTemperature, hDistance, hInterval, hLatitude, hLongitude, hAltitude]
  have hFixByte : byteAt (appFieldGet f fieldGnssFix valBufSize) 0 = f.gnssFix := rfl
  have hLine (a b c : Text) : Line.print (a ++ b ++ c) = Line.print (a ++ (b ++ c)) := by rw [List.append_assoc]
  dsimp only
  rw [hFixByte]
  by_cases hFix : f.gnssFix ≠ 0
  · rw [if_pos hFix, report, shownLocation, if_pos hFix]
    simp only [hLine]
    rfl
  · rw [if_neg hFix, report, shownLocation, if_neg hFix]
    simp only [hLine]
    rfl

theorem appConfigHandleBle_readAll (env : Env) (d : Device) :
    appConfigHandleBle env d readAllRequest =
      ({ d with fields := appFieldSetUnixtime d.fields 0 },
        fieldsReply (appFieldSetUnixtime d.fields 0) allReadableFields) := by
  have hRead : HasCmd cmdRead readAllRequest.bytes := rfl
  obtain ⟨hOta, -⟩ | ⟨-, hEq⟩ := appConfigHandleBle_cases env d readAllRequest
  · exact absurd hOta (not_isOta_of_hasCmd hRead (by decide) (by decide) (by decide))
  · have hRequest : readAllRequest.bytes = ReadAll.readRequest 0 [] ++ [] := by decide
    rw [hEq, processAppPayload_of_read hRead, hRequest, ReadAll.handleCmdRead_all, if_neg (by decide),
      readAllFields_of_fits (by decide)]

/-- Whatever is printed, the device has handled the request. -/
theorem device_cmdConfigGet (env : Env) (d : Device) :
    (cmdConfigGet env d).1 = (handleRequest env d .ble readAllRequest).1 := by
  unfold cmdConfigGet
  dsimp only
  split
  · rfl
  · split <;> rfl

theorem report_setUnixtime (f : Store) (ts : UInt32) : report (appFieldSetUnixtime f ts) = report f := rfl

/-- `config get` always succeeds and prints the store; it leaves the timestamp at zero. -/
theorem cmdConfigGet_eq (env : Env) (d : Device) :
    cmdConfigGet env d = ({ d with fields := appFieldSetUnixtime d.fields 0 }, 0, report d.fields) := by
  have hBytes :
      (bleReply env d readAllRequest).bytes = fieldsReply (appFieldSetUnixtime d.fields 0) allReadableFields := by
    rw [bytes_bleReply, appConfigHandleBle_readAll]
  have hLength : ¬ (bleReply env d readAllRequest).bytes.length < 3 := by
    rw [hBytes, fieldsReply, List.length_append]
    exact Nat.not_lt.mpr (Nat.le_add_right 3 _)
  have hOk : byteAt (bleReply env d readAllRequest).bytes 1 = Status.ok.code := by
    rw [hBytes]
    rfl
  rw [cmdConfigGet, if_neg hLength, if_neg (not_not.mpr hOk), configLines_eq hBytes, appConfigHandleBle_readAll,
    report_setUnixtime]

end Get

end IotRange.ShellCmd
