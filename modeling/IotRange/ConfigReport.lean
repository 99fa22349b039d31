import IotRange.ShellCmd

/-! # What `config get` tells

The printed lines tell two stores apart wherever they differ in a shown value, with one exception:
a temperature between -0.9 and 0.9 is printed without its sign. Fed back to `config set`, the lines
restore the settings, with a tenth of the temperature.
-/
namespace IotRange.ConfigReport
open AppAuth AppFields AppProtocol AppConfig ShellCmd
set_option autoImplicit false

/-! ## One value -/

section Values

theorem hex2_inj {b b' : UInt8} : hex2 b = hex2 b' ↔ b = b' := by
  refine ⟨fun h => ?_, congrArg hex2⟩
  rw [← List.append_nil (hex2 b), ← List.append_nil (hex2 b')] at h
  exact UInt8.toNat_inj.mp (padded_inj (by decide) (by decide) ends_nil ends_nil h).1

theorem decimal_append_inj {z z' : Int} {s : Text} (h : Ends s) : decimal z ++ s = decimal z' ++ s ↔ z = z' :=
  ⟨fun hEq => (decimal_inj h h hEq).1, fun hEq => by rw [hEq]⟩

theorem unsigned_append_inj {n n' : Nat} {s : Text} (h : Ends s) : unsigned n ++ s = unsigned n' ++ s ↔ n = n' :=
  (decimal_append_inj h).trans Int.natCast_inj

/-- Truncated division, sign by sign. -/
theorem tdiv_tmod_ten (t : Int) : t = 10 * t.tdiv 10 + t.tmod 10 ∧
    (0 ≤ t → 0 ≤ t.tdiv 10 ∧ 0 ≤ t.tmod 10 ∧ t.tmod 10 < 10) ∧
      (t ≤ 0 → t.tdiv 10 ≤ 0 ∧ t.tmod 10 ≤ 0 ∧ -10 < t.tmod 10) := by
  have hNonneg (t : Int) (h : 0 ≤ t) : 0 ≤ t.tdiv 10 ∧ 0 ≤ t.tmod 10 ∧ t.tmod 10 < 10 := by
    rw [Int.tdiv_eq_ediv_of_nonneg h, Int.tmod_eq_emod_of_nonneg h]
    omega
  refine ⟨(Int.mul_tdiv_add_tmod t 10).symm, hNonneg t, fun h => ?_⟩
  have hOpposite := hNonneg (-t) (by omega)
  rw [Int.neg_tdiv, Int.neg_tmod] at hOpposite
  omega

/-- The sign is lost between -0.9 and 0.9. -/
theorem tenths_append_inj {t t' : Int16} {s : Text} (h : Ends s) :
    tenths t ++ s = tenths t' ++ s ↔ t = t' ∨ t.toInt = -t'.toInt ∧ t.toInt.natAbs < 10 := by
  have hParts (t : Int16) :
      tenths t ++ s = decimal (t.toInt.tdiv 10) ++ (46 :: (unsigned (t.toInt.tmod 10).natAbs ++ s)) := by
    rw [tenths, List.append_assoc, List.append_assoc]
    rfl
  have hPoint (s : Text) : Ends (46 :: s) := ends_cons (by decide)
  have hSame : tenths t ++ s = tenths t' ++ s ↔
      t.toInt.tdiv 10 = t'.toInt.tdiv 10 ∧ (t.toInt.tmod 10).natAbs = (t'.toInt.tmod 10).natAbs := by
    rw [hParts, hParts]
    refine ⟨fun hEq => ?_, fun ⟨hQuot, hRem⟩ => by rw [hQuot, hRem]⟩
    obtain ⟨hQuot, hRest⟩ := decimal_inj (hPoint _) (hPoint _) hEq
    exact ⟨hQuot, (unsigned_append_inj h).mp (List.cons.inj hRest).2⟩
  obtain ⟨hEq, hPos, hNeg⟩ := tdiv_tmod_ten t.toInt
  obtain ⟨hEq', hPos', hNeg'⟩ := tdiv_tmod_ten t'.toInt
  rw [hSame, ← Int16.toInt_inj]
  omega

end Values

/-! ## All values -/

/-- The stores agree in what is printed, up to the sign of a temperature below one degree. -/
structure SameShown (f f' : Store) : Prop where
  deviceState : f.deviceState = f'.deviceState
  battery : f.battery = f'.battery
  temperature : f.temperature = f'.temperature ∨
    f.temperature.toInt = -f'.temperature.toInt ∧ f.temperature.toInt.natAbs < 10
  distance : f.distance = f'.distance
  position : f.position = f'.position
  mode : f.mode = f'.mode
  updateInterval : f.updateInterval = f'.updateInterval
  gnssFix : f.gnssFix = f'.gnssFix
  location : f.gnssFix ≠ 0 → f.latitude = f'.latitude ∧ f.longitude = f'.longitude ∧ f.altitude = f'.altitude

section Report

variable {f f' : Store}

theorem shownLine_inj {l v v' : Text} : shownLine (l, v) = shownLine (l, v') ↔ v = v' := by
  rw [shownLine, shownLine, Line.print.injEq, List.append_cancel_left_eq]

theorem fields_inj : (shownFields f).map shownLine = (shownFields f').map shownLine ↔
    f.deviceState = f'.deviceState ∧ f.battery = f'.battery ∧
      (f.temperature = f'.temperature ∨ f.temperature.toInt = -f'.temperature.toInt ∧ f.temperature.toInt.natAbs < 10) ∧
      f.distance = f'.distance ∧ f.position = f'.position ∧ f.mode = f'.mode ∧
        f.updateInterval = f'.updateInterval := by
  have hPercent : Ends (text "%") := ends_cons (by decide)
  have hDegrees : Ends (text " C") := ends_cons (by decide)
  have hCm : Ends (text " cm") := ends_cons (by decide)
  have hMin : Ends (text " min") := ends_cons (by decide)
  simp only [shownFields, List.map_cons, List.map_nil, List.cons.injEq, shownLine_inj, hex2_inj, true_and, and_true]
  rw [unsigned_append_inj hPercent, tenths_append_inj hDegrees, unsigned_append_inj hCm, unsigned_append_inj hMin,
    DeviceState.code_injective.eq_iff, UInt8.toNat_inj, UInt16.toNat_inj, UInt16.toNat_inj]

theorem location_inj : (shownLocation f).map shownLine = (shownLocation f').map shownLine ↔
    f.gnssFix = f'.gnssFix ∧
      (f.gnssFix ≠ 0 → f.latitude = f'.latitude ∧ f.longitude = f'.longitude ∧ f.altitude = f'.altitude) := by
  have hScaled : Ends (text " (x1e7)") := ends_cons (by decide)
  have hMetres : Ends (text " m") := ends_cons (by decide)
  have hFix (n n' : Nat) : unsigned n = unsigned n' ↔ n = n' := by
    rw [← List.append_nil (unsigned n), ← List.append_nil (unsigned n'), unsigned_append_inj ends_nil]
  unfold shownLocation
  by_cases hFixed : f.gnssFix ≠ 0
  · by_cases hFixed' : f'.gnssFix ≠ 0
    · rw [if_pos hFixed, if_pos hFixed']
      simp only [List.map_cons, List.map_nil, List.cons.injEq, shownLine_inj, and_true]
      rw [hFix, UInt8.toNat_inj, decimal_append_inj hScaled, decimal_append_inj hScaled, decimal_append_inj hMetres,
        Int32.toInt_inj, Int32.toInt_inj, Int16.toInt_inj, forall_prop_of_true hFixed]
    · rw [if_pos hFixed, if_neg hFixed']
      refine ⟨fun h => (nomatch congrArg List.length h), fun h => ?_⟩
      exact absurd (by rwa [← h.1]) hFixed'
  · by_cases hFixed' : f'.gnssFix ≠ 0
    · rw [if_neg hFixed, if_pos hFixed']
      refine ⟨fun h => (nomatch congrArg List.length h), fun h => ?_⟩
      exact absurd (by rwa [h.1]) hFixed
    · rw [if_neg hFixed, if_neg hFixed']
      refine iff_of_true rfl ⟨(not_not.mp hFixed).trans (not_not.mp hFixed').symm, fun h => absurd h hFixed⟩

/-- The text determines every printed value but the sign of a temperature below one degree. -/
theorem report_eq_iff : report f = report f' ↔ SameShown f f' := by
  have hParts : report f = report f' ↔ (shownFields f).map shownLine = (shownFields f').map shownLine ∧
      (shownLocation f).map shownLine = (shownLocation f').map shownLine := by
    rw [report, report, List.map_append, List.map_append]
    exact ⟨fun h => List.append_inj h rfl, fun h => by rw [h.1, h.2]⟩
  rw [hParts, fields_inj, location_inj]
  constructor
  · rintro ⟨⟨hState, hBattery, hTemperature, hDistance, hPosition, hMode, hInterval⟩, hFix, hLocation⟩
    exact ⟨hState, hBattery, hTemperature, hDistance, hPosition, hMode, hInterval, hFix, hLocation⟩
  · rintro ⟨hState, hBattery, hTemperature, hDistance, hPosition, hMode, hInterval, hFix, hLocation⟩
    exact ⟨⟨hState, hBattery, hTemperature, hDistance, hPosition, hMode, hInterval⟩, hFix, hLocation⟩

/-- Two devices are told apart by their shells exactly where a printed value differs. Looking costs
the timestamp. -/
theorem configGet_tells (env env' : Env) (d d' : Device) :
    (cmdConfigGet env d).1 = { d with fields := { d.fields with unixtime := 0 } } ∧ (cmdConfigGet env d).2.1 = 0 ∧
      ((cmdConfigGet env d).2.2 = (cmdConfigGet env' d').2.2 ↔ SameShown d.fields d'.fields) := by
  rw [cmdConfigGet_eq, cmdConfigGet_eq]
  exact ⟨rfl, rfl, report_eq_iff⟩

end Report

/-! ## The lines as commands -/

def word (s : Text) : Text := s.takeWhile (· ≠ 32)

/-- The word in front of a line. -/
def nameOf (s : Text) : Text := word s

/-- The word behind the colon. -/
def argOf (s : Text) : Text := word ((s.dropWhile (· ≠ 58)).drop 2)

/-- `config set`, with the name and the value of a printed line; other lines are passed over. -/
def setAgain (g : Store) : Line → Store
  | .print s =>
    match configSetCmds.lookup (nameOf s) with
    | some cmd => (cmd g (argOf s)).1
    | none => g
  | .error _ => g

section Again

variable {f g : Store} {label name lead : Text} {cmd : Store → Text → Store × Int × List Line}

theorem word_append {s : Text} (h : ∀ b ∈ s, b ≠ 32) (t : Text) : word (s ++ t) = s ++ word t :=
  List.takeWhile_append_of_pos fun b hb => decide_eq_true (h b hb)

theorem ne_space_of_isDigit {base : Nat} (hMax : base ≤ 36) {b : UInt8} (h : isDigit base b = true) : b ≠ 32 := by
  rintro rfl
  rw [isDigit, decide_eq_true_iff] at h
  exact absurd (h.trans_le hMax) (by decide)

theorem word_decimal (z : Int) (s : Text) : word (decimal z ++ s) = decimal z ++ word s := by
  have hDigits : ∀ b ∈ digits 10 z.natAbs, b ≠ 32 := fun b hb =>
    ne_space_of_isDigit (by decide) (isDigit_of_mem (by decide) (by decide) hb)
  refine word_append ?_ s
  unfold decimal
  split
  · exact List.forall_mem_cons.mpr ⟨by decide, hDigits⟩
  · exact hDigits

theorem word_hex2 (b : UInt8) : word (hex2 b) = hex2 b := by
  have hDigits : ∀ c ∈ hex2 b, c ≠ 32 := fun c hc =>
    ne_space_of_isDigit (by decide) (isDigit_padded (by decide) (by decide) hc)
  rw [← List.append_nil (hex2 b)]
  exact word_append hDigits []

theorem ends_word {s : Text} (h : Ends s) : Ends (word s) := by
  cases s with
  | nil => exact h
  | cons b s =>
    rw [word, List.takeWhile_cons]
    split
    · exact ends_cons (h b rfl)
    · exact ends_nil

/-- A label in front of a value: the command it names, and what it puts in front of the argument. -/
structure Labels (label name lead : Text) : Prop where
  nameOf : ∀ v, nameOf (label ++ v) = name
  argOf : ∀ v, argOf (label ++ v) = lead ++ word v

theorem setAgain_of (h : Labels label name lead) (hCmd : configSetCmds.lookup name = some cmd) (g : Store) (v : Text) :
    setAgain g (shownLine (label, v)) = (cmd g (lead ++ word v)).1 := by
  rw [shownLine, setAgain, h.nameOf, hCmd, h.argOf]

theorem setAgain_other {label : Text} (h : ∀ v, configSetCmds.lookup (nameOf (label ++ v)) = none) (g : Store)
    (v : Text) :
    setAgain g (shownLine (label, v)) = g := by
  rw [shownLine, setAgain, h]

/-! ### Arguments read back -/

theorem strtoul_byte (b : UInt8) {s : Text} (h : Ends s) : (strtoul (unsigned b.toNat ++ s)).toUInt8 = b := by
  rw [unsigned, strtoul_decimal (by have := b.toNat_lt; omega) h, UInt32.toUInt8_ofNat', UInt8.ofNat_toNat]

theorem strtoul_word (v : UInt16) {s : Text} (h : Ends s) : (strtoul (unsigned v.toNat ++ s)).toUInt16 = v := by
  rw [unsigned, strtoul_decimal (by have := v.toNat_lt; omega) h, UInt32.toUInt16_ofNat', UInt16.ofNat_toNat]

theorem strtoul_hex2 (b : UInt8) : (strtoul (text "0x" ++ hex2 b)).toUInt8 = b := by
  have hRead := strtoul_hex 2 (n := b.toNat) (s := []) (by have := b.toNat_lt; omega) ends_nil
  rw [List.append_nil] at hRead
  change (strtoul (48 :: 120 :: padded 2 16 b.toNat)).toUInt8 = b
  rw [hRead, UInt32.toUInt8_ofNat', UInt8.ofNat_toNat]

theorem strtol_int32 (v : Int32) {s : Text} (h : Ends s) : strtol (decimal v.toInt ++ s) = v := by
  rw [strtol_decimal v.le_toInt v.toInt_lt h, Int32.ofInt_toInt]

theorem strtol_toInt16 {z : Int} (hMin : -2 ^ 15 ≤ z) (hMax : z < 2 ^ 15) {s : Text} (h : Ends s) :
    (strtol (decimal z ++ s)).toInt16 = Int16.ofInt z := by
  rw [strtol_decimal (by omega) (by omega) h, Int32.toInt16_ofInt]

/-! ### Line by line -/

theorem word_unsigned (n : Nat) (s : Text) : word (unsigned n ++ s) = unsigned n ++ word s := word_decimal n s

/-- What the lines of a store make of another. -/
def restored (f g : Store) : Store :=
  let g := { g with
    battery := f.battery
    temperature := Int16.ofInt (f.temperature.toInt.tdiv 10)
    distance := f.distance
    position := f.position
    mode := f.mode
    updateInterval := f.updateInterval
    gnssFix := f.gnssFix }
  if f.gnssFix ≠ 0 then { g with latitude := f.latitude, longitude := f.longitude, altitude := f.altitude } else g

theorem setAgain_battery (g : Store) (b : UInt8) :
    setAgain g (shownLine (text "battery     : ", unsigned b.toNat ++ text "%")) = { g with battery := b } := by
  have hLabels : Labels (text "battery     : ") (text "battery") [] := ⟨fun _ => rfl, fun _ => rfl⟩
  have hUnit : Ends (text "%") := ends_cons (by decide)
  have hSet (arg : Text) : (cmdConfigSetBattery g arg).1 = { g with battery := (strtoul arg).toUInt8 } := rfl
  rw [setAgain_of hLabels rfl, hSet, List.nil_append, word_unsigned, strtoul_byte b (ends_word hUnit)]

/-- Degrees are set as tenths. -/
theorem setAgain_temperature (g : Store) (t : Int16) :
    setAgain g (shownLine (text "temperature : ", tenths t ++ text " C")) =
      { g with temperature := Int16.ofInt (t.toInt.tdiv 10) } := by
  have hLabels : Labels (text "temperature : ") (text "temperature") [] := ⟨fun _ => rfl, fun _ => rfl⟩
  have hSet (arg : Text) : (cmdConfigSetTemperature g arg).1 = { g with temperature := (strtol arg).toInt16 } := rfl
  have hPoint : Ends (text "." ++ (unsigned (t.toInt.tmod 10).natAbs ++ text " C")) := ends_cons (by decide)
  have hMin := t.le_toInt
  have hMax := t.toInt_lt
  obtain ⟨hEq, hPos, hNeg⟩ := tdiv_tmod_ten t.toInt
  rw [setAgain_of hLabels rfl, hSet, List.nil_append, tenths, List.append_assoc, List.append_assoc, word_decimal,
    strtol_toInt16 (by omega) (by omega) (ends_word hPoint)]

theorem setAgain_distance (g : Store) (v : UInt16) :
    setAgain g (shownLine (text "distance    : ", unsigned v.toNat ++ text " cm")) = { g with distance := v } := by
  have hLabels : Labels (text "distance    : ") (text "distance") [] := ⟨fun _ => rfl, fun _ => rfl⟩
  have hUnit : Ends (text " cm") := ends_cons (by decide)
  have hSet (arg : Text) : (cmdConfigSetDistance g arg).1 = { g with distance := (strtoul arg).toUInt16 } := rfl
  rw [setAgain_of hLabels rfl, hSet, List.nil_append, word_unsigned, strtoul_word v (ends_word hUnit)]

theorem setAgain_position (g : Store) (b : UInt8) :
    setAgain g (shownLine (text "position    : 0x", hex2 b)) = { g with position := b } := by
  have hLabels : Labels (text "position    : 0x") (text "position") (text "0x") := ⟨fun _ => rfl, fun _ => rfl⟩
  have hSet (arg : Text) : (cmdConfigSetPosition g arg).1 = { g with position := (strtoul arg).toUInt8 } := rfl
  rw [setAgain_of hLabels rfl, hSet, word_hex2, strtoul_hex2]

theorem setAgain_mode (g : Store) (b : UInt8) :
    setAgain g (shownLine (text "mode        : 0x", hex2 b)) = { g with mode := b } := by
  have hLabels : Labels (text "mode        : 0x") (text "mode") (text "0x") := ⟨fun _ => rfl, fun _ => rfl⟩
  have hSet (arg : Text) : (cmdConfigSetMode g arg).1 = { g with mode := (strtoul arg).toUInt8 } := rfl
  rw [setAgain_of hLabels rfl, hSet, word_hex2, strtoul_hex2]

theorem setAgain_interval (g : Store) (v : UInt16) :
    setAgain g (shownLine (text "interval    : ", unsigned v.toNat ++ text " min")) =
      { g with updateInterval := v } := by
  have hLabels : Labels (text "interval    : ") (text "interval") [] := ⟨fun _ => rfl, fun _ => rfl⟩
  have hUnit : Ends (text " min") := ends_cons (by decide)
  have hPut (v : UInt16) : getU16Be [(v >>> 8).toUInt8, v.toUInt8] = v := tlvGetU16_put v
  have hSet (arg : Text) : (cmdConfigSetInterval g arg).1 = { g with updateInterval := (strtoul arg).toUInt16 } := by
    exact congrArg (fun w : UInt16 => { g with updateInterval := w }) (hPut (strtoul arg).toUInt16)
  rw [setAgain_of hLabels rfl, hSet, List.nil_append, word_unsigned, strtoul_word v (ends_word hUnit)]

theorem setAgain_gnssFix (g : Store) (b : UInt8) (s : Text) (h : Ends s) :
    setAgain g (shownLine (text "gnss_fix    : ", unsigned b.toNat ++ s)) = { g with gnssFix := b } := by
  have hLabels : Labels (text "gnss_fix    : ") (text "gnss_fix") [] := ⟨fun _ => rfl, fun _ => rfl⟩
  have hSet (arg : Text) : (cmdConfigSetGnssFix g arg).1 = { g with gnssFix := (strtoul arg).toUInt8 } := rfl
  rw [setAgain_of hLabels rfl, hSet, List.nil_append, word_unsigned, strtoul_byte b (ends_word h)]

theorem setAgain_latitude (g : Store) (v : Int32) :
    setAgain g (shownLine (text "latitude    : ", decimal v.toInt ++ text " (x1e7)")) = { g with latitude := v } := by
  have hLabels : Labels (text "latitude    : ") (text "latitude") [] := ⟨fun _ => rfl, fun _ => rfl⟩
  have hUnit : Ends (text " (x1e7)") := ends_cons (by decide)
  have hSet (arg : Text) : (cmdConfigSetLatitude g arg).1 = { g with latitude := strtol arg } := rfl
  rw [setAgain_of hLabels rfl, hSet, List.nil_append, word_decimal, strtol_int32 v (ends_word hUnit)]

theorem setAgain_longitude (g : Store) (v : Int32) :
    setAgain g (shownLine (text "longitude   : ", decimal v.toInt ++ text " (x1e7)")) = { g with longitude := v } := by
  have hLabels : Labels (text "longitude   : ") (text "longitude") [] := ⟨fun _ => rfl, fun _ => rfl⟩
  have hUnit : Ends (text " (x1e7)") := ends_cons (by decide)
  have hSet (arg : Text) : (cmdConfigSetLongitude g arg).1 = { g with longitude := strtol arg } := rfl
  rw [setAgain_of hLabels rfl, hSet, List.nil_append, word_decimal, strtol_int32 v (ends_word hUnit)]

theorem setAgain_altitude (g : Store) (v : Int16) :
    setAgain g (shownLine (text "altitude    : ", decimal v.toInt ++ text " m")) = { g with altitude := v } := by
  have hLabels : Labels (text "altitude    : ") (text "altitude") [] := ⟨fun _ => rfl, fun _ => rfl⟩
  have hUnit : Ends (text " m") := ends_cons (by decide)
  have hSet (arg : Text) : (cmdConfigSetAltitude g arg).1 = { g with altitude := (strtol arg).toInt16 } := rfl
  rw [setAgain_of hLabels rfl, hSet, List.nil_append, word_decimal,
    strtol_toInt16 v.le_toInt v.toInt_lt (ends_word hUnit), Int16.ofInt_toInt]

theorem setAgain_fields (f g : Store) : ((shownFields f).map shownLine).foldl setAgain g =
    { g with
      battery := f.battery
      temperature := Int16.ofInt (f.temperature.toInt.tdiv 10)
      distance := f.distance
      position := f.position
      mode := f.mode
      updateInterval := f.updateInterval } := by
  have hModel := @setAgain_other (text "model       : ") fun _ => rfl
  have hSn := @setAgain_other (text "sn          : ") fun _ => rfl
  have hFw := @setAgain_other (text "fw          : ") fun _ => rfl
  have hHw := @setAgain_other (text "hw          : ") fun _ => rfl
  have hState := @setAgain_other (text "state       : 0x") fun _ => rfl
  have hProtocol := @setAgain_other (text "protocol    : 0x") fun _ => rfl
  simp only [shownFields, List.map_cons, List.map_nil, List.foldl_cons, List.foldl_nil]
  rw [hModel, hSn, hFw, hHw, hState, setAgain_battery, setAgain_temperature, setAgain_distance, setAgain_position,
    setAgain_mode, setAgain_interval, hProtocol]

theorem setAgain_location (f g : Store) : ((shownLocation f).map shownLine).foldl setAgain g =
    if f.gnssFix ≠ 0 then
      { g with gnssFix := f.gnssFix, latitude := f.latitude, longitude := f.longitude, altitude := f.altitude }
    else { g with gnssFix := f.gnssFix } := by
  unfold shownLocation
  by_cases hFix : f.gnssFix ≠ 0
  · have hFixed := setAgain_gnssFix g f.gnssFix [] ends_nil
    rw [List.append_nil] at hFixed
    rw [if_pos hFix, if_pos hFix]
    simp only [List.map_cons, List.map_nil, List.foldl_cons, List.foldl_nil]
    rw [hFixed, setAgain_latitude, setAgain_longitude, setAgain_altitude]
  · have hNone := setAgain_gnssFix g f.gnssFix (text " (no fix)") (ends_cons (by decide))
    rw [not_not.mp hFix] at hNone
    rw [if_neg hFix, if_neg hFix, not_not.mp hFix]
    exact hNone

/-- Every setting comes back but the temperature. -/
theorem restores (f g : Store) : (report f).foldl setAgain g = restored f g := by
  rw [report, List.map_append, List.foldl_append, setAgain_fields, setAgain_location, restored]

end Again

end IotRange.ConfigReport
