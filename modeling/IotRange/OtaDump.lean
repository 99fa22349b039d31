import IotRange.Library.HexDump
import IotRange.ShellCmd

/-! # The OTA commands of the shell (shell_cmd.c)

`ota dump` prints the asked part of the buffer, cut at 512 bytes and at the end of the buffer. Its
lines fit the line buffer and read back as the bytes.
-/
namespace IotRange.OtaDump
open AppConfig ShellCmd
set_option autoImplicit false

structure OtaInfo where
  active : Bool
  done : Bool
  totalSize : UInt32
  packetsReceived : UInt16
  bytesReceived : UInt32

def appConfigOtaGetInfo (ota : OtaState) : OtaInfo :=
  ⟨ota.active, ota.done, ota.totalSize, ota.nextIdx, ota.bytesReceived⟩

def appConfigOtaGetBuf (ota : OtaState) : Bytes otaBufSize := ota.buf

def cmdOtaInfo (ota : OtaState) : Int × List Line :=
  let info := appConfigOtaGetInfo ota
  let state := if info.done then "done" else if info.active then "receiving" else "idle"
  (0, [.print (text "state         : " ++ text state),
    .print (text "total_size    : " ++ unsigned info.totalSize.toNat ++ text " bytes"),
    .print (text "packets_rcvd  : " ++ unsigned info.packetsReceived.toNat),
    .print (text "bytes_rcvd    : " ++ unsigned info.bytesReceived.toNat)])

/-! ## `ota dump` -/

/-- `sizeof(line)`. -/
def lineSize : Nat := 58

/-- `pos += snprintf(line + pos, sizeof(line) - pos, ...)`, on the string in `line` and `pos`. -/
def snprintf (st : Text × Nat) (s : Text) : Text × Nat :=
  let room := UInt32.ofNat lineSize - UInt32.ofNat st.2
  (st.1.take st.2 ++ s.take (room.toNat - 1), st.2 + s.length)

def dumpLine (buf : List UInt8) (offset len i : Nat) : Text :=
  ((List.range (min 16 (len - i))).foldl (fun st k => snprintf st (hexByte (byteAt buf (offset + (i + k)))))
    (snprintf ([], 0) (padded 4 16 (offset + i) ++ text ":"))).1

def cmdOtaDump (ota : OtaState) (argv1 argv2 : Text) : Int × List Line :=
  let offset := strtoul argv1
  let len := strtoul argv2
  let len := if len > 512 then 512 else len
  if offset ≥ UInt32.ofNat otaBufSize then (-einval, [.error (text "offset out of range")])
  else
    let len := if offset + len > UInt32.ofNat otaBufSize then UInt32.ofNat otaBufSize - offset else len
    -- for (i = 0; i < len; i += 16)
    (0, (List.range ((len.toNat + 15) / 16)).map fun k =>
      .print (dumpLine (appConfigOtaGetBuf ota).toList offset.toNat len.toNat (k * 16)))

section Lines

variable {buf : List UInt8} {offset len k : Nat}

theorem snprintf_of_fits {line s : Text} (h : line.length + s.length < lineSize) :
    snprintf (line, line.length) s = (line ++ s, (line ++ s).length) := by
  have hSize : lineSize = 58 := rfl
  have hRoom : (UInt32.ofNat lineSize - UInt32.ofNat line.length).toNat = lineSize - line.length := by
    have hPos : (UInt32.ofNat line.length).toNat = line.length := UInt32.toNat_ofNat_of_lt' (by rw [UInt32.size]; omega)
    have hTotal : (UInt32.ofNat lineSize).toNat = lineSize := rfl
    rw [UInt32.toNat_sub_of_le _ _ (UInt32.le_iff_toNat_le.mpr (by rw [hPos, hTotal]; omega)), hPos, hTotal]
  rw [snprintf]
  dsimp only
  rw [List.take_length, List.length_append, hRoom, List.take_of_length_le (by omega)]

theorem foldl_snprintf {line : Text} {bytes : List UInt8} (h : line.length + 3 * bytes.length < lineSize) :
    (bytes.foldl (fun st b => snprintf st (hexByte b)) (line, line.length)).1 = line ++ bytes.flatMap hexByte := by
  induction bytes generalizing line with
  | nil => rw [List.flatMap_nil, List.append_nil, List.foldl_nil]
  | cons b bytes ih =>
    have hByte := length_hexByte b
    rw [List.length_cons] at h
    rw [List.foldl_cons, snprintf_of_fits (by omega), ih (by rw [List.length_append]; omega), List.flatMap_cons,
      List.append_assoc]

theorem length_asked (h : offset + len ≤ buf.length) : ((buf.drop offset).take len).length = len := by
  rw [List.length_take, List.length_drop]
  omega

/-- The bytes of one turn of the outer loop. -/
theorem map_byteAt (h : offset + len ≤ buf.length) :
    (List.range (min 16 (len - k * 16))).map (fun j => byteAt buf (offset + (k * 16 + j))) =
      block 16 ((buf.drop offset).take len) k := by
  have hLength := length_block 16 ((buf.drop offset).take len) k
  rw [length_asked h] at hLength
  refine List.ext_getElem? fun j => ?_
  by_cases hInside : j < min 16 (len - k * 16)
  · have hByte : buf[offset + (k * 16 + j)]? = some (byteAt buf (offset + (k * 16 + j))) := by
      rw [byteAt, List.getD_eq_getElem buf 0 (by omega), List.getElem?_eq_getElem]
    rw [List.getElem?_map, List.getElem?_range hInside, block, List.getElem?_take_of_lt (by omega), List.getElem?_drop,
      List.getElem?_take_of_lt (by omega), List.getElem?_drop, hByte]
    rfl
  · rw [List.getElem?_eq_none (by rw [List.length_map, List.length_range]; omega), List.getElem?_eq_none (by omega)]

/-- A line is never cut. -/
theorem dumpLine_eq (hLabel : offset + k * 16 < 16 ^ 4) (hInside : offset + len ≤ buf.length) :
    dumpLine buf offset len (k * 16) =
      hexRow (padded 4 16 (offset + k * 16)) (block 16 ((buf.drop offset).take len) k) := by
  have hSize : lineSize = 58 := rfl
  have hWidth : (padded 4 16 (offset + k * 16)).length = 4 := length_padded (by decide) (by decide) hLabel
  have hHead : (padded 4 16 (offset + k * 16) ++ text ":").length = 5 := by
    rw [List.length_append, hWidth]
    rfl
  have hBlock := length_block 16 ((buf.drop offset).take len) k
  rw [length_asked hInside] at hBlock
  have hLine : ((block 16 ((buf.drop offset).take len) k).foldl (fun st b => snprintf st (hexByte b))
      (padded 4 16 (offset + k * 16) ++ text ":", (padded 4 16 (offset + k * 16) ++ text ":").length)).1 =
      padded 4 16 (offset + k * 16) ++ text ":" ++ (block 16 ((buf.drop offset).take len) k).flatMap hexByte :=
    foldl_snprintf (by omega)
  have hStart : snprintf ([], 0) (padded 4 16 (offset + k * 16) ++ text ":") =
      (padded 4 16 (offset + k * 16) ++ text ":", (padded 4 16 (offset + k * 16) ++ text ":").length) :=
    snprintf_of_fits (by rw [hHead]; decide)
  have hBytes (st : Text × Nat) :
      (List.range (min 16 (len - k * 16))).foldl
        (fun st j => snprintf st (hexByte (byteAt buf (offset + (k * 16 + j))))) st =
        (block 16 ((buf.drop offset).take len) k).foldl (fun st b => snprintf st (hexByte b)) st := by
    rw [← map_byteAt hInside, List.foldl_map]
  rw [dumpLine, hStart, hBytes, hLine, hexRow, List.append_assoc]
  rfl

end Lines

/-! ## What is printed -/

/-- How many bytes a dump of `len` bytes from `offset` has. -/
def dumped (offset len : Nat) : Nat := min (min len 512) (otaBufSize - offset)

/-- The rows of a dump. -/
def rows (ota : OtaState) (offset len : Nat) : List Text :=
  (List.range ((len + 15) / 16)).map fun k =>
    hexRow (padded 4 16 (offset + k * 16)) (block 16 ((ota.buf.toList.drop offset).take len) k)

section Dump

variable {ota : OtaState} {argv1 argv2 : Text}

theorem cmdOtaDump_of_outside (h : otaBufSize ≤ (strtoul argv1).toNat) :
    cmdOtaDump ota argv1 argv2 = (-einval, [.error (text "offset out of range")]) := by
  have hOutside : strtoul argv1 ≥ UInt32.ofNat otaBufSize := UInt32.le_iff_toNat_le.mpr h
  rw [cmdOtaDump]
  exact if_pos hOutside

/-- The sum of the offset and the length does not wrap. -/
theorem toNat_clamped (offset len : UInt32) (h : offset.toNat < otaBufSize) :
    (let len := if len > 512 then 512 else len
      if offset + len > UInt32.ofNat otaBufSize then UInt32.ofNat otaBufSize - offset else len).toNat =
      dumped offset.toNat len.toNat := by
  have hSize : otaBufSize = 32768 := rfl
  have hTotal : (UInt32.ofNat otaBufSize).toNat = 32768 := rfl
  have hShort : (if len > 512 then 512 else len).toNat = min len.toNat 512 := by
    have hMax : (512 : UInt32).toNat = 512 := rfl
    split
    · rename_i hLong
      rw [gt_iff_lt, UInt32.lt_iff_toNat_lt, hMax] at hLong
      omega
    · rename_i hLong
      rw [gt_iff_lt, UInt32.lt_iff_toNat_lt, hMax] at hLong
      omega
  generalize (if len > 512 then 512 else len) = short at hShort
  have hSum : (offset + short).toNat = offset.toNat + short.toNat := by
    rw [UInt32.toNat_add]
    exact Nat.mod_eq_of_lt (by omega)
  unfold dumped
  dsimp only
  split
  · rename_i hEnd
    rw [gt_iff_lt, UInt32.lt_iff_toNat_lt, hSum, hTotal] at hEnd
    rw [UInt32.toNat_sub_of_le _ _ (UInt32.le_iff_toNat_le.mpr (by omega)), hTotal]
    omega
  · rename_i hEnd
    rw [gt_iff_lt, UInt32.lt_iff_toNat_lt, hSum, hTotal] at hEnd
    omega

theorem cmdOtaDump_of_inside (h : (strtoul argv1).toNat < otaBufSize) :
    cmdOtaDump ota argv1 argv2 =
      (0, (rows ota (strtoul argv1).toNat (dumped (strtoul argv1).toNat (strtoul argv2).toNat)).map .print) := by
  have hSize : otaBufSize = 32768 := rfl
  have hClamped := toNat_clamped (strtoul argv1) (strtoul argv2) h
  dsimp only at hClamped
  have hInside : ¬ strtoul argv1 ≥ UInt32.ofNat otaBufSize := by
    rw [ge_iff_le, UInt32.le_iff_toNat_le]
    exact Nat.not_le.mpr h
  rw [cmdOtaDump]
  dsimp only
  rw [if_neg hInside, hClamped, rows, List.map_map]
  refine congrArg (Prod.mk 0) (List.map_congr_left fun k hk => congrArg Line.print (dumpLine_eq ?_ ?_))
  · rw [List.mem_range, dumped] at hk
    omega
  · rw [dumped, appConfigOtaGetBuf, ota.buf.toList_length]
    omega

/-- The bytes on a line. -/
def readLine : Line → List UInt8
  | .print s => readRow s
  | .error _ => []

theorem read_rows {offset len : Nat} (h : offset + len ≤ otaBufSize) :
    ((rows ota offset len).map Line.print).flatMap readLine = (ota.buf.toList.drop offset).take len := by
  have hRow (k : Nat) : readLine (.print (hexRow (padded 4 16 (offset + k * 16))
      (block 16 ((ota.buf.toList.drop offset).take len) k))) = block 16 ((ota.buf.toList.drop offset).take len) k :=
    readRow_hexRow (fun _ => isDigit_padded (by decide) (by decide)) _
  have hLength : ((ota.buf.toList.drop offset).take len).length = len := length_asked (by rwa [ota.buf.toList_length])
  rw [rows, List.map_map, List.flatMap_map]
  simp only [Function.comp_apply, hRow]
  exact flatMap_block_of_le (by omega)

theorem read_otaDump (ota : OtaState) (argv1 argv2 : Text) :
    (cmdOtaDump ota argv1 argv2).2.flatMap readLine =
      (ota.buf.toList.drop (strtoul argv1).toNat).take (min (strtoul argv2).toNat 512) := by
  have hLength := ota.buf.toList_length
  by_cases hInside : (strtoul argv1).toNat < otaBufSize
  · rw [cmdOtaDump_of_inside hInside, read_rows (by unfold dumped; omega), dumped]
    rw [List.take_eq_take_iff, List.length_drop, hLength]
    omega
  · rw [cmdOtaDump_of_outside (Nat.not_lt.mp hInside), List.drop_eq_nil_of_le (by omega), List.take_nil]
    rfl

theorem row_otaDump {k : Nat} {row : Text} (h : (cmdOtaDump ota argv1 argv2).2[k]? = some (.print row)) :
    readLabel row = (strtoul argv1).toNat + k * 16 ∧ row.length < lineSize := by
  have hSize : otaBufSize = 32768 := rfl
  by_cases hInside : (strtoul argv1).toNat < otaBufSize
  · rw [cmdOtaDump_of_inside hInside, List.getElem?_map] at h
    obtain ⟨row', hRow, hPrint⟩ := Option.map_eq_some_iff.mp h
    obtain rfl := Line.print.inj hPrint
    rw [rows, List.getElem?_map] at hRow
    obtain ⟨k', hIndex, rfl⟩ := Option.map_eq_some_iff.mp hRow
    obtain ⟨hRange, hSame⟩ := List.getElem?_eq_some_iff.mp hIndex
    rw [List.getElem_range] at hSame
    obtain rfl := hSame
    rw [List.length_range, dumped] at hRange
    have hWidth : (padded 4 16 ((strtoul argv1).toNat + k * 16)).length = 4 :=
      length_padded (by decide) (by decide) (by omega)
    refine ⟨readLabel_hexRow 4 _ _, ?_⟩
    rw [length_hexRow, hWidth, length_block, lineSize]
    omega
  · rw [cmdOtaDump_of_outside (Nat.not_lt.mp hInside)] at h
    match k with
    | 0 => cases h
    | k + 1 => cases h

/-- Whatever is asked for, the lines are the asked bytes that exist, at most 512 of them, each line
under its offset and in one piece. -/
theorem otaDump_reads (ota : OtaState) (argv1 argv2 : Text) :
    (cmdOtaDump ota argv1 argv2).1 = (if (strtoul argv1).toNat < otaBufSize then 0 else -einval) ∧
      (cmdOtaDump ota argv1 argv2).2.flatMap readLine =
        (ota.buf.toList.drop (strtoul argv1).toNat).take (min (strtoul argv2).toNat 512) ∧
      ∀ (k : Nat) row, (cmdOtaDump ota argv1 argv2).2[k]? = some (.print row) →
        readLabel row = (strtoul argv1).toNat + k * 16 ∧ row.length < lineSize := by
  refine ⟨?_, read_otaDump ota argv1 argv2, fun k row => row_otaDump⟩
  split
  · rename_i hInside
    rw [cmdOtaDump_of_inside hInside]
  · rename_i hOutside
    rw [cmdOtaDump_of_outside (Nat.not_lt.mp hOutside)]

/-- 64 commands read the buffer out. -/
theorem readsOut (ota : OtaState) :
    (List.range 64).flatMap (fun k => (cmdOtaDump ota (unsigned (k * 512)) (unsigned 512)).2.flatMap readLine) =
      ota.buf.toList := by
  have hArg (n : Nat) (hLt : n < 2 ^ 32) : (strtoul (unsigned n)).toNat = n := by
    rw [unsigned, ← List.append_nil (decimal n), strtoul_decimal hLt ends_nil, UInt32.toNat_ofNat_of_lt' hLt]
  have hBlock : ∀ k ∈ List.range 64, (cmdOtaDump ota (unsigned (k * 512)) (unsigned 512)).2.flatMap readLine =
      block 512 ota.buf.toList k := by
    intro k hk
    rw [List.mem_range] at hk
    rw [read_otaDump, hArg (k * 512) (by omega), hArg 512 (by decide)]
    rfl
  have hCovers : ota.buf.toList.length ≤ 64 * 512 := le_of_eq ota.buf.toList_length
  rw [List.flatMap_congr hBlock, flatMap_block_of_le hCovers]

end Dump

end IotRange.OtaDump
