import IotRange.OtaDump
import IotRange.OtaProgress

/-! # An upload from end to end

The packets of an image, with anything between them that keeps BLE unlocked, and what the shell
shows of the image afterwards.
-/
namespace IotRange.Upload
open AppAuth AppProtocol AppConfig Device OtaTransfer ShellCmd OtaDump
set_option autoImplicit false

/-- The OTA packet that an event brings. -/
def otaPacket (e : Event) : Option (List UInt8) :=
  match e.input with
  | .request .ble _ req => if IsOta req.bytes then some req.bytes else none
  | .request .nfc _ _ | .bleDisconnect => none

section Packet

variable (uptime : Nat) (rand : Bytes 8) (req : Payload)

theorem otaPacket_of_isOta (h : IsOta req.bytes) : otaPacket ⟨uptime, .request .ble rand req⟩ = some req.bytes :=
  if_pos h

theorem otaPacket_of_not_isOta (h : ¬ IsOta req.bytes) : otaPacket ⟨uptime, .request .ble rand req⟩ = none :=
  if_neg h

end Packet

def takePacket (ota : OtaState) (packet : List UInt8) : OtaState :=
  match byteAt packet 0 with
  | cmdOtaStart => (otaStart ota packet).1
  | cmdOtaData => (otaData ota packet).1
  | _ => (otaEnd ota).1

/-- BLE is unlocked at every event of the run. -/
def StaysOpen (d : Device) (es : List Event) : Prop :=
  ∀ p ∈ machine.situations d es, Writable p.1.auth .ble p.2.uptime

section Run

variable {d : Device} {e : Event}

theorem ota_next (h : Writable d.auth .ble e.uptime) :
    (machine.next d e).ota = (otaPacket e).elim d.ota (takePacket d.ota) := by
  obtain ⟨uptime, input⟩ := e
  cases input with
  | bleDisconnect => rfl
  | request c rand req =>
    cases c with
    | nfc => rfl
    | ble =>
      by_cases hOta : IsOta req.bytes
      · rw [otaPacket_of_isOta uptime rand req hOta, Option.elim_some, takePacket]
        obtain hCmd | hCmd | hCmd := hOta
        all_goals rw [(take_one_eq_iff.mp hCmd).2]
        · exact ota_next_of_start ⟨h, hCmd, rfl, rfl⟩
        · exact ota_next_of_data ⟨h, hCmd, rfl, rfl⟩
        · exact ota_next_of_end ⟨h, hCmd, rfl, rfl⟩
      · rw [otaPacket_of_not_isOta uptime rand req hOta]
        exact ota_next_of_not_isOta rfl hOta

theorem staysOpen_nil (d : Device) : StaysOpen d [] := List.forall_mem_nil _

theorem staysOpen_cons {es : List Event} :
    StaysOpen d (e :: es) ↔ Writable d.auth .ble e.uptime ∧ StaysOpen (machine.next d e) es :=
  List.forall_mem_cons

/-- While BLE is unlocked the OTA state is what its packets make it. -/
theorem ota_run {es : List Event} (h : StaysOpen d es) :
    (machine.run d es).ota = (es.filterMap otaPacket).foldl takePacket d.ota := by
  induction es generalizing d with
  | nil => rfl
  | cons e es ih =>
    obtain ⟨hNow, hRest⟩ := staysOpen_cons.mp h
    rw [Machine.run_cons, ih hRest, ota_next hNow, List.filterMap_cons]
    cases otaPacket e <;> rfl

end Run

/-! ## The packets of an image -/

def chunkCount (image : List UInt8) : Nat := (image.length + (otaPktData - 1)) / otaPktData

def startPacket (image : List UInt8) : List UInt8 := cmdOtaStart :: be32 (UInt32.ofNat image.length)

def uploadPackets (image : List UInt8) : List (List UInt8) :=
  [startPacket image] ++ (List.range (chunkCount image)).map (chunkPacket image) ++ [[cmdOtaEnd]]

/-- The first `k` chunks have arrived. -/
structure Received (image before : List UInt8) (k : Nat) (ota : OtaState) : Prop where
  active : ota.active = true
  totalSize : ota.totalSize = UInt32.ofNat image.length
  nextIdx : ota.nextIdx = UInt16.ofNat k
  bytesReceived : ota.bytesReceived = UInt32.ofNat (min (k * otaPktData) image.length)
  assembled : Assembled otaPktData image before {j | j < k} ota.buf.toList

section Chunks

variable {image before : List UInt8} {k : Nat} {ota : OtaState}

theorem lt_chunkCount_iff : k < chunkCount image ↔ k * otaPktData < image.length := by
  unfold chunkCount otaPktData
  omega

theorem received_start (image : List UInt8) (ota : OtaState) :
    Received image ota.buf.toList 0 (takePacket ota (startPacket image)) where
  active := rfl
  totalSize := readBe32_be32 (UInt32.ofNat image.length) []
  nextIdx := rfl
  bytesReceived := by
    rw [Nat.zero_mul, Nat.zero_min]
    rfl
  assembled := by
    have hNone : {j : Nat | j < 0} = ∅ := Set.eq_empty_of_forall_notMem fun j => Nat.not_lt_zero j
    rw [hNone]
    exact assembled_empty otaPktData image ota.buf.toList

theorem fits_chunkPacket (hImage : image.length ≤ otaBufSize) (hChunk : k * otaPktData < image.length) :
    4 ≤ (chunkPacket image k).length ∧
      packetOffset (chunkPacket image k) + ((chunkPacket image k).drop 3).length ≤ otaBufSize := by
  have hLength := length_block otaPktData image k
  rw [packetOffset_chunkPacket hImage hChunk, drop_chunkPacket, hLength]
  refine ⟨?_, by omega⟩
  change 4 ≤ (block otaPktData image k).length + 3
  rw [hLength]
  unfold otaPktData at *
  omega

theorem received_chunk (h : Received image before k ota) (hImage : image.length ≤ otaBufSize)
    (hBefore : before.length = otaBufSize) (hChunk : k * otaPktData < image.length) :
    Received image before (k + 1) (takePacket ota (chunkPacket image k)) := by
  obtain ⟨hLength, hFits⟩ := fits_chunkPacket hImage hChunk
  have hNext : takePacket ota (chunkPacket image k) = _ := otaData_of_fits h.active hLength hFits
  rw [hNext]
  refine ⟨h.active, h.totalSize, ?_, ?_, ?_⟩
  · change readBe16 (be16 (UInt16.ofNat k) ++ block otaPktData image k) + 1 = UInt16.ofNat (k + 1)
    rw [readBe16_be16, UInt16.ofNat_add]
    rfl
  · change ota.bytesReceived + UInt32.ofNat (block otaPktData image k).length = _
    rw [h.bytesReceived, ← UInt32.ofNat_add, length_block, Nat.succ_mul]
    congr 1
    omega
  · have hMore : {j | j < k + 1} = insert k {j | j < k} := by
      ext j
      rw [Set.mem_insert_iff, Set.mem_ofPred_eq, Set.mem_ofPred_eq]
      omega
    change Assembled otaPktData image before {j | j < k + 1}
      (writeAt ota.buf.toList (packetOffset (chunkPacket image k)) (block otaPktData image k))
    rw [hMore, packetOffset_chunkPacket hImage hChunk]
    exact h.assembled.write (by decide) (by rwa [hBefore]) hChunk

theorem received_chunks (h : Received image before 0 ota) (hImage : image.length ≤ otaBufSize)
    (hBefore : before.length = otaBufSize) (hChunks : k ≤ chunkCount image) :
    Received image before k (((List.range k).map (chunkPacket image)).foldl takePacket ota) := by
  induction k with
  | zero => exact h
  | succ k ih =>
    rw [List.range_succ, List.map_append, List.foldl_append]
    exact received_chunk (ih (Nat.le_of_succ_le hChunks)) hImage hBefore (lt_chunkCount_iff.mp hChunks)

theorem received_upload (hImage : image.length ≤ otaBufSize) (ota : OtaState) :
    ∃ ota', Received image ota.buf.toList (chunkCount image) ota' ∧
      (uploadPackets image).foldl takePacket ota = (otaEnd ota').1 := by
  refine ⟨_, received_chunks (received_start image ota) hImage ota.buf.toList_length (Nat.le_refl _), ?_⟩
  rw [uploadPackets, List.foldl_append, List.foldl_append]
  rfl

theorem cmdOtaInfo_of_received (h : Received image before (chunkCount image) ota) (hImage : image.length ≤ otaBufSize) :
    cmdOtaInfo (otaEnd ota).1 = (0, [.print (text "state         : " ++ text "done"),
      .print (text "total_size    : " ++ unsigned image.length ++ text " bytes"),
      .print (text "packets_rcvd  : " ++ unsigned (chunkCount image)),
      .print (text "bytes_rcvd    : " ++ unsigned image.length)]) := by
  have hLt : image.length < UInt32.size := Nat.lt_of_le_of_lt hImage (by decide)
  have hCount : chunkCount image < UInt16.size ∧ image.length ≤ chunkCount image * otaPktData := by
    unfold chunkCount otaPktData UInt16.size
    unfold otaBufSize at hImage
    omega
  have hTotal : ota.totalSize.toNat = image.length := by
    rw [h.totalSize, UInt32.toNat_ofNat_of_lt' hLt]
  have hPackets : ota.nextIdx.toNat = chunkCount image := by
    rw [h.nextIdx, UInt16.toNat_ofNat_of_lt' hCount.1]
  have hBytes : ota.bytesReceived.toNat = image.length := by
    rw [h.bytesReceived, Nat.min_eq_right hCount.2, UInt32.toNat_ofNat_of_lt' hLt]
  have hInfo : appConfigOtaGetInfo (otaEnd ota).1 = ⟨false, true, ota.totalSize, ota.nextIdx, ota.bytesReceived⟩ := rfl
  rw [cmdOtaInfo, hInfo]
  dsimp only
  rw [if_pos rfl, hTotal, hPackets, hBytes]

end Chunks

/-- The packets of an image in their order, among any other events while BLE stays unlocked and after
any uploads before: `ota info` reports the image as received, and `ota dump` reads it out. -/
theorem uploaded {image : List UInt8} (hImage : image.length ≤ otaBufSize) {d : Device} {es : List Event}
    (hOpen : StaysOpen d es) (hSent : es.filterMap otaPacket = uploadPackets image) :
    cmdOtaInfo (machine.run d es).ota = (0, [.print (text "state         : " ++ text "done"),
      .print (text "total_size    : " ++ unsigned image.length ++ text " bytes"),
      .print (text "packets_rcvd  : " ++ unsigned (chunkCount image)),
      .print (text "bytes_rcvd    : " ++ unsigned image.length)]) ∧
    (List.range 64).flatMap (fun k =>
        (cmdOtaDump (machine.run d es).ota (unsigned (k * 512)) (unsigned 512)).2.flatMap readLine) =
      image ++ d.ota.buf.toList.drop image.length := by
  obtain ⟨ota, hReceived, hEnd⟩ := received_upload hImage d.ota
  rw [ota_run hOpen, hSent, hEnd]
  refine ⟨cmdOtaInfo_of_received hReceived hImage, ?_⟩
  rw [readsOut]
  refine hReceived.assembled.complete fun i hi => ?_
  have hBlock : i / otaPktData * otaPktData < image.length := Nat.lt_of_le_of_lt (Nat.div_mul_le_self i otaPktData) hi
  exact lt_chunkCount_iff.mpr hBlock

/-! ## Three chunks among other events -/

section Example

open Revocation OtaLifeCycle

theorem length_startPacket (image : List UInt8) : (startPacket image).length < 2 ^ 16 := by
  change 5 < 2 ^ 16
  decide

def startThree : Event :=
  ⟨4, .request .ble Isolation.noRand ⟨startPacket threeChunks, length_startPacket threeChunks⟩⟩

/-- The device time over BLE. -/
def bleReadEvent : Event := ⟨5, .request .ble Isolation.noRand ⟨[cmdRead, 0, 0, 0, 8, 0], by decide⟩⟩

def threeEvents : List Event :=
  [startThree, packetEvent 0, nfcLockEvent, packetEvent 1, bleReadEvent, packetEvent 2, endEvent]

theorem receiving_startThree (d : Device) : Receiving (machine.next (unlockBle d) startThree) := by
  have hCommands : Commands cmdOtaStart (startPacket threeChunks) (unlockBle d) startThree :=
    ⟨writable_of_handshake d .ble le_top, rfl, rfl, rfl⟩
  exact OtaProgress.receiving_of_start (fun _ => writable_of_handshake d .ble le_top) hCommands

theorem receiving_bleRead {d : Device} (h : Receiving d) : Receiving (machine.next d bleReadEvent) :=
  receiving_next_of_skip h rfl (ota_next_of_not_isOta rfl (by decide))

theorem staysOpen_threeEvents (d : Device) : StaysOpen (unlockBle d) threeEvents := by
  have hPacket {d : Device} (h : Receiving d) (k : Nat) : Receiving (machine.next d (packetEvent k)) :=
    receiving_next h (accepts_packetEvent h k)
  have hStart := receiving_startThree d
  have hFirst := hPacket hStart 0
  have hLock := receiving_nfcLock hFirst
  have hSecond := hPacket hLock 1
  have hRead := receiving_bleRead hSecond
  have hThird := hPacket hRead 2
  refine staysOpen_cons.mpr ⟨writable_of_handshake d .ble le_top, ?_⟩
  refine staysOpen_cons.mpr ⟨hStart.1 _, staysOpen_cons.mpr ⟨hFirst.1 _, staysOpen_cons.mpr ⟨hLock.1 _, ?_⟩⟩⟩
  exact staysOpen_cons.mpr ⟨hSecond.1 _,
    staysOpen_cons.mpr ⟨hRead.1 _, staysOpen_cons.mpr ⟨hThird.1 _, staysOpen_nil _⟩⟩⟩

theorem chunkCount_threeChunks : chunkCount threeChunks = 3 := by rw [chunkCount, length_threeChunks]; rfl

theorem otaPacket_threeEvents : threeEvents.filterMap otaPacket = uploadPackets threeChunks := by
  have hStart : otaPacket startThree = some (startPacket threeChunks) := otaPacket_of_isOta _ _ _ (.inl rfl)
  have hPacket (k : Nat) : otaPacket (packetEvent k) = some (chunkPacket threeChunks k) :=
    otaPacket_of_isOta _ _ ⟨chunkPacket threeChunks k, length_chunkPacket_lt _ _⟩ (.inr (.inl rfl))
  have hRead : otaPacket bleReadEvent = none := otaPacket_of_not_isOta _ _ _ (by decide)
  have hEnd : otaPacket endEvent = some [cmdOtaEnd] := otaPacket_of_isOta _ _ _ (.inr (.inr rfl))
  rw [uploadPackets, chunkCount_threeChunks, threeEvents]
  simp only [List.filterMap_cons, hStart, hPacket, hRead, hEnd]
  rfl

theorem uploaded_threeChunks :
    cmdOtaInfo (machine.run (unlockBle boot) threeEvents).ota =
      (0, [.print (text "state         : " ++ text "done"),
        .print (text "total_size    : " ++ unsigned threeChunks.length ++ text " bytes"),
        .print (text "packets_rcvd  : " ++ unsigned (chunkCount threeChunks)),
        .print (text "bytes_rcvd    : " ++ unsigned threeChunks.length)]) ∧
    (List.range 64).flatMap (fun k => (cmdOtaDump (machine.run (unlockBle boot) threeEvents).ota
        (unsigned (k * 512)) (unsigned 512)).2.flatMap readLine) =
      threeChunks ++ (unlockBle boot).ota.buf.toList.drop threeChunks.length :=
  uploaded (by rw [length_threeChunks]; decide) (staysOpen_threeEvents boot) otaPacket_threeEvents

end Example

end IotRange.Upload
