import IotRange.Library.Reassembly
import IotRange.Sessions

/-! # OTA transfers

What one event of the device does to the OTA state, and the reassembly of an image whose packets
come in any order, some of them more than once.
-/
namespace IotRange.OtaTransfer
open AppAuth AppFields AppProtocol AppConfig Device
set_option autoImplicit false

/-- The OTA command that an event brings to an unlocked BLE channel. -/
def Commands (cmd : UInt8) (packet : List UInt8) (d : Device) (e : Event) : Prop :=
  Writable d.auth .ble e.uptime ∧ HasCmd cmd packet ∧ e.IsRequest fun c req => c = .ble ∧ req = packet

theorem Commands.unique {cmd cmd' : UInt8} {packet packet' : List UInt8} {d : Device} {e : Event}
    (h : Commands cmd packet d e) (h' : Commands cmd' packet' d e) : packet = packet' := by
  obtain ⟨c, rand, req, hInput, rfl, rfl⟩ := isRequest_iff.mp h.2.2
  obtain ⟨c', rand', req', hInput', rfl, rfl⟩ := isRequest_iff.mp h'.2.2
  cases hInput.symm.trans hInput'
  rfl

section Step

variable {d : Device} {e : Event} {packet : List UInt8}

/-- The command comes to `app_config_handle_ble`, which finds the channel unlocked. -/
theorem Commands.handled {cmd : UInt8} (h : Commands cmd packet d e) :
    ∃ env req, req.bytes = packet ∧ HasCmd cmd req.bytes ∧ Writable d.auth .ble env.uptime ∧
      machine.step d e = appConfigHandleBle env d req := by
  obtain ⟨hWritable, hCmd, hRequest⟩ := h
  obtain ⟨c, rand, req, hInput, rfl, rfl⟩ := isRequest_iff.mp hRequest
  exact ⟨⟨e.uptime, rand⟩, req, rfl, hCmd, hWritable, step_of_request hInput⟩

theorem step_of_start (h : Commands cmdOtaStart packet d e) :
    machine.step d e = ({ d with ota := (otaStart d.ota packet).1 }, (otaStart d.ota packet).2) := by
  obtain ⟨env, req, rfl, hCmd, hWritable, hStep⟩ := h.handled
  rw [hStep, appConfigHandleBle_of_start env d hCmd, otaChecked_of_writable hWritable]

theorem step_of_data (h : Commands cmdOtaData packet d e) :
    machine.step d e = ({ d with ota := (otaData d.ota packet).1 }, (otaData d.ota packet).2) := by
  obtain ⟨env, req, rfl, hCmd, hWritable, hStep⟩ := h.handled
  rw [hStep, appConfigHandleBle_of_data env d hCmd, otaChecked_of_writable hWritable]

theorem step_of_end (h : Commands cmdOtaEnd packet d e) :
    machine.step d e = ({ d with ota := (otaEnd d.ota).1 }, (otaEnd d.ota).2) := by
  obtain ⟨env, req, rfl, hCmd, hWritable, hStep⟩ := h.handled
  rw [hStep, appConfigHandleBle_of_end env d hCmd, otaChecked_of_writable hWritable]

theorem ota_next_of_start (h : Commands cmdOtaStart packet d e) :
    (machine.next d e).ota = (otaStart d.ota packet).1 := by
  rw [Machine.next, step_of_start h]

theorem ota_next_of_data (h : Commands cmdOtaData packet d e) :
    (machine.next d e).ota = (otaData d.ota packet).1 := by
  rw [Machine.next, step_of_data h]

theorem ota_next_of_end (h : Commands cmdOtaEnd packet d e) : (machine.next d e).ota = (otaEnd d.ota).1 := by
  rw [Machine.next, step_of_end h]

end Step

theorem ota_next_of_not_isOta {d : Device} {e : Event} {c : Channel} {rand : Bytes 8} {req : Payload}
    (h : e.input = .request c rand req) (hOta : ¬ IsOta req.bytes) : (machine.next d e).ota = d.ota := by
  rw [Machine.next, step_of_request h]
  cases c with
  | nfc => rfl
  | ble =>
    obtain ⟨hCommand, -⟩ | ⟨-, hEq⟩ := appConfigHandleBle_cases ⟨e.uptime, rand⟩ d req
    · exact absurd hCommand hOta
    · exact congrArg (fun p : Device × List UInt8 => p.1.ota) hEq

/-- Every other event leaves the OTA state alone. -/
theorem ota_next_cases (d : Device) (e : Event) :
    (∃ packet, Commands cmdOtaStart packet d e) ∨ (∃ packet, Commands cmdOtaData packet d e) ∨
      (∃ packet, Commands cmdOtaEnd packet d e) ∨ (machine.next d e).ota = d.ota := by
  obtain ⟨uptime, input⟩ := e
  cases input with
  | bleDisconnect => exact .inr (.inr (.inr rfl))
  | request c rand req =>
    cases c with
    | nfc => exact .inr (.inr (.inr rfl))
    | ble =>
      by_cases hWritable : Writable d.auth .ble uptime
      · by_cases hOta : IsOta req.bytes
        · obtain hCmd | hCmd | hCmd := hOta
          · exact .inl ⟨req.bytes, hWritable, hCmd, rfl, rfl⟩
          · exact .inr (.inl ⟨req.bytes, hWritable, hCmd, rfl, rfl⟩)
          · exact .inr (.inr (.inl ⟨req.bytes, hWritable, hCmd, rfl, rfl⟩))
        · exact .inr (.inr (.inr (ota_next_of_not_isOta rfl hOta)))
      · have hKept := ota_handleRequest ⟨uptime, rand⟩ d .ble req
        exact .inr (.inr (.inr (hKept.resolve_right fun h => hWritable h.2)))

/-! ## Packets -/

section Packets

variable {ota : OtaState} {data : List UInt8}

def packetOffset (data : List UInt8) : Nat := (readBe16 (data.drop 1)).toNat * otaPktData

theorem buf_otaData_of_fits (hActive : ota.active = true) (hLength : 4 ≤ data.length)
    (hFits : packetOffset data + (data.drop 3).length ≤ otaBufSize) :
    (otaData ota data).1.buf.toList = writeAt ota.buf.toList (packetOffset data) (data.drop 3) := by
  unfold packetOffset at hFits
  unfold otaData
  rw [hActive, if_neg (by decide), if_pos hLength]
  dsimp only
  rw [dif_pos hFits]
  rfl

theorem otaData_of_fits (hActive : ota.active = true) (hLength : 4 ≤ data.length)
    (hFits : packetOffset data + (data.drop 3).length ≤ otaBufSize) :
    (otaData ota data).1 =
      { ota with
        buf := ota.buf.write (packetOffset data) (data.drop 3) hFits
        bytesReceived := ota.bytesReceived + UInt32.ofNat (data.drop 3).length
        nextIdx := readBe16 (data.drop 1) + 1 } := by
  unfold packetOffset at hFits
  rw [otaData, hActive, if_neg (by decide), if_pos hLength]
  dsimp only
  rw [dif_pos hFits]
  rfl

/-- A packet that is not written leaves the whole buffer as it is. -/
theorem buf_otaData_cases (ota : OtaState) (data : List UInt8) :
    (otaData ota data).1.buf = ota.buf ∨ packetOffset data + (data.drop 3).length ≤ otaBufSize ∧
      (otaData ota data).1.buf.toList = writeAt ota.buf.toList (packetOffset data) (data.drop 3) := by
  unfold otaData
  split
  · exact .inl rfl
  · split
    · dsimp only
      split
      · rename_i hFits
        exact .inr ⟨hFits, rfl⟩
      · exact .inl rfl
    · exact .inl rfl

theorem flags_otaData (ota : OtaState) (data : List UInt8) :
    (otaData ota data).1.active = ota.active ∧ (otaData ota data).1.done = ota.done := by
  unfold otaData
  split
  · exact ⟨rfl, rfl⟩
  · split
    · dsimp only
      split <;> exact ⟨rfl, rfl⟩
    · exact ⟨rfl, rfl⟩

theorem otaData_outside {i : Nat}
    (h : i < packetOffset data ∨ packetOffset data + (data.drop 3).length ≤ i) :
    (otaData ota data).1.buf.toList[i]? = ota.buf.toList[i]? := by
  obtain hSame | ⟨hFits, hWritten⟩ := buf_otaData_cases ota data
  · rw [hSame]
  · rw [hWritten]
    exact getElem?_writeAt_of_outside (by rwa [ota.buf.toList_length]) h

end Packets

/-! ## Reassembly -/

def chunkPacket (image : List UInt8) (k : Nat) : List UInt8 :=
  cmdOtaData :: (be16 (UInt16.ofNat k) ++ block otaPktData image k)

/-- The transfer takes the packet. -/
def Accepts (packet : List UInt8) (d : Device) (e : Event) : Prop :=
  d.ota.active = true ∧ Commands cmdOtaData packet d e

section Chunks

variable {image : List UInt8} {k : Nat}

theorem drop_chunkPacket (image : List UInt8) (k : Nat) : (chunkPacket image k).drop 3 = block otaPktData image k := rfl

theorem toNat_chunkIndex (hImage : image.length ≤ otaBufSize) (hChunk : k * otaPktData < image.length) :
    (UInt16.ofNat k).toNat = k := by
  unfold otaPktData at hChunk
  unfold otaBufSize at hImage
  rw [UInt16.toNat_ofNat', Nat.mod_eq_of_lt (by omega)]

theorem packetOffset_chunkPacket (hImage : image.length ≤ otaBufSize) (hChunk : k * otaPktData < image.length) :
    packetOffset (chunkPacket image k) = k * otaPktData := by
  rw [packetOffset, chunkPacket, List.drop_succ_cons, List.drop_zero, readBe16_be16, toNat_chunkIndex hImage hChunk]

theorem chunkPacket_injective {j : Nat} (hImage : image.length ≤ otaBufSize) (hChunk : k * otaPktData < image.length)
    (hOther : j * otaPktData < image.length) (h : chunkPacket image k = chunkPacket image j) : k = j := by
  have hOffset := congrArg packetOffset h
  rw [packetOffset_chunkPacket hImage hChunk, packetOffset_chunkPacket hImage hOther] at hOffset
  exact Nat.eq_of_mul_eq_mul_right (by decide) hOffset

/-- Every chunk fits, the short last one near the end of the buffer too. -/
theorem buf_otaData_chunkPacket {ota : OtaState} (hActive : ota.active = true) (hImage : image.length ≤ otaBufSize)
    (hChunk : k * otaPktData < image.length) :
    (otaData ota (chunkPacket image k)).1.buf.toList =
      writeAt ota.buf.toList (k * otaPktData) (block otaPktData image k) := by
  have hOffset := packetOffset_chunkPacket hImage hChunk
  have hLength := length_block otaPktData image k
  rw [buf_otaData_of_fits hActive, hOffset, drop_chunkPacket]
  · change 4 ≤ (block otaPktData image k).length + 3
    rw [hLength]
    unfold otaPktData at *
    omega
  · rw [hOffset, drop_chunkPacket, hLength]
    omega

end Chunks

/-- The chunks that a run has brought to the transfer. -/
def arrived (image : List UInt8) (d : Device) (es : List Event) : Set Nat :=
  {k | k * otaPktData < image.length ∧ ∃ p ∈ machine.situations d es, Accepts (chunkPacket image k) p.1 p.2}

theorem mem_arrived_concat {image : List UInt8} {d : Device} {es : List Event} {e : Event} {k : Nat} :
    k ∈ arrived image d (es ++ [e]) ↔ k ∈ arrived image d es ∨
      (k * otaPktData < image.length ∧ Accepts (chunkPacket image k) (machine.run d es) e) := by
  constructor
  · rintro ⟨hChunk, p, hp, hAccepts⟩
    rw [Machine.situations_append, List.mem_append] at hp
    obtain hp | hp := hp
    · exact .inl ⟨hChunk, p, hp, hAccepts⟩
    · obtain rfl := List.mem_singleton.mp hp
      exact .inr ⟨hChunk, hAccepts⟩
  · rintro (⟨hChunk, p, hp, hAccepts⟩ | ⟨hChunk, hAccepts⟩)
    · refine ⟨hChunk, p, ?_, hAccepts⟩
      rw [Machine.situations_append]
      exact List.mem_append_left _ hp
    · refine ⟨hChunk, (machine.run d es, e), ?_, hAccepts⟩
      rw [Machine.situations_append]
      exact List.mem_append_right _ List.mem_cons_self

/-- Only packets that the transfer takes write to the buffer. -/
theorem buf_next_of_not_accepts {d : Device} {e : Event} (h : ∀ packet, ¬ Accepts packet d e) :
    (machine.next d e).ota.buf = d.ota.buf := by
  obtain ⟨packet, hStart⟩ | ⟨packet, hData⟩ | ⟨packet, hEnd⟩ | hSame := ota_next_cases d e
  · rw [ota_next_of_start hStart]
    rfl
  · have hInactive : d.ota.active ≠ true := fun hActive => h packet ⟨hActive, hData⟩
    rw [ota_next_of_data hData, otaData, if_pos (by simpa using hInactive)]
  · rw [ota_next_of_end hEnd]
    rfl
  · rw [hSame]

section Run

variable {image : List UInt8} {d : Device}

/-- A chunk goes to its place, and everything else leaves the buffer as it is. -/
theorem assembled_concat {es : List Event} {e : Event} (hImage : image.length ≤ otaBufSize)
    (hChunks : ∀ packet, Accepts packet (machine.run d es) e →
      ∃ k, k * otaPktData < image.length ∧ packet = chunkPacket image k)
    (h : Assembled otaPktData image d.ota.buf.toList (arrived image d es) (machine.run d es).ota.buf.toList) :
    Assembled otaPktData image d.ota.buf.toList (arrived image d (es ++ [e]))
      (machine.run d (es ++ [e])).ota.buf.toList := by
  rw [Machine.run_append, Machine.run_cons, Machine.run_nil]
  by_cases hAccepts : ∃ packet, Accepts packet (machine.run d es) e
  · obtain ⟨packet, hActive, hData⟩ := hAccepts
    obtain ⟨k, hChunk, rfl⟩ := hChunks packet ⟨hActive, hData⟩
    have hArrived : arrived image d (es ++ [e]) = insert k (arrived image d es) := by
      ext j
      rw [mem_arrived_concat, Set.mem_insert_iff, or_comm]
      refine or_congr_left ⟨fun ⟨hOther, hNow⟩ => ?_, fun hSame => hSame ▸ ⟨hChunk, hActive, hData⟩⟩
      exact chunkPacket_injective hImage hOther hChunk (hNow.2.unique hData)
    rw [hArrived, ota_next_of_data hData, buf_otaData_chunkPacket hActive hImage hChunk]
    exact h.write (by decide) (by rwa [d.ota.buf.toList_length]) hChunk
  · have hNone : ∀ packet, ¬ Accepts packet (machine.run d es) e := fun packet hPacket => hAccepts ⟨packet, hPacket⟩
    have hArrived : arrived image d (es ++ [e]) = arrived image d es := by
      ext j
      rw [mem_arrived_concat]
      exact or_iff_left fun hNow => hNone _ hNow.2
    rw [hArrived, buf_next_of_not_accepts hNone]
    exact h

theorem assembled_run (hImage : image.length ≤ otaBufSize) (es : List Event)
    (hChunks : ∀ p ∈ machine.situations d es, ∀ packet, Accepts packet p.1 p.2 →
      ∃ k, k * otaPktData < image.length ∧ packet = chunkPacket image k) :
    Assembled otaPktData image d.ota.buf.toList (arrived image d es) (machine.run d es).ota.buf.toList := by
  induction es using List.reverseRecOn with
  | nil =>
    have hNone : arrived image d [] = ∅ :=
      Set.eq_empty_of_forall_notMem fun k hk => by
        obtain ⟨-, p, hp, -⟩ := hk
        exact absurd hp List.not_mem_nil
    rw [hNone]
    exact assembled_empty otaPktData image d.ota.buf.toList
  | append_singleton es e ih =>
    rw [Machine.situations_append] at hChunks
    refine assembled_concat hImage ?_ (ih fun p hp => hChunks p (List.mem_append_left _ hp))
    exact hChunks (machine.run d es, e) (List.mem_append_right _ List.mem_cons_self)

end Run

/-- Whatever else happens, a transfer that takes the chunks of an image only, each at least once, ends
with the image and the rest of the old buffer. A packet never reaches beyond its own range. -/
theorem reassembles (image : List UInt8) (hImage : image.length ≤ otaBufSize) :
    (∀ d es, (∀ p ∈ machine.situations d es, ∀ packet, Accepts packet p.1 p.2 →
          ∃ k, k * otaPktData < image.length ∧ packet = chunkPacket image k) →
        (∀ k, k * otaPktData < image.length →
          ∃ p ∈ machine.situations d es, Accepts (chunkPacket image k) p.1 p.2) →
        (machine.run d es).ota.buf.toList.take image.length = image ∧
          (machine.run d es).ota.buf.toList.drop image.length = d.ota.buf.toList.drop image.length) ∧
      ∀ env d (data : Payload), HasCmd cmdOtaData data.bytes → ∀ i,
        i < packetOffset data.bytes ∨ packetOffset data.bytes + (data.bytes.drop 3).length ≤ i →
          (appConfigHandleBle env d data).1.ota.buf.toList[i]? = d.ota.buf.toList[i]? := by
  refine ⟨fun d es hChunks hEach => ?_, fun env d data hCmd i hOutside => ?_⟩
  · have hBuf := (assembled_run hImage es hChunks).complete fun i hi => by
      have hChunk : i / otaPktData * otaPktData < image.length :=
        Nat.lt_of_le_of_lt (Nat.div_mul_le_self i otaPktData) hi
      exact ⟨hChunk, hEach (i / otaPktData) hChunk⟩
    rw [hBuf]
    exact ⟨List.take_left, List.drop_left⟩
  · rw [appConfigHandleBle_of_data env d hCmd]
    by_cases hWritable : Writable d.auth .ble env.uptime
    · rw [otaChecked_of_writable hWritable]
      exact otaData_outside hOutside
    · rw [otaChecked_of_not_writable hWritable]

/-! ### Three chunks out of order -/

section OutOfOrder

/-- BLE is unlocked and a transfer is active. -/
def Receiving (d : Device) : Prop := (∀ t, Writable d.auth .ble t) ∧ d.ota.active = true

theorem accepts_of_receiving {d : Device} {e : Event} {packet : List UInt8} (h : Receiving d)
    (hCmd : HasCmd cmdOtaData packet) (hRequest : e.IsRequest fun c req => c = .ble ∧ req = packet) :
    Accepts packet d e :=
  ⟨h.2, h.1 e.uptime, hCmd, hRequest⟩

theorem receiving_next {d : Device} {e : Event} {packet : List UInt8} (h : Receiving d)
    (hAccepts : Accepts packet d e) : Receiving (machine.next d e) := by
  rw [Machine.next, step_of_data hAccepts.2]
  exact ⟨h.1, (flags_otaData d.ota packet).1.trans h.2⟩

theorem receiving_next_of_skip {d : Device} {e : Event} (h : Receiving d)
    (hSkip : Sessions.eventAction .ble d e = .skip)
    (hOta : (machine.next d e).ota = d.ota) : Receiving (machine.next d e) := by
  refine ⟨fun t => ?_, (congrArg OtaState.active hOta).trans h.2⟩
  rw [writable_iff_open, Sessions.session_next, hSkip, ChallengeResponse.Session.apply, ← writable_iff_open]
  exact h.1 t

/-- Chunks of 492, 492 and 16 bytes. -/
def threeChunks : List UInt8 := (List.range 1000).map UInt8.ofNat

theorem length_threeChunks : threeChunks.length = 1000 := by rw [threeChunks, List.length_map, List.length_range]

theorem lt_three_iff {k : Nat} : k * otaPktData < threeChunks.length ↔ k < 3 := by
  rw [length_threeChunks]
  unfold otaPktData
  omega

theorem length_chunkPacket_lt (image : List UInt8) (k : Nat) : (chunkPacket image k).length < 2 ^ 16 := by
  have hBlock : (block otaPktData image k).length ≤ otaPktData := List.length_take_le _ _
  change (block otaPktData image k).length + 3 < 2 ^ 16
  unfold otaPktData at *
  omega

def packetEvent (k : Nat) : Event :=
  ⟨k, .request .ble (List.Vector.replicate 8 0) ⟨chunkPacket threeChunks k, length_chunkPacket_lt _ _⟩⟩

/-- Somebody locks NFC. -/
def nfcLockEvent : Event := ⟨2, .request .nfc (List.Vector.replicate 8 0) ⟨[cmdAuth, authSubcmdLock, 0xFF], by decide⟩⟩

def outOfOrder : List Event :=
  [packetEvent 2, packetEvent 0, nfcLockEvent, packetEvent 0, packetEvent 1, packetEvent 2]

def receiving : Device :=
  { boot with
    auth := { boot.auth with bleUnlocked := true }
    ota := { OtaState.static with active := true } }

theorem accepts_packetEvent {d : Device} (h : Receiving d) (k : Nat) :
    Accepts (chunkPacket threeChunks k) d (packetEvent k) :=
  accepts_of_receiving h rfl ⟨rfl, rfl⟩

theorem receiving_nfcLock {d : Device} (h : Receiving d) : Receiving (machine.next d nfcLockEvent) :=
  receiving_next_of_skip h rfl rfl

theorem receiving_run {es : List Event} (hEvents : ∀ e ∈ es, e = nfcLockEvent ∨ ∃ k < 3, e = packetEvent k) :
    Receiving (machine.run receiving es) := by
  refine machine.run_invariant_of (I := Receiving) (P := fun e => e = nfcLockEvent ∨ ∃ k < 3, e = packetEvent k) ?_
    receiving es hEvents ⟨fun _ => rfl, rfl⟩
  rintro d e (rfl | ⟨k, -, rfl⟩) h
  · exact receiving_nfcLock h
  · exact receiving_next h (accepts_packetEvent h k)

theorem mem_outOfOrder {e : Event} (h : e ∈ outOfOrder) : e = nfcLockEvent ∨ ∃ k < 3, e = packetEvent k := by
  simp only [outOfOrder, List.mem_cons, List.not_mem_nil, or_false] at h
  obtain rfl | rfl | rfl | rfl | rfl | rfl := h
  · exact .inr ⟨2, by decide, rfl⟩
  · exact .inr ⟨0, by decide, rfl⟩
  · exact .inl rfl
  · exact .inr ⟨0, by decide, rfl⟩
  · exact .inr ⟨1, by decide, rfl⟩
  · exact .inr ⟨2, by decide, rfl⟩

/-- Each packet of the run meets the transfer. -/
theorem exists_accepts_outOfOrder {k : Nat} (h : packetEvent k ∈ outOfOrder) :
    ∃ p ∈ machine.situations receiving outOfOrder, Accepts (chunkPacket threeChunks k) p.1 p.2 := by
  obtain ⟨pre, post, hSplit⟩ := List.append_of_mem h
  have hPre : ∀ e ∈ pre, e = nfcLockEvent ∨ ∃ k < 3, e = packetEvent k := fun e he =>
    mem_outOfOrder (hSplit ▸ List.mem_append_left _ he)
  exact ⟨(machine.run receiving pre, packetEvent k), machine.mem_situations_iff.mpr ⟨pre, post, hSplit, rfl⟩,
    accepts_packetEvent (receiving_run hPre) k⟩

theorem chunk_of_accepts {d : Device} {e : Event} {packet : List UInt8} (h : Accepts packet d e)
    (hEvent : e = nfcLockEvent ∨ ∃ k < 3, e = packetEvent k) :
    ∃ k, k * otaPktData < threeChunks.length ∧ packet = chunkPacket threeChunks k := by
  obtain rfl | ⟨k, hk, rfl⟩ := hEvent
  · cases h.2.2.2.1
  · exact ⟨k, lt_three_iff.mpr hk, h.2.2.2.2.symm⟩

/-- The image is there, what is behind it is left, and the last chunk alone leaves the two in front of it. -/
theorem reassembles_outOfOrder :
    ((machine.run receiving outOfOrder).ota.buf.toList.take threeChunks.length = threeChunks ∧
        (machine.run receiving outOfOrder).ota.buf.toList.drop threeChunks.length =
          receiving.ota.buf.toList.drop threeChunks.length) ∧
      (appConfigHandleBle ⟨0, List.Vector.replicate 8 0⟩ receiving
        ⟨chunkPacket threeChunks 2, length_chunkPacket_lt _ _⟩).1.ota.buf.toList[983]? =
          receiving.ota.buf.toList[983]? := by
  obtain ⟨hRuns, hFrame⟩ := reassembles threeChunks (by rw [length_threeChunks]; decide)
  have hLastCmd : HasCmd cmdOtaData (chunkPacket threeChunks 2) := rfl
  have hLastChunk : packetOffset (chunkPacket threeChunks 2) = 984 := rfl
  refine ⟨hRuns receiving outOfOrder ?_ ?_, hFrame _ _ ⟨chunkPacket threeChunks 2, _⟩ hLastCmd 983 (.inl ?_)⟩
  · intro p hp packet hAccepts
    exact chunk_of_accepts hAccepts (machine.forall_situations (fun e he => mem_outOfOrder he) p hp)
  · intro k hChunk
    have hThree := lt_three_iff.mp hChunk
    apply exists_accepts_outOfOrder
    simp only [outOfOrder, List.mem_cons]
    obtain rfl | rfl | rfl : k = 0 ∨ k = 1 ∨ k = 2 := by omega
    · exact .inr (.inl rfl)
    · exact .inr (.inr (.inr (.inr (.inl rfl))))
    · exact .inl rfl
  · rw [hLastChunk]
    decide

end OutOfOrder

end IotRange.OtaTransfer
