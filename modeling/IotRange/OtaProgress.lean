import IotRange.Library.Coverage
import IotRange.OtaLifeCycle
import Mathlib.Order.Interval.Finset.Nat

/-! # OTA progress

The packets that are stored since an OTA_START, the positions they write and what `bytes_received`
says about them: it adds up lengths, so a position counts as often as it is written.
-/
namespace IotRange.OtaProgress
open AppAuth AppProtocol AppConfig Device OtaTransfer Coverage
set_option autoImplicit false

/-- The transfer takes the packet and it fits into the buffer. -/
def Stores (packet : List UInt8) (d : Device) (e : Event) : Prop :=
  Accepts packet d e ∧ 4 ≤ packet.length ∧ packetOffset packet + (packet.drop 3).length ≤ otaBufSize

instance (packet : List UInt8) (d : Device) (e : Event) : Decidable (Stores packet d e) :=
  inferInstanceAs (Decidable ((d.ota.active = true ∧ Writable d.auth .ble e.uptime ∧ HasCmd cmdOtaData packet ∧
    e.IsRequest fun c req => c = .ble ∧ req = packet) ∧ _ ∧ _))

/-- The packet that an event stores. -/
def stored (d : Device) (e : Event) : List (List UInt8) :=
  match e.input with
  | .request .ble _ req => if Stores req.bytes d e then [req.bytes] else []
  | _ => []

def dataLength (packet : List UInt8) : Nat := (packet.drop 3).length

/-- The positions that a packet writes. -/
def positions (packet : List UInt8) : Finset Nat :=
  Finset.Ico (packetOffset packet) (packetOffset packet + dataLength packet)

/-- The positions written in a run. -/
def written (d : Device) (es : List Event) : Finset Nat := cover ((machine.observe stored d es).map positions)

def Drops (packet : List UInt8) (d : Device) (e : Event) : Prop :=
  Accepts packet d e ∧ 4 ≤ packet.length ∧ otaBufSize < packetOffset packet + (packet.drop 3).length

theorem card_positions (packet : List UInt8) : (positions packet).card = dataLength packet := by
  rw [positions, Nat.card_Ico, Nat.add_sub_cancel_left]

section Step

variable {d : Device} {e : Event} {packet : List UInt8}

theorem stored_of_stores (h : Stores packet d e) : stored d e = [packet] := by
  obtain ⟨c, rand, req, hInput, rfl, rfl⟩ := isRequest_iff.mp h.1.2.2.2
  rw [stored, hInput]
  exact if_pos h

theorem stored_cases (d : Device) (e : Event) :
    (∃ packet, Stores packet d e) ∨ (stored d e = [] ∧ ∀ packet, ¬ Stores packet d e) := by
  by_cases hStores : ∃ packet, Stores packet d e
  · exact .inl hStores
  · have hNone : ∀ packet, ¬ Stores packet d e := fun packet hPacket => hStores ⟨packet, hPacket⟩
    refine .inr ⟨?_, hNone⟩
    unfold stored
    split
    · exact if_neg (hNone _)
    · rfl

theorem mem_stored_iff : packet ∈ stored d e ↔ Stores packet d e := by
  obtain ⟨packet', hStores⟩ | ⟨hNil, hNone⟩ := stored_cases d e
  · rw [stored_of_stores hStores, List.mem_singleton]
    constructor
    · rintro rfl
      exact hStores
    · exact fun h => h.1.2.unique hStores.1.2
  · rw [hNil]
    exact ⟨fun hMem => absurd hMem List.not_mem_nil, fun h => absurd h (hNone packet)⟩

theorem otaData_of_stores (h : Stores packet d e) :
    (otaData d.ota packet).1.bytesReceived = d.ota.bytesReceived + UInt32.ofNat (dataLength packet) ∧
      (otaData d.ota packet).1.buf.toList = writeAt d.ota.buf.toList (packetOffset packet) (packet.drop 3) := by
  obtain ⟨⟨hActive, -⟩, hLength, hFits⟩ := h
  refine ⟨?_, buf_otaData_of_fits hActive hLength hFits⟩
  unfold packetOffset at hFits
  unfold otaData
  rw [hActive, if_neg (by decide), if_pos hLength]
  dsimp only
  rw [dif_pos hFits]
  rfl

/-- A packet that is not stored leaves the bytes and their number alone. -/
theorem otaData_of_not_stores {ota : OtaState} {data : List UInt8}
    (h : ¬ (ota.active = true ∧ 4 ≤ data.length ∧ packetOffset data + (data.drop 3).length ≤ otaBufSize)) :
    (otaData ota data).1.bytesReceived = ota.bytesReceived ∧ (otaData ota data).1.buf = ota.buf := by
  unfold packetOffset at h
  unfold otaData
  split
  · exact ⟨rfl, rfl⟩
  · rename_i hActive
    split
    · rename_i hLength
      dsimp only
      rw [dif_neg fun hFits => h ⟨by simpa using hActive, hLength, hFits⟩]
      exact ⟨rfl, rfl⟩
    · exact ⟨rfl, rfl⟩

/-- Between OTA_STARTs an event adds what it stores. -/
theorem progress_next (hStart : ∀ packet, ¬ Commands cmdOtaStart packet d e) :
    (machine.next d e).ota.bytesReceived =
        d.ota.bytesReceived + UInt32.ofNat ((stored d e).map dataLength).sum ∧
      (machine.next d e).ota.buf.toList =
        (stored d e).foldl (fun buf packet => writeAt buf (packetOffset packet) (packet.drop 3)) d.ota.buf.toList := by
  obtain ⟨packet, hStores⟩ | ⟨hNil, hNone⟩ := stored_cases d e
  · rw [stored_of_stores hStores, ota_next_of_data hStores.1.2]
    exact otaData_of_stores hStores
  · have hSame : (machine.next d e).ota.bytesReceived = d.ota.bytesReceived ∧
        (machine.next d e).ota.buf = d.ota.buf := by
      obtain ⟨packet, hCommands⟩ | ⟨packet, hCommands⟩ | ⟨packet, hCommands⟩ | hOta := ota_next_cases d e
      · exact absurd hCommands (hStart packet)
      · rw [ota_next_of_data hCommands]
        exact otaData_of_not_stores fun ⟨hActive, hLength, hFits⟩ =>
          hNone packet ⟨⟨hActive, hCommands⟩, hLength, hFits⟩
      · rw [ota_next_of_end hCommands]
        exact ⟨rfl, rfl⟩
      · rw [hOta]
        exact ⟨rfl, rfl⟩
    rw [hNil, hSame.1, hSame.2]
    exact ⟨(UInt32.add_zero _).symm, rfl⟩

end Step

/-! ## Since an OTA_START -/

/-- The run has no accepted OTA_START. -/
def Continues (d : Device) (es : List Event) : Prop :=
  ∀ p ∈ machine.situations d es, ∀ packet, ¬ Commands cmdOtaStart packet p.1 p.2

def CountsPositions (d : Device) (es : List Event) : Prop :=
  (machine.run d es).ota.bytesReceived.toNat = (written d es).card

/-- `packets_received` stays what it is when the data of a packet is dropped. -/
def SkipsDropped (d : Device) (es : List Event) : Prop :=
  ∀ p ∈ machine.situations d es, ∀ packet, Drops packet p.1 p.2 →
    (machine.next p.1 p.2).ota.nextIdx = p.1.ota.nextIdx

/-- What the state after a run says about the packets stored in it. -/
structure Progress (d : Device) (es : List Event) : Prop where
  buf : (machine.run d es).ota.buf.toList = (machine.observe stored d es).foldl
    (fun buf packet => writeAt buf (packetOffset packet) (packet.drop 3)) d.ota.buf.toList
  bytesReceived : (machine.run d es).ota.bytesReceived.toNat =
    ((machine.observe stored d es).map dataLength).sum % 2 ^ 32
  written_le : (written d es).card ≤ ((machine.observe stored d es).map dataLength).sum
  inBuffer : (written d es).card ≤ otaBufSize
  /-- The positions are counted right, in all states of the run, if no two packets overlap. -/
  countsPositions_iff : (∀ pre, pre <+: es → CountsPositions d pre) ↔
    ((machine.observe stored d es).map positions).Pairwise Disjoint

section Run

variable {d : Device} {es : List Event}

theorem continues_concat {e : Event} :
    Continues d (es ++ [e]) ↔ Continues d es ∧ ∀ packet, ¬ Commands cmdOtaStart packet (machine.run d es) e := by
  unfold Continues
  rw [Machine.situations_append, List.forall_mem_append]
  exact and_congr_right fun _ => List.forall_mem_singleton

theorem progress_run (h : Continues d es) :
    (machine.run d es).ota.bytesReceived =
        d.ota.bytesReceived + UInt32.ofNat ((machine.observe stored d es).map dataLength).sum ∧
      (machine.run d es).ota.buf.toList = (machine.observe stored d es).foldl
        (fun buf packet => writeAt buf (packetOffset packet) (packet.drop 3)) d.ota.buf.toList := by
  induction es using List.reverseRecOn with
  | nil => exact ⟨(UInt32.add_zero _).symm, rfl⟩
  | append_singleton es e ih =>
    obtain ⟨hBefore, hNow⟩ := continues_concat.mp h
    obtain ⟨hBytes, hBuf⟩ := ih hBefore
    obtain ⟨hNextBytes, hNextBuf⟩ := progress_next hNow
    rw [Machine.run_append, Machine.run_cons, Machine.run_nil, Machine.observe_concat, hNextBytes, hNextBuf, hBytes,
      hBuf, List.map_append, List.sum_append, UInt32.ofNat_add, UInt32.add_assoc, List.foldl_append]
    exact ⟨rfl, rfl⟩

theorem map_card_positions (packets : List (List UInt8)) :
    (packets.map positions).map Finset.card = packets.map dataLength := by
  rw [List.map_map]
  exact List.map_congr_left fun packet _ => card_positions packet

theorem card_written_le (d : Device) (es : List Event) : (written d es).card ≤ otaBufSize := by
  have hSubset : written d es ⊆ Finset.range otaBufSize := by
    rw [written, cover_subset_iff]
    intro range hRange
    obtain ⟨packet, hPacket, rfl⟩ := List.mem_map.mp hRange
    obtain ⟨p, -, hStored⟩ := List.mem_flatMap.mp hPacket
    obtain ⟨-, -, hFits⟩ := mem_stored_iff.mp hStored
    intro i hi
    exact Finset.mem_range.mpr (Nat.lt_of_lt_of_le (Finset.mem_Ico.mp hi).2 hFits)
  exact (Finset.card_le_card hSubset).trans_eq (Finset.card_range _)

theorem card_written_eq_iff : (written d es).card = ((machine.observe stored d es).map dataLength).sum ↔
    ((machine.observe stored d es).map positions).Pairwise Disjoint := by
  rw [← card_cover_eq_iff, map_card_positions]
  rfl

/-- A packet is shorter than the buffer. -/
theorem sum_stored_le (d : Device) (e : Event) : ((stored d e).map dataLength).sum ≤ otaBufSize := by
  obtain ⟨packet, hStores⟩ | ⟨hNil, -⟩ := stored_cases d e
  · rw [stored_of_stores hStores, List.map_singleton, List.sum_singleton]
    exact (Nat.le_add_left _ _).trans hStores.2.2
  · rw [hNil]
    exact Nat.zero_le _

theorem toNat_bytesReceived (h : Continues d es) (hZero : d.ota.bytesReceived = 0) :
    (machine.run d es).ota.bytesReceived.toNat = ((machine.observe stored d es).map dataLength).sum % 2 ^ 32 := by
  rw [(progress_run h).1, hZero, UInt32.zero_add, UInt32.toNat_ofNat']

/-- With the first packet that overlaps an earlier one the count goes wrong. -/
theorem countsPositions_iff (h : Continues d es) (hZero : d.ota.bytesReceived = 0) :
    (∀ pre, pre <+: es → CountsPositions d pre) ↔
      (written d es).card = ((machine.observe stored d es).map dataLength).sum := by
  induction es using List.reverseRecOn with
  | nil =>
    refine iff_of_true ?_ rfl
    intro pre hPre
    obtain rfl := List.prefix_nil.mp hPre
    rw [CountsPositions, Machine.run_nil, hZero]
    rfl
  | append_singleton es e ih =>
    have hTotal := toNat_bytesReceived h hZero
    have hInit := ih (continues_concat.mp h).1
    constructor
    · intro hAll
      have hBefore := hInit.mp fun pre hPre => hAll pre (hPre.trans (List.prefix_append es [e]))
      have hNow := hAll (es ++ [e]) List.prefix_rfl
      have hBuffer := card_written_le d es
      have hLast := sum_stored_le (machine.run d es) e
      have hSize : otaBufSize = 32768 := rfl
      rw [CountsPositions, hTotal] at hNow
      rw [Machine.observe_concat, List.map_append, List.sum_append] at hNow ⊢
      omega
    · intro hCard pre hPre
      obtain rfl | hBefore := List.prefix_concat_iff.mp hPre
      · rw [CountsPositions, hTotal, ← hCard]
        exact Nat.mod_eq_of_lt (Nat.lt_of_le_of_lt (card_written_le d _) (by decide))
      · have hDisjoint := card_written_eq_iff.mp hCard
        rw [Machine.observe_concat, List.map_append, List.pairwise_append] at hDisjoint
        exact hInit.mpr (card_written_eq_iff.mpr hDisjoint.1) pre hBefore

end Run

/-- Whatever comes after an OTA_START, `bytes_received` adds up the lengths of the packets stored. -/
theorem progress_of_start (d : Device) (start : Event) (packet : List UInt8)
    (hStart : Commands cmdOtaStart packet d start)
    (es : List Event) (hSince : Continues (machine.next d start) es) : Progress (machine.next d start) es := by
  have hZero : (machine.next d start).ota.bytesReceived = 0 := by
    rw [ota_next_of_start hStart]
    rfl
  refine ⟨(progress_run hSince).2, toNat_bytesReceived hSince hZero, ?_, card_written_le _ es, ?_⟩
  · rw [← map_card_positions]
    exact card_cover_le _
  · rw [countsPositions_iff hSince hZero, card_written_eq_iff]

/-! ## One packet twice, and one that does not fit -/

open Revocation Isolation

def startEvent : Event := ⟨4, .request .ble noRand ⟨[cmdOtaStart, 0x00, 0x00, 0x00, 0x01], by decide⟩⟩
def firstPacket : Event := ⟨5, .request .ble noRand ⟨[cmdOtaData, 0x00, 0x00, 0xAB], by decide⟩⟩
def farPacket : Event := ⟨6, .request .ble noRand ⟨[cmdOtaData, 0x01, 0x00, 0xAB], by decide⟩⟩

/-- The state after the handshake and an OTA_START. -/
def transfer (d : Device) : Device := machine.next (unlockBle d) startEvent

section Transfer

variable {d : Device} {e : Event} {packet : List UInt8}

theorem commands_startEvent (d : Device) :
    Commands cmdOtaStart [cmdOtaStart, 0x00, 0x00, 0x00, 0x01] (unlockBle d) startEvent :=
  ⟨writable_of_handshake d .ble le_top, rfl, rfl, rfl⟩

theorem receiving_of_start (h : ∀ t, Writable d.auth .ble t) (hStart : Commands cmdOtaStart packet d e) :
    Receiving (machine.next d e) := by
  rw [Machine.next, step_of_start hStart]
  exact ⟨h, rfl⟩

theorem receiving_transfer (d : Device) : Receiving (transfer d) :=
  receiving_of_start (fun _ => writable_of_handshake d .ble le_top) (commands_startEvent d)

theorem stores_firstPacket (h : Receiving d) : Stores [cmdOtaData, 0x00, 0x00, 0xAB] d firstPacket :=
  ⟨accepts_of_receiving h rfl ⟨rfl, rfl⟩, by decide, by decide⟩

theorem observe_twice (h : Receiving d) : machine.observe stored d [firstPacket, firstPacket] =
    [[cmdOtaData, 0x00, 0x00, 0xAB], [cmdOtaData, 0x00, 0x00, 0xAB]] := by
  have hFirst := stores_firstPacket h
  have hSecond := stores_firstPacket (receiving_next h hFirst.1)
  change stored d firstPacket ++ (stored (machine.next d firstPacket) firstPacket ++ []) = _
  rw [stored_of_stores hFirst, stored_of_stores hSecond]
  rfl

theorem not_start_of_accepts (h : Accepts packet d e) (packet' : List UInt8) : ¬ Commands cmdOtaStart packet' d e := by
  intro hStart
  obtain rfl := h.2.unique hStart
  exact absurd (h.2.2.1.unique hStart.2.1) (by decide)

theorem continues_twice (h : Receiving d) : Continues d [firstPacket, firstPacket] := by
  have hFirst := (stores_firstPacket h).1
  have hSecond := (stores_firstPacket (receiving_next h hFirst)).1
  intro p hp
  obtain rfl | hp := List.mem_cons.mp hp
  · exact not_start_of_accepts hFirst
  · obtain rfl := List.mem_singleton.mp hp
    exact not_start_of_accepts hSecond

theorem ota_transfer (d : Device) :
    (transfer d).ota = (otaStart (unlockBle d).ota [cmdOtaStart, 0x00, 0x00, 0x00, 0x01]).1 :=
  ota_next_of_start (commands_startEvent d)

/-- The same byte twice counts as two. -/
theorem not_countsPositions_twice (d : Device) : ¬ CountsPositions (transfer d) [firstPacket, firstPacket] := by
  have hReceiving := receiving_transfer d
  have hZero : (transfer d).ota.bytesReceived = 0 := by
    rw [ota_transfer]
    rfl
  rw [CountsPositions, toNat_bytesReceived (continues_twice hReceiving) hZero, written, observe_twice hReceiving]
  decide

theorem drops_farPacket (h : Receiving d) : Drops [cmdOtaData, 0x01, 0x00, 0xAB] d farPacket :=
  ⟨accepts_of_receiving h rfl ⟨rfl, rfl⟩, by decide, by decide⟩

/-- A packet that does not fit is counted nevertheless. -/
theorem nextIdx_farPacket (h : Receiving d) : (machine.next d farPacket).ota.nextIdx = 0x0101 := by
  rw [ota_next_of_data (drops_farPacket h).1.2, otaData, h.2]
  rfl

theorem not_skipsDropped_of_receiving (h : Receiving d) (hIdx : d.ota.nextIdx ≠ 0x0101) :
    ¬ SkipsDropped d [farPacket] := by
  intro hSkips
  have hSame := hSkips (d, farPacket) List.mem_cons_self _ (drops_farPacket h)
  exact hIdx (hSame.symm.trans (nextIdx_farPacket h))

theorem not_skipsDropped_far (d : Device) : ¬ SkipsDropped (transfer d) [farPacket] := by
  refine not_skipsDropped_of_receiving (receiving_transfer d) ?_
  rw [ota_transfer]
  exact (by decide : (0 : UInt16) ≠ 0x0101)

end Transfer

theorem progress_twice : Progress (transfer boot) [firstPacket, firstPacket] :=
  progress_of_start (unlockBle boot) startEvent _ (commands_startEvent boot) _
    (continues_twice (receiving_transfer boot))

/-- After the handshake and an OTA_START: one packet twice, and one packet that is dropped. -/
theorem transfer_miscounts : Continues (transfer boot) [firstPacket, firstPacket] ∧
    ¬ CountsPositions (transfer boot) [firstPacket, firstPacket] ∧ ¬ SkipsDropped (transfer boot) [farPacket] :=
  ⟨continues_twice (receiving_transfer boot), not_countsPositions_twice boot, not_skipsDropped_far boot⟩

end IotRange.OtaProgress
