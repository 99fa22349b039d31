import IotRange.Library.Bytes
import IotRange.Library.Framing

/-! # NDEF files and records

A record is flags, type length, payload length in one byte or four, an ID length if there is an ID,
then type, ID and payload. A short record without an ID has a decoder of its own. A file is a
two-byte message length and the message.
-/
namespace IotRange.Ndef
set_option autoImplicit false

abbrev mb : UInt8 := 0x80
abbrev me : UInt8 := 0x40
abbrev sr : UInt8 := 0x10
abbrev il : UInt8 := 0x08
abbrev tnfMask : UInt8 := 0x07
abbrev tnfExternal : UInt8 := 0x04

structure ShortRecord where
  flags : UInt8
  type : List UInt8
  payload : List UInt8
  length_type_lt : type.length < 256
  length_payload_lt : payload.length < 256

namespace ShortRecord

def bytes (r : ShortRecord) : List UInt8 :=
  r.flags :: UInt8.ofNat r.type.length :: UInt8.ofNat r.payload.length :: (r.type ++ r.payload)

def split : List UInt8 → Except Unit (ShortRecord × List UInt8)
  | flags :: typeLen :: payloadLen :: rest =>
    if rest.length < typeLen.toNat + payloadLen.toNat then .error ()
    else
      .ok (⟨flags, rest.take typeLen.toNat, (rest.drop typeLen.toNat).take payloadLen.toNat,
          length_take_toNat_lt _ _, length_take_toNat_lt _ _⟩,
        rest.drop (typeLen.toNat + payloadLen.toNat))
  | _ => .error ()

theorem split_eq_ok (s : List UInt8) (r : ShortRecord) (rest : List UInt8) :
    split s = .ok (r, rest) ↔ s = r.bytes ++ rest := by
  constructor
  · intro h
    unfold split at h
    split at h
    · rename_i flags typeLen payloadLen tail
      split at h
      · cases h
      · rename_i hLength
        cases h
        have hType : (tail.take typeLen.toNat).length = typeLen.toNat := by
          rw [List.length_take]
          omega
        have hPayload : ((tail.drop typeLen.toNat).take payloadLen.toNat).length = payloadLen.toNat := by
          rw [List.length_take, List.length_drop]
          omega
        have hTail : tail.take typeLen.toNat ++ (tail.drop typeLen.toNat).take payloadLen.toNat ++
            tail.drop (typeLen.toNat + payloadLen.toNat) = tail := by
          rw [List.append_assoc, ← List.drop_drop, List.take_append_drop, List.take_append_drop]
        simp only [bytes, hType, hPayload, UInt8.ofNat_toNat, List.cons_append, hTail]
    · cases h
  · rintro rfl
    have hType := UInt8.toNat_ofNat_of_lt' r.length_type_lt
    have hPayload := UInt8.toNat_ofNat_of_lt' r.length_payload_lt
    have hLength : ¬ (r.type ++ r.payload ++ rest).length < r.type.length + r.payload.length := by simp
    simp only [bytes, List.cons_append, split, hType, hPayload, if_neg hLength]
    simp

end ShortRecord

def shortRecord : Framing UInt8 ShortRecord Unit where
  encode := ShortRecord.bytes
  decode := ShortRecord.split
  encode_ne_nil _ := List.cons_ne_nil _ _
  decode_eq_ok := ShortRecord.split_eq_ok

/-! ## Records of every form -/

structure Record where
  flags : UInt8
  type : List UInt8
  id : List UInt8
  payload : List UInt8
  length_type_lt : type.length < 256
  length_id_lt : id.length < 256
  id_of_no_il : flags &&& il = 0 → id = []
  length_payload_lt : payload.length < if flags &&& sr ≠ 0 then 256 else 2 ^ 32

namespace Record

variable (r : Record)

def payloadLength : List UInt8 :=
  if r.flags &&& sr ≠ 0 then [UInt8.ofNat r.payload.length] else be32 (UInt32.ofNat r.payload.length)

def idLength : List UInt8 := if r.flags &&& il = 0 then [] else [UInt8.ofNat r.id.length]

def header : List UInt8 := r.flags :: UInt8.ofNat r.type.length :: (r.payloadLength ++ r.idLength)

def bytes : List UInt8 := r.header ++ (r.type ++ (r.id ++ r.payload))

theorem length_payloadLength : r.payloadLength.length = if r.flags &&& sr ≠ 0 then 1 else 4 := by
  unfold payloadLength
  split <;> rfl

theorem length_idLength : r.idLength.length = if r.flags &&& il = 0 then 0 else 1 := by
  unfold idLength
  split <;> rfl

theorem length_payload_lt_two_pow : r.payload.length < 2 ^ 32 := by
  have hPayload := r.length_payload_lt
  split at hPayload
  · exact hPayload.trans (by decide)
  · exact hPayload

end Record

/-! ## Files -/

def fileLength (file : List UInt8) : Nat := (readBe16 file).toNat

def fileMessage (file : List UInt8) : List UInt8 := (file.drop 2).take (fileLength file)

end IotRange.Ndef
