import IotRange.AppProtocol.Replies

/-! # Which CMD 0x01 requests are accepted

The number of id bytes is kept in eight bits, so it is compared with FIELD_COUNT modulo 256.
-/
namespace IotRange.ReadAcceptance
open AppAuth AppFields AppProtocol
set_option autoImplicit false

/-- The request without the bytes behind its first FIELD_COUNT ids. -/
def announced (req : List UInt8) : List UInt8 := req.take (6 + (byteAt req 5).toNat)

/-- OK exactly when the announced ids are there, are readable and fit; nothing behind them matters. -/
structure AcceptsReads (f : Store) (req : List UInt8) : Prop where
  answeredOk_iff : AnsweredOk (handleCmdRead f req appProtoRespMax).2 ↔
    (byteAt req 5).toNat ≤ req.length - 6 ∧ ReadFits (requestedIds req) appProtoRespMax
  announced : (handleCmdRead f req appProtoRespMax).2 = (handleCmdRead f (announced req) appProtoRespMax).2

section Requests

variable {f : Store} {req : List UInt8}

theorem length_of_count (h : byteAt req 5 ≠ 0) : 6 ≤ req.length := by
  by_contra hShort
  exact h (List.getD_eq_default _ _ (by omega))

theorem handleCmdRead_of_fewIds {respMax : Nat} (hMax : 3 ≤ respMax) (hCount : byteAt req 5 ≠ 0)
    (hFew : (req.length - 6) % 256 < (byteAt req 5).toNat) :
    (handleCmdRead f req respMax).2 = [cmdRead, Status.paramLen.code, 0x00] := by
  have hIds : byteAt req 5 > UInt8.ofNat (req.length - 6) := by
    rwa [gt_iff_lt, UInt8.lt_iff_toNat_lt, UInt8.toNat_ofNat']
  rw [handleCmdRead, if_neg (not_lt.mpr (length_of_count hCount))]
  dsimp only
  rw [if_neg (not_lt.mpr hMax), if_neg hCount, if_pos hIds]

/-- Listed ids are answered OK when they fit, and refused with another status than PARAM_LEN otherwise. -/
theorem handleCmdRead_listed (h : ListsFields req) :
    (ReadFits (requestedIds req) appProtoRespMax ∧ AnsweredOk (handleCmdRead f req appProtoRespMax).2) ∨
      (¬ AnsweredOk (handleCmdRead f req appProtoRespMax).2 ∧ ¬ ReadFits (requestedIds req) appProtoRespMax ∧
        (handleCmdRead f req appProtoRespMax).2 ≠ [cmdRead, Status.paramLen.code, 0x00]) := by
  rw [handleCmdRead_of_listsFields h (by decide)]
  by_cases hFits : ReadFits (requestedIds req) appProtoRespMax
  · rw [readListedFields_of_fits hFits]
    exact .inl ⟨hFits, rfl⟩
  · have hOutcomes := readListedFields_outcomes (appFieldSetUnixtime f (readBe32 (req.drop 1))) (requestedIds req)
      (show 3 ≤ appProtoRespMax by decide)
    obtain ⟨status, fieldId, hStatus, hRefused⟩ | ⟨hFull, -⟩ := hOutcomes
    · rw [hRefused]
      refine .inr ⟨?_, hFits, ?_⟩
      · intro hOk
        have hCode := Status.code_injective (Option.some.inj hOk)
        obtain rfl | rfl := hStatus <;> cases hCode
      · intro hSame
        have hCode := Status.code_injective (List.cons.inj (List.cons.inj hSame).2).1
        obtain rfl | rfl := hStatus <;> cases hCode
    · exact absurd hFull hFits

section Announced

theorem byteAt_announced (req : List UInt8) : byteAt (announced req) 5 = byteAt req 5 := byteAt_take (by omega)

theorem requestedIds_announced (req : List UInt8) : requestedIds (announced req) = requestedIds req := by
  rw [requestedIds, byteAt_announced, requestedIds, announced, List.drop_take, Nat.add_sub_cancel_left, List.take_take,
    Nat.min_self]

variable (hCount : byteAt req 5 ≠ 0)

include hCount

theorem length_announced (hIds : (byteAt req 5).toNat ≤ req.length - 6) :
    (announced req).length = 6 + (byteAt req 5).toNat := by
  have := length_of_count hCount
  exact List.length_take_of_le (by omega)

theorem listsFields_announced (hRead : HasCmd cmdRead req) (hIds : (byteAt req 5).toNat ≤ req.length - 6) :
    ListsFields (announced req) := by
  have hLength := length_announced hCount hIds
  have hByte := (byteAt req 5).toNat_lt
  refine ⟨?_, ?_, ?_, ?_⟩
  · rw [HasCmd, announced, List.take_take, Nat.min_eq_left (by omega)]
    exact hRead
  · rw [hLength]
    exact Nat.le_add_right 6 _
  · rwa [byteAt_announced]
  · rw [byteAt_announced, hLength]
    omega

theorem handleCmdRead_announced (hLists : ListsFields req) (hIds : (byteAt req 5).toNat ≤ req.length - 6) :
    (handleCmdRead f (announced req) appProtoRespMax).2 = (handleCmdRead f req appProtoRespMax).2 := by
  rw [handleCmdRead_of_listsFields hLists (by decide),
    handleCmdRead_of_listsFields (listsFields_announced hCount hLists.cmd hIds) (by decide),
    requestedIds_announced]
  rw [announced, List.drop_take, readBe32_take (by omega)]

end Announced

end Requests

/-- The reads are accepted as they should be unless the number of id bytes suffices and its low
eight bits do not. -/
theorem acceptsReads_iff (f : Store) (req : List UInt8) (hRead : HasCmd cmdRead req) (hCount : byteAt req 5 ≠ 0) :
    AcceptsReads f req ↔
      ((byteAt req 5).toNat ≤ req.length - 6 → (byteAt req 5).toNat ≤ (req.length - 6) % 256) := by
  have hHeader := length_of_count hCount
  have hByte := (byteAt req 5).toNat_lt
  have hMax : 3 ≤ appProtoRespMax := by decide
  constructor
  · rintro ⟨hOk, hSame⟩ hIds
    by_contra hFew
    have hRefused := handleCmdRead_of_fewIds (f := f) hMax hCount (not_le.mp hFew)
    obtain ⟨hFits, -⟩ | ⟨-, -, hOther⟩ :=
      handleCmdRead_listed (f := f) (listsFields_announced hCount hRead hIds)
    · rw [requestedIds_announced] at hFits
      have hAnswered := hOk.mpr ⟨hIds, hFits⟩
      rw [hRefused] at hAnswered
      revert hAnswered
      decide
    · exact hOther (hSame.symm.trans hRefused)
  · intro hEnough
    by_cases hIds : (byteAt req 5).toNat ≤ req.length - 6
    · have hLists : ListsFields req := ⟨hRead, hHeader, hCount, hEnough hIds⟩
      refine ⟨?_, (handleCmdRead_announced hCount hLists hIds).symm⟩
      obtain ⟨hFits, hAnswered⟩ | ⟨hRefused, hFull, -⟩ := handleCmdRead_listed (f := f) hLists
      · exact ⟨fun _ => ⟨hIds, hFits⟩, fun _ => hAnswered⟩
      · exact ⟨fun hAnswered => absurd hAnswered hRefused, fun h => absurd h.2 hFull⟩
    · have hFew : (req.length - 6) % 256 < (byteAt req 5).toNat := by omega
      have hAll : announced req = req := List.take_of_length_le (by omega)
      refine ⟨?_, by rw [hAll]⟩
      rw [handleCmdRead_of_fewIds hMax hCount hFew]
      exact ⟨fun hAnswered => absurd hAnswered (by decide), fun h => absurd h.1 hIds⟩

/-- Reads BATTERY twice and then MODE. -/
theorem acceptsReads_three : AcceptsReads Store.static [0x01, 0, 0, 0, 0, 0x03, 0x10, 0x10, 0x20] :=
  (acceptsReads_iff Store.static [0x01, 0, 0, 0, 0, 0x03, 0x10, 0x10, 0x20] rfl (by decide)).mpr (by decide)

/-- BATTERY once, and 255 more bytes. -/
def longRead : List UInt8 := [0x01, 0, 0, 0, 0, 0x01] ++ List.replicate 256 0x10

theorem longRead_not_accepted : ¬ AcceptsReads Store.static longRead := by
  rintro ⟨hOk, -⟩
  have hLength : longRead.length = 262 := by
    rw [longRead, List.length_append, List.length_replicate]
    rfl
  have hIds : requestedIds longRead = [0x10] := rfl
  have hFits : ReadFits (requestedIds longRead) appProtoRespMax := by
    rw [hIds]
    exact ⟨List.all_eq_true.mp rfl, by decide⟩
  have hAnswered := hOk.mpr ⟨by rw [hLength]; decide, hFits⟩
  rw [handleCmdRead_of_fewIds (by decide) (by decide) (by rw [hLength]; decide)] at hAnswered
  revert hAnswered
  decide

end IotRange.ReadAcceptance
