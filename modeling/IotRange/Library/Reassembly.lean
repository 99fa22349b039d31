import IotRange.Library.Blocks
import IotRange.Library.Bytes
import Mathlib.Data.Set.Insert

/-! # Reassembly of an image

Blocks that are written to their places in any order, and any number of times, leave the image in
the buffer and everything behind it as it was.
-/
namespace IotRange
set_option autoImplicit false

section WriteAt

variable {buf data : List UInt8} {offset i : Nat}

theorem getElem?_writeAt_of_inside (h : offset + data.length ≤ buf.length) (hFrom : offset ≤ i)
    (hTo : i < offset + data.length) : (writeAt buf offset data)[i]? = data[i - offset]? := by
  have hOffset : (buf.take offset).length = offset := List.length_take_of_le (by omega)
  rw [writeAt, List.append_assoc, List.getElem?_append_right (by omega), hOffset,
    List.getElem?_append_left (by omega)]

theorem getElem?_writeAt_of_outside (h : offset + data.length ≤ buf.length)
    (hOutside : i < offset ∨ offset + data.length ≤ i) : (writeAt buf offset data)[i]? = buf[i]? := by
  have hOffset : (buf.take offset).length = offset := List.length_take_of_le (by omega)
  rw [writeAt, List.append_assoc]
  obtain hBefore | hAfter := hOutside
  · rw [List.getElem?_append_left (by omega), List.getElem?_take_of_lt hBefore]
  · rw [List.getElem?_append_right (by omega), hOffset, List.getElem?_append_right (by omega), List.getElem?_drop]
    congr 1
    omega

/-- Written again to its place, a block changes nothing. -/
theorem writeAt_again (h : offset + data.length ≤ buf.length) :
    writeAt (writeAt buf offset data) offset data = writeAt buf offset data := by
  have hAgain : offset + data.length ≤ (writeAt buf offset data).length := by rwa [length_writeAt h]
  refine List.ext_getElem? fun i => ?_
  by_cases hInside : offset ≤ i ∧ i < offset + data.length
  · rw [getElem?_writeAt_of_inside hAgain hInside.1 hInside.2, getElem?_writeAt_of_inside h hInside.1 hInside.2]
  · exact getElem?_writeAt_of_outside hAgain (by omega)

end WriteAt

/-- The blocks that have arrived are in their places, and every other position holds what it held. -/
structure Assembled (size : Nat) (image before : List UInt8) (arrived : Set Nat) (buf : List UInt8) : Prop where
  length : buf.length = before.length
  inside : ∀ i < image.length, i / size ∈ arrived → buf[i]? = image[i]?
  outside : ∀ i, ¬ (i < image.length ∧ i / size ∈ arrived) → buf[i]? = before[i]?

section Assembled

variable {size : Nat} {image before buf : List UInt8} {arrived : Set Nat}

theorem assembled_empty (size : Nat) (image before : List UInt8) : Assembled size image before ∅ before where
  length := rfl
  inside := fun _ _ hArrived => absurd hArrived (Set.notMem_empty _)
  outside := fun _ _ => rfl

/-- One more block, or one of those again. -/
theorem Assembled.write (h : Assembled size image before arrived buf) (hSize : 0 < size)
    (hFits : image.length ≤ before.length) {k : Nat} (hBlock : k * size < image.length) :
    Assembled size image before (insert k arrived) (writeAt buf (k * size) (block size image k)) := by
  have hLength := length_block size image k
  have hInBuf : k * size + (block size image k).length ≤ buf.length := by
    rw [h.length]
    omega
  have hPlace (i : Nat) (hImage : i < image.length) :
      i / size = k ↔ k * size ≤ i ∧ i < k * size + (block size image k).length := by
    rw [Nat.div_eq_iff hSize]
    omega
  refine ⟨(length_writeAt hInBuf).trans h.length, ?_, ?_⟩
  · intro i hImage hArrived
    by_cases hSame : i / size = k
    · obtain ⟨hFrom, hTo⟩ := (hPlace i hImage).mp hSame
      rw [getElem?_writeAt_of_inside hInBuf hFrom hTo, getElem?_block hFrom (by omega)]
    · rw [getElem?_writeAt_of_outside hInBuf (by have := (hPlace i hImage).not.mp hSame; omega)]
      exact h.inside i hImage (Set.mem_of_mem_insert_of_ne hArrived hSame)
  · intro i hNot
    have hElsewhere : i < k * size ∨ k * size + (block size image k).length ≤ i := by
      by_contra hPosition
      have hImage : i < image.length := by omega
      exact hNot ⟨hImage, Set.mem_insert_iff.mpr (.inl ((hPlace i hImage).mpr (by omega)))⟩
    rw [getElem?_writeAt_of_outside hInBuf hElsewhere]
    exact h.outside i fun hBefore => hNot ⟨hBefore.1, Set.mem_insert_of_mem k hBefore.2⟩

theorem Assembled.complete (h : Assembled size image before arrived buf)
    (hAll : ∀ i < image.length, i / size ∈ arrived) : buf = image ++ before.drop image.length := by
  apply List.ext_getElem?
  intro i
  by_cases hImage : i < image.length
  · rw [h.inside i hImage (hAll i hImage), List.getElem?_append_left hImage]
  · rw [h.outside i fun hInside => hImage hInside.1, List.getElem?_append_right (by omega), List.getElem?_drop,
      Nat.add_sub_cancel' (by omega)]

end Assembled

end IotRange
