import Mathlib.Data.List.Basic

/-! # Self-delimiting items and lists of them

A framing is an encoder with a decoder that recovers the first item and the rest of the input.
Splitting a whole input, or its first `n` items, then inverts concatenation, so the
decomposition of an input is unique whenever it exists.
-/
namespace IotRange
set_option autoImplicit false

universe u v w

structure Framing (α : Type u) (β : Type v) (ε : Type w) where
  encode : β → List α
  decode : List α → Except ε (β × List α)
  encode_ne_nil : ∀ x, encode x ≠ []
  decode_eq_ok : ∀ s x rest, decode s = .ok (x, rest) ↔ s = encode x ++ rest

namespace Framing

variable {α : Type u} {β : Type v} {ε : Type w} (F : Framing α β ε)

theorem decode_encode (x : β) (rest : List α) : F.decode (F.encode x ++ rest) = .ok (x, rest) :=
  (F.decode_eq_ok _ x rest).mpr rfl

theorem length_decode_lt {s rest : List α} {x : β} (h : F.decode s = .ok (x, rest)) :
    rest.length < s.length := by
  rw [(F.decode_eq_ok s x rest).mp h, List.length_append]
  have hPos := List.length_pos_iff.mpr (F.encode_ne_nil x)
  omega

def splitAll (s : List α) : Except ε (List β) :=
  if s = [] then .ok []
  else
    match _h : F.decode s with
    | .error e => .error e
    | .ok (x, rest) =>
      match splitAll rest with
      | .error e => .error e
      | .ok xs => .ok (x :: xs)
termination_by s.length
decreasing_by exact F.length_decode_lt _h

@[simp] theorem splitAll_nil : F.splitAll [] = .ok [] := by rw [splitAll, if_pos rfl]

theorem splitAll_of_error {s : List α} {e : ε} (hs : s ≠ []) (h : F.decode s = .error e) :
    F.splitAll s = .error e := by
  rw [splitAll, if_neg hs]
  split
  · rename_i hDecode
    rw [h] at hDecode
    rw [Except.error.inj hDecode]
  · rename_i hDecode
    rw [h] at hDecode
    cases hDecode

theorem splitAll_encode (x : β) (rest : List α) :
    F.splitAll (F.encode x ++ rest) = (F.splitAll rest).map (x :: ·) := by
  rw [splitAll, if_neg (by simp [F.encode_ne_nil x])]
  split
  · rename_i hDecode
    rw [F.decode_encode] at hDecode
    cases hDecode
  · rename_i hDecode
    rw [F.decode_encode] at hDecode
    cases hDecode
    cases F.splitAll rest <;> rfl

theorem splitAll_flatMap (xs : List β) : F.splitAll (xs.flatMap F.encode) = .ok xs := by
  induction xs with
  | nil => exact F.splitAll_nil
  | cons x xs ih =>
    rw [List.flatMap_cons, splitAll_encode, ih]
    rfl

theorem eq_flatMap_of_splitAll {s : List α} {xs : List β} (h : F.splitAll s = .ok xs) :
    s = xs.flatMap F.encode := by
  induction xs generalizing s with
  | nil =>
    rw [splitAll] at h
    split at h
    · assumption
    · split at h
      · cases h
      · split at h <;> cases h
  | cons x xs ih =>
    rw [splitAll] at h
    split at h
    · cases h
    · split at h
      · cases h
      · rename_i rest hDecode
        split at h
        · cases h
        · rename_i hRest
          cases h
          rw [(F.decode_eq_ok _ _ _).mp hDecode, ih hRest, List.flatMap_cons]

theorem splitAll_eq_ok {s : List α} {xs : List β} : F.splitAll s = .ok xs ↔ s = xs.flatMap F.encode :=
  ⟨F.eq_flatMap_of_splitAll, fun h => h ▸ F.splitAll_flatMap xs⟩

theorem flatMap_encode_injective : Function.Injective fun xs : List β => xs.flatMap F.encode := by
  intro xs ys h
  have hXs := F.splitAll_flatMap xs
  rw [show xs.flatMap F.encode = ys.flatMap F.encode from h, F.splitAll_flatMap ys] at hXs
  exact (Except.ok.inj hXs).symm

theorem prefix_unique {xs ys : List β} {s t : List α} (hLength : xs.length = ys.length)
    (h : xs.flatMap F.encode ++ s = ys.flatMap F.encode ++ t) : xs = ys ∧ s = t := by
  induction xs generalizing ys with
  | nil =>
    obtain rfl := List.length_eq_zero_iff.mp hLength.symm
    exact ⟨rfl, h⟩
  | cons x xs ih =>
    cases ys with
    | nil => cases hLength
    | cons y ys =>
      rw [List.flatMap_cons, List.flatMap_cons, List.append_assoc, List.append_assoc] at h
      have hDecode := F.decode_encode x (xs.flatMap F.encode ++ s)
      rw [h, F.decode_encode] at hDecode
      obtain ⟨rfl, hRest⟩ := Prod.mk.inj (Except.ok.inj hDecode)
      obtain ⟨rfl, rfl⟩ := ih (by simpa using hLength) hRest.symm
      exact ⟨rfl, rfl⟩

theorem suffix_of_prefix {xs ys : List β} {s : List α} (h : xs.flatMap F.encode = ys.flatMap F.encode ++ s) :
    ∃ zs, xs = ys ++ zs ∧ s = zs.flatMap F.encode := by
  induction ys generalizing xs with
  | nil => exact ⟨xs, rfl, h.symm⟩
  | cons y ys ih =>
    cases xs with
    | nil =>
      rw [List.flatMap_nil, List.flatMap_cons, List.append_assoc, eq_comm, List.append_eq_nil_iff] at h
      exact absurd h.1 (F.encode_ne_nil y)
    | cons x xs =>
      rw [List.flatMap_cons, List.flatMap_cons, List.append_assoc] at h
      have hDecode := F.decode_encode x (xs.flatMap F.encode)
      rw [h, F.decode_encode] at hDecode
      obtain ⟨rfl, hRest⟩ := Prod.mk.inj (Except.ok.inj hDecode)
      obtain ⟨zs, rfl, hs⟩ := ih hRest.symm
      exact ⟨zs, rfl, hs⟩

end Framing

end IotRange
