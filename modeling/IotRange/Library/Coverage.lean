import Mathlib.Algebra.GroupWithZero.Nat
import Mathlib.Data.Finset.Card
import Mathlib.Data.Finset.Union

/-! # What a list of finite sets covers

Counted with repetitions the sets are at least as large as what they cover, and exactly as large
if no two of them overlap.
-/
namespace IotRange.Coverage
set_option autoImplicit false

universe u

variable {α : Type u} [DecidableEq α]

def cover (ss : List (Finset α)) : Finset α := ss.foldr (· ∪ ·) ∅

@[simp] theorem cover_cons (s : Finset α) (ss : List (Finset α)) : cover (s :: ss) = s ∪ cover ss := rfl

theorem disjoint_cover_iff {s : Finset α} {ss : List (Finset α)} :
    Disjoint s (cover ss) ↔ ∀ t ∈ ss, Disjoint s t := by
  induction ss with
  | nil => simp [cover]
  | cons t ss ih => rw [cover_cons, Finset.disjoint_union_right, ih, List.forall_mem_cons]

theorem card_cover_le (ss : List (Finset α)) : (cover ss).card ≤ (ss.map Finset.card).sum := by
  induction ss with
  | nil => exact Nat.le_refl 0
  | cons s ss ih =>
    rw [cover_cons, List.map_cons, List.sum_cons]
    exact (Finset.card_union_le s _).trans (Nat.add_le_add_left ih _)

theorem card_cover_eq_iff {ss : List (Finset α)} :
    (cover ss).card = (ss.map Finset.card).sum ↔ ss.Pairwise Disjoint := by
  induction ss with
  | nil => exact ⟨fun _ => .nil, fun _ => rfl⟩
  | cons s ss ih =>
    have hUnion := Finset.card_union_add_card_inter s (cover ss)
    have hRest := card_cover_le ss
    rw [cover_cons, List.map_cons, List.sum_cons, List.pairwise_cons, ← ih, ← disjoint_cover_iff,
      Finset.disjoint_iff_inter_eq_empty, ← Finset.card_eq_zero]
    omega

theorem cover_subset_iff {ss : List (Finset α)} {s : Finset α} : cover ss ⊆ s ↔ ∀ t ∈ ss, t ⊆ s := by
  induction ss with
  | nil => simp [cover]
  | cons t ss ih => rw [cover_cons, Finset.union_subset_iff, ih, List.forall_mem_cons]

end IotRange.Coverage
