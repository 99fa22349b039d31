import IotRange.Library.Machine

/-! # Runs that lose what they hold

A step may drop what is held, as a loss of power does. What goes out is still part of what has come
in, in its order, and each loss costs at most what can be held.
-/
namespace IotRange.Machine
set_option autoImplicit false

universe u v w

variable {σ : Type u} {ι : Type v} {ο : Type w} (M : Machine σ ι ο) {ω : Type*} {I : σ → Prop}
variable (come gone : σ → ι → List ω) (held : σ → List ω)

theorem observe_sublist (hStep : ∀ s i, I s → I (M.next s i))
    (hBalance : ∀ s i, I s → (gone s i ++ held (M.next s i)).Sublist (held s ++ come s i)) {s : σ} (h : I s)
    (is : List ι) : (M.observe gone s is ++ held (M.run s is)).Sublist (held s ++ M.observe come s is) := by
  induction is using List.reverseRecOn with
  | nil => exact (List.append_nil (held s)).symm ▸ List.Sublist.refl _
  | append_singleton is i ih =>
    have hNow := hBalance (M.run s is) i (M.run_invariant hStep s is h)
    rw [observe_concat, observe_concat, run_append, run_cons, run_nil, List.append_assoc, ← List.append_assoc (held s)]
    calc
      (M.observe gone s is ++ (gone (M.run s is) i ++ held (M.next (M.run s is) i))).Sublist
          (M.observe gone s is ++ (held (M.run s is) ++ come (M.run s is) i)) := hNow.append_left _
      _ = (M.observe gone s is ++ held (M.run s is)) ++ come (M.run s is) i := (List.append_assoc _ _ _).symm
      List.Sublist _ ((held s ++ M.observe come s is) ++ come (M.run s is) i) := ih.append_right _

theorem length_observe_le (loses : σ → ι → Prop) [DecidableRel loses] (most : Nat)
    (hStep : ∀ s i, I s → I (M.next s i))
    (hLoss : ∀ s i, I s → (held s).length + (come s i).length ≤
      (gone s i).length + (held (M.next s i)).length + if loses s i then most else 0) {s : σ} (h : I s) (is : List ι) :
    (held s).length + (M.observe come s is).length ≤
      (M.observe gone s is).length + (held (M.run s is)).length +
        most * (M.situations s is).countP (fun p => loses p.1 p.2) := by
  induction is using List.reverseRecOn with
  | nil => simp [observe]
  | append_singleton is i ih =>
    have hNow := hLoss (M.run s is) i (M.run_invariant hStep s is h)
    have hLoses : (M.situations s (is ++ [i])).countP (fun p => loses p.1 p.2) =
        (M.situations s is).countP (fun p => loses p.1 p.2) + if loses (M.run s is) i then 1 else 0 := by
      simp [List.countP_cons]
    rw [observe_concat, observe_concat, List.length_append, List.length_append, hLoses, run_append, run_cons, run_nil,
      Nat.mul_add]
    split at hNow
    · rw [if_pos ‹_›, Nat.mul_one]
      omega
    · rw [if_neg ‹_›, Nat.mul_zero]
      omega

end IotRange.Machine
