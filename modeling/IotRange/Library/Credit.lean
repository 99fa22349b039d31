import IotRange.Library.Machine

/-! # Credit

A potential bounds how often a run does something: doing it costs one unit, and only steps of one
kind bring in new units, at most a fixed number of them each.
-/
namespace IotRange.Machine
set_option autoImplicit false

universe u v w

variable {σ : Type u} {ι : Type v} {ο : Type w} {M : Machine σ ι ο}

/-- Each use is paid from the potential, along with what the step leaves of it. -/
structure Paid (M : Machine σ ι ο) (I : σ → Prop) (potential : σ → Nat) (credit : Nat) (brings uses : σ → ι → Prop)
    [DecidableRel brings] [DecidableRel uses] : Prop where
  keeps : ∀ s i, I s → I (M.next s i)
  pays : ∀ s i, I s → (if uses s i then 1 else 0) + potential (M.next s i) ≤
    potential s + if brings s i then credit else 0

section Paid

variable {I : σ → Prop} {potential : σ → Nat} {credit : Nat} {brings uses : σ → ι → Prop}
variable [DecidableRel brings] [DecidableRel uses]

theorem Paid.countP_uses_le (h : M.Paid I potential credit brings uses) {s : σ} (hs : I s) (is : List ι) :
    (M.situations s is).countP (fun p => uses p.1 p.2) + potential (M.run s is) ≤
      potential s + credit * (M.situations s is).countP (fun p => brings p.1 p.2) := by
  induction is generalizing s with
  | nil => simp
  | cons i is ih =>
    have hRest := ih (h.keeps s i hs)
    have hOne := h.pays s i hs
    simp only [situations_cons, List.countP_cons, run_cons, decide_eq_true_eq]
    by_cases hBrings : brings s i
    · rw [if_pos hBrings] at hOne ⊢
      rw [Nat.mul_add, Nat.mul_one]
      omega
    · rw [if_neg hBrings] at hOne ⊢
      rw [Nat.add_zero]
      omega

/-- Without new credit the potential at the start is all there is to use. -/
theorem Paid.countP_uses_le_potential (h : M.Paid I potential credit brings uses) {s : σ} (hs : I s) {is : List ι}
    (hBrings : ∀ p ∈ M.situations s is, ¬ brings p.1 p.2) :
    (M.situations s is).countP (fun p => uses p.1 p.2) + potential (M.run s is) ≤ potential s := by
  have hCount := h.countP_uses_le hs is
  have hNone : (M.situations s is).countP (fun p => brings p.1 p.2) = 0 :=
    List.countP_eq_zero.mpr fun p hp => by simpa using hBrings p hp
  rwa [hNone, Nat.mul_zero, Nat.add_zero] at hCount

end Paid

end IotRange.Machine
