import IotRange.Library.LastWrite
import IotRange.Library.Machine
import Mathlib.Logic.Function.Basic

/-! # Maps written one key at a time

The abstract store is a map, and an input assigns one value to one key. A value is then what the
last assignment to its key says.
-/
namespace IotRange.KeyValue
open LastWrite Machine
set_option autoImplicit false

universe u v w

variable {κ : Type u} {ν : Type v} [DecidableEq κ]

variable (κ ν) in
def store : Machine (κ → ν) (κ × ν) Unit := ⟨fun m p => (Function.update m p.1 p.2, ())⟩

theorem store_next (m : κ → ν) (p : κ × ν) : (store κ ν).next m p = Function.update m p.1 p.2 := rfl

/-- The value of a key is that of its last assignment. -/
theorem store_run (m : κ → ν) (log : List (κ × ν)) (k : κ) :
    (store κ ν).run m log k = ((log.filter fun p => p.1 = k).getLast?.map Prod.snd).getD (m k) := by
  have hStep : ∀ p ∈ log, ∀ m : κ → ν,
      (store κ ν).next m p k = (if p.1 = k then some p.2 else none).getD (m k) := by
    intro p _ m
    rw [store_next, Function.update_apply]
    by_cases hKey : p.1 = k
    · rw [if_pos hKey, if_pos hKey.symm]
      rfl
    · rw [if_neg hKey, if_neg (Ne.symm hKey)]
      rfl
  rw [← lastSome_ite (fun p : κ × ν => p.1 = k) Prod.snd]
  exact @view_foldl _ _ _ (fun m : κ → ν => m k) _ _ _ m hStep

theorem store_run_of_not_mem {m : κ → ν} {log : List (κ × ν)} {k : κ} (h : ∀ p ∈ log, p.1 ≠ k) :
    (store κ ν).run m log k = m k := by
  have hNone : log.filter (fun p => p.1 = k) = [] := List.filter_eq_nil_iff.mpr fun p hp => by simpa using h p hp
  rw [store_run, hNone]
  rfl

/-- A register of a machine, which some steps load. -/
theorem view_run {σ : Type u} {ι : Type v} {ο : Type w} (M : Machine σ ι ο) {ω : Type*} (view : σ → ω)
    {loads : σ → ι → Option ω} (hStep : ∀ s i, view (M.next s i) = (loads s i).getD (view s)) (s : σ) (is : List ι) :
    view (M.run s is) = (lastSome (fun p => loads p.1 p.2) (M.situations s is)).getD (view s) := by
  induction is using List.reverseRecOn with
  | nil => rfl
  | append_singleton is i ih =>
    rw [run_append, run_cons, run_nil, hStep, ih, situations_append, situations_cons, situations_nil, lastSome_concat]
    cases loads (M.run s is) i <;> rfl

end IotRange.KeyValue
