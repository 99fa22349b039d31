import IotRange.Library.Machine

/-! # Simulation of one machine by another

Each step of the concrete machine is a run of the abstract one, on the inputs it stands for. What
holds of a step then holds of a run.
-/
namespace IotRange.Machine
set_option autoImplicit false

universe u v w u' v' w'

variable {σ : Type u} {ι : Type v} {ο : Type w} {σ' : Type u'} {ι' : Type v'} {ο' : Type w'}
variable (M : Machine σ ι ο) (N : Machine σ' ι' ο')

/-- `abs` is the abstract state of a state with the invariant, and `inputs` the abstract inputs of a step. -/
structure Simulates (I : σ → Prop) (abs : σ → σ') (inputs : σ → ι → List ι') : Prop where
  invariant : ∀ s i, I s → I (M.next s i)
  step : ∀ s i, I s → N.run (abs s) (inputs s i) = abs (M.next s i)

section Runs

variable {M N}
variable {I : σ → Prop} {abs : σ → σ'} {inputs : σ → ι → List ι'}

theorem Simulates.invariant_run (h : M.Simulates N I abs inputs) {s : σ} (hs : I s) (is : List ι) : I (M.run s is) :=
  M.run_invariant h.invariant s is hs

theorem Simulates.run (h : M.Simulates N I abs inputs) {s : σ} (hs : I s) (is : List ι) :
    N.run (abs s) (M.observe inputs s is) = abs (M.run s is) := by
  induction is using List.reverseRecOn with
  | nil => rfl
  | append_singleton is i ih =>
    rw [observe_concat, run_append, ih, h.step _ i (h.invariant_run hs is), run_append]
    rfl

theorem observe_append {ω : Type*} (see : σ → ι → List ω) (s : σ) (is js : List ι) :
    M.observe see s (is ++ js) = M.observe see s is ++ M.observe see (M.run s is) js := by
  rw [observe, situations_append, List.flatMap_append]
  rfl

/-- What a step shows is what its abstract inputs show. -/
theorem Simulates.observe (h : M.Simulates N I abs inputs) {ω : Type*} {see : σ → ι → List ω} {see' : σ' → ι' → List ω}
    (hSee : ∀ s i, I s → N.observe see' (abs s) (inputs s i) = see s i) {s : σ} (hs : I s) (is : List ι) :
    N.observe see' (abs s) (M.observe inputs s is) = M.observe see s is := by
  induction is using List.reverseRecOn with
  | nil => rfl
  | append_singleton is i ih =>
    rw [observe_concat, observe_append, ih, h.run hs is, hSee _ i (h.invariant_run hs is), observe_concat]

end Runs

end IotRange.Machine
